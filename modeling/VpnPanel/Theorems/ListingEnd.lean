import Mathlib.Algebra.GroupWithZero.Nat
import VpnPanel.Worker.Listing

/-!
# Which listings complete a reconcile

A reconcile completes after an empty page, whatever total was reported, or with
at least as many users as the last total. As long as it does not complete, no
profile is marked stale.
-/

namespace VpnPanel.Theorems

open VpnPanel.Lib VpnPanel.Backend VpnPanel.Worker

variable {cfg : Config} {db db' db'' : Db} {now : Time}

/-! ## Imports mark nothing stale -/

/-- Every stale profile was there before. -/
def NoNewStale (db db' : Db) : Prop :=
  ∀ r ∈ db'.profiles, r.syncStatus = .stale → r ∈ db.profiles

theorem NoNewStale.refl (db : Db) : NoNewStale db db := fun _ hr _ => hr

theorem NoNewStale.trans (h : NoNewStale db db') (h' : NoNewStale db' db'') :
    NoNewStale db db'' := fun r hr hstale => h r (h' r hr hstale) hstale

/-- The profiles after the tail of an item: its own, and those of other
accounts. -/
theorem finishUpsert_profiles (hwf : db.WF) {row : RemnawaveUser} (hr : row ∈ db.profiles)
    (st : UpsertState) (loaded : List PeerId) (created : List NodeId) (item : RemnawaveUserIn)
    (now : Time) {r : RemnawaveUser}
    (h : r ∈ (finishUpsert st db row loaded created item now).db.profiles) :
    r = applyRemnawaveProfile row item now ∨ r ∈ db.profiles ∧ r.userId ≠ row.userId := by
  let row' := applyRemnawaveProfile row item now
  have hsave : Writes StoredProfiles db (db.saveProfile row') :=
    Writes.single (.profile row') trivial ⟨row, hr, rfl, rfl⟩
  have hframe := (enforceRemnawaveCombinedLimit_writes (hsave.wf hwf) row').ownerFrame.profiles
  have hmem : r ∈ (db.saveProfile row').profiles := by
    rw [← hframe]
    exact h
  rcases Rows.mem_save.mp hmem with ⟨rfl, -⟩ | ⟨hr, hne⟩
  · exact .inl rfl
  · exact .inr ⟨hr, hne⟩

theorem item_noNewStale {st st' : UpsertState} (hwf : st.db.WF) (hheld : st.HeldOk)
    {item : RemnawaveUserIn} (h : upsertItem cfg st item now = some st') :
    NoNewStale st.db st'.db := by
  intro r hr hstale
  cases upsertItem_step hwf hheld h with
  | @created user row _ _ hok _ =>
      obtain ⟨hw, hmem⟩ := newImport_writes hok
      rcases finishUpsert_profiles (hw.wf hwf) hmem _ _ _ _ _ hr with rfl | ⟨hold, hne⟩
      · cases hstale
      · rcases List.mem_append.mp hold with hold | hold
        · exact hold
        · exact absurd (congrArg (·.userId) (List.mem_singleton.mp hold)) hne
  | @updated user row hrow _ hu hown =>
      have hlife := hown.lifecycle_writes cfg hu item now
      have hrow' := hlife.stored_profile hrow
      rcases finishUpsert_profiles (hlife.wf hwf) hrow' _ _ _ _ _ hr with rfl | ⟨hold, -⟩
      · cases hstale
      · rwa [hlife.ownerFrame.profiles] at hold

theorem items_noNewStale (items : List RemnawaveUserIn) :
    ∀ {st st' : UpsertState}, st.db.WF → st.HeldOk → upsertItems cfg now items st = some st' →
      NoNewStale st.db st'.db := by
  intro st st' hwf hheld h
  refine upsertItems_keeps (I := fun st' => NoNewStale st.db st'.db) items ?_ hwf hheld
    (.refl st.db) h
  intro item _ st₁ st₂ hwf₁ hheld₁ hnone hitem
  exact hnone.trans (item_noNewStale hwf₁ hheld₁ hitem)

theorem upsert_noNewStale (hwf : db.WF) {users : List RemnawaveUserIn} {effect : Effect}
    (h : handle cfg db now (.upsert users) = .ok effect) :
    effect.db.WF ∧ NoNewStale db effect.db := by
  obtain ⟨st, hst, hdb⟩ := upsertRemnawaveUsers_ok h
  have hheld := UpsertState.heldOk_start db
  rw [hdb]
  exact ⟨(upsertItems_writes users hwf hheld hst).wf hwf, items_noNewStale users hwf hheld hst⟩

/-! ## What a listing has shown -/

/-- The number of users of the pages. -/
def fetchedUsers (answers : List UsersAnswer) : Nat := (answers.map (·.users.length)).sum

/-- The total reported last. -/
def lastReported (answers : List UsersAnswer) : Option Int :=
  answers.reverse.findSome? UsersAnswer.reported

/-- At least as many users came as the last total says. -/
def Reached (answers : List UsersAnswer) : Prop :=
  ∃ total, lastReported answers = some total ∧ total ≤ fetchedUsers answers

/-- The last page was empty. -/
def AtEnd (answers : List UsersAnswer) : Prop :=
  ∃ page, answers.getLast? = some page ∧ page.users = []

theorem fetchedUsers_concat (answers : List UsersAnswer) (page : UsersAnswer) :
    fetchedUsers (answers ++ [page]) = fetchedUsers answers + page.users.length := by
  unfold fetchedUsers
  rw [List.map_append, List.sum_append]
  rfl

theorem lastReported_concat {answers : List UsersAnswer} {page : UsersAnswer} {total : Int}
    (h : page.reported = some total) : lastReported (answers ++ [page]) = some total := by
  unfold lastReported
  rw [List.reverse_append, List.reverse_singleton, List.singleton_append, List.findSome?_cons, h]

/-! ## One request -/

/-- What holds of a reconcile at any time. -/
structure Honest (db : Db) (run : Listing) : Prop where
  wf : run.status = .running → run.db.WF
  start : run.start = run.fetched
  fetched : run.status = .running → run.fetched = fetchedUsers run.answers
  unreported : run.status = .running → run.reports = []
  counted : ∀ report ∈ run.reports, report.users = fetchedUsers run.answers
  ended : ∀ report ∈ run.reports, AtEnd run.answers ∨ Reached run.answers
  quiet : run.status ≠ .completed → NoNewStale db run.db
  told : run.status = .completed → run.reports ≠ []

variable {run : Listing} {page : UsersAnswer}

theorem Honest.complete (h : Honest db run) (hrunning : run.status = .running)
    (hend : AtEnd run.answers ∨ Reached run.answers) :
    Honest db (run.complete cfg now) := by
  have hquiet : NoNewStale db run.db := h.quiet (by rw [hrunning]; nofun)
  have hreports : run.reports ++ [run.report] = [run.report] := by
    rw [h.unreported hrunning, List.nil_append]
  have hcounted : ∀ report ∈ run.reports ++ [run.report],
      report.users = fetchedUsers run.answers := by
    intro report hmem
    rw [hreports] at hmem
    rw [List.mem_singleton.mp hmem]
    exact h.fetched hrunning
  unfold Listing.complete
  dsimp only
  cases handle cfg run.db now (.reconcileComplete run.report.seenUuids) with
  | error error =>
      exact {
        wf := nofun
        start := h.start
        fetched := nofun
        unreported := nofun
        counted := hcounted
        ended := fun _ _ => hend
        quiet := fun _ => hquiet
        told := nofun }
  | ok effect =>
      exact {
        wf := nofun
        start := h.start
        fetched := nofun
        unreported := nofun
        counted := hcounted
        ended := fun _ _ => hend
        quiet := fun hne => absurd rfl hne
        told := fun _ => by simp }

theorem Honest.turn (h : Honest db run) (hrunning : run.status = .running) :
    Honest db (run.turn cfg page now) := by
  have hreports := h.unreported hrunning
  have hquiet : NoNewStale db run.db := h.quiet (by rw [hrunning]; nofun)
  have hfetched := h.fetched hrunning
  unfold Listing.turn
  dsimp only
  split
  · next hempty =>
      have htaken : Honest db
          { run with total := page.reported, answers := run.answers ++ [page] } := {
        wf := h.wf
        start := h.start
        fetched := fun _ => by rw [fetchedUsers_concat, hempty, ← hfetched]; rfl
        unreported := h.unreported
        counted := by rw [hreports]; nofun
        ended := by rw [hreports]; nofun
        quiet := h.quiet
        told := h.told }
      exact htaken.complete hrunning (.inl ⟨page, List.getLast?_concat, hempty⟩)
  · next hne =>
      cases hans : handle cfg run.db now (.upsert page.users) with
      | error error =>
          exact {
            wf := nofun
            start := h.start
            fetched := nofun
            unreported := nofun
            counted := by rw [hreports]; nofun
            ended := by rw [hreports]; nofun
            quiet := fun _ => hquiet
            told := nofun }
      | ok effect =>
          obtain ⟨hwf, hstale⟩ := upsert_noNewStale (h.wf hrunning) hans
          let next := Listing.imported { run with
            total := page.reported
            answers := run.answers ++ [page]
            seen := run.seen ++ (page.users.map (·.uuid)).filter (· ≠ "") } page.users effect
          have hnext : next.fetched = fetchedUsers next.answers := by
            show run.fetched + page.users.length = fetchedUsers (run.answers ++ [page])
            rw [fetchedUsers_concat, hfetched]
          have himported : Honest db next := {
            wf := fun _ => hwf
            start := congrArg (· + page.users.length) h.start
            fetched := fun _ => hnext
            unreported := h.unreported
            counted := by
              show ∀ report ∈ run.reports, _
              rw [hreports]
              nofun
            ended := by
              show ∀ report ∈ run.reports, _
              rw [hreports]
              nofun
            quiet := fun _ => hquiet.trans hstale
            told := h.told }
          show Honest db (if next.total.any (· ≤ (next.start : Int)) then next.complete cfg now
            else next)
          split
          · next hany =>
              obtain ⟨total, htotal, hle⟩ := (Option.any_eq_true _ _).mp hany
              have hreached : Reached next.answers := by
                refine ⟨total, lastReported_concat htotal, ?_⟩
                rw [← hnext, ← himported.start]
                exact of_decide_eq_true hle
              exact himported.complete hrunning (.inr hreached)
          · exact himported

theorem Honest.next (h : Honest db run) (answer : Except String UsersAnswer) (now : Time) :
    Honest db (run.next cfg answer now) := by
  unfold Listing.next
  cases hstatus : run.status with
  | running =>
      cases answer with
      | ok page => exact h.turn hstatus
      | error error =>
          exact {
            wf := nofun
            start := h.start
            fetched := nofun
            unreported := nofun
            counted := h.counted
            ended := h.ended
            quiet := fun _ => h.quiet (by rw [hstatus]; nofun)
            told := nofun }
  | completed => exact h
  | failed error => exact h

/-! ## The whole listing -/

variable {clock : Nat → Time} {answers : Nat → Except String UsersAnswer}

theorem honest_fullReconcile (hwf : db.WF) (n : Nat) :
    Honest db (fullReconcile cfg clock answers db n) := by
  induction n with
  | zero =>
      exact {
        wf := fun _ => hwf
        start := rfl
        fetched := fun _ => rfl
        unreported := fun _ => rfl
        counted := nofun
        ended := nofun
        quiet := fun _ => .refl db
        told := nofun }
  | succ n ih => exact ih.next _ _

/-- How a reconcile on a listing may end after `n` requests. -/
structure Accounted (cfg : Config) (clock : Nat → Time)
    (answers : Nat → Except String UsersAnswer) (db : Db) (n : Nat) : Prop where
  completes : ∀ report ∈ (fullReconcile cfg clock answers db n).reports,
    report.users = fetchedUsers (fullReconcile cfg clock answers db n).answers ∧
      (AtEnd (fullReconcile cfg clock answers db n).answers ∨
        Reached (fullReconcile cfg clock answers db n).answers)
  unfinished : (fullReconcile cfg clock answers db n).reports = [] →
    (fullReconcile cfg clock answers db n).status ≠ .completed ∧
      NoNewStale db (fullReconcile cfg clock answers db n).db
  breaksOff : ∀ error, answers n = .error error →
    (fullReconcile cfg clock answers db (n + 1)).reports = [] →
      ∃ error, (fullReconcile cfg clock answers db (n + 1)).status = .failed error

/-- **Listing.** Completion is reported after an empty page or with at least as
many users as the last reported total; a listing that breaks off before fails
the operation, and no profile is marked stale. -/
theorem completes_at_end {s : Panel} (h : (panel cfg).Reachable s) (clock : Nat → Time)
    (answers : Nat → Except String UsersAnswer) (n : Nat) :
    Accounted cfg clock answers s.db n := by
  have hhonest : Honest s.db (fullReconcile cfg clock answers s.db n) :=
    honest_fullReconcile (panel_wf h) n
  refine {
    completes := fun report hmem => ⟨hhonest.counted report hmem, hhonest.ended report hmem⟩
    unfinished := fun hnone => ?_
    breaksOff := fun error herror hnone => ?_ }
  · have hopen : (fullReconcile cfg clock answers s.db n).status ≠ .completed :=
      fun hdone => hhonest.told hdone hnone
    exact ⟨hopen, hhonest.quiet hopen⟩
  · have hnext : (fullReconcile cfg clock answers s.db (n + 1)) =
        (fullReconcile cfg clock answers s.db n).next cfg (.error error) (clock n) := by
      rw [← herror]
      rfl
    rw [hnext] at hnone ⊢
    unfold Listing.next at hnone ⊢
    cases hstatus : (fullReconcile cfg clock answers s.db n).status with
    | running => exact ⟨error, rfl⟩
    | completed =>
        rw [hstatus] at hnone
        exact absurd hnone (hhonest.told hstatus)
    | failed error => exact ⟨error, hstatus⟩

def listedUser (i : Nat) : RemnawaveUserIn where
  uuid := s!"uuid-{i}"
  username := s!"user-{i}"
  status := "ACTIVE"

/-- Two pages of one user each; more is refused. -/
def twoPages : Nat → Except String UsersAnswer
  | 0 => .ok { users := [listedUser 1], total := some 2 }
  | 1 => .ok { users := [listedUser 2], total := some 2 }
  | _ => .error "Remnawave API request failed with 503"

theorem completes_at_end_twoPages : Accounted exampleConfig (fun n => n) twoPages {} 2 :=
  completes_at_end (s := (panel exampleConfig).init) .init _ _ 2

/-- The tables after the import of one user. -/
def oneImport : Db := afterRequest exampleConfig {} 0 (.upsert [listedUser 1])

/-- A reconcile that gets an empty page although a hundred users are reported. -/
def emptyPage : Nat → Listing :=
  fullReconcile exampleConfig (fun _ => 1) (fun _ => .ok { users := [], total := some 100 })
    oneImport

/-- It completes, and marks the imported profile stale. -/
theorem completes_not_full :
    ¬(∀ report ∈ (emptyPage 1).reports, Reached (emptyPage 1).answers) ∧
      ¬NoNewStale oneImport (emptyPage 1).db := by
  have hreports : (emptyPage 1).reports = [⟨[], 0, 0, 0, some 100⟩] := by decide +kernel
  have hlast : lastReported (emptyPage 1).answers = some 100 := by decide +kernel
  have hfetched : fetchedUsers (emptyPage 1).answers = 0 := by decide +kernel
  refine ⟨fun hall => ?_, by unfold NoNewStale; decide +kernel⟩
  rw [hreports] at hall
  obtain ⟨total, htotal, hle⟩ := hall _ List.mem_cons_self
  rw [hfetched] at hle
  cases hlast.symm.trans htotal
  exact absurd hle (by decide)

end VpnPanel.Theorems
