import VpnPanel.Worker.FullReconcile

/-!
# A reconcile blocks only users that are gone

A pass has seen a user, or the user does not exist remotely, or it is still
ahead of the pass: as long as that holds of every imported user, the users a
completion marks are gone. Two steps can break it. A remote deletion in front
of the pass's offset moves the user at the offset in front of it, and no page
returns it; and the import of a single user adds a profile behind the offset.
-/

namespace VpnPanel.Theorems

open VpnPanel.Lib VpnPanel.Backend VpnPanel.Worker

/-! ## What a pass has still to fetch -/

/-- A pass is under way. -/
def running : ReconcilePass → Bool
  | .idle => false
  | _ => true

/-- The uuids the pass has collected. -/
def seenBy : ReconcilePass → List String
  | .idle => []
  | .fetching _ seen => seen
  | .upserting _ seen _ _ => seen
  | .completing seen => seen

/-- The page the pass has still to import. -/
def pageOf : ReconcilePass → List RemnawaveUserIn
  | .upserting _ _ users _ => users
  | _ => []

/-- The offset of the next fetch, if there is one. -/
def nextOffset : ReconcilePass → Option Nat
  | .idle => none
  | .fetching start _ => some start
  | .upserting start _ users total =>
      if total.any (· ≤ start + users.length) then none else some (start + users.length)
  | .completing _ => none

/-- The remote users the pass has still to fetch. -/
def ahead (s : Mirror) : List RemnawaveUserIn :=
  match nextOffset s.pass with
  | none => []
  | some offset => s.remote.drop offset

/-- The pass has seen the user, or the user does not exist, or is still ahead. -/
def Covered (s : Mirror) (uuid : String) : Prop :=
  uuid ∈ seenBy s.pass ∨ (∀ x ∈ s.remote, x.uuid ≠ uuid) ∨ ∃ x ∈ ahead s, x.uuid = uuid

/-- Every profile a completion marked belongs to a user that did not exist
remotely at that moment. -/
def OnlyGone (s : Mirror) : Prop := ∀ c ∈ s.completions, ∀ uuid ∈ c.marked, uuid ∉ c.remote

/-- The step hides an imported user from the running pass: a deletion in front
of the offset moves it there, or a single import adds it there. -/
def hides (s : Mirror) : MirrorEvent → Bool
  | .delete index =>
      (nextOffset s.pass).any fun offset => index < offset && (s.remote[offset]?).any fun x =>
        s.panel.db.profiles.any (·.remnawaveUuid = x.uuid) && x.uuid ∉ seenBy s.pass
  | .upsertUser index _ =>
      running s.pass && (s.fetched[index]?).any fun x =>
        s.remote.any (·.uuid = x.uuid) && x.uuid ∉ seenBy s.pass &&
          !(ahead s).any (·.uuid = x.uuid)
  | _ => false

/-! ## The invariant -/

structure Tracked (s : Mirror) : Prop where
  wf : s.panel.db.WF
  distinct : Rows.Distinct RemnawaveUserIn.uuid s.remote
  drawn : ∀ x ∈ s.remote, x.uuid ∈ s.drawn
  fetched : ∀ x ∈ s.fetched, x.uuid ∈ s.drawn
  page : ∀ x ∈ pageOf s.pass, x.uuid ∈ s.drawn ∧ x.uuid ∈ seenBy s.pass
  imported : ∀ r ∈ s.panel.db.profiles, r.remnawaveUuid ∈ s.drawn
  covered : running s.pass → ∀ r ∈ s.panel.db.profiles, Covered s r.remnawaveUuid
  done : OnlyGone s

variable {cfg : Config} {s s' : Mirror}

theorem Tracked.init : Tracked (mirror cfg).init where
  wf := Db.WF.empty
  distinct := List.nodup_nil
  drawn := fun _ h => absurd h List.not_mem_nil
  fetched := fun _ h => absurd h List.not_mem_nil
  page := fun _ h => absurd h List.not_mem_nil
  imported := fun _ h => absurd h List.not_mem_nil
  covered := fun h => by cases h
  done := fun _ h => absurd h List.not_mem_nil

/-- A request that stores no new uuid. -/
theorem Tracked.request (h : Tracked s) {next : Panel} (hwf : next.db.WF)
    (hback : NoNewUuid s.panel.db next.db) : Tracked { s with panel := next } := by
  refine { h with wf := hwf, imported := fun r hr => ?_, covered := fun hrun r hr => ?_ }
  · obtain ⟨old, hold, huuid⟩ := hback r hr
    exact huuid ▸ h.imported old hold
  · obtain ⟨old, hold, huuid⟩ := hback r hr
    exact huuid ▸ h.covered hrun old hold

theorem Tracked.create (h : Tracked s) {index : Nat} {user : RemnawaveUserIn}
    (hnew : user.uuid ∉ s.drawn) (hindex : index ≤ s.remote.length) :
    Tracked { s with
      remote := s.remote.insertIdx index user, drawn := user.uuid :: s.drawn } := by
  have hmem : ∀ x ∈ s.remote.insertIdx index user, x = user ∨ x ∈ s.remote :=
    fun x hx => (List.mem_insertIdx hindex).mp hx
  refine { h with
    distinct := ?_, drawn := fun x hx => ?_
    fetched := fun x hx => List.mem_cons_of_mem _ (h.fetched x hx)
    page := fun x hx => ⟨List.mem_cons_of_mem _ (h.page x hx).1, (h.page x hx).2⟩
    imported := fun r hr => List.mem_cons_of_mem _ (h.imported r hr)
    covered := fun hrun r hr => ?_ }
  · unfold Rows.Distinct
    have hperm := (List.perm_insertIdx user s.remote hindex).map RemnawaveUserIn.uuid
    rw [hperm.nodup_iff, List.map_cons, List.nodup_cons]
    refine ⟨fun hin => ?_, h.distinct⟩
    obtain ⟨x, hx, huuid⟩ := List.mem_map.mp hin
    exact hnew (huuid ▸ h.drawn x hx)
  · rcases hmem x hx with rfl | hx
    · exact List.mem_cons_self
    · exact List.mem_cons_of_mem _ (h.drawn x hx)
  · rcases h.covered hrun r hr with hseen | hgone | ⟨x, hx, huuid⟩
    · exact .inl hseen
    · refine .inr (.inl fun x hx => ?_)
      rcases hmem x hx with rfl | hx
      · -- an imported uuid was drawn before
        exact fun heq => hnew (heq ▸ h.imported r hr)
      · exact hgone x hx
    · refine .inr (.inr ⟨x, ?_, huuid⟩)
      unfold ahead at hx ⊢
      show x ∈ (match nextOffset s.pass with
        | none => []
        | some offset => (s.remote.insertIdx index user).drop offset)
      cases hoff : nextOffset s.pass with
      | none =>
          rw [hoff] at hx
          cases hx
      | some offset =>
          rw [hoff] at hx
          exact Paging.mem_drop_insertIdx user hx

theorem Tracked.delete (h : Tracked s) {index : Nat} (hkeeps : hides s (.delete index) = false) :
    Tracked { s with remote := s.remote.eraseIdx index } := by
  have hsub : ∀ x ∈ s.remote.eraseIdx index, x ∈ s.remote :=
    fun x hx => (List.eraseIdx_sublist s.remote index).subset hx
  refine { h with
    distinct := h.distinct.sublist ((List.eraseIdx_sublist s.remote index).map _)
    drawn := fun x hx => h.drawn x (hsub x hx)
    covered := fun hrun r hr => ?_ }
  rcases h.covered hrun r hr with hseen | hgone | ⟨x, hx, huuid⟩
  · exact .inl hseen
  · exact .inr (.inl fun x hx => hgone x (hsub x hx))
  · unfold ahead at hx
    cases hoff : nextOffset s.pass with
    | none =>
        rw [hoff] at hx
        cases hx
    | some offset =>
        rw [hoff] at hx
        rcases Paging.mem_drop_eraseIdx index hx with hx | hgone | ⟨hlt, hat⟩
        · refine .inr (.inr ⟨x, ?_, huuid⟩)
          unfold ahead
          show x ∈ (match nextOffset s.pass with
            | none => []
            | some offset => (s.remote.eraseIdx index).drop offset)
          rw [hoff]
          exact hx
        · exact .inr (.inl fun y hy => huuid ▸ Paging.key_of_eraseIdx h.distinct hgone y hy)
        · -- the user at the offset moves in front of it: it must have been seen
          refine .inl ?_
          by_contra hunseen
          have himported : s.panel.db.profiles.any (·.remnawaveUuid = x.uuid) = true :=
            List.any_eq_true.mpr ⟨r, hr, by simp [huuid]⟩
          have hbad : hides s (.delete index) = true := by
            unfold hides
            rw [hoff]
            simp only [Option.any_some, hat, himported, Bool.true_and]
            simp [hlt, huuid, hunseen]
          rw [hkeeps] at hbad
          cases hbad

/-- A fetched page leaves the pass ahead of the offset it ends at. -/
theorem Tracked.fetchPage (h : Tracked s) {start : Nat} {seen : List String} (sends : Bool)
    (hpass : s.pass = .fetching start seen) :
    Tracked { s with pass := .fetched s.remote start seen (reportedTotal sends s.remote) } := by
  let users := Paging.page s.remote start pageSize
  let total := reportedTotal sends s.remote
  have hsplit : s.remote.drop start = users ++ s.remote.drop (start + users.length) :=
    Paging.drop_eq_page_append s.remote start pageSize
  have hcovered := h.covered (by rw [hpass]; rfl)
  unfold Covered ahead at hcovered
  rw [hpass] at hcovered
  show Tracked { s with
    pass := if users.isEmpty then .completing seen
      else .upserting start (seen ++ users.map (·.uuid)) users total }
  cases hempty : users.isEmpty with
  | true =>
      -- nothing was left from the offset on
      have hnil : s.remote.drop start = [] :=
        Paging.page_eq_nil (by decide) (List.isEmpty_iff.mp hempty)
      refine { h with page := fun x hx => absurd hx List.not_mem_nil, covered := fun _ r hr => ?_ }
      rcases hcovered r hr with hseen | hgone | ⟨x, hx, -⟩
      · exact .inl hseen
      · exact .inr (.inl hgone)
      · have hx' : x ∈ s.remote.drop start := hx
        rw [hnil] at hx'
        cases hx'
  | false =>
      refine { h with page := fun x hx => ⟨?_, ?_⟩, covered := fun _ r hr => ?_ }
      · have hmem : x ∈ s.remote.drop start := List.mem_of_mem_take hx
        exact h.drawn x (List.mem_of_mem_drop hmem)
      · exact List.mem_append_right _ (List.mem_map_of_mem hx)
      · rcases hcovered r hr with hseen | hgone | ⟨x, hx, huuid⟩
        · exact .inl (List.mem_append_left _ hseen)
        · exact .inr (.inl hgone)
        · have hx' : x ∈ s.remote.drop start := hx
          rw [hsplit, List.mem_append] at hx'
          rcases hx' with hx' | hx'
          · exact .inl (List.mem_append_right _ (huuid ▸ List.mem_map_of_mem hx'))
          · refine .inr (.inr ⟨x, ?_, huuid⟩)
            unfold ahead
            show x ∈ (match (if total.any (· ≤ start + users.length) then none
              else some (start + users.length)) with
              | none => []
              | some offset => s.remote.drop offset)
            split
            · -- the total was reached, so there is nothing ahead
              next hnone =>
                split at hnone
                · next hreached =>
                    obtain ⟨n, hn, hle⟩ := (Option.any_eq_true _ _).mp hreached
                    have hlen : n = s.remote.length := by
                      unfold total reportedTotal at hn
                      split at hn
                      · exact (Option.some.inj hn).symm
                      · cases hn
                    have hle' : s.remote.length ≤ start + users.length := by
                      rw [← hlen]
                      exact of_decide_eq_true hle
                    rwa [List.drop_eq_nil_of_le hle'] at hx'
                · cases hnone
            · next offset hsome =>
                split at hsome
                · cases hsome
                · cases hsome
                  exact hx'

theorem seenBy_upserted (start : Nat) (seen : List String) (users : List RemnawaveUserIn)
    (total : Option Nat) : seenBy (.upserted start seen users total) = seen := by
  unfold ReconcilePass.upserted
  dsimp only
  split <;> rfl

theorem nextOffset_upserted (start : Nat) (seen : List String) (users : List RemnawaveUserIn)
    (total : Option Nat) : nextOffset (.upserted start seen users total) =
      nextOffset (.upserting start seen users total) := by
  unfold ReconcilePass.upserted nextOffset
  dsimp only
  by_cases h : total.any (· ≤ start + users.length) = true
  · simp only [h, if_true]
  · simp only [h, if_false, Bool.false_eq_true]

/-- The page handed to the backend was seen before. -/
theorem Tracked.upsertPage (h : Tracked s) {start : Nat} {seen : List String}
    {users : List RemnawaveUserIn} {total : Option Nat} {now : Time} {next : Panel}
    (hpass : s.pass = .upserting start seen users total)
    (hstep : (Backend.panel cfg).step s.panel ⟨now, .upsert users⟩ = some next) :
    Tracked { s with panel := next, pass := .upserted start seen users total } := by
  have hpage := h.page
  have hcovered := h.covered (by rw [hpass]; rfl)
  rw [hpass] at hpage
  unfold Covered ahead at hcovered
  rw [hpass] at hcovered
  refine { h with
    wf := (panel_step_phases h.wf hstep).writes.wf h.wf
    page := fun x hx => ?_
    imported := fun r hr => ?_
    covered := fun _ r hr => ?_ }
  · unfold ReconcilePass.upserted pageOf at hx
    dsimp only at hx
    split at hx
    · next heq => split at heq <;> cases heq
    · cases hx
  · rcases upsert_uuids h.wf hstep r hr with ⟨old, hold, huuid⟩ | ⟨x, hx, huuid⟩
    · exact huuid ▸ h.imported old hold
    · exact huuid ▸ (hpage x hx).1
  · unfold Covered ahead
    rw [seenBy_upserted, nextOffset_upserted]
    rcases upsert_uuids h.wf hstep r hr with ⟨old, hold, huuid⟩ | ⟨x, hx, huuid⟩
    · exact huuid ▸ hcovered old hold
    · exact .inl (huuid ▸ (hpage x hx).2)

theorem Tracked.abandon (h : Tracked s) {next : Panel} (hwf : next.db.WF)
    (himported : ∀ r ∈ next.db.profiles, r.remnawaveUuid ∈ s.drawn) :
    Tracked { s with panel := next, pass := .idle } :=
  { h with
    wf := hwf, imported := himported
    page := fun _ hx => absurd hx List.not_mem_nil
    covered := fun hrun => by cases hrun }

/-- At the end of the loop nothing is ahead: what the completion marks is
gone. -/
theorem Tracked.complete (h : Tracked s) {seen : List String} {now : Time} {next : Panel}
    (hpass : s.pass = .completing seen)
    (hstep : (Backend.panel cfg).step s.panel ⟨now, .reconcileComplete seen⟩ = some next) :
    Tracked { s with
      panel := next, pass := .idle
      completions := s.completions ++
        [⟨missingUuids s.panel.db seen, s.remote.map (·.uuid)⟩] } := by
  have hback := complete_noNewUuid h.wf hstep
  have hcovered := h.covered (by rw [hpass]; rfl)
  unfold Covered ahead at hcovered
  rw [hpass] at hcovered
  have hidle := h.abandon ((panel_step_phases h.wf hstep).writes.wf h.wf) fun r hr => by
    obtain ⟨old, hold, huuid⟩ := hback r hr
    exact huuid ▸ h.imported old hold
  refine { hidle with done := fun c hc uuid huuid => ?_ }
  rcases List.mem_append.mp hc with hc | hc
  · exact h.done c hc uuid huuid
  · rw [List.mem_singleton.mp hc] at huuid ⊢
    obtain ⟨r, hr, rfl⟩ := List.mem_map.mp huuid
    obtain ⟨hr, hunseen⟩ := List.mem_filter.mp hr
    have hunseen : r.remnawaveUuid ∉ seen := of_decide_eq_true hunseen
    rcases hcovered r hr with hseen | hgone | ⟨x, hx, -⟩
    · exact absurd hseen hunseen
    · intro hin
      obtain ⟨x, hx, heq⟩ := List.mem_map.mp hin
      exact hgone x hx heq
    · cases hx

/-- The import of a single user, unless it hides from the running pass. -/
theorem Tracked.upsertUser (h : Tracked s) {index : Nat} {user : RemnawaveUserIn} {now : Time}
    {next : Panel} (hat : s.fetched[index]? = some user)
    (hkeeps : hides s (.upsertUser index now) = false)
    (hstep : (Backend.panel cfg).step s.panel ⟨now, .upsert [user]⟩ = some next) :
    Tracked { s with panel := next, fetched := s.fetched.eraseIdx index } := by
  have huser : user ∈ s.fetched := List.mem_of_getElem? hat
  refine { h with
    wf := (panel_step_phases h.wf hstep).writes.wf h.wf
    fetched := fun x hx => h.fetched x ((List.eraseIdx_sublist s.fetched index).subset hx)
    imported := fun r hr => ?_
    covered := fun hrun r hr => ?_ }
  · rcases upsert_uuids h.wf hstep r hr with ⟨old, hold, huuid⟩ | ⟨x, hx, huuid⟩
    · exact huuid ▸ h.imported old hold
    · rw [List.mem_singleton.mp hx] at huuid
      exact huuid ▸ h.fetched user huser
  · rcases upsert_uuids h.wf hstep r hr with ⟨old, hold, huuid⟩ | ⟨x, hx, huuid⟩
    · exact huuid ▸ h.covered hrun old hold
    · rw [List.mem_singleton.mp hx] at huuid
      show Covered s r.remnawaveUuid
      rw [← huuid]
      have hrun' : running s.pass = true := hrun
      simp only [hides, hrun', hat, Bool.true_and, Option.any_some] at hkeeps
      by_cases hseen : user.uuid ∈ seenBy s.pass
      · exact .inl hseen
      by_cases hremote : s.remote.any (·.uuid = user.uuid) = true
      · rw [hremote] at hkeeps
        have hahead : (ahead s).any (·.uuid = user.uuid) = true := by simpa [hseen] using hkeeps
        obtain ⟨x, hx, heq⟩ := List.any_eq_true.mp hahead
        exact .inr (.inr ⟨x, hx, of_decide_eq_true heq⟩)
      · refine .inr (.inl fun x hx heq => hremote ?_)
        exact List.any_eq_true.mpr ⟨x, hx, by simpa using heq⟩

/-! ## Runs -/

theorem Tracked.step (h : Tracked s) {event : MirrorEvent} (hkeeps : hides s event = false)
    (hstep : (mirror cfg).step s event = some s') : Tracked s' := by
  have hmoved : ∀ {call : Call} {next : Panel}, (Backend.panel cfg).step s.panel call = some next →
      next.db.WF := fun hnext => (panel_step_phases h.wf hnext).writes.wf h.wf
  cases event with
  | create index user =>
      simp only [mirror, Mirror.step] at hstep
      split at hstep
      · next hguard =>
          cases hstep
          exact h.create hguard.2 hguard.1
      · cases hstep
  | delete index =>
      simp only [mirror, Mirror.step] at hstep
      split at hstep
      · cases hstep
        exact h.delete hkeeps
      · cases hstep
  | start =>
      simp only [mirror, Mirror.step] at hstep
      split at hstep
      · cases hstep
        refine { h with
          page := fun x hx => absurd hx List.not_mem_nil
          covered := fun _ r hr => ?_ }
        -- everything is ahead of a new pass
        by_cases hin : ∃ x ∈ s.remote, x.uuid = r.remnawaveUuid
        · exact .inr (.inr hin)
        · exact .inr (.inl fun x hx heq => hin ⟨x, hx, heq⟩)
      · cases hstep
  | fetchPage sends =>
      simp only [mirror, Mirror.step] at hstep
      split at hstep
      · next start seen hpass =>
          cases hstep
          exact h.fetchPage sends hpass
      · cases hstep
  | upsertPage now =>
      simp only [mirror, Mirror.step] at hstep
      split at hstep
      · next start seen users total hpass =>
          obtain ⟨next, hnext, rfl⟩ := Option.map_eq_some_iff.mp hstep
          have hdone := h.upsertPage hpass hnext
          cases hans : handle cfg s.panel.db now (.upsert users) with
          | error err => exact h.abandon (hmoved hnext) hdone.imported
          | ok e => exact hdone
      · cases hstep
  | complete now =>
      simp only [mirror, Mirror.step] at hstep
      split at hstep
      · next seen hpass =>
          obtain ⟨next, hnext, rfl⟩ := Option.map_eq_some_iff.mp hstep
          exact h.complete hpass hnext
      · cases hstep
  | abandon =>
      cases hstep
      exact h.abandon h.wf h.imported
  | fetchUser uuid =>
      simp only [mirror, Mirror.step] at hstep
      obtain ⟨user, huser, rfl⟩ := Option.map_eq_some_iff.mp hstep
      refine { h with fetched := fun x hx => ?_ }
      rcases List.mem_append.mp hx with hx | hx
      · exact h.fetched x hx
      · rw [List.mem_singleton.mp hx]
        exact h.drawn user (List.mem_of_find?_eq_some huser)
  | upsertUser index now =>
      simp only [mirror, Mirror.step] at hstep
      split at hstep
      · cases hstep
      · next user hat =>
          obtain ⟨next, hnext, rfl⟩ := Option.map_eq_some_iff.mp hstep
          exact h.upsertUser hat hkeeps hnext
  | request call =>
      simp only [mirror, Mirror.step] at hstep
      split at hstep
      · cases hstep
      · next himport =>
          obtain ⟨next, hnext, rfl⟩ := Option.map_eq_some_iff.mp hstep
          exact h.request (hmoved hnext)
            (request_noNewUuid h.wf (by simpa using himport) hnext)

/-- The remote user number `i`. -/
def remoteUser (i : Nat) : RemnawaveUserIn :=
  { uuid := s!"u{i}", username := s!"user{i}", status := "ACTIVE" }

/-- An imported user is deleted remotely, and the next pass finds an empty
list. -/
def deletedRemotely : List MirrorEvent := [
  .create 0 (remoteUser 0), .fetchUser "u0", .upsertUser 0 1, .delete 0,
  .start, .fetchPage true, .complete 2]

/-- 26 remote users, the last of them imported. A pass fetches its first page;
then the first user is deleted, and the last one moves in front of the
offset. -/
def deletedBetweenPages : List MirrorEvent :=
  ((List.range 26).map fun i => .create i (remoteUser i)) ++ [
    .fetchUser "u25", .upsertUser 0 1,
    .start, .fetchPage false, .upsertPage 2, .delete 0, .fetchPage false, .complete 3]

end VpnPanel.Theorems
