import Mathlib.Data.List.Induction
import VpnPanel.Theorems.ReimportRepeat

/-!
# The names of imported accounts

A profile without an account gets its username as the name of one, or the
username with a suffix where that is in use. Whether the suffixed name is in use
is not looked at.
-/

namespace VpnPanel.Theorems

open VpnPanel.Lib VpnPanel.Backend

section Names

variable {cfg : Config} {db : Db} {now : Time} {item : RemnawaveUserIn} {st st' : UpsertState}

def Unused (db : Db) (name : String) : Prop := ∀ user ∈ db.users, user.name ≠ name

instance (db : Db) (name : String) : Decidable (Unused db name) :=
  inferInstanceAs (Decidable (∀ user ∈ db.users, user.name ≠ name))

/-- The profile has no account yet. -/
def Unseen (db : Db) (item : RemnawaveUserIn) : Prop :=
  ∀ row ∈ db.profiles, row.remnawaveUuid ≠ item.uuid

/-- The name for a username that is in use. -/
def suffixedUsername (db : Db) (item : RemnawaveUserIn) : String :=
  let suffix := if truthy item.shortUuid then item.shortUuid.getD "" else s!"{db.nextId}"
  s!"{item.username}__rw_{suffix}"

theorem any_name_iff {name : String} :
    db.users.any (·.name = name) = true ↔ ¬Unused db name := by
  unfold Unused
  simp

theorem unused_resolved_iff :
    Unused db (resolveRemnawaveUsername db item.username item.shortUuid) ↔
      Unused db item.username ∨ Unused db (suffixedUsername db item) := by
  unfold resolveRemnawaveUsername
  split
  · next hused =>
    have hused := any_name_iff.mp hused
    exact ⟨.inr, fun h => h.resolve_left hused⟩
  · next hfree =>
    have hfree : Unused db item.username := not_not.mp (mt any_name_iff.mpr hfree)
    exact ⟨.inl, fun _ => hfree⟩

theorem find?_none_iff :
    db.profiles.find? (·.remnawaveUuid = item.uuid) = none ↔ Unseen db item := by
  unfold Unseen
  rw [List.find?_eq_none]
  simp

/-! ## One profile -/

theorem isSome_insertProfile {profile : RemnawaveUser}
    (hrows : ∀ row ∈ db.profiles, row.userId ≠ profile.userId)
    (huuids : ∀ row ∈ db.profiles, row.remnawaveUuid ≠ profile.remnawaveUuid)
    (howner : ∃ user ∈ db.users, user.id = profile.userId) :
    (db.insertProfile profile).isSome = true := by
  unfold Db.insertProfile
  rw [if_neg]
  · rfl
  · rintro (hany | hmissing)
    · obtain ⟨row, hrow, hconflict⟩ := List.any_eq_true.mp hany
      rcases of_decide_eq_true hconflict with hid | huuid
      · exact hrows row hrow hid
      · exact huuids row hrow huuid
    · rw [Option.isNone_iff_eq_none] at hmissing
      have hthere := Rows.isSome_get?.mpr howner
      rw [show Rows.get? User.id db.users profile.userId = none from hmissing] at hthere
      cases hthere

theorem isSome_createRemnawaveRow (hwf : db.WF) (hunseen : Unseen db item) :
    (createRemnawaveRow db item now).isSome = true ↔
      Unused db (resolveRemnawaveUsername db item.username item.shortUuid) := by
  have hname : db.users.any (·.name =
      resolveRemnawaveUsername db item.username item.shortUuid) = true ↔ _ := any_name_iff
  unfold createRemnawaveRow Db.insertUser
  dsimp only
  split
  · next hused =>
    exact ⟨fun h => absurd h Bool.false_ne_true, fun h => absurd h (hname.mp hused)⟩
  · next hfree =>
    have hfree := not_not.mp (mt hname.mpr hfree)
    refine ⟨fun _ => hfree, fun _ => ?_⟩
    rw [Option.bind_some, Option.isSome_map]
    -- the row is of a new account, so no constraint of the profiles is in its way
    refine isSome_insertProfile (fun row hrow hid => ?_) hunseen ⟨_, List.mem_append_right _
      List.mem_cons_self, rfl⟩
    obtain ⟨user, huser, howner⟩ := hwf.profileOwner row hrow
    have hbelow : user.id < db.nextId := hwf.userFresh user huser
    exact absurd (howner.trans hid) (Nat.ne_of_lt hbelow)

/-- An item fails on the name of a new account only. -/
theorem isSome_upsertItem (hwf : st.db.WF) : (upsertItem cfg st item now).isSome = true ↔
    (Unseen st.db item →
      Unused st.db (resolveRemnawaveUsername st.db item.username item.shortUuid)) := by
  unfold upsertItem
  cases hrow : st.db.profiles.find? (·.remnawaveUuid = item.uuid) with
  | none =>
      have hunseen := find?_none_iff.mp hrow
      rw [Option.isSome_map, isSome_createRemnawaveRow hwf hunseen]
      exact ⟨fun h _ => h, fun h => h hunseen⟩
  | some row =>
      have hmem := List.mem_of_find?_eq_some hrow
      have huuid : row.remnawaveUuid = item.uuid := by simpa using List.find?_some hrow
      obtain ⟨user, huser, howner⟩ := hwf.profileOwner row hmem
      have hfound : st.db.user? row.userId = some user := howner ▸ hwf.userIds.get?_eq_some huser
      show ((st.db.user? row.userId).map _).isSome = true ↔ _
      rw [hfound]
      exact iff_of_true rfl fun hunseen => absurd huuid (hunseen row hmem)

/-- A stored profile stays stored. -/
theorem keeps_stored (hwf : st.db.WF) (hheld : st.HeldOk) {uuid : String}
    (hstored : ∃ row ∈ st.db.profiles, row.remnawaveUuid = uuid)
    (h : upsertItem cfg st item now = some st') :
    ∃ row ∈ st'.db.profiles, row.remnawaveUuid = uuid := by
  by_cases hsame : item.uuid = uuid
  · obtain ⟨row, uuids, -, hpost⟩ := item_postState hwf hheld h
    exact ⟨row, hpost.stored, hpost.uuid.trans hsame⟩
  · obtain ⟨row, hrow, rfl⟩ := hstored
    have hprofile : st.db.profileOf? row.userId = some row := hwf.profileUsers.get?_eq_some hrow
    have hkept := (item_spares hwf hheld h hprofile hsame).profile.trans hprofile
    exact ⟨row, Rows.mem_of_get? hkept, rfl⟩

/-! ## A batch -/

theorem upsertItems_append (before after : List RemnawaveUserIn) (st : UpsertState) :
    upsertItems cfg now (before ++ after) st =
      (upsertItems cfg now before st).bind (upsertItems cfg now after) := by
  induction before generalizing st with
  | nil => rfl
  | cons item before ih =>
      show (upsertItem cfg st item now).bind _ = ((upsertItem cfg st item now).bind _).bind _
      rw [Option.bind_assoc]
      exact congrArg _ (funext ih)

theorem upsertItems_stored {items : List RemnawaveUserIn} (hwf : st.db.WF) (hheld : st.HeldOk)
    (h : upsertItems cfg now items st = some st') :
    ∀ item ∈ items, ∃ row ∈ st'.db.profiles, row.remnawaveUuid = item.uuid := by
  induction items generalizing st with
  | nil => simp
  | cons first rest ih =>
      obtain ⟨st₁, hfirst, hrest⟩ := Option.bind_eq_some_iff.mp h
      obtain ⟨hwrites, hheld₁⟩ := upsertItem_writes hwf hheld hfirst
      have hwf₁ := hwrites.wf hwf
      intro item hitem
      rcases List.mem_cons.mp hitem with rfl | hitem
      · obtain ⟨row, uuids, -, hpost⟩ := item_postState hwf hheld hfirst
        refine upsertItems_keeps
          (I := fun st => ∃ row ∈ st.db.profiles, row.remnawaveUuid = item.uuid) rest ?_ hwf₁ hheld₁
          ⟨row, hpost.stored, hpost.uuid⟩ hrest
        exact fun _ _ _ _ hwf₂ hheld₂ hstored hstep => keeps_stored hwf₂ hheld₂ hstored hstep
      · exact ih hwf₁ hheld₁ hrest item hitem

/-- Every name that is chosen is unused, the batch is stored, and each of its
profiles has an account that no other profile has. -/
structure ImportsEach (cfg : Config) (db : Db) (now : Time) (items : List RemnawaveUserIn) :
    Prop where
  unused : ∀ before item after st, items = before ++ item :: after →
    upsertItems cfg now before { db } = some st → Unseen st.db item →
      Unused st.db (resolveRemnawaveUsername st.db item.username item.shortUuid)
  stored : ∃ e, upsertRemnawaveUsers cfg db items now = .ok e ∧ ∀ item ∈ items,
    ∃ row ∈ e.db.profiles, row.remnawaveUuid = item.uuid ∧
      (∃ user ∈ e.db.users, user.id = row.userId) ∧
      ∀ other ∈ e.db.profiles, other.userId = row.userId → other = row

/-- When a profile without an account is reached, its username is unused or the
suffixed one is. -/
def NamesLeft (cfg : Config) (db : Db) (now : Time) (items : List RemnawaveUserIn) : Prop :=
  ∀ before item after st, items = before ++ item :: after →
    upsertItems cfg now before { db } = some st → Unseen st.db item →
      Unused st.db item.username ∨ Unused st.db (suffixedUsername st.db item)

theorem upsertItems_isSome {items : List RemnawaveUserIn} (hwf : db.WF)
    (hunused : ∀ before item after st, items = before ++ item :: after →
      upsertItems cfg now before { db } = some st → Unseen st.db item →
        Unused st.db (resolveRemnawaveUsername st.db item.username item.shortUuid)) :
    (upsertItems cfg now items { db }).isSome = true := by
  induction items using List.reverseRecOn with
  | nil => rfl
  | append_singleton before item ih =>
      have hbefore := ih fun before' item' after st heq => hunused before' item' (after ++ [item])
        st (by rw [heq, List.append_assoc, List.cons_append])
      obtain ⟨st, hst⟩ := Option.isSome_iff_exists.mp hbefore
      have hwrites := upsertItems_writes before hwf (UpsertState.heldOk_start db) hst
      have hitem : (upsertItem cfg st item now).isSome = true :=
        (isSome_upsertItem (hwrites.wf hwf)).mpr (hunused before item [] st rfl hst)
      obtain ⟨st', hst'⟩ := Option.isSome_iff_exists.mp hitem
      rw [upsertItems_append, hst, Option.bind_some]
      show ((upsertItem cfg st item now).bind (upsertItems cfg now [])).isSome = true
      rw [hst']
      rfl

end Names

section Examples

/-- A profile with the username of an admin's account. -/
def aliceProfile (uuid shortUuid : String) : RemnawaveUserIn :=
  { uuid, username := "alice", status := "ACTIVE", shortUuid := some shortUuid }

end Examples

end VpnPanel.Theorems
