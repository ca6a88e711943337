import VpnPanel.Backend.References

/-!
# What is removed leaves nothing behind

The deletion of an account, a node, a device or a peer is final, and total: no
row of any table names it again, whatever is requested afterwards.
-/

namespace VpnPanel.Theorems

open VpnPanel.Lib VpnPanel.Backend

variable {cfg : Config}

/-- **Nothing left behind.** In every reachable state each column that refers
to an account, a node, a device or a peer names a stored row; and an id that was
handed out and is stored no longer is neither stored nor named in any later
state of any run. -/
theorem nothing_left_behind {s t : RetentionPanel}
    {steps : List (RetentionPanel × RetentionEvent)} (h : (retentionPanel cfg).Reachable s)
    (hrun : (retentionPanel cfg).Trace s steps t) (table : Table) :
    t.panel.db.refs table ⊆ t.panel.db.ids table ∧
      ∀ id < s.panel.db.nextId, id ∉ s.panel.db.ids table →
        id ∉ t.panel.db.ids table ∧ id ∉ t.panel.db.refs table := by
  obtain ⟨ht, hrenews⟩ := sound_run hrun (retentionPanel_sound h)
  have hsub := ht.referenced.refs_subset ht.wf table
  refine ⟨hsub, fun id hissued hgone => ?_⟩
  have hstill : id ∉ t.panel.db.ids table := by
    intro hid
    rcases hrenews.ids table id hid with hid | hle
    · exact hgone hid
    · exact absurd hissued (not_lt.mpr hle)
  exact ⟨hstill, fun href => hstill (hsub href)⟩

/-- The account of `sweptRun` is deleted, with three ledger rows. -/
def deletedAfterSweep : List RetentionEvent := sweptRun ++ [
  .request ⟨259200000002, .deleteUser 1⟩]

/-- Another account of the same name is created and measured. -/
def renamedAlike : List RetentionEvent := [
  .request ⟨259200000003, .addUser "alice" 0⟩,
  .request ⟨259200000004, .addDevice 4 "phone"⟩,
  .request ⟨259200000005, .syncResult 0 { peers := [
    { publicKey := "public-5", status := some "active", rxBytes := some 10, txBytes := some 5 }] }⟩,
  .request ⟨259200000006, .heartbeatResult 0 { peers := [
    { publicKey := "public-5", rxBytes := some 30, txBytes := some 9 }] }⟩]

theorem nothing_left_behind_deleted :
    ∃ s t, (retentionPanel exampleConfig).replay deletedAfterSweep = some s ∧
      (retentionPanel exampleConfig).replayFrom s renamedAlike = some t ∧
      t.panel.db.refs .users = [4, 4, 4, 4, 4, 4, 4] ∧
      1 ∉ t.panel.db.ids .users ∧ 1 ∉ t.panel.db.refs .users := by
  have hrun : ((retentionPanel exampleConfig).replay deletedAfterSweep).any (fun s =>
      1 < s.panel.db.nextId ∧ 1 ∉ s.panel.db.ids .users ∧
        ((retentionPanel exampleConfig).replayFrom s renamedAlike).any (fun t =>
          t.panel.db.refs .users = [4, 4, 4, 4, 4, 4, 4])) = true := by
    decide +kernel
  obtain ⟨s, hs, hfacts⟩ := TSys.replay_any hrun
  obtain ⟨hissued, hgone, hlater⟩ := of_decide_eq_true hfacts
  obtain ⟨t, ht, hrefs⟩ := (Option.any_eq_true _ _).mp hlater
  obtain ⟨steps, htrace⟩ := TSys.Trace.of_replayFrom renamedAlike ht
  exact ⟨s, t, hs, ht, of_decide_eq_true hrefs,
    (nothing_left_behind (TSys.replay_reachable hs) htrace .users).2 1 hissued hgone⟩

end VpnPanel.Theorems
