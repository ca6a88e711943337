import VpnPanel.Lib.Spans
import VpnPanel.Backend.Observations

/-!
# The endpoint sessions of one peer

`_apply_peer_endpoint_session` looks the session up that was seen last, opens
one at another endpoint, and extends the last one at a new handshake only. With
results in the order of their times the sessions of a peer are a timeline, and
that is why the lookup finds the last of them.
-/

namespace VpnPanel.Backend

open VpnPanel.Lib

/-- The endpoint a result shows; an empty one is none. -/
def PeerSyncResult.seenEndpoint (data : PeerSyncResult) : Option String :=
  data.endpoint.join.filter (· ≠ "")

def Observation.sighting (seen : Observation) : Option (Sighting String Time) :=
  seen.data.seenEndpoint.map fun endpoint => ⟨endpoint, seen.observedAt⟩

/-- The endpoints among the results of a peer. -/
def sightings (seen : List Observation) : List (Sighting String Time) :=
  seen.filterMap (·.sighting)

/-- The results of a peer come at later and later times. -/
def InOrder (seen : List Observation) : Prop := (seen.map (·.observedAt)).Pairwise (· < ·)

def PeerEndpointSession.span (session : PeerEndpointSession) : Span String Time :=
  ⟨session.endpoint, session.firstSeenAt, session.lastSeenAt⟩

/-- The sessions of the peer `p`, in the order in which they were inserted. -/
def sessionsOf (p : PeerId) (traffic : Traffic) : List PeerEndpointSession :=
  traffic.sessions.filter (·.peerId = p)

/-! ## One result -/

section Result

variable {traffic : Traffic} {peer : Peer} {data : PeerSyncResult} {now : Time} {p : PeerId}

/-- The row of a session that a result opens. -/
def openedSession (traffic : Traffic) (peer : Peer) (endpoint : String) (data : PeerSyncResult)
    (now : Time) : PeerEndpointSession where
  id := traffic.nextSessionId
  peerId := peer.id
  nodeId := peer.nodeId
  userId := peer.userId
  endpoint := endpoint
  firstSeenAt := now
  lastSeenAt := now
  lastHandshake := data.lastHandshake

/-- The row of a session that a new handshake extends. -/
def extendedSession (session : PeerEndpointSession) (data : PeerSyncResult) (now : Time) :
    PeerEndpointSession :=
  { session with lastSeenAt := now, lastHandshake := data.lastHandshake }

/-- What a result does to the sessions of its peer. -/
inductive SessionStep (traffic : Traffic) (peer : Peer) (data : PeerSyncResult) (now : Time) :
    Traffic → Prop
  | unseen (nowhere : data.seenEndpoint = none) : SessionStep traffic peer data now traffic
  | opened (endpoint : String) (seen : data.seenEndpoint = some endpoint)
      (other : ∀ session, latestSession traffic.sessions peer.id = some session →
        session.endpoint ≠ endpoint) :
      SessionStep traffic peer data now { traffic with
        sessions := traffic.sessions ++ [openedSession traffic peer endpoint data now]
        nextSessionId := traffic.nextSessionId + 1 }
  | extended (session : PeerEndpointSession)
      (last : latestSession traffic.sessions peer.id = some session)
      (seen : data.seenEndpoint = some session.endpoint) :
      SessionStep traffic peer data now { traffic with
        sessions := Rows.save PeerEndpointSession.id (extendedSession session data now)
          traffic.sessions }
  | kept (session : PeerEndpointSession)
      (last : latestSession traffic.sessions peer.id = some session)
      (seen : data.seenEndpoint = some session.endpoint) :
      SessionStep traffic peer data now traffic

theorem applyPeerEndpointSession_step (traffic : Traffic) (peer : Peer) (data : PeerSyncResult)
    (now : Time) :
    SessionStep traffic peer data now (applyPeerEndpointSession traffic peer data now) := by
  unfold applyPeerEndpointSession
  cases hdata : data.endpoint.join with
  | none => exact .unseen (by rw [PeerSyncResult.seenEndpoint, hdata]; rfl)
  | some endpoint =>
      dsimp only
      by_cases hempty : endpoint = ""
      · rw [if_pos hempty]
        exact .unseen (by simp [PeerSyncResult.seenEndpoint, hdata, hempty])
      · rw [if_neg hempty]
        have hseen : data.seenEndpoint = some endpoint := by
          simp [PeerSyncResult.seenEndpoint, hdata, hempty]
        cases hlast : latestSession traffic.sessions peer.id with
        | none => exact .opened endpoint hseen fun session h => by rw [hlast] at h; cases h
        | some session =>
            dsimp only
            by_cases hother : session.endpoint ≠ endpoint
            · rw [if_pos hother]
              refine .opened endpoint hseen fun s h => ?_
              rw [hlast] at h
              rw [← Option.some.inj h]
              exact hother
            · rw [if_neg hother]
              have hsame : data.seenEndpoint = some session.endpoint :=
                hseen.trans (congrArg some (not_not.mp hother).symm)
              split
              · exact .extended session hlast hsame
              · exact .kept session hlast hsame

/-- The session ids were drawn from their supply, each once. -/
structure SessionKeys (traffic : Traffic) : Prop where
  distinct : Rows.Distinct PeerEndpointSession.id traffic.sessions
  below : Rows.Below PeerEndpointSession.id traffic.sessions traffic.nextSessionId

theorem SessionKeys.frame (h : SessionKeys traffic) {traffic' : Traffic}
    (hsessions : traffic'.sessions = traffic.sessions)
    (hids : traffic'.nextSessionId = traffic.nextSessionId) : SessionKeys traffic' := by
  refine ⟨?_, ?_⟩
  · rw [hsessions]
    exact h.distinct
  · rw [hsessions, hids]
    exact h.below

theorem latestSession_eq (p : PeerId) (traffic : Traffic) :
    latestSession traffic.sessions p = latest (·.lastSeenAt) (sessionsOf p traffic) := by
  unfold latestSession latest sessionsOf
  congr 1
  funext best row
  cases best <;> rfl

theorem SessionKeys.step (h : SessionKeys traffic) {traffic' : Traffic}
    (hstep : SessionStep traffic peer data now traffic') : SessionKeys traffic' := by
  cases hstep with
  | unseen _ => exact h
  | kept _ _ _ => exact h
  | opened endpoint _ _ =>
      exact ⟨h.distinct.append (h.below.ne rfl), h.below.append rfl⟩
  | extended session _ _ => exact ⟨h.distinct.save, h.below.map fun r _ => Rows.key_saved r⟩

/-- Extending a session keeps its peer. -/
theorem SessionKeys.sessions_extended (h : SessionKeys traffic) {session : PeerEndpointSession}
    (hmem : session ∈ traffic.sessions) :
    (Rows.save PeerEndpointSession.id (extendedSession session data now)
      traffic.sessions).filter (·.peerId = p) =
        Rows.save PeerEndpointSession.id (extendedSession session data now)
          (sessionsOf p traffic) := by
  refine Rows.filter_save_of fun s hs heq => ?_
  rw [h.distinct.eq_of_key hs hmem heq]
  rfl

/-- A result of another peer. -/
theorem sessionsOf_other (h : SessionKeys traffic) {traffic' : Traffic}
    (hstep : SessionStep traffic peer data now traffic') (hne : peer.id ≠ p) :
    sessionsOf p traffic' = sessionsOf p traffic := by
  cases hstep with
  | unseen _ => rfl
  | kept _ _ _ => rfl
  | opened endpoint _ _ =>
      have hnew : [openedSession traffic peer endpoint data now].filter (·.peerId = p) = [] :=
        List.filter_cons_of_neg (Bool.not_eq_true _ ▸ decide_eq_false hne)
      unfold sessionsOf
      rw [List.filter_append, hnew, List.append_nil]
  | extended session hlast _ =>
      rw [latestSession_eq] at hlast
      obtain ⟨hmem, hpeer⟩ := List.mem_filter.mp (latest_mem hlast)
      -- no session of the peer has the id that is written
      have hids : ∀ s ∈ sessionsOf p traffic, s.id ≠ session.id := by
        intro s hs heq
        obtain ⟨hsmem, hspeer⟩ := List.mem_filter.mp hs
        rw [h.distinct.eq_of_key hsmem hmem heq] at hspeer
        exact hne ((of_decide_eq_true hpeer).symm.trans (of_decide_eq_true hspeer))
      exact (h.sessions_extended hmem).trans (Rows.save_of_ne hids)

/-- The last session of the peer is extended. -/
theorem sessionsOf_extended (h : SessionKeys traffic) {session : PeerEndpointSession}
    {rest : List PeerEndpointSession} (hrows : sessionsOf p traffic = rest ++ [session]) :
    (Rows.save PeerEndpointSession.id (extendedSession session data now)
      traffic.sessions).filter (·.peerId = p) = rest ++ [extendedSession session data now] := by
  have hlast : session ∈ sessionsOf p traffic :=
    hrows ▸ List.mem_append_right rest List.mem_cons_self
  have hdistinct : Rows.Distinct PeerEndpointSession.id (rest ++ [session]) :=
    hrows ▸ h.distinct.filter _
  rw [h.sessions_extended (List.mem_filter.mp hlast).1, hrows]
  exact Rows.save_last hdistinct rfl

/-! ### The timeline -/

variable {seen : List Observation}

theorem sightings_concat (seen : List Observation) (next : Observation) :
    sightings (seen ++ [next]) = sightings seen ++ next.sighting.toList := by
  unfold sightings
  rw [List.filterMap_append]
  cases hnext : next.sighting with
  | none => rw [List.filterMap_cons_none hnext, List.filterMap_nil, Option.toList_none]
  | some x => rw [List.filterMap_cons_some hnext, List.filterMap_nil, Option.toList_some]

theorem sightings_unseen (hnone : data.seenEndpoint = none) :
    sightings (seen ++ [⟨data, now⟩]) = sightings seen := by
  rw [sightings_concat, Observation.sighting, hnone]
  exact List.append_nil _

theorem sightings_seen {endpoint : String} (hseen : data.seenEndpoint = some endpoint) :
    sightings (seen ++ [⟨data, now⟩]) = sightings seen ++ [⟨endpoint, now⟩] := by
  rw [sightings_concat, Observation.sighting, hseen]
  rfl

theorem sightings_before (hlater : ∀ o ∈ seen, o.observedAt < now) :
    ∀ y ∈ sightings seen, y.time < now := by
  intro y hy
  obtain ⟨o, ho, hsighting⟩ := List.mem_filterMap.mp hy
  obtain ⟨endpoint, -, rfl⟩ := Option.map_eq_some_iff.mp hsighting
  exact hlater o ho

/-- In a timeline the session seen last is the last one. -/
theorem latestSession_last
    (h : Timeline (sightings seen) ((sessionsOf p traffic).map (·.span))) :
    latestSession traffic.sessions p = (sessionsOf p traffic).getLast? := by
  have hincreasing := h.increasing
  rw [List.pairwise_map] at hincreasing
  rw [latestSession_eq]
  exact latest_of_increasing hincreasing

theorem sessionsOf_last {session : PeerEndpointSession}
    (h : Timeline (sightings seen) ((sessionsOf p traffic).map (·.span)))
    (hlast : latestSession traffic.sessions p = some session) :
    ∃ rest, sessionsOf p traffic = rest ++ [session] := by
  rw [latestSession_last h] at hlast
  exact List.getLast?_eq_some_iff.mp hlast

/-- A later result of the peer keeps the timeline. -/
theorem SessionStep.timeline {traffic' : Traffic}
    (hstep : SessionStep traffic peer data now traffic') (hkeys : SessionKeys traffic)
    (h : Timeline (sightings seen) ((sessionsOf peer.id traffic).map (·.span)))
    (hlater : ∀ o ∈ seen, o.observedAt < now) :
    Timeline (sightings (seen ++ [⟨data, now⟩])) ((sessionsOf peer.id traffic').map (·.span)) := by
  have hbefore := sightings_before hlater
  cases hstep with
  | unseen hnone =>
      rw [sightings_unseen hnone]
      exact h
  | opened endpoint hseen hother =>
      have hnew : sessionsOf peer.id { traffic with
          sessions := traffic.sessions ++ [openedSession traffic peer endpoint data now]
          nextSessionId := traffic.nextSessionId + 1 } =
            sessionsOf peer.id traffic ++ [openedSession traffic peer endpoint data now] := by
        unfold sessionsOf
        rw [List.filter_append]
        exact congrArg _ (List.filter_cons_of_pos (decide_eq_true rfl))
      -- the session looked up is the last one, so the new one differs from it
      rw [sightings_seen hseen, hnew, List.map_append]
      refine h.opened hbefore fun s hs => ?_
      rw [List.getLast?_map, ← latestSession_last h] at hs
      obtain ⟨session, hlast, rfl⟩ := Option.map_eq_some_iff.mp hs
      exact hother session hlast
  | extended session hlast hseen =>
      obtain ⟨rest, hrows⟩ := sessionsOf_last h hlast
      -- by its id, the row that is saved is that of the last session alone
      have hsave : sessionsOf peer.id { traffic with
          sessions := Rows.save PeerEndpointSession.id (extendedSession session data now)
            traffic.sessions } = rest ++ [extendedSession session data now] :=
        sessionsOf_extended hkeys hrows
      rw [hrows, List.map_append] at h
      rw [sightings_seen hseen, hsave, List.map_append]
      exact h.extended hbefore
  | kept session hlast hseen =>
      obtain ⟨rest, hrows⟩ := sessionsOf_last h hlast
      rw [sightings_seen hseen]
      rw [hrows, List.map_append] at h ⊢
      exact h.kept now

/-- The sessions a result writes are of its peer. -/
theorem SessionStep.mem {traffic' : Traffic}
    (hstep : SessionStep traffic peer data now traffic') {session : PeerEndpointSession}
    (h : session ∈ sessionsOf peer.id traffic') :
    (∃ old ∈ sessionsOf peer.id traffic, session.nodeId = old.nodeId ∧
        session.userId = old.userId) ∨
      (session.nodeId = peer.nodeId ∧ session.userId = peer.userId) := by
  cases hstep with
  | unseen _ => exact .inl ⟨session, h, rfl, rfl⟩
  | kept _ _ _ => exact .inl ⟨session, h, rfl, rfl⟩
  | opened endpoint _ _ =>
      obtain ⟨hmem, hpeer⟩ := List.mem_filter.mp h
      rcases List.mem_append.mp hmem with hold | hnew
      · exact .inl ⟨session, List.mem_filter.mpr ⟨hold, hpeer⟩, rfl, rfl⟩
      · rw [List.mem_singleton.mp hnew]
        exact .inr ⟨rfl, rfl⟩
  | extended last hlast _ =>
      rw [latestSession_eq] at hlast
      obtain ⟨hmem, hpeer⟩ := List.mem_filter.mp h
      rcases Rows.mem_save.mp hmem with ⟨rfl, -⟩ | ⟨hold, -⟩
      · exact .inl ⟨last, latest_mem hlast, rfl, rfl⟩
      · exact .inl ⟨session, List.mem_filter.mpr ⟨hold, hpeer⟩, rfl, rfl⟩

end Result

/-! ## All results -/

section Results

variable {db : Db} {p : PeerId} {seen : List Observation}

/-- Counters and aggregates are no sessions. -/
theorem trafficAfterResult_sessions (db : Db) (row : Peer) (data : PeerSyncResult) (now : Time) :
    let traffic := applyPeerEndpointSession db.traffic row data now
    (trafficAfterResult db row data now).sessions = traffic.sessions ∧
      (trafficAfterResult db row data now).nextSessionId = traffic.nextSessionId := by
  unfold trafficAfterResult
  cases data.rxBytes with
  | none => exact ⟨rfl, rfl⟩
  | some rx =>
      cases data.txBytes with
      | none => exact ⟨rfl, rfl⟩
      | some tx =>
          dsimp only
          unfold recordReading
          dsimp only
          split <;> exact ⟨rfl, rfl⟩

theorem sessionsOf_congr {traffic traffic' : Traffic}
    (h : traffic'.sessions = traffic.sessions) : sessionsOf p traffic' = sessionsOf p traffic := by
  unfold sessionsOf
  rw [h]

/-- What the sessions of a peer say of its results. -/
structure Tracked (seen : List Observation) (traffic : Traffic) (peer : Peer) : Prop where
  rows : ∀ session ∈ sessionsOf peer.id traffic,
    session.nodeId = peer.nodeId ∧ session.userId = peer.userId
  timeline : InOrder seen →
    Timeline (sightings seen) ((sessionsOf peer.id traffic).map (·.span))

structure SessionLog (p : PeerId) (seen : List Observation) (db : Db) : Prop where
  keys : SessionKeys db.traffic
  fresh : db.nextId ≤ p → seen = [] ∧ sessionsOf p db.traffic = []
  row : ∀ peer ∈ db.peers, peer.id = p → Tracked seen db.traffic peer

theorem SessionKeys.aside (h : SessionKeys db.traffic) {db' : Db} (hw : Aside p db db') :
    SessionKeys db'.traffic := by
  cases hw.traffic with
  | kept _ hsessions hids => exact h.frame hsessions hids
  | result row data now _ htraffic =>
      obtain ⟨hsessions, hids⟩ := trafficAfterResult_sessions db row data now
      rw [htraffic]
      exact (h.step (applyPeerEndpointSession_step db.traffic row data now)).frame hsessions hids
  | dropped peer user node htraffic _ =>
      rw [htraffic]
      exact ⟨h.distinct.filter _, h.below.filter _⟩

/-- The sessions of a peer that stays, after a write beside it. -/
theorem Aside.sessions_eq {db' : Db} (hw : Aside p db db') (hkeys : SessionKeys db.traffic)
    {q : Peer} (hq : q ∈ db'.peers) (hid : q.id = p)
    (hrows : ∀ session ∈ sessionsOf p db.traffic,
      session.nodeId = q.nodeId ∧ session.userId = q.userId) :
    sessionsOf p db'.traffic = sessionsOf p db.traffic := by
  subst hid
  cases hw.traffic with
  | kept _ hsessions _ => exact sessionsOf_congr hsessions
  | result row data now hne htraffic =>
      rw [htraffic, sessionsOf_congr (trafficAfterResult_sessions db row data now).1]
      exact sessionsOf_other hkeys (applyPeerEndpointSession_step db.traffic row data now) hne
  | dropped peer user node htraffic hstays =>
      rw [htraffic]
      refine filter_dropped (fun session hsession hpeer => ?_) (hstays q hq rfl)
      exact hrows session (List.mem_filter.mpr ⟨hsession, decide_eq_true hpeer⟩)

/-- No session of the peer is written beside it. -/
theorem Aside.sessions_nil {db' : Db} (hw : Aside p db db') (hkeys : SessionKeys db.traffic)
    (hnil : sessionsOf p db.traffic = []) : sessionsOf p db'.traffic = [] := by
  cases hw.traffic with
  | kept _ hsessions _ => rw [sessionsOf_congr hsessions, hnil]
  | result row data now hne htraffic =>
      rw [htraffic, sessionsOf_congr (trafficAfterResult_sessions db row data now).1,
        sessionsOf_other hkeys (applyPeerEndpointSession_step db.traffic row data now) hne, hnil]
  | dropped peer user node htraffic _ =>
      rw [htraffic]
      refine List.filter_eq_nil_iff.mpr fun session hsession => ?_
      exact List.filter_eq_nil_iff.mp hnil session (List.mem_filter.mp hsession).1

theorem SessionLog.aside (h : SessionLog p seen db) {db' : Db} (hw : Aside p db db') :
    SessionLog p seen db' where
  keys := h.keys.aside hw
  fresh hfresh := by
    obtain ⟨hseen, hnil⟩ := h.fresh (hw.nextId.trans hfresh)
    exact ⟨hseen, hw.sessions_nil h.keys hnil⟩
  row peer hpeer hid := by
    subst hid
    cases hw.row peer hpeer rfl with
    | kept old hold hsame _ _ =>
        have ht := h.row old hold hsame.id.symm
        have hrows : ∀ session ∈ sessionsOf peer.id db.traffic,
            session.nodeId = peer.nodeId ∧ session.userId = peer.userId := by
          rw [hsame.id, hsame.nodeId, hsame.userId]
          exact ht.rows
        have hsessions := hw.sessions_eq h.keys hpeer rfl hrows
        refine ⟨?_, fun horder => ?_⟩
        · rw [hsessions]
          exact hrows
        · rw [hsessions, hsame.id]
          exact ht.timeline horder
    | created hnew _ _ =>
        -- the peer is created: it was never seen
        obtain ⟨rfl, hnil⟩ := h.fresh hnew.le
        have hnone := hw.sessions_nil h.keys hnil
        refine ⟨fun session hsession => ?_, fun _ => ?_⟩
        · rw [hnone] at hsession
          cases hsession
        · rw [hnone]
          exact .nil

theorem SessionLog.own (hwf : db.WF) (h : SessionLog p seen db) {row : Peer}
    (hrow : row ∈ db.peers) (hid : row.id = p) (data : PeerSyncResult) (now : Time) :
    SessionLog p (seen ++ [⟨data, now⟩]) (applyPeerResult db row data now).2 := by
  subst hid
  have ht := h.row row hrow rfl
  have hsame := peerAfterResult_same db row data
  have hstep := applyPeerEndpointSession_step db.traffic row data now
  obtain ⟨hsessions, hids⟩ := trafficAfterResult_sessions db row data now
  rw [applyPeerResult_db]
  refine ⟨(h.keys.step hstep).frame hsessions hids, fun hfresh => ?_, fun peer hpeer hpid => ?_⟩
  · exact absurd (hwf.peerFresh row hrow) (Nat.not_lt.mpr hfresh)
  · rcases Rows.mem_save.mp hpeer with ⟨rfl, -⟩ | ⟨-, hne⟩
    swap
    · exact absurd (hpid.trans (peerAfterResult_id db row data).symm) hne
    refine ⟨fun session hsession => ?_, fun horder => ?_⟩
    · rw [hsame.id, sessionsOf_congr hsessions] at hsession
      rw [hsame.nodeId, hsame.userId]
      rcases hstep.mem hsession with ⟨old, hold, hnode, huser⟩ | hnew
      · rw [hnode, huser]
        exact ht.rows old hold
      · exact hnew
    · rw [hsame.id, sessionsOf_congr hsessions]
      unfold InOrder at horder
      rw [List.map_append, List.pairwise_append] at horder
      obtain ⟨hbefore, -, hlater⟩ := horder
      exact hstep.timeline h.keys (ht.timeline hbefore) fun o ho =>
        hlater _ (List.mem_map_of_mem ho) now List.mem_cons_self

/-- **Sessions.** The sessions of a peer follow its results. -/
theorem SessionLog.follows (p : PeerId) : Follows p (SessionLog p) where
  absent {seen db} next h hlt hnone := by
    refine ⟨h.keys, fun hfresh => absurd hlt (Nat.not_lt.mpr hfresh), fun peer hpeer hid => ?_⟩
    exact absurd hid (Rows.get?_eq_none.mp hnone peer hpeer)
  other h hw := h.aside hw
  own data now hwf h hrow hid := h.own hwf hrow hid data now

theorem SessionLog.empty (p : PeerId) : SessionLog p [] {} :=
  ⟨⟨List.nodup_nil, fun _ h => absurd h List.not_mem_nil⟩, fun _ => ⟨rfl, rfl⟩,
    fun _ h => absurd h List.not_mem_nil⟩

end Results

end VpnPanel.Backend
