import Mathlib.Data.List.Sort
import VpnPanel.Backend.EndpointSessions

/-!
# The endpoints of a peer over time

Whatever the panel is asked in between, results of a peer that come at later
and later times leave its endpoint sessions as a clean timeline: one session
after another, each at another endpoint than the one before, for what was seen.
-/

namespace VpnPanel.Theorems

open VpnPanel.Lib VpnPanel.Backend

/-- The panel, and the results that it was given for one peer, oldest first. -/
structure PeerRecord where
  panel : Panel := {}
  results : List Observation := []

/-- Any request may come at any time; its results of the peer `p` are noted. -/
def peerRecord (cfg : Config) (p : PeerId) : TSys PeerRecord Call where
  init := {}
  step s call :=
    ((panel cfg).step s.panel call).map fun panel =>
      { panel, results := s.results ++ observationsFor p s.panel.db call }

/-- The endpoint sessions of the peer `p`, ordered by `first_seen_at`. -/
def byFirstSeen (p : PeerId) (db : Db) : List PeerEndpointSession :=
  (sessionsOf p db.traffic).insertionSort fun s t => s.firstSeenAt ≤ t.firstSeenAt

/-- The endpoints that results showed, without those that showed none. -/
def endpointsSeen (results : List Observation) : List String :=
  results.filterMap (·.data.seenEndpoint)

/-- Sessions that follow each other, at the endpoints that the results showed
with adjacent repetitions removed. -/
structure CleanTimeline (results : List Observation) (sessions : List PeerEndpointSession) :
    Prop where
  within : ∀ s ∈ sessions, s.firstSeenAt ≤ s.lastSeenAt
  apart : sessions.IsChain fun s t => s.lastSeenAt < t.firstSeenAt
  differ : sessions.IsChain fun s t => s.endpoint ≠ t.endpoint
  endpoints : sessions.map (·.endpoint) = (endpointsSeen results).destutter (· ≠ ·)

theorem peerRecord_log {cfg : Config} {p : PeerId} {s : PeerRecord}
    (h : (peerRecord cfg p).Reachable s) : s.panel.db.WF ∧ SessionLog p s.results s.panel.db := by
  refine TSys.Reaches.invariant
    (P := fun s => s.panel.db.WF ∧ SessionLog p s.results s.panel.db)
    ⟨Db.WF.empty, SessionLog.empty p⟩ ?_ h
  rintro s call s' ⟨hwf, hlog⟩ - hstep
  obtain ⟨next, hnext, rfl⟩ := Option.map_eq_some_iff.mp hstep
  exact ⟨(panel_step_phases hwf hnext).writes.wf hwf, (SessionLog.follows p).step hwf hlog hnext⟩

theorem endpointsSeen_eq (results : List Observation) :
    endpointsSeen results = (sightings results).map (·.value) := by
  unfold endpointsSeen sightings
  rw [List.map_filterMap]
  refine List.filterMap_congr fun o _ => ?_
  unfold Observation.sighting
  cases o.data.seenEndpoint <;> rfl

/-- The spans of a timeline, read as sessions. -/
theorem cleanTimeline_of_spans {results : List Observation} {sessions : List PeerEndpointSession}
    (h : Timeline (sightings results) (sessions.map (·.span))) :
    CleanTimeline results sessions where
  within s hs := h.within s.span (List.mem_map_of_mem hs)
  apart := (List.pairwise_map.mp h.apart).isChain
  differ := by
    have hdiffer := h.differ
    rw [List.map_map] at hdiffer
    exact (List.isChain_map _).mp hdiffer
  endpoints := by
    have hvalues := h.values
    rw [List.map_map] at hvalues
    rw [endpointsSeen_eq]
    exact hvalues

/-- In a timeline the sessions were inserted in the order of their first times. -/
theorem byFirstSeen_of_timeline {p : PeerId} {db : Db} {results : List Observation}
    (h : Timeline (sightings results) ((sessionsOf p db.traffic).map (·.span))) :
    byFirstSeen p db = sessionsOf p db.traffic := by
  have hfirst : ((sessionsOf p db.traffic).map (·.span)).Pairwise fun s t => s.first ≤ t.first :=
    h.apart.imp_of_mem fun hs _ hst => (h.within _ hs).trans hst.le
  rw [List.pairwise_map] at hfirst
  exact hfirst.insertionSort_eq

/-- **The sessions of a peer are a clean timeline.** In every state of the
system in which the results of a peer came at later and later times, the
endpoint sessions of the peer are one. -/
theorem endpoint_sessions_timeline (cfg : Config) (p : PeerId) (s : PeerRecord)
    (hs : (peerRecord cfg p).Reachable s) (peer : Peer) (hpeer : peer ∈ s.panel.db.peers)
    (hid : peer.id = p) (horder : (s.results.map (·.observedAt)).Pairwise (· < ·)) :
    CleanTimeline s.results (byFirstSeen p s.panel.db) := by
  subst hid
  have htimeline := ((peerRecord_log hs).2.row peer hpeer rfl).timeline horder
  rw [byFirstSeen_of_timeline htimeline]
  exact cleanTimeline_of_spans htimeline

/-- The node's answer to a heartbeat, with the endpoint and the handshake of
the peer. -/
def seenAt (endpoint : Option String) (lastHandshake : Option Time) : Request :=
  .heartbeatResult 0 { peers := [
    { publicKey := "public-2", status := some "active", endpoint := some endpoint,
      lastHandshake }] }

/-- The peer is at one endpoint, at none, at the first again with the same
handshake and with a new one, and then at another. -/
def movingPeer : List Call := oneDevice ++ [
  ⟨3, seenAt (some "198.51.100.1:1000") (some 3)⟩, ⟨4, seenAt none none⟩,
  ⟨5, seenAt (some "198.51.100.1:1000") (some 3)⟩,
  ⟨6, seenAt (some "198.51.100.1:1000") (some 6)⟩, ⟨7, seenAt (some "198.51.100.2:2000") none⟩]

theorem moving_peer_timeline :
    ∃ s, (peerRecord exampleConfig 3).replay movingPeer = some s ∧
      CleanTimeline s.results (byFirstSeen 3 s.panel.db) ∧
      (byFirstSeen 3 s.panel.db).map (fun r => (r.endpoint, r.firstSeenAt, r.lastSeenAt)) =
        [("198.51.100.1:1000", 3, 6), ("198.51.100.2:2000", 7, 7)] := by
  have hrun : ((peerRecord exampleConfig 3).replay movingPeer).any (fun s =>
      s.panel.db.peers.any (·.id = 3) && (s.results.map (·.observedAt)).Pairwise (· < ·) &&
        (byFirstSeen 3 s.panel.db).map (fun r => (r.endpoint, r.firstSeenAt, r.lastSeenAt)) =
          [("198.51.100.1:1000", 3, 6), ("198.51.100.2:2000", 7, 7)]) = true := by decide +kernel
  obtain ⟨s, hs, hall⟩ := TSys.replay_any hrun
  simp only [Bool.and_eq_true, List.any_eq_true, decide_eq_true_eq] at hall
  obtain ⟨⟨⟨peer, hpeer, hid⟩, horder⟩, hrows⟩ := hall
  exact ⟨s, hs, endpoint_sessions_timeline exampleConfig 3 s (TSys.replay_reachable hs) peer hpeer
    hid horder, hrows⟩

end VpnPanel.Theorems
