import VpnPanel.Lib.Rows
import VpnPanel.Lib.Separated
import VpnPanel.Lib.Text
import VpnPanel.Lib.TSys

/-!
# The QR cache of the public page

`utils/deviceQrCache.ts` and `composables/useVpnQrChunks.ts`. An entry belongs
to a device and a node and is stored under a text made of both ids. Fetches are
answered in any order, also after they were aborted.
-/

namespace VpnPanel.UserPage

open VpnPanel.Lib

/-! ## Keys -/

/-- The separator of the composite keys. -/
def keySeparator : Char := '\x00'

/-- An id without the separator. -/
structure KeyId where
  text : Text
  plain : keySeparator ∉ text
  deriving DecidableEq

def nodeCacheKey (deviceId nodeId : Text) : Text := deviceId ++ keySeparator :: nodeId

def parseNodeCacheKey (key : Text) : Option (Text × Text) := Text.partition [keySeparator] key

theorem parse_nodeCacheKey (d n : KeyId) :
    parseNodeCacheKey (nodeCacheKey d.text n.text) = some (d.text, n.text) :=
  Text.partition_char d.plain

theorem KeyId.ext_text {d d' : KeyId} (h : d.text = d'.text) : d = d' := by
  cases d
  cases d'
  cases h
  rfl

/-- `key.startsWith(nodeCacheKey(deviceId, ''))`. -/
def keyOfDevice (deviceId : KeyId) (key : Text) : Bool :=
  (nodeCacheKey deviceId.text []).isPrefixOf key

/-- The keys with a device's part in front are that device's. -/
theorem keyOfDevice_iff (d d' n : KeyId) :
    keyOfDevice d (nodeCacheKey d'.text n.text) = true ↔ d' = d := by
  unfold keyOfDevice
  rw [List.isPrefixOf_iff_prefix]
  constructor
  · rintro ⟨rest, hrest⟩
    have hsplit : d.text ++ keySeparator :: rest = d'.text ++ keySeparator :: n.text := by
      rw [← show nodeCacheKey d.text [] ++ rest = d.text ++ keySeparator :: rest by
        simp [nodeCacheKey]]
      exact hrest
    exact KeyId.ext_text (Separated.eq_of_append_cons d.plain d'.plain hsplit).1.symm
  · rintro rfl
    exact ⟨n.text, by simp [nodeCacheKey]⟩

theorem nodeCacheKey_inj {d d' n n' : KeyId}
    (h : nodeCacheKey d.text n.text = nodeCacheKey d'.text n'.text) : d = d' ∧ n = n' := by
  obtain ⟨hd, hn⟩ := Separated.eq_of_append_cons d.plain d'.plain h
  exact ⟨KeyId.ext_text hd, KeyId.ext_text hn⟩

/-! ## The cache -/

inductive QrLoadState
  | loading
  | chunks (chunks : List String) (idx : Nat)
  | error
  deriving DecidableEq

/-- The next part of a multi-part code. -/
def QrLoadState.rotate : QrLoadState → QrLoadState
  | .chunks parts idx =>
      if parts.length > 1 then .chunks parts ((idx + 1) % parts.length) else .chunks parts idx
  | state => state

/-- What was asked for, and after how many resets. The source does not keep it:
it says where a state comes from. -/
structure Origin where
  deviceId : KeyId
  nodeId : KeyId
  resets : Nat
  deriving DecidableEq

structure DeviceQrCacheEntry where
  state : QrLoadState
  generation : Nat
  origin : Origin
  deriving DecidableEq

structure DeviceQrCache where
  entries : List (Text × DeviceQrCacheEntry) := []
  known : List KeyId := []
  generation : Nat := 0

namespace DeviceQrCache

variable (c : DeviceQrCache)

def bumpGeneration : DeviceQrCache := { c with generation := c.generation + 1 }

def accepts (deviceId : KeyId) (generation : Nat) : Bool :=
  generation = c.generation && c.known.contains deviceId

def trackDevice (deviceId : KeyId) : DeviceQrCache :=
  { c with known := c.known.insert deviceId }

def deleteByDevice (deviceId : KeyId) : DeviceQrCache :=
  { c with entries := c.entries.filter fun e => !keyOfDevice deviceId e.1 }

def forgetDevice (deviceId : KeyId) : DeviceQrCache :=
  ({ c with known := c.known.filter (· ≠ deviceId) } : DeviceQrCache).deleteByDevice deviceId

def clear : DeviceQrCache := ({ c with entries := [], known := [] } : DeviceQrCache).bumpGeneration

def get (deviceId nodeId : KeyId) : Option DeviceQrCacheEntry :=
  (Rows.get? Prod.fst c.entries (nodeCacheKey deviceId.text nodeId.text)).map Prod.snd

def has (deviceId nodeId : KeyId) : Bool := (c.get deviceId nodeId).isSome

def rotate : DeviceQrCache :=
  { c with entries := c.entries.map fun (key, e) => (key, { e with state := e.state.rotate }) }

/-- `entries.set(key, …)` of a `Map`. -/
def put (key : Text) (e : DeviceQrCacheEntry) (entries : List (Text × DeviceQrCacheEntry)) :
    List (Text × DeviceQrCacheEntry) :=
  if (Rows.get? Prod.fst entries key).isSome then Rows.save Prod.fst (key, e) entries
  else entries ++ [(key, e)]

def set (origin : Origin) (state : QrLoadState) (generation : Nat) : DeviceQrCache :=
  if c.known.contains origin.deviceId then
    let key := nodeCacheKey origin.deviceId.text origin.nodeId.text
    { c with entries := put key ⟨state, generation, origin⟩ c.entries }
  else c

def setIfLive (origin : Origin) (state : QrLoadState) (generation : Nat) : DeviceQrCache :=
  if c.accepts origin.deviceId generation then c.set origin state generation else c

end DeviceQrCache

/-! ## The composable -/

/-- A node of a listed device, as far as a load reads it. -/
structure UserNode where
  id : KeyId
  ready : Bool
  vpnUri : Option String

/-- A fetch without an answer, with what its continuation holds on to. -/
structure Fetch where
  origin : Origin
  generation : Nat
  controller : Nat
  aborted : Bool := false
  deriving DecidableEq

/-- `fetchVpnChunks`: nothing where the fetch was aborted. -/
inductive VpnQrData
  | aborted
  | error
  | chunks (chunks : List String)
  deriving DecidableEq

/-- The state a fetched answer is shown as; nothing where it was aborted. -/
def VpnQrData.state? : VpnQrData → Option QrLoadState
  | .aborted => none
  | .error => some .error
  | .chunks parts => some (if parts.isEmpty then .error else .chunks parts 0)

structure VpnQrChunks where
  cache : DeviceQrCache := {}
  knownDevices : List KeyId := []
  controllers : List (Text × Nat) := []
  fetches : List Fetch := []
  nextController : Nat := 0
  /-- The devices on the page: the last list, without those deleted since. -/
  listed : List KeyId := []
  /-- How often the link changed. -/
  resets : Nat := 0

namespace VpnQrChunks

variable (s : VpnQrChunks)

/-- `controller.abort()` on the controllers that `which` selects. -/
def abort (which : Text → Bool) : VpnQrChunks :=
  let gone := (s.controllers.filter fun c => which c.1).map Prod.snd
  { s with
    controllers := s.controllers.filter fun c => !which c.1
    fetches := s.fetches.map fun f =>
      if gone.contains f.controller then { f with aborted := true } else f }

def abortDevice (deviceId : KeyId) : VpnQrChunks := s.abort (keyOfDevice deviceId)

def abortAll : VpnQrChunks := s.abort fun _ => true

def forgetDevice (deviceId : KeyId) : VpnQrChunks :=
  let s := s.abortDevice deviceId
  { s with
    knownDevices := s.knownDevices.filter (· ≠ deviceId)
    cache := s.cache.forgetDevice deviceId
    listed := s.listed.filter (· ≠ deviceId) }

def trackDevice (deviceId : KeyId) : VpnQrChunks :=
  if s.knownDevices.contains deviceId then s
  else { s with
    knownDevices := s.knownDevices.insert deviceId
    cache := s.cache.trackDevice deviceId }

/-- Devices that left the list are forgotten, new ones are tracked. -/
def syncDevices (live : List KeyId) : VpnQrChunks :=
  let s := (s.knownDevices.filter (!live.contains ·)).foldl forgetDevice s
  live.foldl trackDevice { s with listed := live }

def loadChunks (deviceId : KeyId) (node : UserNode) : VpnQrChunks :=
  if !node.ready || (node.vpnUri.getD "").isEmpty then s
  else if s.cache.has deviceId node.id then s
  else
    let origin := ⟨deviceId, node.id, s.resets⟩
    let generation := s.cache.generation
    let key := nodeCacheKey deviceId.text node.id.text
    { s with
      controllers := s.controllers.filter (·.1 ≠ key) ++ [(key, s.nextController)]
      nextController := s.nextController + 1
      cache := s.cache.set origin .loading generation
      fetches := s.fetches ++ [⟨origin, generation, s.nextController, false⟩] }

/-- The continuation of `loadChunks`. -/
def settle (f : Fetch) (data : VpnQrData) : VpnQrChunks :=
  let key := nodeCacheKey f.origin.deviceId.text f.origin.nodeId.text
  { s with
    fetches := s.fetches.erase f
    cache := match data.state? with
      | none => s.cache
      | some state => s.cache.setIfLive f.origin state f.generation
    controllers := s.controllers.filter fun c => !(c.1 = key && c.2 = f.controller) }

def reset : VpnQrChunks :=
  let s := s.abortAll
  { s with knownDevices := [], cache := s.cache.clear, listed := [], resets := s.resets + 1 }

end VpnQrChunks

inductive QrEvent
  | sync (devices : List KeyId)
  | forget (deviceId : KeyId)
  | load (deviceId : KeyId) (node : UserNode)
  | settle (f : Fetch) (data : VpnQrData)
  | rotate
  | reset

/-- The next state; `none` when the event is not enabled. Only a fetch that was
aborted is answered with an `AbortError`. -/
def VpnQrChunks.step (s : VpnQrChunks) : QrEvent → Option VpnQrChunks
  | .sync devices => some (s.syncDevices devices)
  | .forget deviceId => some (s.forgetDevice deviceId)
  | .load deviceId node => some (s.loadChunks deviceId node)
  | .settle f data =>
      if f ∈ s.fetches ∧ (data = .aborted → f.aborted = true) then some (s.settle f data) else none
  | .rotate => some { s with cache := s.cache.rotate }
  | .reset => some s.reset

def qrChunks : TSys VpnQrChunks QrEvent where
  init := {}
  step := VpnQrChunks.step

/-! ## Whose entries the cache holds -/

namespace DeviceQrCache

variable {c : DeviceQrCache}

theorem mem_put {key : Text} {e : DeviceQrCacheEntry}
    {entries : List (Text × DeviceQrCacheEntry)} {x : Text × DeviceQrCacheEntry}
    (h : x ∈ put key e entries) : x ∈ entries ∨ x = (key, e) := by
  unfold put at h
  split at h
  · obtain ⟨r, hr, hx⟩ := List.mem_map.mp h
    split at hx
    · exact .inr hx.symm
    · exact .inl (hx ▸ hr)
  · rcases List.mem_append.mp h with h | h
    · exact .inl h
    · exact .inr (List.mem_singleton.mp h)

@[simp] theorem set_known {origin : Origin} {state : QrLoadState} {generation : Nat} :
    (c.set origin state generation).known = c.known := by
  unfold set
  split
  · rfl
  · rfl

@[simp] theorem set_generation {origin : Origin} {state : QrLoadState} {generation : Nat} :
    (c.set origin state generation).generation = c.generation := by
  unfold set
  split
  · rfl
  · rfl

/-- What is stored is stored for a known device, under its own key. -/
theorem mem_set {origin : Origin} {state : QrLoadState} {generation : Nat}
    {x : Text × DeviceQrCacheEntry} (h : x ∈ (c.set origin state generation).entries) :
    x ∈ c.entries ∨ (origin.deviceId ∈ c.known ∧ x.2.origin = origin ∧
      x.1 = nodeCacheKey origin.deviceId.text origin.nodeId.text) := by
  unfold set at h
  split at h
  · next hknown =>
    rcases mem_put h with h | rfl
    · exact .inl h
    · exact .inr ⟨by simpa using hknown, rfl, rfl⟩
  · exact .inl h

/-- Forgetting a device removes its entries and no other. -/
theorem get_forgetDevice (d d' n : KeyId) :
    (c.forgetDevice d).get d' n = if d' = d then none else c.get d' n := by
  have hkey := keyOfDevice_iff d d' n
  unfold forgetDevice deleteByDevice get
  dsimp only
  split
  · next hd =>
    rw [Rows.get?_filter_eq_none fun e _ he => ?_]
    · rfl
    · rw [he, hkey.mpr hd]
      rfl
  · next hd =>
    rw [Rows.get?_filter fun e _ he => ?_]
    rw [he]
    simpa using fun h => hd (hkey.mp h)

end DeviceQrCache

end VpnPanel.UserPage
