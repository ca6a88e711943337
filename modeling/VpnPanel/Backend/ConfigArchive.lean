import VpnPanel.Backend.ClientConfig
import VpnPanel.Lib.FreshNames
import VpnPanel.Lib.Json

/-!
# Archives of configurations

The names and the entries of a ZIP: `services/node_config.py` and
`_ready_zip_entries` of `api_parts/configs.py`. An archive is the list of its
entries in the order in which they are written.
-/

namespace VpnPanel.Backend

open VpnPanel.Lib VpnPanel.Lib.Text

/-! ## Components -/

def maxArchiveComponent : Nat := 64

/-- The class `[A-Za-z0-9._-]`. -/
def archiveSafe (c : Char) : Bool := c.isAlphanum || c = '.' || c = '_' || c = '-'

/-- `_ARCHIVE_UNSAFE.sub('_', raw)`; `inRun` holds behind an unsafe character. -/
def subUnsafe (inRun : Bool) : Text → Text
  | [] => []
  | c :: rest =>
      if archiveSafe c then c :: subUnsafe false rest
      else if inRun then subUnsafe true rest
      else '_' :: subUnsafe true rest

/-- `t.strip('._')` -/
def stripEdges (t : Text) : Text :=
  (t.dropWhile fun c => c = '.' || c = '_').rdropWhile fun c => c = '.' || c = '_'

def archiveComponent (raw fallback : Text) : Text :=
  let cleaned := (stripEdges (subUnsafe false raw)).take maxArchiveComponent
  if cleaned = [] then fallback else cleaned

/-! ## Names -/

/-- The candidate of a counter. -/
def archiveCandidate (preferred : Text) (counter : Nat) : Text :=
  let (stem, dot, extension) := rpartition '.' preferred
  if dot = [] then preferred ++ '-' :: decimal counter
  else stem ++ '-' :: decimal counter ++ dot ++ extension

/-- `unique_archive_name`, whose loop runs for at most `fuel` rounds. -/
def uniqueArchiveName (fuel : Nat) (used : List Text) (preferred : Text) : Option Text :=
  if preferred ∈ used then firstFree (archiveCandidate preferred) used fuel 2
  else some preferred

/-- `str(UUID(int=id))`; an id is the number that `uuid4` draws. -/
def uuidText (id : Nat) : Text :=
  let hex := (List.range 32).map fun i => JsonValue.hexDigit (id / 16 ^ (31 - i) % 16)
  hex.take 8 ++ '-' :: (hex.drop 8).take 4 ++ '-' :: (hex.drop 12).take 4 ++
    '-' :: (hex.drop 16).take 4 ++ '-' :: hex.drop 20

def deviceComponent (device : Device) : Text :=
  archiveComponent device.name.toList "device".toList

def deviceArchiveFolder (device : Device) : Text :=
  deviceComponent device ++ '-' :: (uuidText device.id).take 8

def configEntryName (device : Device) (node : Node) (folder : Option Text) : Text :=
  let filename := deviceComponent device ++ '-' ::
    archiveComponent node.name.toList "node".toList ++ ".conf".toList
  match folder with
  | none => filename
  | some folder => if folder = [] then filename else folder ++ '/' :: filename

/-! ## Entries -/

structure ConfigZipEntry where
  device : Device
  node : Node
  peer : Peer
  name : Text

/-- `peers_by_device(rows)[device_id][node_id]`: a later row replaces an earlier
one. -/
def peerOfPair (rows : List Peer) (deviceId : DeviceId) (nodeId : NodeId) : Option Peer :=
  rows.reverse.find? fun peer => peer.deviceId = deviceId ∧ peer.nodeId = nodeId

/-- The entry of a pair, where it is ready. -/
def readyZipEntry (rows : List Peer) (folder : Option Text) (device : Device) (node : Node) :
    Option ConfigZipEntry :=
  (peerOfPair rows device.id node.id).bind fun peer =>
    if peerAvailable node device (some peer) then
      some { device, node, peer, name := configEntryName device node folder }
    else none

def readyZipEntries (db : Db) (devices : List Device) (nodes : List Node)
    (folderPerDevice : Bool) : List ConfigZipEntry :=
  let rows := db.peers.filter (·.deviceId ∈ devices.map (·.id))
  devices.flatMap fun device =>
    let folder := if folderPerDevice then some (deviceArchiveFolder device) else none
    nodes.filterMap (readyZipEntry rows folder device)

/-- The loop of `build_configs_zip` behind the entries that are written. -/
def writeEntries (fuel : Nat) (written : List (Text × String)) :
    List ConfigZipEntry → Option (List (Text × String))
  | [] => some written
  | entry :: rest =>
      match buildAwgClientConfig entry.device entry.node (entry.peer.pskKey.getD "") with
      | none => writeEntries fuel written rest
      | some config =>
          if config = "" then writeEntries fuel written rest
          else (uniqueArchiveName fuel (written.map (·.1)) entry.name).bind fun name =>
            writeEntries fuel (written ++ [(name, config)]) rest

/-- The entries of the ZIP; nothing where a search for a name goes on behind
`fuel` rounds. -/
def buildConfigsZip (fuel : Nat) (entries : List ConfigZipEntry) :
    Option (List (Text × String)) :=
  writeEntries fuel [] entries

end VpnPanel.Backend
