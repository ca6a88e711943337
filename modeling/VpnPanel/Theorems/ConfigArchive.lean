import VpnPanel.Backend.ConfigArchive

/-!
# What an archive holds

Every name of an archive is a stem before `.conf`, and a number only ever joins
the stem, so a name keeps its folder and its shape. A name that is taken gives
way to the first candidate that is free.
-/

namespace VpnPanel.Theorems

open VpnPanel.Lib VpnPanel.Lib.Text VpnPanel.Backend

/-! ## Components -/

theorem mem_subUnsafe {raw : Text} {inRun : Bool} {c : Char} (h : c ∈ subUnsafe inRun raw) :
    archiveSafe c = true := by
  induction raw generalizing inRun with
  | nil => cases h
  | cons d rest ih =>
      rw [subUnsafe] at h
      split at h
      · next hsafe =>
          rcases List.mem_cons.mp h with rfl | h
          · exact hsafe
          · exact ih h
      · split at h
        · exact ih h
        · rcases List.mem_cons.mp h with rfl | h
          · decide
          · exact ih h

theorem mem_archiveComponent {raw fallback : Text} {c : Char}
    (h : c ∈ archiveComponent raw fallback) : archiveSafe c = true ∨ c ∈ fallback := by
  unfold archiveComponent at h
  simp only at h
  split at h
  · exact .inr h
  · have hstripped := List.mem_of_mem_take h
    have hfront := (List.rdropWhile_prefix _ _).subset hstripped
    exact .inl (mem_subUnsafe ((List.dropWhile_suffix _).subset hfront))

theorem slash_of_component {raw fallback : Text} (h : '/' ∉ fallback) :
    '/' ∉ archiveComponent raw fallback := by
  intro hslash
  rcases mem_archiveComponent hslash with hsafe | hmem
  · exact absurd hsafe (by decide)
  · exact h hmem

/-! ## Names -/

/-- A folder or a file of the archive. -/
def IsPart (part : Text) : Prop := '/' ∉ part ∧ part ≠ [] ∧ part ≠ ['.'] ∧ part ≠ ['.', '.']

/-- A name before its `.conf`: a stem, in a folder or in none. -/
inductive EntryStem : Text → Prop
  | file {stem : Text} : '/' ∉ stem → EntryStem stem
  | inside {folder stem : Text} : IsPart folder → '/' ∉ stem → EntryStem (folder ++ '/' :: stem)

/-- The name of an entry. -/
def IsEntryName (name : Text) : Prop := ∃ stem, EntryStem stem ∧ name = stem ++ ".conf".toList

/-- At most one slash, and no component that is empty or leads elsewhere. -/
structure SafeName (name : Text) : Prop where
  slashes : name.count '/' ≤ 1
  components : ∀ part ∈ name.splitOn '/', part ≠ [] ∧ part ≠ ['.'] ∧ part ≠ ['.', '.']

theorem slash_of_decimal (n : Nat) : '/' ∉ '-' :: decimal n := by
  intro h
  rcases List.mem_cons.mp h with h | h
  · exact absurd h (by decide)
  · rcases mem_decimal h with h | h <;> exact absurd h (by decide)

theorem EntryStem.append {stem more : Text} (h : EntryStem stem) (hmore : '/' ∉ more) :
    EntryStem (stem ++ more) := by
  cases h with
  | file hstem => exact .file fun hmem => (List.mem_append.mp hmem).elim hstem hmore
  | @inside folder stem hfolder hstem =>
      rw [List.append_assoc, List.cons_append]
      exact .inside hfolder fun hmem => (List.mem_append.mp hmem).elim hstem hmore

/-- A file name keeps more than its extension's five characters. -/
theorem conf_part {stem : Text} : stem ++ ".conf".toList ≠ [] ∧
    stem ++ ".conf".toList ≠ ['.'] ∧ stem ++ ".conf".toList ≠ ['.', '.'] := by
  have hlong : 5 ≤ (stem ++ ".conf".toList).length := by
    rw [List.length_append]
    exact Nat.le_add_left 5 _
  refine ⟨fun h => ?_, fun h => ?_, fun h => ?_⟩ <;> rw [h] at hlong <;>
    exact absurd hlong (by decide)

theorem IsEntryName.safe {name : Text} (h : IsEntryName name) : SafeName name := by
  obtain ⟨stem, hstem, rfl⟩ := h
  have hfile : ∀ {stem : Text}, '/' ∉ stem → '/' ∉ stem ++ ".conf".toList := by
    intro stem hstem hmem
    exact (List.mem_append.mp hmem).elim hstem (by decide)
  cases hstem with
  | file hstem =>
      refine ⟨?_, fun part hpart => ?_⟩
      · rw [List.count_eq_zero.mpr (hfile hstem)]
        exact Nat.zero_le 1
      · rw [List.splitOn_eq_singleton (hfile hstem), List.mem_singleton] at hpart
        rw [hpart]
        exact conf_part
  | @inside folder stem hfolder hstem =>
      rw [List.append_assoc, List.cons_append]
      refine ⟨?_, fun part hpart => ?_⟩
      · rw [List.count_append, List.count_cons_self, List.count_eq_zero.mpr hfolder.1,
          List.count_eq_zero.mpr (hfile hstem)]
      · rw [List.splitOn_append_cons_self_of_not_mem hfolder.1,
          List.splitOn_eq_singleton (hfile hstem)] at hpart
        rcases List.mem_pair.mp hpart with rfl | rfl
        · exact hfolder.2
        · exact conf_part

/-! ## Names that are planned -/

theorem slash_of_uuidText (id : Nat) : '/' ∉ uuidText id := by
  have hhex : ∀ n < 16, JsonValue.hexDigit n ≠ '/' := by decide
  have hdigits : '/' ∉ (List.range 32).map fun i =>
      JsonValue.hexDigit (id / 16 ^ (31 - i) % 16) := by
    intro hmem
    obtain ⟨i, -, hi⟩ := List.mem_map.mp hmem
    exact hhex _ (Nat.mod_lt _ (by decide)) hi
  have hdash : '/' ≠ '-' := by decide
  unfold uuidText
  simp only [List.mem_append, List.mem_cons, hdash, false_or, not_or]
  exact ⟨⟨⟨⟨fun h => hdigits (List.mem_of_mem_take h),
    fun h => hdigits (List.mem_of_mem_drop (List.mem_of_mem_take h))⟩,
    fun h => hdigits (List.mem_of_mem_drop (List.mem_of_mem_take h))⟩,
    fun h => hdigits (List.mem_of_mem_drop (List.mem_of_mem_take h))⟩,
    fun h => hdigits (List.mem_of_mem_drop h)⟩

theorem isPart_folder (device : Device) : IsPart (deviceArchiveFolder device) := by
  have hdash : '-' ∈ deviceArchiveFolder device :=
    List.mem_append_right _ List.mem_cons_self
  refine ⟨fun hmem => ?_, fun h => ?_, fun h => ?_, fun h => ?_⟩
  · rcases List.mem_append.mp hmem with hmem | hmem
    · exact slash_of_component (by decide) hmem
    · rcases List.mem_cons.mp hmem with hmem | hmem
      · exact absurd hmem (by decide)
      · exact slash_of_uuidText _ (List.mem_of_mem_take hmem)
  all_goals
    rw [h] at hdash
    exact absurd hdash (by decide)

theorem isEntryName_planned (device : Device) (node : Node) {folder : Option Text}
    (h : ∀ f ∈ folder, IsPart f) : IsEntryName (configEntryName device node folder) := by
  have hstem : '/' ∉ deviceComponent device ++ '-' ::
      archiveComponent node.name.toList "node".toList := by
    intro hmem
    rcases List.mem_append.mp hmem with hmem | hmem
    · exact slash_of_component (by decide) hmem
    · rcases List.mem_cons.mp hmem with hmem | hmem
      · exact absurd hmem (by decide)
      · exact slash_of_component (by decide) hmem
  unfold configEntryName
  cases folder with
  | none => exact ⟨_, .file hstem, by simp⟩
  | some folder =>
      have hfolder := h folder rfl
      simp only
      rw [if_neg hfolder.2.1]
      exact ⟨_, .inside hfolder hstem, by simp⟩

/-! ## Names that are taken -/

/-- The number joins the stem. -/
theorem archiveCandidate_stem {stem : Text} (counter : Nat) :
    archiveCandidate (stem ++ ".conf".toList) counter =
      (stem ++ '-' :: decimal counter) ++ ".conf".toList := by
  have hlast : rpartition '.' (stem ++ '.' :: "conf".toList) = (stem, ['.'], "conf".toList) :=
    rpartition_last (by decide)
  have hconf : ".conf".toList = '.' :: "conf".toList := rfl
  unfold archiveCandidate
  rw [hconf, hlast]
  simp

theorem archiveCandidate_injective (preferred : Text) :
    Function.Injective (archiveCandidate preferred) := by
  intro i j hij
  have hnumber : decimal i = decimal j := by
    unfold archiveCandidate at hij
    simp only at hij
    split at hij
    · exact (List.cons.inj (List.append_cancel_left hij)).2
    · simp only [List.append_assoc, List.cons_append] at hij
      have hrest := (List.cons.inj (List.append_cancel_left hij)).2
      exact List.append_cancel_right hrest
  have hdigits : Nat.toDigits 10 i = Nat.toDigits 10 j := hnumber
  rw [← Nat.ofDigitChars_ten_toDigits (n := i), hdigits, Nat.ofDigitChars_ten_toDigits]

variable {fuel : Nat} {used : List Text} {preferred name : Text}

/-- The name that is found is free, and of the same shape. -/
theorem uniqueArchiveName_some (hpreferred : IsEntryName preferred)
    (h : uniqueArchiveName fuel used preferred = some name) : name ∉ used ∧ IsEntryName name := by
  unfold uniqueArchiveName at h
  split at h
  · obtain ⟨hfree, n, rfl⟩ := firstFree_some h
    obtain ⟨stem, hstem, rfl⟩ := hpreferred
    rw [archiveCandidate_stem] at hfree ⊢
    exact ⟨hfree, _, hstem.append (slash_of_decimal n), rfl⟩
  · next hfree =>
      cases h
      exact ⟨hfree, hpreferred⟩

/-- **The search ends**, at one name for any number of rounds that suffices. -/
theorem uniqueArchiveName_ends (used : List Text) (preferred : Text) :
    ∃ name, ∀ fuel, used.length < fuel → uniqueArchiveName fuel used preferred = some name := by
  have hends : (firstFree (archiveCandidate preferred) used (used.length + 1) 2).isSome = true :=
    isSome_firstFree (archiveCandidate_injective preferred) (Nat.lt_succ_self _)
  obtain ⟨found, hfound⟩ := Option.isSome_iff_exists.mp hends
  unfold uniqueArchiveName
  by_cases hused : preferred ∈ used
  · refine ⟨found, fun fuel hfuel => ?_⟩
    rw [if_pos hused]
    exact firstFree_mono hfound hfuel
  · exact ⟨preferred, fun _ _ => if_neg hused⟩

/-! ## Configurations that are ready -/

/-- The two columns of a node that a configuration cannot do without are texts. -/
def TextMetadata (node : Node) : Prop :=
  ∀ field ∈ [InterfaceField.publicKey, .endpoint], ∀ value ∈ node.interface field,
    ∃ text, value = .text text

theorem text_of_truthy {node : Node} {field : InterfaceField}
    (htext : ∀ value ∈ node.interface field, ∃ text, value = .text text)
    (h : (node.interface field).any (·.truthy) = true) : node.text field "" ≠ "" := by
  obtain ⟨value, hvalue, htruthy⟩ := (Option.any_eq_true _ _).mp h
  obtain ⟨text, rfl⟩ := htext value hvalue
  have hne : text ≠ "" := by simpa [InterfaceValue.truthy] using htruthy
  unfold Node.text
  rw [hvalue]
  simp [hne]

theorem getD_of_truthy {text : Option String} (h : truthy text = true) : text.getD "" ≠ "" := by
  obtain ⟨value, rfl, hne⟩ := truthy_iff.mp h
  exact hne

/-- A device that is ready on a node has a configuration there, and no empty
one. -/
theorem config_of_available {node : Node} {device : Device} {peer : Peer}
    (htext : TextMetadata node) (h : peerAvailable node device (some peer) = true)
    (pskKey : String) : ∃ config, buildAwgClientConfig device node pskKey = some config ∧
      config ≠ "" := by
  unfold peerAvailable nodeMetadataCached deviceCredentialsReady at h
  simp only [Bool.and_eq_true] at h
  obtain ⟨⟨⟨-, -⟩, hkey, hendpoint⟩, ⟨hprivate, -⟩, hip⟩ := h
  have hready : ¬(node.text .publicKey "" = "" ∨ node.text .endpoint "" = "" ∨
      device.privateKey.getD "" = "" ∨ device.vpnIp.getD "" = "") := by
    simp only [not_or]
    exact ⟨text_of_truthy (htext _ (by simp)) hkey, text_of_truthy (htext _ (by simp)) hendpoint,
      getD_of_truthy hprivate, getD_of_truthy hip⟩
  unfold buildAwgClientConfig awgClientConfig
  rw [if_neg hready]
  refine ⟨_, rfl, fun hempty => ?_⟩
  unfold buildClientConfig at hempty
  exact absurd (String.append_eq_empty_iff.mp hempty).2 (by decide)

/-! ## Writing -/

/-- The entries can all be written. -/
def Writable (entry : ConfigZipEntry) : Prop :=
  IsEntryName entry.name ∧ ∃ config,
    buildAwgClientConfig entry.device entry.node (entry.peer.pskKey.getD "") = some config ∧
      config ≠ ""

/-- The configuration of an entry. -/
def configOf (entry : ConfigZipEntry) : Option String :=
  buildAwgClientConfig entry.device entry.node (entry.peer.pskKey.getD "")

/-- **Every entry is written once**, under a name of its own. -/
theorem writeEntries_all (entries : List ConfigZipEntry) (hall : ∀ e ∈ entries, Writable e) :
    ∀ written : List (Text × String), (written.map (·.1)).Nodup →
      (∀ name ∈ written.map (·.1), IsEntryName name) →
      ∃ zip, (∀ fuel, written.length + entries.length ≤ fuel →
          writeEntries fuel written entries = some zip) ∧
        zip.map (some ·.2) = written.map (some ·.2) ++ entries.map configOf ∧
        (zip.map (·.1)).Nodup ∧ ∀ name ∈ zip.map (·.1), IsEntryName name := by
  induction entries with
  | nil =>
      intro written hdistinct hnames
      exact ⟨written, fun _ _ => rfl, by simp, hdistinct, hnames⟩
  | cons entry rest ih =>
      intro written hdistinct hnames
      obtain ⟨hentry, config, hconfig, hne⟩ := hall entry List.mem_cons_self
      obtain ⟨name, hname⟩ := uniqueArchiveName_ends (written.map (·.1)) entry.name
      have hfound := hname (written.length + 1) (by simp)
      obtain ⟨hfree, hshape⟩ := uniqueArchiveName_some hentry hfound
      obtain ⟨zip, hzip, hconfigs, hrest⟩ := ih (fun e he => hall e (List.mem_cons_of_mem _ he))
        (written ++ [(name, config)])
        (by
          rw [List.map_append, List.nodup_append]
          refine ⟨hdistinct, by simp, fun a ha b hb heq => ?_⟩
          obtain rfl : b = name := by simpa using hb
          exact hfree (heq ▸ ha))
        (by
          intro other hother
          rw [List.map_append] at hother
          rcases List.mem_append.mp hother with hother | hother
          · exact hnames other hother
          · obtain rfl : other = name := by simpa using hother
            exact hshape)
      refine ⟨zip, fun fuel hfuel => ?_, ?_, hrest⟩
      · rw [List.length_cons] at hfuel
        have hrounds : (written.map (·.1)).length < fuel := by
          rw [List.length_map]
          omega
        rw [writeEntries, hconfig]
        simp only
        rw [if_neg hne, hname fuel hrounds]
        refine hzip fuel ?_
        rw [List.length_append, List.length_singleton]
        omega
      · rw [hconfigs, List.map_append, List.append_assoc]
        show _ = _ ++ configOf entry :: rest.map configOf
        rw [configOf, hconfig]
        rfl

/-! ## The pairs that are ready -/

/-- The pairs of a device and a node, in the order of the lists, whose peer makes
the device available there. -/
def readyPairs (db : Db) (devices : List Device) (nodes : List Node) : List (Device × Node) :=
  (devices ×ˢ nodes).filter fun pair =>
    peerAvailable pair.2 pair.1 (peerOfPair db.peers pair.1.id pair.2.id)

/-- The configuration of a pair. -/
def pairConfig (db : Db) (pair : Device × Node) : Option String :=
  buildAwgClientConfig pair.1 pair.2
    (((peerOfPair db.peers pair.1.id pair.2.id).bind (·.pskKey)).getD "")

theorem peerOfPair_filter {rows : List Peer} {deviceIds : List DeviceId} {deviceId : DeviceId}
    (h : deviceId ∈ deviceIds) (nodeId : NodeId) :
    peerOfPair (rows.filter (·.deviceId ∈ deviceIds)) deviceId nodeId =
      peerOfPair rows deviceId nodeId := by
  unfold peerOfPair
  rw [← List.filter_reverse, List.find?_filter]
  refine List.find?_congr fun peer _ => ?_
  by_cases hpair : peer.deviceId = deviceId ∧ peer.nodeId = nodeId
  · simp [hpair, h]
  · simp [hpair]

theorem readyZipEntry_some {rows : List Peer} {folder : Option Text} {device : Device}
    {node : Node} {entry : ConfigZipEntry}
    (h : readyZipEntry rows folder device node = some entry) :
    ∃ peer, peerOfPair rows device.id node.id = some peer ∧
      peerAvailable node device (some peer) = true ∧
      entry = ⟨device, node, peer, configEntryName device node folder⟩ := by
  obtain ⟨peer, hpeer, hentry⟩ := Option.bind_eq_some_iff.mp h
  split at hentry
  · next havailable => exact ⟨peer, hpeer, havailable, (Option.some.inj hentry).symm⟩
  · cases hentry

/-- The entries of a device are those of the nodes it is ready on. -/
theorem configs_of_device {db : Db} {rows : List Peer} {folder : Option Text} {device : Device}
    (hrows : ∀ nodeId, peerOfPair rows device.id nodeId = peerOfPair db.peers device.id nodeId)
    (nodes : List Node) :
    (nodes.filterMap (readyZipEntry rows folder device)).map configOf =
      ((nodes.map fun node => (device, node)).filter fun pair =>
        peerAvailable pair.2 pair.1 (peerOfPair db.peers pair.1.id pair.2.id)).map
          (pairConfig db) := by
  induction nodes with
  | nil => rfl
  | cons node rest ih =>
      rw [List.map_cons]
      cases hpeer : peerOfPair db.peers device.id node.id with
      | none =>
          have hnone : readyZipEntry rows folder device node = none := by
            unfold readyZipEntry
            rw [hrows, hpeer]
            rfl
          rw [List.filterMap_cons_none hnone, List.filter_cons_of_neg, ih]
          simp [hpeer, peerAvailable]
      | some peer =>
          by_cases havailable : peerAvailable node device (some peer) = true
          · have hsome : readyZipEntry rows folder device node =
                some ⟨device, node, peer, configEntryName device node folder⟩ := by
              unfold readyZipEntry
              rw [hrows, hpeer]
              exact if_pos havailable
            rw [List.filterMap_cons_some hsome, List.filter_cons_of_pos (by rw [hpeer]; exact
              havailable), List.map_cons, List.map_cons, ih]
            congr 1
            unfold configOf pairConfig
            rw [hpeer]
            rfl
          · have hnone : readyZipEntry rows folder device node = none := by
              unfold readyZipEntry
              rw [hrows, hpeer]
              exact if_neg havailable
            rw [List.filterMap_cons_none hnone, List.filter_cons_of_neg (by rw [hpeer]; exact
              havailable), ih]

theorem readyZipEntries_configs (db : Db) (devices : List Device) (nodes : List Node)
    (folderPerDevice : Bool) : (readyZipEntries db devices nodes folderPerDevice).map configOf =
      (readyPairs db devices nodes).map (pairConfig db) := by
  have hproduct : devices ×ˢ nodes = devices.flatMap fun device =>
      nodes.map fun node => (device, node) := rfl
  unfold readyZipEntries readyPairs
  rw [hproduct, List.filter_flatMap, List.map_flatMap, List.map_flatMap]
  refine List.flatMap_congr fun device hdevice => ?_
  exact configs_of_device (fun nodeId => peerOfPair_filter (List.mem_map_of_mem hdevice) nodeId)
    nodes

theorem writable_of_ready {db : Db} {devices : List Device} {nodes : List Node}
    (htext : ∀ node ∈ nodes, TextMetadata node) {folderPerDevice : Bool} {entry : ConfigZipEntry}
    (h : entry ∈ readyZipEntries db devices nodes folderPerDevice) : Writable entry := by
  obtain ⟨device, -, hentry⟩ := List.mem_flatMap.mp h
  obtain ⟨node, hnode, hready⟩ := List.mem_filterMap.mp hentry
  obtain ⟨peer, -, havailable, rfl⟩ := readyZipEntry_some hready
  refine ⟨isEntryName_planned device node fun folder hfolder => ?_,
    config_of_available (htext node hnode) havailable _⟩
  split at hfolder
  · cases hfolder
    exact isPart_folder device
  · cases hfolder

/-- **Archives of configurations.** Whatever the names are, the archive holds
one entry for each ready pair, under distinct names that lead nowhere else, and
every search for a name ends. -/
theorem config_archive (db : Db) (devices : List Device) (nodes : List Node)
    (folderPerDevice : Bool) (htext : ∀ node ∈ nodes, TextMetadata node) :
    ∃ zip, (∀ fuel, (readyPairs db devices nodes).length ≤ fuel →
        buildConfigsZip fuel (readyZipEntries db devices nodes folderPerDevice) = some zip) ∧
      zip.map (some ·.2) = (readyPairs db devices nodes).map (pairConfig db) ∧
      (zip.map (·.1)).Nodup ∧ ∀ name ∈ zip.map (·.1), SafeName name := by
  have hconfigs := readyZipEntries_configs db devices nodes folderPerDevice
  obtain ⟨zip, hzip, hall, hdistinct, hnames⟩ := writeEntries_all _
    (fun _ he => writable_of_ready htext he) [] List.nodup_nil fun _ h => nomatch h
  refine ⟨zip, fun fuel hfuel => hzip fuel ?_, ?_, hdistinct, fun name h => (hnames name h).safe⟩
  · have hlength := congrArg List.length hconfigs
    rw [List.length_map, List.length_map] at hlength
    rw [List.length_nil, Nat.zero_add, hlength]
    exact hfuel
  · rw [hall, hconfigs]
    rfl

/-- Two devices whose names are made of separators, on a node without a name. -/
def dottedNames : Db where
  nodes := [{
    id := 0, name := "", url := "", token := ""
    interface := fun
      | .publicKey => some (.text "node-key")
      | .endpoint => some (.text "host:51820")
      | _ => none }]
  devices := [
    { id := 3, userId := 1, name := "../..", publicKey := some "pub", privateKey := some "priv",
      vpnIp := some "10.8.0.2", createdAt := 0 },
    { id := 4, userId := 1, name := "._.", publicKey := some "pub2", privateKey := some "priv2",
      vpnIp := some "10.8.0.3", createdAt := 0 }]
  peers := [
    { id := 5, nodeId := 0, userId := 1, deviceId := 3, status := .active, pskKey := none },
    { id := 6, nodeId := 0, userId := 1, deviceId := 4, status := .active, pskKey := none }]

theorem config_archive_dotted_names :
    (readyPairs dottedNames dottedNames.devices dottedNames.nodes).length = 2 ∧
    (buildConfigsZip 2 (readyZipEntries dottedNames dottedNames.devices dottedNames.nodes
        false)).map (List.map (·.1)) =
      some ["device-node.conf".toList, "device-node-2.conf".toList] ∧
    ∃ zip, buildConfigsZip 2 (readyZipEntries dottedNames dottedNames.devices dottedNames.nodes
        false) = some zip ∧ (zip.map (·.1)).Nodup ∧ ∀ name ∈ zip.map (·.1), SafeName name := by
  have htext : ∀ node ∈ dottedNames.nodes, TextMetadata node := by
    intro node hnode field hfield value hvalue
    obtain rfl := List.mem_singleton.mp hnode
    rcases List.mem_pair.mp hfield with rfl | rfl
    · exact ⟨_, (Option.some.inj hvalue).symm⟩
    · exact ⟨_, (Option.some.inj hvalue).symm⟩
  obtain ⟨zip, hzip, -, hdistinct, hsafe⟩ :=
    config_archive dottedNames dottedNames.devices dottedNames.nodes false htext
  exact ⟨by decide, by decide, zip, hzip 2 (by decide), hdistinct, hsafe⟩

end VpnPanel.Theorems
