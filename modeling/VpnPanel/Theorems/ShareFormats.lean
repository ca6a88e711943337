import VpnPanel.Backend.Amnezia

/-!
# The share formats are read back

The packets are read in any order, put in the order of their indices and joined.
They are written at all where the numbers of their headers fit, which leaves 255
of them, and where the port of the endpoint is read.
-/

namespace VpnPanel.Theorems

open VpnPanel.Lib VpnPanel.Backend

/-! ## Packets in any order -/

section Packets

variable {pieces : List (List Byte)} {packets : List Text}

theorem headerFits_of_mem (hcount : pieces.length < 256)
    (hsize : ∀ chunk ∈ pieces, chunk.length ≤ amneziaQrChunkSize) {piece : List Byte × Nat}
    (h : piece ∈ pieces.zipIdx) : HeaderFits pieces.length piece.2 piece.1 := by
  obtain ⟨chunk, idx⟩ := piece
  have hidx : idx < pieces.length := List.snd_lt_of_mem_zipIdx h
  have hchunk : chunk.length ≤ 850 := hsize chunk (List.fst_mem_of_mem_zipIdx h)
  exact ⟨by omega, by omega, Nat.lt_of_le_of_lt hchunk (by decide)⟩

/-- A single packet tells that all of them can be counted. -/
theorem isSome_qrPackets (hsize : ∀ chunk ∈ pieces, chunk.length ≤ amneziaQrChunkSize)
    (hne : pieces ≠ []) : (qrPackets pieces).isSome = true ↔ pieces.length < 256 := by
  constructor
  · intro h
    obtain ⟨chunk, rest, rfl⟩ := List.exists_cons_of_ne_nil hne
    have hfirst := isSome_of_mapM h (chunk, 0) (by simp)
    rw [Option.isSome_map] at hfirst
    obtain ⟨packet, hpacket⟩ := Option.isSome_iff_exists.mp hfirst
    exact (qrPacket_eq_some.mp hpacket).1.total
  · intro hcount
    unfold qrPackets
    rw [mapM_eq_filterMap]
    · rfl
    · intro piece hpiece
      rw [Option.isSome_map]
      exact Option.isSome_of_eq_some
        (qrPacket_eq_some.mpr ⟨headerFits_of_mem hcount hsize hpiece, rfl⟩)

/-- What is written is read as it was numbered. -/
theorem read_packets (h : qrPackets pieces = some packets) :
    packets.filterMap readQrPacket = pieces.zipIdx.map (packetOf pieces.length) ∧
      (∀ t ∈ packets, (readQrPacket t).isSome = true) ∧ packets.length = pieces.length := by
  have hwritten := isSome_of_mapM (Option.isSome_of_eq_some h)
  have hread : ∀ piece ∈ pieces.zipIdx, ∃ t,
      (qrPacket pieces.length piece.2 piece.1).map base64Text = some t ∧
        readQrPacket t = some (packetOf pieces.length piece) := by
    intro piece hpiece
    obtain ⟨t, ht⟩ := Option.isSome_iff_exists.mp (hwritten piece hpiece)
    obtain ⟨packet, hpacket, rfl⟩ := Option.map_eq_some_iff.mp ht
    obtain ⟨hfits, rfl⟩ := qrPacket_eq_some.mp hpacket
    exact ⟨_, ht, readQrPacket_eq hfits⟩
  unfold qrPackets at h
  rw [mapM_eq_filterMap hwritten, Option.some.injEq] at h
  subst h
  refine ⟨?_, fun t ht => ?_, ?_⟩
  · rw [List.filterMap_filterMap, ← List.filterMap_eq_map]
    refine List.filterMap_congr fun piece hpiece => ?_
    obtain ⟨t, ht, hpacket⟩ := hread piece hpiece
    show ((qrPacket pieces.length piece.2 piece.1).map base64Text).bind readQrPacket = _
    rw [ht]
    exact hpacket
  · obtain ⟨piece, hpiece, heq⟩ := List.mem_filterMap.mp ht
    obtain ⟨t', ht', hpacket⟩ := hread piece hpiece
    obtain rfl := Option.some.inj (ht'.symm.trans heq)
    exact Option.isSome_of_eq_some hpacket
  · rw [List.length_filterMap_eq_countP, List.countP_eq_length.mpr hwritten, List.length_zipIdx]

/-- **The packets can come in any order.** -/
theorem joinPackets_perm (h : qrPackets pieces = some packets) {order : List Text}
    (hperm : order.Perm packets) : ∃ read, order.mapM readQrPacket = some read ∧
      (∀ p ∈ read, p.magic = 1984 ∧ p.total = packets.length ∧ p.length = p.data.length) ∧
      (read.map QrPacket.index).Nodup ∧ joinPackets read = pieces.flatten := by
  obtain ⟨hread, hsome, hlength⟩ := read_packets h
  have hreadPerm := hperm.filterMap readQrPacket
  rw [hread] at hreadPerm
  have hindices : (pieces.zipIdx.map (packetOf pieces.length)).map QrPacket.index =
      List.range' 0 pieces.length := by
    rw [List.map_map]
    exact List.zipIdx_map_snd 0 pieces
  have hordered : (pieces.zipIdx.map (packetOf pieces.length)).Pairwise
      fun x y => x.index < y.index := by
    rw [← List.pairwise_map, hindices]
    exact List.pairwise_lt_range'
  refine ⟨order.filterMap readQrPacket, mapM_eq_filterMap fun t ht => hsome t (hperm.subset ht),
    fun p hp => ?_, ?_, ?_⟩
  · obtain ⟨piece, -, rfl⟩ := List.mem_map.mp (hreadPerm.subset hp)
    exact ⟨rfl, hlength.symm, rfl⟩
  · rw [(hreadPerm.map QrPacket.index).nodup_iff, hindices]
    exact List.nodup_range'
  · unfold joinPackets
    rw [sort_of_perm QrPacket.index hordered hreadPerm, List.flatMap_map]
    show pieces.zipIdx.flatMap Prod.fst = _
    rw [List.flatMap_def]
    exact congrArg List.flatten (List.zipIdx_map_fst 0 pieces)

end Packets

/-! ## Both formats -/

section Formats

variable {numerals : Numerals} {compress : List Byte → List Byte} {config : AWGClientConfig}

/-- Both formats are written, and what is read from them is the JSON behind its
length. -/
structure SharedBack (numerals : Numerals) (compress : List Byte → List Byte)
    (config : AWGClientConfig) : Prop where
  qr : ∃ json packets, buildAmneziaConfigJson numerals config true = some json ∧
    buildAmneziaQrChunks numerals compress config = some packets ∧
    ∀ order : List Text, order.Perm packets → ∃ read, order.mapM readQrPacket = some read ∧
      (∀ p ∈ read, p.magic = 1984 ∧ p.total = packets.length ∧ p.length = p.data.length) ∧
      (read.map QrPacket.index).Nodup ∧
      Pack.number ((joinPackets read).take 4) = json.length ∧
      (joinPackets read).drop 4 = compress json
  uri : ∃ json data, buildAmneziaConfigJson numerals config false = some json ∧
    buildAmneziaVpnUri numerals compress config = some ("vpn://".toList ++ data) ∧
    ∃ bytes, base64Bytes data = some bytes ∧ Pack.number (bytes.take 4) = json.length ∧
      ∀ decompress : List Byte → Option (List Byte),
        (∀ b, decompress (compress b) = some b) → decompress (bytes.drop 4) = some json

/-- The port is no number, or one that `int` reads, and the lengths fit. -/
structure Shareable (numerals : Numerals) (compress : List Byte → List Byte)
    (config : AWGClientConfig) : Prop where
  port : numerals.allDigits (hostAndPort config).2 = true →
    (hostAndPort config).2.length ≤ 4300 ∧ ∀ c ∈ (hostAndPort config).2, numerals.decimal? c ≠ none
  sizes : ∀ port, numerals.port? (hostAndPort config).2 = some port →
    (∀ compact, (amneziaBytes config port compact).length < 256 ^ 4) ∧
      4 + (compress (amneziaBytes config port true)).length ≤ 255 * amneziaQrChunkSize

theorem isSome_int? {t : Text} : (numerals.int? t).isSome = true ↔
    t.length ≤ 4300 ∧ ∀ c ∈ t, numerals.decimal? c ≠ none := by
  unfold Numerals.int?
  split
  · next hlong =>
    refine ⟨fun h => absurd h Bool.false_ne_true, fun h => absurd hlong (Nat.not_lt.mpr h.1)⟩
  · next hshort =>
    rw [Option.isSome_map]
    constructor
    · intro h
      exact ⟨Nat.le_of_not_lt hshort, fun c hc =>
        Option.isSome_iff_ne_none.mp (isSome_of_mapM h c hc)⟩
    · intro h
      rw [mapM_eq_filterMap fun c hc => Option.isSome_iff_ne_none.mpr (h.2 c hc)]
      rfl

theorem isSome_port? {t : Text} : (numerals.port? t).isSome = true ↔
    (numerals.allDigits t = true → t.length ≤ 4300 ∧ ∀ c ∈ t, numerals.decimal? c ≠ none) := by
  unfold Numerals.port?
  split
  · next hdigits => simp only [hdigits, true_implies, isSome_int?]
  · next hdigits => simp only [hdigits, Bool.false_eq_true, false_implies, Option.isSome_some]

theorem compressedJson_eq_some {json data : List Byte} : compressedJson compress json = some data ↔
    json.length < 256 ^ 4 ∧ Pack.bigEndian 4 json.length ++ compress json = data := by
  unfold compressedJson
  simp only [Option.bind_eq_bind, Option.bind_eq_some_iff, Pack.unsigned_eq_some]
  constructor
  · rintro ⟨_, ⟨hlength, rfl⟩, hdata⟩
    exact ⟨hlength, Option.some.inj hdata⟩
  · rintro ⟨hlength, rfl⟩
    exact ⟨_, ⟨hlength, rfl⟩, rfl⟩

theorem chunks_ne_nil {data : List Byte} (h : 4 ≤ data.length) :
    chunks amneziaQrChunkSize data ≠ [] := by
  rw [← List.length_pos_iff, length_chunks]
  unfold amneziaQrChunkSize
  omega

theorem length_chunks_lt {data : List Byte} :
    (chunks amneziaQrChunkSize data).length < 256 ↔ data.length ≤ 255 * amneziaQrChunkSize := by
  rw [length_chunks]
  unfold amneziaQrChunkSize
  omega

/-- The packets of the data, once it is there. -/
theorem isSome_qrPackets_chunks {data : List Byte} (h : 4 ≤ data.length) :
    (qrPackets (chunks amneziaQrChunkSize data)).isSome = true ↔
      data.length ≤ 255 * amneziaQrChunkSize :=
  (isSome_qrPackets (fun _ => length_of_mem_chunks) (chunks_ne_nil h)).trans length_chunks_lt

theorem length_behind (json : List Byte) :
    (Pack.bigEndian 4 json.length ++ compress json).length = 4 + (compress json).length := by
  rw [List.length_append, Pack.length_bigEndian]

theorem take_behind {json rest : List Byte} (h : json.length < 256 ^ 4) :
    Pack.number ((Pack.bigEndian 4 json.length ++ rest).take 4) = json.length := by
  rw [List.take_left' (Pack.length_bigEndian 4 _)]
  exact Pack.number_bigEndian h

/-- **When the share formats are read back.** -/
theorem shared_back_iff (numerals : Numerals) (compress : List Byte → List Byte)
    (config : AWGClientConfig) :
    SharedBack numerals compress config ↔ Shareable numerals compress config := by
  constructor
  · rintro ⟨⟨json, packets, hjson, hpackets, -⟩, fullJson, data, hfull, huri, -⟩
    obtain ⟨port, hport, rfl⟩ := Option.map_eq_some_iff.mp hjson
    refine ⟨isSome_port?.mp (Option.isSome_of_eq_some hport), fun port' hport' => ?_⟩
    obtain rfl := Option.some.inj (hport.symm.trans hport')
    unfold buildAmneziaQrChunks at hpackets
    unfold buildAmneziaVpnUri at huri
    simp only [buildAmneziaConfigJson, hport, Option.map_some, Option.bind_eq_bind,
      Option.bind_some, Option.bind_eq_some_iff, compressedJson_eq_some] at hpackets huri
    obtain ⟨_, ⟨hcompact, rfl⟩, hpackets⟩ := hpackets
    obtain ⟨_, ⟨hindented, rfl⟩, -⟩ := huri
    refine ⟨fun compact => ?_, ?_⟩
    · cases compact with
      | true => exact hcompact
      | false => exact hindented
    · have hfits := isSome_qrPackets_chunks (by rw [length_behind]; omega)
        |>.mp (Option.isSome_of_eq_some hpackets)
      rwa [length_behind] at hfits
  · rintro ⟨hreads, hsizes⟩
    obtain ⟨port, hport⟩ := Option.isSome_iff_exists.mp (isSome_port?.mpr hreads)
    obtain ⟨hlengths, hcompressed⟩ := hsizes port hport
    have hjson : ∀ compact, buildAmneziaConfigJson numerals config compact =
        some (amneziaBytes config port compact) := fun compact => by
      unfold buildAmneziaConfigJson
      rw [hport]
      rfl
    have hdata : ∀ compact, compressedJson compress (amneziaBytes config port compact) =
        some (Pack.bigEndian 4 (amneziaBytes config port compact).length ++
          compress (amneziaBytes config port compact)) := fun compact =>
      compressedJson_eq_some.mpr ⟨hlengths compact, rfl⟩
    refine ⟨?_, ?_⟩
    · obtain ⟨packets, hpackets⟩ := Option.isSome_iff_exists.mp
        ((isSome_qrPackets_chunks (by rw [length_behind]; omega)).mpr
          ((length_behind (amneziaBytes config port true)).trans_le hcompressed))
      refine ⟨_, packets, hjson true, ?_, fun order hperm => ?_⟩
      · unfold buildAmneziaQrChunks
        rw [hjson, Option.bind_eq_bind, Option.bind_some, hdata, Option.bind_some]
        exact hpackets
      · obtain ⟨read, hread, hheaders, hindices, hjoined⟩ := joinPackets_perm hpackets hperm
        rw [flatten_chunks (by decide)] at hjoined
        refine ⟨read, hread, hheaders, hindices, ?_, ?_⟩
        · rw [hjoined]
          exact take_behind (hlengths true)
        · rw [hjoined]
          exact List.drop_left' (Pack.length_bigEndian 4 _)
    · refine ⟨_, base64Text (Pack.bigEndian 4 (amneziaBytes config port false).length ++
        compress (amneziaBytes config port false)), hjson false, ?_, _, base64Bytes_text _,
        take_behind (hlengths false), ?_⟩
      · unfold buildAmneziaVpnUri
        rw [hjson, Option.bind_eq_bind, Option.bind_some, hdata]
        rfl
      · intro decompress hinverse
        rw [List.drop_left' (Pack.length_bigEndian 4 _)]
        exact hinverse _

end Formats

section Examples

/-- The digits up to U+00FF: `int` does not read the raised ones. -/
def latin1 : Numerals where
  isDigit c := c.isDigit || c = '²' || c = '³' || c = '¹'
  decimal? c := if c.isDigit then some (c.toNat - 48) else none

def endpointConfig (nodeEndpoint i1 : String) : AWGClientConfig where
  privateKey := "cHJpdmF0ZQ=="
  vpnIp := "10.8.0.2"
  nodePublicKey := "bm9kZQ=="
  nodeEndpoint := nodeEndpoint
  i1 := i1

/-- A parameter of many bits. -/
def bitsText {n : Nat} (bits : Fin n → Bool) : Text :=
  List.ofFn fun i => if bits i then 'a' else 'b'

theorem bitsText_injective {n : Nat} : Function.Injective (bitsText (n := n)) := by
  intro x y hxy
  funext i
  have hi := congrFun (List.ofFn_injective hxy) i
  cases hx : x i with
  | true =>
      cases hy : y i with
      | true => rfl
      | false => simp [hx, hy] at hi
  | false =>
      cases hy : y i with
      | true => simp [hx, hy] at hi
      | false => rfl

theorem escape_bitsText {n : Nat} (bits : Fin n → Bool) :
    (bitsText bits).flatMap JsonValue.escape = bitsText bits := by
  have hletters : ∀ c ∈ bitsText bits, c = 'a' ∨ c = 'b' := by
    intro c hc
    obtain ⟨i, rfl⟩ := (List.mem_ofFn' _ _).mp hc
    dsimp only
    split
    · exact .inl rfl
    · exact .inr rfl
  have hself : ∀ c ∈ bitsText bits, JsonValue.escape c = [c] := by
    intro c hc
    rcases hletters c hc with rfl | rfl
    · rfl
    · rfl
  rw [List.flatMap_congr hself]
  exact List.flatMap_singleton' _

/-- The parameter is in the JSON, behind what does not depend on it. -/
theorem carries_i1 {ι : Type} (endpoint : String) (port : Nat) (i1 : ι → String) :
    JsonValue.Carries (fun i => JsonValue.dumps JsonValue.compact
        (amneziaConfig (endpointConfig endpoint (i1 i)) port true))
      fun i => (i1 i).toList.flatMap JsonValue.escape := by
  let fields := fun i => awgContainer (endpointConfig endpoint (i1 i)) port true
  have hawg : JsonValue.Carries
      (fun i => JsonValue.dumpsAt JsonValue.compact (.object (fields i)) 3)
      fun i => (i1 i).toList.flatMap JsonValue.escape := by
    refine JsonValue.carries_object [textField "H1" "1", textField "H2" "2", textField "H3" "3",
      textField "H4" "4"] "I1".toList (fun i => (fields i).drop 5) (fun i => ?_)
      (JsonValue.carries_text fun i => (i1 i).toList)
    show List.Pairwise (· ≤ ·) (["H1", "H2", "H3", "H4", "I1", "I2", "I3", "I4", "I5", "Jc", "Jmax",
      "Jmin", "S1", "S2", "S3", "S4", "last_config", "port", "protocol_version", "subnet_address",
      "transport_proto"].map String.toList)
    decide +kernel
  have hcontainer : JsonValue.Carries (fun i => JsonValue.dumpsAt JsonValue.compact (.object
      [("awg".toList, .object (fields i)), textField "container" "amnezia-awg2"]) 2)
      fun i => (i1 i).toList.flatMap JsonValue.escape := by
    refine JsonValue.carries_object [] "awg".toList
      (fun _ => [textField "container" "amnezia-awg2"]) (fun i => ?_) hawg
    show List.Pairwise (· ≤ ·) (["awg", "container"].map String.toList)
    decide +kernel
  refine JsonValue.carries_object [] "containers".toList
    (fun i => [textField "defaultContainer" "amnezia-awg2", textField "description" "AmneziaVPN",
      textField "dns1" "1.1.1.1", textField "dns2" "1.0.0.1",
      ("hostName".toList, .text (hostAndPort (endpointConfig endpoint (i1 i))).1)])
    (fun i => ?_) (JsonValue.carries_array (fun _ => []) hcontainer)
  show List.Pairwise (· ≤ ·) (["containers", "defaultContainer", "description", "dns1", "dns2",
    "hostName"].map String.toList)
  decide +kernel

/-- ASCII bytes are decoded. -/
theorem ascii_read {t : Text} (h : JsonValue.IsAscii t) :
    (ascii t).map (fun byte => Char.ofNat byte.val) = t := by
  unfold ascii
  rw [List.map_map]
  refine (List.map_congr_left fun c hc => ?_).trans (List.map_id _)
  have hbyte : c.toNat % 256 = c.toNat := Nat.mod_eq_of_lt ((h c hc).trans (by decide))
  show Char.ofNat (c.toNat % 256) = c
  rw [hbyte, Char.ofNat_toNat]

theorem amneziaBytes_injective (endpoint : String) (port : Nat) {n : Nat} :
    Function.Injective fun bits : Fin n → Bool =>
      amneziaBytes (endpointConfig endpoint (String.ofList (bitsText bits))) port true := by
  have hcarried : (fun bits : Fin n → Bool =>
      (String.ofList (bitsText bits)).toList.flatMap JsonValue.escape) = bitsText := by
    funext bits
    rw [String.toList_ofList, escape_bitsText]
  have hcarries := carries_i1 endpoint port fun bits : Fin n → Bool => String.ofList (bitsText bits)
  rw [hcarried] at hcarries
  have hlength : ∀ bits : Fin n → Bool, (bitsText bits).length = n := fun _ => List.length_ofFn
  have hcompact : JsonValue.compact.Ascii := ⟨by simp [JsonValue.IsAscii, JsonValue.compact],
    by simp [JsonValue.IsAscii, JsonValue.compact]⟩
  have hread : ∀ bits : Fin n → Bool, JsonValue.IsAscii (JsonValue.dumps JsonValue.compact
      (amneziaConfig (endpointConfig endpoint (String.ofList (bitsText bits))) port true)) :=
    fun _ => JsonValue.dumpsAt_ascii hcompact _ _
  intro x y hxy
  apply hcarries.injective hlength bitsText_injective
  exact (ascii_read (hread x)).symm.trans
    ((congrArg (List.map fun byte => Char.ofNat byte.val) hxy).trans (ascii_read (hread y)))

theorem endpoint_port (i1 : String) :
    latin1.port? (hostAndPort (endpointConfig "203.0.113.1:51820" i1)).2 = some 51820 := by
  have hsame : hostAndPort (endpointConfig "203.0.113.1:51820" i1) =
      hostAndPort (endpointConfig "203.0.113.1:51820" "") := by
    simp only [hostAndPort, endpointConfig]
  rw [hsame]
  decide +kernel

/-- The port of one endpoint is no number for `int`, and whatever the compression,
a long parameter makes more packets than a byte can count. -/
theorem share_formats_fail :
    (¬∃ compress, SharedBack latin1 compress (endpointConfig "203.0.113.1:²" "")) ∧
      ¬∃ compress : List Byte → List Byte, Function.Injective compress ∧
        ∀ i1, SharedBack latin1 compress (endpointConfig "203.0.113.1:51820" i1) := by
  constructor
  · rintro ⟨compress, hshared⟩
    have hport := ((shared_back_iff latin1 compress _).mp hshared).port (by decide +kernel)
    exact hport.2 '²' (by decide +kernel) rfl
  · rintro ⟨compress, hlossless, hshared⟩
    have hpositive : 0 < 255 * amneziaQrChunkSize := by decide
    obtain ⟨bits, hlong⟩ := exists_long_bits hpositive
      (hlossless.comp (amneziaBytes_injective "203.0.113.1:51820" 51820))
    have hsizes := ((shared_back_iff latin1 compress _).mp
      (hshared (String.ofList (bitsText bits)))).sizes 51820 (endpoint_port _)
    dsimp only [Function.comp_apply] at hlong
    omega

end Examples

end VpnPanel.Theorems
