import VpnPanel.Backend.NodeInterface
import VpnPanel.Backend.ProxyLinks

/-!
# Links read by a client

What a Telegram client reads off a link: the server, the port, and behind `ee`
the sixteen bytes of the key and the domain it pretends to talk to. A secret of
32 digits that happens to begin with `dd` loses these two digits on the way.
-/

namespace VpnPanel.Theorems

open VpnPanel.Lib VpnPanel.Lib.Text VpnPanel.Backend

structure ProxyEndpoint where
  server : Text
  port : Nat
  key : List UInt8
  domain : Text
  deriving DecidableEq, Repr

/-- Key and domain of a link secret. -/
def readLinkSecret : Text → Option (List UInt8 × Text)
  | 'e' :: 'e' :: digits => do
      let bytes ← Hex.decode Hex.lower digits
      if bytes.length < 16 then none
      else return (bytes.take 16, ← Percent.ofUtf8? (bytes.drop 16))
  | _ => none

def fieldValue (fields : List Percent.Field) (name : String) : Option Text :=
  (fields.find? (·.1 = name.toList)).map (·.2)

def readLink (url : Text) : Option ProxyEndpoint := do
  let (_, query) ← Text.partition ['?'] url
  let fields ← Percent.readQuery query
  let (key, domain) ← readLinkSecret (← fieldValue fields "secret")
  return {
    server := ← fieldValue fields "server"
    port := ← readNumber (← fieldValue fields "port")
    key
    domain }

/-- The key a secret stands for: its 32 digits, a leading `dd` apart. -/
def secretKey (secret : Text) : Option (List UInt8) :=
  Hex.decode Hex.lower (if secret.length = 34 then secret.drop 2 else secret)

/-- 32 digits that begin like a prefixed secret. -/
def Shortened (secret : Text) : Prop := secret.length = 32 ∧ ['d', 'd'] <+: secret

/-! ## The secret -/

variable {secret host domain : Text} {key : List UInt8}

/-- A valid secret is the text of its key, with `dd` before it or not. -/
theorem secretKey_of_valid (h : ValidSecret secret) : ∃ key, key.length = 16 ∧
    secretKey secret = some key ∧
      (secret = Hex.encode Hex.lower key ∨ secret = 'd' :: 'd' :: Hex.encode Hex.lower key) := by
  rcases h with h | h
  · obtain ⟨hlen, hdigits⟩ := isNormalSecret_iff.mp h
    obtain ⟨key, hkey, rfl⟩ := Hex.exists_encode (n := 16) hlen hdigits
    refine ⟨key, hkey, ?_, .inl rfl⟩
    unfold secretKey
    rw [hlen, if_neg (by decide), Hex.decode_encode]
  · obtain ⟨base, rfl, hbase⟩ := isDdSecret_iff.mp h
    obtain ⟨hlen, hdigits⟩ := isNormalSecret_iff.mp hbase
    obtain ⟨key, hkey, rfl⟩ := Hex.exists_encode (n := 16) hlen hdigits
    refine ⟨key, hkey, ?_, .inr rfl⟩
    unfold secretKey
    rw [if_pos (by simp [hlen])]
    exact Hex.decode_encode key

/-- The digits of a link are those of the key, or lack their first two. -/
theorem baseSecret_of_valid (h : ValidSecret secret) (hkey : secretKey secret = some key) :
    (Shortened secret → baseSecret secret = Hex.encode Hex.lower key.tail) ∧
      (¬Shortened secret → baseSecret secret = Hex.encode Hex.lower key) := by
  obtain ⟨key', hlen, hkey', hform⟩ := secretKey_of_valid h
  rw [hkey] at hkey'
  cases hkey'
  have hdigits : (Hex.encode Hex.lower key).length = 32 := by rw [Hex.length_encode, hlen]
  rcases hform with rfl | rfl
  · refine ⟨fun hshort => ?_, fun hwhole => ?_⟩
    · obtain ⟨b, rest, rfl⟩ := List.exists_cons_of_length_pos (by omega : 0 < key.length)
      exact if_pos (List.isPrefixOf_iff_prefix.mpr hshort.2)
    · exact if_neg fun hdd => hwhole ⟨hdigits, List.isPrefixOf_iff_prefix.mp hdd⟩
  · refine ⟨fun hshort => ?_, fun _ => if_pos rfl⟩
    have hlong := hshort.1
    rw [List.length_cons, List.length_cons, hdigits] at hlong
    cases hlong

/-- A generated secret without the prefix is shortened for one first byte. -/
theorem shortened_generate {drawn : List UInt8} (h : drawn.length = 16) :
    Shortened (generateProxySecret drawn false) ↔ drawn.head? = some 0xdd := by
  obtain ⟨b, rest, rfl⟩ := List.exists_cons_of_length_pos (by omega : 0 < drawn.length)
  have hdd : ['d', 'd'] = Hex.pair Hex.lower 0xdd := by decide
  have hdigits : (Hex.encode Hex.lower (b :: rest)).length = 32 := by rw [Hex.length_encode, h]
  constructor
  · rintro ⟨-, more, hmore⟩
    -- the first two digits are read as one byte
    have hread : Hex.decode Hex.lower (generateProxySecret (b :: rest) false) = _ :=
      Hex.decode_encode (b :: rest)
    rw [← hmore, hdd, Hex.decode_pair] at hread
    obtain ⟨tail, -, heq⟩ := Option.map_eq_some_iff.mp hread
    exact congrArg some (List.cons.inj heq).1.symm
  · intro hhead
    cases hhead
    exact ⟨hdigits, Hex.encode Hex.lower rest, by rw [hdd]; rfl⟩

theorem readLinkSecret_encode (bytes : List UInt8) :
    readLinkSecret ('e' :: 'e' :: Hex.encode Hex.lower bytes) =
      if bytes.length < 16 then none
      else (Percent.ofUtf8? (bytes.drop 16)).map (bytes.take 16, ·) := by
  show (Hex.decode Hex.lower _ >>= _) = _
  rw [Hex.decode_encode]
  show (if bytes.length < 16 then none else _) = _
  split
  · rfl
  · cases Percent.ofUtf8? (bytes.drop 16) <;> rfl

/-- A link secret of so many bytes before the domain. -/
theorem linkSecret_eq (bytes : List UInt8) : ['e', 'e'] ++ Hex.encode Hex.lower bytes ++
    Hex.encode Hex.lower (Percent.utf8 domain) =
      'e' :: 'e' :: Hex.encode Hex.lower (bytes ++ Percent.utf8 domain) := by
  have hbytes : Hex.encode Hex.lower (bytes ++ Percent.utf8 domain) =
      Hex.encode Hex.lower bytes ++ Hex.encode Hex.lower (Percent.utf8 domain) :=
    List.flatMap_append
  rw [hbytes]
  rfl

theorem readLinkSecret_whole (hkey : key.length = 16) :
    readLinkSecret (['e', 'e'] ++ Hex.encode Hex.lower key ++
      Hex.encode Hex.lower (Percent.utf8 domain)) = some (key, domain) := by
  have hlen : 16 ≤ (key ++ Percent.utf8 domain).length := by
    rw [List.length_append]
    omega
  have htake : (key ++ Percent.utf8 domain).take 16 = key := by rw [← hkey, List.take_left]
  have hdrop : (key ++ Percent.utf8 domain).drop 16 = Percent.utf8 domain := by
    rw [← hkey, List.drop_left]
  rw [linkSecret_eq, readLinkSecret_encode, if_neg (Nat.not_lt.mpr hlen), htake, hdrop,
    Percent.ofUtf8?_utf8]
  rfl

/-- Fifteen bytes take one byte of the domain into the key. -/
theorem readLinkSecret_short {bytes read : List UInt8} (hlen : bytes.length = 15) :
    readLinkSecret (['e', 'e'] ++ Hex.encode Hex.lower bytes ++
      Hex.encode Hex.lower (Percent.utf8 domain)) ≠ some (read, domain) := by
  rw [linkSecret_eq, readLinkSecret_encode]
  intro h
  split at h
  · cases h
  · next hlong =>
      obtain ⟨domain', hdomain, heq⟩ := Option.map_eq_some_iff.mp h
      cases heq
      -- the domain that is read has one byte less than the one that was written
      have hbytes := congrArg List.length (Percent.utf8_of_ofUtf8? hdomain)
      rw [List.length_drop, List.length_append] at hbytes
      rw [List.length_append] at hlong
      omega

/-! ## The link -/

theorem readQuery_linkQuery (server : Text) (port : Int) (secret tlsDomain : Text) :
    Percent.readQuery (linkQuery server port secret tlsDomain) =
      some [("server".toList, server), ("port".toList, decimal port), ("secret".toList,
        ['e', 'e'] ++ baseSecret secret ++ Hex.encode Hex.lower (Percent.utf8 tlsDomain))] :=
  Percent.readQuery_urlencode (List.cons_ne_nil _ _)

/-- What is read off either link of a query. -/
theorem readLink_query {server : Text} {n : Nat} {url : Text}
    (hurl : url ∈ [(linksOf (linkQuery server n secret domain)).tgUrl,
      (linksOf (linkQuery server n secret domain)).tMeUrl]) :
    readLink url = (readLinkSecret (['e', 'e'] ++ baseSecret secret ++
      Hex.encode Hex.lower (Percent.utf8 domain))).map fun read =>
        ⟨server, n, read.1, read.2⟩ := by
  have hpart : ∃ front, Text.partition ['?'] url =
      some (front, linkQuery server n secret domain) := by
    rcases List.mem_cons.mp hurl with rfl | hurl
    · exact ⟨"tg://proxy".toList, Text.partition_char (l := "tg://proxy".toList) (by decide)⟩
    · rw [List.mem_singleton.mp hurl]
      exact ⟨"https://t.me/proxy".toList,
        Text.partition_char (l := "https://t.me/proxy".toList) (by decide)⟩
  obtain ⟨front, hpart⟩ := hpart
  have hnumber : readNumber (decimal (n : Int)) = some n := readNumber_toDigits n
  unfold readLink
  rw [hpart]
  show (Percent.readQuery _ >>= _) = _
  rw [readQuery_linkQuery]
  show (readLinkSecret _ >>= _) = _
  cases readLinkSecret (['e', 'e'] ++ baseSecret secret ++
      Hex.encode Hex.lower (Percent.utf8 domain)) with
  | none => rfl
  | some read =>
      show (readNumber (decimal (n : Int)) >>= _) = _
      rw [hnumber]
      rfl

/-- **Links.** Both links of accepted arguments are read back as the server, the
port, the key and the domain they were built from, exactly unless the secret is
one of 32 digits that begins with `dd`. -/
theorem readLink_iff {L : Lowering} {port : PortObject} {links : TelegramProxyLinks}
    (h : buildProxyLinks L.lower host port secret domain = .ok links) :
    ∃ (n : Nat) (key : List UInt8), port = .integer n ∧ key.length = 16 ∧
      secretKey (L.lower secret) = some key ∧
      ∀ url ∈ [links.tgUrl, links.tMeUrl],
        (readLink url = some ⟨L.lower host, n, key, domain⟩ ↔ ¬Shortened (L.lower secret)) := by
  obtain ⟨port, rfl, ⟨hlow, -⟩, -, hvalid, rfl⟩ := buildProxyLinks_eq.mp h
  obtain ⟨n, rfl⟩ := Int.eq_ofNat_of_zero_le (by omega : 0 ≤ port)
  obtain ⟨key, hlen, hkey, -⟩ := secretKey_of_valid hvalid
  obtain ⟨hshortened, hkept⟩ := baseSecret_of_valid hvalid hkey
  refine ⟨n, key, rfl, hlen, hkey, fun url hurl => ?_⟩
  rw [readLink_query hurl]
  constructor
  · intro hread hshort
    rw [hshortened hshort] at hread
    obtain ⟨read, hsecret, heq⟩ := Option.map_eq_some_iff.mp hread
    cases heq
    exact readLinkSecret_short (by rw [List.length_tail, hlen]) hsecret
  · intro hwhole
    rw [hkept hwhole, readLinkSecret_whole hlen]
    rfl

/-- Links of the secret `dd000…`, 32 digits long. -/
theorem readLink_iff_dd : ∃ links, ∃ (n : Nat) (key : List UInt8),
    PortObject.integer 443 = .integer n ∧ key.length = 16 ∧
      secretKey (Lowering.asciiOnly.lower ("dd".toList ++ List.replicate 30 '0')) = some key ∧
      ∀ url ∈ [TelegramProxyLinks.tgUrl links, links.tMeUrl],
        (readLink url = some ⟨Lowering.asciiOnly.lower "Proxy".toList, n, key, "a.b".toList⟩ ↔
          ¬Shortened (Lowering.asciiOnly.lower ("dd".toList ++ List.replicate 30 '0'))) :=
  ⟨_, @readLink_iff ("dd".toList ++ List.replicate 30 '0') "Proxy".toList "a.b".toList
    Lowering.asciiOnly (.integer 443) _ (buildProxyLinks_eq.mpr ⟨443, rfl, by decide,
      ⟨by decide, by decide, by decide, by decide⟩,
      .inl (by decide), rfl⟩)⟩

end VpnPanel.Theorems
