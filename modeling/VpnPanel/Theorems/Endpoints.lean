import Mathlib.Tactic.IntervalCases
import VpnPanel.Backend.Amnezia
import VpnPanel.Backend.NodeInterface
import VpnPanel.Backend.TelegramProxy

/-!
# Endpoints

The Amnezia JSON splits an endpoint at its last colon, the Telegram proxy at its
first one or behind its bracket. They find one host where the endpoint has a
port, and never where it has none.
-/

namespace VpnPanel.Theorems

open VpnPanel.Lib VpnPanel.Lib.Text VpnPanel.Backend

/-! ## Endpoints -/

/-- A name or an IPv4 address. -/
def IsName (host : Text) : Prop :=
  host ≠ [] ∧ ∀ c ∈ host, isSpace c = false ∧ c ∉ [':', '/', '?', '#', '@', '[', ']']

/-- An IPv6 address in its brackets. -/
def IsBracketed (host : Text) : Prop :=
  ∃ address : Text, host = '[' :: address ++ [']'] ∧ ':' ∈ address ∧
    ∀ c ∈ address, c = ':' ∨ c = '.' ∨ c.isAlphanum = true

def IsPort (port : Text) : Prop := port ≠ [] ∧ ∀ c ∈ port, c.isDigit = true

/-- `host` or `host:port`. -/
structure ServerEndpoint where
  host : Text
  port : Option Text
  host_ok : IsName host ∨ IsBracketed host
  port_ok : ∀ text ∈ port, IsPort text

/-- What follows the host. -/
def portSuffix : Option Text → Text
  | none => []
  | some port => ':' :: port

def ServerEndpoint.text (endpoint : ServerEndpoint) : Text :=
  endpoint.host ++ portSuffix endpoint.port

/-- The port that is given, or 51820. -/
def ServerEndpoint.portNumber (endpoint : ServerEndpoint) : Nat :=
  match endpoint.port with
  | none => 51820
  | some port => Nat.ofDigitChars 10 port 0

variable {endpoint : ServerEndpoint} {host : Text}

theorem head_of_name (h : IsName host) : host.head? ≠ some '[' := by
  intro hhead
  exact absurd (h.2 '[' (List.mem_of_head? hhead)).2 (by simp)

theorem colon_of_name (h : IsName host) : ':' ∉ host := fun hc => absurd (h.2 ':' hc).2 (by simp)

theorem colon_of_port {port : Text} (h : IsPort port) : ':' ∉ port :=
  fun hc => absurd (h.2 ':' hc) (by decide)

theorem strip_of_name (h : IsName host) : strip host = host := by
  have hfront : host.dropWhile isSpace = host := by
    cases host with
    | nil => rfl
    | cons c rest => exact List.dropWhile_cons_of_neg (by simp [(h.2 c List.mem_cons_self).1])
  unfold strip
  rw [hfront, List.rdropWhile_eq_self_iff]
  intro hne
  simp [(h.2 _ (List.getLast_mem hne)).1]

/-- The dotted text of an IPv4 address is a name, too. -/
theorem isName_hostText (address : Nat) : IsName (hostText address).toList := by
  refine ⟨?_, fun c hc => ?_⟩
  · rw [hostText_toList]
    simp
  · rcases mem_hostText hc with hdigit | rfl
    · have hrange : 48 ≤ c.toNat ∧ c.toNat ≤ 57 := by
        simp only [Char.isDigit, Bool.and_eq_true, decide_eq_true_eq] at hdigit
        exact hdigit
      obtain ⟨hlow, hhigh⟩ := hrange
      rw [← Char.ofNat_toNat c]
      generalize c.toNat = n at hlow hhigh
      interval_cases n <;> decide
    · decide

/-! ## The host of the proxy -/

variable {lower : Text → Text}

theorem normalizePublicHost_name (h : IsName host) :
    normalizePublicHost lower host = .ok (lower host) := by
  have hno : ∀ c ∈ [':', '/', '?', '#', '@', '[', ']'], c ∉ host :=
    fun c hc hmem => (h.2 c hmem).2 hc
  have hurl : ¬"://".toList <:+: host := fun hscheme =>
    hno ':' (by simp) (hscheme.subset (by decide))
  unfold normalizePublicHost
  rw [if_neg (by simp [strip_of_name h]), if_neg h.1, if_neg, if_neg]
  · exact fun hc => hno ':' (by simp) hc.1
  · rintro (hc | hc | hc | hc | hc)
    · exact hurl hc
    · exact hno '/' (by simp) hc
    · exact hno '?' (by simp) hc
    · exact hno '#' (by simp) hc
    · exact hno '@' (by simp) hc

theorem mem_bracketed (h : IsBracketed host) : ∀ c ∈ host,
    c = '[' ∨ c = ']' ∨ c = ':' ∨ c = '.' ∨ c.isAlphanum = true := by
  obtain ⟨address, rfl, -, hchars⟩ := h
  intro c hc
  rcases List.mem_append.mp hc with hc | hc
  · rcases List.mem_cons.mp hc with rfl | hc
    · exact .inl rfl
    · exact .inr (.inr (hchars c hc))
  · exact .inr (.inl (List.mem_singleton.mp hc))

theorem strip_bracketed (h : IsBracketed host) : strip host = host := by
  obtain ⟨address, rfl, -, -⟩ := h
  unfold strip
  rw [List.cons_append, List.dropWhile_cons_of_neg (by decide), ← List.cons_append,
    List.rdropWhile_concat_neg _ _ _ (by decide)]

theorem normalizePublicHost_bracketed (h : IsBracketed host) :
    normalizePublicHost lower host = .ok (lower host) := by
  have hno : ∀ c ∈ ['/', '?', '#', '@'], c ∉ host := by
    intro c hc hmem
    have hshape := mem_bracketed h c hmem
    simp only [List.mem_cons, List.not_mem_nil, or_false] at hc
    rcases hc with rfl | rfl | rfl | rfl <;> exact absurd hshape (by decide)
  have hurl : ¬"://".toList <:+: host := fun hscheme =>
    hno '/' (by simp) (hscheme.subset (by decide))
  unfold normalizePublicHost
  rw [if_neg (by simp [strip_bracketed h]), if_neg, if_neg, if_neg]
  · obtain ⟨address, rfl, -, -⟩ := h
    rintro ⟨-, hends⟩
    exact hends ⟨rfl, List.getLast?_concat⟩
  · rintro (hc | hc | hc | hc | hc)
    · exact hurl hc
    · exact hno '/' (by simp) hc
    · exact hno '?' (by simp) hc
    · exact hno '#' (by simp) hc
    · exact hno '@' (by simp) hc
  · obtain ⟨address, rfl, -, -⟩ := h
    simp

theorem hostFromEndpoint_eq (endpoint : ServerEndpoint) :
    hostFromEndpoint lower (some endpoint.text) = .ok (some (lower endpoint.host)) := by
  unfold hostFromEndpoint ServerEndpoint.text
  rcases endpoint.host_ok with hname | hbracketed
  · have hhead : (endpoint.host ++ portSuffix endpoint.port).head? ≠ some '[' := by
      rw [List.head?_append_of_ne_nil _ hname.1]
      exact head_of_name hname
    have hfirst : (endpoint.host ++ portSuffix endpoint.port).takeWhile (· ≠ ':') =
        endpoint.host := by
      have hbefore : ∀ c ∈ endpoint.host, decide (c ≠ ':') = true := by
        intro c hc
        refine decide_eq_true fun heq => ?_
        subst heq
        exact colon_of_name hname hc
      rw [List.takeWhile_append_of_pos hbefore]
      cases endpoint.port <;> simp [portSuffix]
    simp only
    rw [if_neg (by simp [hname.1]), if_neg hhead, hfirst, normalizePublicHost_name hname]
    rfl
  · obtain ⟨address, hhost, -, hchars⟩ := id hbracketed
    have hclosed : (endpoint.host ++ portSuffix endpoint.port).takeWhile (· ≠ ']') ++ [']'] =
        endpoint.host := by
      have hinside : ∀ c ∈ '[' :: address, decide (c ≠ ']') = true := by
        intro c hc
        refine decide_eq_true fun heq => ?_
        subst heq
        rcases List.mem_cons.mp hc with hc | hc
        · exact absurd hc (by decide)
        · exact absurd (hchars _ hc) (by decide)
      rw [hhost, List.append_assoc, List.takeWhile_append_of_pos hinside]
      simp
    simp only
    rw [if_neg (by simp [hhost]), if_pos (by simp [hhost]), if_pos (by simp [hhost]), hclosed,
      normalizePublicHost_bracketed hbracketed]
    rfl

/-! ## The host and the port of the document -/

/-- An entry of a dictionary. -/
def jsonEntry (key : String) : JsonValue → Option JsonValue
  | .object fields => (fields.find? (·.1 = key.toList)).map (·.2)
  | _ => none

def firstItem : JsonValue → Option JsonValue
  | .array items => items.head?
  | _ => none

/-- The dictionary under `awg`. -/
def awgEntry (doc : JsonValue) : Option JsonValue :=
  ((jsonEntry "containers" doc).bind firstItem).bind (jsonEntry "awg")

variable {numerals : Numerals} {config : AWGClientConfig} {compact : Bool}

/-- What `_build_amnezia_config_json` dumps. -/
def amneziaDocument (numerals : Numerals) (config : AWGClientConfig) (compact : Bool) :
    Option JsonValue :=
  (numerals.port? (hostAndPort config).2).map fun port => amneziaConfig config port compact

theorem buildAmneziaConfigJson_eq : buildAmneziaConfigJson numerals config compact =
    (amneziaDocument numerals config compact).map fun doc =>
      ascii (JsonValue.dumps (if compact then JsonValue.compact else JsonValue.indented) doc) := by
  unfold buildAmneziaConfigJson amneziaDocument
  rw [Option.map_map]
  rfl

/-- The document names the host and the port wherever it names one. -/
structure HasEndpoint (host : Text) (port : Nat) (compact : Bool) (doc : JsonValue) : Prop where
  hostName : jsonEntry "hostName" doc = some (.text host)
  awg : ∃ awg last, awgEntry doc = some awg ∧
    jsonEntry "port" awg = some (.text (decimal port)) ∧
    jsonEntry "last_config" awg =
      some (.text (JsonValue.dumps (if compact then {} else JsonValue.indented) last)) ∧
    jsonEntry "hostName" last = some (.text host) ∧ jsonEntry "port" last = some (.int port)

theorem hasEndpoint_amneziaConfig (config : AWGClientConfig) (port : Nat) (compact : Bool) :
    HasEndpoint (hostAndPort config).1 port compact (amneziaConfig config port compact) where
  hostName := rfl
  awg := ⟨.object (awgContainer config port compact), lastConfig config port, rfl, rfl, rfl, rfl,
    rfl⟩

theorem hostName_amneziaConfig {port : Nat}
    (h : jsonEntry "hostName" (amneziaConfig config port compact) = some (.text host)) :
    (hostAndPort config).1 = host := by
  have hname := (hasEndpoint_amneziaConfig config port compact).hostName.symm.trans h
  exact JsonValue.text.inj (Option.some.inj hname)

/-! ## The two parsers -/

/-- The document has the host and the port of the endpoint, and the proxy has
that host in lower case. -/
structure EndpointAgrees (numerals : Numerals) (lower : Text → Text) (config : AWGClientConfig)
    (endpoint : ServerEndpoint) : Prop where
  json : ∀ compact, ∃ doc, amneziaDocument numerals config compact = some doc ∧
    HasEndpoint endpoint.host endpoint.portNumber compact doc
  proxy : ∀ compact doc hostName, amneziaDocument numerals config compact = some doc →
    jsonEntry "hostName" doc = some (.text hostName) →
    hostFromEndpoint lower (some config.nodeEndpoint.toList) = .ok (some (lower hostName))

/-- `isdigit` and `int` know the digits of ASCII. -/
def ReadsAscii (numerals : Numerals) : Prop :=
  ∀ c : Char, c.isDigit = true →
    numerals.isDigit c = true ∧ numerals.decimal? c = some (c.toNat - '0'.toNat)

theorem mapM_decimal? (hnum : ReadsAscii numerals) (port : Text)
    (h : ∀ c ∈ port, c.isDigit = true) :
    port.mapM numerals.decimal? = some (port.map fun c => c.toNat - '0'.toNat) := by
  induction port with
  | nil => rfl
  | cons c rest ih =>
      rw [List.mapM_cons, (hnum c (h c List.mem_cons_self)).2,
        ih fun d hd => h d (List.mem_cons_of_mem _ hd)]
      rfl

/-- `int` takes 4300 digits. -/
theorem port?_of_isPort {port : Text} (hnum : ReadsAscii numerals) (h : IsPort port) :
    numerals.port? port =
      if port.length > 4300 then none else some (Nat.ofDigitChars 10 port 0) := by
  have hdigits : numerals.allDigits port = true := by
    unfold Numerals.allDigits
    rw [Bool.and_eq_true, decide_eq_true_eq]
    exact ⟨h.1, List.all_eq_true.mpr fun c hc => (hnum c (h.2 c hc)).1⟩
  have hvalue : (port.map fun c => c.toNat - '0'.toNat).foldl (fun n digit => n * 10 + digit) 0 =
      Nat.ofDigitChars 10 port 0 := by
    rw [List.foldl_map, Nat.ofDigitChars_eq_foldl]
    simp only [Nat.mul_comm]
  unfold Numerals.port? Numerals.int?
  rw [if_pos hdigits, mapM_decimal? hnum port h.2, Option.map_some, hvalue]

/-- With a port the last colon is the one before it. -/
theorem hostAndPort_of_port {port : Text} (hend : config.nodeEndpoint.toList = endpoint.text)
    (hport : endpoint.port = some port) : hostAndPort config = (endpoint.host, port) := by
  have hlast : rpartition ':' (endpoint.host ++ ':' :: port) = (endpoint.host, [':'], port) :=
    rpartition_last (colon_of_port (endpoint.port_ok port hport))
  simp only [hostAndPort, hend, ServerEndpoint.text, hport, portSuffix, hlast]

/-- Without a port what stands before the last colon is not the host. -/
theorem hostAndPort_of_none (hend : config.nodeEndpoint.toList = endpoint.text)
    (hport : endpoint.port = none) : (hostAndPort config).1 ≠ endpoint.host := by
  have htext : config.nodeEndpoint.toList = endpoint.host := by
    rw [hend, ServerEndpoint.text, hport]
    exact List.append_nil _
  unfold hostAndPort
  rw [htext]
  rcases endpoint.host_ok with hname | hbracketed
  · rw [rpartition_of_notMem (colon_of_name hname)]
    exact fun heq => hname.1 heq.symm
  · have hcolon : ':' ∈ endpoint.host := by
      obtain ⟨address, hhost, hcolon, -⟩ := hbracketed
      rw [hhost]
      exact List.mem_append_left _ (List.mem_cons_of_mem _ hcolon)
    obtain ⟨after, before, hreverse, hlast⟩ :=
      List.eq_append_cons_of_mem (List.mem_reverse.mpr hcolon)
    have hsplit : endpoint.host = before.reverse ++ ':' :: after.reverse := by
      rw [← List.reverse_reverse endpoint.host, hreverse]
      simp
    rw [hsplit, rpartition_last (by simpa using hlast)]
    intro heq
    have hlength := congrArg List.length heq
    simp at hlength

/-- **Both parsers agree** exactly where there is a port, of no more digits than
`int` takes. -/
theorem endpoint_agrees_iff (numerals : Numerals) (lower : Text → Text) (config : AWGClientConfig)
    (endpoint : ServerEndpoint) (hnum : ReadsAscii numerals)
    (hend : config.nodeEndpoint.toList = endpoint.text) :
    EndpointAgrees numerals lower config endpoint ↔
      ∃ port, endpoint.port = some port ∧ port.length ≤ 4300 := by
  constructor
  · intro hagrees
    obtain ⟨doc, hdoc, hhas⟩ := hagrees.json true
    unfold amneziaDocument at hdoc
    obtain ⟨number, hnumber, rfl⟩ := Option.map_eq_some_iff.mp hdoc
    cases hport : endpoint.port with
    | none => exact absurd (hostName_amneziaConfig hhas.hostName) (hostAndPort_of_none hend hport)
    | some port =>
        refine ⟨port, rfl, ?_⟩
        rw [hostAndPort_of_port hend hport,
          port?_of_isPort hnum (endpoint.port_ok port hport)] at hnumber
        split at hnumber
        · cases hnumber
        · omega
  · rintro ⟨port, hport, hlength⟩
    have hsplit := hostAndPort_of_port hend hport
    have hdoc : ∀ compact, amneziaDocument numerals config compact =
        some (amneziaConfig config endpoint.portNumber compact) := by
      intro compact
      unfold amneziaDocument ServerEndpoint.portNumber
      rw [hsplit, port?_of_isPort hnum (endpoint.port_ok port hport), if_neg (by omega), hport]
      rfl
    refine ⟨fun compact => ⟨_, hdoc compact, ?_⟩, fun compact doc hostName hsome hname => ?_⟩
    · have hhas := hasEndpoint_amneziaConfig config endpoint.portNumber compact
      rwa [hsplit] at hhas
    · rw [hdoc compact] at hsome
      cases hsome
      have hhost := hostName_amneziaConfig hname
      rw [hsplit] at hhost
      rw [hend, ← hhost]
      exact hostFromEndpoint_eq endpoint

/-! ## With a port and without -/

def asciiNumerals : Numerals where
  isDigit := Char.isDigit
  decimal? c := if c.isDigit then some (c.toNat - '0'.toNat) else none

def asciiLower (t : Text) : Text := t.map Char.toLower

def configAt (nodeEndpoint : String) : AWGClientConfig where
  privateKey := "cHJpdmF0ZQ=="
  vpnIp := "10.8.0.2"
  nodePublicKey := "bm9kZQ=="
  nodeEndpoint := nodeEndpoint

theorem readsAscii_asciiNumerals : ReadsAscii asciiNumerals := fun _ hc => ⟨hc, if_pos hc⟩

theorem endpoint_agrees_ipv6 :
    EndpointAgrees asciiNumerals asciiLower (configAt "[2001:DB8::1]:443")
    { host := "[2001:DB8::1]".toList
      port := some "443".toList
      host_ok := .inr ⟨"2001:DB8::1".toList, by decide, by decide, by simp⟩
      port_ok := fun text h => Option.some.inj h ▸ ⟨by decide, by simp⟩ } :=
  (endpoint_agrees_iff asciiNumerals asciiLower _ _ readsAscii_asciiNumerals (by decide)).mpr
    ⟨_, rfl, by decide⟩

/-- The host is lost. -/
theorem endpoint_without_port :
    (amneziaDocument asciiNumerals (configAt "vpn.example.com") false).bind (jsonEntry "hostName") =
      some (.text []) ∧
    ¬EndpointAgrees asciiNumerals asciiLower (configAt "vpn.example.com")
      { host := "vpn.example.com".toList
        port := none
        host_ok := .inl ⟨by decide, by simp [isSpace, isLineBreak]⟩
        port_ok := by simp } := by
  refine ⟨rfl, fun hagrees => ?_⟩
  obtain ⟨doc, hdoc, hhas⟩ := hagrees.json false
  cases hdoc
  exact hostAndPort_of_none (by decide) rfl (hostName_amneziaConfig hhas.hostName)

end VpnPanel.Theorems
