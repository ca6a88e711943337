import VpnPanel.Backend.Schema
import VpnPanel.Backend.TelegramProxy
import VpnPanel.Lib.Lowering
import VpnPanel.Lib.Percent

/-!
# Secrets and links of the Telegram proxy

`services/telegram_proxy.py` behind `normalize_public_host`: the forms of a
secret, the secret of a link, and the two links. `lower` is `str.lower`.
-/

namespace VpnPanel.Backend

open VpnPanel.Lib VpnPanel.Lib.Text

/-- The two exceptions the checks raise. -/
inductive CheckError
  | valueError (message : String)
  | typeError (message : String)
  deriving DecidableEq, Repr

/-- A port as it is handed over, a `bool` told apart from an `int`. -/
inductive PortObject
  | boolean (value : Bool)
  | integer (value : Int)
  | other
  deriving DecidableEq, Repr

structure TelegramProxyLinks where
  tgUrl : Text
  tMeUrl : Text
  deriving DecidableEq, Repr

/-- `_NORMAL_SECRET_RE`. -/
def isNormalSecret (t : Text) : Bool := t.length = 32 && t.all (· ∈ Hex.lower.chars)

/-- `_DD_SECRET_RE`. -/
def isDdSecret (t : Text) : Bool := ['d', 'd'].isPrefixOf t && isNormalSecret (t.drop 2)

/-- `generate_proxy_secret`, from the sixteen bytes that were drawn. -/
def generateProxySecret (drawn : List UInt8) (ddPrefixed : Bool) : Text :=
  let secret := Hex.encode Hex.lower drawn
  if ddPrefixed then ['d', 'd'] ++ secret else secret

section

variable (lower : Text → Text)

def validateProxySecret (secret : Text) : Except CheckError Text :=
  let normalized := lower secret
  if isNormalSecret normalized || isDdSecret normalized then .ok normalized
  else .error (.valueError
    "telegram proxy secret must be 32 hex characters or dd plus 32 hex characters")

/-- The digits of a validated secret that go into a link. -/
def baseSecret (normalized : Text) : Text :=
  if ['d', 'd'].isPrefixOf normalized then normalized.drop 2 else normalized

def formatProxyLinkSecret (secret tlsDomain : Text) : Except CheckError Text := do
  let normalized ← validateProxySecret lower secret
  return ['e', 'e'] ++ baseSecret normalized ++ Hex.encode Hex.lower (Percent.utf8 tlsDomain)

def normalizePublicPort : PortObject → Except CheckError Int
  | .integer port =>
      if 1 ≤ port ∧ port ≤ 65535 then .ok port
      else .error (.valueError "telegram proxy public port must be between 1 and 65535")
  | _ => .error (.typeError "telegram proxy public port must be an integer")

def buildProxyLinks (host : Text) (port : PortObject) (secret tlsDomain : Text) :
    Except CheckError TelegramProxyLinks := do
  let server ← (normalizePublicHost lower host).mapError .valueError
  let port ← normalizePublicPort port
  let secret ← formatProxyLinkSecret lower secret tlsDomain
  let query := Percent.urlencode [("server".toList, server), ("port".toList, decimal port),
    ("secret".toList, secret)]
  return ⟨"tg://proxy?".toList ++ query, "https://t.me/proxy?".toList ++ query⟩

end

/-! ## Checks -/

variable {L : Lowering} {secret host : Text}

theorem isNormalSecret_iff : isNormalSecret secret = true ↔
    secret.length = 32 ∧ ∀ c ∈ secret, c ∈ Hex.lower.chars := by
  simp [isNormalSecret]

theorem isDdSecret_iff : isDdSecret secret = true ↔
    ∃ base, secret = 'd' :: 'd' :: base ∧ isNormalSecret base = true := by
  unfold isDdSecret
  constructor
  · intro h
    obtain ⟨hdd, hbase⟩ := Bool.and_eq_true_iff.mp h
    obtain ⟨base, rfl⟩ := List.isPrefixOf_iff_prefix.mp hdd
    exact ⟨base, rfl, hbase⟩
  · rintro ⟨base, rfl, hbase⟩
    exact Bool.and_eq_true_iff.mpr ⟨rfl, hbase⟩

/-- A secret in one of the two forms. -/
def ValidSecret (secret : Text) : Prop := isNormalSecret secret = true ∨ isDdSecret secret = true

theorem validateProxySecret_eq {lower : Text → Text} {valid : Text} :
    validateProxySecret lower secret = .ok valid ↔ valid = lower secret ∧ ValidSecret valid := by
  unfold validateProxySecret ValidSecret
  dsimp only
  split
  · next h =>
      rw [Bool.or_eq_true] at h
      constructor
      · intro heq
        cases heq
        exact ⟨rfl, h⟩
      · rintro ⟨rfl, -⟩
        rfl
  · next h =>
      rw [Bool.or_eq_true] at h
      constructor
      · nofun
      · rintro ⟨rfl, hvalid⟩
        exact absurd hvalid h

theorem hexDigit_lower {c : Char} (h : c ∈ Hex.lower.chars) : c.toNat < 128 ∧ c.toLower = c := by
  have hall : Hex.lower.chars.all (fun c => c.toNat < 128 && c.toLower == c) = true := by decide
  simpa using List.all_eq_true.mp hall c h

theorem ValidSecret.digits (h : ValidSecret secret) : ∀ c ∈ secret, c ∈ Hex.lower.chars := by
  rcases h with h | h
  · exact (isNormalSecret_iff.mp h).2
  · obtain ⟨base, rfl, hbase⟩ := isDdSecret_iff.mp h
    have hd : 'd' ∈ Hex.lower.chars := by decide
    intro c hc
    rcases List.mem_cons.mp hc with rfl | hc
    · exact hd
    rcases List.mem_cons.mp hc with rfl | hc
    · exact hd
    · exact (isNormalSecret_iff.mp hbase).2 c hc

/-- A valid secret is in lower case, so it is accepted again as it is. -/
theorem ValidSecret.validate (h : ValidSecret secret) :
    validateProxySecret L.lower secret = .ok secret := by
  have hlower : L.lower secret = secret :=
    Lowering.lower_eq_self fun c hc => hexDigit_lower (h.digits c hc)
  exact validateProxySecret_eq.mpr ⟨hlower.symm, h⟩

/-- What is generated is valid. -/
theorem validSecret_generate {drawn : List UInt8} (h : drawn.length = 16) (ddPrefixed : Bool) :
    ValidSecret (generateProxySecret drawn ddPrefixed) := by
  have hnormal : isNormalSecret (Hex.encode Hex.lower drawn) = true := by
    refine isNormalSecret_iff.mpr ⟨?_, fun c hc => Hex.mem_encode hc⟩
    rw [Hex.length_encode, h]
  cases ddPrefixed with
  | false => exact .inl hnormal
  | true => exact .inr (isDdSecret_iff.mpr ⟨_, rfl, hnormal⟩)

/-! ## Hosts -/

/-- What `normalize_public_host` accepts. -/
structure PublicHost (host : Text) : Prop where
  stripped : strip host = host
  nonempty : host ≠ []
  plain : '/' ∉ host ∧ '?' ∉ host ∧ '#' ∉ host ∧ '@' ∉ host
  colon : ':' ∈ host → host.head? = some '[' ∧ host.getLast? = some ']'

theorem normalizePublicHost_eq {lower : Text → Text} {server : Text} :
    normalizePublicHost lower host = .ok server ↔ server = lower host ∧ PublicHost host := by
  unfold normalizePublicHost
  constructor
  · intro h
    split at h
    · cases h
    split at h
    · cases h
    split at h
    · cases h
    split at h
    · cases h
    next hstrip hne hurl hcolon =>
      cases h
      simp only [not_or] at hurl
      refine ⟨rfl, ⟨(not_not.mp hstrip).symm, hne, hurl.2, fun hc => ?_⟩⟩
      exact not_not.mp fun hno => hcolon ⟨hc, hno⟩
  · rintro ⟨rfl, h⟩
    have hurl : ¬("://".toList <:+: host ∨ '/' ∈ host ∨ '?' ∈ host ∨ '#' ∈ host ∨ '@' ∈ host) := by
      rintro (hin | hmem)
      · exact h.plain.1 (hin.subset (by decide))
      · simp [h.plain] at hmem
    rw [if_neg (not_not.mpr h.stripped.symm), if_neg h.nonempty, if_neg hurl,
      if_neg fun hc => hc.2 (h.colon hc.1)]

/-- **A normalised host is accepted again.** -/
theorem PublicHost.lower (h : PublicHost host) : PublicHost (L.lower host) := by
  have hnone : ∀ {c : Char}, c.toNat < 128 → c.isLower = false → c ∉ host → c ∉ L.lower host :=
    fun hascii hcase hc hmem => hc (Lowering.mem_lower hmem hascii hcase)
  refine ⟨Lowering.strip_lower h.stripped, fun hnil => h.nonempty (Lowering.lower_eq_nil.mp hnil),
    ⟨hnone (by decide) (by decide) h.plain.1, hnone (by decide) (by decide) h.plain.2.1,
      hnone (by decide) (by decide) h.plain.2.2.1, hnone (by decide) (by decide) h.plain.2.2.2⟩,
    fun hc => ?_⟩
  obtain ⟨hfirst, hlast⟩ := h.colon (Lowering.mem_lower hc (by decide) (by decide))
  obtain ⟨rest, rfl⟩ := List.head?_eq_some_iff.mp hfirst
  obtain ⟨front, hback⟩ := List.getLast?_eq_some_iff.mp hlast
  refine ⟨Lowering.head?_lower (by decide) (by decide), ?_⟩
  rw [hback]
  exact Lowering.getLast?_lower (by decide) (by decide)

theorem normalizePublicPort_eq {port : PortObject} {n : Int} :
    normalizePublicPort port = .ok n ↔ port = .integer n ∧ 1 ≤ n ∧ n ≤ 65535 := by
  cases port with
  | boolean value => exact ⟨nofun, nofun⟩
  | other => exact ⟨nofun, nofun⟩
  | integer value =>
      unfold normalizePublicPort
      dsimp only
      split
      · next h =>
          constructor
          · intro heq
            cases heq
            exact ⟨rfl, h⟩
          · rintro ⟨heq, -⟩
            cases heq
            rfl
      · next h =>
          refine ⟨nofun, fun ⟨heq, hrange⟩ => ?_⟩
          cases heq
          exact absurd hrange h

/-! ## Links -/

/-- The query both links carry. -/
def linkQuery (server : Text) (port : Int) (secret tlsDomain : Text) : Text :=
  Percent.urlencode [("server".toList, server), ("port".toList, decimal port), ("secret".toList,
    ['e', 'e'] ++ baseSecret secret ++ Hex.encode Hex.lower (Percent.utf8 tlsDomain))]

def linksOf (query : Text) : TelegramProxyLinks :=
  ⟨"tg://proxy?".toList ++ query, "https://t.me/proxy?".toList ++ query⟩

/-- The links of accepted arguments, and which arguments those are. -/
theorem buildProxyLinks_eq {lower : Text → Text} {port : PortObject} {tlsDomain : Text}
    {links : TelegramProxyLinks} :
    buildProxyLinks lower host port secret tlsDomain = .ok links ↔
      ∃ n, port = .integer n ∧ (1 ≤ n ∧ n ≤ 65535) ∧ PublicHost host ∧
        ValidSecret (lower secret) ∧
        links = linksOf (linkQuery (lower host) n (lower secret) tlsDomain) := by
  unfold buildProxyLinks formatProxyLinkSecret
  constructor
  · intro h
    cases hhost : normalizePublicHost lower host with
    | error e =>
        rw [hhost] at h
        cases h
    | ok server =>
        rw [hhost] at h
        cases hport : normalizePublicPort port with
        | error e =>
            rw [hport] at h
            cases h
        | ok n =>
            rw [hport] at h
            cases hsecret : validateProxySecret lower secret with
            | error e =>
                rw [hsecret] at h
                cases h
            | ok valid =>
                rw [hsecret] at h
                cases h
                obtain ⟨rfl, hpublic⟩ := normalizePublicHost_eq.mp hhost
                obtain ⟨rfl, hrange⟩ := normalizePublicPort_eq.mp hport
                obtain ⟨rfl, hvalid⟩ := validateProxySecret_eq.mp hsecret
                exact ⟨n, rfl, hrange, hpublic, hvalid, rfl⟩
  · rintro ⟨n, rfl, hrange, hhost, hvalid, rfl⟩
    rw [normalizePublicHost_eq.mpr ⟨rfl, hhost⟩, normalizePublicPort_eq.mpr ⟨rfl, hrange⟩,
      validateProxySecret_eq.mpr ⟨rfl, hvalid⟩]
    rfl

end VpnPanel.Backend
