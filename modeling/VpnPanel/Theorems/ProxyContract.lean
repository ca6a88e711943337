import VpnPanel.Worker.ProxyWorld

/-!
# What panel, worker and agent promise each other

Every config the worker sends passes the agent's validation, every file on a node
passes the checks of `mtproxy.sh`, and the panel takes every result the worker
reports of a node it still has. No error that is reported contains the secret.
-/

namespace VpnPanel.Theorems

open VpnPanel.Lib VpnPanel.Lib.Text VpnPanel.Backend VpnPanel.Node VpnPanel.Worker

variable {cfg : ProxyConfig}

theorem isValidPort_decimal {port : Int} (h : PublicPort port) :
    isValidPort (decimal port) = true := by
  obtain ⟨n, rfl⟩ := Int.eq_ofNat_of_zero_le (by have := h.1; omega : 0 ≤ port)
  have hrange : 1 ≤ n ∧ n ≤ 65535 := by
    obtain ⟨hlow, hhigh⟩ := h
    omega
  have hread : Nat.ofDigitChars 10 (Nat.toDigits 10 n) 0 = n :=
    Nat.ofDigitChars_toDigits (by decide) (by decide)
  have hdigits : (Nat.toDigits 10 n).all Char.isDigit = true :=
    List.all_eq_true.mpr fun _ hc => Nat.isDigit_of_mem_toDigits (by decide) (by decide) hc
  have hne : Nat.toDigits 10 n ≠ [] := Nat.toDigits_ne_nil
  show isValidPort (Nat.toDigits 10 n) = true
  simp [isValidPort, hread, hdigits, hne, hrange]

theorem isHexDigit_lower {c : Char} (h : c ∈ Hex.lower.chars) : isHexDigit c = true := by
  have hall : Hex.lower.chars.all isHexDigit = true := by decide
  exact List.all_eq_true.mp hall c h

theorem validSecret_length {secret : Text} (h : ValidSecret secret) : 32 ≤ secret.length := by
  rcases h with h | h
  · exact (isNormalSecret_iff.mp h).1.ge
  · obtain ⟨base, rfl, hbase⟩ := isDdSecret_iff.mp h
    have hlen := (isNormalSecret_iff.mp hbase).1
    simp only [List.length_cons]
    omega

theorem validateConfig_ok {config : MTProxyConfig} (h : FileOk cfg config) :
    validateConfig config = true := by
  unfold validateConfig
  rw [isValidPort_decimal config.port_ok, Bool.true_and, Bool.and_eq_true]
  exact ⟨decide_eq_true (validSecret_length h.secret),
    List.all_eq_true.mpr fun c hc => isHexDigit_lower (h.secret.digits c hc)⟩

/-! ## The contract -/

/-- **Contract.** In every reachable state of panel, worker and agents: each file
passes the checks of `mtproxy.sh`; the config of the snapshot in hand, if it has
one, passes the agent's validation and then those checks; and the result in hand
is taken by the panel as long as the node is there. -/
theorem proxy_contract (cfg : ProxyConfig) (w : ProxyWorld) (hw : (proxyWorld cfg).Reachable w) :
    (∀ nodeId, ∀ config ∈ w.files nodeId, PublicHost config.publicHost ∧
        ValidSecret config.secret ∧ validateConfig config = true) ∧
      (∀ kind snapshot body, w.job = .fetched kind snapshot →
        telegramProxyConfig snapshot.desired = .ok body →
          ∃ config, body.config? = some config ∧ validateConfig config = true) ∧
      ∀ nodeId result now, w.job = .called nodeId result → (w.panel.db.node? nodeId).isSome →
        ∃ e, reportTelegramProxyNodeResult cfg w.panel nodeId result now = .ok e := by
  have hok := proxyWorld_files_ok hw
  refine ⟨fun nodeId config hconfig => ?_, fun kind snapshot body hjob hbody => ?_,
    fun nodeId result now hjob hnode => ?_⟩
  · have hfile := hok.files nodeId config hconfig
    exact ⟨hfile.host, hfile.secret, validateConfig_ok hfile⟩
  · obtain ⟨config, hconfig, hfile⟩ := config_of_desired (hok.fetched kind snapshot hjob) hbody
    exact ⟨config, hconfig, validateConfig_ok hfile⟩
  · obtain ⟨row, hreport, -⟩ := report_takes hok hjob hnode now
    exact ⟨_, hreport⟩

/-- A check of a node without a file, up to its report. -/
def checkedNode : List ProxyEvent := [
  .request (.panel ⟨0, .addNode { name := "a", url := "http://a", token := "t" }⟩),
  .fetch .check 0,
  .perform (.answered { first := .completed 3 [] } [])]

/-- Its result is taken. -/
theorem proxy_contract_checked :
    ∃ w, (proxyWorld exampleProxy).replay checkedNode = some w ∧
      ∀ nodeId result now, w.job = .called nodeId result → (w.panel.db.node? nodeId).isSome →
        ∃ e, reportTelegramProxyNodeResult exampleProxy w.panel nodeId result now = .ok e := by
  have hrun : ((proxyWorld exampleProxy).replay checkedNode).isSome = true := by decide +kernel
  obtain ⟨w, hw⟩ := Option.isSome_iff_exists.mp hrun
  exact ⟨w, hw, (proxy_contract exampleProxy w (TSys.replay_reachable hw)).2.2⟩

/-! ## Errors -/

variable {secret : Text}

/-- Texts in which no 32 digits follow each other do not contain a secret. -/
theorem not_secret_infix {t : Text} (hvalid : ValidSecret secret)
    (h : t.tails.all (fun s => s.length < 32 || !(s.take 32).all isHexDigit) = true) :
    ¬secret <:+: t :=
  not_infix_of_windows (validSecret_length hvalid)
    (fun c hc => isHexDigit_lower (hvalid.digits c hc)) h

theorem not_secret_infix_error {desired : TelegramProxyDesiredConfig} {e : CallError}
    (hsecret : desired.secret = some secret) (hvalid : ValidSecret secret) :
    ¬secret <:+: telegramProxyError desired e := by
  have hne : secret ≠ [] := List.ne_nil_of_length_pos (by
    have := validSecret_length hvalid
    omega)
  have hmark : ∀ c, c ∉ Hex.lower.chars → c ∉ secret := fun c hc hmem => hc (hvalid.digits c hmem)
  unfold telegramProxyError
  split
  · exact not_secret_infix hvalid (by decide)
  · rw [hsecret]
    dsimp only
    rw [if_neg hne]
    -- the marks at both ends of the replacement are no digits
    have hfront : ¬secret <:+: "<redacted".toList := not_secret_infix hvalid (by decide)
    exact not_infix_replace hne ⟨rfl, hmark '<' (by decide)⟩ ⟨rfl, hmark '>' (by decide)⟩ hfront
      e.message

theorem not_secret_infix_result (file : Option MTProxyConfig) (kind : ProxyJobKind)
    {desired : TelegramProxyDesiredConfig} (reach : ProxyReach)
    (hsecret : desired.secret = some secret) (hvalid : ValidSecret secret) :
    ∀ error ∈ (runProxyJob file kind desired reach).2.error, ¬secret <:+: error.toList := by
  have hresult : ∀ answer : Except CallError MTProxyStatus,
      ∀ error ∈ (jobResult desired answer).error, ¬secret <:+: error.toList := by
    intro answer error herror
    cases answer with
    | error e =>
        cases herror
        rw [String.toList_ofList]
        exact not_secret_infix_error hsecret hvalid
    | ok status =>
        change error ∈ (telegramProxyResult status).error at herror
        unfold telegramProxyResult at herror
        split at herror
        · split at herror <;> cases herror
        · cases herror
        · cases herror
          exact not_secret_infix hvalid (by decide)
        · cases herror
          exact not_secret_infix hvalid (by decide)
  unfold runProxyJob
  split
  · exact hresult _
  · exact hresult _

/-- **Errors without the secret.** Whatever text an exception of a job carries,
neither the error the job reports nor the one the panel then stores for the node
contains the secret of the job's snapshot. -/
theorem no_secret_in_errors (cfg : ProxyConfig) (s : ProxyPanel) (file : Option MTProxyConfig)
    (kind : ProxyJobKind) (snapshot : TelegramProxySnapshot) (reach : ProxyReach) (now : Time)
    (secret : Text) (hsecret : snapshot.desired.secret = some secret)
    (hvalid : ValidSecret secret) :
    (∀ error ∈ (runProxyJob file kind snapshot.desired reach).2.error,
        ¬secret <:+: error.toList) ∧
      ∀ e, reportTelegramProxyNodeResult cfg s snapshot.nodeId
          (runProxyJob file kind snapshot.desired reach).2 now = .ok e →
        ∀ row ∈ e.panel.states, row.nodeId = snapshot.nodeId →
          ∀ error ∈ row.lastError, ¬secret <:+: error.toList := by
  have hresult := not_secret_infix_result file kind reach hsecret hvalid
  refine ⟨hresult, fun e he row hrow hid error herror => ?_⟩
  obtain ⟨saved, hpanel, hsavedId, happlied, -⟩ := reportResult_ok he
  rw [hpanel] at hrow
  rw [saveState_key hrow (hid.trans hsavedId.symm)] at herror
  cases hready : (runProxyJob file kind snapshot.desired reach).2.status.isReady with
  | true =>
      obtain ⟨_, _, _, _, _, _, _, _, hnone⟩ := happlied.ready hready
      rw [hnone] at herror
      cases herror
  | false =>
      rcases (happlied.other hready).2.2 with hsame | hfailure
      · rw [hsame] at herror
        exact hresult error herror
      · rw [hfailure] at herror
        cases herror
        exact not_secret_infix hvalid (by decide)

/-- A snapshot with a secret of 32 letters. -/
def quotedSnapshot : TelegramProxySnapshot := ⟨0, "http://a", "t",
  { enabled := true, secret := some (List.replicate 32 'a'), port := 443, publicHost := none
    tlsDomain := "a.b".toList }⟩

/-- No agent is reached, and the exception quotes the secret. -/
def quotingReach : ProxyReach :=
  .unreached { message := "no route: ".toList ++ List.replicate 32 'a' }

theorem no_secret_in_errors_unreached :
    ∃ error, (runProxyJob none .check quotedSnapshot.desired quotingReach).2.error = some error ∧
      ¬List.replicate 32 'a' <:+: error.toList :=
  ⟨_, rfl, (no_secret_in_errors exampleProxy {} none .check quotedSnapshot quotingReach 0
    (List.replicate 32 'a') rfl (.inl (by decide))).1 _ rfl⟩

end VpnPanel.Theorems
