import VpnPanel.Worker.ProxyWorld

/-!
# Runs of the proxy

After an apply job has written its config on a node, the links the panel shows
are made of that file for as long as the settings ask for it and no report is
lost. After the proxy is disabled, no run writes a file on any node until an
administrator enables it again.
-/

namespace VpnPanel.Theorems

open VpnPanel.Lib VpnPanel.Lib.Text VpnPanel.Backend VpnPanel.Node VpnPanel.Worker

variable {cfg : ProxyConfig} {w w' : ProxyWorld} {e : ProxyEvent} {nodeId : NodeId}
  {config : MTProxyConfig}

/-- The config an apply job that starts now sends to a node. -/
def desiredBody (cfg : ProxyConfig) (s : ProxyPanel) (nodeId : NodeId) : Option MTProxyBody :=
  match telegramProxyNodeSnapshot cfg s nodeId with
  | .error _ => none
  | .ok snapshot => (telegramProxyConfig snapshot.desired).toOption

theorem desiredBody_some {s : ProxyPanel} {body : MTProxyBody}
    (h : desiredBody cfg s nodeId = some body) :
    ∃ snapshot, telegramProxyNodeSnapshot cfg s nodeId = .ok snapshot ∧
      telegramProxyConfig snapshot.desired = .ok body := by
  unfold desiredBody at h
  split at h
  · cases h
  · next snapshot hsnapshot =>
      refine ⟨snapshot, hsnapshot, ?_⟩
      cases hbody : telegramProxyConfig snapshot.desired with
      | error _ =>
          rw [hbody] at h
          cases h
      | ok found =>
          rw [hbody] at h
          cases h
          rfl

/-! ## Applied -/

/-- What holds of a node once `config` is its file and the panel asks for it. -/
structure Follows (cfg : ProxyConfig) (nodeId : NodeId) (config : MTProxyConfig)
    (w : ProxyWorld) : Prop where
  /-- The file is this one, or removed. -/
  file : ∀ found ∈ w.files nodeId, found = config
  fetched : ∀ kind snapshot, w.job = .fetched kind snapshot → snapshot.nodeId = nodeId →
    ∀ body, telegramProxyConfig snapshot.desired = .ok body → body = config.body
  called : ∀ result, w.job = .called nodeId result → TellsReady (w.files nodeId) result
  /-- Unless a result of the node is on its way, a ready row tells of the file. -/
  row : (∀ result, w.job ≠ .called nodeId result) → ∀ row, w.panel.state? nodeId = some row →
    row.status.isReady = true → w.files nodeId = some config ∧
      row.publicHost = some (cfg.lowering.lower config.publicHost) ∧
      row.publicPort = some config.port

/-- A step that keeps the desired config and drops no result. -/
def Steady (cfg : ProxyConfig) (nodeId : NodeId) (config : MTProxyConfig) (w : ProxyWorld)
    (e : ProxyEvent) : Prop :=
  desiredBody cfg w.panel nodeId = some config.body ∧
    (e = .abandon → ∀ nodeId result, w.job ≠ .called nodeId result)

theorem Follows.request (h : Follows cfg nodeId config w) {call : ProxyCall}
    {next : ProxyPanel} (hno : isProxyResult call = false)
    (hstep : (proxyPanel cfg).step w.panel call = some next) :
    Follows cfg nodeId config { w with panel := next } := by
  have hrow : ∀ row, next.state? nodeId = some row → w.panel.state? nodeId = some row := by
    intro row hrow
    rcases proxyPanel_step hstep with rfl | ⟨other, panel, -, -, rfl⟩ |
      ⟨now, request, e, rfl, he, rfl⟩
    · exact hrow
    · exact state?_followNodes hrow
    · rcases handleProxy_states he with hsame | ⟨id, data, _, rfl, -⟩
      · unfold ProxyPanel.state? at hrow ⊢
        rwa [hsame] at hrow
      · cases hno
  exact ⟨h.file, h.fetched, h.called, fun hidle row hget => h.row hidle row (hrow row hget)⟩

theorem Follows.fetch (h : Follows cfg nodeId config w) (hjob : w.job = .idle)
    (hdesired : desiredBody cfg w.panel nodeId = some config.body) {kind : ProxyJobKind}
    {id : NodeId} {snapshot : TelegramProxySnapshot}
    (hsnapshot : telegramProxyNodeSnapshot cfg w.panel id = .ok snapshot) :
    Follows cfg nodeId config { w with job := .fetched kind snapshot } := by
  refine ⟨h.file, fun kind' snapshot' hfetched hid body hbody => ?_, nofun, fun _ => h.row ?_⟩
  · cases hfetched
    have hsame : nodeId = id := hid.symm.trans (snapshot_ok hsnapshot).1
    obtain ⟨now, hnow, hnowbody⟩ := desiredBody_some hdesired
    rw [hsame, hsnapshot] at hnow
    cases hnow
    rw [hbody] at hnowbody
    cases hnowbody
    rfl
  · rw [hjob]
    exact nofun

theorem Follows.perform (h : Follows cfg nodeId config w) {kind : ProxyJobKind}
    {snapshot : TelegramProxySnapshot} {reach : ProxyReach}
    (hjob : w.job = .fetched kind snapshot) :
    Follows cfg nodeId config { w with
      files := Function.update w.files snapshot.nodeId
        (runProxyJob (w.files snapshot.nodeId) kind snapshot.desired reach).1
      job := .called snapshot.nodeId
        (runProxyJob (w.files snapshot.nodeId) kind snapshot.desired reach).2 } := by
  by_cases heq : snapshot.nodeId = nodeId
  · rw [heq]
    refine ⟨?_, nofun, ?_, fun hno => absurd rfl (hno _)⟩
    · dsimp only
      rw [Function.update_self]
      rcases runProxyJob_file (w.files nodeId) kind snapshot.desired reach with
        hsame | ⟨-, hgone⟩ | ⟨body, written, -, hbody, hconfig, hnew⟩
      · rw [hsame]
        exact h.file
      · rw [hgone]
        exact nofun
      · rw [hnew]
        rintro _ ⟨⟩
        rw [h.fetched kind snapshot hjob heq body hbody, config?_body] at hconfig
        cases hconfig
        rfl
    · rintro result ⟨⟩
      dsimp only
      rw [Function.update_self]
      exact runProxyJob_tells
  · have hother : Function.update w.files snapshot.nodeId
        (runProxyJob (w.files snapshot.nodeId) kind snapshot.desired reach).1 nodeId =
        w.files nodeId := Function.update_of_ne (fun hid => heq hid.symm) _ _
    refine ⟨?_, nofun, fun result hcalled => ?_, fun _ row hrow hready => ?_⟩
    · dsimp only
      rw [hother]
      exact h.file
    · injection hcalled with hid
      exact absurd hid heq
    · dsimp only
      rw [hother]
      refine h.row ?_ row hrow hready
      rw [hjob]
      exact nofun

theorem Follows.report (hok : w.Ok cfg) (h : Follows cfg nodeId config w)
    (hnode : (w.panel.db.node? nodeId).isSome) {id : NodeId} {result : TelegramProxyResultIn}
    {now : Time} {next : ProxyPanel} (hjob : w.job = .called id result)
    (hstep : (proxyPanel cfg).step w.panel (.proxy now (.result id result)) = some next) :
    Follows cfg nodeId config { w with panel := next, job := .idle } := by
  refine ⟨h.file, nofun, nofun, fun _ row hrow hready => ?_⟩
  by_cases heq : id = nodeId
  · cases heq
    obtain ⟨saved, hreport, hid, happlied⟩ := report_takes hok hjob hnode now
    have hnext : (proxyPanel cfg).step w.panel (.proxy now (.result nodeId result)) = _ :=
      proxyPanel_step_proxy hreport
    rw [hstep] at hnext
    cases hnext
    have hsaved : row = saved :=
      saveState_key (Rows.mem_of_get? hrow) ((Rows.key_of_get? hrow).trans hid.symm)
    rw [hsaved] at hready ⊢
    rw [happlied.status] at hready
    obtain ⟨host, port, hhost, -, hrowHost, hport, -, hrowPort, -⟩ := happlied.ready hready
    obtain ⟨found, hfile, hfileHost, hfilePort⟩ := h.called result hjob hready
    rw [h.file found hfile] at hfileHost hfilePort hfile
    rw [hhost] at hfileHost
    rw [hport] at hfilePort
    cases hfileHost
    cases hfilePort
    exact ⟨hfile, hrowHost, hrowPort⟩
  · have hkept : w.panel.state? nodeId = some row := by
      rcases proxyPanel_step hstep with rfl | ⟨_, _, hcall, -⟩ | ⟨now, request, e, hcall, he, rfl⟩
      · exact hrow
      · cases hcall
      · cases hcall
        obtain ⟨saved, hpanel, hid, -⟩ := reportResult_ok he
        dsimp only at hrow
        rw [hpanel] at hrow
        rwa [state?_saveState_of_ne (hid.trans_ne heq)] at hrow
    refine h.row ?_ row hkept hready
    rw [hjob]
    rintro other ⟨⟩
    exact heq rfl

theorem Follows.step (hok : w.Ok cfg) (h : Follows cfg nodeId config w)
    (hsteady : Steady cfg nodeId config w e) (hstep : (proxyWorld cfg).step w e = some w') :
    Follows cfg nodeId config w' := by
  have hdoes := proxyWorld_step hstep
  cases e with
  | request call =>
      obtain ⟨hno, next, hnext, rfl⟩ := hdoes
      exact h.request hno hnext
  | fetch kind id =>
      obtain ⟨hjob, snapshot, hsnapshot, rfl⟩ := hdoes
      exact h.fetch hjob hsteady.1 hsnapshot
  | perform reach =>
      obtain ⟨kind, snapshot, hjob, rfl⟩ := hdoes
      exact h.perform hjob
  | report now =>
      obtain ⟨id, result, hjob, next, hnext, rfl⟩ := hdoes
      obtain ⟨snapshot, hsnapshot, -⟩ := desiredBody_some hsteady.1
      obtain ⟨-, node, hnode, -⟩ := snapshot_ok hsnapshot
      exact h.report hok (by rw [hnode]; rfl) hjob hnext
  | abandon =>
      cases hdoes
      exact ⟨h.file, nofun, nofun, fun _ => h.row fun result => hsteady.2 rfl nodeId result⟩

/-- The file is there right after the call of an apply job. -/
theorem Follows.applied {w₁ : ProxyWorld} {snapshot : TelegramProxySnapshot} {reach : ProxyReach}
    (hjob : w.job = .fetched .apply snapshot)
    (hcall : (proxyWorld cfg).step w (.perform reach) = some w₁)
    (hwritten : w₁.files snapshot.nodeId = some config) :
    Follows cfg snapshot.nodeId config w₁ := by
  obtain ⟨kind, snapshot', hjob', rfl⟩ := proxyWorld_step hcall
  rw [hjob] at hjob'
  cases hjob'
  refine ⟨fun found hfound => ?_, nofun, ?_, fun hno => absurd rfl (hno _)⟩
  · rw [hwritten] at hfound
    cases hfound
    rfl
  · rintro result ⟨⟩
    dsimp only
    rw [Function.update_self]
    exact runProxyJob_tells

/-- The secret and the domain of a desired config are those the links are made of. -/
theorem desiredBody_secret {s : ProxyPanel} {body : MTProxyBody} {row : TelegramProxyNodeState}
    {host secret : Text} {port : Int} (hok : s.Ok cfg)
    (hbody : desiredBody cfg s nodeId = some body) (hshown : Shown cfg s row host port secret) :
    body.secret = secret ∧ body.tlsDomain = s.settings.tlsDomain := by
  obtain ⟨snapshot, hsnapshot, hbody⟩ := desiredBody_some hbody
  obtain ⟨-, node, -, hdesired⟩ := snapshot_ok hsnapshot
  obtain ⟨-, -, hstored, -, hdomain⟩ := desiredConfig_ok hok.settings hdesired
  obtain ⟨-, hsecret, -, -, hbodyDomain, -⟩ := telegramProxyConfig_ok hbody
  obtain ⟨iv, hencrypted⟩ := hshown.stored
  have hsame : storedSecret cfg s.settings = some secret := by
    unfold storedSecret
    rw [hencrypted]
    exact cfg.fernet.decrypt_encrypt iv secret
  rw [hstored, hsame] at hsecret
  cases hsecret
  exact ⟨rfl, hbodyDomain.symm.trans hdomain⟩

def exampleMtproxy : MTProxyConfig :=
  ⟨443, "p.org".toList, List.replicate 32 'a', "cloudsyncpro.net".toList, defaultPort_ok,
    by decide, by decide, by decide⟩

/-- What an apply job of node 0 fetches. -/
def exampleSnapshot : TelegramProxySnapshot :=
  ⟨0, "http://a", "t", ⟨true, some (List.replicate 32 'a'), 443, some "p.org".toList,
    "cloudsyncpro.net".toList⟩⟩

/-- An apply job of the primary node, up to its call. -/
def applyFetched : List ProxyEvent := [
  .request (.panel ⟨0, .addNode { name := "a", url := "http://a", token := "t"
                                  interface := fun field => match field with
                                    | .endpoint => some (.text "p.org:51820")
                                    | _ => none }⟩),
  .request (.proxy 1 (.updateSettings { enabled := true, port := 443, primaryNodeId := some 0
                                        secret := some (List.replicate 32 'a')
                                        port_ok := defaultPort_ok } 0)),
  .fetch .apply 0]

/-- The proxy did not run, is started, and runs. -/
def applyAnswered : ProxyReach :=
  .answered { first := .completed 3 [], third := .completed 0 "mtproxy RUNNING pid 7".toList } []

/-- An event that enables the proxy. -/
def Enabling : ProxyEvent → Prop
  | .request call => Enables call
  | _ => False

/-- What holds of a node while the proxy is disabled: the file is what it was, or
removed. -/
structure Off (old : NodeId → Option MTProxyConfig) (w : ProxyWorld) : Prop where
  disabled : w.panel.settings.enabled = false
  fetched : ∀ kind snapshot, w.job = .fetched kind snapshot → snapshot.desired.enabled = false
  file : ∀ nodeId, w.files nodeId = old nodeId ∨ w.files nodeId = none

theorem Off.step {old : NodeId → Option MTProxyConfig} (hok : w.panel.Ok cfg) (h : Off old w)
    (hno : ¬Enabling e)
    (hstep : (proxyWorld cfg).step w e = some w') : Off old w' := by
  have hdoes := proxyWorld_step hstep
  cases e with
  | request call =>
      obtain ⟨-, next, hnext, rfl⟩ := hdoes
      exact ⟨disabled_step hnext hno h.disabled, h.fetched, h.file⟩
  | fetch kind id =>
      obtain ⟨-, snapshot, hsnapshot, rfl⟩ := hdoes
      obtain ⟨-, node, -, hdesired⟩ := snapshot_ok hsnapshot
      refine ⟨h.disabled, fun _ _ hfetched => ?_, h.file⟩
      cases hfetched
      exact (desiredConfig_ok hok.settings hdesired).2.1.trans h.disabled
  | perform reach =>
      obtain ⟨kind, snapshot, hjob, rfl⟩ := hdoes
      refine ⟨h.disabled, nofun, fun nodeId => ?_⟩
      dsimp only
      by_cases heq : nodeId = snapshot.nodeId
      · rw [heq, Function.update_self]
        rcases runProxyJob_file (w.files snapshot.nodeId) kind snapshot.desired reach with
          hsame | ⟨-, hgone⟩ | ⟨body, written, -, hbody, -⟩
        · rw [hsame]
          exact h.file snapshot.nodeId
        · exact .inr hgone
        · have henabled := (telegramProxyConfig_ok hbody).1
          rw [h.fetched kind snapshot hjob] at henabled
          cases henabled
      · rw [Function.update_of_ne heq]
        exact h.file nodeId
  | report now =>
      obtain ⟨id, result, hjob, next, hnext, rfl⟩ := hdoes
      exact ⟨disabled_step hnext (fun henables => henables) h.disabled, nofun, h.file⟩
  | abandon =>
      cases hdoes
      exact ⟨h.disabled, nofun, h.file⟩

/-- A run while the proxy is disabled. -/
theorem Off.run {old : NodeId → Option MTProxyConfig} {steps : List (ProxyWorld × ProxyEvent)}
    (hw : (proxyWorld cfg).Reachable w) (h : Off old w)
    (hrun : (proxyWorld cfg).Trace w steps w')
    (hsteps : ∀ x ∈ steps, ¬Enabling x.2) : Off old w' := by
  have hstep : ∀ v e v', ((proxyWorld cfg).Reachable v ∧ Off old v) → ¬Enabling e →
      (proxyWorld cfg).step v e = some v' → (proxyWorld cfg).Reachable v' ∧ Off old v' :=
    fun v e v' hv hno hstep => ⟨.step hv.1 trivial hstep, hv.2.step (proxyWorld_ok hv.1) hno hstep⟩
  exact (hrun.keeps hstep hsteps ⟨hw, h⟩).2

/-- A disable job that is answered has removed the file. -/
theorem runProxyJob_disabled {file : Option MTProxyConfig} {desired : TelegramProxyDesiredConfig}
    {reach : ProxyReach} (h : (runProxyJob file .disable desired reach).2.status = .disabled) :
    (runProxyJob file .disable desired reach).1 = none := by
  cases reach with
  | unreached e => cases h
  | lost run e => cases h
  | answered run message =>
      change (jobResult desired ((disableMtproxy file run).2.mapError _)).status = .disabled at h
      show (disableMtproxy file run).1 = none
      cases hanswer : (disableMtproxy file run).2 with
      | error e =>
          rw [hanswer] at h
          cases h
      | ok status => exact (disableMtproxy_ok hanswer).1

/-- **Disabled.** From a state in which the proxy is disabled and the job in hand,
if there is one, was fetched disabled, a run without a request that enables it
keeps the links off both pages and writes no file: each is what it was or gone,
and gone for good once a disable job of its node was answered. -/
theorem disabled_proxy_stays (cfg : ProxyConfig) (w₀ w : ProxyWorld)
    (steps : List (ProxyWorld × ProxyEvent)) (h₀ : (proxyWorld cfg).Reachable w₀)
    (hoff : w₀.panel.settings.enabled = false)
    (hjob : ∀ kind snapshot, w₀.job = .fetched kind snapshot → snapshot.desired.enabled = false)
    (hrun : (proxyWorld cfg).Trace w₀ steps w)
    (hsteps : ∀ x ∈ steps, ¬Enabling x.2) :
    responseLinks cfg w.panel = .ok none ∧ publicTelegramProxy cfg w.panel = .ok none ∧
      (∀ nodeId, w.files nodeId = w₀.files nodeId ∨ w.files nodeId = none) ∧
      ∀ x ∈ steps, ∀ snapshot reach, x.1.job = .fetched .disable snapshot →
        x.2 = .perform reach →
        (runProxyJob (x.1.files snapshot.nodeId) .disable snapshot.desired reach).2.status =
          .disabled → w.files snapshot.nodeId = none := by
  have hstart : Off w₀.files w₀ := ⟨hoff, hjob, fun _ => .inl rfl⟩
  have hend := hstart.run h₀ hrun hsteps
  have hreach : (proxyWorld cfg).Reachable w := hrun.reaches (fun _ _ => trivial) h₀
  obtain ⟨hlinks, hpage⟩ := (proxyWorld_ok hreach).hidden (.inl hend.disabled)
  refine ⟨hlinks, hpage, hend.file, fun x hx snapshot reach hfetched hperform hstatus => ?_⟩
  obtain ⟨before, after, v, rfl, hbefore, hstep, hafter⟩ := hrun.split hx
  have hmid := hstart.run h₀ hbefore fun y hy => hsteps y (List.mem_append_left _ hy)
  have hx₀ : (proxyWorld cfg).Reachable x.1 := hbefore.reaches (fun _ _ => trivial) h₀
  have hv : (proxyWorld cfg).Reachable v := .step hx₀ trivial hstep
  have hoffv := hmid.step (proxyWorld_ok hx₀) (hsteps x hx) hstep
  have hgone : v.files snapshot.nodeId = none := by
    rw [hperform] at hstep
    obtain ⟨kind, found, hfound, rfl⟩ := proxyWorld_step hstep
    rw [hfetched] at hfound
    cases hfound
    dsimp only
    rw [Function.update_self]
    exact runProxyJob_disabled hstatus
  -- the rest of the run, with the files as they are now
  have hrest : Off v.files v := ⟨hoffv.disabled, hoffv.fetched, fun _ => .inl rfl⟩
  have hlast := hrest.run hv hafter fun y hy =>
    hsteps y (List.mem_append_right _ (List.mem_cons_of_mem _ hy))
  rcases hlast.file snapshot.nodeId with hsame | hnone
  · exact hsame.trans hgone
  · exact hnone

def disabledSnapshot : TelegramProxySnapshot :=
  { exampleSnapshot with desired := { exampleSnapshot.desired with enabled := false } }

/-- The proxy that ran is disabled, and its node stops it. -/
theorem disabled_proxy_stays_stopped :
    ∃ w : ProxyWorld, (proxyWorld exampleProxy).Reachable w ∧
      responseLinks exampleProxy w.panel = .ok none ∧ w.files 0 = none := by
  have hrun : ((proxyWorld exampleProxy).replay (applyFetched ++
      [.perform applyAnswered, .report 5, .request (.proxy 6 .disable)])).any (fun w₀ =>
      w₀.job = .idle ∧ w₀.panel.settings.enabled = false ∧
      ((proxyWorld exampleProxy).step w₀ (.fetch .disable 0)).any fun w₁ =>
        w₁.job = .fetched .disable disabledSnapshot ∧
        (runProxyJob (w₁.files 0) .disable disabledSnapshot.desired
          (.answered { first := .completed 0 [] } [])).2.status = .disabled ∧
        ((proxyWorld exampleProxy).step w₁ (.perform (.answered
          { first := .completed 0 [] } []))).isSome) = true := by
    decide +kernel
  obtain ⟨w₀, hreplay, hrun⟩ := TSys.replay_any hrun
  obtain ⟨hidle, hoff, hrun⟩ := of_decide_eq_true hrun
  obtain ⟨w₁, hfetch, hrun⟩ := (Option.any_eq_true _ _).mp hrun
  obtain ⟨hfetched, hstatus, hcall⟩ := of_decide_eq_true hrun
  obtain ⟨w, hcall⟩ := Option.isSome_iff_exists.mp hcall
  have h₀ := TSys.replay_reachable hreplay
  obtain ⟨hlinks, -, -, hgone⟩ := disabled_proxy_stays exampleProxy w₀ w
    [(w₀, .fetch .disable 0), (w₁, .perform (.answered { first := .completed 0 [] } []))]
    h₀ hoff (by rw [hidle]; nofun) (.cons hfetch (.cons hcall (.nil w))) (by
      simp [Enabling])
  refine ⟨w, .step (.step h₀ trivial hfetch) trivial hcall, hlinks, ?_⟩
  exact hgone (w₁, _) (by simp) disabledSnapshot _ hfetched rfl hstatus

end VpnPanel.Theorems
