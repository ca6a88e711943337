import VpnPanel.Backend.ProxyTables

/-!
# Both pages show the same proxy

The admin status and the public page compute the links each on its own. In every
reachable panel neither raises, both show the same links, and they show some
exactly when the proxy is enabled, has a secret and a ready primary node.
-/

namespace VpnPanel.Theorems

open VpnPanel.Lib VpnPanel.Backend

/-- The links on the public page. -/
def pageLinks (page : PublicTelegramProxy) : TelegramProxyLinks := ⟨page.tgUrl, page.httpsUrl⟩

/-- **Same links.** The links of the admin status are those of the public page,
made of the stored secret and what the primary node reported; and there are some
exactly when all of that is there. -/
theorem proxyLinks_agree (cfg : ProxyConfig) (s : ProxyPanel)
    (hs : (proxyPanel cfg).Reachable s) :
    ∃ links page, responseLinks cfg s = .ok links ∧ publicTelegramProxy cfg s = .ok page ∧
      page.map pageLinks = links ∧
      (links.isSome ↔ s.settings.enabled = true ∧ s.settings.secretEncrypted.isSome ∧
        s.readyState.isSome) ∧
      (∀ shown ∈ links, ∃ row host port secret, Shown cfg s row host port secret ∧
        shown = shownLinks s host port secret) ∧
      ∀ shown ∈ page, shown.enabled = true ∧ shown.status.isReady = true ∧
        ∃ id node, s.settings.primaryNodeId = some id ∧ s.db.node? id = some node ∧
          shown.primaryNodeName = node.name := by
  have hok := ProxyPanel.ok_of_reachable hs
  by_cases hall : s.settings.enabled = true ∧ s.settings.secretEncrypted.isSome ∧
      s.readyState.isSome
  · obtain ⟨henabled, hsecret, hrow⟩ := hall
    obtain ⟨secretEncrypted, hsecret⟩ := Option.isSome_iff_exists.mp hsecret
    obtain ⟨row, hrow⟩ := Option.isSome_iff_exists.mp hrow
    obtain ⟨host, port, secret, hshown⟩ := hok.shown henabled hsecret hrow
    obtain ⟨node, hnode⟩ := Option.isSome_iff_exists.mp (hok.primaryNode _ hshown.primary)
    refine ⟨_, _, hshown.responseLinks hok, hshown.publicTelegramProxy hok hnode, rfl, ?_, ?_, ?_⟩
    · exact ⟨fun _ => ⟨henabled, by rw [hsecret]; rfl, by rw [hrow]; rfl⟩, fun _ => rfl⟩
    · rintro shown ⟨⟩
      exact ⟨row, host, port, secret, hshown, rfl⟩
    · rintro shown ⟨⟩
      exact ⟨rfl, hshown.ready, _, node, hshown.primary, hnode, rfl⟩
  · have hmissing : s.settings.enabled = false ∨ s.settings.secretEncrypted = none ∨
        s.readyState = none := by
      by_contra hno
      simp only [not_or, Bool.not_eq_false] at hno
      exact hall ⟨hno.1, Option.isSome_iff_ne_none.mpr hno.2.1,
        Option.isSome_iff_ne_none.mpr hno.2.2⟩
    obtain ⟨hlinks, hpage⟩ := hok.hidden hmissing
    exact ⟨none, none, hlinks, hpage, rfl, ⟨nofun, fun h => absurd h hall⟩, nofun, nofun⟩

/-- A node is made the primary one, and reports that its proxy runs. -/
def proxyReady : List ProxyCall := [
  .panel ⟨0, .addNode { name := "a", url := "http://a", token := "t" }⟩,
  .proxy 1 (.updateSettings { enabled := true, port := 443, primaryNodeId := some 0
                              secret := some (List.replicate 32 'a')
                              port_ok := defaultPort_ok } 0),
  .proxy 2 (.result 0 { status := .ready, publicHost := some "Proxy".toList
                        publicPort := some 443 })]

/-- Then both pages show the links of the key `aaa…`. -/
theorem proxyLinks_agree_ready :
    ∃ s, (proxyPanel exampleProxy).replay proxyReady = some s ∧
      s.readyState.isSome ∧
      ∃ links page, responseLinks exampleProxy s = .ok links ∧
        publicTelegramProxy exampleProxy s = .ok page ∧ page.map pageLinks = links := by
  have hrun : ((proxyPanel exampleProxy).replay proxyReady).any (·.readyState.isSome) = true := by
    decide +kernel
  obtain ⟨s, hs, hready⟩ := TSys.replay_any hrun
  obtain ⟨links, page, hlinks, hpage, hsame, -⟩ :=
    proxyLinks_agree exampleProxy s (TSys.replay_reachable hs)
  exact ⟨s, hs, hready, links, page, hlinks, hpage, hsame⟩

end VpnPanel.Theorems
