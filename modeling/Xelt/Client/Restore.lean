import Xelt.Client.Rollback

/-!
# What a connection leaves behind

Setting up and tearing down are written apart, each with its own branches for
the system, the mode and the way the DNS is set. For every machine and every
state before the call it is told when disconnecting restores the state.
-/

namespace Xelt.Client

open Fallible

namespace World

variable {w : World} {n n' s s' : Net}

-- ---------------------------------------------------------------------------
-- What a call that succeeds has done
-- ---------------------------------------------------------------------------

/-- Interfaces may have got addresses. -/
structure Readdressed (s s' : Net) : Prop where
  processes : s'.processes = s.processes
  names : s'.names = s.names
  routes : s'.routes = s.routes
  rules : s'.rules = s.rules
  dns : s'.dns = s.dns

theorem Readdressed.trans (h : Readdressed s s') (h' : Readdressed s' s'') : Readdressed s s'' where
  processes := h'.processes.trans h.processes
  names := h'.names.trans h.names
  routes := h'.routes.trans h.routes
  rules := h'.rules.trans h.rules
  dns := h'.dns.trans h.dns

theorem readdressed_setInterface : Readdressed s (s.setInterface iface addrs up) :=
  ⟨rfl, names_setInterface, rfl, rfl, rfl⟩

theorem asRoot_ok {cmd : Command} {Q : PUnit → Net → Prop}
    (hq : ∀ s', cmd.effect w.resolve s = some s' → Q ⟨⟩ s') :
    Triple (w.asRoot step cmd) s Q fun _ _ => True := asRoot_spec hq fun _ _ => trivial

theorem configureInterfaceIp_ok :
    Triple (w.configureInterfaceIp iface ipBare assignedIp) s (fun _ s' => Readdressed s s')
      fun _ _ => True := by
  unfold configureInterfaceIp
  split
  · refine asRoot_ok fun s' he => ?_
    simp only [Command.effect] at he
    split at he <;> cases he
    exact readdressed_setInterface
  · dsimp only
    generalize (if '/' ∈ assignedIp.toList then assignedIp else assignedIp ++ "/32") = cidr
    refine Triple.bind (Q := fun _ s' => Readdressed s s') (asRoot_ok fun s' he => ?_)
      fun _ t ht => asRoot_ok fun s' he => ?_
    · simp only [Command.effect] at he
      split at he <;> cases he
      exact readdressed_setInterface
    · simp only [Command.effect] at he
      split at he <;> cases he
      exact ht.trans readdressed_setInterface

/-- The routes behind `configure_full_tunnel`. -/
def tunnelRoutes (w : World) (iface serverIp gateway : String) (routes : Finset Route) :
    Finset Route :=
  if w.useSplitTunnel serverIp then insert ⟨.main, .net vpnSubnet, .dev iface⟩ routes
  else match w.os with
    | .macOS =>
      insert ⟨.main, .net "128.0.0.0/1", .dev iface⟩ <|
        insert ⟨.main, .net "0.0.0.0/1", .dev iface⟩ <|
          insert ⟨.main, .host (w.resolve serverIp), .gateway gateway⟩ routes
    | .linux => insert ⟨.numbered 51820, .default, .dev iface⟩ routes

/-- The rules behind `configure_full_tunnel`. -/
def tunnelRules (w : World) (serverIp : String) (rules : Finset Rule) : Finset Rule :=
  if w.useSplitTunnel serverIp then rules
  else match w.os with
    | .macOS => rules
    | .linux => insert suppressDefault (insert notFwmark rules)

/-- Routes and rules have been added for the tunnel. -/
structure Tunneled (w : World) (iface serverIp gateway : String) (s s' : Net) : Prop where
  processes : s'.processes = s.processes
  names : s'.names = s.names
  routes : s'.routes = w.tunnelRoutes iface serverIp gateway s.routes
  rules : s'.rules = w.tunnelRules serverIp s.rules
  dns : s'.dns = s.dns

theorem configureFullTunnel_ok :
    Triple (w.configureFullTunnel iface serverIp gateway) s
      (fun _ s' => w.Tunneled iface serverIp gateway s s') fun _ _ => True := by
  unfold configureFullTunnel
  cases hos : w.os with
  | macOS =>
    by_cases hsplit : w.useSplitTunnel serverIp = true
    · simp only [if_pos hsplit]
      refine asRoot_ok fun s' he => ?_
      obtain ⟨hmem, rfl⟩ := Command.effect_routeAddNet he
      exact ⟨rfl, rfl, by simp [tunnelRoutes, hsplit, Net.addRoute],
        by simp [tunnelRules, hsplit, Net.addRoute], rfl⟩
    · simp only [if_neg hsplit]
      refine Triple.bind_eq (t := s.addHostRoute (w.resolve serverIp) gateway)
        (asRoot_ok fun s' he => (Command.effect_routeAddHost he).2) fun _ => ?_
      refine Triple.bind (Q := fun _ s' => ∃ hmem, s' =
        (s.addHostRoute (w.resolve serverIp) gateway).addRoute .main (.net "0.0.0.0/1") iface hmem)
        (asRoot_ok fun s' he => Command.effect_routeAddNet he) ?_
      rintro _ _ ⟨hmem, rfl⟩
      refine asRoot_ok fun s' he => ?_
      obtain ⟨hmem', rfl⟩ := Command.effect_routeAddNet he
      exact ⟨rfl, rfl, by simp [tunnelRoutes, hsplit, hos, Net.addRoute, Net.addHostRoute],
        by simp [tunnelRules, hsplit, hos, Net.addRoute, Net.addHostRoute], rfl⟩
  | linux =>
    by_cases hsplit : w.useSplitTunnel serverIp = true
    · simp only [if_pos hsplit]
      refine asRoot_ok fun s' he => ?_
      obtain ⟨hmem, rfl⟩ := Command.effect_routeAdd he
      exact ⟨rfl, rfl, by simp [tunnelRoutes, hsplit, Net.addRoute],
        by simp [tunnelRules, hsplit, Net.addRoute], rfl⟩
    · simp only [if_neg hsplit]
      refine Triple.bind_eq (asRoot_ok fun s' he => Command.effect_wgFwmark he) fun _ => ?_
      refine Triple.bind_eq (t := { s with rules := insert notFwmark s.rules })
        (asRoot_ok fun s' he => (Command.effect_ruleAdd he).2) fun _ => ?_
      refine Triple.bind (Q := fun _ s' => ∃ hmem, s' =
        { s with rules := insert notFwmark s.rules }.addRoute (.numbered 51820) .default iface hmem)
        (asRoot_ok fun s' he => Command.effect_routeAddTable he) ?_
      rintro _ _ ⟨hmem, rfl⟩
      refine asRoot_ok fun s' he => ?_
      obtain ⟨-, rfl⟩ := Command.effect_ruleAdd he
      exact ⟨rfl, rfl, by simp [tunnelRoutes, hsplit, hos, Net.addRoute],
        by simp [tunnelRules, hsplit, hos, Net.addRoute], rfl⟩

def primaryService (w : World) (routes : Finset Route) : Option String :=
  (w.defaultInterface routes).map fun iface =>
    ((w.hardwarePorts.find? fun port => port.2 = iface).map Prod.fst).getD "Wi-Fi"

theorem getPrimaryNetworkService_ok :
    w.getPrimaryNetworkService s = .ok service ↔ w.primaryService s.routes = some service := by
  unfold getPrimaryNetworkService primaryService
  cases w.defaultInterface s.routes <;> simp

theorem primaryNetworkService_ok :
    Triple (w.primaryNetworkService step text) s
      (fun service s' => s' = s ∧ w.primaryService s.routes = some service) fun _ _ => True :=
  primaryNetworkService_spec (fun _ h => ⟨rfl, getPrimaryNetworkService_ok.mp h⟩) fun _ _ => trivial

def SavedDns (w : World) (routes : Finset Route) (dns : Dns) : OriginalDns → Prop
  | .service name servers =>
    w.os = .macOS ∧ w.primaryService routes = some name ∧ servers = (dns.services name).getD []
  | .resolvConfBackup text => w.os = .linux ∧ text = dns.resolvConf.getD ""

theorem saveOriginalDns_ok :
    Triple w.saveOriginalDns s (fun saved s' => s' = s ∧ w.SavedDns s.routes s.dns saved)
      fun _ _ => True := by
  unfold saveOriginalDns
  cases hos : w.os with
  | macOS =>
    refine Triple.bind_and primaryNetworkService_ok ?_
    intro service hservice
    exact ⟨rfl, hos, hservice, rfl⟩
  | linux => exact ⟨rfl, hos, rfl⟩

/-- The DNS settings behind `set_vpn_dns`. -/
def VpnDns (w : World) (routes : Finset Route) (dns dns' : Dns) : Prop :=
  match w.os with
  | .macOS => ∃ service, w.primaryService routes = some service ∧ (dns.services service).isSome ∧
      dns' = { dns with services := Function.update dns.services service (some vpnServers) }
  | .linux =>
    if w.hasResolvconf then
      let records := Function.update dns.records "tun.xelt" (some resolvRecord)
      dns' = { dns with records, resolvConf := w.update records dns.resolvConf }
    else dns' = { dns with resolvConf := some vpnResolvConf }

theorem setVpnDns_ok :
    Triple w.setVpnDns s
      (fun _ s' => ∃ dns, w.VpnDns s.routes s.dns dns ∧ s' = { s with dns }) fun _ _ => True := by
  unfold setVpnDns VpnDns
  cases w.os with
  | macOS =>
    refine Triple.bind_and primaryNetworkService_ok ?_
    intro service hservice
    refine asRoot_ok fun s' he => ?_
    simp only [Command.effect] at he
    split at he <;> cases he
    rename_i hknown
    exact ⟨_, ⟨service, hservice, hknown, rfl⟩, rfl⟩
  | linux =>
    dsimp only
    have hproceeds : ∀ step text, Triple (w.failing step text) s (fun _ s' => s' = s)
        fun _ _ => True := fun _ _ => failing_spec (fun _ => rfl) fun _ _ _ => trivial
    by_cases hresolvconf : w.hasResolvconf = true
    · simp only [if_pos hresolvconf]
      refine Triple.bind_eq (hproceeds _ _) fun _ => ?_
      exact Triple.of_modify ⟨_, rfl, rfl⟩
    · simp only [if_neg hresolvconf]
      refine Triple.bind_eq (hproceeds _ _) fun _ => ?_
      split
      · exact Triple.bind (Q := fun _ _ => True) (Triple.of_modify trivial) fun _ _ _ =>
          Triple.of_throw trivial
      · exact Triple.of_modify ⟨_, rfl, rfl⟩

/-- What is connected, where no stale tunnel had been left. -/
structure Connected (w : World) (n : Net) (iface serverIp : String) (ctx : ConnectionContext)
    (s : Net) : Prop where
  available : availableIface w.os n.names = some iface
  socket : findUapiSocketForHint w.sockets iface = some ctx.iface
  proc : ctx.boringtunProc = w.launched iface ∨ ctx.boringtunProc = .tracker w.trackerPid
  gateway : w.defaultGateway n.routes = some ctx.originalGateway
  saved : w.SavedDns n.routes n.dns ctx.originalDns
  server : ctx.serverIp = serverIp
  processes : s.processes = insert ctx.boringtunProc (insert (w.launched iface) n.processes)
  names : s.names = n.names ++ [iface]
  routes : s.routes = w.tunnelRoutes ctx.iface serverIp ctx.originalGateway n.routes
  rules : s.rules = w.tunnelRules serverIp n.rules
  dns : if w.useSplitTunnel serverIp then s.dns = n.dns else w.VpnDns s.routes n.dns s.dns

theorem configureTunnel_ok (havail : availableIface w.os n.names = some iface)
    (hproc : proc = w.launched iface ∨ proc = .tracker w.trackerPid) :
    Triple (w.configureTunnel serverIp reg iface proc) ((w.launch iface n).addProcess proc)
      (fun ctx s' => w.Connected n iface serverIp ctx s') fun _ _ => True := by
  obtain ⟨s, hs⟩ : ∃ s, s = (w.launch iface n).addProcess proc := ⟨_, rfl⟩
  rw [← hs]
  have hproceeds : ∀ undo step text, Triple (w.orCleanup undo (w.failing step text)) s
      (fun _ s' => s' = s) fun _ _ => True := fun _ _ _ =>
    Triple.guarded (failing_spec (fun _ => rfl) fun _ _ _ => trivial)
  refine Triple.bind_eq (hproceeds _ _ _) fun _ => ?_
  refine Triple.bind_eq (hproceeds _ _ _) fun _ => ?_
  refine Triple.bind_and (t := s)
    (P := fun found => findUapiSocketForHint w.sockets iface = some found) (Triple.guarded ?_) ?_
  · refine Triple.bind_eq (failing_spec (fun _ => rfl) fun _ _ _ => trivial) fun _ => ?_
    split
    · rename_i found hfound
      exact Triple.of_pure ⟨rfl, hfound⟩
    · exact Triple.of_throw trivial
  intro uapiIface hsocket
  refine Triple.bind_eq (hproceeds _ _ _) fun _ => ?_
  refine Triple.bind (Triple.guarded configureInterfaceIp_ok) fun _ s₁ h₁ => ?_
  have hroutes : s₁.routes = n.routes := h₁.routes.trans (hs ▸ rfl)
  have hdns : s₁.dns = n.dns := h₁.dns.trans (hs ▸ rfl)
  refine Triple.bind_and (t := s₁) (P := fun gateway => w.defaultGateway n.routes = some gateway)
    (Triple.guarded ?_) ?_
  · refine Triple.bind_eq (failing_spec (fun _ => rfl) fun _ _ _ => trivial) fun _ => ?_
    refine Triple.bind_and (t := s₁) (P := fun a => a = s₁) (show _ ∧ _ from ⟨rfl, rfl⟩) ?_
    rintro _ rfl
    rw [hroutes]
    split
    · rename_i gateway hgateway
      exact Triple.of_pure ⟨rfl, hgateway⟩
    · exact Triple.of_throw trivial
  intro gateway hgateway
  refine Triple.bind_and (Triple.guarded saveOriginalDns_ok) fun saved hsaved => ?_
  refine Triple.bind (Triple.guarded configureFullTunnel_ok) fun _ s₂ h₂ => ?_
  have hconnected : ∀ dns, (if w.useSplitTunnel serverIp then dns = n.dns
        else w.VpnDns s₂.routes n.dns dns) →
      w.Connected n iface serverIp ⟨uapiIface, proc, gateway, saved, serverIp⟩ { s₂ with dns } :=
    fun dns h =>
      { available := havail
        socket := hsocket
        proc := hproc
        gateway := hgateway
        saved := by rw [← hroutes, ← hdns]; exact hsaved
        server := rfl
        processes := h₂.processes.trans (h₁.processes.trans (hs ▸ rfl))
        names := h₂.names.trans (h₁.names.trans (by
          simp [hs, Net.names, launch, Net.addInterface, Net.addProcess]))
        routes := h₂.routes.trans (by rw [hroutes])
        rules := h₂.rules.trans (by rw [h₁.rules, hs]; rfl)
        dns := h }
  by_cases hsplit : w.useSplitTunnel serverIp = true
  · simp only [if_pos hsplit] at hconnected ⊢
    refine Triple.bind_eq (t := s₂) (Triple.guarded (Triple.of_pure rfl)) fun _ => ?_
    exact Triple.of_pure (hconnected _ (h₂.dns.trans hdns))
  · simp only [if_neg hsplit] at hconnected ⊢
    refine Triple.bind (Triple.guarded setVpnDns_ok) ?_
    rintro _ t ⟨dns, hvpn, ht⟩
    subst t
    refine Triple.of_pure (hconnected dns ?_)
    rw [← hdns, ← h₂.dns]
    exact hvpn

theorem establishTunnel_ok :
    Triple (w.establishTunnel serverIp reg) n
      (fun ctx s => ∃ iface, w.Connected (w.killStaleClientBoringtun n) iface serverIp ctx s)
      fun _ _ => True := by
  have hproceeds : ∀ step text s, Triple (w.failing step text) s (fun _ s' => s' = s)
      fun _ _ => True := fun _ _ _ => failing_spec (fun _ => rfl) fun _ _ _ => trivial
  refine Triple.bind_eq (hproceeds _ _ _) fun _ => ?_
  refine Triple.bind_eq (t := w.killStaleClientBoringtun n) (Triple.of_modify rfl) fun _ => ?_
  generalize w.killStaleClientBoringtun n = n
  refine Triple.bind_and (t := n) (P := fun iface => availableIface w.os n.names = some iface)
    (findAvailableIface_spec (fun _ havail => ⟨rfl, havail⟩) fun _ _ => trivial) ?_
  intro iface havail
  refine Triple.bind_eq (hproceeds _ _ _) fun _ => ?_
  refine Triple.bind ((spawn_spec n).mono (fun _ _ h => h) fun _ _ _ => trivial) fun proc s hs => ?_
  split at hs
  · obtain ⟨rfl, hs⟩ := hs
    rw [hs]
    exact (configureTunnel_ok havail (.inr rfl)).mono (fun _ _ h => ⟨iface, h⟩) fun _ _ _ => trivial
  · obtain ⟨-, hproc, hs⟩ := hs
    have hlaunch : s = (w.launch iface n).addProcess proc := by
      refine hs.trans (Net.ext ?_ rfl rfl rfl rfl)
      rw [hproc]
      exact (Finset.insert_eq_of_mem (Finset.mem_insert_self _ _)).symm
    rw [hlaunch]
    exact (configureTunnel_ok havail (.inl hproc)).mono
      (fun _ _ h => ⟨iface, h⟩) fun _ _ _ => trivial

-- ---------------------------------------------------------------------------
-- What disconnecting does
-- ---------------------------------------------------------------------------

theorem restoreDns_frame (saved : OriginalDns) (s : Net) :
    ∃ dns, w.restoreDns saved s = { s with dns } := by
  cases saved with
  | service name servers =>
    simp only [restoreDns, tryRun]
    split
    · rename_i hrun
      have he := effect_of_runSudo hrun
      simp only [Command.effect] at he
      split at he <;> cases he
      exact ⟨_, rfl⟩
    · exact ⟨_, rfl⟩
  | resolvConfBackup text =>
    simp only [restoreDns]
    split
    · exact ⟨_, rfl⟩
    · exact ⟨_, rfl⟩

theorem mem_killChild :
    p ∈ (killChild proc s).processes ↔ p ∈ s.processes ∧ (p = proc → p.iface.isSome) := by
  cases proc with
  | tunnel pid iface root =>
    refine iff_self_and.mpr fun _ => ?_
    rintro rfl
    rfl
  | tracker pid =>
    simp only [killChild, Finset.mem_erase, and_comm (a := p ∈ s.processes)]
    refine and_congr_left fun _ => ⟨fun hne heq => absurd heq hne, ?_⟩
    rintro hkilled rfl
    cases hkilled rfl

theorem mem_release :
    p ∈ (w.release ctx s).processes ↔
      p ∈ (killChild ctx.boringtunProc s).processes ∧ w.reaches p = false := by
  obtain ⟨dns, hdns⟩ := restoreDns_frame (w := w) ctx.originalDns s
  simp only [release, killStaleClientBoringtun, Net.kill, Finset.mem_filter, mem_killChild,
    teardownInterface_processes, teardownRoutes_processes, hdns, Bool.not_eq_true']

theorem mem_tunnelRoutes {routes : Finset Route} (hundone : ¬ w.undone iface serverIp r)
    (hvia : r.via ≠ .dev iface) :
    r ∈ w.tunnelRoutes iface serverIp gateway routes ↔ r ∈ routes := by
  unfold tunnelRoutes
  split
  · exact mem_insert_dev hvia
  · cases hos : w.os with
    | macOS =>
      dsimp only
      rw [mem_insert_dev hvia, mem_insert_dev hvia, mem_insert_hostRoute hos hundone]
    | linux => exact mem_insert_dev hvia

theorem rulesLeft_tunnelRules {rules : Finset Rule} :
    w.rulesLeft (w.tunnelRules serverIp rules) = w.rulesLeft rules := by
  unfold tunnelRules
  split
  · rfl
  · cases hos : w.os with
    | macOS => rfl
    | linux => exact rulesLeft_insert hos

/-- The machine behind `disconnect`. -/
def disconnected (w : World) (ctx : ConnectionContext) (s : Net) : Net :=
  (w.disconnect.{0} ⟨some ctx⟩ s).2.2

/-- What is there behind `disconnect`. -/
structure Released (w : World) (n : Net) (serverIp : String) (ctx : ConnectionContext) (s : Net)
    (n' : Net) : Prop where
  processes : ∀ p ∈ n'.processes, p ∈ n.processes ∧ p.iface = none
  names : ctx.iface ∉ n'.names ∧ ∀ name ∈ n'.names, name ∈ n.names
  routes : ∀ r, r ∈ n'.routes ↔
    r ∈ n.routes ∧ r.via ≠ .dev ctx.iface ∧ ¬ w.undone ctx.iface serverIp r
  rules : n'.rules = w.rulesLeft n.rules
  dns : n'.dns = (w.restoreDns ctx.originalDns s).dns

/-- The processes that were there, but for the placeholder. -/
def others (n : Net) (ctx : ConnectionContext) : Finset Process :=
  n.processes.filter fun p => p = ctx.boringtunProc → p.iface.isSome

theorem Connected.killChild_processes (h : w.Connected n iface serverIp ctx s)
    (hp : t.processes = s.processes) :
    (killChild ctx.boringtunProc t).processes = insert (w.launched iface) (others n ctx) := by
  ext p
  have hlaunched : p = w.launched iface → p.iface.isSome := by
    rintro rfl
    rfl
  simp only [mem_killChild, hp, h.processes, Finset.mem_insert, others, Finset.mem_filter]
  rcases h.proc with hproc | hproc
  · rw [hproc]
    constructor
    · rintro ⟨heq | heq | hmem, hkilled⟩
      · exact .inl heq
      · exact .inl heq
      · exact .inr ⟨hmem, hkilled⟩
    · rintro (heq | ⟨hmem, hkilled⟩)
      · exact ⟨.inl heq, hlaunched⟩
      · exact ⟨.inr (.inr hmem), hkilled⟩
  · rw [hproc]
    constructor
    · rintro ⟨heq | heq | hmem, hkilled⟩
      · have hsome := hkilled heq
        rw [heq] at hsome
        cases hsome
      · exact .inl heq
      · exact .inr ⟨hmem, hkilled⟩
    · rintro (heq | ⟨hmem, hkilled⟩)
      · exact ⟨.inr (.inl heq), fun _ => hlaunched heq⟩
      · exact ⟨.inr (.inr hmem), hkilled⟩

theorem killChild_frame (proc : Process) (s : Net) :
    (killChild proc s).interfaces = s.interfaces ∧ (killChild proc s).routes = s.routes ∧
      (killChild proc s).rules = s.rules ∧ (killChild proc s).dns = s.dns := by
  unfold killChild
  split <;> exact ⟨rfl, rfl, rfl, rfl⟩

theorem Connected.released (hready : w.sudoReady = true) (hclean : w.NoStale n)
    (h : w.Connected n iface serverIp ctx s) : w.Released n serverIp ctx s (w.release ctx s) := by
  have hfree := availableIface_free h.available
  obtain ⟨dns, hdns⟩ := restoreDns_frame (w := w) ctx.originalDns s
  obtain ⟨hroutes, hrules, hinterfaces, hkept⟩ :=
    teardownRoutes_ready hready ctx.iface ctx.serverIp (w.restoreDns ctx.originalDns s)
  have hprocesses := teardownRoutes_processes (w := w) ctx.iface ctx.serverIp
    (w.restoreDns ctx.originalDns s)
  unfold release
  dsimp only
  generalize w.teardownRoutes ctx.iface ctx.serverIp (w.restoreDns ctx.originalDns s) = t at *
  rw [teardownInterface_ready hready]
  obtain ⟨t', ht'⟩ : ∃ t', t' = t.drop fun name => decide (name = ctx.iface) := ⟨_, rfl⟩
  rw [← ht']
  have hleft := h.killChild_processes (t := t') (by rw [ht']; exact hprocesses.trans (by rw [hdns]))
  have hothers : ∀ p ∈ others n ctx, p ∈ n.processes := fun p hp => (Finset.mem_filter.mp hp).1
  obtain ⟨hui, hur, huu, hud⟩ := killChild_frame ctx.boringtunProc t'
  generalize killChild ctx.boringtunProc t' = u at *
  subst ht'
  rw [killStale_launched (n := { n with processes := others n ctx }) hready
    (fun p hp => hclean p (hothers p hp)) hleft]
  have hnames : ∀ name, name ∈ t.names → name ∈ n.names ∨ name = iface := by
    intro name hname
    unfold Net.names at hname
    rw [hinterfaces, hdns] at hname
    change name ∈ s.names at hname
    rw [h.names] at hname
    simpa using hname
  constructor
  · intro p hp
    refine ⟨hothers p hp, ?_⟩
    have hreached := hclean p (hothers p hp)
    cases p with
    | tunnel pid iface root => simp [reaches, hready] at hreached
    | tracker pid => rfl
  · have hmem : ∀ name, name ∈ (u.drop fun name => decide (name = iface)).names →
        name ∈ t.names ∧ name ≠ ctx.iface ∧ name ≠ iface := by
      intro name hname
      obtain ⟨i, hi, rfl⟩ := List.mem_map.mp hname
      simp only [Net.drop, hui, List.mem_filter, Bool.not_eq_true', decide_eq_false_iff_not]
        at hi
      exact ⟨List.mem_map.mpr ⟨i, hi.1.1, rfl⟩, hi.1.2, hi.2⟩
    refine ⟨fun hname => (hmem _ hname).2.1 rfl, fun name hname => ?_⟩
    obtain ⟨ht, -, hne⟩ := hmem name hname
    exact (hnames name ht).resolve_right hne
  · intro r
    simp only [Net.drop, hur, Finset.mem_filter, through_eq, Bool.not_eq_true',
      decide_eq_false_iff_not, hroutes, hdns, h.server, h.routes]
    constructor
    · rintro ⟨⟨⟨hr, hundone⟩, hvia⟩, -⟩
      exact ⟨(mem_tunnelRoutes hundone hvia).mp hr, hvia, hundone⟩
    · rintro ⟨hr, hvia, hundone⟩
      exact ⟨⟨⟨(mem_tunnelRoutes hundone hvia).mpr hr, hundone⟩, hvia⟩, routes_free hfree hr⟩
  · change u.rules = _
    rw [huu]
    change t.rules = _
    rw [hrules, hdns]
    change w.rulesLeft s.rules = _
    rw [h.rules, rulesLeft_tunnelRules]
  · exact hud.trans hkept

-- ---------------------------------------------------------------------------
-- When the DNS settings are restored
-- ---------------------------------------------------------------------------

/-- The DNS settings are what they were, from a state without a stale tunnel. -/
def DnsKept (w : World) (n : Net) (iface serverIp : String) : Prop :=
  w.useSplitTunnel serverIp = true ∨
    match w.os with
    | .macOS =>
      -- the service is looked up again behind the routes
      let found := (w.defaultGateway n.routes).bind fun gateway =>
        w.primaryService (w.tunnelRoutes iface serverIp gateway n.routes)
      found = w.primaryService n.routes ∨ found.bind n.dns.services = some vpnServers
    | .linux =>
      let file := n.dns.resolvConf.getD ""
      if w.hasResolvconf then
        -- no record is deleted
        n.dns.records "tun.xelt" = some resolvRecord ∧
          (file = "" → w.update n.dns.records n.dns.resolvConf = n.dns.resolvConf)
      else file ≠ ""

theorem restoreDns_service (hready : w.sudoReady = true) :
    (w.restoreDns (.service name servers) s).dns =
      { s.dns with
        services :=
          if (s.dns.services name).isSome then Function.update s.dns.services name (some servers)
          else s.dns.services } := by
  simp only [restoreDns, tryRun_ready hready, Command.effect]
  split
  · rfl
  · rfl

theorem restoreDns_backup :
    (w.restoreDns (.resolvConfBackup text) s).dns =
      { s.dns with resolvConf := if text = "" then s.dns.resolvConf else some text } := by
  simp only [restoreDns]
  split
  · rfl
  · rfl

theorem restore_saved {services services' : String → Option (List String)}
    (h : services' name = services name) :
    (if (services' name).isSome then
        Function.update services' name (some ((services name).getD [])) else services') =
      services' := by
  split
  · rename_i hsome
    rw [h] at hsome
    obtain ⟨servers, hservers⟩ := Option.isSome_iff_exists.mp hsome
    rw [hservers, Option.getD_some, ← hservers, ← h, Function.update_eq_self]
  · rfl

theorem restore_file {file file' : Option String} :
    (if file.getD "" = "" then file' else some (file.getD "")) = file ↔
      (file.getD "" = "" → file' = file) := by
  by_cases hempty : file.getD "" = ""
  · rw [if_pos hempty]
    exact ⟨fun h _ => h, fun h => h hempty⟩
  · rw [if_neg hempty]
    refine iff_of_true ?_ fun h => absurd h hempty
    cases file with
    | none => exact absurd rfl hempty
    | some text => rfl

theorem restoreDns_unchanged (hready : w.sudoReady = true)
    (hsaved : w.SavedDns routes s.dns saved) : (w.restoreDns saved s).dns = s.dns := by
  cases saved with
  | service name servers =>
    obtain ⟨-, -, rfl⟩ := hsaved
    rw [restoreDns_service hready, restore_saved rfl]
  | resolvConfBackup text =>
    obtain ⟨-, rfl⟩ := hsaved
    rw [restoreDns_backup, restore_file.mpr fun _ => rfl]

theorem restore_services {services : String → Option (List String)}
    (hknown : (services service).isSome) :
    (let services' := Function.update services service (some vpnServers)
      if (services' name).isSome then
        Function.update services' name (some ((services name).getD [])) else services') = services ↔
      service = name ∨ services service = some vpnServers := by
  dsimp only
  by_cases hsame : service = name
  · subst hsame
    obtain ⟨servers, hservers⟩ := Option.isSome_iff_exists.mp hknown
    have hback : Function.update services service (some servers) = services := by
      rw [← hservers, Function.update_eq_self]
    simp [hservers, hback]
  · have hother : Function.update services service (some vpnServers) name = services name :=
      Function.update_of_ne (Ne.symm hsame) _ _
    rw [restore_saved hother, Function.update_eq_self_iff, or_iff_right hsame, eq_comm]

theorem Connected.dns_restored_iff (hready : w.sudoReady = true)
    (h : w.Connected n iface serverIp ctx s) :
    (w.restoreDns ctx.originalDns s).dns = n.dns ↔ w.DnsKept n ctx.iface serverIp := by
  have hdns := h.dns
  have hsaved := h.saved
  unfold DnsKept
  by_cases hsplit : w.useSplitTunnel serverIp = true
  · rw [if_pos hsplit] at hdns
    rw [← hdns] at hsaved
    rw [restoreDns_unchanged hready hsaved]
    exact iff_of_true hdns (.inl hsplit)
  rw [if_neg hsplit] at hdns
  rw [or_iff_right hsplit]
  unfold VpnDns at hdns
  cases hos : w.os with
  | macOS =>
    simp only [hos] at hdns
    obtain ⟨service, hservice, hknown, hdns⟩ := hdns
    rw [h.routes] at hservice
    cases horiginal : ctx.originalDns with
    | resolvConfBackup text =>
      rw [horiginal] at hsaved
      cases hos.symm.trans hsaved.1
    | service name servers =>
      rw [horiginal] at hsaved
      obtain ⟨-, hname, hservers⟩ := hsaved
      rw [restoreDns_service hready, hdns, hservers, h.gateway, hname]
      simp only [Option.bind_some, hservice, Option.some.injEq]
      rw [← restore_services hknown]
      constructor
      · exact fun heq => congrArg Dns.services heq
      · exact fun heq => by
          simp only at heq
          rw [heq]
  | linux =>
    simp only [hos] at hdns
    cases horiginal : ctx.originalDns with
    | service name servers =>
      rw [horiginal] at hsaved
      cases hos.symm.trans hsaved.1
    | resolvConfBackup text =>
      rw [horiginal] at hsaved
      obtain ⟨-, htext⟩ := hsaved
      rw [restoreDns_backup, htext]
      generalize n.dns = dns at hdns ⊢
      obtain ⟨services, file, records⟩ := dns
      dsimp only
      by_cases hresolvconf : w.hasResolvconf = true
      · rw [if_pos hresolvconf] at hdns ⊢
        rw [hdns, Dns.mk.injEq, restore_file, Function.update_eq_self_iff]
        constructor
        · rintro ⟨-, hfile, hrecord⟩
          rw [Function.update_eq_self_iff.mpr hrecord] at hfile
          exact ⟨hrecord.symm, hfile⟩
        · rintro ⟨hrecord, hfile⟩
          rw [Function.update_eq_self_iff.mpr hrecord.symm]
          exact ⟨rfl, hfile, hrecord.symm⟩
      · rw [if_neg hresolvconf] at hdns ⊢
        rw [hdns, Dns.mk.injEq, restore_file]
        constructor
        · rintro ⟨-, hfile, -⟩ hempty
          rw [← hfile hempty] at hempty
          have hne : vpnResolvConf ≠ "" := by decide
          exact hne hempty
        · exact fun hfile => ⟨rfl, fun hempty => absurd hempty hfile, rfl⟩

-- ---------------------------------------------------------------------------
-- When everything is restored
-- ---------------------------------------------------------------------------

/-- The DNS settings, the routes and the rules are as before, and no interface
and no process of the tunnel is there. -/
structure Restored (n : Net) (iface : String) (s : Net) : Prop where
  dns : s.dns = n.dns
  routes : s.routes = n.routes
  rules : s.rules = n.rules
  interfaces : iface ∉ s.names ∧ ∀ name ∈ s.names, name ∈ n.names
  processes : ∀ p ∈ s.processes, p ∈ n.processes ∧ p.iface = none

def foundIface (w : World) (n : Net) : Option String :=
  (availableIface w.os (w.killStaleClientBoringtun n).names).bind
    (findUapiSocketForHint w.sockets)

/-- Connecting and disconnecting through this interface restores the state. -/
structure Restores (w : World) (n : Net) (iface serverIp : String) : Prop where
  ready : w.sudoReady = true
  routes : ∀ r ∈ n.routes, r.through (n.interfacesOf w.reaches) = false ∧
    r.via ≠ .dev iface ∧ ¬ w.undone iface serverIp r
  rules : w.os = .linux → notFwmark ∉ n.rules ∧ suppressDefault ∉ n.rules
  dns : w.DnsKept (w.killStaleClientBoringtun n) iface serverIp

theorem noStale_killStale : w.NoStale (w.killStaleClientBoringtun n) := fun p hp => by
  simpa using (Finset.mem_filter.mp hp).2

theorem Connected.left_running (hready : w.sudoReady = false)
    (h : w.Connected n iface serverIp ctx s) :
    w.launched iface ∈ (w.release ctx s).processes := by
  refine mem_release.mpr ⟨?_, by simp [reaches, launched, hready]⟩
  rw [h.killChild_processes rfl]
  exact Finset.mem_insert_self _ _

/-- The routes left are those from before exactly when none of them is deleted
with a stale tunnel, with the interface or in tearing down. -/
theorem Released.routes_eq_iff
    (h : w.Released (w.killStaleClientBoringtun n) serverIp ctx s n') :
    n'.routes = n.routes ↔ ∀ r ∈ n.routes, r.through (n.interfacesOf w.reaches) = false ∧
      r.via ≠ .dev ctx.iface ∧ ¬ w.undone ctx.iface serverIp r := by
  have hmem : ∀ r, r ∈ (w.killStaleClientBoringtun n).routes ↔
      r ∈ n.routes ∧ r.through (n.interfacesOf w.reaches) = false := fun r => by
    simp [killStaleClientBoringtun, Net.kill, Net.drop]
  constructor
  · intro heq r hr
    rw [← heq, h.routes, hmem] at hr
    exact ⟨hr.1.2, hr.2⟩
  · intro hspared
    ext r
    rw [h.routes, hmem]
    constructor
    · exact fun hr => hr.1.1
    · intro hr
      obtain ⟨hthrough, hkept⟩ := hspared r hr
      exact ⟨⟨hr, hthrough⟩, hkept⟩

theorem Released.all_iff
    (h : w.Released (w.killStaleClientBoringtun n) serverIp ctx s n') :
    Restored n ctx.iface n' ↔
      (w.restoreDns ctx.originalDns s).dns = n.dns ∧
        (∀ r ∈ n.routes, r.through (n.interfacesOf w.reaches) = false ∧
          r.via ≠ .dev ctx.iface ∧ ¬ w.undone ctx.iface serverIp r) ∧
        (w.os = .linux → notFwmark ∉ n.rules ∧ suppressDefault ∉ n.rules) := by
  have hrules : n'.rules = n.rules ↔ w.rulesLeft n.rules = n.rules := by
    rw [h.rules]
    rfl
  rw [← h.routes_eq_iff, ← rulesLeft_eq_iff, ← h.dns, ← hrules]
  constructor
  · exact fun hr => ⟨hr.dns, hr.routes, hr.rules⟩
  · rintro ⟨hdns, hroutes, hrules⟩
    refine ⟨hdns, hroutes, hrules, ⟨h.names.1, fun name hname => ?_⟩, fun p hp => ?_⟩
    · obtain ⟨i, hi, rfl⟩ := List.mem_map.mp (h.names.2 name hname)
      exact List.mem_map_of_mem (List.mem_filter.mp hi).1
    · obtain ⟨hmem, hiface⟩ := h.processes p hp
      exact ⟨(Finset.mem_filter.mp hmem).1, hiface⟩

/-- Disconnecting restores what was there before the call exactly when sudo
asks for no password, nothing from before is among what is torn down, and the
DNS settings are put back by what is restored. -/
theorem restored_iff {ctx : ConnectionContext}
    (h : exec (w.establishTunnel serverIp reg) n = (.ok ctx, s)) :
    Restored n ctx.iface (w.disconnected ctx s) ↔
      ∃ iface, w.foundIface n = some iface ∧ w.Restores n iface serverIp := by
  obtain ⟨iface, hconnected⟩ := establishTunnel_ok.ok h
  have hfound : w.foundIface n = some ctx.iface := by
    simp [foundIface, hconnected.available, hconnected.socket]
  change Restored n ctx.iface (w.release ctx s) ↔ _
  simp only [hfound, Option.some.injEq, exists_eq_left']
  cases hready : w.sudoReady with
  | false =>
    refine iff_of_false (fun hrestored => ?_) fun hrestores => ?_
    · cases (hrestored.processes _ (hconnected.left_running hready)).2
    · cases hready.symm.trans hrestores.ready
  | true =>
    rw [(hconnected.released hready noStale_killStale).all_iff]
    have hdns := hconnected.dns_restored_iff hready
    change _ = n.dns ↔ _ at hdns
    rw [hdns]
    constructor
    · rintro ⟨hdns, hroutes, hrules⟩
      exact ⟨hready, hroutes, hrules, hdns⟩
    · exact fun hr => ⟨hr.dns, hr.routes, hr.rules⟩

/-- The machine after connecting and disconnecting. -/
def cycle (w : World) (serverIp : String) (n : Net) : Option Net :=
  match exec (w.establishTunnel serverIp sampleRegistration) n with
  | (.ok ctx, s) => some (w.disconnected ctx s)
  | (.error _, _) => none

theorem of_cycle (h : w.cycle serverIp n = some n') :
    ∃ ctx s, exec (w.establishTunnel serverIp sampleRegistration) n = (.ok ctx, s) ∧
      w.disconnected ctx s = n' := by
  unfold cycle at h
  split at h
  · rename_i ctx s hexec
    exact ⟨ctx, s, hexec, Option.some.inj h⟩
  · cases h

def sampleDirect : World := sampleWorld .linux fun _ => none

theorem restored_iff_sample :
    ∃ ctx s, exec (sampleDirect.establishTunnel sampleServerIp sampleRegistration) sampleNet =
        (.ok ctx, s) ∧
      Restored sampleNet ctx.iface (sampleDirect.disconnected ctx s) := by
  have hcycle : (sampleDirect.cycle sampleServerIp sampleNet).isSome := by decide +kernel
  obtain ⟨n', hn'⟩ := Option.isSome_iff_exists.mp hcycle
  obtain ⟨ctx, s, hexec, -⟩ := of_cycle hn'
  refine ⟨ctx, s, hexec, (restored_iff hexec).mpr ⟨"wg0", by decide +kernel, rfl, ?_, ?_, ?_⟩⟩
  · intro r hr
    simp only [sampleNet, Finset.mem_insert, Finset.mem_singleton] at hr
    rcases hr with rfl | rfl
    · exact ⟨rfl, by simp [sampleGateway],
        by simp [undone, sampleDirect, sampleWorld, sampleGateway]⟩
    · exact ⟨by decide +kernel, by simp, by simp [undone, sampleDirect, sampleWorld]⟩
  · exact fun _ => ⟨Finset.notMem_empty _, Finset.notMem_empty _⟩
  · refine .inr ?_
    have hfile : (sampleDirect.killStaleClientBoringtun sampleNet).dns.resolvConf.getD "" ≠ "" := by
      decide +kernel
    exact hfile

def sampleRecorded : World := { sampleDirect with hasResolvconf := true }

/-- On macOS the half of the address space that goes through the tunnel is what
is found for the default route. -/
def sampleHalf : World :=
  { sampleWorld .macOS fun _ => none with
    defaultInterface := fun routes =>
      if ⟨.main, .net "0.0.0.0/1", .dev "utun9"⟩ ∈ routes then some "utun9"
      else if sampleGateway ∈ routes then some "en0" else none }

def sampleDemo : World := sampleWorld .macOS fun _ => none

def sampleLoopback : Net :=
  (sampleNet.addInterface ⟨"lo0", ["127.0.0.1"], true⟩).addRoute .main (.host "127.0.0.1") "lo0"
    (by decide +kernel)

/-- The record of the tunnel is left, the servers of the tunnel are left at
another service, and the loopback route is gone. -/
theorem not_restored :
    (∃ ctx s, exec (sampleRecorded.establishTunnel sampleServerIp sampleRegistration) sampleNet =
        (.ok ctx, s) ∧
      (sampleRecorded.disconnected ctx s).dns.records "tun.xelt" = some resolvRecord ∧
      ¬ Restored sampleNet ctx.iface (sampleRecorded.disconnected ctx s)) ∧
    (∃ ctx s, exec (sampleHalf.establishTunnel sampleServerIp sampleRegistration) sampleNet =
        (.ok ctx, s) ∧
      (sampleHalf.disconnected ctx s).dns.services "Wi-Fi" = some vpnServers ∧
      ¬ Restored sampleNet ctx.iface (sampleHalf.disconnected ctx s)) ∧
    ∃ ctx s, exec (sampleDemo.establishTunnel "127.0.0.1" sampleRegistration) sampleLoopback =
        (.ok ctx, s) ∧
      ⟨.main, .host "127.0.0.1", .dev "lo0"⟩ ∉
        (sampleDemo.disconnected ctx s).routes ∧
      ¬ Restored sampleLoopback ctx.iface (sampleDemo.disconnected ctx s) := by
  refine ⟨?_, ?_, ?_⟩
  · have hcycle : (sampleRecorded.cycle sampleServerIp sampleNet).map
        (fun n' => n'.dns.records "tun.xelt") = some (some resolvRecord) := by decide +kernel
    obtain ⟨n', hn', hrecord⟩ := Option.map_eq_some_iff.mp hcycle
    obtain ⟨ctx, s, hexec, rfl⟩ := of_cycle hn'
    refine ⟨ctx, s, hexec, hrecord, fun h => ?_⟩
    rw [h.dns] at hrecord
    cases hrecord
  · have hcycle : (sampleHalf.cycle sampleServerIp sampleNet).map
        (fun n' => n'.dns.services "Wi-Fi") = some (some vpnServers) := by decide +kernel
    obtain ⟨n', hn', hservers⟩ := Option.map_eq_some_iff.mp hcycle
    obtain ⟨ctx, s, hexec, rfl⟩ := of_cycle hn'
    refine ⟨ctx, s, hexec, hservers, fun h => ?_⟩
    rw [h.dns] at hservers
    revert hservers
    decide
  · have hcycle : (sampleDemo.cycle "127.0.0.1" sampleLoopback).map
        (fun n' => decide (⟨.main, .host "127.0.0.1", .dev "lo0"⟩ ∈ n'.routes)) = some false := by
      decide +kernel
    obtain ⟨n', hn', hroute⟩ := Option.map_eq_some_iff.mp hcycle
    obtain ⟨ctx, s, hexec, rfl⟩ := of_cycle hn'
    refine ⟨ctx, s, hexec, of_decide_eq_false hroute, fun h => ?_⟩
    rw [h.routes] at hroute
    revert hroute
    decide +kernel

end World

end Xelt.Client
