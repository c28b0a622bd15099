import Xelt.Client.Tunnel

/-!
# What tearing down undoes

What the commands leave alone, what ends with the tunnel process, and what
`teardown_interface` and `teardown_routes` remove.
-/

namespace Xelt.Client

open Fallible

-- ---------------------------------------------------------------------------
-- What commands leave alone
-- ---------------------------------------------------------------------------

namespace Command

variable {resolve : String → String} {cmd : Command} {n n' : Net}

theorem effect_processes (h : cmd.effect resolve n = some n') : n'.processes = n.processes := by
  cases cmd with
  | routeAddHost | routeDeleteNet | routeDeleteHost | ifconfigUp | ifconfigDown | ifconfigDestroy
  | setDnsServers | addrAdd | linkUp | linkDelete | routeAddNet | routeAdd | routeAddTable
  | routeDel | ruleAdd | ruleDelete | wgFwmark =>
    simp only [effect] at h
    split at h <;> cases h
    rfl
  | routeFlush =>
    cases h
    rfl

end Command

namespace World

variable {w : World} {n n' : Net} {cmd : Command}

theorem effect_of_runSudo (h : w.runSudo cmd n = .ok n') : cmd.effect w.resolve n = some n' := by
  unfold runSudo at h
  split at h
  · rename_i hn
    cases h
    unfold runSudoN at hn
    split at hn
    · rename_i heffect
      cases hn
      split at heffect
      · exact heffect
      · cases heffect
    · dsimp only at hn
      generalize (if w.sudoReady = true then trim (w.stderr cmd.args) else sudoPrompt) = msg at hn
      split at hn <;> cases hn
  · split at h
    · cases h
    · split at h
      · unfold runAsAdminMacos at h
        dsimp only at h
        split at h
        · split at h
          · rename_i heffect
            cases h
            exact heffect
          · cases h
        · cases h
      · cases h

theorem runSudo_of_effect (hready : w.sudoReady = true) (h : cmd.effect w.resolve n = some n') :
    w.runSudo cmd n = .ok n' := by
  simp [runSudo, runSudoN, hready, h]

theorem tryRun_ready (hready : w.sudoReady = true) :
    w.tryRun cmd n = (cmd.effect w.resolve n).getD n := by
  unfold tryRun
  cases heffect : cmd.effect w.resolve n with
  | some n' => simp [runSudo_of_effect hready heffect]
  | none =>
    cases hrun : w.runSudo cmd n with
    | error e => rfl
    | ok n' => cases heffect.symm.trans (effect_of_runSudo hrun)

theorem tryRun_processes : (w.tryRun cmd n).processes = n.processes := by
  unfold tryRun
  split
  · rename_i hrun
    exact Command.effect_processes (effect_of_runSudo hrun)
  · rfl

theorem failing_spec {Q : PUnit → Net → Prop} {E : Failure → Net → Prop}
    (hq : w.fails step = none → Q ⟨⟩ n)
    (he : ∀ failure, failure.step = step → (w.fails step).isSome → E failure n) :
    Triple (w.failing step text) n Q E := by
  unfold failing
  cases hf : w.fails step with
  | none => exact Triple.of_pure (hq hf)
  | some e => exact Triple.of_throw (he _ rfl (by simp [hf]))

theorem asRoot_spec {Q : PUnit → Net → Prop} {E : Failure → Net → Prop}
    (hq : ∀ n', cmd.effect w.resolve n = some n' → Q ⟨⟩ n')
    (he : ∀ failure, failure.step = step → E failure n) : Triple (w.asRoot step cmd) n Q E := by
  unfold asRoot
  refine Triple.bind (failing_spec (Q := fun _ s => s = n) (fun _ => rfl) fun f hf _ => he f hf) ?_
  rintro ⟨⟩ s rfl
  refine Triple.bind (Q := fun a s' => a = s ∧ s' = s) (E := E) ⟨rfl, rfl⟩ ?_
  rintro _ _ ⟨rfl, rfl⟩
  split
  · rename_i n' hrun
    exact hq n' (effect_of_runSudo hrun)
  · exact he _ rfl

theorem primaryNetworkService_spec {Q : String → Net → Prop} {E : Failure → Net → Prop}
    (hq : ∀ service, w.getPrimaryNetworkService s = .ok service → Q service s)
    (he : ∀ failure, failure.step = step → E failure s) :
    Triple (w.primaryNetworkService step text) s Q E := by
  refine Triple.bind (failing_spec (Q := fun _ s' => s' = s) (fun _ => rfl) fun f hf _ => he f hf)
    fun _ t ht => ?_
  subst t
  refine Triple.bind (Q := fun a s' => a = s ∧ s' = s) (E := E) ⟨rfl, rfl⟩ ?_
  rintro _ _ ⟨rfl, rfl⟩
  split
  · rename_i service hservice
    exact hq service hservice
  · exact he _ rfl

theorem findAvailableIface_spec {Q : String → Net → Prop} {E : Failure → Net → Prop}
    (hq : ∀ iface, availableIface w.os n.names = some iface → Q iface n)
    (he : ∀ failure, failure.step = .find → E failure n) : Triple w.findAvailableIface n Q E := by
  refine Triple.bind (failing_spec (Q := fun _ s => s = n) (fun _ => rfl) fun f hf _ => he f hf)
    fun _ t ht => ?_
  subst t
  refine Triple.bind (Q := fun a s => a = n ∧ s = n) (E := E) ⟨rfl, rfl⟩ ?_
  rintro _ _ ⟨rfl, rfl⟩
  split
  · rename_i iface havail
    exact hq iface havail
  · exact he _ rfl

theorem availableIface_free {os : Os} (h : availableIface os names = some iface) :
    iface ∉ names := by
  have hfree := List.find?_some h
  intro hmem
  unfold taken at hfree
  cases os with
  | macOS => simp [hmem] at hfree
  | linux =>
    simp only [Bool.not_eq_true', List.any_eq_false] at hfree
    exact hfree iface hmem (by simp)

-- ---------------------------------------------------------------------------
-- The processes
-- ---------------------------------------------------------------------------

/-- Nothing that the client would take for its own is running. -/
def NoStale (w : World) (n : Net) : Prop := ∀ p ∈ n.processes, w.reaches p = false

theorem teardownInterface_processes (iface : String) (n : Net) :
    (w.teardownInterface iface n).processes = n.processes := by
  unfold teardownInterface
  split <;> simp only [tryRun_processes]

theorem teardownRoutes_processes (iface serverIp : String) (n : Net) :
    (w.teardownRoutes iface serverIp n).processes = n.processes := by
  unfold teardownRoutes
  split <;> simp only [tryRun_processes]

-- ---------------------------------------------------------------------------
-- What ends with the tunnel process
-- ---------------------------------------------------------------------------

/-- What the machine has more than before is the tunnel process, its interface
and what goes through it. -/
structure OnIface (w : World) (n : Net) (iface : String) (s : Net) : Prop where
  processes : s.processes = insert (w.launched iface) n.processes
  interfaces : s.interfaces.filter (fun i => !decide (i.name = iface)) = n.interfaces
  routes : s.routes.filter (fun r => !r.through fun name => decide (name = iface)) = n.routes
  rules : s.rules = n.rules
  dns : s.dns = n.dns

theorem through_eq {r : Route} :
    (r.through fun name => decide (name = iface)) = decide (r.via = .dev iface) := by
  unfold Route.through
  cases r.via <;> simp

theorem routes_free {n : Net} (hfree : iface ∉ n.names) {r : Route} (hr : r ∈ n.routes) :
    r.via ≠ .dev iface := fun hvia => hfree (n.routed r hr iface hvia)

theorem launch_onIface (hfree : iface ∉ n.names) : w.OnIface n iface (w.launch iface n) where
  processes := rfl
  interfaces := by
    have hkeep : n.interfaces.filter (fun i => !decide (i.name = iface)) = n.interfaces :=
      List.filter_eq_self.mpr fun i hi => by
        have hne : i.name ≠ iface := fun h => hfree (List.mem_map.mpr ⟨i, hi, h⟩)
        simp [hne]
    simp [launch, Net.addInterface, Net.addProcess, hkeep]
  routes := Finset.filter_true_of_mem fun r hr => by
    simpa [through_eq] using routes_free hfree hr
  rules := rfl
  dns := rfl

theorem OnIface.drop (h : w.OnIface n iface s) :
    w.OnIface n iface (s.drop fun name => decide (name = iface)) where
  processes := h.processes
  interfaces := by simp [Net.drop, List.filter_filter, ← h.interfaces]
  routes := by simp [Net.drop, Finset.filter_filter, ← h.routes]
  rules := h.rules
  dns := h.dns

theorem filter_setInterface :
    (n.setInterface iface addrs up).interfaces.filter (fun i => !decide (i.name = iface)) =
      n.interfaces.filter fun i => !decide (i.name = iface) := by
  simp only [Net.setInterface, List.filter_map]
  have hcongr : n.interfaces.filter ((fun i : Interface => !decide (i.name = iface)) ∘ fun i =>
      if i.name = iface then { i with addrs := i.addrs ++ addrs, up := up.getD i.up } else i) =
      n.interfaces.filter fun i => !decide (i.name = iface) :=
    List.filter_congr fun i _ => by
      by_cases hi : i.name = iface <;> simp [hi]
  rw [hcongr]
  refine (List.map_congr_left fun i hi => ?_).trans (List.map_id _)
  have hne : i.name ≠ iface := by simpa using (List.mem_filter.mp hi).2
  simp [hne]

theorem OnIface.setInterface (h : w.OnIface n iface s) :
    w.OnIface n iface (s.setInterface iface addrs up) where
  processes := h.processes
  interfaces := filter_setInterface.trans h.interfaces
  routes := h.routes
  rules := h.rules
  dns := h.dns

/-- Of the processes only the launched one is reached. -/
theorem kill_launched {s : Net} {reached : Process → Bool}
    (hlaunched : reached (w.launched iface) = true)
    (hothers : ∀ p ∈ n.processes, reached p = false)
    (hp : s.processes = insert (w.launched iface) n.processes) :
    s.kill reached =
      { s.drop fun name => decide (name = iface) with processes := n.processes } := by
  have hgone : s.interfacesOf reached = fun name => decide (name = iface) := by
    funext name
    simp only [Net.interfacesOf, hp, Finset.mem_insert, decide_eq_decide]
    constructor
    · rintro ⟨p, rfl | hp, hreached, hp'⟩
      · exact (Option.some.inj hp').symm
      · rw [hothers p hp] at hreached
        cases hreached
    · rintro rfl
      exact ⟨w.launched name, .inl rfl, hlaunched, rfl⟩
  have hprocesses : (s.processes.filter fun p => !reached p) = n.processes := by
    rw [hp, Finset.filter_insert, if_neg (by simp [hlaunched])]
    exact Finset.filter_true_of_mem fun p hp => by simp [hothers p hp]
  simp only [Net.kill, hgone, hprocesses]

theorem killStale_launched (hready : w.sudoReady = true) (hclean : w.NoStale n)
    (hp : s.processes = insert (w.launched iface) n.processes) :
    w.killStaleClientBoringtun s =
      { s.drop fun name => decide (name = iface) with processes := n.processes } :=
  kill_launched (by simp [reaches, launched, hready]) hclean hp

theorem OnIface.killed (hready : w.sudoReady = true) (hclean : w.NoStale n)
    (h : w.OnIface n iface s) : w.killStaleClientBoringtun s = n := by
  rw [killStale_launched hready hclean h.processes]
  exact Net.ext rfl h.interfaces h.routes h.rules h.dns

theorem OnIface.exited (hnew : w.launched iface ∉ n.processes) (h : w.OnIface n iface s) :
    w.exit iface s = n := by
  have hothers : ∀ p ∈ n.processes, decide (p = w.launched iface) = false := fun p hp =>
    decide_eq_false fun heq => hnew (heq ▸ hp)
  rw [exit, kill_launched (decide_eq_true rfl) hothers h.processes]
  exact Net.ext rfl h.interfaces h.routes h.rules h.dns

theorem killStale_clean (hclean : w.NoStale n) : w.killStaleClientBoringtun n = n := by
  have hgone : n.interfacesOf w.reaches = fun _ => false := by
    funext name
    refine decide_eq_false ?_
    rintro ⟨p, hp, hreached, -⟩
    rw [hclean p hp] at hreached
    cases hreached
  refine Net.ext ?_ ?_ ?_ rfl rfl
  · exact Finset.filter_true_of_mem fun p hp => by simp [hclean p hp]
  · simp [killStaleClientBoringtun, Net.kill, Net.drop, hgone]
  · simp only [killStaleClientBoringtun, Net.kill, Net.drop, hgone]
    exact Finset.filter_true_of_mem fun r _ => by
      unfold Route.through
      cases r.via <;> rfl

-- ---------------------------------------------------------------------------
-- What tearing down undoes
-- ---------------------------------------------------------------------------

theorem names_setInterface : (n.setInterface iface addrs up).names = n.names := by
  simp only [Net.names, Net.setInterface, List.map_map]
  refine List.map_congr_left fun i _ => ?_
  simp only [Function.comp_apply]
  split <;> rfl

theorem names_launch : uapiIface ∈ (w.launch iface n).names ↔
    uapiIface ∈ n.names ∨ uapiIface = iface := by
  simp [Net.names, launch, Net.addInterface, Net.addProcess]

theorem drop_absent (h : iface ∉ n.names) : n.drop (fun name => decide (name = iface)) = n := by
  refine Net.ext rfl ?_ ?_ rfl rfl
  · refine List.filter_eq_self.mpr fun i hi => ?_
    have hne : i.name ≠ iface := fun heq => h (List.mem_map.mpr ⟨i, hi, heq⟩)
    simp [hne]
  · exact Finset.filter_true_of_mem fun r hr => by simpa [through_eq] using routes_free h hr

theorem drop_setInterface :
    (n.setInterface iface addrs up).drop (fun name => decide (name = iface)) =
      n.drop fun name => decide (name = iface) :=
  Net.ext rfl filter_setInterface rfl rfl rfl

theorem teardownInterface_ready (hready : w.sudoReady = true) :
    w.teardownInterface iface n = n.drop fun name => decide (name = iface) := by
  have hdrop : ∀ (cmd : Command) (n : Net), cmd = .ifconfigDestroy iface ∨ cmd = .linkDelete iface →
      w.tryRun cmd n = n.drop fun name => decide (name = iface) := by
    rintro cmd n (rfl | rfl)
    · rw [tryRun_ready hready]
      by_cases h : iface ∈ n.names
      · simp [Command.effect, h]
      · simp [Command.effect, h, drop_absent h]
    · rw [tryRun_ready hready]
      by_cases h : iface ∈ n.names
      · simp [Command.effect, h]
      · simp [Command.effect, h, drop_absent h]
  unfold teardownInterface
  split
  · rw [hdrop _ _ (.inl rfl), tryRun_ready hready]
    by_cases h : iface ∈ n.names
    · simp [Command.effect, h, drop_setInterface]
    · simp [Command.effect, h]
  · rw [hdrop _ _ (.inr rfl)]

/-- The routes that `teardown_routes` deletes. -/
def undone (w : World) (iface serverIp : String) (r : Route) : Prop :=
  match w.os with
  | .macOS =>
    r.table = .main ∧
      (r.dst ∈ [.net vpnSubnet, .net "0.0.0.0/1", .net "128.0.0.0/1"] ∧ r.via = .dev iface ∨
        r.dst = .host (w.resolve serverIp))
  | .linux => r = ⟨.main, .net vpnSubnet, .dev iface⟩ ∨ r.table = .numbered 51820

theorem mem_insert_dev {routes : Finset Route} (hvia : r.via ≠ .dev iface) :
    r ∈ insert ⟨table, dst, .dev iface⟩ routes ↔ r ∈ routes := by
  rw [Finset.mem_insert, or_iff_right_iff_imp]
  rintro rfl
  exact absurd rfl hvia

theorem mem_insert_hostRoute {routes : Finset Route} (hos : w.os = .macOS)
    (hundone : ¬ w.undone iface serverIp r) :
    r ∈ insert ⟨.main, .host (w.resolve serverIp), .gateway gateway⟩ routes ↔ r ∈ routes := by
  rw [Finset.mem_insert, or_iff_right_iff_imp]
  rintro rfl
  simp [undone, hos] at hundone

theorem tryRun_routeDelete (hready : w.sudoReady = true)
    (h : cmd = .routeDeleteNet cidr iface ∨ cmd = .routeDel cidr iface) :
    w.tryRun cmd n = n.deleteRoutes fun r => r = ⟨.main, .net cidr, .dev iface⟩ := by
  have habsent (hr : ⟨.main, .net cidr, .dev iface⟩ ∉ n.routes) :
      n.deleteRoutes (fun r => r = ⟨.main, .net cidr, .dev iface⟩) = n := by
    refine Net.ext rfl rfl ?_ rfl rfl
    refine Finset.filter_true_of_mem fun r hmem => ?_
    have hne : r ≠ ⟨.main, .net cidr, .dev iface⟩ := fun heq => hr (heq ▸ hmem)
    simp [hne]
  rw [tryRun_ready hready]
  rcases h with rfl | rfl
  · by_cases hr : ⟨.main, .net cidr, .dev iface⟩ ∈ n.routes
    · simp [Command.effect, hr]
    · simp [Command.effect, hr, habsent hr]
  · by_cases hr : ⟨.main, .net cidr, .dev iface⟩ ∈ n.routes
    · simp [Command.effect, hr]
    · simp [Command.effect, hr, habsent hr]

theorem tryRun_routeDeleteHost (hready : w.sudoReady = true) :
    w.tryRun (.routeDeleteHost ip) n =
      n.deleteRoutes fun r => r.table = .main ∧ r.dst = .host (w.resolve ip) := by
  rw [tryRun_ready hready]
  by_cases hr : n.HasRoute .main (.host (w.resolve ip))
  · simp [Command.effect, hr]
  · simp only [Command.effect, if_neg hr, Option.getD_none]
    have hkeep : n.routes.filter (fun r => !decide (r.table = .main ∧
        r.dst = .host (w.resolve ip))) = n.routes :=
      Finset.filter_true_of_mem fun r hmem => by
        simp only [Bool.not_eq_true', decide_eq_false_iff_not]
        rintro ⟨ht, hd⟩
        exact hr ⟨r, hmem, ht, hd⟩
    exact Net.ext rfl rfl hkeep.symm rfl rfl

theorem tryRun_ruleDelete (hready : w.sudoReady = true) :
    w.tryRun (.ruleDelete rule) n = { n with rules := n.rules.erase rule } := by
  rw [tryRun_ready hready]
  by_cases hr : rule ∈ n.rules
  · simp [Command.effect, hr]
  · simp [Command.effect, hr]

theorem tryRun_routeFlush (hready : w.sudoReady = true) :
    w.tryRun (.routeFlush table) n = n.deleteRoutes fun r => r.table = .numbered table := by
  rw [tryRun_ready hready]
  rfl

/-- The rules that `teardown_routes` leaves. -/
def rulesLeft (w : World) (rules : Finset Rule) : Finset Rule :=
  match w.os with
  | .macOS => rules
  | .linux => (rules.erase notFwmark).erase suppressDefault

theorem rulesLeft_eq_iff {rules : Finset Rule} :
    w.rulesLeft rules = rules ↔ (w.os = .linux → notFwmark ∉ rules ∧ suppressDefault ∉ rules) := by
  unfold rulesLeft
  cases w.os with
  | macOS => simp
  | linux =>
    simp only [true_implies]
    constructor
    · intro h
      constructor
      · rw [← h]
        simp
      · rw [← h]
        simp
    · rintro ⟨hnot, hsuppress⟩
      rw [Finset.erase_eq_of_notMem hnot, Finset.erase_eq_of_notMem hsuppress]

theorem rulesLeft_insert {rules : Finset Rule} (hos : w.os = .linux) :
    w.rulesLeft (insert suppressDefault (insert notFwmark rules)) = w.rulesLeft rules := by
  simp only [rulesLeft, hos]
  ext rule
  simp only [Finset.mem_erase, Finset.mem_insert]
  tauto

theorem teardownRoutes_ready (hready : w.sudoReady = true) (iface serverIp : String) (n : Net) :
    (∀ r, r ∈ (w.teardownRoutes iface serverIp n).routes ↔
      r ∈ n.routes ∧ ¬ w.undone iface serverIp r) ∧
    (w.teardownRoutes iface serverIp n).rules = w.rulesLeft n.rules ∧
    (w.teardownRoutes iface serverIp n).interfaces = n.interfaces ∧
    (w.teardownRoutes iface serverIp n).dns = n.dns := by
  unfold teardownRoutes undone rulesLeft
  cases w.os with
  | macOS =>
    simp only [tryRun_routeDelete hready (.inl rfl), tryRun_routeDeleteHost hready]
    refine ⟨fun r => ?_, rfl, rfl, rfl⟩
    obtain ⟨table, dst, via⟩ := r
    simp only [Net.deleteRoutes, Finset.mem_filter, Bool.not_eq_true', decide_eq_false_iff_not,
      Route.mk.injEq, List.mem_cons, List.not_mem_nil, or_false]
    tauto
  | linux =>
    simp only [tryRun_routeDelete hready (.inr rfl), tryRun_ruleDelete hready,
      tryRun_routeFlush hready]
    refine ⟨fun r => ?_, rfl, rfl, rfl⟩
    simp only [Net.deleteRoutes, Finset.mem_filter, Bool.not_eq_true', decide_eq_false_iff_not]
    tauto

end World

end Xelt.Client
