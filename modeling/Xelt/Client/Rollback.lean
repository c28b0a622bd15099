import Xelt.Client.Teardown

/-!
# When a tunnel cannot be established

A step is undone only when it has been done as a whole, and what is started
to stand for a detached tunnel is not undone at all. For every step that can
fail it is told when the machine is left as it was found.
-/

namespace Xelt.Client

open Fallible

namespace World

variable {w : World} {n n' : Net} {cmd : Command}

-- ---------------------------------------------------------------------------
-- When everything is rolled back
-- ---------------------------------------------------------------------------

/-- boringtun is started behind a password prompt, and a placeholder for it. -/
def elevated (w : World) : Bool := (w.fails .sudoSpawn).isSome || w.exitLog.any needsPassword

/-- The socket that is found is the one of the interface that was asked for. -/
def OwnSocket (w : World) (n : Net) : Prop :=
  ∃ iface, availableIface w.os n.names = some iface ∧
    findUapiSocketForHint w.sockets iface = some iface

def FreshPids (w : World) (n : Net) : Prop :=
  ∀ p ∈ n.processes, p.pid ≠ w.pid ∧ p.pid ≠ w.trackerPid

def TableFree (n : Net) : Prop := ∀ r ∈ n.routes, r.table ≠ .numbered 51820

/-- The step that fails leaves nothing that is not undone. -/
def RolledBack (w : World) (n : Net) : Step → Prop
  | .key => True
  | .find | .binary | .log | .logClone | .exited | .prompt | .elevatedExited
  | .elevatedAlive => w.NoStale n
  | .sudoSpawn | .pid | .elevatedPgrep | .tracker => False
  | .alive | .ready | .uapi | .wireguard => w.NoStale n ∧ w.elevated = false
  | .address command => w.NoStale n ∧ w.elevated = false ∧ (command = 0 ∨ w.OwnSocket n)
  | .gateway | .saveDns | .service | .setDns =>
    w.NoStale n ∧ w.elevated = false ∧ w.OwnSocket n
  | .tunnel command =>
    -- of the commands for a full tunnel the first lasting one is not undone when a later one fails
    w.NoStale n ∧ w.elevated = false ∧ w.OwnSocket n ∧
      command ≤ match w.os with
        | .macOS => 0
        | .linux => 1
  | .resolvconf | .resolvOpen =>
    w.NoStale n ∧ w.elevated = false ∧ w.OwnSocket n ∧ TableFree n
  | .resolvWrite =>
    w.NoStale n ∧ w.elevated = false ∧ w.OwnSocket n ∧ TableFree n ∧ n.dns.resolvConf = some w.torn

def late : Step → Bool
  | .alive | .ready | .uapi | .wireguard | .address _ | .gateway | .saveDns | .tunnel _
  | .service | .setDns | .resolvconf | .resolvOpen | .resolvWrite => true
  | _ => false

theorem RolledBack.of_late (h : w.RolledBack n step) (hlate : late step = true) :
    w.NoStale n ∧ w.elevated = false := by
  cases step with
  | alive | ready | uapi | wireguard => exact h
  | address | gateway | saveDns | tunnel | service | setDns | resolvconf | resolvOpen
  | resolvWrite => exact ⟨h.1, h.2.1⟩
  | key | find | binary | log | logClone | sudoSpawn | exited | prompt | elevatedExited | pid
  | elevatedPgrep | elevatedAlive | tracker => cases hlate

-- ---------------------------------------------------------------------------
-- The processes of a failed call
-- ---------------------------------------------------------------------------

/-- The computation leaves the processes alone, and fails at a late step. -/
def Quiet (m : Vpn α) : Prop :=
  ∀ s, Triple m s (fun _ s' => s'.processes = s.processes) fun failure s' =>
    s'.processes = s.processes ∧ late failure.step = true

theorem Quiet.bind {m : Vpn α} {f : α → Vpn β} (hm : Quiet m) (hf : ∀ a, Quiet (f a)) :
    Quiet (m >>= f) := by
  intro s
  refine Triple.bind (hm s) fun a s' hs => (hf a s').mono ?_ ?_
  · intro b s'' h
    exact h.trans hs
  · rintro failure s'' ⟨h, hlate⟩
    exact ⟨h.trans hs, hlate⟩

theorem quiet_pure (a : α) : Quiet (pure a : Vpn α) := fun _ => rfl

theorem quiet_get : Quiet (get : Vpn Net) := fun _ => rfl

theorem quiet_modify {f : Net → Net} (h : ∀ n, (f n).processes = n.processes) :
    Quiet (modify f : Vpn PUnit) := h

theorem quiet_throw {failure : Failure} (h : late failure.step = true) :
    Quiet (throw failure : Vpn α) := fun _ => ⟨rfl, h⟩

theorem quiet_failing (h : late step = true) : Quiet (w.failing step text) :=
  fun _ => failing_spec (fun _ => rfl) fun _ hf _ => ⟨rfl, hf.symm ▸ h⟩

theorem quiet_asRoot (h : late step = true) : Quiet (w.asRoot step cmd) := fun _ =>
  asRoot_spec (fun _ he => Command.effect_processes he) fun _ hf => ⟨rfl, hf.symm ▸ h⟩

/-- A step whose cleanup begins with the processes: only those that are out of
reach are left when it fails. -/
def Cleaned (w : World) (m : Vpn α) : Prop :=
  ∀ s, Triple m s (fun _ s' => s'.processes = s.processes) fun failure s' =>
    (s'.processes = s.processes.filter fun p => !w.reaches p) ∧ late failure.step = true

theorem Cleaned.bind {m : Vpn α} {f : α → Vpn β} (hm : w.Cleaned m) (hf : ∀ a, w.Cleaned (f a)) :
    w.Cleaned (m >>= f) := by
  intro s
  refine Triple.bind (hm s) fun a s' hs => (hf a s').mono ?_ ?_
  · intro b s'' h
    exact h.trans hs
  · rintro failure s'' ⟨h, hlate⟩
    exact ⟨by rw [h, hs], hlate⟩

theorem Quiet.cleaned {m : Vpn α} {undo : List Undo} (hm : Quiet m)
    (hu : ∀ n, (unwind (undo.map w.undo) n).processes = n.processes) :
    w.Cleaned (w.orCleanup (.killClient :: undo) m) := by
  intro s
  refine Triple.guarded ((hm s).mono (fun _ _ h => h) ?_)
  rintro failure s' ⟨h, hlate⟩
  refine ⟨?_, hlate⟩
  change (w.killStaleClientBoringtun (unwind (undo.map w.undo) s')).processes = _
  simp only [killStaleClientBoringtun, Net.kill, hu, h]

theorem quiet_configureInterfaceIp : Quiet (w.configureInterfaceIp iface ipBare assignedIp) := by
  unfold configureInterfaceIp
  split
  · exact quiet_asRoot rfl
  · exact Quiet.bind (quiet_asRoot rfl) fun _ => quiet_asRoot rfl

theorem quiet_configureFullTunnel : Quiet (w.configureFullTunnel iface serverIp gateway) := by
  unfold configureFullTunnel
  split
  · split
    · exact quiet_asRoot rfl
    · exact Quiet.bind (quiet_asRoot rfl) fun _ => Quiet.bind (quiet_asRoot rfl) fun _ =>
        quiet_asRoot rfl
  · split
    · exact quiet_asRoot rfl
    · exact Quiet.bind (quiet_asRoot rfl) fun _ => Quiet.bind (quiet_asRoot rfl) fun _ =>
        Quiet.bind (quiet_asRoot rfl) fun _ => quiet_asRoot rfl

theorem quiet_primaryNetworkService (h : late step = true) :
    Quiet (w.primaryNetworkService step text) := by
  refine Quiet.bind (quiet_failing h) fun _ => Quiet.bind quiet_get fun n => ?_
  split
  · exact quiet_pure _
  · exact quiet_throw h

theorem quiet_saveOriginalDns : Quiet w.saveOriginalDns := by
  unfold saveOriginalDns
  split
  · exact Quiet.bind (quiet_primaryNetworkService rfl) fun _ => Quiet.bind quiet_get fun _ =>
      quiet_pure _
  · exact Quiet.bind quiet_get fun _ => quiet_pure _

theorem quiet_setVpnDns : Quiet w.setVpnDns := by
  unfold setVpnDns
  split
  · exact Quiet.bind (quiet_primaryNetworkService rfl) fun _ => quiet_asRoot rfl
  · split
    · exact Quiet.bind (quiet_failing rfl) fun _ => quiet_modify fun _ => rfl
    · refine Quiet.bind (quiet_failing rfl) fun _ => ?_
      split
      · exact Quiet.bind (quiet_modify fun _ => rfl) fun _ => quiet_throw rfl
      · exact quiet_modify fun _ => rfl

theorem cleaned_configureTunnel : w.Cleaned (w.configureTunnel serverIp reg iface proc) := by
  refine Cleaned.bind ((quiet_failing rfl).cleaned fun _ => rfl) fun _ => ?_
  refine Cleaned.bind ((quiet_failing rfl).cleaned fun _ => rfl) fun _ => ?_
  refine Cleaned.bind (Quiet.cleaned ?_ fun _ => rfl) fun uapiIface => ?_
  · refine Quiet.bind (quiet_failing rfl) fun _ => ?_
    split
    · exact quiet_pure _
    · exact quiet_throw rfl
  refine Cleaned.bind ((quiet_failing rfl).cleaned fun _ => rfl) fun _ => ?_
  refine Cleaned.bind (quiet_configureInterfaceIp.cleaned fun _ => rfl) fun _ => ?_
  have hiface : ∀ n, (unwind ([Undo.teardownInterface uapiIface].map w.undo) n).processes =
      n.processes := teardownInterface_processes _
  refine Cleaned.bind (Quiet.cleaned ?_ hiface) fun gateway => ?_
  · refine Quiet.bind (quiet_failing rfl) fun _ => Quiet.bind quiet_get fun n => ?_
    split
    · exact quiet_pure _
    · exact quiet_throw rfl
  refine Cleaned.bind (quiet_saveOriginalDns.cleaned hiface) fun dns => ?_
  refine Cleaned.bind (quiet_configureFullTunnel.cleaned hiface) fun _ => ?_
  refine Cleaned.bind (Quiet.cleaned ?_ ?_) fun _ => ?_
  · split
    · exact quiet_pure _
    · exact quiet_setVpnDns
  · intro n
    exact (teardownInterface_processes _ _).trans (teardownRoutes_processes _ _ n)
  · intro s
    rfl

-- ---------------------------------------------------------------------------
-- The launch of boringtun
-- ---------------------------------------------------------------------------

/-- boringtun has not been started or has ended by itself, or it has been
started and is not looked after. -/
def SpawnFailed (w : World) (iface : String) (n : Net) (failure : Failure) (n' : Net) : Prop :=
  (n' = n ∨ n' = w.exit iface (w.launch iface n)) ∧
      (∀ n, w.RolledBack n failure.step ↔ w.NoStale n) ∨
    n' = w.launch iface n ∧ ∀ n, ¬ w.RolledBack n failure.step

theorem spawnFailed_before {failure : Failure} (h : failure.step = step)
    (hs : ∀ n, w.RolledBack n step ↔ w.NoStale n) : w.SpawnFailed iface n failure n :=
  .inl ⟨.inl rfl, h.symm ▸ hs⟩

theorem spawnFailed_behind {failure : Failure} (h : failure.step = step)
    (hs : ∀ n, ¬ w.RolledBack n step) : w.SpawnFailed iface n failure (w.launch iface n) :=
  .inr ⟨rfl, h.symm ▸ hs⟩

theorem failing_before (n : Net) (text : String → String)
    (hs : ∀ n, w.RolledBack n step ↔ w.NoStale n) :
    Triple (w.failing step text) n (fun _ s => s = n) (w.SpawnFailed iface n) :=
  failing_spec (fun _ => rfl) fun _ hf _ => spawnFailed_before hf hs

theorem failing_behind (n : Net) (text : String → String) (hs : ∀ n, ¬ w.RolledBack n step) :
    Triple (w.failing step text) (w.launch iface n) (fun _ s => s = w.launch iface n)
      (w.SpawnFailed iface n) :=
  failing_spec (fun _ => rfl) fun _ hf _ => spawnFailed_behind hf hs

theorem checkElevated_spec (n : Net) :
    Triple (w.checkElevated iface) (w.launch iface n) (fun _ s => s = w.launch iface n)
      (w.SpawnFailed iface n) := by
  refine Triple.bind_eq (failing_behind n _ fun _ => id) fun _ => ?_
  split
  · refine Triple.bind_eq (t := w.exit iface (w.launch iface n)) (Triple.of_modify rfl) fun _ => ?_
    exact Triple.of_throw (.inl ⟨.inr rfl, fun _ => Iff.rfl⟩)
  · exact Triple.of_pure rfl

theorem spawnElevated_spec (n : Net) :
    Triple (w.spawnClientBoringtunElevated iface) n
      (fun proc n' => proc = .tracker w.trackerPid ∧
        n' = (w.launch iface n).addProcess (.tracker w.trackerPid))
      (w.SpawnFailed iface n) := by
  unfold spawnClientBoringtunElevated
  split
  · exact Triple.of_throw (spawnFailed_before rfl fun _ => Iff.rfl)
  · refine Triple.bind_eq (failing_before n _ fun _ => Iff.rfl) fun _ => ?_
    refine Triple.bind_eq (failing_before n _ fun _ => Iff.rfl) fun _ => ?_
    refine Triple.bind_eq (t := w.launch iface n) (Triple.of_modify rfl) fun _ => ?_
    refine Triple.bind_eq (failing_behind n _ fun _ => id) fun _ => ?_
    refine Triple.bind_eq (checkElevated_spec n) fun _ => ?_
    refine Triple.bind_eq (failing_behind n _ fun _ => id) fun _ => ?_
    exact Triple.bind_eq (Triple.of_modify rfl) fun _ => Triple.of_pure ⟨rfl, rfl⟩

theorem spawn_spec (n : Net) :
    Triple (w.spawnClientBoringtun iface) n
      (fun proc n' =>
        if w.elevated then
          proc = .tracker w.trackerPid ∧ n' = (w.launch iface n).addProcess (.tracker w.trackerPid)
        else w.sudoReady = true ∧ proc = w.launched iface ∧ n' = w.launch iface n)
      (w.SpawnFailed iface n) := by
  refine Triple.bind_eq (failing_before n _ fun _ => Iff.rfl) fun _ => ?_
  refine Triple.bind_eq (failing_before n _ fun _ => Iff.rfl) fun _ => ?_
  have hprompted : ∀ {Q : Process → Net → Prop}, w.elevated = true →
      Triple (w.spawnClientBoringtunElevated iface) n
        (fun proc n' =>
          if w.elevated then
            proc = .tracker w.trackerPid ∧
              n' = (w.launch iface n).addProcess (.tracker w.trackerPid)
          else Q proc n')
        (w.SpawnFailed iface n) := by
    intro Q helevated
    refine (spawnElevated_spec n).mono (fun proc n' h => ?_) fun _ _ h => h
    rw [if_pos helevated]
    exact h
  split
  · rename_i hspawn
    exact hprompted (by simp [elevated, hspawn])
  · rename_i hspawn
    split
    · rename_i log hlog
      split
      · rename_i hpassword
        exact hprompted (by simp [elevated, hlog, hpassword])
      · split
        · exact Triple.of_throw (spawnFailed_before rfl fun _ => Iff.rfl)
        · exact Triple.of_throw (spawnFailed_before rfl fun _ => Iff.rfl)
    · rename_i hlog
      have hready : w.sudoReady = true := by
        unfold exitLog at hlog
        split at hlog
        · assumption
        · cases hlog
      have helevated : w.elevated = false := by simpa [elevated, hlog] using hspawn
      refine Triple.bind_eq (Triple.of_modify rfl) fun _ => ?_
      refine Triple.of_pure ?_
      rw [if_neg (by simp [helevated])]
      exact ⟨hready, rfl, rfl⟩

-- ---------------------------------------------------------------------------
-- What a late step leaves
-- ---------------------------------------------------------------------------

/-- The interface found has an address; so far nothing else has changed. -/
structure Addressed (w : World) (n : Net) (iface uapiIface : String) (s : Net) : Prop where
  processes : s.processes = insert (w.launched iface) n.processes
  routes : s.routes = n.routes
  rules : s.rules = n.rules
  dns : s.dns = n.dns
  own : uapiIface = iface → w.OnIface n iface s
  other : uapiIface ≠ iface → uapiIface ∈ n.names

/-- The call has been left with what was there before exactly when the step
that failed is one of those. -/
def Leaves (w : World) (n : Net) (failure : Failure) (n' : Net) : Prop :=
  n' = n ↔ w.RolledBack n failure.step

section
variable {uapiIface : String}

/-- An address more on another interface stays there. -/
theorem killStale_address (hready : w.sudoReady = true) (hclean : w.NoStale n)
    (hfree : iface ∉ n.names) (hother : uapiIface ≠ iface) {i : Interface}
    (hi : i ∈ (w.launch iface n).interfaces) (hname : i.name = uapiIface) :
    w.killStaleClientBoringtun ((w.launch iface n).setInterface uapiIface [cidr] none) ≠ n := by
  intro heq
  have hi' : i ∈ n.interfaces := by
    rcases List.mem_append.mp hi with hi | hi
    · exact hi
    · obtain rfl := List.mem_singleton.mp hi
      exact absurd hname.symm hother
  have hinterfaces := congrArg Net.interfaces heq
  rw [killStale_launched hready hclean (show _ = insert (w.launched iface) n.processes from rfl)]
    at hinterfaces
  have hkeep : ((n.interfaces.map fun j : Interface =>
      if j.name = uapiIface then { j with addrs := j.addrs ++ [cidr] } else j).filter
        fun j => !decide (j.name = iface)) = n.interfaces.map fun j =>
      if j.name = uapiIface then { j with addrs := j.addrs ++ [cidr] } else j := by
    refine List.filter_eq_self.mpr fun j hj => ?_
    obtain ⟨k, hk, rfl⟩ := List.mem_map.mp hj
    have hne : k.name ≠ iface := fun h => hfree (List.mem_map.mpr ⟨k, hk, h⟩)
    split <;> simp [hne]
  have hmap : (n.interfaces.map fun j : Interface =>
      if j.name = uapiIface then { j with addrs := j.addrs ++ [cidr] } else j) =
      n.interfaces.map id := by
    simpa [Net.drop, Net.setInterface, launch, Net.addInterface, Net.addProcess, hkeep,
      Ne.symm hother] using hinterfaces
  have hsame := List.map_inj_left.mp hmap i hi'
  simp only [if_pos hname, id_eq] at hsame
  have haddrs := congrArg Interface.addrs hsame
  simp at haddrs

/-- boringtun is launched with sudo where no tunnel is running, and this socket
is found. -/
structure Plain (w : World) (n : Net) (iface uapiIface : String) : Prop where
  ready : w.sudoReady = true
  clean : w.NoStale n
  elevated : w.elevated = false
  avail : availableIface w.os n.names = some iface
  socket : findUapiSocketForHint w.sockets iface = some uapiIface

theorem Plain.free (h : w.Plain n iface uapiIface) : iface ∉ n.names := availableIface_free h.avail

theorem Plain.owns (h : w.Plain n iface uapiIface) : w.OwnSocket n ↔ uapiIface = iface := by
  constructor
  · rintro ⟨iface', havail, hsocket⟩
    cases h.avail.symm.trans havail
    exact Option.some.inj (h.socket.symm.trans hsocket)
  · rintro rfl
    exact ⟨uapiIface, h.avail, h.socket⟩

theorem Addressed.setInterface (h : w.Addressed n iface uapiIface s) :
    w.Addressed n iface uapiIface (s.setInterface uapiIface addrs up) where
  processes := h.processes
  routes := h.routes
  rules := h.rules
  dns := h.dns
  own heq := by
    have hown := h.own heq
    subst heq
    exact hown.setInterface
  other := h.other

theorem addressed_launch (hplain : w.Plain n iface uapiIface)
    (hmem : uapiIface ∈ (w.launch iface n).names) :
    w.Addressed n iface uapiIface (w.launch iface n) where
  processes := rfl
  routes := rfl
  rules := rfl
  dns := rfl
  own _ := launch_onIface hplain.free
  other h := (names_launch.mp hmem).resolve_right h

theorem configureInterfaceIp_spec (hplain : w.Plain n iface uapiIface) :
    Triple (w.configureInterfaceIp uapiIface ipBare assignedIp) (w.launch iface n)
      (fun _ s => w.Addressed n iface uapiIface s)
      (fun failure s => w.Leaves n failure (w.killStaleClientBoringtun s)) := by
  have hlaunch := launch_onIface (w := w) hplain.free
  have hfirst : ∀ failure, failure.step = .address 0 →
      w.Leaves n failure (w.killStaleClientBoringtun (w.launch iface n)) := by
    intro failure hstep
    refine iff_of_true (hlaunch.killed hplain.ready hplain.clean) ?_
    rw [hstep]
    exact ⟨hplain.clean, hplain.elevated, .inl rfl⟩
  unfold configureInterfaceIp
  split
  · refine asRoot_spec (fun s he => ?_) hfirst
    simp only [Command.effect] at he
    split at he <;> cases he
    rename_i hmem
    exact (addressed_launch hplain hmem).setInterface
  · dsimp only
    generalize (if '/' ∈ assignedIp.toList then assignedIp else assignedIp ++ "/32") = cidr
    refine Triple.bind_and (t := (w.launch iface n).setInterface uapiIface [cidr] none)
      (P := fun _ => ∃ i ∈ (w.launch iface n).interfaces, i.name = uapiIface)
      (asRoot_spec (fun s he => ?_) hfirst) ?_
    · simp only [Command.effect] at he
      split at he <;> cases he
      rename_i hex
      obtain ⟨i, hi, hname, -⟩ := hex
      exact ⟨rfl, i, hi, hname⟩
    · rintro _ ⟨i, hi, hname⟩
      have hmem : uapiIface ∈ (w.launch iface n).names := List.mem_map.mpr ⟨i, hi, hname⟩
      refine asRoot_spec (fun s he => ?_) fun failure hstep => ?_
      · simp only [Command.effect] at he
        split at he <;> cases he
        exact (addressed_launch hplain hmem).setInterface.setInterface
      · rw [Leaves, hstep]
        simp only [RolledBack, hplain.owns, hplain.clean, hplain.elevated, true_and,
          Nat.one_ne_zero, false_or]
        constructor
        · intro heq
          by_contra hother
          exact killStale_address hplain.ready hplain.clean hplain.free hother hi hname heq
        · rintro rfl
          exact hlaunch.setInterface.killed hplain.ready hplain.clean

theorem not_mem_names_cleaned {s : Net} :
    uapiIface ∉ (w.killStaleClientBoringtun (s.drop fun name =>
      decide (name = uapiIface))).names := by
  intro hmem
  obtain ⟨i, hi, hname⟩ := List.mem_map.mp hmem
  simp only [killStaleClientBoringtun, Net.kill, Net.drop, List.mem_filter] at hi
  simp [hname] at hi

theorem Addressed.cleaned (hplain : w.Plain n iface uapiIface)
    (h : w.Addressed n iface uapiIface s) :
    w.killStaleClientBoringtun (w.teardownInterface uapiIface s) = n ↔ uapiIface = iface := by
  rw [teardownInterface_ready hplain.ready]
  constructor
  · intro heq
    by_contra hother
    have hmem := h.other hother
    rw [← heq] at hmem
    exact not_mem_names_cleaned hmem
  · rintro rfl
    exact (h.own rfl).drop.killed hplain.ready hplain.clean

/-- The commands for a full tunnel have been carried out. -/
structure Routed (w : World) (n : Net) (uapiIface serverIp : String) (s : Net) : Prop where
  routes : ∀ r, ¬ w.undone uapiIface serverIp r → r.via ≠ .dev uapiIface →
    (r ∈ s.routes ↔ r ∈ n.routes)
  host : w.os = .macOS → ¬ n.HasRoute .main (.host (w.resolve serverIp))
  rules : w.rulesLeft s.rules = n.rules

/-- Routes through a gateway and rules are not the concern of the process and
its interface. -/
theorem mem_routes_cleaned (hready : w.sudoReady = true) (uapiIface : String)
    (hvia : r.via = .gateway ip) :
    r ∈ (w.killStaleClientBoringtun (w.teardownInterface uapiIface s)).routes ↔ r ∈ s.routes := by
  rw [teardownInterface_ready hready]
  simp [killStaleClientBoringtun, Net.kill, Net.drop, Route.through, hvia]

theorem rules_cleaned (hready : w.sudoReady = true) (uapiIface : String) :
    (w.killStaleClientBoringtun (w.teardownInterface uapiIface s)).rules = s.rules := by
  rw [teardownInterface_ready hready]
  rfl

theorem Routed.cleaned (hplain : w.Plain n iface uapiIface)
    (ha : w.Addressed n iface uapiIface s)
    (h : w.Routed n uapiIface serverIp s') (hp : s'.processes = s.processes)
    (hi : s'.interfaces = s.interfaces) :
    w.killStaleClientBoringtun (w.teardownInterface uapiIface
        (w.teardownRoutes uapiIface serverIp s')) = n ↔
      uapiIface = iface ∧ (w.os = .linux → TableFree n) ∧ s'.dns = n.dns := by
  obtain ⟨hroutes, hrules, hinterfaces, hdns⟩ :=
    teardownRoutes_ready hplain.ready uapiIface serverIp s'
  have hprocesses := teardownRoutes_processes (w := w) uapiIface serverIp s'
  generalize w.teardownRoutes uapiIface serverIp s' = t at *
  rw [teardownInterface_ready hplain.ready]
  constructor
  · intro heq
    have hown : uapiIface = iface := by
      by_contra hother
      have hmem := ha.other hother
      rw [← heq] at hmem
      exact not_mem_names_cleaned hmem
    refine ⟨hown, fun hlinux r hr htable => ?_, ?_⟩
    · rw [← heq] at hr
      simp only [killStaleClientBoringtun, Net.kill, Net.drop] at hr
      have hleft := (Finset.mem_filter.mp (Finset.mem_filter.mp hr).1).1
      exact ((hroutes r).mp hleft).2 (by simp [undone, hlinux, htable])
    · rw [← hdns, ← heq]
      rfl
  · rintro ⟨rfl, htable, hdns'⟩
    have hon : w.OnIface n uapiIface t :=
      { processes := by rw [hprocesses, hp, ha.processes]
        interfaces := by rw [hinterfaces, hi, (ha.own rfl).interfaces]
        routes := by
          ext r
          simp only [through_eq, Finset.mem_filter, hroutes, Bool.not_eq_true',
            decide_eq_false_iff_not]
          constructor
          · rintro ⟨⟨hr, hundone⟩, hvia⟩
            exact (h.routes r hundone hvia).mp hr
          · intro hr
            have hvia := routes_free hplain.free hr
            have hundone : ¬ w.undone uapiIface serverIp r := by
              unfold undone
              cases hos : w.os with
              | macOS =>
                rintro ⟨hmain, ⟨-, hdev⟩ | hhost⟩
                · exact hvia hdev
                · exact h.host hos ⟨r, hr, hmain, hhost⟩
              | linux =>
                rintro (rfl | htab)
                · exact hvia rfl
                · exact htable hos r hr htab
            exact ⟨⟨(h.routes r hundone hvia).mpr hr, hundone⟩, hvia⟩
        rules := by rw [hrules, h.rules]
        dns := by rw [hdns, hdns'] }
    exact hon.drop.killed hplain.ready hplain.clean

/-- The first commands for a full tunnel change nothing that stays. -/
theorem Addressed.leaves (hplain : w.Plain n iface uapiIface)
    (h : w.Addressed n iface uapiIface s) {failure : Failure}
    (hstep : failure.step = .tunnel command)
    (hle : command ≤ match w.os with
      | .macOS => 0
      | .linux => 1) :
    w.Leaves n failure (w.killStaleClientBoringtun (w.teardownInterface uapiIface s)) := by
  rw [Leaves, hstep, h.cleaned hplain, ← hplain.owns]
  exact ⟨fun h => ⟨hplain.clean, hplain.elevated, h, hle⟩, fun h => h.2.2.1⟩

theorem leaves_lasting {failure : Failure} (hstep : failure.step = .tunnel command)
    (hgt : ¬ command ≤ match w.os with
      | .macOS => 0
      | .linux => 1)
    (hne : w.killStaleClientBoringtun (w.teardownInterface uapiIface s) ≠ n) :
    w.Leaves n failure (w.killStaleClientBoringtun (w.teardownInterface uapiIface s)) := by
  rw [Leaves, hstep]
  exact iff_of_false hne fun h => hgt h.2.2.2

/-- The route to the server of a failed macOS call stays. -/
theorem hostRoute_stays (hplain : w.Plain n iface uapiIface) (gateway : String)
    (hnone : ¬ n.HasRoute .main (.host ip))
    (hr : ⟨.main, .host ip, .gateway gateway⟩ ∈ s.routes) :
    w.killStaleClientBoringtun (w.teardownInterface uapiIface s) ≠ n := by
  intro heq
  have hr := (mem_routes_cleaned hplain.ready uapiIface rfl).mpr hr
  rw [heq] at hr
  exact hnone ⟨_, hr, rfl, rfl⟩

/-- The rule of a failed Linux call stays. -/
theorem notFwmark_stays (hplain : w.Plain n iface uapiIface) (hnone : notFwmark ∉ n.rules)
    (hr : notFwmark ∈ s.rules) :
    w.killStaleClientBoringtun (w.teardownInterface uapiIface s) ≠ n := by
  intro heq
  rw [← rules_cleaned hplain.ready uapiIface, heq] at hr
  exact hnone hr

theorem routed_macOS (hos : w.os = .macOS) (ha : w.Addressed n iface uapiIface s)
    (hnone : ¬ n.HasRoute .main (.host (w.resolve serverIp))) (hmem hmem') :
    w.Routed n uapiIface serverIp
      (((s.addHostRoute (w.resolve serverIp) gateway).addRoute .main (.net "0.0.0.0/1") uapiIface
        hmem).addRoute .main (.net "128.0.0.0/1") uapiIface hmem') where
  routes r hundone hvia := by
    simp only [Net.addRoute, Net.addHostRoute, ha.routes]
    rw [mem_insert_dev hvia, mem_insert_dev hvia, mem_insert_hostRoute hos hundone]
  host _ := hnone
  rules := by
    change w.rulesLeft s.rules = n.rules
    rw [ha.rules, rulesLeft_eq_iff]
    exact fun h => by cases hos.symm.trans h

theorem routed_linux (hos : w.os = .linux) (ha : w.Addressed n iface uapiIface s)
    (hnone : notFwmark ∉ n.rules) (hmem)
    (hsuppress : suppressDefault ∉ insert notFwmark n.rules) :
    w.Routed n uapiIface serverIp
      { { s with rules := insert notFwmark n.rules }.addRoute (.numbered 51820) .default uapiIface
          hmem with rules := insert suppressDefault (insert notFwmark n.rules) } where
  routes r hundone hvia := by
    simp only [Net.addRoute, ha.routes]
    exact mem_insert_dev hvia
  host h := by cases hos.symm.trans h
  rules := by
    rw [rulesLeft_insert hos, rulesLeft_eq_iff]
    exact fun _ => ⟨hnone, fun h => hsuppress (Finset.mem_insert_of_mem h)⟩

theorem configureFullTunnel_spec (hplain : w.Plain n iface uapiIface)
    (ha : w.Addressed n iface uapiIface s) :
    Triple (w.configureFullTunnel uapiIface serverIp gateway) s
      (fun _ s' => s'.processes = s.processes ∧ s'.interfaces = s.interfaces ∧ s'.dns = n.dns ∧
        (w.useSplitTunnel serverIp = false → w.Routed n uapiIface serverIp s'))
      (fun failure s' => w.Leaves n failure
        (w.killStaleClientBoringtun (w.teardownInterface uapiIface s'))) := by
  unfold configureFullTunnel
  cases hos : w.os with
  | macOS =>
    by_cases hsplit : w.useSplitTunnel serverIp = true
    · simp only [if_pos hsplit]
      refine asRoot_spec (fun s' he => ?_) fun failure hstep =>
        ha.leaves hplain hstep (Nat.zero_le _)
      obtain ⟨hmem, rfl⟩ := Command.effect_routeAddNet he
      exact ⟨rfl, rfl, ha.dns, by simp [hsplit]⟩
    · simp only [if_neg hsplit]
      refine Triple.bind_and (t := s.addHostRoute (w.resolve serverIp) gateway)
        (P := fun _ => ¬ n.HasRoute .main (.host (w.resolve serverIp)))
        (asRoot_spec (fun s' he => ?_) fun failure hstep =>
          ha.leaves hplain hstep (Nat.zero_le _)) fun _ hnone => ?_
      · obtain ⟨hnone, rfl⟩ := Command.effect_routeAddHost he
        rw [Net.HasRoute, ha.routes] at hnone
        exact ⟨rfl, hnone⟩
      refine Triple.bind (Q := fun _ s' => ∃ hmem, s' =
        (s.addHostRoute (w.resolve serverIp) gateway).addRoute .main
          (.net "0.0.0.0/1") uapiIface hmem)
        (asRoot_spec (fun s' he => Command.effect_routeAddNet he) fun failure hstep => ?_) ?_
      · refine leaves_lasting hstep (by simp [hos]) (hostRoute_stays hplain gateway hnone ?_)
        exact Finset.mem_insert_self _ _
      rintro _ _ ⟨hmem, rfl⟩
      refine asRoot_spec (fun s' he => ?_) fun failure hstep => ?_
      · obtain ⟨hmem', rfl⟩ := Command.effect_routeAddNet he
        exact ⟨rfl, rfl, ha.dns, fun _ => routed_macOS hos ha hnone hmem hmem'⟩
      · refine leaves_lasting hstep (by simp [hos]) (hostRoute_stays hplain gateway hnone ?_)
        exact Finset.mem_insert_of_mem (Finset.mem_insert_self _ _)
  | linux =>
    by_cases hsplit : w.useSplitTunnel serverIp = true
    · simp only [if_pos hsplit]
      refine asRoot_spec (fun s' he => ?_) fun failure hstep =>
        ha.leaves hplain hstep (Nat.zero_le _)
      obtain ⟨hmem, rfl⟩ := Command.effect_routeAdd he
      exact ⟨rfl, rfl, ha.dns, by simp [hsplit]⟩
    · simp only [if_neg hsplit]
      refine Triple.bind_eq (asRoot_spec (fun s' he => Command.effect_wgFwmark he)
        fun failure hstep => ha.leaves hplain hstep (Nat.zero_le _)) fun _ => ?_
      refine Triple.bind_and (t := { s with rules := insert notFwmark n.rules })
        (P := fun _ => notFwmark ∉ n.rules) (asRoot_spec (fun s' he => ?_)
        fun failure hstep => ha.leaves hplain hstep (by simp [hos])) fun _ hnone => ?_
      · obtain ⟨hnone, rfl⟩ := Command.effect_ruleAdd he
        rw [ha.rules] at hnone ⊢
        exact ⟨rfl, hnone⟩
      refine Triple.bind (Q := fun _ s' => ∃ hmem, s' =
        { s with rules := insert notFwmark n.rules }.addRoute
          (.numbered 51820) .default uapiIface hmem)
        (asRoot_spec (fun s' he => Command.effect_routeAddTable he) fun failure hstep => ?_) ?_
      · refine leaves_lasting hstep (by simp [hos]) (notFwmark_stays hplain hnone ?_)
        exact Finset.mem_insert_self _ _
      rintro _ _ ⟨hmem, rfl⟩
      refine asRoot_spec (fun s' he => ?_) fun failure hstep => ?_
      · obtain ⟨hsuppress, rfl⟩ := Command.effect_ruleAdd he
        exact ⟨rfl, rfl, ha.dns, fun _ => routed_linux hos ha hnone hmem hsuppress⟩
      · refine leaves_lasting hstep (by simp [hos]) (notFwmark_stays hplain hnone ?_)
        exact Finset.mem_insert_self _ _

theorem setVpnDns_spec (hplain : w.Plain n iface uapiIface) (ha : w.Addressed n iface uapiIface s)
    (hr : w.Routed n uapiIface serverIp t) (hp : t.processes = s.processes)
    (hi : t.interfaces = s.interfaces) (hd : t.dns = n.dns) :
    Triple w.setVpnDns t (fun _ _ => True)
      (fun failure s' => w.Leaves n failure (w.killStaleClientBoringtun
        (w.teardownInterface uapiIface (w.teardownRoutes uapiIface serverIp s')))) := by
  have hmacOS : ∀ failure, w.os = .macOS → failure.step = .service ∨ failure.step = .setDns →
      w.Leaves n failure (w.killStaleClientBoringtun
        (w.teardownInterface uapiIface (w.teardownRoutes uapiIface serverIp t))) := by
    rintro failure hos hstep
    have hrolled : w.RolledBack n failure.step ↔ uapiIface = iface := by
      rw [← hplain.owns]
      rcases hstep with hstep | hstep <;> rw [hstep] <;>
        exact ⟨fun h => h.2.2, fun h => ⟨hplain.clean, hplain.elevated, h⟩⟩
    rw [Leaves, hrolled, hr.cleaned hplain ha hp hi]
    refine ⟨fun h => h.1, fun h => ⟨h, fun hlinux => ?_, hd⟩⟩
    cases hos.symm.trans hlinux
  have hlinux : ∀ failure, w.os = .linux →
      failure.step = .resolvconf ∨ failure.step = .resolvOpen →
      w.Leaves n failure (w.killStaleClientBoringtun
        (w.teardownInterface uapiIface (w.teardownRoutes uapiIface serverIp t))) := by
    rintro failure hos hstep
    have hrolled : w.RolledBack n failure.step ↔ uapiIface = iface ∧ TableFree n := by
      rw [← hplain.owns]
      rcases hstep with hstep | hstep <;> rw [hstep] <;>
        exact ⟨fun h => h.2.2, fun h => ⟨hplain.clean, hplain.elevated, h⟩⟩
    rw [Leaves, hrolled, hr.cleaned hplain ha hp hi]
    exact ⟨fun h => ⟨h.1, h.2.1 hos⟩, fun h => ⟨h.1, fun _ => h.2, hd⟩⟩
  unfold setVpnDns
  cases hos : w.os with
  | macOS =>
    refine Triple.bind_eq (t := t) (primaryNetworkService_spec (fun _ _ => rfl)
      fun failure hstep => hmacOS failure hos (.inl hstep)) fun _ => ?_
    exact asRoot_spec (fun _ _ => trivial) fun failure hstep => hmacOS failure hos (.inr hstep)
  | linux =>
    dsimp only
    split
    · refine Triple.bind (Q := fun _ _ => True) (failing_spec (fun _ => trivial)
        fun failure hstep _ => hlinux failure hos (.inl hstep)) fun _ _ _ => ?_
      exact Triple.of_modify trivial
    · refine Triple.bind_eq (t := t) (failing_spec (fun _ => rfl)
        fun failure hstep _ => hlinux failure hos (.inr hstep)) fun _ => ?_
      split
      · refine Triple.bind_eq (t := writeResolvConf w.torn t) (Triple.of_modify rfl)
          fun _ => ?_
        refine Triple.of_throw ?_
        have htorn : w.Routed n uapiIface serverIp (writeResolvConf w.torn t) :=
          ⟨hr.routes, hr.host, hr.rules⟩
        rw [Leaves, htorn.cleaned hplain ha hp hi, ← hplain.owns]
        simp only [RolledBack, hplain.clean, hplain.elevated, true_and, hos, true_implies,
          writeResolvConf, hd]
        refine and_congr_right fun _ => and_congr_right fun _ => ?_
        rw [← hd]
        cases t.dns
        simp [eq_comm]
      · exact Triple.of_modify trivial

theorem configureTunnel_spec (hready : w.sudoReady = true) (hclean : w.NoStale n)
    (helevated : w.elevated = false) (havail : availableIface w.os n.names = some iface) :
    Triple (w.configureTunnel serverIp reg iface proc) (w.launch iface n) (fun _ _ => True)
      (fun failure n' => w.Leaves n failure n') := by
  have hearly : ∀ failure : Failure, failure.step ∈ [.alive, .ready, .uapi, .wireguard] →
      w.Leaves n failure (w.killStaleClientBoringtun (w.launch iface n)) := by
    intro failure hstep
    refine iff_of_true ((launch_onIface (availableIface_free havail)).killed hready hclean) ?_
    simp only [List.mem_cons, List.not_mem_nil, or_false] at hstep
    rcases hstep with hstep | hstep | hstep | hstep <;> rw [hstep] <;> exact ⟨hclean, helevated⟩
  have hstep : ∀ step text, step ∈ [Step.alive, .ready, .uapi, .wireguard] →
      Triple (w.orCleanup [.killClient] (w.failing step text)) (w.launch iface n)
        (fun _ s => s = w.launch iface n) (fun failure n' => w.Leaves n failure n') := by
    intro step text hmem
    exact Triple.guarded (failing_spec (fun _ => rfl) fun failure hf _ =>
      hearly failure (hf ▸ hmem))
  refine Triple.bind_eq (hstep .alive _ (by simp)) fun _ => ?_
  refine Triple.bind_eq (hstep .ready _ (by simp)) fun _ => ?_
  refine Triple.bind_and (t := w.launch iface n)
    (P := fun uapiIface => findUapiSocketForHint w.sockets iface = some uapiIface)
    (Triple.guarded ?_) ?_
  · refine Triple.bind_eq (failing_spec (fun _ => rfl)
      fun failure hf _ => hearly failure (by simp [hf])) fun _ => ?_
    split
    · rename_i name hname
      exact Triple.of_pure ⟨rfl, hname⟩
    · exact Triple.of_throw (hearly _ (by simp))
  intro uapiIface hsocket
  have hplain : w.Plain n iface uapiIface := ⟨hready, hclean, helevated, havail, hsocket⟩
  refine Triple.bind_eq (hstep .wireguard _ (by simp)) fun _ => ?_
  refine Triple.bind (Triple.guarded (configureInterfaceIp_spec hplain)) fun _ s ha => ?_
  have hleft : ∀ failure : Failure, failure.step = .gateway ∨ failure.step = .saveDns →
      w.Leaves n failure (w.killStaleClientBoringtun (w.teardownInterface uapiIface s)) := by
    intro failure hf
    rw [Leaves, ha.cleaned hplain, ← hplain.owns]
    rcases hf with hf | hf <;> rw [hf] <;>
      exact ⟨fun h => ⟨hclean, helevated, h⟩, fun h => h.2.2⟩
  refine Triple.bind_eq (t := s) (Triple.guarded ?_) fun originalGateway => ?_
  · refine Triple.bind_eq (t := s) (failing_spec (fun _ => rfl)
      fun failure hf _ => hleft failure (.inl hf)) fun _ => ?_
    refine Triple.bind_and (t := s) (P := fun a => a = s) (show _ ∧ _ from ⟨rfl, rfl⟩) ?_
    rintro _ rfl
    split
    · exact Triple.of_pure rfl
    · exact Triple.of_throw (hleft _ (.inl rfl))
  refine Triple.bind_eq (t := s) (Triple.guarded ?_) fun originalDns => ?_
  · unfold saveOriginalDns
    split
    · refine Triple.bind_eq (t := s) (primaryNetworkService_spec (fun _ _ => rfl)
        fun failure hf => hleft failure (.inr hf)) fun _ => ?_
      rfl
    · rfl
  refine Triple.bind (Triple.guarded (configureFullTunnel_spec hplain ha)) ?_
  rintro _ t ⟨hp, hi, hd, hrouted⟩
  refine Triple.bind (Q := fun _ _ => True) (Triple.guarded ?_) fun _ _ _ => Triple.of_pure trivial
  split
  · exact Triple.of_pure trivial
  · rename_i hsplit
    exact setVpnDns_spec hplain ha (hrouted (by simpa using hsplit)) hp hi hd

end

/-- A call that has killed a process of before does not bring it back. -/
theorem establishTunnel_stale (hfresh : w.FreshPids n) {p : Process} (hp : p ∈ n.processes)
    (hreached : w.reaches p = true) :
    Triple (w.establishTunnel serverIp reg) n (fun _ _ => True) (w.Leaves n) := by
  have hstale : ¬ w.NoStale n := fun h => by
    rw [h p hp] at hreached
    cases hreached
  have hgone : p ∉ (w.killStaleClientBoringtun n).processes := fun h => by
    simp [killStaleClientBoringtun, Net.kill, hreached] at h
  have hlaunched : ∀ iface, p ≠ w.launched iface := fun iface h => (hfresh p hp).1 (by rw [h]; rfl)
  have htracker : p ≠ .tracker w.trackerPid := fun h => (hfresh p hp).2 (by rw [h]; rfl)
  have hleaves : ∀ failure n', ¬ w.RolledBack n failure.step → p ∉ n'.processes →
      w.Leaves n failure n' := fun failure n' hnot hmem =>
    iff_of_false (fun heq => hmem (heq ▸ hp)) hnot
  refine Triple.bind_eq (t := n) (failing_spec (fun _ => rfl)
    fun failure hf _ => ?_) fun _ => ?_
  · rw [Leaves, hf]
    exact iff_of_true rfl trivial
  refine Triple.bind_eq (t := w.killStaleClientBoringtun n) (Triple.of_modify rfl) fun _ => ?_
  refine Triple.bind_eq (t := w.killStaleClientBoringtun n)
    (findAvailableIface_spec (fun _ _ => rfl) fun failure hf => ?_) fun iface => ?_
  · exact hleaves _ _ (by rw [hf]; exact hstale) hgone
  refine Triple.bind_eq (t := w.killStaleClientBoringtun n) (failing_spec (fun _ => rfl)
    fun failure hf _ => hleaves _ _ (by rw [hf]; exact hstale) hgone) fun _ => ?_
  have hlaunch : p ∉ (w.launch iface (w.killStaleClientBoringtun n)).processes := by
    simp only [launch, Net.addInterface, Net.addProcess, Finset.mem_insert, not_or]
    exact ⟨hlaunched iface, hgone⟩
  have hexited : p ∉ (w.exit iface (w.launch iface (w.killStaleClientBoringtun n))).processes :=
    fun h => hlaunch (Finset.mem_filter.mp h).1
  refine Triple.bind ((spawn_spec _).mono (fun _ _ h => h) ?_) fun proc s hs => ?_
  · rintro failure n' (⟨rfl | rfl, hrolled⟩ | ⟨rfl, hrolled⟩)
    · exact hleaves _ _ (fun h => hstale ((hrolled n).mp h)) hgone
    · exact hleaves _ _ (fun h => hstale ((hrolled n).mp h)) hexited
    · exact hleaves _ _ (hrolled n) hlaunch
  have hmem : p ∉ s.processes := by
    split at hs
    · rw [hs.2]
      simp only [Net.addProcess, Finset.mem_insert, not_or]
      exact ⟨htracker, hlaunch⟩
    · rw [hs.2.2]
      exact hlaunch
  refine (cleaned_configureTunnel s).mono (fun _ _ _ => trivial) ?_
  rintro failure n' ⟨hprocesses, hlate⟩
  refine hleaves _ _ (fun h => hstale (h.of_late hlate).1) ?_
  rw [hprocesses]
  exact fun h => hmem (Finset.mem_filter.mp h).1

theorem establishTunnel_clean (hfresh : w.FreshPids n) (hclean : w.NoStale n) :
    Triple (w.establishTunnel serverIp reg) n (fun _ _ => True) (w.Leaves n) := by
  have hrolled : ∀ failure : Failure, failure.step = .find ∨ failure.step = .binary →
      w.Leaves n failure n := by
    intro failure hf
    refine iff_of_true rfl ?_
    rcases hf with hf | hf <;> rw [hf] <;> exact hclean
  refine Triple.bind_eq (t := n) (failing_spec (fun _ => rfl)
    fun failure hf _ => ?_) fun _ => ?_
  · rw [Leaves, hf]
    exact iff_of_true rfl trivial
  refine Triple.bind_eq (t := n) (Triple.of_modify (killStale_clean hclean)) fun _ => ?_
  refine Triple.bind_and (t := n) (P := fun iface => availableIface w.os n.names = some iface)
    (findAvailableIface_spec (fun _ havail => ⟨rfl, havail⟩) fun failure hf =>
      hrolled failure (.inl hf)) fun iface havail => ?_
  refine Triple.bind_eq (t := n) (failing_spec (fun _ => rfl)
    fun failure hf _ => hrolled failure (.inr hf)) fun _ => ?_
  have hnew : w.launched iface ∉ n.processes := fun h => (hfresh _ h).1 rfl
  have hexited : w.exit iface (w.launch iface n) = n :=
    (launch_onIface (availableIface_free havail)).exited hnew
  refine Triple.bind ((spawn_spec n).mono (fun _ _ h => h) ?_) fun proc s hs => ?_
  · rintro failure n' (⟨hn', hiff⟩ | ⟨rfl, hnot⟩)
    · rw [hexited, or_self] at hn'
      exact iff_of_true hn' ((hiff _).mpr hclean)
    · refine iff_of_false (fun heq => hnew ?_) (hnot n)
      rw [← congrArg Net.processes heq]
      exact Finset.mem_insert_self _ _
  split at hs
  · rename_i helevated
    refine (cleaned_configureTunnel s).mono (fun _ _ _ => trivial) ?_
    rintro failure n' ⟨hprocesses, hlate⟩
    refine iff_of_false (fun heq => ?_) fun h => ?_
    · -- the placeholder is left
      have hmem : Process.tracker w.trackerPid ∈ n'.processes := by
        rw [hprocesses, hs.2]
        exact Finset.mem_filter.mpr ⟨Finset.mem_insert_self _ _, rfl⟩
      exact (hfresh _ (heq ▸ hmem)).2 rfl
    · rw [(h.of_late hlate).2] at helevated
      cases helevated
  · rename_i helevated
    rw [hs.2.2]
    exact configureTunnel_spec hs.1 hclean (by simpa using helevated) havail

/-- After a failed call the machine is as it was before exactly when the step
that failed is one whose effects are undone, here. -/
theorem rolledBack_iff {failure : Failure} (hfresh : w.FreshPids n)
    (h : exec (w.establishTunnel serverIp reg) n = (.error failure, n')) :
    n' = n ↔ w.RolledBack n failure.step := by
  by_cases hclean : w.NoStale n
  · exact (establishTunnel_clean hfresh hclean).error h
  · obtain ⟨p, hp, hreached⟩ : ∃ p ∈ n.processes, w.reaches p = true := by
      simpa [NoStale] using hclean
    exact (establishTunnel_stale hfresh hp hreached).error h

def failedAt (w : World) (n : Net) : Option Step :=
  match (exec (w.establishTunnel sampleServerIp sampleRegistration) n).1 with
  | .error failure => some failure.step
  | .ok _ => none

/-- On Linux `/etc/resolv.conf` cannot be opened. -/
def sampleUnwritable : World :=
  sampleWorld .linux fun step => if step = .resolvOpen then some "Permission denied" else none

theorem rolledBack_iff_sample :
    ∃ failure n', exec (sampleUnwritable.establishTunnel sampleServerIp sampleRegistration)
      sampleNet = (.error failure, n') ∧ n' = sampleNet := by
  have hstep : sampleUnwritable.failedAt sampleNet = some .resolvOpen := by decide +kernel
  rcases hexec : exec (sampleUnwritable.establishTunnel sampleServerIp sampleRegistration)
    sampleNet with ⟨failure | ctx, n'⟩
  · rw [failedAt, hexec] at hstep
    refine ⟨failure, n', rfl, (rolledBack_iff (by nofun) hexec).mpr ?_⟩
    rw [Option.some.inj hstep]
    refine ⟨nofun, rfl, ⟨"wg0", by decide +kernel, by decide +kernel⟩, ?_⟩
    simp [TableFree, sampleNet, sampleGateway]
  · rw [failedAt, hexec] at hstep
    cases hstep

/-- On macOS the second route of a full tunnel is refused. -/
def sampleRefused : World :=
  sampleWorld .macOS fun step => if step = .tunnel 1 then some "route: bad address" else none

/-- On Linux the route of the tunnel's table is refused. -/
def sampleTableless : World :=
  sampleWorld .linux fun step => if step = .tunnel 2 then some "RTNETLINK answers" else none

/-- boringtun is launched behind a password prompt, and is not ready in time. -/
def sampleUnready : World :=
  sampleWorld .macOS fun step =>
    if step = .sudoSpawn ∨ step = .ready then some "timed out" else none

def leaves (w : World) : Net :=
  (exec (w.establishTunnel sampleServerIp sampleRegistration) sampleNet).2

/-- The route to the server is left, the rule is left, and the placeholder is. -/
theorem left_behind :
    (sampleRefused.failedAt sampleNet = some (.tunnel 1) ∧ sampleRefused.leaves ≠ sampleNet ∧
      ⟨.main, .host sampleServerIp, .gateway "192.168.1.1"⟩ ∈ sampleRefused.leaves.routes) ∧
    (sampleTableless.failedAt sampleNet = some (.tunnel 2) ∧ sampleTableless.leaves ≠ sampleNet ∧
      notFwmark ∈ sampleTableless.leaves.rules) ∧
    (sampleUnready.failedAt sampleNet = some .ready ∧ sampleUnready.leaves ≠ sampleNet ∧
      .tracker 4712 ∈ sampleUnready.leaves.processes) := by
  have hroute : ⟨.main, .host sampleServerIp, .gateway "192.168.1.1"⟩ ∈
      sampleRefused.leaves.routes := by decide +kernel
  have hrule : notFwmark ∈ sampleTableless.leaves.rules := by decide +kernel
  have hprocess : .tracker 4712 ∈ sampleUnready.leaves.processes := by decide +kernel
  refine ⟨⟨by decide +kernel, fun heq => ?_, hroute⟩, ⟨by decide +kernel, fun heq => ?_, hrule⟩,
    ⟨by decide +kernel, fun heq => ?_, hprocess⟩⟩
  · rw [heq] at hroute
    revert hroute
    decide
  · rw [heq] at hrule
    cases hrule
  · rw [heq] at hprocess
    cases hprocess

end World

end Xelt.Client
