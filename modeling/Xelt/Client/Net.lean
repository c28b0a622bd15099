import Mathlib.Data.Finset.Basic
import Mathlib.Data.Finset.Image

/-!
# What the client changes on its machine

Its tunnel processes, the interfaces, the routes, the routing rules and the
DNS settings, and what the commands the client runs as root do to them. A
command that cannot do what it is asked changes nothing.
-/

namespace Xelt.Client

inductive Os
  | macOS
  | linux
  deriving DecidableEq

inductive Table
  | main
  | numbered (n : Nat)
  deriving DecidableEq

inductive Destination
  | default
  | host (ip : String)
  | net (cidr : String)
  deriving DecidableEq

inductive Via
  | gateway (ip : String)
  | dev (iface : String)
  deriving DecidableEq

structure Route where
  table : Table
  dst : Destination
  via : Via
  deriving DecidableEq

abbrev Rule := List String

structure Interface where
  name : String
  addrs : List String
  up : Bool
  deriving DecidableEq

/-- A process that matches the pattern of the client's tunnel, or the
placeholder child that stands for a detached one. -/
inductive Process
  | tunnel (pid : Nat) (iface : String) (root : Bool)
  | tracker (pid : Nat)
  deriving DecidableEq

namespace Process

def pid : Process → Nat
  | tunnel pid _ _ | tracker pid => pid

def iface : Process → Option String
  | tunnel _ iface _ => some iface
  | tracker _ => none

end Process

structure Dns where
  /-- The servers set for a network service (macOS). -/
  services : String → Option (List String)
  /-- `/etc/resolv.conf` (Linux). -/
  resolvConf : Option String
  /-- The records of resolvconf. -/
  records : String → Option String

@[ext]
structure Net where
  processes : Finset Process
  interfaces : List Interface
  routes : Finset Route
  rules : Finset Rule
  dns : Dns
  /-- The interface of a route exists. -/
  routed : ∀ r ∈ routes, ∀ iface, r.via = .dev iface → iface ∈ interfaces.map Interface.name

/-- The route goes through one of the interfaces. -/
def Route.through (gone : String → Bool) (r : Route) : Bool :=
  match r.via with
  | .dev iface => gone iface
  | .gateway _ => false

namespace Net

variable (n : Net)

def names : List String := n.interfaces.map Interface.name

/-- Some interfaces are gone, and the routes through them. -/
def drop (gone : String → Bool) : Net where
  processes := n.processes
  interfaces := n.interfaces.filter fun i => !gone i.name
  routes := n.routes.filter fun r => !r.through gone
  rules := n.rules
  dns := n.dns
  routed r hr iface hvia := by
    obtain ⟨hr, hgone⟩ := Finset.mem_filter.mp hr
    obtain ⟨i, hi, rfl⟩ := List.mem_map.mp (n.routed r hr iface hvia)
    refine List.mem_map.mpr ⟨i, List.mem_filter.mpr ⟨hi, ?_⟩, rfl⟩
    simpa [Route.through, hvia] using hgone

/-- The interfaces of the processes that are reached. -/
def interfacesOf (reached : Process → Bool) (name : String) : Bool :=
  decide (∃ p ∈ n.processes, reached p = true ∧ p.iface = some name)

/-- The processes end, and their interfaces with them. -/
def kill (reached : Process → Bool) : Net :=
  { n.drop (n.interfacesOf reached) with
    processes := n.processes.filter fun p => !reached p }

def addProcess (p : Process) : Net := { n with processes := insert p n.processes }

def addInterface (i : Interface) : Net where
  processes := n.processes
  interfaces := n.interfaces ++ [i]
  routes := n.routes
  rules := n.rules
  dns := n.dns
  routed r hr iface hvia := by
    rw [List.map_append]
    exact List.mem_append_left _ (n.routed r hr iface hvia)

/-- An interface gets addresses, and may go up or down. -/
def setInterface (name : String) (addrs : List String) (up : Option Bool) : Net where
  processes := n.processes
  interfaces := n.interfaces.map fun i =>
    if i.name = name then { i with addrs := i.addrs ++ addrs, up := up.getD i.up } else i
  routes := n.routes
  rules := n.rules
  dns := n.dns
  routed r hr iface hvia := by
    obtain ⟨i, hi, rfl⟩ := List.mem_map.mp (n.routed r hr iface hvia)
    refine List.mem_map.mpr ⟨_, List.mem_map_of_mem hi, ?_⟩
    split <;> rfl

def addHostRoute (ip gateway : String) : Net where
  processes := n.processes
  interfaces := n.interfaces
  routes := insert ⟨.main, .host ip, .gateway gateway⟩ n.routes
  rules := n.rules
  dns := n.dns
  routed r hr iface hvia := by
    rcases Finset.mem_insert.mp hr with rfl | hr
    · cases hvia
    · exact n.routed r hr iface hvia

def addRoute (table : Table) (dst : Destination) (iface : String) (h : iface ∈ n.names) : Net where
  processes := n.processes
  interfaces := n.interfaces
  routes := insert ⟨table, dst, .dev iface⟩ n.routes
  rules := n.rules
  dns := n.dns
  routed r hr iface' hvia := by
    rcases Finset.mem_insert.mp hr with rfl | hr
    · cases hvia
      exact h
    · exact n.routed r hr iface' hvia

def deleteRoutes (deleted : Route → Bool) : Net where
  processes := n.processes
  interfaces := n.interfaces
  routes := n.routes.filter fun r => !deleted r
  rules := n.rules
  dns := n.dns
  routed r hr iface hvia := n.routed r (Finset.mem_filter.mp hr).1 iface hvia

def setServices (services : String → Option (List String)) : Net :=
  { n with dns := { n.dns with services } }

def HasRoute (table : Table) (dst : Destination) : Prop :=
  ∃ r ∈ n.routes, r.table = table ∧ r.dst = dst

instance (table : Table) (dst : Destination) : Decidable (n.HasRoute table dst) :=
  inferInstanceAs (Decidable (∃ r ∈ n.routes, _))

end Net

-- ---------------------------------------------------------------------------
-- Commands
-- ---------------------------------------------------------------------------

/-- What the client runs with `sudo`. -/
inductive Command
  | routeAddHost (ip gateway : String)
  | routeAddNet (cidr iface : String)
  | routeDeleteNet (cidr iface : String)
  | routeDeleteHost (ip : String)
  | ifconfigUp (iface ip : String)
  | ifconfigDown (iface : String)
  | ifconfigDestroy (iface : String)
  | setDnsServers (service : String) (servers : List String)
  | addrAdd (cidr iface : String)
  | linkUp (iface : String)
  | linkDelete (iface : String)
  | routeAdd (dst iface : String)
  | routeDel (dst iface : String)
  | routeAddTable (iface : String) (table : Nat)
  | routeFlush (table : Nat)
  | ruleAdd (rule : Rule)
  | ruleDelete (rule : Rule)
  | wgFwmark (iface mark : String)

namespace Command

def args : Command → List String
  | routeAddHost ip gateway => ["route", "add", "-host", ip, gateway]
  | routeAddNet cidr iface => ["route", "add", "-net", cidr, "-interface", iface]
  | routeDeleteNet cidr iface => ["route", "delete", "-net", cidr, "-interface", iface]
  | routeDeleteHost ip => ["route", "delete", "-host", ip]
  | ifconfigUp iface ip => ["ifconfig", iface, ip, ip, "up"]
  | ifconfigDown iface => ["ifconfig", iface, "down"]
  | ifconfigDestroy iface => ["ifconfig", iface, "destroy"]
  | setDnsServers service servers =>
    ["networksetup", "-setdnsservers", service] ++ if servers = [] then ["Empty"] else servers
  | addrAdd cidr iface => ["ip", "addr", "add", cidr, "dev", iface]
  | linkUp iface => ["ip", "link", "set", iface, "up"]
  | linkDelete iface => ["ip", "link", "delete", iface]
  | routeAdd dst iface => ["ip", "route", "add", dst, "dev", iface]
  | routeDel dst iface => ["ip", "route", "del", dst, "dev", iface]
  | routeAddTable iface table =>
    ["ip", "route", "add", "default", "dev", iface, "table", table.repr]
  | routeFlush table => ["ip", "route", "flush", "table", table.repr]
  | ruleAdd rule => ["ip", "rule", "add"] ++ rule
  | ruleDelete rule => ["ip", "rule", "delete"] ++ rule
  | wgFwmark iface mark => ["wg", "set", iface, "fwmark", mark]

/-- What a command does; `none` when it refuses to. `resolve` is the address
of a host that is given by name. -/
def effect (resolve : String → String) : Command → Net → Option Net
  | routeAddHost ip gateway, n =>
    if n.HasRoute .main (.host (resolve ip)) then none
    else some (n.addHostRoute (resolve ip) gateway)
  | routeAddNet cidr iface, n =>
    if h : iface ∈ n.names ∧ ¬ n.HasRoute .main (.net cidr) then
      some (n.addRoute .main (.net cidr) iface h.1)
    else none
  | routeDeleteNet cidr iface, n =>
    if ⟨.main, .net cidr, .dev iface⟩ ∈ n.routes then
      some (n.deleteRoutes fun r => r = ⟨.main, .net cidr, .dev iface⟩)
    else none
  | routeDeleteHost ip, n =>
    if n.HasRoute .main (.host (resolve ip)) then
      some (n.deleteRoutes fun r => r.table = .main ∧ r.dst = .host (resolve ip))
    else none
  | ifconfigUp iface ip, n =>
    if iface ∈ n.names then some (n.setInterface iface [ip] (some true)) else none
  | ifconfigDown iface, n =>
    if iface ∈ n.names then some (n.setInterface iface [] (some false)) else none
  | ifconfigDestroy iface, n | linkDelete iface, n =>
    if iface ∈ n.names then some (n.drop fun name => name = iface) else none
  | setDnsServers service servers, n =>
    if (n.dns.services service).isSome then
      some (n.setServices (Function.update n.dns.services service (some servers)))
    else none
  | addrAdd cidr iface, n =>
    if ∃ i ∈ n.interfaces, i.name = iface ∧ cidr ∉ i.addrs then
      some (n.setInterface iface [cidr] none)
    else none
  | linkUp iface, n => if iface ∈ n.names then some (n.setInterface iface [] (some true)) else none
  | routeAdd dst iface, n =>
    if h : iface ∈ n.names ∧ ¬ n.HasRoute .main (.net dst) then
      some (n.addRoute .main (.net dst) iface h.1)
    else none
  | routeDel dst iface, n =>
    if ⟨.main, .net dst, .dev iface⟩ ∈ n.routes then
      some (n.deleteRoutes fun r => r = ⟨.main, .net dst, .dev iface⟩)
    else none
  | routeAddTable iface table, n =>
    if h : iface ∈ n.names ∧ ¬ n.HasRoute (.numbered table) .default then
      some (n.addRoute (.numbered table) .default iface h.1)
    else none
  | routeFlush table, n => some (n.deleteRoutes fun r => r.table = .numbered table)
  | ruleAdd rule, n => if rule ∈ n.rules then none else some { n with rules := insert rule n.rules }
  | ruleDelete rule, n =>
    if rule ∈ n.rules then some { n with rules := n.rules.erase rule } else none
  | wgFwmark iface _, n => if iface ∈ n.names then some n else none

variable {resolve : String → String} {n n' : Net}

theorem effect_routeAddHost (h : (routeAddHost ip gateway).effect resolve n = some n') :
    ¬ n.HasRoute .main (.host (resolve ip)) ∧ n' = n.addHostRoute (resolve ip) gateway := by
  simp only [effect] at h
  split at h <;> cases h
  rename_i hnone
  exact ⟨hnone, rfl⟩

theorem effect_routeAddNet (h : (routeAddNet cidr iface).effect resolve n = some n') :
    ∃ hmem, n' = n.addRoute .main (.net cidr) iface hmem := by
  simp only [effect] at h
  split at h <;> cases h
  exact ⟨_, rfl⟩

theorem effect_routeAdd (h : (routeAdd dst iface).effect resolve n = some n') :
    ∃ hmem, n' = n.addRoute .main (.net dst) iface hmem := by
  simp only [effect] at h
  split at h <;> cases h
  exact ⟨_, rfl⟩

theorem effect_routeAddTable (h : (routeAddTable iface table).effect resolve n = some n') :
    ∃ hmem, n' = n.addRoute (.numbered table) .default iface hmem := by
  simp only [effect] at h
  split at h <;> cases h
  exact ⟨_, rfl⟩

theorem effect_ruleAdd (h : (ruleAdd rule).effect resolve n = some n') :
    rule ∉ n.rules ∧ n' = { n with rules := insert rule n.rules } := by
  simp only [effect] at h
  split at h <;> cases h
  rename_i hnone
  exact ⟨hnone, rfl⟩

theorem effect_wgFwmark (h : (wgFwmark iface mark).effect resolve n = some n') : n' = n := by
  simp only [effect] at h
  split at h <;> cases h
  rfl

end Command

end Xelt.Client
