import Xelt.Client.Net
import Xelt.Lib.Fallible

/-!
# The tunnel of the client

`establish_tunnel` and `disconnect` of `vpn.rs`, on macOS and on Linux. Of the
WireGuard device only its interface is followed, and of the waits only how
they end.
-/

namespace Xelt.Client

open Fallible

/-- What can go wrong in `establish_tunnel`, in its order. -/
inductive Step
  | key
  | find
  | binary
  | log
  | logClone
  | sudoSpawn
  | exited
  | prompt
  | elevatedExited
  | pid
  | elevatedPgrep
  | elevatedAlive
  | tracker
  | alive
  | ready
  | uapi
  | wireguard
  | address (command : Nat)
  | gateway
  | saveDns
  | tunnel (command : Nat)
  | service
  | setDns
  | resolvconf
  | resolvOpen
  | resolvWrite
  deriving DecidableEq

structure Failure where
  step : Step
  text : String

/-- The machine, as far as the client asks it and does not change it. -/
structure World where
  os : Os
  /-- `XELT_SPLIT_TUNNEL`. -/
  splitTunnel : Option String
  /-- `sudo -n` asks for no password. -/
  sudoReady : Bool
  /-- The process ids of what the call starts. -/
  pid : Nat
  trackerPid : Nat
  /-- `route -n get default`, or `ip route show default`. -/
  defaultGateway : Finset Route → Option String
  defaultInterface : Finset Route → Option String
  /-- `networksetup -listallhardwareports`. -/
  hardwarePorts : List (String × String)
  resolve : String → String
  /-- resolvconf is installed. -/
  hasResolvconf : Bool
  /-- What the update of resolvconf makes of `/etc/resolv.conf`. -/
  update : (String → Option String) → Option String → Option String
  /-- The names in `/var/run/wireguard` when a socket is found there. -/
  sockets : List String
  /-- The steps that fail, and what is said of it. -/
  fails : Step → Option String
  /-- What a write that fails has written. -/
  torn : String
  stderr : List String → String
  queryGatewayBalance : String → Except String String

structure PaidSessionRegistration where
  serverPublicKey : String
  endpoint : String
  assignedIp : String

inductive OriginalDns
  | service (name : String) (servers : List String)
  | resolvConfBackup (text : String)
  deriving DecidableEq

structure ConnectionContext where
  iface : String
  boringtunProc : Process
  originalGateway : String
  originalDns : OriginalDns
  serverIp : String
  deriving DecidableEq

structure VpnManager where
  ctx : Option ConnectionContext

structure ConnectedInfo where
  assignedIp : String
  serverEndpoint : String
  walletAddress : String
  gatewayBalance : String

abbrev Vpn := Fallible Net Failure

-- ---------------------------------------------------------------------------
-- Texts
-- ---------------------------------------------------------------------------

def containsText (text part : String) : Bool :=
  text.toList.tails.any fun rest => part.toList.isPrefixOf rest

/-- The white space of `str::trim`. -/
def isWhite (c : Char) : Bool :=
  (9 ≤ c.toNat && c.toNat ≤ 13) || c.toNat = 32 || c.toNat = 0x85 || c.toNat = 0xa0 ||
    c.toNat = 0x1680 || (0x2000 ≤ c.toNat && c.toNat ≤ 0x200a) || c.toNat = 0x2028 ||
    c.toNat = 0x2029 || c.toNat = 0x202f || c.toNat = 0x205f || c.toNat = 0x3000

def trim (s : String) : String :=
  String.ofList ((s.toList.dropWhile isWhite).reverse.dropWhile isWhite).reverse

def sudoHint : String :=
  "Admin access needed for VPN tunnel. Approve the macOS password prompt when connecting."

/-- What `sudo -n` says where it would ask for a password. -/
def sudoPrompt : String := "sudo: a password is required"

def needsPassword (text : String) : Bool :=
  containsText text "password" || containsText text "askpass"

def vpnSubnet : String := "10.0.0.0/24"

def vpnServers : List String := ["1.1.1.1", "8.8.8.8"]

def notFwmark : Rule := ["not", "fwmark", "51820", "table", "51820"]

def suppressDefault : Rule := ["table", "main", "suppress_prefixlength", "0"]

namespace World

variable (w : World)

-- ---------------------------------------------------------------------------
-- Commands as root
-- ---------------------------------------------------------------------------

def runAsAdminMacos (cmd : Command) (n : Net) : Except String Net :=
  let program := cmd.args.headD "?"
  if program ∈ ["route", "ifconfig", "networksetup", "kill", "pkill", "nc"] then
    match cmd.effect w.resolve n with
    | some n => .ok n
    | none => .error (sudoHint ++ " (" ++ w.stderr cmd.args ++ ")")
  else .error (sudoHint ++ " (unsupported privileged command: " ++ program ++ ")")

def runSudoN (cmd : Command) (n : Net) : Except String Net :=
  match if w.sudoReady then cmd.effect w.resolve n else none with
  | some n => .ok n
  | none =>
    let msg := if w.sudoReady then trim (w.stderr cmd.args) else sudoPrompt
    if msg = "" || needsPassword msg then .error sudoHint
    else .error ("Command failed: sudo " ++ " ".intercalate cmd.args ++ " — " ++ msg)

def runSudo (cmd : Command) (n : Net) : Except String Net :=
  match w.runSudoN cmd n with
  | .ok n => .ok n
  | .error e =>
    if e ≠ sudoHint then .error e
    else match w.os with
      | .macOS => w.runAsAdminMacos cmd n
      | .linux => .error sudoHint

/-- `let _ = run_sudo(..)`. -/
def tryRun (cmd : Command) (n : Net) : Net :=
  match w.runSudo cmd n with
  | .ok n => n
  | .error _ => n

/-- A step fails when it is to fail. -/
def failing (step : Step) (text : String → String) : Vpn PUnit :=
  match w.fails step with
  | some e => throw ⟨step, text e⟩
  | none => pure ⟨⟩

/-- `run_sudo(..)?`. -/
def asRoot (step : Step) (cmd : Command) : Vpn PUnit := do
  w.failing step id
  match w.runSudo cmd (← get) with
  | .ok n => set n
  | .error e => throw ⟨step, e⟩

-- ---------------------------------------------------------------------------
-- Split tunnel
-- ---------------------------------------------------------------------------

def splitTunnelEnabled : Bool :=
  match w.splitTunnel with
  | some "1" | some "true" | some "TRUE" => true
  | _ => false

def isLoopbackServer (ip : String) : Bool := trim ip ∈ ["127.0.0.1", "localhost", "::1"]

def useSplitTunnel (serverIp : String) : Bool := w.splitTunnelEnabled || isLoopbackServer serverIp

-- ---------------------------------------------------------------------------
-- Processes
-- ---------------------------------------------------------------------------

/-- A tunnel process that `pkill`, as the user or with `sudo -n`, reaches. -/
def reaches : Process → Bool
  | .tunnel _ _ root => !root || w.sudoReady
  | .tracker _ => false

def killStaleClientBoringtun (n : Net) : Net := n.kill w.reaches

def ifaceKind (os : Os) : String :=
  match os with
  | .macOS => "utun"
  | .linux => "wg"

def ifaceNames (os : Os) : List String :=
  match os with
  | .macOS => (List.range 22).map fun i => ifaceKind os ++ (i + 9).repr
  | .linux => (List.range 21).map fun i => ifaceKind os ++ i.repr

/-- On Linux the text of the listing is searched for the name and a colon. -/
def taken (os : Os) (names : List String) (name : String) : Bool :=
  match os with
  | .macOS => names.contains name
  | .linux => names.any fun other => name.toList.isSuffixOf other.toList

def availableIface (os : Os) (names : List String) : Option String :=
  (ifaceNames os).find? fun name => !taken os names name

def listing (os : Os) : String :=
  match os with
  | .macOS => "ifconfig -l"
  | .linux => "ip link show"

def findAvailableIface : Vpn String := do
  w.failing .find fun e => listing w.os ++ " failed: " ++ e
  match availableIface w.os (← get).names with
  | some name => pure name
  | none => throw ⟨.find, "No available " ++ ifaceKind w.os ++ " interface found"⟩

def launched (iface : String) : Process := .tunnel w.pid iface true

def launch (iface : String) (n : Net) : Net :=
  (n.addProcess (w.launched iface)).addInterface ⟨iface, [], false⟩

/-- The tunnel process ends by itself, and its interface with it. -/
def exit (iface : String) (n : Net) : Net := n.kill fun p => p = w.launched iface

def exitedText (log : String) : String :=
  "boringtun-cli exited immediately after admin launch. Log: " ++ log

/-- `client_tunnel_process_alive()` behind the prompt: pgrep cannot be run, or
finds no tunnel process any more. -/
def checkElevated (iface : String) : Vpn PUnit := do
  w.failing .elevatedPgrep exitedText
  match w.fails .elevatedAlive with
  | some log => do
    modify (w.exit iface)
    throw ⟨.elevatedAlive, exitedText log⟩
  | none => pure ⟨⟩

def spawnClientBoringtunElevated (iface : String) : Vpn Process :=
  match w.os with
  | .linux => throw ⟨.prompt, sudoHint⟩
  | .macOS => do
    w.failing .prompt id
    w.failing .elevatedExited fun _ => "boringtun started but PID unknown (got \"\")"
    modify (w.launch iface)
    w.failing .pid fun got => "boringtun started but PID unknown (got " ++ got ++ ")"
    w.checkElevated iface
    w.failing .tracker fun e => "Failed to track tunnel process: " ++ e
    modify (Net.addProcess · (.tracker w.trackerPid))
    pure (.tracker w.trackerPid)

/-- The log of a boringtun that is gone after 800 milliseconds. -/
def exitLog : Option String := if w.sudoReady then w.fails .exited else some sudoPrompt

def spawnClientBoringtun (iface : String) : Vpn Process := do
  w.failing .log fun e => "Failed to create boringtun log: " ++ e
  w.failing .logClone fun e => "Failed to clone log handle: " ++ e
  if (w.fails .sudoSpawn).isSome then w.spawnClientBoringtunElevated iface
  else
    match w.exitLog with
    | some log =>
      if needsPassword log then w.spawnClientBoringtunElevated iface
      else if trim log = "" then throw ⟨.exited, sudoHint⟩
      else throw ⟨.exited, "boringtun-cli exited immediately. " ++ sudoHint ++ " Log: " ++ log⟩
    | none =>
      modify (w.launch iface)
      pure (w.launched iface)

/-- `trim_end_matches(".sock")`, from the end. -/
def trimSock : List Char → List Char
  | 'k' :: 'c' :: 'o' :: 's' :: '.' :: rest => trimSock rest
  | cs => cs

def findUapiSocketForHint (sockets : List String) (hint : String) : Option String :=
  if hint ++ ".sock" ∈ sockets then some hint
  else
    (sockets.find? fun name =>
        hint.toList.isPrefixOf name.toList && ".sock".toList.isSuffixOf name.toList).map
      fun name => String.ofList (trimSock name.toList.reverse).reverse

def waitAndResolveUapiIface (hint : String) : Vpn String := do
  w.failing .uapi id
  match findUapiSocketForHint w.sockets hint with
  | some name => pure name
  | none =>
    throw ⟨.uapi, "WireGuard UAPI socket not ready for " ++ hint ++ " in /var/run/wireguard."⟩

-- ---------------------------------------------------------------------------
-- Interface and routes
-- ---------------------------------------------------------------------------

def configureInterfaceIp (iface ipBare assignedIp : String) : Vpn PUnit :=
  match w.os with
  | .macOS => w.asRoot (.address 0) (.ifconfigUp iface ipBare)
  | .linux => do
    let ipCidr := if '/' ∈ assignedIp.toList then assignedIp else assignedIp ++ "/32"
    w.asRoot (.address 0) (.addrAdd ipCidr iface)
    w.asRoot (.address 1) (.linkUp iface)

def teardownInterface (iface : String) (n : Net) : Net :=
  match w.os with
  | .macOS => w.tryRun (.ifconfigDestroy iface) (w.tryRun (.ifconfigDown iface) n)
  | .linux => w.tryRun (.linkDelete iface) n

def getDefaultGateway : Vpn String := do
  w.failing .gateway fun e => "Failed to get default gateway: " ++ e
  match w.defaultGateway (← get).routes with
  | some gw => pure gw
  | none =>
    throw ⟨.gateway, "Failed to get default gateway: Could not determine default gateway"⟩

def configureFullTunnel (iface serverIp originalGw : String) : Vpn PUnit :=
  match w.os with
  | .macOS =>
    if w.useSplitTunnel serverIp then w.asRoot (.tunnel 0) (.routeAddNet vpnSubnet iface)
    else do
      w.asRoot (.tunnel 0) (.routeAddHost serverIp originalGw)
      w.asRoot (.tunnel 1) (.routeAddNet "0.0.0.0/1" iface)
      w.asRoot (.tunnel 2) (.routeAddNet "128.0.0.0/1" iface)
  | .linux =>
    if w.useSplitTunnel serverIp then w.asRoot (.tunnel 0) (.routeAdd vpnSubnet iface)
    else do
      w.asRoot (.tunnel 0) (.wgFwmark iface "51820")
      w.asRoot (.tunnel 1) (.ruleAdd notFwmark)
      w.asRoot (.tunnel 2) (.routeAddTable iface 51820)
      w.asRoot (.tunnel 3) (.ruleAdd suppressDefault)

def teardownRoutes (iface serverIp : String) (n : Net) : Net :=
  match w.os with
  | .macOS =>
    let n := w.tryRun (.routeDeleteNet vpnSubnet iface) n
    let n := w.tryRun (.routeDeleteNet "0.0.0.0/1" iface) n
    let n := w.tryRun (.routeDeleteNet "128.0.0.0/1" iface) n
    w.tryRun (.routeDeleteHost serverIp) n
  | .linux =>
    let n := w.tryRun (.routeDel vpnSubnet iface) n
    let n := w.tryRun (.ruleDelete notFwmark) n
    let n := w.tryRun (.ruleDelete suppressDefault) n
    w.tryRun (.routeFlush 51820) n

-- ---------------------------------------------------------------------------
-- DNS
-- ---------------------------------------------------------------------------

def getPrimaryNetworkService (n : Net) : Except String String :=
  match w.defaultInterface n.routes with
  | none => .error "Could not find default interface"
  | some iface =>
    .ok (((w.hardwarePorts.find? fun port => port.2 = iface).map Prod.fst).getD "Wi-Fi")

def primaryNetworkService (step : Step) (text : String → String) : Vpn String := do
  w.failing step fun e => text ("route failed: " ++ e)
  match w.getPrimaryNetworkService (← get) with
  | .ok service => pure service
  | .error e => throw ⟨step, text e⟩

def saveOriginalDns : Vpn OriginalDns :=
  match w.os with
  | .macOS => do
    let service ← w.primaryNetworkService .saveDns fun e => "Failed to save DNS state: " ++ e
    pure (.service service (((← get).dns.services service).getD []))
  | .linux => do pure (.resolvConfBackup ((← get).dns.resolvConf.getD ""))

def resolvRecord : String := "nameserver 1.1.1.1\nnameserver 8.8.8.8\n"

def vpnResolvConf : String := "# Set by Xelt\nnameserver 1.1.1.1\nnameserver 8.8.8.8\n"

/-- A record is written or deleted, and resolvconf updates the file. -/
def setRecord (record : Option String) (n : Net) : Net :=
  let records := Function.update n.dns.records "tun.xelt" record
  { n with dns := { n.dns with records, resolvConf := w.update records n.dns.resolvConf } }

def writeResolvConf (text : String) (n : Net) : Net :=
  { n with dns := { n.dns with resolvConf := some text } }

def setVpnDns : Vpn PUnit :=
  match w.os with
  | .macOS => do
    let service ← w.primaryNetworkService .service id
    w.asRoot .setDns (.setDnsServers service vpnServers)
  | .linux =>
    if w.hasResolvconf then do
      w.failing .resolvconf fun e => "resolvconf failed: " ++ e
      modify (w.setRecord (some resolvRecord))
    else do
      w.failing .resolvOpen fun e => "Failed to write resolv.conf: " ++ e
      match w.fails .resolvWrite with
      | some e => do
        -- the file has been truncated
        modify (writeResolvConf w.torn)
        throw ⟨.resolvWrite, "Failed to write resolv.conf: " ++ e⟩
      | none => modify (writeResolvConf vpnResolvConf)

def restoreDns (dns : OriginalDns) (n : Net) : Net :=
  match dns with
  | .service name servers => w.tryRun (.setDnsServers name servers) n
  | .resolvConfBackup text => if text = "" then n else writeResolvConf text n

-- ---------------------------------------------------------------------------
-- Connecting and disconnecting
-- ---------------------------------------------------------------------------

/-- The steps of `Cleanup`; nothing fails behind the last one, which would
restore the DNS. -/
inductive Undo
  | killClient
  | teardownInterface (iface : String)
  | teardownRoutes (iface serverIp : String)

def undo : Undo → Net → Net
  | .killClient => w.killStaleClientBoringtun
  | .teardownInterface iface => w.teardownInterface iface
  | .teardownRoutes iface serverIp => w.teardownRoutes iface serverIp

/-- `cleanup.run()` and the error, when the step fails. -/
def orCleanup (cleanup : List Undo) (m : Vpn α) : Vpn α := guarded (cleanup.map w.undo) m

/-- From the interface on. -/
def configureTunnel (serverIp : String) (reg : PaidSessionRegistration) (iface : String)
    (proc : Process) : Vpn ConnectionContext := do
  let cleanup := [Undo.killClient]
  w.orCleanup cleanup <| w.failing .alive fun log =>
    "boringtun-cli is not running. " ++ sudoHint ++ " Log: " ++ log
  w.orCleanup cleanup <| w.failing .ready fun _ =>
    "Interface " ++ iface ++ " not ready after 10s"
  let uapiIface ← w.orCleanup cleanup <| w.waitAndResolveUapiIface iface
  w.orCleanup cleanup <| w.failing .wireguard id
  let ipBare := String.ofList (reg.assignedIp.toList.takeWhile (· ≠ '/'))
  w.orCleanup cleanup <| w.configureInterfaceIp uapiIface ipBare reg.assignedIp
  let cleanup := cleanup ++ [.teardownInterface uapiIface]
  let originalGateway ← w.orCleanup cleanup w.getDefaultGateway
  let originalDns ← w.orCleanup cleanup w.saveOriginalDns
  w.orCleanup cleanup <| w.configureFullTunnel uapiIface serverIp originalGateway
  let cleanup := cleanup ++ [.teardownRoutes uapiIface serverIp]
  w.orCleanup cleanup <| if w.useSplitTunnel serverIp then pure ⟨⟩ else w.setVpnDns
  pure { iface := uapiIface, boringtunProc := proc, originalGateway, originalDns, serverIp }

def establishTunnel (serverIp : String) (reg : PaidSessionRegistration) :
    Vpn ConnectionContext := do
  w.failing .key id
  modify w.killStaleClientBoringtun
  let iface ← w.findAvailableIface
  w.failing .binary id
  let proc ← w.spawnClientBoringtun iface
  w.configureTunnel serverIp reg iface proc

def sessionInfo (reg : PaidSessionRegistration) (walletAddress : String) : ConnectedInfo where
  assignedIp := String.ofList (reg.assignedIp.toList.takeWhile (· ≠ '/'))
  serverEndpoint := reg.endpoint
  walletAddress
  gatewayBalance :=
    if "0x".toList.isPrefixOf walletAddress.toList then
      match w.queryGatewayBalance walletAddress with
      | .ok balance => balance
      | .error _ => "0.000000"
    else "paid via x402"

def connectPaid (m : VpnManager) (serverIp : String) (reg : PaidSessionRegistration)
    (walletAddress : Option String) (n : Net) : Except String ConnectedInfo × VpnManager × Net :=
  if m.ctx.isSome then (.error "Already connected", m, n)
  else match exec (w.establishTunnel serverIp reg) n with
    | (.ok ctx, n) => (.ok (w.sessionInfo reg (walletAddress.getD "xelt")), ⟨some ctx⟩, n)
    | (.error failure, n) => (.error failure.text, m, n)

/-- `boringtun_proc.kill()`; a process of root's is not the user's to kill. -/
def killChild (proc : Process) (n : Net) : Net :=
  match proc with
  | .tracker _ => { n with processes := n.processes.erase proc }
  | .tunnel _ _ _ => n

def release (ctx : ConnectionContext) (n : Net) : Net :=
  let n := w.restoreDns ctx.originalDns n
  let n := w.teardownRoutes ctx.iface ctx.serverIp n
  let n := w.teardownInterface ctx.iface n
  w.killStaleClientBoringtun (killChild ctx.boringtunProc n)

def disconnect (m : VpnManager) (n : Net) : Except String PUnit × VpnManager × Net :=
  match m.ctx with
  | none => (.error "Not connected", m, n)
  | some ctx => (.ok ⟨⟩, ⟨none⟩, w.release ctx n)

end World

-- ---------------------------------------------------------------------------
-- A machine
-- ---------------------------------------------------------------------------

def sampleServerIp : String := "204.168.211.96"

def sampleGateway : Route := ⟨.main, .default, .gateway "192.168.1.1"⟩

/-- A machine with one interface to the internet. -/
def sampleNet : Net where
  processes := ∅
  interfaces := [⟨"en0", ["192.168.1.7"], true⟩]
  routes := {sampleGateway, ⟨.main, .net "192.168.1.0/24", .dev "en0"⟩}
  rules := ∅
  dns :=
    { services := fun name => if name = "Ethernet" ∨ name = "Wi-Fi" then some [] else none
      resolvConf := some "nameserver 192.168.1.1\n"
      records := fun _ => none }
  routed r hr iface hvia := by
    simp only [Finset.mem_insert, Finset.mem_singleton] at hr
    rcases hr with rfl | rfl
    · cases hvia
    · cases hvia
      exact List.mem_singleton_self _

def sampleWorld (os : Os) (fails : Step → Option String) : World where
  os
  splitTunnel := none
  sudoReady := true
  pid := 4711
  trackerPid := 4712
  defaultGateway routes := if sampleGateway ∈ routes then some "192.168.1.1" else none
  defaultInterface routes := if sampleGateway ∈ routes then some "en0" else none
  hardwarePorts := [("Ethernet", "en0")]
  resolve := id
  hasResolvconf := false
  update records old := (records "tun.xelt").or old
  sockets := ["wg0.sock", "utun9.sock"]
  fails
  torn := ""
  stderr _ := "No such process"
  queryGatewayBalance _ := .ok "0.000000"

def sampleRegistration : PaidSessionRegistration where
  serverPublicKey := "pOCSkrZRwni5dyxWn1+puxPZBrRqtoyd+dwrRAn4ogk="
  endpoint := "204.168.211.96:51820"
  assignedIp := "10.0.0.2/32"

end Xelt.Client
