import Xelt.Boringtun.HttpApi.Pool
import Xelt.VpnServer.Turns

/-!
# The VPN server and its backend

`services/boringtun.ts` over `device/http_api.rs`: what the calls of the VPN
server make of the answers of boringtun, and the two of them as one system in
which no call fails and one operation runs after the other. boringtun serves a
call of the VPN server, or a tick of its reaper, at one go.
-/

namespace Xelt.Gateway

open Runs Bytes Boringtun Boringtun.Payment Boringtun.HttpApi VpnServer

-- ---------------------------------------------------------------------------
-- The answers as text
-- ---------------------------------------------------------------------------

/-- `Ipv4Addr` as it is printed. -/
def ipText (ip : Ipv4Addr) : String :=
  ".".intercalate (ip.octets.map fun b => b.toNat.repr)

theorem toDigits_injective (h : Nat.toDigits 10 m = Nat.toDigits 10 n) : m = n := by
  rw [← @Nat.ofDigitChars_ten_toDigits m, h, Nat.ofDigitChars_ten_toDigits]

theorem stripMask_text (text : String) : SessionStore.stripMask (text ++ "/32") = text := by
  simp [SessionStore.stripMask, String.toList_append]

theorem ipText_injective {settings : Settings}
    (h : ipText (addrOf settings a) = ipText (addrOf settings b)) : a = b := by
  have h := congrArg String.toList h
  simp only [ipText, addrOf, octets_new, List.map_cons, List.map_nil, String.intercalate_cons_cons,
    String.intercalate_singleton, String.toList_append, Nat.toList_repr,
    List.append_cancel_left_eq] at h
  exact UInt8.toNat_inj.mp (toDigits_injective h)

def keyOf (base64Decode : String → Option Bytes) (wgKey : String) : Option Bytes32 :=
  (decodeKey base64Decode wgKey).toOption

def hexDigit (n : Nat) : Char := "0123456789abcdef".toList.getD n '0'

/-- `hex::encode`. -/
def hexEncode (bytes : Bytes) : String :=
  String.ofList (bytes.flatMap fun b => [hexDigit (b.toNat / 16), hexDigit (b.toNat % 16)])

section
variable (base64Encode : Bytes → String)

def serverPubkeyText (r : SuccessResponse) : String :=
  (r.serverPublicKey.map fun pk => base64Encode pk.toList).getD ""

def endpointText (r : SuccessResponse) : String := r.publicIp ++ ":" ++ r.listenPort.toNat.repr

def bodyText : Body → String
  | .ok => "\x7b\"status\":\"ok\"\x7d"
  | .error text => "\x7b\"error\":\"" ++ text ++ "\"\x7d"
  | .success r =>
    "\x7b\"status\":\"ok\",\"server_public_key\":\"" ++ serverPubkeyText base64Encode r ++
      "\",\"endpoint\":\"" ++ endpointText r ++
      "\",\"assigned_ip\":\"" ++ ipText r.assignedIp ++ "/32" ++
      "\",\"chain_id\":" ++ r.paymentConfig.chainId.toNat.repr ++
      ",\"gateway_wallet\":\"0x" ++ hexEncode r.paymentConfig.gatewayWallet.toList ++
      "\",\"usdc_contract\":\"0x" ++ hexEncode r.paymentConfig.usdcContract.toList ++
      "\",\"amount_per_quota\":" ++ r.paymentConfig.amountPerQuota.toNat.repr ++
      ",\"quota_bytes\":" ++ r.paymentConfig.quotaBytes.toNat.repr ++ "\x7d"

/-- `res.ok`. -/
def resOk (r : HttpApi.Response) : Bool := 200 ≤ r.status && r.status ≤ 299

/-- What `registerWireGuardPeer` makes of an answer. -/
def registerWireGuardPeer (r : HttpApi.Response) : Except String BoringtunRegisterResponse :=
  let text := bodyText base64Encode r.body
  if !resOk r then .error ("boringtun register failed (" ++ r.status.repr ++ "): " ++ text)
  else match r.body with
    | .success r =>
      let data : BoringtunRegisterResponse :=
        { serverPublicKey := serverPubkeyText base64Encode r
          endpoint := endpointText r
          assignedIp := ipText r.assignedIp ++ "/32" }
      if data.serverPublicKey = "" ∨ data.assignedIp = "" ∨ data.endpoint = "" then
        .error ("boringtun register incomplete response: " ++ text)
      else .ok data
    | _ => .error ("boringtun register incomplete response: " ++ text)

def unregisterWireGuardPeer (r : HttpApi.Response) : Except String Unit :=
  if resOk r then .ok ()
  else
    .error ("boringtun unregister failed (" ++ r.status.repr ++ "): " ++
      bodyText base64Encode r.body)

end

-- ---------------------------------------------------------------------------
-- boringtun, one operation at a time
-- ---------------------------------------------------------------------------

section
variable (settings : Settings) (base64Decode : String → Option Bytes)

def elapse (s : Service) (ms : Nat) : Service := { s with now := s.now + 10 ^ 6 * ms }

/-- A registration whose UAPI call succeeds; `none` when the pool does not
hold the octet. -/
def handleRegistration (s : Service) (pubkeyBase64 : String) (info : Except String (Option UInt16))
    (octet : UInt8) : Option (Service × HttpApi.Response) :=
  match beginRegistration settings base64Decode s.device s.inner pubkeyBase64 info octet with
  | .answer inner r => some ({ s with inner }, r)
  | .call inner key octet =>
    if octet ∈ inner.availableIps then
      let (device, reply) := uapiSetPeer s.device key (addrOf settings octet) .ok
      let (inner, r) := finishRegistration settings inner key octet s.now reply
      some
        ({ s with
            device, inner
            committed := match reply with
              | .ok () => insert key s.committed
              | .error _ => s.committed }, r)
    else none

def handleUnregister (s : Service) (pubkeyBase64 : String) : Service × HttpApi.Response :=
  match beginUnregister base64Decode s.inner pubkeyBase64 with
  | .answer inner r => ({ s with inner }, r)
  | .call inner key octet =>
    let (device, reply) := uapiRemovePeer s.device key .ok
    let (inner, r) := finishUnregister inner key octet reply
    ({ s with device, inner }, r)

def reapAll (s : Service) (rest : List (Bytes32 × UInt8)) : Service :=
  rest.foldl (fun s e =>
    let (device, inner) := reapOne s.device s.inner e.1 e.2 .ok
    { s with device, inner }) s

/-- A tick of the reaper, all of whose UAPI calls succeed. -/
def runReaper (s : Service) (ages : Bytes32 → Option Nat) : Service :=
  reapAll { s with committed := ∅ } (toRemove s.inner (uapiGetPeers s.device ages) s.now)

end

-- ---------------------------------------------------------------------------
-- What the operations of boringtun do
-- ---------------------------------------------------------------------------

/-- The service between two operations. -/
structure Ready (settings : Settings) (s : Service) : Prop where
  agrees : Service.Agrees settings s
  http : s.http = .idle
  reaper : s.reaper = .idle

section
variable {settings : Settings} {base64Decode : String → Option Bytes} {s s' : Service}

theorem init_ready (settings : Settings) (d : Device) : Ready settings (.init d) :=
  ⟨Service.init_agrees d, rfl, rfl⟩

theorem ready_of_exec (hi : Ready settings s)
    (he : exec (Service.step settings base64Decode) s is = some s') (hd : ∀ i ∈ is, i.Definite)
    (hh : s'.http = .idle) (hr : s'.reaper = .idle) : Ready settings s' := by
  have hdefinite : Along (Service.step settings base64Decode) (fun _ i => i.Definite) s is :=
    along_iff_at.mpr fun pre i post t hsplit _ => hd i (by rw [hsplit]; simp)
  exact ⟨invariant (fun _ _ _ hi hc hs => Service.step_agrees hi hc hs) hi.agrees hdefinite he,
    hh, hr⟩

theorem elapse_ready (base64Decode : String → Option Bytes) (hi : Ready settings s) (ms : Nat) :
    Ready settings (elapse s ms) := by
  have he : exec (Service.step settings base64Decode) s [.elapse (10 ^ 6 * ms)] =
      some (elapse s ms) := rfl
  exact ready_of_exec hi he (fun i h => List.mem_singleton.mp h ▸ trivial) hi.http hi.reaper

theorem free_of_ready (hi : Ready settings s) : s.handlerFree = true := by
  simp [Service.handlerFree, hi.http, hi.reaper]

theorem handleRegistration_ready (hi : Ready settings s)
    (h : handleRegistration settings base64Decode s pk info octet = some (s', r)) :
    Ready settings s' := by
  have hfree := free_of_ready hi
  unfold handleRegistration at h
  split at h
  · rename_i inner r' hb
    cases h
    have he : exec (Service.step settings base64Decode) s [.register pk info octet] =
        some { s with inner } := by
      simp only [exec_cons, Service.step, hfree, hb, if_true, Option.bind_some, exec_nil]
    exact ready_of_exec hi he (fun i h => List.mem_singleton.mp h ▸ trivial) hi.http hi.reaper
  · rename_i inner key octet' hb
    split at h
    · rename_i hmem
      cases h
      refine ready_of_exec hi (?_ : exec (Service.step settings base64Decode) s
        [.register pk info octet, .uapi .ok, .reply] = some _)
        (by simp [HttpApi.Input.Definite, Call.Definite]) hi.http hi.reaper
      simp only [exec_cons, Service.step, hfree, hb, hmem, if_true, Option.bind_some, exec_nil,
        hi.http]
      rfl
    · cases h

theorem handleUnregister_ready (hi : Ready settings s) :
    Ready settings (handleUnregister base64Decode s pk).1 := by
  have hfree := free_of_ready hi
  unfold handleUnregister
  split
  · rename_i inner r' hb
    have he : exec (Service.step settings base64Decode) s [.unregister pk] =
        some { s with inner } := by
      simp only [exec_cons, Service.step, hfree, hb, if_true, Option.bind_some, exec_nil]
    exact ready_of_exec hi he (fun i h => List.mem_singleton.mp h ▸ trivial) hi.http hi.reaper
  · rename_i inner key octet' hb
    refine ready_of_exec hi (?_ : exec (Service.step settings base64Decode) s
      [.unregister pk, .uapi .ok, .reply] = some _)
      (by simp [HttpApi.Input.Definite, Call.Definite]) hi.http hi.reaper
    simp only [exec_cons, Service.step, hfree, hb, if_true, Option.bind_some, exec_nil, hi.http]

theorem reapAll_exec (base64Decode : String → Option Bytes) (s : Service)
    (rest : List (Bytes32 × UInt8)) :
    exec (Service.step settings base64Decode) { s with reaper := .ofRest rest }
        (List.replicate rest.length (.reap .ok)) =
      some { reapAll s rest with reaper := .idle } := by
  induction rest generalizing s with
  | nil => rfl
  | cons e rest ih =>
    obtain ⟨key, octet⟩ := e
    exact ih { s with
      device := (reapOne s.device s.inner key octet .ok).1
      inner := (reapOne s.device s.inner key octet .ok).2 }

theorem reapAll_same (s : Service) (rest : List (Bytes32 × UInt8)) :
    (reapAll s rest).reaper = s.reaper ∧ (reapAll s rest).http = s.http ∧
      (reapAll s rest).now = s.now := by
  induction rest generalizing s with
  | nil => exact ⟨rfl, rfl, rfl⟩
  | cons e rest ih => exact ih _

theorem runReaper_ready (base64Decode : String → Option Bytes) (hi : Ready settings s)
    (ages : Bytes32 → Option Nat) : Ready settings (runReaper s ages) := by
  obtain ⟨hr, hh, -⟩ := reapAll_same { s with committed := ∅ }
    (toRemove s.inner (uapiGetPeers s.device ages) s.now)
  have hstart : exec (Service.step settings base64Decode) s
      [.snapshot (.ok ages), .readClock, .scan] = some { s with
        reaper := .ofRest (toRemove s.inner (uapiGetPeers s.device ages) s.now)
        committed := ∅ } := by
    simp only [exec_cons, Service.step, hi.reaper, hi.http, Option.bind_some, exec_nil]
  have he := (exec_append_some _).mpr ⟨_, hstart,
    reapAll_exec base64Decode { s with committed := ∅ } _⟩
  have hsame : ({ runReaper s ages with reaper := .idle } : Service) = runReaper s ages := by
    have hidle : (runReaper s ages).reaper = .idle := hr.trans hi.reaper
    rw [← hidle]
  refine ready_of_exec hi (hsame ▸ he) (fun i hmem => ?_) (hh.trans hi.http) (hr.trans hi.reaper)
  rcases List.mem_append.mp hmem with hmem | hmem
  · simp only [List.mem_cons, List.not_mem_nil, or_false] at hmem
    rcases hmem with rfl | rfl | rfl <;> trivial
  · rw [(List.mem_replicate.mp hmem).2]
    trivial

-- What the table still holds

theorem handleRegistration_lookup (hi : Ready settings s)
    (h : handleRegistration settings base64Decode s pk info octet = some (s', r))
    (hl : s.inner.peerToOctet.lookup key = some o) : s'.inner.peerToOctet.lookup key = some o := by
  unfold handleRegistration at h
  rcases beginRegistration_cases settings base64Decode s.device hi.agrees.table pk info octet with
    ⟨inner, r', hb, hsame, -⟩ | ⟨inner, key', hb, hsame, hnone⟩
  · simp only [hb] at h
    cases h
    rw [hsame.lookup]
    exact hl
  · simp only [hb] at h
    split at h
    · cases h
      have hne : key ≠ key' := by
        rintro rfl
        rw [hnone] at hl
        cases hl
      cases (uapiSetPeer s.device key' (addrOf settings octet) .ok).2 with
      | error e =>
        simp only [finishRegistration, hsame.lookup]
        exact hl
      | ok u =>
        simp only [finishRegistration, AList.lookup_insert_ne hne, hsame.lookup]
        exact hl
    · cases h

theorem handleUnregister_lookup (hk : decodeKey base64Decode pk ≠ .ok key)
    (hl : s.inner.peerToOctet.lookup key = some o) :
    (handleUnregister base64Decode s pk).1.inner.peerToOctet.lookup key = some o := by
  unfold handleUnregister beginUnregister
  split
  · rename_i inner r hb
    split at hb
    · cases hb
      exact hl
    · split at hb <;> cases hb
      exact hl
  · rename_i inner key' octet hb
    split at hb
    · cases hb
    · rename_i key'' hkey
      split at hb <;> cases hb
      have hne : key ≠ key' := by
        rintro rfl
        exact hk hkey
      simp only [uapiRemovePeer, finishUnregister, RegistrationInner.forget_lookup, if_neg hne]
      exact hl

theorem reapAll_lookup (s : Service) (rest : List (Bytes32 × UInt8)) (hk : ∀ e ∈ rest, e.1 ≠ key)
    (hl : s.inner.peerToOctet.lookup key = some o) :
    (reapAll s rest).inner.peerToOctet.lookup key = some o := by
  induction rest generalizing s with
  | nil => exact hl
  | cons e rest ih =>
    refine ih _ (fun e he => hk e (List.mem_cons_of_mem _ he)) ?_
    have hne : key ≠ e.1 := fun h => hk e List.mem_cons_self h.symm
    simp only [reapOne, uapiRemovePeer, RegistrationInner.forget_lookup, if_neg hne]
    exact hl

theorem runReaper_lookup (ages : Bytes32 → Option Nat)
    (hs : isStale s.inner (uapiGetPeers s.device ages) s.now key = false)
    (hl : s.inner.peerToOctet.lookup key = some o) :
    (runReaper s ages).inner.peerToOctet.lookup key = some o := by
  refine reapAll_lookup _ _ (fun e he => ?_) hl
  rintro rfl
  simp only [toRemove, List.mem_map, List.mem_filter] at he
  obtain ⟨x, ⟨-, hx⟩, rfl⟩ := he
  rw [hs] at hx
  cases hx

-- What a registration tells

theorem registerWireGuardPeer_ok {base64Encode : Bytes → String}
    (h : registerWireGuardPeer base64Encode r = .ok data) :
    ∃ success, r.body = .success success ∧
      data.assignedIp = ipText success.assignedIp ++ "/32" := by
  simp only [registerWireGuardPeer] at h
  split at h
  · cases h
  · split at h
    · rename_i success hr
      split at h <;> cases h
      exact ⟨success, hr, rfl⟩
    · cases h

theorem populate_body {inner : RegistrationInner} (h : populate d inner info = .error r) :
    ∃ text, r.body = .error text := by
  unfold populate at h
  split at h
  · cases h
  · split at h
    · cases h
      exact ⟨_, rfl⟩
    · split at h <;> cases h
      exact ⟨_, rfl⟩

theorem answer_success {inner inner' : RegistrationInner}
    (h : beginRegistration settings base64Decode d inner pk info octet = .answer inner' r)
    (hr : r.body = .success data) :
    ∃ key o, decodeKey base64Decode pk = .ok key ∧ inner'.peerToOctet.lookup key = some o ∧
      data.assignedIp = addrOf settings o := by
  unfold beginRegistration at h
  split at h
  · cases h
    cases hr
  · rename_i key hkey
    split at h
    · rename_i hp
      cases h
      obtain ⟨text, htext⟩ := populate_body hp
      cases htext.symm.trans hr
    · split at h
      · rename_i o ho
        cases h
        cases hr
        split at ho
        · exact ⟨key, o, hkey, ho, rfl⟩
        · cases ho
      · split at h <;> cases h
        cases hr

theorem call_key {inner inner' : RegistrationInner}
    (h : beginRegistration settings base64Decode d inner pk info octet = .call inner' key o) :
    decodeKey base64Decode pk = .ok key := by
  unfold beginRegistration at h
  split at h
  · cases h
  · rename_i hkey
    split at h
    · cases h
    · split at h
      · cases h
      · split at h <;> cases h
        exact hkey

theorem handleRegistration_ok {base64Encode : Bytes → String}
    (h : handleRegistration settings base64Decode s pk info octet = some (s', r))
    (hok : registerWireGuardPeer base64Encode r = .ok data) :
    ∃ key o, decodeKey base64Decode pk = .ok key ∧ s'.inner.peerToOctet.lookup key = some o ∧
      data.assignedIp = ipText (addrOf settings o) ++ "/32" := by
  obtain ⟨success, hr, hip⟩ := registerWireGuardPeer_ok hok
  unfold handleRegistration at h
  split at h
  · rename_i hb
    cases h
    obtain ⟨key, o, hkey, ho, haddr⟩ := answer_success hb hr
    exact ⟨key, o, hkey, ho, by rw [hip, haddr]⟩
  · rename_i inner key octet' hb
    split at h
    · generalize uapiSetPeer s.device key (addrOf settings octet') .ok = out at h
      obtain ⟨device, reply⟩ := out
      cases h
      cases reply with
      | error e => cases hr
      | ok u =>
        cases hr
        exact ⟨key, octet', call_key hb, AList.lookup_insert _, hip⟩
    · cases h

end

-- ---------------------------------------------------------------------------
-- The system
-- ---------------------------------------------------------------------------

/-- The operation in progress. -/
inductive Op
  | idle
  | request (r : Nat)
  | tick (t : Nat)
  deriving DecidableEq

structure Stack where
  server : Server
  service : Service
  op : Op

inductive Input
  | elapse (ms : Nat)
  /-- A request for a connect or a renewal comes in. -/
  | request (r : Nat) (route : Route) (body : RequestBody) (proof : Option Proof)
  /-- The request goes on to its call of boringtun. -/
  | event (e : Event)
  /-- boringtun serves the request. -/
  | register (port : Option UInt16) (octet : UInt8)
  /-- The timer of the expiry worker fires. -/
  | tick (t : Nat)
  /-- boringtun serves the worker. -/
  | unregister
  /-- The reaper ticks; the device tells the ages of the handshakes. -/
  | reap (ages : Bytes32 → Option Nat)

def calledKey : Option Phase → Option String
  | some (.connecting q _ _) | some (.renewing q _ _) => some q.wgKey
  | _ => none

def opAfter (s : Server) (r : Nat) : Op :=
  match s.requests r with
  | some (.answered _) => .idle
  | _ => .request r

namespace Stack

section
variable (cfg : VpnServer.ServerConfig) (settings : Settings) (base64Decode : String → Option Bytes)
  (base64Encode : Bytes → String)

def init (start : Int) (d : Device) : Stack := ⟨.init start, .init d, .idle⟩

/-- The session the tick in progress has boringtun drop the peer of. -/
def expiring (g : Stack) : Option VpnSession :=
  match g.op with
  | .tick t => (g.server.ticks t).head?.bind fun ref => g.server.store.objects[ref]?
  | _ => none

def step (g : Stack) : Input → Option Stack
  | .elapse ms =>
    (g.server.step cfg (.elapse ms)).map fun server =>
      { g with server, service := elapse g.service ms }
  | .request r route body proof =>
    if g.op = .idle then
      (g.server.step cfg (.request r route body proof)).map fun server =>
        { g with server, op := opAfter server r }
    else none
  | .event e =>
    match g.op, e with
    | _, .registered _ => none
    | .request r, e =>
      (g.server.step cfg (.event r e)).map fun server => { g with server, op := opAfter server r }
    | _, _ => none
  | .register port octet =>
    match g.op with
    | .request r =>
      (calledKey (g.server.requests r)).bind fun wgKey =>
        (handleRegistration settings base64Decode g.service wgKey (.ok port) octet).bind
          fun (service, response) =>
            (g.server.step cfg
                (.event r (.registered (registerWireGuardPeer base64Encode response)))).map
              fun server => ⟨server, service, opAfter server r⟩
    | _ => none
  | .tick t =>
    if g.op = .idle then
      (g.server.step cfg (.tick t)).map fun server =>
        { g with server, op := if server.ticks t = [] then .idle else .tick t }
    else none
  | .unregister =>
    match g.op with
    | .tick t =>
      g.expiring.bind fun session =>
        let (service, response) :=
          handleUnregister base64Decode g.service session.wireguardPublicKey
        (g.server.step cfg (.unregistered t (unregisterWireGuardPeer base64Encode response))).map
          fun server => ⟨server, service, if server.ticks t = [] then .idle else .tick t⟩
    | _ => none
  | .reap ages => if g.op = .idle then some { g with service := runReaper g.service ages } else none

end

end Stack

/-- The base64 encoder, on the key of the sample server. -/
def sampleEncode (bytes : Bytes) : String :=
  if bytes = (samplePrimitives.x25519PublicKey sampleKey).toList then
    "pOCSkrZRwni5dyxWn1+puxPZBrRqtoyd+dwrRAn4ogk="
  else ""

end Xelt.Gateway
