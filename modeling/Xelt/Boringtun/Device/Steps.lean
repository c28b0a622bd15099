import Xelt.Boringtun.Device.Calls
import Xelt.Lib.Runs
import Xelt.Lib.Tagged

/-!
# One step of a server

A step of the device, seen from one peer object: it is absent, it is added
with a fresh quota, it is left alone, or a handler serves it. Every theorem
about the runs of a server rests on this reading.
-/

namespace Xelt.Boringtun

open Noise Payment Bytes Tagged

/-- The configuration of a server. -/
structure ServerConfig extends PaymentConfig where
  server : isServer = true

namespace Device

/-- What an event asks of a peer object. -/
def ask (d : Device) (pid : PeerId) (e : Event) : Option Ask :=
  (d.heap pid).bind fun p =>
    match e with
    | .udp _ _ packet =>
      if d.findPeer packet = some pid then some (inboundAsk d.toPaymentState p packet) else none
    | .conn _ target packet =>
      if target = pid then some (inboundAsk d.toPaymentState p packet) else none
    | .iface _ src =>
      if src.length ≤ maxUdpSize ∧ (Tunn.dstAddress src).bind d.peersByIp.find = some pid then
        some (.meter src.length)
      else none
    | .timer target _ => if target = pid then some .nothing else none
    | .setKey _ | .updatePeer .. | .clearPeers => none

/-- A server all of whose peers have a quota. -/
structure Metered (d : Device) : Prop where
  server : d.paymentConfig.isServer = true
  fresh : ∀ pid, d.heapSize ≤ pid → d.heap pid = none
  quota : ∀ pid p, d.heap pid = some p → ∃ q, p.quota = some q

/-- What a step makes of one peer object, the effects on it included. -/
inductive PeerStep (g : Gauge) (quotaBytes : UInt64) :
    Option Ask → Option Peer → Option Peer → List Effect → Prop
  | absent : PeerStep g quotaBytes none none none []
  | added (hq : p.quota = some (.new defaultQuotaBytes)) (ht : p.tunnel = .new) :
      PeerStep g quotaBytes none none (some p) []
  | idle (hq : p'.quota = p.quota)
      (ht : p'.tunnel.queued g.weight = p.tunnel.queued g.weight) :
      PeerStep g quotaBytes none (some p) (some p') []
  | served (hq : p.quota = some q) (h : Served g quotaBytes p q a (p', effs)) :
      PeerStep g quotaBytes (some a) (some p) (some p') effs

variable {prim : Primitives} {d : Device} {g : Gauge}

theorem PeerStep.unchanged : PeerStep g quotaBytes none p p [] := by
  cases p with
  | none => exact .absent
  | some p => exact .idle rfl rfl

theorem call_served (hd : d.Metered) (hc : d.call prim e = some (pid, f))
    (hp : d.heap pid = some p) (hq : p.quota = some q) :
    ∃ ask, d.ask pid e = some ask ∧ Served g d.paymentConfig.quotaBytes p q ask (f p) := by
  cases e with
  | udp env addr packet =>
    simp only [call, Option.map_eq_some_iff, Prod.mk.injEq] at hc
    obtain ⟨_, hfind, rfl, rfl⟩ := hc
    exact ⟨_, by simp [ask, hp, hfind], udpHandler_served hd.server hq packet⟩
  | conn env target packet =>
    simp only [call, Option.some.injEq, Prod.mk.injEq] at hc
    obtain ⟨rfl, rfl⟩ := hc
    exact ⟨_, by simp [ask, hp], connHandler_served hd.server hq packet⟩
  | iface env src =>
    simp only [call] at hc
    split at hc
    · rename_i hl
      simp only [Option.map_eq_some_iff, Prod.mk.injEq] at hc
      obtain ⟨_, hfind, rfl, rfl⟩ := hc
      exact ⟨_, by simp [ask, hp, hl, hfind], ifaceHandler_served hd.server hq hl⟩
    · cases hc
  | timer target outcome =>
    simp only [call, Option.some.injEq, Prod.mk.injEq] at hc
    obtain ⟨rfl, rfl⟩ := hc
    exact ⟨_, by simp [ask, hp], timerHandler_served hq outcome⟩
  | setKey privateKey => cases hc
  | updatePeer pubKey remove endpoint allowedIps => cases hc
  | clearPeers => cases hc

theorem ask_none (prim : Primitives) (h : ∀ f, d.call prim e ≠ some (pid, f)) :
    d.ask pid e = none := by
  cases hp : d.heap pid with
  | none => simp [ask, hp]
  | some p =>
    cases e with
    | udp env addr packet =>
      have hfind : d.findPeer packet ≠ some pid := fun hfind => by simp [call, hfind] at h
      simp [ask, hp, hfind]
    | conn env target packet =>
      have ht : target ≠ pid := by rintro rfl; simp [call] at h
      simp [ask, hp, ht]
    | iface env src =>
      have hfind : ¬ (src.length ≤ maxUdpSize ∧
          (Tunn.dstAddress src).bind d.peersByIp.find = some pid) := by
        rintro ⟨hl, hfind⟩
        simp [call, hl, hfind] at h
      simp only [ask, hp, Option.bind_some, if_neg hfind]
    | timer target outcome =>
      have ht : target ≠ pid := by rintro rfl; simp [call] at h
      simp [ask, hp, ht]
    | setKey privateKey => simp [ask, hp]
    | updatePeer pubKey remove endpoint allowedIps => simp [ask, hp]
    | clearPeers => simp [ask, hp]

/-- A step either runs a handler or changes the set of peers. -/
theorem step_cases (h : d.step prim e = some d') :
    (∃ target f, d.call prim e = some (target, f) ∧ d' = d.handle target f) ∨
    (d.call prim e = none ∧ (d' = d ∨ (∃ k, d' = d.setKey prim k) ∨
      (∃ k r a ips, d.updatePeer k r a ips = some d') ∨ d' = d.clearPeers)) := by
  cases e with
  | setKey privateKey =>
    exact .inr ⟨rfl, .inr (.inl ⟨privateKey, (Option.some.inj h).symm⟩)⟩
  | updatePeer pubKey remove endpoint allowedIps =>
    exact .inr ⟨rfl, .inr (.inr (.inl ⟨_, _, _, _, h⟩))⟩
  | clearPeers => exact .inr ⟨rfl, .inr (.inr (.inr (Option.some.inj h).symm))⟩
  | _ =>
    simp only [step] at h
    split at h
    · rename_i hc
      exact .inr ⟨hc, .inl (Option.some.inj h).symm⟩
    · rename_i pid f hc
      exact .inl ⟨pid, f, hc, (Option.some.inj h).symm⟩

@[simp] theorem removePeer_heap (d : Device) : (d.removePeer k).heap = d.heap := by
  unfold removePeer; split <;> rfl
@[simp] theorem removePeer_heapSize (d : Device) : (d.removePeer k).heapSize = d.heapSize := by
  unfold removePeer; split <;> rfl
@[simp] theorem removePeer_paymentConfig (d : Device) :
    (d.removePeer k).paymentConfig = d.paymentConfig := by
  unfold removePeer; split <;> rfl

theorem updatePeer_cases (h : d.updatePeer k r a ips = some d') :
    d'.paymentConfig = d.paymentConfig ∧
    ((d'.heap = d.heap ∧ d'.heapSize = d.heapSize) ∨
      ∃ p, p.quota = some (.new defaultQuotaBytes) ∧ p.tunnel = .new ∧
        d'.heap = Function.update d.heap d.heapSize (some p) ∧ d'.heapSize = d.heapSize + 1) := by
  unfold updatePeer at h
  split at h
  · cases h
    simp
  · split at h
    · cases h
    · split at h
      · cases h
        exact ⟨rfl, .inr ⟨_, rfl, rfl, rfl, rfl⟩⟩
      · cases h

theorem setKey_cases (prim : Primitives) (d : Device) (k : Bytes32) :
    (d.setKey prim k).paymentConfig = d.paymentConfig ∧
    (d.setKey prim k).heapSize = d.heapSize ∧
    ∀ pid, (d.setKey prim k).heap pid = d.heap pid ∨
      (d.setKey prim k).heap pid =
        (d.heap pid).map fun p => { p with tunnel := p.tunnel.setStaticPrivate } := by
  unfold setKey
  simp only
  split
  · exact ⟨rfl, rfl, fun _ => .inl rfl⟩
  · refine ⟨rfl, rfl, fun pid => ?_⟩
    by_cases hm : pid ∈ d.peers.entries.map (·.2)
    · exact .inr (by simp only [hm, if_true])
    · exact .inl (by simp only [hm, if_false]; simp)

theorem step_of_call (h : d.call prim e = some r) :
    d.step prim e = some (d.handle r.1 r.2) := by
  cases e with
  | setKey privateKey => cases h
  | updatePeer pubKey remove endpoint allowedIps => cases h
  | clearPeers => cases h
  | _ => simp only [step, h]

theorem effects_call_none (h : d.call prim e = none) : d.effects prim e = [] := by
  simp [effects, h]

theorem step_of_effect (h : x ∈ d.effects prim e) : ∃ d', d.step prim e = some d' := by
  cases hc : d.call prim e with
  | none => simp [effects, hc] at h
  | some r => exact ⟨_, step_of_call hc⟩

/-- Every step, from one peer object. -/
theorem step_peer (hd : d.Metered) (h : d.step prim e = some d') (pid : PeerId) :
    PeerStep g d.paymentConfig.quotaBytes (d.ask pid e) (d.heap pid) (d'.heap pid)
      (select pid (d.effects prim e)) := by
  rcases step_cases h with ⟨target, f, hc, rfl⟩ | ⟨hc, hset⟩
  · by_cases ht : target = pid
    · subst ht
      cases hp : d.heap target with
      | none =>
        have hask : d.ask target e = none := by simp [ask, hp]
        simpa [hask, handle, hp, effects, hc] using PeerStep.absent
      | some p =>
        obtain ⟨q, hq⟩ := hd.quota target p hp
        obtain ⟨ask, hask, hs⟩ := call_served (g := g) hd hc hp hq
        simpa [hask, handle, hp, effects, hc, select_self] using PeerStep.served hq hs
    · have hask : d.ask pid e = none := ask_none prim fun f' hf' => by
        rw [hc] at hf'
        exact ht (Prod.mk.inj (Option.some.inj hf')).1
      have heff : select pid (d.effects prim e) = [] := by
        simp only [effects, hc]
        split
        · rfl
        · exact select_other ht _
      have hheap : (d.handle target f).heap pid = d.heap pid := by
        unfold handle
        split
        · rfl
        · simp [Ne.symm ht]
      rw [hask, heff, hheap]
      exact .unchanged
  · have hask : d.ask pid e = none := ask_none prim (by simp [hc])
    rw [hask, effects_call_none hc]
    rcases hset with rfl | ⟨k, rfl⟩ | ⟨k, r, a, ips, hu⟩ | rfl
    · exact .unchanged
    · rcases (setKey_cases prim d k).2.2 pid with hk | hk
      · rw [hk]
        exact .unchanged
      · rw [hk]
        cases d.heap pid with
        | none => exact .absent
        | some p => exact .idle rfl (by simp)
    · rcases (updatePeer_cases hu).2 with ⟨hh, -⟩ | ⟨p, hq, ht, hh, -⟩
      · rw [hh]
        exact .unchanged
      · rw [hh]
        by_cases hpid : pid = d.heapSize
        · subst hpid
          rw [hd.fresh _ le_rfl]
          simpa using PeerStep.added hq ht
        · rw [Function.update_of_ne hpid]
          exact .unchanged
    · exact .unchanged

theorem step_paymentConfig (h : d.step prim e = some d') :
    d'.paymentConfig = d.paymentConfig := by
  rcases step_cases h with ⟨target, f, hc, rfl⟩ | ⟨-, rfl | ⟨k, rfl⟩ | ⟨k, r, a, ips, hu⟩ | rfl⟩
  · unfold handle
    split <;> rfl
  · rfl
  · exact (setKey_cases prim d k).1
  · exact (updatePeer_cases hu).1
  · rfl

theorem step_fresh (hd : d.Metered) (h : d.step prim e = some d') :
    ∀ pid, d'.heapSize ≤ pid → d'.heap pid = none := by
  intro pid hpid
  rcases step_cases h with ⟨target, f, hc, rfl⟩ | ⟨-, rfl | ⟨k, rfl⟩ | ⟨k, r, a, ips, hu⟩ | rfl⟩
  · unfold handle at hpid ⊢
    split at hpid
    · rename_i hp
      simpa [hp] using hd.fresh pid hpid
    · rename_i p hp
      have hne : pid ≠ target := by
        rintro rfl
        simp [hd.fresh pid hpid] at hp
      simpa [hp, hne] using hd.fresh pid hpid
  · exact hd.fresh pid hpid
  · obtain ⟨-, hsize, hk⟩ := setKey_cases prim d k
    have hnone := hd.fresh pid (hsize ▸ hpid)
    rcases hk pid with hk | hk <;> simp [hk, hnone]
  · rcases (updatePeer_cases hu).2 with ⟨hh, hsize⟩ | ⟨p, -, -, hh, hsize⟩
    · rw [hh]
      exact hd.fresh pid (hsize ▸ hpid)
    · have hne : pid ≠ d.heapSize := by omega
      rw [hh, Function.update_of_ne hne]
      exact hd.fresh pid (by omega)
  · exact hd.fresh pid hpid

theorem PeerStep.keeps_quota (h : PeerStep g quotaBytes a p p' effs)
    (hq : ∀ o, p = some o → ∃ q, o.quota = some q) : ∀ o, p' = some o → ∃ q, o.quota = some q := by
  rintro o rfl
  cases h with
  | added hnew ht => exact ⟨_, hnew⟩
  | idle hsame ht => rw [hsame]; exact hq _ rfl
  | served hold hs => exact ⟨_, hs.charge.choose_spec.1⟩

end Device

def Gauge.zero : Gauge where
  weight _ := 0
  rate := 0
  keepalive := rfl
  required _ _ _ _ := rfl
  accepted _ _ _ _ := rfl
  interface _ := Nat.zero_le _

namespace Device

variable {prim : Primitives} {d : Device}

theorem step_metered (hd : d.Metered) (h : d.step prim e = some d') :
    d'.Metered where
  server := by rw [step_paymentConfig h]; exact hd.server
  fresh := step_fresh hd h
  quota pid := (step_peer (g := .zero) hd h pid).keeps_quota (hd.quota pid)

/-- A step that asks a peer for something charges its quota for it. -/
theorem step_charge (hd : d.Metered) (h : d.step prim e = some d') (ha : d.ask pid e = some a) :
    ∃ p q p' q', d.heap pid = some p ∧ p.quota = some q ∧
      d'.heap pid = some p' ∧ p'.quota = some q' ∧
      Charge d.paymentConfig.quotaBytes q a q' (payments (select pid (d.effects prim e))) := by
  have hpeer := step_peer (g := .zero) hd h pid
  rw [ha] at hpeer
  generalize d.heap pid = p at *
  generalize d'.heap pid = p' at *
  generalize select pid (d.effects prim e) = effs at *
  cases hpeer with
  | served hq hs =>
    obtain ⟨q', hq', hcharge⟩ := hs.charge
    exact ⟨_, _, _, q', rfl, hq, rfl, hq', hcharge⟩

/-- A step that asks a peer for nothing leaves its quota alone. -/
theorem step_idle (hd : d.Metered) (h : d.step prim e = some d') (ha : d.ask pid e = none) :
    select pid (d.effects prim e) = [] ∧
      ∀ p q, d.heap pid = some p → p.quota = some q →
        ∃ p', d'.heap pid = some p' ∧ p'.quota = some q := by
  have hpeer := step_peer (g := .zero) hd h pid
  rw [ha] at hpeer
  generalize d.heap pid = p at *
  generalize d'.heap pid = p' at *
  generalize select pid (d.effects prim e) = effs at *
  cases hpeer with
  | absent => exact ⟨rfl, fun _ _ hp => by cases hp⟩
  | added hnew ht => exact ⟨rfl, fun _ _ hp => by cases hp⟩
  | idle hsame ht =>
    refine ⟨rfl, fun p q hp hq => ?_⟩
    obtain rfl := Option.some.inj hp
    exact ⟨_, rfl, hsame.trans hq⟩

def log (prim : Primitives) (pid : PeerId) (d : Device) (es : List Event) : List Effect :=
  select pid (Runs.trace (step prim) (effects prim) d es)

theorem log_append (he : Runs.exec (step prim) d es = some d') :
    d.log prim pid (es ++ es') = d.log prim pid es ++ d'.log prim pid es' := by
  simp [log, Runs.trace_append he]

theorem log_single (h : d.step prim e = some d') :
    d.log prim pid [e] = select pid (d.effects prim e) := by
  simp [log, Runs.trace_cons_some h]

theorem step_of_ask (prim : Primitives) (h : d.ask pid e = some a) :
    ∃ d', d.step prim e = some d' := by
  cases e with
  | setKey privateKey => exact ⟨_, rfl⟩
  | clearPeers => exact ⟨_, rfl⟩
  | updatePeer pubKey remove endpoint allowedIps =>
    simp [ask] at h
  | _ =>
    simp only [step]
    split <;> exact ⟨_, rfl⟩

def start (config : ServerConfig) (nextIndex : IndexLfsr) : Device :=
  .init config.toPaymentConfig nextIndex

theorem start_metered (config : ServerConfig) (nextIndex : IndexLfsr) :
    (start config nextIndex).Metered where
  server := config.server
  fresh _ _ := rfl
  quota pid p h := by cases h

end Device

-- ---------------------------------------------------------------------------
-- A sample server
-- ---------------------------------------------------------------------------

def sampleConfig : ServerConfig where
  chainId := 5042002
  usdcContract := beArray 20 0x3600000000000000000000000000000000000000
  amountPerQuota := 10000
  quotaBytes := 10 * 1024 * 1024
  gatewayWallet := beArray 20 0x0077777d7EBA4688BDeF3E311b846F25870A19B9
  gatewayName := "GatewayWalletBatched"
  gatewayVersion := "1"
  isServer := true
  server := rfl

def sampleIndex : IndexLfsr := { initial := 1, lfsr := 1, mask := 1 }

def sampleKey : Bytes32 :=
  beArray 32 0x0101010101010101010101010101010101010101010101010101010101010101

def sampleWallet : PaymentWallet where
  signingKey := beArray 32 0x1b41a33d515e3fe5398340527d58a5fa37ad2083d46b51b95fc9ffeb0cf148a8
  ethereumAddress := beArray 20 0x68fb148feee7f293befbe2296b6c466304d44614

/-- The library calls, with the keys they derive from `sampleKey`; the hash
and the signatures are not asked. -/
def samplePrimitives : Primitives where
  keccak256 _ := beArray 32 0
  x25519PublicKey _ :=
    beArray 32 0xa4e09292b651c278b9772c569f5fa9bb13d906b46ab68c9df9dc2b4409f8a209
  fromWireguardKey _ := sampleWallet
  signDigest _ _ := (27, beArray 32 0, beArray 32 0)
  recoverAddress _ _ _ _ := none

/-- A peer key, and the address its peer is allowed. -/
def samplePeerKey : Bytes32 :=
  beArray 32 0x8520f0098930a754748b7ddcb43ef75a0dbf3a0d26381af4eba4a98eaa9b4e6a

def sampleAddr : Ipv4Addr := .new 10 0 0 2

def samplePeer : Peer where
  tunnel := .new
  index := 1
  endpointAddr := none
  allowedIps := .ofList [⟨.v4 sampleAddr, 32⟩] ()
  quota := some (.new defaultQuotaBytes)

section
variable (prim : Primitives)

def sampleKeyed : Device where
  paymentConfig := sampleConfig.toPaymentConfig
  paymentWallet := some (prim.fromWireguardKey sampleKey)
  settlementClient := true
  keyPair := some (sampleKey, prim.x25519PublicKey sampleKey)
  nextIndex := sampleIndex
  peers := ∅
  peersByIp := .new
  peersByIdx := ∅
  heap := fun _ => none
  heapSize := 0

def sampleServer : Device :=
  { sampleKeyed prim with
    nextIndex := { sampleIndex with lfsr := 0xd80000 }
    peers := AList.insert samplePeerKey 0 ∅
    peersByIp := .ofList [⟨.v4 sampleAddr, 32⟩] 0
    peersByIdx := AList.insert 1 0 ∅
    heap := Function.update (fun _ => none) 0 (some samplePeer)
    heapSize := 1 }

def addSamplePeer : Device.Event :=
  .updatePeer samplePeerKey false none [⟨.v4 sampleAddr, 32⟩]

theorem sampleKeyed_step :
    (Device.start sampleConfig sampleIndex).step prim (.setKey sampleKey) =
      some (sampleKeyed prim) := rfl

theorem sampleIndex_next : sampleIndex.next = some (1, { sampleIndex with lfsr := 0xd80000 }) := rfl

theorem sampleServer_step :
    (sampleKeyed prim).step prim addSamplePeer = some (sampleServer prim) := by
  have hnext : (sampleKeyed prim).nextIndex.next = _ := sampleIndex_next
  have hnone : (sampleKeyed prim).peers.lookup samplePeerKey = none := rfl
  have hkey : (sampleKeyed prim).keyPair = some (sampleKey, prim.x25519PublicKey sampleKey) := rfl
  simp only [addSamplePeer, Device.step, Device.updatePeer, hnext, hnone, hkey]
  rfl

theorem sampleServer_metered : (sampleServer prim).Metered :=
  Device.step_metered (Device.step_metered (Device.start_metered _ _) (sampleKeyed_step prim))
    (sampleServer_step prim)

end

def sampleEnv : Env := { now := 1700000000, nonce := beArray 32 7, settlement := .error }

def samplePacket (src dst : Ipv4Addr) : Bytes :=
  [0x45, 0, 0, 20, 0, 0, 0x40, 0, 64, 17, 0, 0] ++ src.octets ++ dst.octets

end Xelt.Boringtun
