import Xelt.Boringtun.Device.Steps

/-!
# Conservation of the quota

Every byte that passes a server for a peer was taken from a quota: what the
quota holds and what it gave away are the default and the credits, and what
was let through, in either direction and on any path, is no more than it gave
away.
-/

namespace Xelt.Boringtun

open Noise Payment Runs Tagged

/-- The bytes of a packet read from the interface. -/
def interfaceLength (packet : InnerPacket) : Nat :=
  if packet.source = .interface then packet.bytes.length else 0

/-- The inner bytes an effect passed on: written to the interface, or read
from it and encapsulated. -/
def Effect.forwarded : Effect → Nat
  | .write4 packet | .write6 packet => packet.length
  | .network datagram | .noEndpoint datagram => datagram.weight interfaceLength
  | _ => 0

def forwarded (effects : List Effect) : Nat := (effects.map (·.forwarded)).sum

def Effect.credited : Effect → Nat
  | .credit bytes => bytes.toNat
  | _ => 0

def credits (effects : List Effect) : Nat := (effects.map (·.credited)).sum

def byteGauge : Gauge where
  weight := interfaceLength
  rate := 1
  keepalive := rfl
  required _ _ _ _ := rfl
  accepted _ _ _ _ := rfl
  interface src := by simp [interfaceLength]

theorem emitted_byteGauge (effects : List Effect) :
    emitted byteGauge effects = forwarded effects := by
  have h (e : Effect) : e.weight byteGauge = e.forwarded := by
    cases e <;> simp [Effect.weight, Effect.forwarded, byteGauge]
  simp [emitted, forwarded, h]

section
variable (a b : List Effect)

@[simp] theorem forwarded_append : forwarded (a ++ b) = forwarded a + forwarded b := by
  simp [forwarded]
@[simp] theorem credits_append : credits (a ++ b) = credits a + credits b := by simp [credits]
theorem credits_cons (e : Effect) : credits (e :: a) = e.credited + credits a := by simp [credits]

theorem credits_payments : credits (payments a) = credits a := by
  induction a with
  | nil => rfl
  | cons e a ih => cases e <;> simp [payments_cons, credits_cons, ih, Effect.credited]

end

/-- The counters of a quota hold what the payment effects add to them. -/
def Fits (q : BandwidthQuota) (effects : List Effect) : Prop :=
  (∀ taken through, .consume taken through ∈ effects →
    q.totalConsumed.toNat + taken.toNat < 2 ^ 64) ∧
  ∀ bytes, .credit bytes ∈ effects → q.remainingBytes.toNat + bytes.toNat < 2 ^ 64

theorem Fits.nil : Fits q [] := ⟨by simp, by simp⟩

theorem Fits.payments (h : Fits q effects) : Fits q (payments effects) :=
  ⟨fun _ _ hm => h.1 _ _ (List.mem_of_mem_filter hm),
    fun _ hm => h.2 _ (List.mem_of_mem_filter hm)⟩

theorem Charge.balance (h : Charge quotaBytes q ask q' pays) (hfit : Fits q pays) :
    q'.remainingBytes.toNat + q'.totalConsumed.toNat =
        q.remainingBytes.toNat + q.totalConsumed.toNat + credits pays ∧
      q.totalConsumed.toNat + allowed pays ≤ q'.totalConsumed.toNat := by
  cases h with
  | nothing => simp [credits]
  | dropped => simp [credits]
  | rejected nonce => simp [credits]
  | credited nonce =>
    have hc := hfit.2 quotaBytes (by simp)
    simp [credits, Effect.credited, Effect.allowed, UInt64.toNat_add]
    omega
  | signed digest => simp [credits, Effect.credited, Effect.allowed]
  | blocked hb => simp [credits]
  | @forwarded len hm =>
    have ht : q.taken (.ofNat len) = .ofNat len := BandwidthQuota.taken_of_forward hm
    have hc := hfit.1 _ _ (List.mem_singleton_self _)
    have hb := q.meter_balance (.ofNat len) (by rw [ht]; exact hc)
    simpa [credits, Effect.credited, Effect.allowed, hm] using hb
  | @refused len hm =>
    have hc := hfit.1 _ _ (List.mem_singleton_self _)
    have hb := q.meter_balance (.ofNat len) hc
    simpa [credits, Effect.credited, Effect.allowed, hm] using hb
  | @reported len hm =>
    have hc := hfit.1 _ _ (List.mem_cons_self ..)
    have hb := q.meter_balance (.ofNat len) hc
    simpa [credits, Effect.credited, Effect.allowed, hm] using hb

namespace Device

variable {prim : Primitives} {d : Device}

/-- The 64-bit counters of a peer object do not wrap in a step. -/
def NoWrap (prim : Primitives) (pid : PeerId) (d : Device) (e : Event) : Prop :=
  ∀ p q, d.heap pid = some p → p.quota = some q → Fits q (select pid (d.effects prim e))

theorem noWrap_of_effects (h : select pid (d.effects prim e) = effs)
    (hfit : ∀ p q, d.heap pid = some p → p.quota = some q → Fits q effs) :
    NoWrap prim pid d e := fun p q hp hq => h ▸ hfit p q hp hq

/-- A peer's quota accounts for everything that passed. -/
structure Conserved (p : Peer) (q : BandwidthQuota) (log : List Effect) : Prop where
  quota : p.quota = some q
  balance : q.remainingBytes.toNat + q.totalConsumed.toNat =
    defaultQuotaBytes.toNat + credits log
  covered : forwarded log + p.tunnel.queued interfaceLength ≤ q.totalConsumed.toNat

/-- The invariant for one peer object, `log` being the effects on it so far. -/
def Accounted (pid : PeerId) (d : Device) (log : List Effect) : Prop :=
  match d.heap pid with
  | none => log = []
  | some p => ∃ q, Conserved p q log

theorem step_accounted (hd : d.Metered) (hi : Accounted pid d past) (hfit : d.NoWrap prim pid e)
    (h : d.step prim e = some d') : Accounted pid d' (past ++ select pid (d.effects prim e)) := by
  have hpeer := step_peer (g := byteGauge) hd h pid
  unfold Accounted NoWrap at *
  generalize d.ask pid e = a at hpeer
  generalize d.heap pid = p at *
  generalize d'.heap pid = p' at *
  generalize select pid (d.effects prim e) = effs at *
  cases hpeer with
  | absent => simpa using hi
  | @added p' hq ht =>
    refine ⟨_, hq, ?_, ?_⟩
    · simp [show past = [] from hi, BandwidthQuota.new, credits]
    · simp [show past = [] from hi, ht, forwarded]
  | @idle p' p hq ht =>
    obtain ⟨q, hc⟩ := hi
    refine ⟨q, hq.trans hc.quota, by simpa using hc.balance, ?_⟩
    have := hc.covered
    simp only [List.append_nil]
    exact ht ▸ this
  | served hq hs =>
    obtain ⟨q, hc⟩ := hi
    obtain rfl := Option.some.inj (hc.quota.symm.trans hq)
    obtain ⟨q', hq', hcharge⟩ := hs.charge
    have hflow := hs.flow fun _ _ => rfl
    have hb := hcharge.balance (hfit _ q rfl hq).payments
    have hbal := hc.balance
    have hcov := hc.covered
    rw [emitted_byteGauge] at hflow
    rw [credits_payments, allowed_payments] at hb
    simp only [byteGauge] at hflow
    simp only at hb
    exact ⟨q', hq', by simp only [credits_append]; omega, by simp only [forwarded_append]; omega⟩

theorem run_accounted (hd : d.Metered) (hi : Accounted pid d [])
    (hfit : Along (step prim) (NoWrap prim pid) d es) (he : exec (step prim) d es = some d') :
    Accounted pid d' (d.log prim pid es) := by
  have h := invariant_trace (I := fun d past => d.Metered ∧ Accounted pid d (select pid past))
    (effects prim) []
    (fun d e d' past hi hc hs => ⟨step_metered hi.1 hs, by
      rw [select_append]
      exact step_accounted hi.1 hi.2 hc hs⟩)
    ⟨hd, hi⟩ hfit he
  exact h.2

/-- In every run of a server whose counters do not wrap, the two counters of
a peer hold the default quota and all credits, and the bytes forwarded for
it, to the interface or from it, were all consumed. -/
theorem quota_conserved (config : ServerConfig) (nextIndex : IndexLfsr) (es : List Event)
    (pid : PeerId) (hfit : Along (step prim) (NoWrap prim pid) (start config nextIndex) es)
    (he : exec (step prim) (start config nextIndex) es = some d) (hp : d.heap pid = some p) :
    ∃ q, p.quota = some q ∧
      q.remainingBytes.toNat + q.totalConsumed.toNat =
        defaultQuotaBytes.toNat + credits ((start config nextIndex).log prim pid es) ∧
      forwarded ((start config nextIndex).log prim pid es) ≤ q.totalConsumed.toNat := by
  have hi := run_accounted (start_metered config nextIndex) rfl hfit he
  simp only [Accounted, hp] at hi
  obtain ⟨q, hc⟩ := hi
  exact ⟨q, hc.quota, hc.balance, le_trans (Nat.le_add_right ..) hc.covered⟩

/-- A packet from the interface, which waits for a session and is charged. -/
theorem quota_conserved_sample :
    let e : Event := .iface sampleEnv (samplePacket (.new 1 1 1 1) sampleAddr)
    let es := [.setKey sampleKey, addSamplePeer, e]
    let d := start sampleConfig sampleIndex
    ∃ d' p q, exec (step samplePrimitives) d es = some d' ∧ d'.heap 0 = some p ∧
      p.quota = some q ∧ q.totalConsumed = 20 ∧
      q.remainingBytes.toNat + q.totalConsumed.toNat =
        defaultQuotaBytes.toNat + credits (d.log samplePrimitives 0 es) ∧
      forwarded (d.log samplePrimitives 0 es) ≤ q.totalConsumed.toNat := by
  intro e es d
  have hfit : Along (step samplePrimitives) (NoWrap samplePrimitives 0) d es := by
    refine .cons (noWrap_of_effects rfl fun _ _ _ _ => .nil) (sampleKeyed_step _) ?_
    refine .cons (noWrap_of_effects rfl fun _ _ _ _ => .nil) (sampleServer_step _) ?_
    have heffs : select 0 ((sampleServer samplePrimitives).effects samplePrimitives e) =
        [.consume 20 true, .noEndpoint .handshakeInit] := rfl
    refine ⟨noWrap_of_effects heffs fun p q hp hq => ?_, fun _ _ => trivial⟩
    obtain rfl : samplePeer = p := Option.some.inj hp
    obtain rfl : .new defaultQuotaBytes = q := Option.some.inj hq
    simp [Fits, BandwidthQuota.new]
  have he : exec (step samplePrimitives) d es = some
    ((sampleServer samplePrimitives).handle 0 fun p =>
      ifaceHandler (sampleServer samplePrimitives).toPaymentState sampleEnv p
        (samplePacket (.new 1 1 1 1) sampleAddr)) :=
    (exec_cons_some _).mpr ⟨_, sampleKeyed_step _,
      (exec_cons_some _).mpr ⟨_, sampleServer_step _, rfl⟩⟩
  obtain ⟨q, hq, hc⟩ := quota_conserved sampleConfig sampleIndex es 0 hfit he rfl
  have ht : some q.totalConsumed = some 20 :=
    (congrArg (Option.map BandwidthQuota.totalConsumed) hq.symm).trans rfl
  exact ⟨_, _, q, he, rfl, hq, Option.some.inj ht, hc⟩

end Device

end Xelt.Boringtun
