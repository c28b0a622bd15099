import Xelt.Boringtun.Device.Steps
import Xelt.Lib.Latch

/-!
# Blocked once refused

A refused packet should block its peer until the next credit, so that the
peer is asked to pay once. `consume` blocks when a packet overshoots the
quota, but not when the quota was emptied to the byte before it. A run keeps
the promise exactly when no packet meets such a quota.
-/

namespace Xelt.Boringtun

open Noise Payment Runs Latch Tagged

namespace Effect

/-- A `consume` call returned false. -/
def Refuses (e : Effect) : Prop := ∃ taken, e = .consume taken false

/-- The handler called `send_payment_required`. -/
def Requests (e : Effect) : Prop := e = .paymentRequired

def Credits (e : Effect) : Prop := ∃ bytes, e = .credit bytes

end Effect

open Effect

/-- A latch over the payment effects of a peer: what a refusal or a request
leaves behind until the next credit. -/
structure Latched (q : BandwidthQuota) (pays : List Effect) : Prop where
  refused : Pending Refuses Credits pays → q.blocked = true
  requested : Pending Requests Credits pays → q.blocked = true
  spaced : Spaced Requests Credits pays

theorem latched_nil : Latched q [] :=
  ⟨fun h => absurd h not_pending_nil, fun h => absurd h not_pending_nil, spaced_nil⟩

theorem Latched.quiet (h : Latched q pays) (hr : ¬ Refuses e) (hq : ¬ Requests e)
    (hb : ¬ Credits e → q'.blocked = q.blocked) : Latched q' (pays ++ [e]) where
  refused hp := by
    obtain ⟨hp, hc⟩ := (pending_concat.mp hp).resolve_left hr
    rw [hb hc]
    exact h.refused hp
  requested hp := by
    obtain ⟨hp, hc⟩ := (pending_concat.mp hp).resolve_left hq
    rw [hb hc]
    exact h.requested hp
  spaced := spaced_concat.mpr ⟨h.spaced, fun h => absurd h hq⟩

theorem Latched.refuse (h : Latched q pays) (hb : q'.blocked = true) :
    Latched q' (pays ++ [.consume taken false]) :=
  ⟨fun _ => hb, fun _ => hb, spaced_concat.mpr ⟨h.spaced, fun h => by cases h⟩⟩

theorem Latched.request (h : Latched q pays) (hq : q.blocked = false) (hb : q'.blocked = true) :
    Latched q' (pays ++ [.consume taken false, .paymentRequired]) := by
  refine ⟨fun _ => hb, fun _ => hb, ?_⟩
  rw [← List.singleton_append, ← List.append_assoc]
  refine spaced_concat.mpr ⟨(h.refuse hb).spaced, fun _ hp => ?_⟩
  rcases pending_concat.mp hp with hp | ⟨hp, -⟩
  · cases hp
  · rw [h.requested hp] at hq
    cases hq

theorem Charge.latched (hc : Charge quotaBytes q ask q' pays) (h : Latched q past)
    (hstuck : ∀ len, ask = .meter len → ¬ q.Stuck) : Latched q' (past ++ pays) := by
  have hexhausted {len : Nat} (hm : (q.meter (.ofNat len)).1 = .exhausted)
      (hstuck : ¬ q.Stuck) : (q.meter (.ofNat len)).2.blocked = true :=
    (BandwidthQuota.meter_exhausted_blocked hm).mpr hstuck
  cases hc with
  | nothing => simpa using h
  | dropped => simpa using h
  | rejected nonce =>
    rw [List.append_nil]
    exact ⟨h.refused, h.requested, h.spaced⟩
  | credited nonce =>
    exact h.quiet (by simp [Refuses]) (by simp [Requests]) fun hc => absurd ⟨_, rfl⟩ hc
  | signed digest => exact h.quiet (by simp [Refuses]) (by simp [Requests]) fun _ => rfl
  | blocked hb => simpa using h
  | forwarded hm =>
    exact h.quiet (by simp [Refuses]) (by simp [Requests]) fun _ =>
      BandwidthQuota.meter_blocked_of_ne_exhausted (by rw [hm]; simp)
  | refused hm => exact h.refuse (hexhausted hm (hstuck _ rfl))
  | reported hm =>
    exact h.request (BandwidthQuota.not_blocked_of_exhausted hm) (hexhausted hm (hstuck _ rfl))

/-- A packet that meets a stuck quota is refused and leaves it unblocked. -/
theorem Charge.of_stuck (hc : Charge quotaBytes q (.meter len) q' pays) (past : List Effect)
    (h : q.Stuck) :
    q'.blocked = false ∧ Pending Refuses Credits (past ++ pays) := by
  have hsame {len : Nat} (hm : (q.meter (.ofNat len)).1 = .exhausted) :
      (q.meter (.ofNat len)).2.blocked = false := by
    rw [← Bool.not_eq_true, BandwidthQuota.meter_exhausted_blocked hm, not_not]
    exact h
  cases hc with
  | blocked hb => rw [h.2] at hb; cases hb
  | forwarded hm =>
    simp [BandwidthQuota.meter, BandwidthQuota.isBlocked, BandwidthQuota.consume, h.1, h.2] at hm
  | refused hm => exact ⟨hsame hm, past, _, [], rfl, ⟨_, rfl⟩, by simp⟩
  | reported hm => exact ⟨hsame hm, past, _, [.paymentRequired], rfl, ⟨_, rfl⟩, by simp [Credits]⟩

namespace Device

variable {prim : Primitives} {d : Device}

/-- What a peer may expect after a run with the effects `log`: a refusal
blocks it until the next credit, and between two requests there is one. -/
structure AskedOnce (pid : PeerId) (d : Device) (log : List Effect) : Prop where
  blocked : Pending Refuses Credits (payments log) →
    ∃ p q, d.heap pid = some p ∧ p.quota = some q ∧ q.blocked = true
  once : Spaced Requests Credits (payments log)

/-- An event meters a packet on a quota that is empty but not blocked. -/
def MeetsStuck (pid : PeerId) (d : Device) (e : Event) : Prop :=
  ∃ len p q, d.ask pid e = some (.meter len) ∧ d.heap pid = some p ∧ p.quota = some q ∧ q.Stuck

/-- The invariant for one peer object. -/
def LatchedOn (pid : PeerId) (d : Device) (log : List Effect) : Prop :=
  ∃ p q, d.heap pid = some p ∧ p.quota = some q ∧ Latched q (payments log)

theorem step_latched (hd : d.Metered) (hi : LatchedOn pid d past) (hns : ¬ MeetsStuck pid d e)
    (h : d.step prim e = some d') : LatchedOn pid d' (past ++ select pid (d.effects prim e)) := by
  obtain ⟨p, q, hp, hq, hl⟩ := hi
  cases ha : d.ask pid e with
  | none =>
    obtain ⟨heff, hkeep⟩ := step_idle hd h ha
    obtain ⟨p', hp', hq'⟩ := hkeep p q hp hq
    refine ⟨p', q, hp', hq', ?_⟩
    rwa [heff, List.append_nil]
  | some a =>
    obtain ⟨p₀, q₀, p', q', hp₀, hq₀, hp', hq', hcharge⟩ := step_charge hd h ha
    obtain rfl := Option.some.inj (hp₀.symm.trans hp)
    obtain rfl := Option.some.inj (hq₀.symm.trans hq)
    refine ⟨p', q', hp', hq', ?_⟩
    rw [payments_append]
    refine hcharge.latched hl fun len hlen hst => ?_
    exact hns ⟨len, p₀, q₀, by rw [ha, hlen], hp, hq, hst⟩

/-- From any initial quota, a run keeps a peer blocked once refused, and asks
it to pay at most once between two credits, exactly when none of its packets
meets a quota that is empty without being blocked. -/
theorem asked_once_iff (hd : d.Metered) (hp : d.heap pid = some p)
    (hq : p.quota = some (.new initial)) (es : List Event) :
    (∀ pre post d', es = pre ++ post → exec (step prim) d pre = some d' →
        AskedOnce pid d' (d.log prim pid pre)) ↔
      Along (step prim) (fun d e => ¬ MeetsStuck pid d e) d es := by
  constructor
  · intro h
    rw [along_iff_at]
    rintro pre e post d₁ rfl he ⟨len, p₁, q₁, ha, hp₁, hq₁, hst⟩
    obtain ⟨d₂, hs⟩ := step_of_ask prim ha
    have he₂ : exec (step prim) d (pre ++ [e]) = some d₂ :=
      (exec_append_some _).mpr ⟨d₁, he, (exec_cons_some _).mpr ⟨d₂, hs, rfl⟩⟩
    have hd₁ : d₁.Metered := invariant_run (fun _ _ _ => step_metered) hd he
    obtain ⟨hb, -⟩ := h (pre ++ [e]) post d₂ (by simp) he₂
    rw [log_append he, log_single hs, payments_append] at hb
    obtain ⟨p₀, q₀, p₂, q₂, hp₀, hq₀, hp₂, hq₂, hcharge⟩ := step_charge hd₁ hs ha
    obtain rfl := Option.some.inj (hp₀.symm.trans hp₁)
    obtain rfl := Option.some.inj (hq₀.symm.trans hq₁)
    obtain ⟨hfalse, hpend⟩ := hcharge.of_stuck (payments (d.log prim pid pre)) hst
    obtain ⟨p₃, q₃, hp₃, hq₃, htrue⟩ := hb hpend
    obtain rfl := Option.some.inj (hp₂.symm.trans hp₃)
    obtain rfl := Option.some.inj (hq₂.symm.trans hq₃)
    rw [hfalse] at htrue
    cases htrue
  · rintro h pre post d' rfl he
    have hi := invariant_trace (I := fun d past => d.Metered ∧ LatchedOn pid d (select pid past))
      (effects prim) []
      (fun d e d' past hi hc hs => ⟨step_metered hi.1 hs, by
        rw [select_append]
        exact step_latched hi.1 hi.2 hc hs⟩)
      ⟨hd, p, _, hp, hq, latched_nil⟩ (along_append.mp h).1 he
    obtain ⟨-, p', q', hp', hq', hl⟩ := hi
    exact ⟨fun hpend => ⟨p', q', hp', hq', hl.refused hpend⟩, hl.spaced⟩

def samplePacketOut : Event := .iface sampleEnv (samplePacket (.new 1 1 1 1) sampleAddr)

theorem asked_once_iff_sample :
    let d := sampleServer samplePrimitives
    (∀ pre post d', [samplePacketOut, samplePacketOut] = pre ++ post →
        exec (step samplePrimitives) d pre = some d' →
        AskedOnce 0 d' (d.log samplePrimitives 0 pre)) ↔
      Along (step samplePrimitives) (fun d e => ¬ MeetsStuck 0 d e) d
        [samplePacketOut, samplePacketOut] :=
  asked_once_iff (sampleServer_metered _) rfl rfl _

/-- The sample server, its peer reachable and with 20 bytes of quota. -/
def sampleShort : Device :=
  { sampleServer samplePrimitives with
    heap := Function.update (fun _ => none) 0
      (some { samplePeer with endpointAddr := some 1, quota := some (.new 20) }) }

/-- Three packets of 20 bytes on a quota of 20: the first empties it, each of
the others is refused and asks for a payment. -/
theorem asked_twice :
    let es := [samplePacketOut, samplePacketOut, samplePacketOut]
    sampleShort.Metered ∧ ∃ d', exec (step samplePrimitives) sampleShort es = some d' ∧
      payments (sampleShort.log samplePrimitives 0 es) =
        [.consume 20 true, .consume 0 false, .paymentRequired,
          .consume 0 false, .paymentRequired] ∧
      ¬ AskedOnce 0 d' (sampleShort.log samplePrimitives 0 es) := by
  intro es
  have hpays : payments (sampleShort.log samplePrimitives 0 es) =
      [.consume 20 true, .consume 0 false, .paymentRequired,
        .consume 0 false, .paymentRequired] := by rfl
  refine ⟨⟨rfl, fun pid hpid => ?_, fun pid p hp => ?_⟩, _, rfl, hpays, fun h => ?_⟩
  · have hne : pid ≠ 0 := by rintro rfl; exact absurd hpid (by decide)
    simp [sampleShort, hne]
  · by_cases h0 : pid = 0
    · subst h0
      obtain rfl := Option.some.inj hp
      exact ⟨_, rfl⟩
    · simp [sampleShort, h0] at hp
  · have hspaced := h.once
    rw [hpays] at hspaced
    obtain ⟨z, hz, hc⟩ := hspaced [.consume 20 true, .consume 0 false] _
      [.consume 0 false] _ [] rfl rfl rfl
    obtain ⟨bytes, rfl⟩ := hc
    simp at hz

end Device

end Xelt.Boringtun
