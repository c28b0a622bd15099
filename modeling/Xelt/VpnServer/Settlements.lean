import Xelt.Lib.Simulation
import Xelt.VpnServer.Replay
import Xelt.VpnServer.Turns

/-!
# The verifier within the server

The steps of a server that begin or resume a verification are steps of the
verifier; all others leave its spent set and its calls alone. What is known
of the replay guard therefore holds of the whole server.
-/

namespace Xelt.VpnServer

open Runs

/-- What the gate verifies a request with, where it comes to that. -/
def Gated.verifyOpts (cfg : ServerConfig) (q : Gated) : Option VerifyOpts :=
  match q.proof with
  | some { transactionId, txHashes := .hashes txHashes, .. } =>
    let transactionId := transactionId.or q.body.transactionId
    if transactionId.truthy ∧ transactionId.printable then
      some { txHashes, payTo := cfg.payee, minAmountUsd := amountUsd q.minutes cfg.pricing }
    else none
  | _ => none

/-- A payment is verified with the options of the request, or its proof cannot
be printed or holds no list of hashes, and the gate throws. -/
theorem requirePayment_verifies (cfg : ServerConfig) (spent : Finset String) (q : Gated) :
    (∃ opts, q.verifyOpts cfg = some opts ∧
        requirePayment cfg spent q = .ok (verifyUaPayment cfg.verify spent opts)) ∨
      (q.verifyOpts cfg = none ∧ ((∃ response, requirePayment cfg spent q = .error response) ∨
        requirePayment cfg spent q = .ok (.done (.error typeError)))) := by
  unfold Gated.verifyOpts requirePayment
  rcases q.proof with _ | ⟨transactionId, payerAddress, txHashes⟩
  · exact .inr ⟨rfl, .inl ⟨_, rfl⟩⟩
  · by_cases ht : (transactionId.or q.body.transactionId).truthy
    · cases txHashes with
      | hashes hs =>
        by_cases hp : (transactionId.or q.body.transactionId).printable
        · refine .inl ⟨⟨hs, cfg.payee, amountUsd q.minutes cfg.pricing⟩, ?_, ?_⟩ <;>
            simp [ht, hp, verifyProof]
        · exact .inr ⟨by simp [hp], .inr (by simp [ht, hp, verifyProof])⟩
      | notIterable => exact .inr ⟨rfl, .inr (by simp [ht, verifyProof])⟩
    · refine .inr ⟨?_, .inl ⟨_, by simp [ht]; rfl⟩⟩
      cases txHashes <;> simp [ht]

/-- The step of the verifier within a step of a request. -/
def Phase.verification (cfg : ServerConfig) (r : Nat) : Phase → Event → Option Verifier.Input
  | .probing q, .probed (.ok ()) => (q.verifyOpts cfg).map (.call r)
  | .verifying _ (.awaiting _), .receipt receipt => some (.receipt r receipt)
  | _, _ => none

namespace Server

def verification (cfg : ServerConfig) (s : Server) : Input → Option Verifier.Input
  | .event r e => (s.requests r).bind fun phase => phase.verification cfg r e
  | _ => none

/-- The call of a request, as far as its phase tells. -/
def Tracks : Option Phase → Option VerifyCall → Prop
  | none, call | some (.probing _), call => call = none
  | some (.verifying _ (.awaiting l)), call => call = some (.awaiting l)
  | _, _ => True

structure Verifies (s : Server) (v : Verifier) : Prop where
  spent : v.spent = s.spent
  calls : ∀ r, Tracks (s.requests r) (v.calls r)

theorem tracks_update {phases : Nat → Option Phase} {calls : Nat → Option VerifyCall}
    (h : ∀ r, Tracks (phases r) (calls r)) (hr : Tracks phase call) :
    ∀ r', Tracks (Function.update phases r phase r') (Function.update calls r call r') := by
  intro r'
  by_cases he : r' = r
  · subst he
    simpa using hr
  · simpa [Function.update_of_ne he] using h r'

theorem tracks_idle {phases : Nat → Option Phase} {calls : Nat → Option VerifyCall}
    (h : ∀ r, Tracks (phases r) (calls r)) (hr : Tracks phase (calls r)) :
    ∀ r', Tracks (Function.update phases r phase r') (calls r') := by
  have hu := tracks_update (r := r) h hr
  rwa [Function.update_eq_self] at hu

def spentHash : Nat × Effect → Option String
  | (_, .spent hash) => some hash
  | _ => none

def settled (cfg : ServerConfig) (s : Server) (i : Input) : List String :=
  (effects cfg s i).filterMap spentHash

/-- `Q` holds where a receipt comes in that pays the request awaiting it. -/
def AtSettlement (cfg : ServerConfig) (Q : Finset String → Lookup → Prop) (s : Server) :
    Input → Prop
  | .event r (.receipt receipt) =>
    ∀ q l, s.requests r = some (.verifying q (.awaiting l)) →
      l.Pays cfg.verify receipt → Q s.spent l
  | _ => True

variable {cfg : ServerConfig}

/-- A step of a request begins a call, resumes it, or is no business of the
verifier. -/
theorem serve_verification {now : Int} {spent : Finset String} {store : SessionStore}
    (h : serve cfg now spent store phase e = some out) :
    (∃ q opts, phase = .probing q ∧ phase.verification cfg r e = some (.call r opts) ∧
        out.spent = spent ∧ out.phase = .verifying q (verifyUaPayment cfg.verify spent opts) ∧
        out.effects.filterMap (spentHash ∘ (r, ·)) = []) ∨
      (∃ q l receipt, phase = .verifying q (.awaiting l) ∧
        phase.verification cfg r e = some (.receipt r receipt) ∧
        out.spent = (l.resume cfg.verify spent receipt).1 ∧
        out.phase = .verifying q (l.resume cfg.verify spent receipt).2 ∧
        out.effects.filterMap (spentHash ∘ (r, ·)) =
          if (l.resume cfg.verify spent receipt).2.Credited then [l.hash] else []) ∨
      (phase.verification cfg r e = none ∧ out.spent = spent ∧
        (∀ call, Tracks (some out.phase) call) ∧
        out.effects.filterMap (spentHash ∘ (r, ·)) = []) := by
  unfold serve at h
  split at h
  · cases h
    exact .inr (.inr ⟨rfl, rfl, fun _ => trivial, rfl⟩)
  · rename_i q
    rcases requirePayment_verifies cfg spent q with
      ⟨opts, hopts, hreq⟩ | ⟨hopts, ⟨response, hreq⟩ | hreq⟩
    · rw [hreq] at h
      cases h
      exact .inl ⟨q, opts, rfl, by simp [Phase.verification, hopts], rfl, rfl, rfl⟩
    · rw [hreq] at h
      cases h
      exact .inr (.inr ⟨by simp [Phase.verification, hopts], rfl, fun _ => trivial, rfl⟩)
    · rw [hreq] at h
      cases h
      exact .inr (.inr ⟨by simp [Phase.verification, hopts], rfl, fun _ => trivial, rfl⟩)
  · rename_i q l receipt
    cases h
    refine .inr (.inl ⟨q, l, receipt, rfl, rfl, rfl, rfl, ?_⟩)
    simp only
    split <;> rfl
  · cases h
    exact .inr (.inr ⟨rfl, rfl, fun _ => trivial, rfl⟩)
  · split at h
    · cases h
      exact .inr (.inr ⟨rfl, rfl, fun _ => trivial, rfl⟩)
    · split at h
      · split at h <;> cases h <;> exact .inr (.inr ⟨rfl, rfl, fun _ => trivial, rfl⟩)
      · cases h
        unfold renewHandler
        simp only
        repeat' split
        all_goals exact .inr (.inr ⟨rfl, rfl, fun _ => trivial, rfl⟩)
  · cases h
    unfold connectRegistered
    repeat' split
    all_goals exact .inr (.inr ⟨rfl, rfl, fun _ => trivial, rfl⟩)
  · cases h
    unfold renewRegistered
    repeat' split
    all_goals exact .inr (.inr ⟨rfl, rfl, fun _ => trivial, rfl⟩)
  · cases h

theorem verification_event {s : Server} (hphase : s.requests r = some phase) :
    verification cfg s (.event r e) = phase.verification cfg r e := by
  simp [verification, hphase]

theorem step_apart {s : Server} (hR : s.Verifies v) (h : step cfg s i = some s')
    (hi : ∀ r e, i ≠ .event r e) : s'.Verifies v := by
  refine ⟨hR.spent.trans (step_other h hi).1.symm, ?_⟩
  obtain ⟨effs, hmove⟩ := step_iff.mp h
  cases i with
  | event r e => exact absurd rfl (hi r e)
  | request r route body proof =>
    obtain ⟨hnone, phase, rfl, ⟨response, -, rfl, -⟩ | ⟨q, -, rfl, -⟩⟩ := move_request hmove
    · exact tracks_idle hR.calls trivial
    · have hcall : v.calls r = none := by simpa [Tracks, hnone] using hR.calls r
      exact tracks_idle hR.calls hcall
  | elapse ms => cases hmove; exact hR.calls
  | clear body => cases hmove; exact hR.calls
  | tick t =>
    obtain ⟨-, rfl, -⟩ := move_tick hmove
    exact hR.calls
  | unregistered t outcome =>
    obtain ⟨ref, rest, -, hsame, -⟩ := move_unregistered hmove
    rw [hsame]
    exact hR.calls

theorem step_idle {s : Server} (hR : s.Verifies v) (h : step cfg s i = some s')
    (hv : verification cfg s i = none) : s'.Verifies v := by
  by_cases hi : ∃ r e, i = .event r e
  · obtain ⟨r, e, rfl⟩ := hi
    obtain ⟨effs, hmove⟩ := step_iff.mp h
    obtain ⟨phase, out, hphase, hserve, rfl, -⟩ := move_event.mp hmove
    rw [verification_event hphase] at hv
    rcases serve_verification (r := r) hserve with
      ⟨q, opts, -, hsome, -⟩ | ⟨q, l, receipt, -, hsome, -⟩ | ⟨-, hspent, htracks, -⟩
    · rw [hv] at hsome
      cases hsome
    · rw [hv] at hsome
      cases hsome
    · exact ⟨hR.spent.trans hspent.symm, tracks_idle hR.calls (htracks _)⟩
  · exact step_apart hR h fun r e he => hi ⟨r, e, he⟩

theorem step_moves {s : Server} (hR : s.Verifies v) (h : step cfg s i = some s')
    (hv : verification cfg s i = some j) :
    ∃ v', Verifier.step cfg.verify v j = some v' ∧ s'.Verifies v' := by
  cases i with
  | event r e =>
    obtain ⟨effs, hmove⟩ := step_iff.mp h
    obtain ⟨phase, out, hphase, hserve, rfl, -⟩ := move_event.mp hmove
    rw [verification_event hphase] at hv
    have htracks := hR.calls r
    rw [hphase] at htracks
    rcases serve_verification (r := r) hserve with
      ⟨q, opts, rfl, hsome, hspent, hout, -⟩ | ⟨q, l, receipt, rfl, hsome, hspent, hout, -⟩ |
      ⟨hnone, -⟩
    · obtain rfl := Option.some.inj (hv.symm.trans hsome)
      refine ⟨_, Verifier.step_call htracks, hR.spent.trans hspent.symm,
        tracks_update hR.calls ?_⟩
      rw [hout, hR.spent]
      cases verifyUaPayment cfg.verify s.spent opts <;> trivial
    · obtain rfl := Option.some.inj (hv.symm.trans hsome)
      refine ⟨_, Verifier.step_receipt htracks, by simp only [hspent, hR.spent],
        tracks_update hR.calls ?_⟩
      rw [hout, hR.spent]
      cases (l.resume cfg.verify s.spent receipt).2 <;> trivial
    · rw [hv] at hnone
      cases hnone
  | _ => cases hv

theorem step_stuck (cfg : ServerConfig) (s : Server) (i : Input) (h : step cfg s i = none) :
    verification cfg s i = none := by
  cases i with
  | event r e =>
    cases hphase : s.requests r with
    | none => simp [verification, hphase]
    | some phase =>
      have hserve : serve cfg s.now s.spent s.store phase e = none := by
        simpa [step, move, hphase] using h
      rw [verification_event hphase]
      unfold Phase.verification
      split
      · simp only [serve] at hserve
        split at hserve <;> cases hserve
      · cases hserve
      · rfl
  | _ => rfl

theorem embeds_verifier (cfg : ServerConfig) :
    Embeds (step cfg) (Verifier.step cfg.verify) (verification cfg) Verifies where
  stuck := step_stuck cfg
  idle _ _ _ _ hR hs hv := step_idle hR hs hv
  moves _ _ _ _ _ hR hs hv := step_moves hR hs hv

theorem init_verifies (now : Int) : (init now).Verifies Verifier.init :=
  ⟨rfl, fun _ => rfl⟩

theorem settled_apart {s : Server} (hi : ∀ r e, i ≠ .event r e) : settled cfg s i = [] := by
  cases i with
  | event r e => exact absurd rfl (hi r e)
  | request r route body proof =>
    simp only [settled, effects, move]
    repeat' split
    all_goals rfl
  | elapse ms => rfl
  | clear body => rfl
  | tick t =>
    simp only [settled, effects, move]
    split <;> rfl
  | unregistered t outcome =>
    simp only [settled, effects, move]
    split <;> rfl

theorem settled_credited {s : Server} (hR : s.Verifies v) (i : Input) :
    settled cfg s i = (verification cfg s i).elim [] (Verifier.credited cfg.verify v) := by
  by_cases hi : ∃ r e, i = .event r e
  · obtain ⟨r, e, rfl⟩ := hi
    cases hmove : s.move cfg (.event r e) with
    | none =>
      rw [step_stuck cfg s _ (by simp [step, hmove]), settled, effects, hmove]
      rfl
    | some next =>
      obtain ⟨phase, out, hphase, hserve, -, heffs⟩ := move_event.mp hmove
      have htracks := hR.calls r
      rw [hphase] at htracks
      rw [settled, effects, hmove, Option.map_some, Option.getD_some, heffs, List.filterMap_map,
        verification_event hphase]
      rcases serve_verification (r := r) hserve with
        ⟨q, opts, rfl, hsome, -, -, hout⟩ | ⟨q, l, receipt, rfl, hsome, -, -, hout⟩ |
        ⟨hnone, -, -, hout⟩
      · rw [hout, hsome]
        rfl
      · rw [hout, hsome, Option.elim_some, Verifier.credited_receipt htracks, hR.spent]
      · rw [hout, hnone]
        rfl
  · have hapart : ∀ r e, i ≠ .event r e := fun r e he => hi ⟨r, e, he⟩
    rw [settled_apart hapart]
    cases i with
    | event r e => exact absurd rfl (hapart r e)
    | _ => rfl

/-- Whatever else the server does meanwhile, `f` tells the settled hashes
apart exactly when it tells each of them, where it is paid, from the spent
ones. -/
theorem nodup_settled_iff (cfg : ServerConfig) (now : Int) (is : List Input) (f : String → β) :
    ((trace (step cfg) (settled cfg) (init now) is).map f).Nodup ↔
      Along (step cfg) (AtSettlement cfg fun spent l => ∀ g ∈ spent, f g ≠ f l.hash)
        (init now) is := by
  rw [(embeds_verifier cfg).trace (fun s v i hR => settled_credited hR i) (init_verifies now),
    Verifier.nodup_credited_iff]
  refine ((embeds_verifier cfg).along ?_ ?_ (init_verifies now)).symm
  · intro s i hv
    cases i with
    | event r e =>
      cases e with
      | receipt receipt =>
        intro q l hphase _
        rw [verification_event hphase] at hv
        cases hv
      | _ => trivial
    | _ => trivial
  · intro s v i j hR hv
    cases i with
    | event r e =>
      cases hphase : s.requests r with
      | none => simp [verification, hphase] at hv
      | some phase =>
        rw [verification_event hphase] at hv
        have htracks := hR.calls r
        rw [hphase] at htracks
        unfold Phase.verification at hv
        split at hv
        · obtain ⟨opts, -, rfl⟩ := Option.map_eq_some_iff.mp hv
          exact Iff.rfl
        · cases hv
          have hcall : v.calls r = _ := htracks
          simp [AtSettlement, Verifier.AtPayment, hphase, hcall, hR.spent]
        · cases hv
    | _ => cases hv

end Server

end Xelt.VpnServer
