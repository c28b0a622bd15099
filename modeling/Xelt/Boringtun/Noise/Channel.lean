import Mathlib.Data.List.Perm.Subperm
import Mathlib.Data.Multiset.MapFold
import Mathlib.Logic.Function.Basic
import Xelt.Boringtun.Noise.Window
import Xelt.Lib.Runs

/-!
# Two sessions and a network

Both ends send and receive from any number of threads. Sending is one step,
its counter being taken atomically; receiving is three, and other steps may
come between them. The network is whatever packets arrive: any packet may,
any number of times, whether or not it was sent.

Of the AEAD it is assumed that a ciphertext opens only under the key and nonce
it was sealed with: `Unforged` says so of the decryptions of a run.
-/

namespace Xelt.Boringtun.Noise.Crypto

open Bytes Runs

inductive Party
  | initiator
  | responder
  deriving DecidableEq

def Party.other : Party → Party
  | .initiator => .responder
  | .responder => .initiator

@[simp] theorem Party.other_other (x : Party) : x.other.other = x := by cases x <;> rfl

theorem Party.other_ne (x : Party) : x.other ≠ x := by cases x <;> decide

theorem exists_party {P : Party → Prop} : (∃ x, P x) ↔ P .initiator ∨ P .responder := by
  constructor
  · rintro ⟨x, h⟩
    cases x with
    | initiator => exact .inl h
    | responder => exact .inr h
  · exact fun h => h.elim (⟨_, ·⟩) (⟨_, ·⟩)

/-- Where a call to `receive_packet_data` stands. -/
inductive Stage
  | checked (packet : PacketData)
  | opened (packet : PacketData) (plain : Bytes)
  deriving DecidableEq

/-- A session with the calls to it, and what it has sent and delivered so far. -/
structure Endpoint where
  session : Session
  threads : Nat → Option Stage
  sent : List (Nat × Bytes)
  delivered : List (Nat × Bytes)

inductive Move
  | send (src : Bytes) (dst : Nat)
  | check (thread : Nat) (packet : PacketData) (dst : Nat)
  | decrypt (thread : Nat)
  | mark (thread : Nat)
  deriving DecidableEq

namespace Endpoint

def setThread (e : Endpoint) (thread : Nat) (stage : Option Stage) : Endpoint :=
  { e with threads := Function.update e.threads thread stage }

variable (p : Primitives)

def step (e : Endpoint) : Move → Option Endpoint
  | .send src dst =>
    (e.session.formatPacketData p src dst).map fun (session, packet) =>
      { e with session, sent := e.sent ++ [(packet.counter.toNat, src)] }
  | .check thread packet dst =>
    if dst < packet.encryptedEncapsulatedPacket.length then none
    else
      match e.threads thread, e.session.receivingCounterQuickCheck packet with
      | some _, _ => none
      | none, .error _ => some e
      | none, .ok () => some (e.setThread thread (some (.checked packet)))
  | .decrypt thread =>
    match e.threads thread with
    | some (.checked packet) =>
      match e.session.openPacket p packet with
      | .error _ => some (e.setThread thread none)
      | .ok plain => some (e.setThread thread (some (.opened packet plain)))
    | _ => none
  | .mark thread =>
    match e.threads thread with
    | some (.opened packet plain) =>
      match e.session.receivingCounterMark packet.counter.toNat with
      | some (.error _) => some (e.setThread thread none)
      | some (.ok session) =>
        some { e.setThread thread none with
          session, delivered := e.delivered ++ [(packet.counter.toNat, plain)] }
      | none => none
    | _ => none

end Endpoint

structure Channel where
  ends : Party → Endpoint

namespace Channel

/-- Two sessions as a handshake makes them: each has the other's indices and
keys the other way round. -/
def new (indexI indexR : UInt32) (keyI keyR : Bytes32) : Channel where
  ends
    | .initiator => ⟨.new indexI indexR keyR keyI, fun _ => none, [], []⟩
    | .responder => ⟨.new indexR indexI keyI keyR, fun _ => none, [], []⟩

variable (p : Primitives)

def step (c : Channel) (i : Party × Move) : Option Channel :=
  ((c.ends i.1).step p i.2).map fun e => ⟨Function.update c.ends i.1 e⟩

/-- One of the two sessions sealed this ciphertext under this key and nonce. -/
def Sealed (c : Channel) (key : Bytes32) (nonce : ByteArr 12) (ciphertext : Bytes) : Prop :=
  ∃ x, (c.ends x).session.sender = key ∧ ∃ q ∈ (c.ends x).sent,
    nonce = nonceOf q.1 ∧ ciphertext = p.sealBytes key nonce q.2

/-- What a decryption opens was sealed under the key and nonce it opens under. -/
def OpensSealed (c : Channel) (x : Party) : Option Stage → Prop
  | some (.checked packet) =>
    (p.openBytes (c.ends x).session.receiver (nonceOf packet.counter.toNat)
        packet.encryptedEncapsulatedPacket).isSome →
      c.Sealed p (c.ends x).session.receiver (nonceOf packet.counter.toNat)
        packet.encryptedEncapsulatedPacket
  | _ => True

def Unforged (c : Channel) : Party × Move → Prop
  | (x, .decrypt thread) => c.OpensSealed p x ((c.ends x).threads thread)
  | _ => True

instance : Decidable (Sealed p c key nonce ciphertext) := decidable_of_iff _ exists_party.symm

instance decidableOpensSealed : (stage : Option Stage) → Decidable (OpensSealed p c x stage)
  | some (.checked _) => inferInstanceAs (Decidable (_ → _))
  | none | some (.opened ..) => .isTrue trivial

instance decidableUnforged : (i : Party × Move) → Decidable (Unforged p c i)
  | (_, .send ..) | (_, .check ..) | (_, .mark _) => .isTrue trivial
  | (x, .decrypt thread) => decidableOpensSealed p ((c.ends x).threads thread)

end Channel

-- ---------------------------------------------------------------------------
-- The two halves of an endpoint
-- ---------------------------------------------------------------------------

namespace Endpoint

/-- The counters sent under are the numbers from zero on. -/
structure Numbered (e : Endpoint) : Prop where
  counter : e.session.sendingKeyCounter = e.sent.length
  sent : e.sent.map Prod.fst = List.range e.sent.length

def received (e : Endpoint) : Set Nat := {c | c ∈ e.delivered.map Prod.fst}

/-- `e` has delivered only what `f` sent, each counter once, and will not
deliver anything else from the calls that stand at their mark. -/
structure Carries (f e : Endpoint) : Prop where
  key : e.session.receiver = f.session.sender
  tracks : e.session.receivingKeyCounter.Tracks e.received
  next_le : e.session.receivingKeyCounter.next ≤ f.sent.length
  delivered : e.delivered ⊆ f.sent
  once : (e.delivered.map Prod.fst).Nodup
  opened : ∀ thread packet plain, e.threads thread = some (.opened packet plain) →
    (packet.counter.toNat, plain) ∈ f.sent

theorem Numbered.lt {e : Endpoint} {counter : Nat} (h : Numbered e)
    (hmem : (counter, src) ∈ e.sent) :
    counter < e.sent.length := by
  rw [← List.mem_range, ← h.sent]
  exact List.mem_map_of_mem hmem

/-- What a step leaves of the half it is not about. -/
structure SameSending (e e' : Endpoint) : Prop where
  counter : e'.session.sendingKeyCounter = e.session.sendingKeyCounter
  sender : e'.session.sender = e.session.sender
  sent : e'.sent = e.sent

structure SameReceiving (e e' : Endpoint) : Prop where
  receiver : e'.session.receiver = e.session.receiver
  window : e'.session.receivingKeyCounter = e.session.receivingKeyCounter
  delivered : e'.delivered = e.delivered
  threads : e'.threads = e.threads

theorem Numbered.same (h : Numbered e) (hs : SameSending e e') : Numbered e' where
  counter := by rw [hs.counter, hs.sent, h.counter]
  sent := by rw [hs.sent, h.sent]

theorem Carries.same_sending (h : Carries f e) (hs : SameSending f f') : Carries f' e where
  key := h.key.trans hs.sender.symm
  tracks := h.tracks
  next_le := hs.sent ▸ h.next_le
  delivered := hs.sent ▸ h.delivered
  once := h.once
  opened thread packet plain ht := hs.sent ▸ h.opened thread packet plain ht

theorem Carries.same_receiving (h : Carries f e) (hs : SameReceiving e e') : Carries f e' where
  key := hs.receiver.trans h.key
  tracks := by rw [hs.window, received, hs.delivered]; exact h.tracks
  next_le := hs.window ▸ h.next_le
  delivered := hs.delivered ▸ h.delivered
  once := hs.delivered ▸ h.once
  opened thread packet plain ht := h.opened thread packet plain (hs.threads ▸ ht)

theorem Carries.setThread (h : Carries f e)
    (hs : ∀ packet plain, stage = some (.opened packet plain) →
      (packet.counter.toNat, plain) ∈ f.sent) : Carries f (e.setThread thread stage) where
  key := h.key
  tracks := h.tracks
  next_le := h.next_le
  delivered := h.delivered
  once := h.once
  opened t packet plain ht := by
    by_cases heq : t = thread
    · subst heq
      exact hs packet plain (by simpa [Endpoint.setThread] using ht)
    · exact h.opened t packet plain (by simpa [Endpoint.setThread, heq] using ht)

variable {p : Primitives} {e e' f : Endpoint}

/-- Sending takes the next counter and adds one packet to what was sent. -/
theorem send_cases (h : e.step p (.send src dst) = some e') (hn : Numbered e)
    (hfew : e'.sent.length < 2 ^ 64) :
    SameReceiving e e' ∧ e'.session.sender = e.session.sender ∧ e.sent ⊆ e'.sent ∧
      e.sent.length ≤ e'.sent.length ∧ Numbered e' := by
  simp only [step, Session.formatPacketData] at h
  by_cases hdst : dst < src.length + dataOverheadSz
  · simp [hdst] at h
  · simp only [hdst, if_false, Option.map_some, Option.some.injEq] at h
    subst h
    simp only [List.length_append, List.length_singleton] at hfew
    have hlt : e.sent.length < 2 ^ 64 := by omega
    have hcount : (UInt64.ofNat e.session.sendingKeyCounter).toNat = e.sent.length := by
      rw [hn.counter, UInt64.toNat_ofNat']
      exact Nat.mod_eq_of_lt hlt
    refine ⟨⟨rfl, rfl, rfl, rfl⟩, rfl, List.subset_append_left .., ?_, ?_, ?_⟩
    · simp
    · rw [hn.counter]
      simpa [u64] using Nat.mod_eq_of_lt hfew
    · simp [hcount, List.range_succ, hn.sent]

theorem opened_of_mark (h : e.step p (.mark thread) = some e') :
    ∃ packet plain, e.threads thread = some (.opened packet plain) := by
  cases ht : e.threads thread with
  | none => simp [step, ht] at h
  | some stage =>
    cases stage with
    | checked packet => simp [step, ht] at h
    | opened packet plain => exact ⟨packet, plain, rfl⟩

theorem receive_same (h : e.step p m = some e') (hm : ∀ src dst, m ≠ .send src dst) :
    SameSending e e' := by
  cases m with
  | send src dst => exact absurd rfl (hm src dst)
  | check thread packet dst =>
    simp only [step] at h
    split at h
    · cases h
    · split at h <;> cases h <;> exact ⟨rfl, rfl, rfl⟩
  | decrypt thread =>
    simp only [step] at h
    split at h
    · split at h <;> cases h <;> exact ⟨rfl, rfl, rfl⟩
    · cases h
  | mark thread =>
    obtain ⟨packet, plain, ht⟩ := opened_of_mark h
    cases hmark : e.session.receivingKeyCounter.markDidReceive packet.counter.toNat with
    | none => simp [step, ht, Session.receivingCounterMark, hmark] at h
    | some r =>
      cases r <;>
        simp only [step, ht, Session.receivingCounterMark, hmark, Option.some.injEq] at h <;>
        subst h <;> exact ⟨rfl, rfl, rfl⟩

theorem check_carries (h : e.step p (.check thread packet dst) = some e') (hc : Carries f e) :
    Carries f e' := by
  simp only [step] at h
  split at h
  · cases h
  · split at h <;> cases h
    · exact hc
    · exact hc.setThread fun _ _ hs => by simp at hs

theorem decrypt_carries (hp : p.Lawful) (h : e.step p (.decrypt thread) = some e')
    (hc : Carries f e)
    (hseal : ∀ packet plain, e.threads thread = some (.checked packet) →
      e.session.openPacket p packet = .ok plain → ∃ src, (packet.counter.toNat, src) ∈ f.sent ∧
        packet.encryptedEncapsulatedPacket =
          p.sealBytes e.session.receiver (nonceOf packet.counter.toNat) src) :
    Carries f e' := by
  simp only [step] at h
  cases ht : e.threads thread with
  | none => simp [ht] at h
  | some stage =>
    cases stage with
    | opened packet plain => simp [ht] at h
    | checked packet =>
      cases hopen : e.session.openPacket p packet with
      | error err =>
        simp only [ht, hopen, Option.some.injEq] at h
        subst h
        exact hc.setThread fun _ _ hs => by simp at hs
      | ok plain =>
        simp only [ht, hopen, Option.some.injEq] at h
        subst h
        obtain ⟨src, hmem, hct⟩ := hseal packet plain ht hopen
        have hplain : src = plain := by
          rw [Session.openPacket, hct, hp.openBytes_sealBytes] at hopen
          simpa using hopen
        refine hc.setThread fun packet' plain' hs => ?_
        obtain ⟨rfl, rfl⟩ := by simpa using hs
        exact hplain ▸ hmem

theorem received_append :
    ({c | c ∈ (ds ++ [(counter, plain)]).map Prod.fst} : Set Nat) =
      insert counter {c | c ∈ ds.map Prod.fst} := by
  ext c
  simp [or_comm, eq_comm]

theorem once_append (h : (ds.map Prod.fst).Nodup) (hnew : counter ∉ ds.map Prod.fst) :
    ((ds ++ [(counter, plain)]).map Prod.fst).Nodup := by
  rw [List.map_append, List.map_singleton, List.nodup_append]
  refine ⟨h, List.nodup_singleton _, fun a ha b hb => ?_⟩
  obtain rfl := List.mem_singleton.mp hb
  rintro rfl
  exact hnew ha

/-- At its mark a call ends in one of two ways, and the loops of the mark end:
its counter is old and the packet is dropped, or it is new and delivered. -/
theorem mark_cases (p : Primitives) (ht : e.threads thread = some (.opened packet plain))
    (htracks : e.session.receivingKeyCounter.Tracks e.received)
    (hwrap : packet.counter.toNat + nBits < 2 ^ 64) :
    e.step p (.mark thread) = some (e.setThread thread none) ∨
      packet.counter.toNat ∉ e.received ∧
      ∃ v, v.Tracks (insert packet.counter.toNat e.received) ∧
        v.next = max e.session.receivingKeyCounter.next (packet.counter.toNat + 1) ∧
        e.step p (.mark thread) = some { e.setThread thread none with
          session := { e.session with receivingKeyCounter := v }
          delivered := e.delivered ++ [(packet.counter.toNat, plain)] } := by
  by_cases hold : packet.counter.toNat ∈ e.received ∨
      packet.counter.toNat + nBits < e.session.receivingKeyCounter.next
  · have hmark := ReceivingKeyCounterValidator.markDidReceive_refused htracks hwrap hold
    exact .inl (by simp only [step, ht, Session.receivingCounterMark, hmark])
  · obtain ⟨v, hmark, htracks', hnext⟩ :=
      ReceivingKeyCounterValidator.markDidReceive_fresh htracks hwrap
        (fun hs => hold (.inl hs)) (fun hs => hold (.inr hs))
    refine .inr ⟨fun hs => hold (.inl hs), { v with receiveCnt := u64 (v.receiveCnt + 1) },
      ⟨htracks'.lt_next, htracks'.window⟩, hnext, ?_⟩
    simp only [step, ht, Session.receivingCounterMark, hmark]

/-- What stands at its mark carries a counter the other end has sent under. -/
theorem Carries.below_wrap (hc : Carries f e) (hn : Numbered f)
    (hfew : f.sent.length < 2 ^ 64 - nBits)
    (ht : e.threads thread = some (.opened packet plain)) :
    packet.counter.toNat + nBits < 2 ^ 64 := by
  have hlt := hn.lt (hc.opened thread packet plain ht)
  omega

theorem mark_carries (h : e.step p (.mark thread) = some e') (hc : Carries f e)
    (hn : Numbered f) (hfew : f.sent.length < 2 ^ 64 - nBits) : Carries f e' := by
  obtain ⟨packet, plain, ht⟩ := opened_of_mark h
  have hmem := hc.opened thread packet plain ht
  have hclear : Carries f (e.setThread thread none) := hc.setThread fun _ _ hs => by simp at hs
  rcases mark_cases p ht hc.tracks (hc.below_wrap hn hfew ht) with
    hmark | ⟨hnew, v, htracks, hnext, hmark⟩
  · rw [hmark] at h
    cases h
    exact hclear
  · rw [hmark] at h
    cases h
    refine ⟨hc.key, ?_, ?_, ?_, once_append hc.once hnew, hclear.opened⟩
    · show ReceivingKeyCounterValidator.Tracks v {c | c ∈ List.map Prod.fst _}
      rw [received_append]
      exact htracks
    · show v.next ≤ f.sent.length
      rw [hnext]
      exact Nat.max_le.mpr ⟨hc.next_le, hn.lt hmem⟩
    · intro q hq
      rcases List.mem_append.mp hq with hq | hq
      · exact hc.delivered hq
      · exact List.mem_singleton.mp hq ▸ hmem

theorem receivePacketData_steps {session : Session} (ht : e.threads thread = none)
    (h : e.session.receivePacketData p packet dst = some (.ok (session, plain))) :
    exec (step p) e [.check thread packet dst, .decrypt thread, .mark thread] =
      some { e with
        session, delivered := e.delivered ++ [(packet.counter.toNat, plain)] } := by
  have hthreads : Function.update e.threads thread none = e.threads := by
    rw [← ht, Function.update_eq_self]
  simp only [Session.receivePacketData] at h
  split at h
  · cases h
  rename_i hdst
  split at h
  · cases h
  rename_i hcheck
  split at h
  · cases h
  rename_i hopen
  split at h <;> cases h
  rename_i hmark
  simp [exec_cons, step, hdst, ht, hcheck, setThread, hopen, hmark, hthreads]

end Endpoint

-- ---------------------------------------------------------------------------
-- Runs
-- ---------------------------------------------------------------------------

namespace Channel

open Endpoint

variable {p : Primitives} {c c' t : Channel}

/-- Both ends number what they send, and each carries what the other sends. -/
structure Inv (c : Channel) : Prop where
  keys : ∀ x, (c.ends x).session.sender ≠ (c.ends x.other).session.sender
  numbered : ∀ x, (c.ends x).Numbered
  carries : ∀ x, Carries (c.ends x.other) (c.ends x)

/-- Fewer packets than the counters have room for, by either end. -/
def Few (c : Channel) : Prop := ∀ x, (c.ends x).sent.length < 2 ^ 64 - nBits

theorem inv_new (hkeys : keyI ≠ keyR) : (Channel.new indexI indexR keyI keyR).Inv where
  keys x := by
    cases x with
    | initiator => exact hkeys
    | responder => exact hkeys.symm
  numbered x := by cases x <;> exact ⟨rfl, rfl⟩
  carries x := by
    have htracks : ReceivingKeyCounterValidator.Tracks .default
        {d | d ∈ List.map Prod.fst ([] : List (Nat × Bytes))} := by
      simpa using ReceivingKeyCounterValidator.tracks_default
    cases x <;>
      exact ⟨rfl, htracks, Nat.le_refl 0, List.Subset.refl [], List.nodup_nil,
        fun _ _ _ h => nomatch h⟩

theorem step_some (h : c.step p (x, m) = some c') :
    ∃ e, (c.ends x).step p m = some e ∧ c'.ends x = e ∧ c'.ends x.other = c.ends x.other := by
  obtain ⟨e, he, rfl⟩ := Option.map_eq_some_iff.mp h
  exact ⟨e, he, Function.update_self .., Function.update_of_ne x.other_ne ..⟩

theorem forall_party {P : Party → Prop} (x : Party) (hx : P x) (ho : P x.other) : ∀ y, P y := by
  intro y
  cases x <;> cases y <;> assumption

theorem Inv.sealed_other (h : c.Inv) (hfew : c.Few)
    (hs : c.Sealed p (c.ends x).session.receiver (nonceOf packet.counter.toNat) ciphertext) :
    ∃ src, (PacketData.counter packet |>.toNat, src) ∈ (c.ends x.other).sent ∧
      ciphertext = p.sealBytes (c.ends x).session.receiver (nonceOf packet.counter.toNat) src := by
  obtain ⟨y, hkey, ⟨counter, src⟩, hmem, hnonce, hct⟩ := hs
  have hy : y = x.other := by
    rw [(h.carries x).key] at hkey
    revert hkey
    refine forall_party (P := fun y => (c.ends y).session.sender = _ → y = x.other) x ?_ ?_ y
    · exact fun hsame => absurd hsame (h.keys x)
    · exact fun _ => rfl
  subst hy
  have hlt : counter < 2 ^ 64 :=
    Nat.lt_of_lt_of_le ((h.numbered _).lt hmem) (Nat.le_of_lt (Nat.lt_of_lt_of_le (hfew _)
      (Nat.sub_le ..)))
  have hcounter : packet.counter.toNat = counter :=
    nonceOf_inj packet.counter.toNat_lt hlt hnonce
  exact ⟨src, hcounter ▸ hmem, hct⟩

theorem step_sent_le (h : c.step p i = some c') : ∀ x,
    (c.ends x).sent.length ≤ (c'.ends x).sent.length := by
  obtain ⟨x, m⟩ := i
  obtain ⟨e, he, hx, ho⟩ := step_some h
  refine forall_party x ?_ (by rw [ho])
  rw [hx]
  cases m with
  | send src dst =>
    obtain ⟨r, hr, rfl⟩ := Option.map_eq_some_iff.mp he
    simp
  | check thread packet dst => rw [(receive_same he (by simp)).sent]
  | decrypt thread => rw [(receive_same he (by simp)).sent]
  | mark thread => rw [(receive_same he (by simp)).sent]

theorem Few.of_step (h : c.step p i = some c') (hfew : c'.Few) : c.Few := fun x =>
  Nat.lt_of_le_of_lt (step_sent_le h x) (hfew x)

theorem Few.of_run (he : exec (step p) c is = some t) (hfew : t.Few) : c.Few := by
  induction is generalizing c with
  | nil => cases he; exact hfew
  | cons i is ih =>
    obtain ⟨c', hs, he⟩ := (exec_cons_some _).mp he
    exact Few.of_step hs (ih he)

/-- A step inside the receiving half keeps the invariant, once it keeps what
its end carries. -/
theorem Inv.receive (h : c.Inv) (hx : c'.ends x = e) (ho : c'.ends x.other = c.ends x.other)
    (hsame : SameSending (c.ends x) e) (hcarries : Carries (c.ends x.other) e) : c'.Inv where
  keys := by
    refine forall_party x ?_ ?_
    · rw [hx, ho, hsame.sender]
      exact h.keys x
    · rw [Party.other_other, hx, ho, hsame.sender]
      exact (h.keys x).symm
  numbered := by
    refine forall_party x ?_ ?_
    · rw [hx]
      exact (h.numbered x).same hsame
    · rw [ho]
      exact h.numbered x.other
  carries := by
    refine forall_party x ?_ ?_
    · rw [hx, ho]
      exact hcarries
    · rw [Party.other_other, hx, ho]
      have hother := h.carries x.other
      rw [Party.other_other] at hother
      exact hother.same_sending hsame

theorem Inv.kept (hp : p.Lawful) (h : c.Inv) (hun : c.Unforged p i)
    (hs : c.step p i = some c') (hfew : c'.Few) : c'.Inv := by
  obtain ⟨x, m⟩ := i
  obtain ⟨e, he, hx, ho⟩ := step_some hs
  have hfewc := Few.of_step hs hfew
  cases m with
  | send src dst =>
    have hlen : e.sent.length < 2 ^ 64 :=
      hx ▸ Nat.lt_of_lt_of_le (hfew x) (Nat.sub_le ..)
    obtain ⟨hsame, hsender, hsub, hle, hnum⟩ := send_cases he (h.numbered x) hlen
    have hother := h.carries x.other
    rw [Party.other_other] at hother
    constructor
    · refine forall_party x ?_ ?_
      · rw [hx, ho, hsender]
        exact h.keys x
      · rw [Party.other_other, hx, ho, hsender]
        exact (h.keys x).symm
    · refine forall_party x ?_ ?_
      · rw [hx]
        exact hnum
      · rw [ho]
        exact h.numbered x.other
    · refine forall_party x ?_ ?_
      · rw [hx, ho]
        exact (h.carries x).same_receiving hsame
      · rw [Party.other_other, hx, ho]
        exact ⟨hother.key.trans hsender.symm, hother.tracks, hother.next_le.trans hle,
          List.Subset.trans hother.delivered hsub, hother.once,
          fun thread packet plain ht => hsub (hother.opened thread packet plain ht)⟩
  | check thread packet dst =>
    exact h.receive hx ho (receive_same he (by simp)) (check_carries he (h.carries x))
  | decrypt thread =>
    refine h.receive hx ho (receive_same he (by simp))
      (decrypt_carries hp he (h.carries x) fun packet plain ht hopen => ?_)
    simp only [Unforged, ht, OpensSealed] at hun
    refine h.sealed_other hfewc (hun ?_)
    simp only [Session.openPacket] at hopen
    split at hopen
    · rename_i hplain
      rw [hplain, Option.isSome_some]
    · cases hopen
  | mark thread =>
    exact h.receive hx ho (receive_same he (by simp))
      (mark_carries he (h.carries x) (h.numbered x.other) (hfewc x.other))

theorem Inv.run (hp : p.Lawful) (h : c.Inv) (hun : Along (step p) (Unforged p) c is)
    (he : exec (step p) c is = some t) (hfew : t.Few) : t.Inv := by
  induction is generalizing c with
  | nil => cases he; exact h
  | cons i is ih =>
    obtain ⟨c', hs, he⟩ := (exec_cons_some _).mp he
    exact ih (h.kept hp hun.1 hs (Few.of_run he hfew)) (hun.2 c' hs) he

theorem exec_endpoint {ms : List Move} (h : exec (Endpoint.step p) (c.ends x) ms = some e) :
    exec (step p) c (ms.map (x, ·)) = some ⟨Function.update c.ends x e⟩ := by
  induction ms generalizing c with
  | nil =>
    cases h
    simp
  | cons m ms ih =>
    obtain ⟨e', hs, he⟩ := (exec_cons_some _).mp h
    rw [List.map_cons, exec_cons, step, hs]
    simpa using ih (c := ⟨Function.update c.ends x e'⟩) (by simpa using he)

theorem unforged_receive {dst : Nat} (hun : c.OpensSealed p x (some (.checked packet)))
    (hfree : (c.ends x).threads thread = none) :
    Along (step p) (Unforged p) c
      (([.check thread packet dst, .decrypt thread, .mark thread] : List Move).map (x, ·)) := by
  refine ⟨trivial, fun c₁ hs => ⟨?_, fun _ _ => ⟨trivial, fun _ _ => trivial⟩⟩⟩
  obtain ⟨e, he, hx, ho⟩ := step_some hs
  have hsame : ∀ y, SameSending (c.ends y) (c₁.ends y) :=
    forall_party x (hx ▸ receive_same he (by simp)) (ho ▸ ⟨rfl, rfl, rfl⟩)
  have hsealed : ∀ key nonce ciphertext, c.Sealed p key nonce ciphertext →
      c₁.Sealed p key nonce ciphertext := by
    rintro key nonce ciphertext ⟨y, hkey, q, hq, hct⟩
    exact ⟨y, (hsame y).sender.trans hkey, q, (hsame y).sent.symm ▸ hq, hct⟩
  simp only [Endpoint.step] at he
  split at he
  · cases he
  · split at he <;> cases he
    · simp only [Unforged, hx, hfree, OpensSealed]
    · simp only [Unforged, hx, Endpoint.setThread, Function.update_self, OpensSealed] at hun ⊢
      exact fun hopen => hsealed _ _ _ (hun hopen)

theorem Few.update (hfew : c.Few) (hsent : e.sent = (c.ends x).sent) :
    Few ⟨Function.update c.ends x e⟩ := by
  refine forall_party x ?_ ?_
  · simpa [hsent] using hfew x
  · simpa [Function.update_of_ne x.other_ne] using hfew x.other

theorem Inv.receivePacketData {session : Session} (hp : p.Lawful) (h : c.Inv) (hfew : c.Few)
    (hfree : (c.ends x).threads thread = none)
    (hun : c.OpensSealed p x (some (.checked packet)))
    (hret : (c.ends x).session.receivePacketData p packet dst = some (.ok (session, plain))) :
    (packet.counter.toNat, plain) ∈ (c.ends x.other).sent ∧
      packet.counter.toNat ∉ (c.ends x).received := by
  have hexec := exec_endpoint (receivePacketData_steps hfree hret)
  have hcarries := (h.run hp (unforged_receive hun hfree) hexec (hfew.update rfl)).carries x
  simp only [Function.update_self, Function.update_of_ne x.other_ne] at hcarries
  refine ⟨hcarries.delivered (List.mem_append_right _ (List.mem_singleton_self _)), fun hold => ?_⟩
  have honce := hcarries.once
  rw [List.map_append, List.nodup_append] at honce
  exact honce.2.2 _ hold _ (List.mem_singleton_self _) rfl

/-- Whatever the network did before, a call of `receive_packet_data` gives what
the other end sent under this counter, and nothing was given under it before. -/
theorem receivePacketData_sent {session : Session} (hp : p.Lawful) (hkeys : keyI ≠ keyR)
    (hun : Along (step p) (Unforged p) (Channel.new indexI indexR keyI keyR) is)
    (he : exec (step p) (Channel.new indexI indexR keyI keyR) is = some c) (hfew : c.Few)
    (hfree : (c.ends x).threads thread = none)
    (hopens : c.OpensSealed p x (some (.checked packet)))
    (hret : (c.ends x).session.receivePacketData p packet dst = some (.ok (session, plain))) :
    (packet.counter.toNat, plain) ∈ (c.ends x.other).sent ∧
      packet.counter.toNat ∉ (c.ends x).received :=
  ((inv_new hkeys).run hp hun he hfew).receivePacketData hp hfew hfree hopens hret

/-- Whatever the network does, what one end delivers is what the other end
sent, each packet at most once. -/
theorem delivered_le_sent (hp : p.Lawful) (hkeys : keyI ≠ keyR)
    (hun : Along (step p) (Unforged p) (Channel.new indexI indexR keyI keyR) is)
    (he : exec (step p) (Channel.new indexI indexR keyI keyR) is = some t)
    (hfew : ∀ x, (t.ends x).sent.length < 2 ^ 64 - nBits) (x : Party) :
    ((t.ends x).delivered.map Prod.snd : Multiset Bytes) ≤
      ((t.ends x.other).sent.map Prod.snd : Multiset Bytes) := by
  have hinv := (inv_new hkeys).run hp hun he hfew
  have hcarries := hinv.carries x
  have hnodup : (t.ends x).delivered.Nodup := hcarries.once.of_map _
  have hpairs : ((t.ends x).delivered : Multiset (Nat × Bytes)) ≤ (t.ends x.other).sent :=
    Multiset.coe_le.mpr (List.subperm_of_subset hnodup hcarries.delivered)
  simpa using Multiset.map_le_map (f := Prod.snd) hpairs

/-- With one key for both directions: the network sends a packet back to the end
that sealed it, under the index this end expects. -/
def reflected : List (Party × Move) :=
  let packet : PacketData :=
    { receiverIdx := 1
      counter := 0
      encryptedEncapsulatedPacket :=
        samplePrimitives.sealBytes (beArray 32 1) (nonceOf 0) [0x45, 0, 0, 3] }
  [(.initiator, .send [0x45, 0, 0, 3] 2048), (.initiator, .check 0 packet 2048),
    (.initiator, .decrypt 0), (.initiator, .mark 0)]

theorem reflected_runs :
    (exec (step samplePrimitives) (Channel.new 1 2 (beArray 32 1) (beArray 32 1))
      reflected).isSome := by
  decide

theorem reflected_delivered :
    let c := (exec (step samplePrimitives) (Channel.new 1 2 (beArray 32 1) (beArray 32 1))
      reflected).get reflected_runs
    samplePrimitives.Lawful ∧
      Along (step samplePrimitives) (Unforged samplePrimitives)
        (Channel.new 1 2 (beArray 32 1) (beArray 32 1)) reflected ∧
      (∀ x, (c.ends x).sent.length < 2 ^ 64 - nBits) ∧
      ¬ ((c.ends .initiator).delivered.map Prod.snd : Multiset Bytes) ≤
        ((c.ends .responder).sent.map Prod.snd : Multiset Bytes) :=
  ⟨samplePrimitives_lawful, by decide, fun x => by cases x <;> decide, by decide⟩

/-- One packet, which the network duplicates: both copies pass the first check
before either is marked. -/
def duplicated : List (Party × Move) :=
  let packet : PacketData :=
    { receiverIdx := 2
      counter := 0
      encryptedEncapsulatedPacket :=
        samplePrimitives.sealBytes (beArray 32 1) (nonceOf 0) [0x45, 0, 0, 3] }
  [(.initiator, .send [0x45, 0, 0, 3] 2048),
    (.responder, .check 0 packet 2048), (.responder, .check 1 packet 2048),
    (.responder, .decrypt 0), (.responder, .decrypt 1),
    (.responder, .mark 0), (.responder, .mark 1)]

theorem duplicated_runs :
    (exec (step samplePrimitives) (Channel.new 1 2 (beArray 32 1) (beArray 32 2))
      duplicated).isSome := by
  decide

theorem duplicated_unforged :
    Along (step samplePrimitives) (Unforged samplePrimitives)
      (Channel.new 1 2 (beArray 32 1) (beArray 32 2)) duplicated := by
  decide

theorem delivered_le_sent_sample :
    let c := (exec (step samplePrimitives) (Channel.new 1 2 (beArray 32 1) (beArray 32 2))
      duplicated).get duplicated_runs
    (c.ends .responder).delivered = [(0, [0x45, 0, 0, 3])] ∧
      (((c.ends .responder).delivered.map Prod.snd : Multiset Bytes) ≤
        ((c.ends .initiator).sent.map Prod.snd : Multiset Bytes)) := by
  refine ⟨by decide, ?_⟩
  exact delivered_le_sent samplePrimitives_lawful (by decide) duplicated_unforged
    (Option.some_get _).symm (fun x => by cases x <;> decide) .responder

end Channel

end Xelt.Boringtun.Noise.Crypto
