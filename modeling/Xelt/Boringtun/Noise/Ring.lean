import Xelt.Boringtun.Noise.Channel

/-!
# The ring of sessions

A tunnel keeps its sessions in a ring of slots, one for each residue of the
local index, and a new session takes the place of the one in its slot. Two
such rings face each other over a network that delivers whatever it likes,
while sessions come and go at both ends. A ring remembers the sessions it ever
held, what they sealed and what they opened.

Sessions come from handshakes. What is needed of these is `Fresh`: no two
sessions of an end receive under one key, and none sends under a key that one
of them receives under.
-/

namespace Xelt.Boringtun.Noise.Crypto

open Bytes Runs

/-- A packet under the key and the counter that seal it. -/
structure Sealing where
  key : Bytes32
  counter : Nat
  plain : Bytes
  deriving DecidableEq

structure SessionRing where
  sessions : Fin nSessions → Option Session
  made : List Session
  sealings : List Sealing
  openings : List Sealing

inductive RingMove
  | drop (i : Fin nSessions)
  | store (localIndex peerIndex : UInt32) (receivingKey sendingKey : Bytes32)
  | send (i : Fin nSessions) (src : Bytes) (dst : Nat)
  | accept (i : Fin nSessions) (packet : PacketData) (dst : Nat)
  deriving DecidableEq

namespace SessionRing

def empty : SessionRing := ⟨fun _ => none, [], [], []⟩

variable (p : Primitives)

def put (r : SessionRing) (i : Fin nSessions) (session : Option Session) : SessionRing :=
  { r with sessions := Function.update r.sessions i session }

def step (r : SessionRing) : RingMove → Option SessionRing
  | .drop i => some (r.put i none)
  | .store localIndex peerIndex receivingKey sendingKey =>
    let session := Session.new localIndex peerIndex receivingKey sendingKey
    some { r.put (Noise.Tunn.slot localIndex.toNat) (some session) with
      made := r.made ++ [session] }
  | .send i src dst =>
    match r.sessions i with
    | none => none
    | some s => (s.formatPacketData p src dst).map fun (session, packet) =>
      { r.put i (some session) with
        sealings := r.sealings ++ [⟨s.sender, packet.counter.toNat, src⟩] }
  | .accept i packet dst =>
    match r.sessions i with
    | none => none
    | some s =>
      match s.receivePacketData p packet dst with
      | some (.ok (session, plain)) =>
        some { r.put i (some session) with
          openings := r.openings ++ [⟨s.receiver, packet.counter.toNat, plain⟩] }
      | _ => none

/-- The keys of the sessions an end has made, as far as they must differ. -/
structure Fresh (r : SessionRing) : Prop where
  receivers : (r.made.map Session.receiver).Nodup
  apart : ∀ s ∈ r.made, ∀ s' ∈ r.made, s.receiver ≠ s'.sender

def Few (r : SessionRing) : Prop := r.sealings.length < 2 ^ 64 - nBits

instance : Decidable (Fresh r) :=
  decidable_of_iff ((r.made.map Session.receiver).Nodup ∧
    ∀ s ∈ r.made, ∀ s' ∈ r.made, s.receiver ≠ s'.sender) ⟨fun h => ⟨h.1, h.2⟩, fun h => ⟨h.1, h.2⟩⟩

instance : Decidable (Few r) := inferInstanceAs (Decidable (_ < _))

end SessionRing

instance decidableParties {P : Party → Prop} [∀ x, Decidable (P x)] : Decidable (∀ x, P x) :=
  decidable_of_iff (P .initiator ∧ P .responder)
    ⟨fun h => Channel.forall_party .initiator h.1 h.2, fun h => ⟨h _, h _⟩⟩

structure Rings where
  ends : Party → SessionRing

namespace Rings

variable (p : Primitives)

def new : Rings := ⟨fun _ => .empty⟩

def step (n : Rings) (i : Party × RingMove) : Option Rings :=
  ((n.ends i.1).step p i.2).map fun r => ⟨Function.update n.ends i.1 r⟩

/-- A session of one of the two ends sealed this ciphertext under this key and
nonce. -/
def Sealed (n : Rings) (key : Bytes32) (nonce : ByteArr 12) (ciphertext : Bytes) : Prop :=
  ∃ x, ∃ q ∈ (n.ends x).sealings,
    q.key = key ∧ nonce = nonceOf q.counter ∧ ciphertext = p.sealBytes key nonce q.plain

/-- What the session in a slot opens was sealed under the key and nonce it opens
under. -/
def OpensSealed (n : Rings) (packet : PacketData) : Option Session → Prop
  | none => True
  | some s =>
    (p.openBytes s.receiver (nonceOf packet.counter.toNat)
        packet.encryptedEncapsulatedPacket).isSome →
      n.Sealed p s.receiver (nonceOf packet.counter.toNat) packet.encryptedEncapsulatedPacket

def Unforged (n : Rings) : Party × RingMove → Prop
  | (x, .accept i packet _) => n.OpensSealed p packet ((n.ends x).sessions i)
  | _ => True

instance : Decidable (Sealed p n key nonce ciphertext) := decidable_of_iff _ exists_party.symm

instance decidableOpensSealed (packet : PacketData) :
    (s : Option Session) → Decidable (OpensSealed p n packet s)
  | none => .isTrue trivial
  | some _ => inferInstanceAs (Decidable (_ → _))

instance decidableUnforged : (i : Party × RingMove) → Decidable (Unforged p n i)
  | (_, .drop _) | (_, .store ..) | (_, .send ..) => .isTrue trivial
  | (x, .accept i packet _) => decidableOpensSealed p packet ((n.ends x).sessions i)

end Rings

-- ---------------------------------------------------------------------------
-- One end
-- ---------------------------------------------------------------------------

namespace SessionRing

variable {p : Primitives} {r r' f f' : SessionRing}

def openedUnder (r : SessionRing) (key : Bytes32) : Set Nat :=
  {c | ∃ q ∈ r.openings, q.key = key ∧ q.counter = c}

/-- What an end keeps by itself. -/
structure Kept (r : SessionRing) : Prop where
  receiver : ∀ i s, r.sessions i = some s → s.receiver ∈ r.made.map Session.receiver
  sender : ∀ i s, r.sessions i = some s → s.sender ∈ r.made.map Session.sender
  distinct : ∀ i j s s', r.sessions i = some s → r.sessions j = some s' →
    s.receiver = s'.receiver → i = j
  counter : ∀ i s, r.sessions i = some s → s.sendingKeyCounter ≤ r.sealings.length
  sealings : ∀ q ∈ r.sealings, q.key ∈ r.made.map Session.sender ∧ q.counter < r.sealings.length
  openings : ∀ q ∈ r.openings, q.key ∈ r.made.map Session.receiver

/-- `r` has opened only what `f` sealed, each packet once, and its windows know
what it has opened. -/
structure Carries (f r : SessionRing) : Prop where
  tracks : ∀ i s, r.sessions i = some s →
    s.receivingKeyCounter.Tracks (r.openedUnder s.receiver)
  openings : r.openings ⊆ f.sealings
  once : (r.openings.map fun q => (q.key, q.counter)).Nodup

theorem kept_empty : Kept .empty := by
  constructor <;> simp [empty]

theorem carries_empty : Carries f .empty := by
  constructor <;> simp [empty]

theorem Carries.mono (h : Carries f r) (hsub : f.sealings ⊆ f'.sealings) : Carries f' r where
  tracks := h.tracks
  openings := List.Subset.trans h.openings hsub
  once := h.once

theorem Fresh.of_earlier (h : Fresh r') (hp : r.made <+: r'.made) : Fresh r where
  receivers := h.receivers.sublist (hp.sublist.map _)
  apart s hs s' hs' := h.apart s (hp.subset hs) s' (hp.subset hs')

@[simp] theorem put_self (r : SessionRing) (i : Fin nSessions) (s : Option Session) :
    (r.put i s).sessions i = s := Function.update_self ..

theorem put_other (r : SessionRing) (h : j ≠ i) (s : Option Session) :
    (r.put i s).sessions j = r.sessions j := Function.update_of_ne h ..

/-- Of a property of all sessions, a put leaves the session put to be shown. -/
theorem forall_put {P : Fin nSessions → Session → Prop}
    (h : ∀ j s, r.sessions j = some s → P j s) (hs : ∀ s, session = some s → P i s) :
    ∀ j s, (r.put i session).sessions j = some s → P j s := by
  intro j s hj
  by_cases hji : j = i
  · subst hji
    rw [put_self] at hj
    exact hs s hj
  · rw [r.put_other hji] at hj
    exact h j s hj

theorem distinct_put (h : Kept r)
    (hs : ∀ j s s', session = some s → j ≠ i → r.sessions j = some s' → s.receiver ≠ s'.receiver) :
    ∀ j k s s', (r.put i session).sessions j = some s → (r.put i session).sessions k = some s' →
      s.receiver = s'.receiver → j = k := by
  intro j k s s' hj hk heq
  by_cases hji : j = i
  · subst hji
    rw [put_self] at hj
    by_contra hne
    rw [r.put_other (Ne.symm hne)] at hk
    exact hs k s s' hj (Ne.symm hne) hk heq
  · rw [r.put_other hji] at hj
    by_cases hki : k = i
    · subst hki
      rw [put_self] at hk
      exact absurd heq.symm (hs j s' s hk hji hj)
    · rw [r.put_other hki] at hk
      exact h.distinct j k s s' hj hk heq

/-- A put in place of a session with the same keys keeps the keys apart. -/
theorem distinct_replace (h : Kept r) (hi : r.sessions i = some s₀)
    (hkey : s.receiver = s₀.receiver) :
    ∀ j k t t', (r.put i (some s)).sessions j = some t → (r.put i (some s)).sessions k = some t' →
      t.receiver = t'.receiver → j = k := by
  refine distinct_put h fun j t t' ht hj hj' heq => hj ?_
  obtain rfl := Option.some.inj ht
  exact h.distinct j i t' s₀ hj' hi (heq.symm.trans hkey)

-- ---------------------------------------------------------------------------
-- Steps of one end
-- ---------------------------------------------------------------------------

theorem step_drop (h : Kept r) (hc : Carries f r) (hs : r.step p (.drop i) = some r') :
    Kept r' ∧ Carries f r' := by
  obtain rfl := Option.some.inj hs
  constructor
  · exact ⟨forall_put h.receiver (by simp), forall_put h.sender (by simp),
      distinct_put h (by simp), forall_put h.counter (by simp), h.sealings, h.openings⟩
  · exact ⟨forall_put hc.tracks (by simp), hc.openings, hc.once⟩

theorem openedUnder_fresh (h : Kept r) (hnew : key ∉ r.made.map Session.receiver) :
    r.openedUnder key = ∅ := by
  rw [Set.eq_empty_iff_forall_notMem]
  rintro c ⟨q, hq, rfl, -⟩
  exact hnew (h.openings q hq)

/-- A session as a handshake makes it takes the place of the one in its slot. -/
theorem step_store (h : Kept r) (hc : Carries f r)
    (hs : r.step p (.store localIndex peerIndex receiver sender) = some r')
    (hfresh : Fresh r') : Kept r' ∧ Carries f r' := by
  obtain rfl := Option.some.inj hs
  have hnodup := hfresh.receivers
  rw [List.map_append, List.map_singleton, List.nodup_append] at hnodup
  have hnew : receiver ∉ r.made.map Session.receiver := fun hmem =>
    hnodup.2.2 _ hmem _ (List.mem_singleton_self _) rfl
  have hold : ∀ {g : Session → Bytes32} {key}, key ∈ r.made.map g →
      key ∈ (r.made ++ [Session.new localIndex peerIndex receiver sender]).map g := fun hmem => by
    rw [List.map_append]
    exact List.mem_append_left _ hmem
  constructor
  · constructor
    · exact forall_put (fun j s hj => hold (h.receiver j s hj)) (by simp)
    · exact forall_put (fun j s hj => hold (h.sender j s hj)) (by simp)
    · refine distinct_put h fun j s s' hput hj hs' heq => hnew ?_
      obtain rfl := Option.some.inj hput
      have hkey : receiver = s'.receiver := heq
      exact hkey ▸ h.receiver j s' hs'
    · exact forall_put h.counter (by simp [Session.new])
    · exact fun q hq => ⟨hold (h.sealings q hq).1, (h.sealings q hq).2⟩
    · exact fun q hq => hold (h.openings q hq)
  · refine ⟨forall_put hc.tracks fun s hput => ?_, hc.openings, hc.once⟩
    obtain rfl := Option.some.inj hput
    show ReceivingKeyCounterValidator.Tracks .default (r.openedUnder receiver)
    rw [openedUnder_fresh h hnew]
    exact ReceivingKeyCounterValidator.tracks_default

theorem step_send (h : Kept r) (hc : Carries f r) (hs : r.step p (.send i src dst) = some r')
    (hfew : r'.Few) : Kept r' ∧ Carries f r' ∧ r.sealings ⊆ r'.sealings := by
  simp only [step] at hs
  cases hi : r.sessions i with
  | none => simp [hi] at hs
  | some s =>
    simp only [hi, Session.formatPacketData] at hs
    by_cases hdst : dst < src.length + dataOverheadSz
    · simp [hdst] at hs
    · simp only [hdst, if_false, Option.map_some, Option.some.injEq] at hs
      subst hs
      simp only [Few, List.length_append, List.length_singleton] at hfew
      have hle := h.counter i s hi
      have hcount : (UInt64.ofNat s.sendingKeyCounter).toNat = s.sendingKeyCounter := by
        rw [UInt64.toNat_ofNat']
        exact Nat.mod_eq_of_lt (by omega)
      have hnext : u64 (s.sendingKeyCounter + 1) ≤ s.sendingKeyCounter + 1 := Nat.mod_le _ _
      refine ⟨?_, ?_, List.subset_append_left ..⟩
      · constructor
        · exact forall_put h.receiver (by rintro _ ⟨⟩; exact h.receiver i s hi)
        · exact forall_put h.sender (by rintro _ ⟨⟩; exact h.sender i s hi)
        · exact distinct_replace h hi rfl
        · refine forall_put (P := fun _ s => s.sendingKeyCounter ≤ _)
            (fun j s hj => (h.counter j s hj).trans (by simp)) ?_
          rintro _ ⟨⟩
          simp only [List.length_append, List.length_singleton]
          omega
        · intro q hq
          rcases List.mem_append.mp hq with hq | hq
          · obtain ⟨hkey, hlt⟩ := h.sealings q hq
            exact ⟨hkey, by simp only [List.length_append, List.length_singleton]; omega⟩
          · obtain rfl := List.mem_singleton.mp hq
            refine ⟨h.sender i s hi, ?_⟩
            simp only [hcount, List.length_append, List.length_singleton]
            omega
        · exact h.openings
      · refine ⟨forall_put hc.tracks ?_, hc.openings, hc.once⟩
        rintro _ ⟨⟩
        exact hc.tracks i s hi

/-- What a packet that was received shows: it opened, and its counter was
marked. -/
theorem received_cases {s s' : Session}
    (h : s.receivePacketData p packet dst = some (.ok (s', plain))) :
    p.openBytes s.receiver (nonceOf packet.counter.toNat) packet.encryptedEncapsulatedPacket =
        some plain ∧
      ∃ v, s.receivingKeyCounter.markDidReceive packet.counter.toNat = some (.ok v) ∧
        s' = { s with receivingKeyCounter := { v with receiveCnt := u64 (v.receiveCnt + 1) } } := by
  simp only [Session.receivePacketData] at h
  split at h
  · cases h
  split at h
  · cases h
  split at h
  · cases h
  rename_i hopen
  split at h <;> cases h
  rename_i hmark
  constructor
  · simp only [Session.openPacket] at hopen
    split at hopen <;> cases hopen
    assumption
  · simp only [Session.receivingCounterMark] at hmark
    split at hmark <;> cases hmark
    exact ⟨_, by assumption, rfl⟩

theorem openedUnder_append (r : SessionRing) (q : Sealing) (key : Bytes32) :
    ({ r with openings := r.openings ++ [q] } : SessionRing).openedUnder key =
      if q.key = key then insert q.counter (r.openedUnder key) else r.openedUnder key := by
  ext c
  by_cases hkey : q.key = key <;>
    simp [openedUnder, hkey, or_and_right, exists_or, or_comm, eq_comm (a := c)]

/-- A packet is opened that the other end sealed, and whose counter was not
opened before. -/
theorem step_accept (h : Kept r) (hc : Carries f r) (hs : r.step p (.accept i packet dst) = some r')
    (hfew : f.Few) (hf : Kept f)
    (hseal : ∀ s plain, r.sessions i = some s →
      p.openBytes s.receiver (nonceOf packet.counter.toNat) packet.encryptedEncapsulatedPacket =
        some plain → ⟨s.receiver, packet.counter.toNat, plain⟩ ∈ f.sealings) :
    Kept r' ∧ Carries f r' := by
  simp only [step] at hs
  cases hi : r.sessions i with
  | none => simp [hi] at hs
  | some s =>
    simp only [hi] at hs
    split at hs <;> cases hs
    rename_i s' plain hreceive
    obtain ⟨hopen, v, hmark, rfl⟩ := received_cases hreceive
    have hmem := hseal s plain hi hopen
    have hwrap : packet.counter.toNat + nBits < 2 ^ 64 := by
      have hlt : packet.counter.toNat < f.sealings.length := (hf.sealings _ hmem).2
      simp only [Few] at hfew
      omega
    have htracks := hc.tracks i s hi
    have hnew : ¬ (packet.counter.toNat ∈ r.openedUnder s.receiver ∨
        packet.counter.toNat + nBits < s.receivingKeyCounter.next) := fun hold => by
      rw [ReceivingKeyCounterValidator.markDidReceive_refused htracks hwrap hold] at hmark
      cases hmark
    obtain ⟨v', hmark', htracks', -⟩ := ReceivingKeyCounterValidator.markDidReceive_fresh htracks
      hwrap (fun hs => hnew (.inl hs)) (fun hs => hnew (.inr hs))
    obtain rfl : v = v' := by
      rw [hmark] at hmark'
      simpa using hmark'
    constructor
    · exact ⟨forall_put h.receiver (by rintro _ ⟨⟩; exact h.receiver i s hi),
        forall_put h.sender (by rintro _ ⟨⟩; exact h.sender i s hi), distinct_replace h hi rfl,
        forall_put h.counter (by rintro _ ⟨⟩; exact h.counter i s hi), h.sealings,
        List.forall_mem_append.mpr ⟨h.openings, List.forall_mem_singleton.mpr (h.receiver i s hi)⟩⟩
    · refine ⟨?_, List.append_subset.mpr ⟨hc.openings, by simpa using hmem⟩, ?_⟩
      · -- the window in the slot has the new counter, the others have other keys
        intro j t hj
        show t.receivingKeyCounter.Tracks (openedUnder { r with openings := _ } t.receiver)
        rw [openedUnder_append]
        by_cases hji : j = i
        · subst hji
          obtain rfl := Option.some.inj ((r.put_self ..).symm.trans hj)
          rw [if_pos rfl]
          exact ⟨htracks'.lt_next, htracks'.window⟩
        · replace hj : r.sessions j = some t := (r.put_other hji _).symm.trans hj
          rw [if_neg fun heq => hji (h.distinct j i t s hj hi heq.symm)]
          exact hc.tracks j t hj
      · rw [List.map_append, List.map_singleton, List.nodup_append]
        refine ⟨hc.once, List.nodup_singleton _, fun a ha b hb => ?_⟩
        obtain rfl := List.mem_singleton.mp hb
        rintro rfl
        obtain ⟨q, hq, heq⟩ := List.mem_map.mp ha
        obtain ⟨hkey, hcounter⟩ := Prod.mk.inj heq
        exact hnew (.inl ⟨q, hq, hkey, hcounter⟩)

/-- A ring forgets none of the sessions it made and of the packets it sealed,
and seals only when it sends. -/
theorem step_grows (hs : r.step p m = some r') :
    r.made <+: r'.made ∧ r.sealings <+: r'.sealings ∧
      ((∀ i src dst, m ≠ .send i src dst) → r'.sealings = r.sealings) := by
  cases m with
  | drop i =>
    cases hs
    exact ⟨List.prefix_rfl, List.prefix_rfl, fun _ => rfl⟩
  | store localIndex peerIndex receiver sender =>
    cases hs
    exact ⟨List.prefix_append .., List.prefix_rfl, fun _ => rfl⟩
  | send i src dst =>
    simp only [step] at hs
    split at hs
    · cases hs
    · obtain ⟨_, -, rfl⟩ := Option.map_eq_some_iff.mp hs
      exact ⟨List.prefix_rfl, List.prefix_append .., fun h => absurd rfl (h i src dst)⟩
  | accept i packet dst =>
    simp only [step] at hs
    split at hs
    · cases hs
    · split at hs <;> cases hs
      exact ⟨List.prefix_rfl, List.prefix_rfl, fun _ => rfl⟩

end SessionRing

-- ---------------------------------------------------------------------------
-- Two ends
-- ---------------------------------------------------------------------------

namespace Rings

open SessionRing Channel

variable {p : Primitives} {n n' t : Rings}

structure Inv (n : Rings) : Prop where
  kept : ∀ x, (n.ends x).Kept
  carries : ∀ x, Carries (n.ends x.other) (n.ends x)

theorem inv_new : Inv new := ⟨fun _ => kept_empty, fun _ => carries_empty⟩

/-- What the hypotheses on a run say of each of its states. -/
structure Sound (n : Rings) : Prop where
  fresh : ∀ x, (n.ends x).Fresh
  few : ∀ x, (n.ends x).Few

theorem step_cases (h : n.step p (x, m) = some n') :
    ∃ r, (n.ends x).step p m = some r ∧ n'.ends x = r ∧ n'.ends x.other = n.ends x.other := by
  obtain ⟨r, hr, rfl⟩ := Option.map_eq_some_iff.mp h
  exact ⟨r, hr, Function.update_self .., Function.update_of_ne x.other_ne ..⟩

theorem Sound.of_step (h : n.step p i = some n') (hs : Sound n') : Sound n := by
  obtain ⟨x, m⟩ := i
  obtain ⟨r, hr, hx, ho⟩ := step_cases h
  obtain ⟨hmade, hsealings, -⟩ := step_grows hr
  constructor
  · exact forall_party x ((hx ▸ hs.fresh x).of_earlier hmade) (ho ▸ hs.fresh x.other)
  · exact forall_party x (Nat.lt_of_le_of_lt hsealings.length_le (hx ▸ hs.few x))
      (ho ▸ hs.few x.other)

theorem Sound.of_run (he : exec (step p) n is = some t) (hs : Sound t) : Sound n := by
  induction is generalizing n with
  | nil => cases he; exact hs
  | cons i is ih =>
    obtain ⟨n', hstep, he⟩ := (exec_cons_some _).mp he
    exact Sound.of_step hstep (ih he)

/-- What opens at one end was sealed at the other. -/
theorem Inv.sealed_other (h : n.Inv) (hsound : n.Sound) (hp : p.Lawful)
    (hi : (n.ends x).sessions i = some s)
    (hs : n.Sealed p s.receiver (nonceOf (PacketData.counter packet).toNat) ciphertext)
    (hopen : p.openBytes s.receiver (nonceOf packet.counter.toNat) ciphertext = some plain) :
    ⟨s.receiver, packet.counter.toNat, plain⟩ ∈ (n.ends x.other).sealings := by
  obtain ⟨y, ⟨key, counter, src⟩, hmem, hkey, hnonce, hct⟩ := hs
  simp only at hkey hnonce hct
  subst hkey
  have hy : y = x.other := by
    obtain ⟨s', hs', hreceiver⟩ := List.mem_map.mp ((h.kept x).receiver i s hi)
    refine forall_party (P := fun y => _ ∈ (n.ends y).sealings → y = x.other) x ?_ ?_ y hmem
    · intro hown
      obtain ⟨s'', hs'', hsender⟩ := List.mem_map.mp ((h.kept x).sealings _ hown).1
      exact absurd (hreceiver.trans hsender.symm) ((hsound.fresh x).apart s' hs' s'' hs'')
    · exact fun _ => rfl
  subst hy
  have hlt : counter < 2 ^ 64 :=
    Nat.lt_of_lt_of_le ((h.kept x.other).sealings _ hmem).2
      (Nat.le_trans (Nat.le_of_lt (hsound.few x.other)) (Nat.sub_le ..))
  obtain rfl : packet.counter.toNat = counter := nonceOf_inj packet.counter.toNat_lt hlt hnonce
  rw [hct, hp.openBytes_sealBytes] at hopen
  obtain rfl := Option.some.inj hopen
  exact hmem

/-- A step at one end keeps the invariant, once that end has it. -/
theorem Inv.of_end (h : n.Inv) (hx : n'.ends x = r) (ho : n'.ends x.other = n.ends x.other)
    (hsub : (n.ends x).sealings ⊆ r.sealings)
    (hr : Kept r ∧ Carries (n.ends x.other) r) : n'.Inv where
  kept := forall_party x (hx ▸ hr.1) (ho ▸ h.kept x.other)
  carries := by
    refine forall_party x ?_ ?_
    · rw [hx, ho]
      exact hr.2
    · have hother := h.carries x.other
      rw [Party.other_other] at hother ⊢
      rw [hx, ho]
      exact hother.mono hsub

theorem Inv.move (hp : p.Lawful) (h : n.Inv) (hun : n.Unforged p i) (hs : n.step p i = some n')
    (hsound : n'.Sound) : n'.Inv := by
  obtain ⟨x, m⟩ := i
  obtain ⟨r, hr, hx, ho⟩ := step_cases hs
  have hsub := (step_grows hr).2.1.subset
  refine h.of_end hx ho hsub ?_
  cases m with
  | drop i => exact step_drop (h.kept x) (h.carries x) hr
  | store localIndex peerIndex receiver sender =>
    exact step_store (h.kept x) (h.carries x) hr (hx ▸ hsound.fresh x)
  | send i src dst =>
    have hsent := step_send (h.kept x) (h.carries x) hr (hx ▸ hsound.few x)
    exact ⟨hsent.1, hsent.2.1⟩
  | accept i packet dst =>
    refine step_accept (h.kept x) (h.carries x) hr (ho ▸ hsound.few x.other) (h.kept x.other)
      fun s plain hi hopen => ?_
    simp only [Unforged, hi, OpensSealed] at hun
    exact h.sealed_other (Sound.of_step hs hsound) hp hi (hun (by rw [hopen]; rfl)) hopen

theorem Inv.run (hp : p.Lawful) (h : n.Inv) (hun : Along (step p) (Unforged p) n is)
    (he : exec (step p) n is = some t) (hsound : t.Sound) : t.Inv := by
  induction is generalizing n with
  | nil => cases he; exact h
  | cons i is ih =>
    obtain ⟨n', hs, he⟩ := (exec_cons_some _).mp he
    exact ih (h.move hp hun.1 hs (Sound.of_run he hsound)) (hun.2 n' hs) he

theorem Inv.openings_le (h : t.Inv) (x : Party) :
    ((t.ends x).openings : Multiset Sealing) ≤ (t.ends x.other).sealings :=
  Multiset.coe_le.mpr
    (List.subperm_of_subset ((h.carries x).once.of_map _) (h.carries x).openings)

end Rings

end Xelt.Boringtun.Noise.Crypto
