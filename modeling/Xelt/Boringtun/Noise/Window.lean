import Mathlib.Data.Set.Insert
import Xelt.Boringtun.Noise.Session

/-!
# The window of received counters

`Tracks v seen`: the validator knows the set of counters received so far as
far back as its window reaches. Checking and marking then decide by that set,
as long as the counters in play stay `nBits` below the wrap of a `u64`.

The loops over skipped counters are told by the range they clear: a bit is
left set exactly when it was set and no counter of the range shares it.
-/

namespace Xelt.Boringtun.Noise.Crypto.ReceivingKeyCounterValidator

theorem wordSize_eq : wordSize = 64 := rfl
theorem nBits_eq : nBits = 1024 := rfl

theorem u64_of_lt (h : n < 2 ^ 64) : u64 n = n := Nat.mod_eq_of_lt h

@[simp] theorem next_setBit (v : ReceivingKeyCounterValidator) : (v.setBit i).next = v.next := rfl
@[simp] theorem next_clearBit (v : ReceivingKeyCounterValidator) :
    (v.clearBit i).next = v.next := rfl
@[simp] theorem next_clearWord (v : ReceivingKeyCounterValidator) :
    (v.clearWord i).next = v.next := rfl

theorem checkBit_setBit (v : ReceivingKeyCounterValidator) :
    (v.setBit j).checkBit i = true ↔ i % nBits = j % nBits ∨ v.checkBit i = true := by
  simp [checkBit, setBit, BitRing.checkBit_setBit, nBits, Nat.mul_comm]

-- ---------------------------------------------------------------------------
-- Clearing
-- ---------------------------------------------------------------------------

/-- `v'` is `v` with the bits of the counters from `a` up to `b` cleared. -/
structure Cleared (a b : Nat) (v v' : ReceivingKeyCounterValidator) : Prop where
  next : v'.next = v.next
  checkBit : ∀ j, v'.checkBit j = true ↔
    v.checkBit j = true ∧ ∀ k, a ≤ k → k < b → k % nBits ≠ j % nBits

theorem Cleared.refl (v : ReceivingKeyCounterValidator) : Cleared a a v v where
  next := rfl
  checkBit _ := ⟨fun h => ⟨h, fun _ hle hlt => absurd hlt (Nat.not_lt.mpr hle)⟩, And.left⟩

theorem Cleared.trans (h : Cleared a b v v') (h' : Cleared b c v' v'') (hab : a ≤ b)
    (hbc : b ≤ c) : Cleared a c v v'' where
  next := h'.next.trans h.next
  checkBit j := by
    rw [h'.checkBit, h.checkBit]
    constructor
    · rintro ⟨⟨hv, hlow⟩, hhigh⟩
      refine ⟨hv, fun k hle hlt => ?_⟩
      rcases Nat.lt_or_ge k b with hk | hk
      · exact hlow k hle hk
      · exact hhigh k hk hlt
    · rintro ⟨hv, hall⟩
      exact ⟨⟨hv, fun k hle hlt => hall k hle (Nat.lt_of_lt_of_le hlt hbc)⟩,
        fun k hle hlt => hall k (Nat.le_trans hab hle) hlt⟩

theorem clearBit_cleared (v : ReceivingKeyCounterValidator) :
    Cleared i (i + 1) v (v.clearBit i) where
  next := rfl
  checkBit j := by
    have hone : (∀ k, i ≤ k → k < i + 1 → k % nBits ≠ j % nBits) ↔ ¬ j % nBits = i % nBits := by
      constructor
      · intro h he
        exact h i (Nat.le_refl i) (Nat.lt_succ_self i) he.symm
      · intro h k hle hlt
        obtain rfl : k = i := Nat.le_antisymm (Nat.le_of_lt_succ hlt) hle
        exact Ne.symm h
    rw [hone]
    simp [ReceivingKeyCounterValidator.checkBit, clearBit, BitRing.checkBit_clearBit, nBits,
      Nat.mul_comm, and_comm]

theorem clearWord_cleared (v : ReceivingKeyCounterValidator) (h : i % wordSize = 0) :
    Cleared i (i + wordSize) v (v.clearWord i) where
  next := rfl
  checkBit j := by
    have hword : BitRing.word wordSize nWords j ≠ BitRing.word wordSize nWords i ↔
        ∀ k, i ≤ k → k < i + wordSize → k % nBits ≠ j % nBits := by
      rw [ne_eq, BitRing.word_eq_iff h]
      simp [nBits, Nat.mul_comm]
    rw [← hword]
    simp [ReceivingKeyCounterValidator.checkBit, clearWord, BitRing.checkBit_clearWord, and_comm]

theorem clearToAligned_spec (hc : counter < 2 ^ 64) (hi : i ≤ counter)
    (hr : counter - i < rounds) :
    ∃ v' i', clearToAligned counter rounds v i = some (v', i') ∧ i ≤ i' ∧ i' ≤ counter ∧
      (i' % wordSize = 0 ∨ i' = counter) ∧ Cleared i i' v v' := by
  induction rounds generalizing v i with
  | zero => exact absurd hr (Nat.not_lt_zero _)
  | succ rounds ih =>
    by_cases h : i % wordSize ≠ 0 ∧ i < counter
    · have hstep : u64 (i + 1) = i + 1 := u64_of_lt (by omega)
      obtain ⟨v', i', he, hle, hle', halign, hcl⟩ :=
        ih (v := v.clearBit i) (i := i + 1) h.2 (by omega)
      refine ⟨v', i', ?_, by omega, hle', halign, (clearBit_cleared v).trans hcl (by omega) hle⟩
      rw [clearToAligned, if_pos h, hstep, he]
    · refine ⟨v, i, by rw [clearToAligned, if_neg h], Nat.le_refl i, hi, ?_, .refl v⟩
      rcases Decidable.em (i % wordSize = 0) with h0 | h0
      · exact .inl h0
      · exact .inr (Nat.le_antisymm hi (Nat.not_lt.mp fun hlt => h ⟨h0, hlt⟩))

/-- The mask that rounds down to a word leaves an aligned index alone. -/
theorem aligned_and_mask (h : i % wordSize = 0) (hlt : i < 2 ^ 64) :
    i &&& (2 ^ 64 - wordSize) = i := by
  rw [wordSize_eq] at h ⊢
  obtain ⟨m, rfl⟩ := Nat.dvd_of_mod_eq_zero h
  have hm : m < 2 ^ 58 := by omega
  have hmask : 2 ^ 64 - 64 = (2 ^ 58 - 1) <<< 6 := by decide
  have hshift : 64 * m = m <<< 6 := by rw [Nat.shiftLeft_eq]; omega
  rw [hmask, hshift, ← Nat.shiftLeft_and_distrib, Nat.and_two_pow_sub_one_of_lt_two_pow hm]

theorem clearWords_spec (hc : counter + wordSize < 2 ^ 64) (hi : i ≤ counter)
    (halign : i % wordSize = 0 ∨ i = counter) (hr : counter - i < rounds) :
    ∃ v' i', clearWords counter rounds v i = some (v', i') ∧ i ≤ i' ∧ i' ≤ counter ∧
      Cleared i i' v v' := by
  have hword : 0 < wordSize := by decide
  induction rounds generalizing v i with
  | zero => exact absurd hr (Nat.not_lt_zero _)
  | succ rounds ih =>
    have hstep : u64 (i + wordSize) = i + wordSize := u64_of_lt (by omega)
    by_cases h : i + wordSize < counter
    · have h0 : i % wordSize = 0 := halign.resolve_right (by omega)
      have hmask : (i + wordSize) &&& (2 ^ 64 - wordSize) = i + wordSize :=
        aligned_and_mask (by rw [Nat.add_mod_right, h0]) (by omega)
      obtain ⟨v', i', he, hle, hle', hcl⟩ := ih (v := v.clearWord i) (i := i + wordSize)
        (Nat.le_of_lt h) (.inl (by rw [Nat.add_mod_right, h0])) (by omega)
      refine ⟨v', i', ?_, by omega, hle', (clearWord_cleared v h0).trans hcl (by omega) hle⟩
      rw [clearWords, hstep, if_pos h, hmask, he]
    · exact ⟨v, i, by rw [clearWords, hstep, if_neg h], Nat.le_refl i, hi, .refl v⟩

theorem clearRest_spec (hc : counter < 2 ^ 64) (hi : i ≤ counter) (hr : counter - i < rounds) :
    ∃ v', clearRest counter rounds v i = some v' ∧ Cleared i counter v v' := by
  induction rounds generalizing v i with
  | zero => exact absurd hr (Nat.not_lt_zero _)
  | succ rounds ih =>
    by_cases h : i < counter
    · have hstep : u64 (i + 1) = i + 1 := u64_of_lt (by omega)
      obtain ⟨v', he, hcl⟩ := ih (v := v.clearBit i) (i := i + 1) h (by omega)
      refine ⟨v', ?_, (clearBit_cleared v).trans hcl (by omega) h⟩
      rw [clearRest, if_pos h, hstep, he]
    · obtain rfl : i = counter := Nat.le_antisymm hi (Nat.not_lt.mp h)
      exact ⟨v, by rw [clearRest, if_neg h], .refl v⟩

theorem clearSkipped_spec {v : ReceivingKeyCounterValidator} (hc : counter + nBits < 2 ^ 64)
    (hle : v.next ≤ counter) (hfar : counter - v.next < nBits) :
    ∃ v', v.clearSkipped counter = some v' ∧ Cleared v.next counter v v' := by
  have hword : wordSize ≤ nBits := by decide
  obtain ⟨v₁, i₁, he₁, hle₁, hle₁', halign, hcl₁⟩ :=
    clearToAligned_spec (v := v) (by omega) hle hfar
  obtain ⟨v₂, i₂, he₂, hle₂, hle₂', hcl₂⟩ :=
    clearWords_spec (v := v₁) (by omega) hle₁' halign (show counter - i₁ < nBits by omega)
  obtain ⟨v₃, he₃, hcl₃⟩ :=
    clearRest_spec (v := v₂) (by omega) hle₂' (show counter - i₂ < nBits by omega)
  refine ⟨v₃, ?_, (hcl₁.trans hcl₂ hle₁ hle₂).trans hcl₃ (by omega) hle₂'⟩
  simp only [clearSkipped, he₁, he₂, he₃, Option.bind_eq_bind, Option.bind_some]

-- ---------------------------------------------------------------------------
-- The set of counters received
-- ---------------------------------------------------------------------------

/-- `seen` is what was received, and the bits of the window tell it. -/
structure Tracks (v : ReceivingKeyCounterValidator) (seen : Set Nat) : Prop where
  lt_next : ∀ c ∈ seen, c < v.next
  window : ∀ c, c < v.next → v.next ≤ c + nBits → (v.checkBit c = true ↔ c ∈ seen)

theorem tracks_default : Tracks default ∅ where
  lt_next _ h := absurd h (Set.notMem_empty _)
  window c h _ := absurd h (Nat.not_lt_zero c)

variable {v v' : ReceivingKeyCounterValidator}

theorem Tracks.setBit (h : Tracks v seen) (hlt : counter < v.next)
    (hwin : v.next ≤ counter + nBits) : Tracks (v.setBit counter) (insert counter seen) where
  lt_next c hc := by
    rcases Set.mem_insert_iff.mp hc with rfl | hc
    · exact hlt
    · exact h.lt_next c hc
  window c hc hw := by
    rw [next_setBit] at hc hw
    rw [checkBit_setBit, h.window c hc hw, Set.mem_insert_iff]
    refine or_congr_left ⟨fun he => ?_, fun he => he ▸ rfl⟩
    rw [nBits_eq] at *
    omega

theorem Tracks.advance (h : Tracks v seen) (hle : v.next ≤ counter)
    (hcl : ∀ j, j < counter → counter < j + nBits →
      (v'.checkBit j = true ↔ j < v.next ∧ v.checkBit j = true)) :
    Tracks { v'.setBit counter with next := counter + 1 } (insert counter seen) where
  lt_next c hc := by
    rcases Set.mem_insert_iff.mp hc with rfl | hc
    · exact Nat.lt_succ_self c
    · exact Nat.lt_succ_of_lt (Nat.lt_of_lt_of_le (h.lt_next c hc) hle)
  window c hc hw := by
    show (v'.setBit counter).checkBit c = true ↔ _
    rw [checkBit_setBit, Set.mem_insert_iff]
    rcases Nat.lt_succ_iff_lt_or_eq.mp hc with hlt | rfl
    · have hmod : c % nBits ≠ counter % nBits := by
        rw [nBits_eq] at *
        simp only at hw
        omega
      rw [hcl c hlt (by simp only at hw; omega), or_iff_right hmod,
        or_iff_right (Nat.ne_of_lt hlt)]
      constructor
      · rintro ⟨hn, hbit⟩
        exact (h.window c hn (by simp only at hw; omega)).mp hbit
      · intro hs
        have hn := h.lt_next c hs
        exact ⟨hn, (h.window c hn (by simp only at hw; omega)).mpr hs⟩
    · simp

theorem Cleared.window (hcl : Cleared v.next counter v v') (hj : j < counter)
    (hw : counter < j + nBits) : v'.checkBit j = true ↔ j < v.next ∧ v.checkBit j = true := by
  rw [hcl.checkBit]
  constructor
  · rintro ⟨hbit, hall⟩
    refine ⟨Nat.not_le.mp fun hle => hall j hle hj rfl, hbit⟩
  · rintro ⟨hn, hbit⟩
    refine ⟨hbit, fun k hle hlt he => ?_⟩
    rw [nBits_eq] at *
    omega

/-- A new counter inside the window has its bit clear. -/
theorem Tracks.not_checkBit (h : Tracks v seen) (hs : counter ∉ seen) (hlt : counter < v.next)
    (hback : ¬ counter + nBits < v.next) : ¬ v.checkBit counter = true :=
  fun hbit => hs ((h.window counter hlt (Nat.not_lt.mp hback)).mp hbit)

theorem Tracks.lt_next_of_old (h : Tracks v seen)
    (hs : counter ∈ seen ∨ counter + nBits < v.next) : counter < v.next :=
  hs.elim (h.lt_next counter) (Nat.lt_of_le_of_lt (Nat.le_add_right ..))

/-- An old counter inside the window has its bit set. -/
theorem Tracks.checkBit_of_old (h : Tracks v seen)
    (hs : counter ∈ seen ∨ counter + nBits < v.next) (hback : ¬ counter + nBits < v.next) :
    v.checkBit counter = true :=
  (h.window counter (h.lt_next_of_old hs) (Nat.not_lt.mp hback)).mpr (hs.resolve_right hback)

theorem willAccept_fresh (h : Tracks v seen) (hc : counter + nBits < 2 ^ 64)
    (hs : counter ∉ seen) (hback : ¬ counter + nBits < v.next) :
    v.willAccept counter = .ok () := by
  rw [willAccept, u64_of_lt hc]
  by_cases hge : counter ≥ v.next
  · rw [if_pos hge]
  · have hbit := h.not_checkBit hs (Nat.not_le.mp hge) hback
    simp [hge, hback, hbit]

theorem willAccept_refused (h : Tracks v seen) (hc : counter + nBits < 2 ^ 64)
    (hs : counter ∈ seen ∨ counter + nBits < v.next) : ∃ e, v.willAccept counter = .error e := by
  rw [willAccept, if_neg (Nat.not_le.mpr (h.lt_next_of_old hs)), u64_of_lt hc]
  by_cases hback : counter + nBits < v.next
  · exact ⟨_, if_pos hback⟩
  · exact ⟨.duplicateCounter, by simp [hback, h.checkBit_of_old hs hback]⟩

theorem markDidReceive_refused (h : Tracks v seen) (hc : counter + nBits < 2 ^ 64)
    (hs : counter ∈ seen ∨ counter + nBits < v.next) :
    v.markDidReceive counter = some (.error .invalidCounter) := by
  have hlt : counter < v.next := h.lt_next_of_old hs
  rw [markDidReceive, u64_of_lt hc]
  by_cases hback : counter + nBits < v.next
  · rw [if_pos hback]
  · rw [if_neg hback, if_neg (Nat.ne_of_lt hlt), if_pos hlt, if_pos (h.checkBit_of_old hs hback)]

theorem markDidReceive_fresh (h : Tracks v seen) (hc : counter + nBits < 2 ^ 64)
    (hs : counter ∉ seen) (hback : ¬ counter + nBits < v.next) :
    ∃ v', v.markDidReceive counter = some (.ok v') ∧ Tracks v' (insert counter seen) ∧
      v'.next = max v.next (counter + 1) := by
  have hone : 1 ≤ nBits := by decide
  have hsucc : u64 (counter + 1) = counter + 1 := u64_of_lt (by omega)
  rw [markDidReceive, u64_of_lt hc, if_neg hback]
  rcases Nat.lt_trichotomy counter v.next with hlt | heq | hgt
  · rw [if_neg (Nat.ne_of_lt hlt), if_pos hlt, if_neg (h.not_checkBit hs hlt hback)]
    exact ⟨_, rfl, h.setBit hlt (Nat.not_lt.mp hback), by simp; omega⟩
  · rw [if_pos heq, ← heq, hsucc]
    refine ⟨_, rfl, h.advance (Nat.le_of_eq heq.symm) fun j hj _ => ?_, by simp⟩
    rw [← heq, and_iff_right hj]
  · rw [if_neg (Nat.ne_of_gt hgt), if_neg (Nat.not_lt.mpr (Nat.le_of_lt hgt)), hsucc]
    by_cases hfar : counter - v.next ≥ nBits
    · refine ⟨_, by rw [if_pos hfar]; rfl, h.advance (Nat.le_of_lt hgt) fun j hj hw => ?_,
        by simp; omega⟩
      -- the whole old window lies below the new one
      have hempty : (⟨v.next, v.receiveCnt, .empty wordSize nWords⟩ :
          ReceivingKeyCounterValidator).checkBit j = false := BitRing.checkBit_empty
      constructor
      · intro hb
        exact absurd (hempty.symm.trans hb) (by decide)
      · rintro ⟨hn, _⟩
        omega
    · obtain ⟨v', he, hcl⟩ := clearSkipped_spec hc (Nat.le_of_lt hgt) (Nat.not_le.mp hfar)
      refine ⟨_, by rw [if_neg hfar, he]; rfl,
        h.advance (Nat.le_of_lt hgt) fun j hj hw => hcl.window hj hw, by simp; omega⟩

/-- Away from the wrap the loops end, whatever the state. -/
theorem markDidReceive_returns (v : ReceivingKeyCounterValidator)
    (hc : counter + nBits < 2 ^ 64) : ∃ r, v.markDidReceive counter = some r := by
  rw [markDidReceive]
  split_ifs with hback heq hlt hbit hfar
  · exact ⟨_, rfl⟩
  · exact ⟨_, rfl⟩
  · exact ⟨_, rfl⟩
  · exact ⟨_, rfl⟩
  · exact ⟨_, rfl⟩
  · obtain ⟨v', he, -⟩ := clearSkipped_spec hc (Nat.not_lt.mp hlt) (Nat.not_le.mp hfar)
    rw [he]
    exact ⟨_, rfl⟩

end Xelt.Boringtun.Noise.Crypto.ReceivingKeyCounterValidator

namespace Xelt.Boringtun.Noise.Crypto.Session

/-- A packet that the other end has sent under a counter that is new here is
delivered as it was sent. -/
theorem receivePacketData_formatPacketData {p : Primitives} {s f : Session} (hp : p.Lawful)
    (hformat : f.formatPacketData p src dst = some (f', packet))
    (hindex : f.sendingIndex = s.receivingIndex) (hkey : f.sender = s.receiver)
    (htracks : s.receivingKeyCounter.Tracks seen)
    (hc : f.sendingKeyCounter + nBits < 2 ^ 64) (hnew : f.sendingKeyCounter ∉ seen)
    (hback : ¬ f.sendingKeyCounter + nBits < s.receivingKeyCounter.next)
    (hroom : packet.encryptedEncapsulatedPacket.length ≤ dst') :
    ∃ s', s.receivePacketData p packet dst' = some (.ok (s', src)) := by
  have hcounter : (UInt64.ofNat f.sendingKeyCounter).toNat = f.sendingKeyCounter := by
    rw [UInt64.toNat_ofNat']
    exact Nat.mod_eq_of_lt (by omega)
  simp only [formatPacketData] at hformat
  split at hformat
  · cases hformat
  cases hformat
  obtain ⟨v, hmark, -⟩ :=
    ReceivingKeyCounterValidator.markDidReceive_fresh htracks hc hnew hback
  have haccept := ReceivingKeyCounterValidator.willAccept_fresh htracks hc hnew hback
  refine ⟨{ s with receivingKeyCounter := { v with receiveCnt := u64 (v.receiveCnt + 1) } }, ?_⟩
  rw [receivePacketData, if_neg (Nat.not_lt.mpr hroom)]
  simp only [receivingCounterQuickCheck, if_false,
    hindex, ne_eq, not_true_eq_false, hcounter, haccept, openPacket, hkey,
    hp.openBytes_sealBytes, receivingCounterMark, hmark]

theorem parse_formatPacketData {p : Primitives} {f : Session}
    (h : f.formatPacketData p src dst = some (f', packet)) :
    parseIncomingPacket packet.bytes = .ok (.packetData packet) := by
  simp only [formatPacketData] at h
  split at h
  · cases h
  cases h
  exact parse_data _ (by simp)

end Xelt.Boringtun.Noise.Crypto.Session
