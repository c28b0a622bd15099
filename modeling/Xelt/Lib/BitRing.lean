import Mathlib.Data.Nat.ModEq
import Mathlib.Tactic.Ring

/-!
# Rings of bits

`n` words of `w` bits hold one bit for each residue modulo `n * w`. An index
of any size stands for its residue. Each operation is told by what it does to
the bit read at an arbitrary index.
-/

namespace Xelt

structure BitRing (w n : Nat) where
  words : Vector (BitVec w) n
  deriving DecidableEq

namespace BitRing

variable {w n : Nat}

def empty (w n : Nat) : BitRing w n := ⟨Vector.replicate n 0#w⟩

/-- The place of an index inside its word. -/
def bit (w n idx : Nat) : Nat := idx % (n * w) % w

variable [NeZero w] [NeZero n]

theorem word_lt (idx : Nat) : idx % (n * w) / w < n := by
  apply Nat.div_lt_of_lt_mul
  rw [Nat.mul_comm w n]
  exact Nat.mod_lt _ (Nat.mul_pos (Nat.pos_of_neZero n) (Nat.pos_of_neZero w))

/-- The word that holds the bit of an index. -/
def word (w n : Nat) [NeZero w] [NeZero n] (idx : Nat) : Fin n :=
  ⟨idx % (n * w) / w, word_lt idx⟩

/-- Word and place together tell the residue. -/
theorem same_place :
    word w n i = word w n j ∧ bit w n i = bit w n j ↔ i % (n * w) = j % (n * w) := by
  constructor
  · rintro ⟨hword, hbit⟩
    replace hword : i % (n * w) / w = j % (n * w) / w := congrArg Fin.val hword
    rw [← Nat.div_add_mod (i % (n * w)) w, ← Nat.div_add_mod (j % (n * w)) w, hword]
    exact congrArg _ hbit
  · intro h
    simp only [word, bit, h, and_self]

-- ---------------------------------------------------------------------------
-- Operations
-- ---------------------------------------------------------------------------

def update (r : BitRing w n) (idx : Nat) (f : BitVec w → BitVec w) : BitRing w n :=
  ⟨r.words.set (word w n idx) (f r.words[word w n idx])⟩

def setBit (r : BitRing w n) (idx : Nat) : BitRing w n :=
  r.update idx fun x => x ||| 1#w <<< bit w n idx

def clearBit (r : BitRing w n) (idx : Nat) : BitRing w n :=
  r.update idx fun x => x &&& ~~~(1#w <<< bit w n idx)

def clearWord (r : BitRing w n) (idx : Nat) : BitRing w n := r.update idx fun _ => 0#w

def checkBit (r : BitRing w n) (idx : Nat) : Bool :=
  r.words[word w n idx] >>> bit w n idx &&& 1#w == 1#w

omit [NeZero n] in
theorem bit_lt (idx : Nat) : bit w n idx < w := Nat.mod_lt _ (Nat.pos_of_neZero w)

omit [NeZero n] in
/-- Testing the low bit of a shifted word reads the bit that was shifted there. -/
theorem shift_and_one (x : BitVec w) (i : Nat) : (x >>> i &&& 1#w == 1#w) = x.getLsbD i := by
  have hw : 0 < w := Nat.pos_of_neZero w
  have hlow : ∀ j, (x >>> i &&& 1#w).getLsbD j = (x.getLsbD i && decide (j = 0)) := by
    intro j
    by_cases hj : j = 0
    · simp [hj, hw]
    · simp [hj]
  rw [Bool.eq_iff_iff, beq_iff_eq]
  constructor
  · intro h
    have h0 := hlow 0
    rw [h] at h0
    simpa [hw] using h0.symm
  · intro h
    apply BitVec.eq_of_getLsbD_eq
    intro j hj
    rw [hlow, h]
    simp [hw]

theorem checkBit_eq (r : BitRing w n) (idx : Nat) :
    r.checkBit idx = r.words[word w n idx].getLsbD (bit w n idx) := shift_and_one _ _

theorem words_update (r : BitRing w n) (f : BitVec w → BitVec w) :
    (r.update j f).words[word w n i] =
      if word w n i = word w n j then f r.words[word w n i] else r.words[word w n i] := by
  by_cases h : word w n i = word w n j
  · simp [update, h]
  · have hne : (word w n j).val ≠ (word w n i).val := fun he => h (Fin.ext he.symm)
    simp [update, h, Vector.getElem_set_ne _ _ hne]

theorem checkBit_empty : (empty w n).checkBit i = false := by
  simp [checkBit_eq, empty]

omit [NeZero n] in
/-- A shifted one has its only bit at the shift. -/
theorem getLsbD_one_shiftLeft (h : i < w) : (1#w <<< k).getLsbD i = decide (i = k) := by
  rw [BitVec.getLsbD_shiftLeft, BitVec.getLsbD_one]
  by_cases hk : i < k
  · simp [hk, Nat.ne_of_lt hk]
  · have hzero : i - k = 0 ↔ i = k := by omega
    simp [hk, h, hzero, Nat.pos_of_neZero w]

/-- In the word of `j`, the place of `j` is the index equal to `j`. -/
theorem decide_bit (h : word w n i = word w n j) :
    decide (bit w n i = bit w n j) = decide (i % (n * w) = j % (n * w)) := by
  apply decide_eq_decide.mpr
  rw [← same_place, and_iff_right h]

theorem ne_of_word_ne (h : word w n i ≠ word w n j) : i % (n * w) ≠ j % (n * w) :=
  fun he => h (same_place.mpr he).1

theorem checkBit_setBit (r : BitRing w n) :
    (r.setBit j).checkBit i = (decide (i % (n * w) = j % (n * w)) || r.checkBit i) := by
  rw [checkBit_eq, setBit, words_update, checkBit_eq]
  by_cases hword : word w n i = word w n j
  · rw [if_pos hword, BitVec.getLsbD_or, getLsbD_one_shiftLeft (bit_lt i), decide_bit hword,
      Bool.or_comm]
  · simp [hword, ne_of_word_ne hword]

theorem checkBit_clearBit (r : BitRing w n) :
    (r.clearBit j).checkBit i = (!decide (i % (n * w) = j % (n * w)) && r.checkBit i) := by
  rw [checkBit_eq, clearBit, words_update, checkBit_eq]
  by_cases hword : word w n i = word w n j
  · rw [if_pos hword, BitVec.getLsbD_and, BitVec.getLsbD_not,
      getLsbD_one_shiftLeft (bit_lt i), decide_bit hword, Bool.and_comm]
    simp [bit_lt]
  · simp [hword, ne_of_word_ne hword]

theorem checkBit_clearWord (r : BitRing w n) :
    (r.clearWord j).checkBit i = (!decide (word w n i = word w n j) && r.checkBit i) := by
  rw [checkBit_eq, clearWord, words_update, checkBit_eq]
  by_cases hword : word w n i = word w n j <;> simp [hword]

/-- The word of an index that starts one holds the next `w` indices. -/
theorem word_eq_iff (h : j % w = 0) :
    word w n i = word w n j ↔ ∃ k, j ≤ k ∧ k < j + w ∧ k % (n * w) = i % (n * w) := by
  have hw : 0 < w := Nat.pos_of_neZero w
  -- inside the word of `j`, an index has the word of `j`
  have hsame : ∀ k, j ≤ k → k < j + w → word w n k = word w n j := by
    intro k hle hlt
    have hk : k / w = j / w := by
      obtain ⟨m, rfl⟩ := Nat.dvd_of_mod_eq_zero h
      rw [Nat.mul_div_cancel_left m hw]
      exact Nat.div_eq_of_lt_le (by rwa [Nat.mul_comm]) (by rwa [Nat.add_one_mul, Nat.mul_comm])
    apply Fin.ext
    show k % (n * w) / w = j % (n * w) / w
    rw [Nat.mul_comm n w, Nat.mod_mul_right_div_self, Nat.mod_mul_right_div_self, hk]
  constructor
  · intro hword
    have hlt : i % w < w := Nat.mod_lt _ hw
    refine ⟨j + i % w, Nat.le_add_right .., Nat.add_lt_add_left hlt j, same_place.mp ⟨?_, ?_⟩⟩
    · rw [hsame _ (Nat.le_add_right ..) (Nat.add_lt_add_left hlt j), hword]
    · simp [bit, Nat.add_mod, h]
  · rintro ⟨k, hle, hlt, hk⟩
    rw [← hsame k hle hlt]
    exact (same_place.mpr hk.symm).1

end BitRing

end Xelt
