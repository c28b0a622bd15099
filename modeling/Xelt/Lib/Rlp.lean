import Mathlib.Data.List.TakeWhile
import Xelt.Lib.Bytes

/-!
# Recursive length prefixes

Byte strings and lists of them, nested in any way, and the strict decoder of
their encoding: it refuses a length that is not as short as it can be and a
single small byte behind a prefix. `Encodes` says that a string is the
encoding of an item whatever follows it.
-/

namespace Xelt

namespace Bytes

/-- Without leading zeros. -/
def Minimal (b : Bytes) : Prop := b.head? ≠ some 0

instance (b : Bytes) : Decidable b.Minimal := inferInstanceAs (Decidable (_ ≠ _))

theorem minimal_dropWhile (b : Bytes) : Minimal (b.dropWhile (· == 0)) := by
  intro h
  have hnot := List.head?_dropWhile_not (· == (0 : UInt8)) b
  rw [h] at hnot
  simp at hnot

theorem readBe_dropWhile (b : Bytes) : readBe (b.dropWhile (· == 0)) = readBe b := by
  induction b with
  | nil => rfl
  | cons x b ih =>
    by_cases hx : x = 0
    · subst hx
      simpa [readBe] using ih
    · simp [hx]

/-- The first byte says how long a number is. -/
theorem Minimal.le_readBe (h : Minimal (x :: b)) : 256 ^ b.length ≤ readBe (x :: b) := by
  have hx : 0 < x.toNat := by
    refine Nat.pos_of_ne_zero fun h0 => h ?_
    rw [List.head?_cons, ← UInt8.toNat_inj.mp (show x.toNat = (0 : UInt8).toNat from h0)]
  exact (Nat.le_mul_of_pos_left _ hx).trans (Nat.le_add_right _ _)

theorem readBe_inj {a b : Bytes} (hlen : a.length = b.length) (h : readBe a = readBe b) :
    a = b := by
  induction a generalizing b with
  | nil => exact (List.length_eq_zero_iff.mp hlen.symm).symm
  | cons x a ih =>
    cases b with
    | nil => cases hlen
    | cons y b =>
      have hlen' : a.length = b.length := Nat.succ.inj hlen
      have ha := readBe_lt a
      have hb := readBe_lt b
      simp only [readBe, hlen'] at h ha
      have hx : x.toNat = y.toNat := by
        have hdiv := congrArg (· / 256 ^ b.length) h
        simpa [Nat.mul_comm, Nat.mul_add_div, Nat.div_eq_of_lt ha, Nat.div_eq_of_lt hb] using hdiv
      rw [UInt8.toNat_inj.mp hx, ih hlen' (by rw [hx] at h; omega)]

/-- A number has one string without leading zeros. -/
theorem Minimal.inj {a b : Bytes} (ha : a.Minimal) (hb : b.Minimal) (h : readBe a = readBe b) :
    a = b := by
  have hle : ∀ {a b : Bytes}, a.Minimal → readBe a = readBe b → a.length ≤ b.length := by
    intro a b ha h
    cases a with
    | nil => exact Nat.zero_le _
    | cons x a =>
      have hlt : 256 ^ a.length < 256 ^ b.length :=
        ha.le_readBe.trans_lt (h ▸ readBe_lt b)
      exact (Nat.pow_lt_pow_iff_right (by omega)).mp hlt
  exact readBe_inj (le_antisymm (hle ha h) (hle hb h.symm)) h

/-- The big-endian bytes of a number, without leading zeros. -/
def numeral (n : Nat) : Bytes := (beBytes (Nat.log2 n / 8 + 1) n).dropWhile (· == 0)

theorem minimal_numeral (n : Nat) : (numeral n).Minimal := minimal_dropWhile _

theorem readBe_numeral (n : Nat) : readBe (numeral n) = n := by
  rw [numeral, readBe_dropWhile, readBe_beBytes_of_lt]
  calc n < 2 ^ (Nat.log2 n + 1) := Nat.lt_log2_self
    _ ≤ 2 ^ (8 * (Nat.log2 n / 8 + 1)) := Nat.pow_le_pow_right (by omega) (by omega)
    _ = 256 ^ (Nat.log2 n / 8 + 1) := by rw [Nat.pow_mul]

theorem numeral_inj (h : numeral m = numeral n) : m = n := by
  rw [← readBe_numeral m, h, readBe_numeral]

/-- The first `n` bytes, and those behind them. -/
def split? (n : Nat) (b : Bytes) : Option (Bytes × Bytes) :=
  if n ≤ b.length then some (b.take n, b.drop n) else none

theorem split?_append (h : payload.length = n) :
    split? n (payload ++ rest) = some (payload, rest) := by
  subst h
  simp [split?]

theorem split?_eq (h : split? n b = some (payload, rest)) : payload ++ rest = b := by
  unfold split? at h
  split at h
  · cases h
    exact List.take_append_drop n b
  · cases h

end Bytes

namespace Rlp

open Bytes

inductive Item
  | str (bytes : Bytes)
  | list (items : List Item)

/-- Strings begin at `0x80`, lists at `0xc0`. -/
inductive Kind
  | str
  | list
  deriving DecidableEq

/-- What a first byte, as far as it is above its kind's, says of the payload:
its length up to 55, or else the length of its length. -/
def payload (offset : Nat) (b : Bytes) : Option (Bytes × Bytes) :=
  if offset ≤ 55 then split? offset b
  else
    match split? (offset - 55) b with
    | none => none
    | some (len, rest) =>
      if len.Minimal ∧ 55 < readBe len then split? (readBe len) rest else none

/-- The kind of the first item, its payload and what follows it. -/
def first : Bytes → Option (Kind × Bytes × Bytes)
  | [] => none
  | b :: rest =>
    if b.toNat < 0x80 then some (.str, [b], rest)
    else if b.toNat < 0xc0 then
      match payload (b.toNat - 0x80) rest with
      | none => none
      | some (bytes, rest) =>
        if bytes.length = 1 ∧ (bytes.getD 0 0).toNat < 0x80 then none else some (.str, bytes, rest)
    else (payload (b.toNat - 0xc0) rest).map fun (bytes, rest) => (.list, bytes, rest)

/-- All the items of a payload; the fuel is its length. -/
def decodeAll : Nat → Bytes → Option (List Item)
  | 0, b => if b = [] then some [] else none
  | fuel + 1, b =>
    if b = [] then some []
    else match first b with
      | none => none
      | some (.str, bytes, rest) => (decodeAll fuel rest).map (.str bytes :: ·)
      | some (.list, bytes, rest) =>
        match decodeAll fuel bytes with
        | none => none
        | some items => (decodeAll fuel rest).map (.list items :: ·)

/-- One item, and what follows it. -/
def decode (b : Bytes) : Option (Item × Bytes) :=
  match first b with
  | none => none
  | some (.str, bytes, rest) => some (.str bytes, rest)
  | some (.list, bytes, rest) => (decodeAll bytes.length bytes).map fun items => (.list items, rest)

-- ---------------------------------------------------------------------------
-- The fuel
-- ---------------------------------------------------------------------------

theorem payload_length (h : payload offset b = some (bytes, rest)) :
    bytes.length + rest.length ≤ b.length := by
  unfold payload at h
  split at h
  · have heq := congrArg List.length (split?_eq h)
    simpa using heq.le
  · split at h
    · cases h
    · rename_i len tail hlen
      split at h
      · have hb := congrArg List.length (split?_eq hlen)
        have htail := congrArg List.length (split?_eq h)
        simp only [List.length_append] at hb htail
        omega
      · cases h

/-- What is behind the first byte of an item is shorter. -/
theorem first_length (h : first b = some (kind, bytes, rest)) :
    rest.length < b.length ∧ (kind = .list → bytes.length < b.length) := by
  cases b with
  | nil => cases h
  | cons x b =>
    rw [first] at h
    split at h
    · cases h
      exact ⟨by simp, nofun⟩
    · split at h
      · split at h
        · cases h
        · rename_i hpayload
          split at h
          · cases h
          · cases h
            have hle := payload_length hpayload
            exact ⟨by simp only [List.length_cons]; omega, nofun⟩
      · obtain ⟨⟨bytes, rest⟩, hpayload, heq⟩ := Option.map_eq_some_iff.mp h
        cases heq
        have hle := payload_length hpayload
        simp only [List.length_cons]
        exact ⟨by omega, fun _ => by omega⟩

/-- More fuel than the length changes nothing. -/
theorem decodeAll_fuel {fuel fuel' : Nat} (h : b.length ≤ fuel) (h' : b.length ≤ fuel') :
    decodeAll fuel b = decodeAll fuel' b := by
  induction fuel generalizing b fuel' with
  | zero =>
    obtain rfl := List.length_eq_zero_iff.mp (Nat.le_zero.mp h)
    cases fuel' <;> rfl
  | succ fuel ih =>
    cases fuel' with
    | zero =>
      obtain rfl := List.length_eq_zero_iff.mp (Nat.le_zero.mp h')
      rfl
    | succ fuel' =>
      rw [decodeAll, decodeAll]
      by_cases hb : b = []
      · rw [if_pos hb, if_pos hb]
      · rw [if_neg hb, if_neg hb]
        cases hf : first b with
        | none => rfl
        | some item =>
          obtain ⟨kind, bytes, rest⟩ := item
          obtain ⟨hrest, hbytes⟩ := first_length hf
          have hrest' : decodeAll fuel rest = decodeAll fuel' rest := ih (by omega) (by omega)
          cases kind with
          | str => simp only [hrest']
          | list =>
            have hlt := hbytes rfl
            have hbytes' : decodeAll fuel bytes = decodeAll fuel' bytes :=
              ih (by omega) (by omega)
            simp only [hrest', hbytes']

/-- A payload is its first item and the payload behind it. -/
theorem decodeAll_cons (h : decode b = some (item, rest)) :
    decodeAll b.length b = (decodeAll rest.length rest).map (item :: ·) := by
  unfold decode at h
  split at h
  · cases h
  · rename_i bytes tail hf
    cases h
    obtain ⟨hlt, -⟩ := first_length hf
    obtain ⟨fuel, hfuel⟩ : ∃ fuel, b.length = fuel + 1 := ⟨b.length - 1, by omega⟩
    rw [hfuel, decodeAll, hf, if_neg (by rintro rfl; cases hf)]
    simp only [decodeAll_fuel (b := rest) (show _ ≤ fuel by omega) le_rfl]
  · rename_i bytes tail hf
    obtain ⟨items, hitems, heq⟩ := Option.map_eq_some_iff.mp h
    cases heq
    obtain ⟨hlt, hbytes⟩ := first_length hf
    have hlt' := hbytes rfl
    obtain ⟨fuel, hfuel⟩ : ∃ fuel, b.length = fuel + 1 := ⟨b.length - 1, by omega⟩
    rw [hfuel, decodeAll, hf, if_neg (by rintro rfl; cases hf)]
    have hbytes : decodeAll fuel bytes = decodeAll bytes.length bytes :=
      decodeAll_fuel (by omega) le_rfl
    have hrest : decodeAll fuel rest = decodeAll rest.length rest :=
      decodeAll_fuel (by omega) le_rfl
    simp only [hbytes, hrest, hitems]

-- ---------------------------------------------------------------------------
-- Encodings
-- ---------------------------------------------------------------------------

/-- The string is read as the item, whatever follows it. -/
def Encodes (bytes : Bytes) (item : Item) : Prop :=
  ∀ rest, decode (bytes ++ rest) = some (item, rest)

/-- A payload behind its length: `long` bytes of the length when it is above 55. -/
structure Framed (base : Nat) (bytes out : Bytes) : Prop where
  framed :
    bytes.length ≤ 55 ∧ out = UInt8.ofNat (base + bytes.length) :: bytes ∨
    ∃ len : Bytes, 55 < bytes.length ∧ len.Minimal ∧ len.length ≤ 8 ∧ readBe len = bytes.length ∧
      out = UInt8.ofNat (base + 55 + len.length) :: (len ++ bytes)

theorem Framed.payload (h : Framed base bytes out) :
    ∃ offset tail, offset < 64 ∧ out = UInt8.ofNat (base + offset) :: tail ∧
      (bytes.length ≠ 1 → offset ≠ 1) ∧
      ∀ rest, Rlp.payload offset (tail ++ rest) = some (bytes, rest) := by
  rcases h.framed with ⟨hle, rfl⟩ | ⟨len, hlt, hmin, hlen, hread, rfl⟩
  · refine ⟨bytes.length, bytes, by omega, rfl, id, fun rest => ?_⟩
    rw [Rlp.payload, if_pos hle, split?_append rfl]
  · have hpos : 0 < len.length := by
      rw [List.length_pos_iff]
      rintro rfl
      simp [readBe] at hread
      omega
    refine ⟨55 + len.length, len ++ bytes, by omega, by rw [Nat.add_assoc], by omega,
      fun rest => ?_⟩
    rw [Rlp.payload, if_neg (by omega), Nat.add_sub_cancel_left, List.append_assoc,
      split?_append rfl]
    simp only [hread]
    rw [if_pos ⟨hmin, hlt⟩, split?_append rfl]

theorem encodes_single {b : UInt8} (h : b.toNat < 0x80) : Encodes [b] (.str [b]) := by
  intro rest
  simp [decode, first, h]

theorem Framed.encodes_str (h : Framed 0x80 bytes out)
    (hsmall : ¬ (bytes.length = 1 ∧ (bytes.getD 0 0).toNat < 0x80)) : Encodes out (.str bytes) := by
  obtain ⟨offset, tail, hoffset, rfl, -, hpayload⟩ := h.payload
  intro rest
  have hb : (UInt8.ofNat (0x80 + offset)).toNat = 0x80 + offset := by
    rw [UInt8.toNat_ofNat', Nat.mod_eq_of_lt (by omega)]
  simp only [decode, first, List.cons_append, hb]
  rw [if_neg (by omega), if_pos (by omega), Nat.add_sub_cancel_left, hpayload]
  simp only [if_neg hsmall]

theorem decodeAll_flatten (h : List.Forall₂ Encodes encodings items) :
    decodeAll encodings.flatten.length encodings.flatten = some items := by
  induction h with
  | nil => rfl
  | cons hfirst hrest ih =>
    rename_i bytes item encodings items
    rw [List.flatten_cons, decodeAll_cons (hfirst encodings.flatten), ih]
    rfl

theorem Framed.encodes_list (h : Framed 0xc0 encodings.flatten out)
    (hitems : List.Forall₂ Encodes encodings items) : Encodes out (.list items) := by
  obtain ⟨offset, tail, hoffset, rfl, -, hpayload⟩ := h.payload
  intro rest
  have hb : (UInt8.ofNat (0xc0 + offset)).toNat = 0xc0 + offset := by
    rw [UInt8.toNat_ofNat', Nat.mod_eq_of_lt (by omega)]
  simp only [decode, first, List.cons_append, hb]
  rw [if_neg (by omega), if_neg (by omega), Nat.add_sub_cancel_left, hpayload]
  simp only [Option.map_some, decodeAll_flatten hitems]

/-- Two encodings with a common beginning are the same, of the same item. -/
theorem Encodes.unique (h : Encodes bytes item) (h' : Encodes bytes' item')
    (heq : bytes ++ rest = bytes' ++ rest') : item = item' ∧ rest = rest' := by
  have hboth := (h rest).symm.trans (heq ▸ h' rest')
  cases hboth
  exact ⟨rfl, rfl⟩

end Rlp

end Xelt
