import Xelt.Lib.Text

/-!
# Keys as texts

`serialization.rs`: the text of a key is told apart by its length in bytes.
Sixty-four are taken two at a time and read as hexadecimal, where a slice
that cuts a character panics; 43 or 44 are base64.
-/

namespace Xelt.Boringtun.Uapi

open Text

-- ---------------------------------------------------------------------------
-- The parser
-- ---------------------------------------------------------------------------

/-- What a parser returns; `none` is a panic. -/
abbrev Parsed (α : Type) := Option (Except String α)

/-- `u8::from_str_radix` of two characters. -/
def fromStrRadix (a b : Char) : Option UInt8 :=
  if a = '+' then (hexValue b).map UInt8.ofNat
  else (hexValue a).bind fun hi => (hexValue b).map fun lo => UInt8.ofNat (16 * hi + lo)

/-- `u8::from_str_radix` of a slice of two bytes; a character of two bytes is
no digit. -/
def pairValue : Text → Option UInt8
  | [a, b] => fromStrRadix a b
  | _ => none

def hexLoop (s : Text) (internal : Bytes32) : List (Fin 32) → Parsed Bytes32
  | [] => some (.ok internal)
  | i :: is =>
    match byteSlice s (2 * i) (2 * i + 2) with
    | none => none
    | some pair =>
      match pairValue pair with
      | none => some (.error "Illegal character in key")
      | some byte => hexLoop s (internal.set i byte) is

def toKey (bytes : Bytes) : Option Bytes32 :=
    if h : bytes.length = 32 then some ⟨bytes, h⟩ else none

/-- `s.len()`. -/
def byteLength (s : Text) : Nat := (s.map Char.utf8Size).sum

section
variable (base64Decode : Text → Option Bytes)

/-- `KeyBytes::from_str`. -/
def fromStr (s : Text) : Parsed Bytes32 :=
  let internal : Bytes32 := List.Vector.replicate 32 0
  if byteLength s = 64 then hexLoop s internal (List.finRange 32)
  else if byteLength s = 43 ∨ byteLength s = 44 then
    match base64Decode s with
    | some decoded =>
      match toKey decoded with
      | some key => some (.ok key)
      | none => some (.error "Illegal character in key")
    | none => some (.ok internal)
  else some (.error "Illegal key size")

/-- The texts of a key: its 64 digits, or base64 of its bytes. -/
def Denotes (s : Text) (key : Bytes32) : Prop :=
  s.length = 64 ∧ hexDecode s = some key.toList ∨
    (s.length = 43 ∨ s.length = 44) ∧ base64Decode s = some key.toList

end

-- ---------------------------------------------------------------------------
-- The loop over the pairs
-- ---------------------------------------------------------------------------

/-- A text read two characters at a time. -/
def hexPairs : Text → Option Bytes
  | [] => some []
  | [_] => none
  | a :: b :: rest => (fromStrRadix a b).bind fun byte => (hexPairs rest).map (byte :: ·)

def readPairs : Nat → Text → Parsed Bytes
  | 0, _ => some (.ok [])
  | n + 1, rest =>
    match takeBytes 2 rest with
    | none => none
    | some pair =>
      match pairValue pair with
      | none => some (.error "Illegal character in key")
      | some byte => (readPairs n (rest.drop 2)).map (Except.map (byte :: ·))

theorem takeBytes_one (c : Char) (t : Text) :
    takeBytes 1 (c :: t) = if c.utf8Size = 1 then some [c] else none := by
  have hpos := c.utf8Size_pos
  rw [takeBytes]
  split
  · rw [if_pos (by omega), show 0 + 1 - c.utf8Size = 0 by omega, takeBytes_zero, Option.map_some]
  · rw [if_neg (by omega)]

/-- Two bytes are two characters, one character, or cut one. -/
theorem takeBytes_two (a : Char) (t : Text) :
    takeBytes 2 (a :: t) =
      if a.utf8Size = 1 then (takeBytes 1 t).map (a :: ·)
      else if a.utf8Size = 2 then some [a] else none := by
  have hpos := a.utf8Size_pos
  rw [takeBytes]
  split
  · rename_i hle
    by_cases hone : a.utf8Size = 1
    · rw [if_pos hone, hone]
    · rw [if_neg hone, if_pos (by omega), show 1 + 1 - a.utf8Size = 0 by omega, takeBytes_zero,
        Option.map_some]
  · rw [if_neg (by omega), if_neg (by omega)]

theorem takeBytes_pair (h : takeBytes 2 rest = some [a, b]) :
    ∃ rest', rest = a :: b :: rest' ∧ a.utf8Size = 1 ∧ b.utf8Size = 1 := by
  cases rest with
  | nil => cases h
  | cons c t =>
    rw [takeBytes_two] at h
    split at h
    · rename_i hc
      cases t with
      | nil => cases h
      | cons d t =>
        rw [takeBytes_one] at h
        split at h
        · rename_i hd
          cases h
          exact ⟨t, rfl, hc, hd⟩
        · cases h
    · split at h <;> cases h

/-- A pair that has a value takes the reader two characters further. -/
theorem pairValue_some (htake : takeBytes 2 rest = some pair) (hpair : pairValue pair = some byte) :
    dropBytes 2 rest = some (rest.drop 2) := by
  match pair, hpair with
  | [a, b], _ =>
    obtain ⟨rest', rfl, ha, hb⟩ := takeBytes_pair htake
    simp [dropBytes, ha, hb]

theorem hexLoop_eq (hi : i + n = 32) (hrest : dropBytes (2 * i) s = some rest)
    (internal : Bytes32) :
    (hexLoop s internal ((List.finRange 32).drop i)).map (Except.map List.Vector.toList) =
      (readPairs n rest).map (Except.map (internal.toList.take i ++ ·)) := by
  induction n generalizing i rest internal with
  | zero =>
    have hfull : internal.toList.take i = internal.toList := List.take_of_length_le (by simp; omega)
    rw [List.drop_eq_nil_of_le (by simp; omega), hexLoop, readPairs]
    simp only [Option.map_some, Except.map, hfull, List.append_nil]
  | succ n ih =>
    have hlt : i < 32 := by omega
    have hdrop : (List.finRange 32).drop i = ⟨i, hlt⟩ :: (List.finRange 32).drop (i + 1) := by
      rw [List.drop_eq_getElem_cons (by simpa using hlt), List.getElem_finRange]
      rfl
    have hslice : byteSlice s (2 * i) (2 * i + 2) = takeBytes 2 rest := by
      rw [byteSlice, hrest, Option.bind_some, Nat.add_sub_cancel_left]
    rw [hdrop, hexLoop, hslice, readPairs]
    cases htake : takeBytes 2 rest with
    | none => rfl
    | some pair =>
      cases hpair : pairValue pair with
      | none => simp only [hpair]; rfl
      | some byte =>
        have hnext : dropBytes (2 * (i + 1)) s = some (rest.drop 2) :=
          (dropBytes_add hrest 2).trans (pairValue_some htake hpair)
        have hset : (internal.set ⟨i, hlt⟩ byte).toList.take (i + 1) =
            internal.toList.take i ++ [byte] := by
          rw [List.Vector.toList_set, List.take_add_one, List.take_set_of_le le_rfl]
          simp [hlt]
        simp only [hpair]
        rw [ih (by omega) hnext, hset]
        cases readPairs n (rest.drop 2) with
        | none => rfl
        | some r => cases r <;> simp [Except.map]

-- ---------------------------------------------------------------------------
-- What sixty-four bytes are read as
-- ---------------------------------------------------------------------------

/-- Two digits, or a sign and a digit. -/
def LegalPair (a b : Char) : Prop := (a = '+' ∨ (hexValue a).isSome) ∧ (hexValue b).isSome

def LegalPairs : Text → Prop
  | [] => True
  | [_] => False
  | a :: b :: rest => LegalPair a b ∧ LegalPairs rest

/-- Behind legal pairs, two bytes end inside a character. -/
def CutsCharacter : Text → Prop
  | [] => False
  | [a] => 2 < a.utf8Size
  | a :: b :: rest =>
    a.utf8Size = 1 ∧ 1 < b.utf8Size ∨ 2 < a.utf8Size ∨ LegalPair a b ∧ CutsCharacter rest

theorem fromStrRadix_isSome : (fromStrRadix a b).isSome ↔ LegalPair a b := by
  have hplus : hexValue '+' = none := by decide
  unfold fromStrRadix LegalPair
  split
  · rename_i ha
    simp [ha]
  · rename_i ha
    cases hexValue a <;> cases hexValue b <;> simp [ha]

theorem LegalPair.ascii (h : LegalPair a b) : a.utf8Size = 1 ∧ b.utf8Size = 1 := by
  obtain ⟨ha, hb⟩ := h
  obtain ⟨vb, hb⟩ := Option.isSome_iff_exists.mp hb
  refine ⟨?_, utf8Size_of_hexValue hb⟩
  rcases ha with rfl | ha
  · decide
  · obtain ⟨va, ha⟩ := Option.isSome_iff_exists.mp ha
    exact utf8Size_of_hexValue ha

theorem fromStrRadix_none (h : ¬ LegalPair a b) : fromStrRadix a b = none :=
  Option.not_isSome_iff_eq_none.mp (mt fromStrRadix_isSome.mp h)

theorem readPairs_legal (h : LegalPair a b) (hbyte : fromStrRadix a b = some byte) (n : Nat)
    (rest : Text) : readPairs (n + 1) (a :: b :: rest) =
      (readPairs n rest).map (Except.map (byte :: ·)) := by
  obtain ⟨ha, hb⟩ := h.ascii
  have htake : takeBytes 2 (a :: b :: rest) = some [a, b] := by
    rw [takeBytes_two, if_pos ha, takeBytes_one, if_pos hb, Option.map_some]
  have hpair : pairValue [a, b] = some byte := hbyte
  rw [readPairs, htake]
  simp only [hpair, List.drop_succ_cons, List.drop_zero]

theorem readPairs_illegal (h : ¬ LegalPair a b) (n : Nat) (rest : Text) :
    (readPairs (n + 1) (a :: b :: rest) = none ↔
      a.utf8Size = 1 ∧ 1 < b.utf8Size ∨ 2 < a.utf8Size) ∧
    ∀ bytes, readPairs (n + 1) (a :: b :: rest) ≠ some (.ok bytes) := by
  have hpos := a.utf8Size_pos
  have hpos' := b.utf8Size_pos
  have hnone : pairValue [a, b] = none := fromStrRadix_none h
  have hone : pairValue [a] = none := rfl
  rw [readPairs, takeBytes_two, takeBytes_one]
  by_cases ha : a.utf8Size = 1
  · by_cases hb : b.utf8Size = 1
    · simp [ha, hb, hnone]
    · simp [ha, hb]
      omega
  · by_cases ha' : a.utf8Size = 2
    · simp [ha', hone]
    · simp [ha, ha']
      omega

/-- The pairs that are read are those of the text, and the reader panics where
two bytes cut a character. -/
theorem readPairs_eq (h : byteLength s = 2 * n) :
    (readPairs n s = none ↔ CutsCharacter s) ∧
      ∀ bytes, readPairs n s = some (.ok bytes) ↔ hexPairs s = some bytes := by
  induction s using hexPairs.induct generalizing n with
  | case1 =>
    obtain rfl : n = 0 := by simp [byteLength] at h; omega
    exact ⟨by simp [readPairs, CutsCharacter], by simp [readPairs, hexPairs]⟩
  | case2 a =>
    have hpos := a.utf8Size_pos
    have hsize : a.utf8Size = 2 * n := by simpa [byteLength] using h
    obtain ⟨n, rfl⟩ : ∃ m, n = m + 1 := ⟨n - 1, by omega⟩
    have hone : pairValue [a] = none := rfl
    rw [readPairs, takeBytes_two, if_neg (by omega), CutsCharacter]
    by_cases ha : a.utf8Size = 2
    · simp [ha, hone, hexPairs]
    · simp [ha, hexPairs]
      omega
  | case3 a b rest ih =>
    have hpos := a.utf8Size_pos
    have hlen : a.utf8Size + (b.utf8Size + byteLength rest) = 2 * n := by
      simpa [byteLength] using h
    obtain ⟨n, rfl⟩ : ∃ m, n = m + 1 := ⟨n - 1, by omega⟩
    by_cases hl : LegalPair a b
    · obtain ⟨ha, hb⟩ := hl.ascii
      obtain ⟨byte, hbyte⟩ := Option.isSome_iff_exists.mp (fromStrRadix_isSome.mpr hl)
      obtain ⟨hcut, hok⟩ := ih (n := n) (by omega)
      rw [readPairs_legal hl hbyte, CutsCharacter, hexPairs, hbyte]
      refine ⟨?_, fun bytes => ?_⟩
      · simp [hcut, ha, hb, hl]
      · rw [Option.bind_some, Option.map_eq_some_iff, Option.map_eq_some_iff]
        constructor
        · rintro ⟨r, hr, hmap⟩
          cases r with
          | error e => cases hmap
          | ok bytes =>
            cases hmap
            exact ⟨bytes, (hok bytes).mp hr, rfl⟩
        · rintro ⟨bytes, hbytes, rfl⟩
          exact ⟨.ok bytes, (hok bytes).mpr hbytes, rfl⟩
    · obtain ⟨hcut, hok⟩ := readPairs_illegal hl n rest
      rw [hcut, CutsCharacter, hexPairs, fromStrRadix_none hl]
      exact ⟨by simp [hl], fun bytes => iff_of_false (hok bytes) (by simp)⟩

theorem hexPairs_isSome (s : Text) : (hexPairs s).isSome ↔ LegalPairs s := by
  induction s using hexPairs.induct with
  | case1 => simp [hexPairs, LegalPairs]
  | case2 a => simp [hexPairs, LegalPairs]
  | case3 a b rest ih =>
    rw [LegalPairs, hexPairs, ← fromStrRadix_isSome, ← ih]
    cases fromStrRadix a b <;> simp

theorem length_of_hexPairs (h : hexPairs s = some bytes) :
    byteLength s = 2 * bytes.length := by
  induction s using hexPairs.induct generalizing bytes with
  | case1 =>
    cases h
    rfl
  | case2 a => cases h
  | case3 a b rest ih =>
    obtain ⟨byte, hbyte, hrest⟩ := Option.bind_eq_some_iff.mp h
    obtain ⟨bytes, hbytes, rfl⟩ := Option.map_eq_some_iff.mp hrest
    have hlen := ih hbytes
    have hlegal : LegalPair a b := fromStrRadix_isSome.mp (Option.isSome_iff_exists.mpr ⟨_, hbyte⟩)
    obtain ⟨ha, hb⟩ := hlegal.ascii
    simp only [byteLength, List.map_cons, List.sum_cons, List.length_cons, ha, hb] at hlen ⊢
    omega

theorem hexPairs_digits (h : '+' ∉ s) : hexPairs s = hexDecode s := by
  induction s using hexPairs.induct with
  | case1 => rfl
  | case2 a => rfl
  | case3 a b rest ih =>
    simp only [List.mem_cons, not_or] at h
    rw [hexPairs, hexDecode, ih h.2.2, fromStrRadix, if_neg (Ne.symm h.1)]
    cases hexValue a <;> cases hexValue b <;> cases hexDecode rest <;> rfl

theorem hexValue_of_hexDecode (h : hexDecode s = some bytes) : ∀ c ∈ s, (hexValue c).isSome := by
  induction s using hexPairs.induct generalizing bytes with
  | case1 => exact fun c hc => absurd hc List.not_mem_nil
  | case2 a => cases h
  | case3 a b rest ih =>
    rw [hexDecode] at h
    split at h
    · rename_i ha hb hrest
      simp only [List.mem_cons]
      rintro c (rfl | rfl | hc)
      · exact Option.isSome_iff_exists.mpr ⟨_, ha⟩
      · exact Option.isSome_iff_exists.mpr ⟨_, hb⟩
      · exact ih hrest c hc
    · cases h

theorem plus_not_mem (h : hexDecode s = some bytes) : '+' ∉ s := by
  have hnone : (hexValue '+').isSome = false := by decide
  intro hplus
  rw [hexValue_of_hexDecode h '+' hplus] at hnone
  cases hnone

theorem byteLength_ascii (h : ∀ c ∈ s, c.utf8Size = 1) : byteLength s = s.length := by
  rw [byteLength, List.map_congr_left h, List.map_const', List.sum_replicate]
  simp

theorem byteLength_of_hexDecode (h : hexDecode s = some bytes) : byteLength s = s.length := by
  refine byteLength_ascii fun c hc => ?_
  obtain ⟨v, hv⟩ := Option.isSome_iff_exists.mp (hexValue_of_hexDecode h c hc)
  exact utf8Size_of_hexValue hv

-- ---------------------------------------------------------------------------
-- Which texts are keys
-- ---------------------------------------------------------------------------

section
variable {base64Decode : Text → Option Bytes}

theorem toKey_eq_some : toKey bytes = some key ↔ bytes = key.toList := by
  unfold toKey
  split
  · constructor
    · intro h
      cases h
      rfl
    · rintro rfl
      rfl
  · rename_i h
    refine iff_of_false (by simp) ?_
    rintro rfl
    exact h key.toList_length

theorem fromStr_hex (base64Decode : Text → Option Bytes) (h : byteLength s = 64) :
    (fromStr base64Decode s = none ↔ CutsCharacter s) ∧
      ∀ key, fromStr base64Decode s = some (.ok key) ↔ hexPairs s = some key.toList := by
  have hstart : dropBytes (2 * 0) s = some s := by cases s <;> rfl
  have hloop := hexLoop_eq (n := 32) rfl hstart (List.Vector.replicate 32 0)
  obtain ⟨hcut, hok⟩ := readPairs_eq (n := 32) h
  simp only [List.drop_zero, List.take_zero, List.nil_append] at hloop
  have hid : (readPairs 32 s).map (Except.map fun bytes => bytes) = readPairs 32 s := by
    cases readPairs 32 s with
    | none => rfl
    | some r => cases r <;> rfl
  rw [hid] at hloop
  rw [fromStr, if_pos h, ← hcut, ← hloop]
  refine ⟨Option.map_eq_none_iff.symm, fun key => ?_⟩
  rw [← hok, ← hloop, Option.map_eq_some_iff]
  constructor
  · intro hkey
    exact ⟨_, hkey, rfl⟩
  · rintro ⟨r, hr, hmap⟩
    cases r with
    | error e => cases hmap
    | ok key' =>
      have hkey : key'.toList = key.toList := Except.ok.inj hmap
      rwa [List.Vector.eq _ _ hkey] at hr

/-- The length in bytes that a text of a key has. -/
theorem Denotes.byteLength (hascii : ∀ s bytes, base64Decode s = some bytes →
    ∀ c ∈ s, c.utf8Size = 1) (h : Denotes base64Decode s key) :
    Uapi.byteLength s = s.length := by
  rcases h with ⟨-, hhex⟩ | ⟨-, hbase64⟩
  · exact byteLength_of_hexDecode hhex
  · exact byteLength_ascii (hascii s _ hbase64)

/-- The texts that are misread: sixty-four bytes of pairs with a sign among
them, or with a character that a pair cuts; 43 or 44 bytes that are not
base64. -/
def Misread (base64Decode : Text → Option Bytes) (s : Text) : Prop :=
  Uapi.byteLength s = 64 ∧ (LegalPairs s ∧ '+' ∈ s ∨ CutsCharacter s) ∨
    (Uapi.byteLength s = 43 ∨ Uapi.byteLength s = 44) ∧ base64Decode s = none

/-- A text is read as the key that it denotes and as an error when it denotes
none, without a panic. -/
def ReadRight (base64Decode : Text → Option Bytes) (s : Text) : Prop :=
  fromStr base64Decode s ≠ none ∧
    (∀ key, fromStr base64Decode s = some (.ok key) ↔ Denotes base64Decode s key) ∧
    ((∀ key, ¬ Denotes base64Decode s key) → ∃ e, fromStr base64Decode s = some (.error e))

/-- The error part follows from the other two. -/
theorem readRight_iff : ReadRight base64Decode s ↔ fromStr base64Decode s ≠ none ∧
    ∀ key, fromStr base64Decode s = some (.ok key) ↔ Denotes base64Decode s key := by
  refine ⟨fun h => ⟨h.1, h.2.1⟩, fun h => ⟨h.1, h.2, fun hnone => ?_⟩⟩
  cases hs : fromStr base64Decode s with
  | none => exact absurd hs h.1
  | some r =>
    cases r with
    | error e => exact ⟨e, rfl⟩
    | ok key => exact absurd ((h.2 key).mp hs) (hnone key)

theorem readRight_hex (hlen : Uapi.byteLength s = 64) (hascii : ∀ s bytes,
    base64Decode s = some bytes → ∀ c ∈ s, c.utf8Size = 1) :
    ReadRight base64Decode s ↔ ¬ (LegalPairs s ∧ '+' ∈ s ∨ CutsCharacter s) := by
  obtain ⟨hcut, hok⟩ := fromStr_hex base64Decode hlen
  have hdenotes : ∀ key, Denotes base64Decode s key ↔ hexDecode s = some key.toList := by
    intro key
    constructor
    · intro h
      have hbytes := h.byteLength hascii
      rcases h with ⟨-, h⟩ | ⟨h, -⟩
      · exact h
      · omega
    · intro h
      exact .inl ⟨(byteLength_of_hexDecode h).symm.trans hlen, h⟩
  rw [readRight_iff, Ne, hcut, not_or, and_comm]
  refine and_congr_left' ⟨?_, ?_⟩
  · rintro hread ⟨hlegal, hplus⟩
    obtain ⟨bytes, hpairs⟩ := Option.isSome_iff_exists.mp ((hexPairs_isSome s).mpr hlegal)
    have hbytes : bytes.length = 32 := by
      have := length_of_hexPairs hpairs
      omega
    have hkey := (hread ⟨bytes, hbytes⟩).mp ((hok ⟨bytes, hbytes⟩).mpr hpairs)
    exact plus_not_mem ((hdenotes _).mp hkey) hplus
  · intro h key
    rw [hok, hdenotes]
    constructor
    · intro hpairs
      have hlegal := (hexPairs_isSome s).mp (Option.isSome_iff_exists.mpr ⟨_, hpairs⟩)
      rwa [← hexPairs_digits fun hplus => h ⟨hlegal, hplus⟩]
    · intro hdecode
      rwa [hexPairs_digits (plus_not_mem hdecode)]

theorem readRight_base64 (hlen : Uapi.byteLength s = 43 ∨ Uapi.byteLength s = 44)
    (hascii : ∀ s bytes, base64Decode s = some bytes → ∀ c ∈ s, c.utf8Size = 1) :
    ReadRight base64Decode s ↔ base64Decode s ≠ none := by
  have hdenotes : ∀ key, Denotes base64Decode s key ↔ base64Decode s = some key.toList := by
    intro key
    constructor
    · intro h
      have hbytes := h.byteLength hascii
      rcases h with ⟨h, -⟩ | ⟨-, h⟩
      · omega
      · exact h
    · intro h
      have hbytes := byteLength_ascii (hascii s _ h)
      exact .inr ⟨by rwa [← hbytes], h⟩
  have hlen' : Uapi.byteLength s ≠ 64 := by omega
  simp only [readRight_iff, hdenotes, fromStr, if_neg hlen', if_pos hlen]
  cases hdecode : base64Decode s with
  | none => simp
  | some decoded =>
    refine iff_of_true ⟨?_, fun key => ?_⟩ (Option.some_ne_none decoded)
    · dsimp only
      split <;> exact Option.some_ne_none _
    · dsimp only
      rw [Option.some_inj, ← toKey_eq_some]
      cases toKey decoded <;> simp

end

theorem fromStr_iff (base64Decode : Text → Option Bytes)
    (hascii : ∀ s bytes, base64Decode s = some bytes → ∀ c ∈ s, c.utf8Size = 1) (s : Text) :
    ReadRight base64Decode s ↔ ¬ Misread base64Decode s := by
  by_cases hhex : byteLength s = 64
  · have hbase64 : ¬ (byteLength s = 43 ∨ byteLength s = 44) := by omega
    rw [readRight_hex hhex hascii, Misread]
    simp [hhex]
  by_cases hbase64 : byteLength s = 43 ∨ byteLength s = 44
  · rw [readRight_base64 hbase64 hascii, Misread]
    simp [hhex, hbase64]
  · have hright : ReadRight base64Decode s := by
      rw [readRight_iff, fromStr, if_neg hhex, if_neg hbase64]
      refine ⟨Option.some_ne_none _, fun key => iff_of_false (by simp) fun h => ?_⟩
      have hbytes := h.byteLength hascii
      rcases h with ⟨h, -⟩ | ⟨h, -⟩ <;> omega
    exact iff_of_true hright (by simp [Misread, hhex, hbase64])

theorem hexPairs_hexEncode (bytes : Bytes) : hexPairs (hexEncode bytes) = some bytes := by
  have hplus : ∀ d < 16, Nat.digitChar d ≠ '+' := by decide
  induction bytes with
  | nil => rfl
  | cons b bytes ih =>
    have hb := b.toNat_lt
    rw [hexEncode_cons, hexPairs, fromStrRadix, if_neg (hplus _ (by omega)),
      hexValue_digitChar (by omega), hexValue_digitChar (by omega), ih]
    simp only [Option.bind_some, Option.map_some, ofNat_digits]

theorem byteLength_hexEncode (bytes : Bytes) : byteLength (hexEncode bytes) = 2 * bytes.length := by
  have hone : ∀ c ∈ hexEncode bytes, c.utf8Size = 1 := by
    have hall : ∀ d < 16, (Nat.digitChar d).utf8Size = 1 := by decide
    intro c hc
    obtain ⟨d, hd, rfl⟩ := mem_hexEncode hc
    exact hall d hd
  rw [byteLength, List.map_congr_left hone, List.map_const', List.sum_replicate, length_hexEncode]
  simp

-- Hexadecimal is read right, but a text of the length of base64 that is none
-- is the key of zeros.

theorem fromStr_hexEncode (base64Decode : Text → Option Bytes) (key : Bytes32) :
    fromStr base64Decode (hexEncode key.toList) = some (.ok key) := by
  have hlen : byteLength (hexEncode key.toList) = 64 := by
    rw [byteLength_hexEncode, key.toList_length]
  exact ((fromStr_hex base64Decode hlen).2 key).mpr (hexPairs_hexEncode key.toList)

/-- The base64 of 32 bytes 171. -/
def keyText : Text := "q6urq6urq6urq6urq6urq6urq6urq6urq6urq6urq6s=".toList

def decodeKeyText (s : Text) : Option Bytes :=
  if s = keyText then some (List.replicate 32 171) else none

theorem decodeKeyText_ascii (h : decodeKeyText s = some bytes) : ∀ c ∈ s, c.utf8Size = 1 := by
  unfold decodeKeyText at h
  split at h
  · rename_i hs
    have hall : keyText.all (fun c => c.utf8Size == 1) = true := by decide
    rw [hs]
    simpa using hall
  · cases h

theorem fromStr_iff_sample : ReadRight decodeKeyText (hexEncode (List.replicate 32 171)) ∧
    ReadRight decodeKeyText keyText := by
  have hascii := fun s bytes => @decodeKeyText_ascii s bytes
  constructor
  · refine (fromStr_iff decodeKeyText hascii _).mpr ?_
    have hkey := fromStr_hexEncode decodeKeyText (List.Vector.replicate 32 171)
    have hlen : byteLength (hexEncode (List.replicate 32 171)) = 64 := by
      rw [byteLength_hexEncode, List.length_replicate]
    rintro (⟨-, ⟨-, hplus⟩ | hcut⟩ | ⟨h, -⟩)
    · exact not_mem_hexEncode (by decide) hplus
    · have hnone := (fromStr_hex decodeKeyText hlen).1.mpr hcut
      exact Option.some_ne_none _ (hkey.symm.trans hnone)
    · omega
  · refine (fromStr_iff decodeKeyText hascii _).mpr ?_
    have hlen : byteLength keyText = 44 := by decide
    rintro (⟨h, -⟩ | ⟨-, hnone⟩)
    · omega
    · rw [decodeKeyText, if_pos rfl] at hnone
      cases hnone

theorem not_base64_read : ¬ ReadRight (fun _ => none) (List.replicate 43 '!') := by
  intro h
  have hzero : fromStr (fun _ => none) (List.replicate 43 '!') =
      some (.ok (List.Vector.replicate 32 0)) := rfl
  rcases (h.2.1 _).mp hzero with ⟨hlen, -⟩ | ⟨-, hnone⟩
  · rw [List.length_replicate] at hlen
    omega
  · cases hnone

end Xelt.Boringtun.Uapi
