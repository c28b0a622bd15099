import Mathlib.Data.Nat.Bitwise
import Xelt.Boringtun.Device.Maps
import Xelt.Boringtun.Noise.KeyAgreement

/-!
# Indices

A peer gets its index from a shift register of 24 bits, and its handshake
counts the indices of its sessions in the eight bits below. The register
permutes the nonzero states and stops before it comes back to the first one,
so no index is drawn twice; the map from indices to peers follows the set of
peers. A message that carries an index some handshake has issued is found to
be for the peer of that handshake, as long as that peer is there.
-/

namespace Xelt.Boringtun

open Noise Payment

-- ---------------------------------------------------------------------------
-- The register
-- ---------------------------------------------------------------------------

namespace IndexLfsr

def shift (lfsr : UInt32) : UInt32 := (lfsr >>> 1) ^^^ ((0 - (lfsr &&& 1)) &&& 0xd80000)

theorem next_eq (r : IndexLfsr) : r.next =
    if shift r.lfsr = r.initial then none
    else some ((r.lfsr - 1) ^^^ r.mask, { r with lfsr := shift r.lfsr }) := rfl

theorem toNat_shift (x : UInt32) : (shift x).toNat =
    if x.toNat % 2 = 0 then x.toNat / 2 else x.toNat / 2 ^^^ 0xd80000 := by
  have hlow : (x &&& 1).toNat = x.toNat % 2 := by
    rw [UInt32.toNat_and]
    exact Nat.and_one_is_mod x.toNat
  have hhalf : (x >>> 1).toNat = x.toNat / 2 := by
    rw [UInt32.toNat_shiftRight]
    exact Nat.shiftRight_eq_div_pow x.toNat 1
  rcases Nat.mod_two_eq_zero_or_one x.toNat with h | h
  · have hbit : x &&& 1 = 0 := UInt32.toNat_inj.mp (hlow.trans h)
    have hzero : ((0 - (0 : UInt32)) &&& 0xd80000) = 0 := by decide
    rw [shift, hbit, hzero, UInt32.toNat_xor, hhalf, if_pos h]
    exact Nat.xor_zero _
  · have hbit : x &&& 1 = 1 := UInt32.toNat_inj.mp (hlow.trans h)
    have hpoly : ((0 - (1 : UInt32)) &&& 0xd80000) = 0xd80000 := by decide
    rw [shift, hbit, hpoly, UInt32.toNat_xor, hhalf, if_neg (by omega)]
    rfl

def State (x : UInt32) : Prop := 0 < x.toNat ∧ x.toNat < 2 ^ 24

theorem top_bit (h : n < 2 ^ 24) : (n / 2 ^^^ 0xd80000).testBit 23 = true := by
  have hhalf : (n / 2).testBit 23 = false := Nat.testBit_lt_two_pow (by omega)
  have hpoly : Nat.testBit 0xd80000 23 = true := by decide
  rw [Nat.testBit_xor, hhalf, hpoly]
  rfl

theorem shift_state (h : State x) : State (shift x) := by
  obtain ⟨hpos, hlt⟩ := h
  rw [State, toNat_shift]
  split
  · omega
  · constructor
    · apply Nat.pos_of_ne_zero
      intro hzero
      have htop := top_bit hlt
      rw [hzero] at htop
      simp at htop
    · exact Nat.xor_lt_two_pow (by omega) (by decide)

theorem shift_inj (hx : State x) (hy : State y) (h : shift x = shift y) : x = y := by
  have hnat := congrArg UInt32.toNat h
  rw [toNat_shift, toNat_shift] at hnat
  apply UInt32.toNat_inj.mp
  have hlow : (x.toNat / 2).testBit 23 = false := Nat.testBit_lt_two_pow (by have := hx.2; omega)
  have hlow' : (y.toNat / 2).testBit 23 = false := Nat.testBit_lt_two_pow (by have := hy.2; omega)
  split at hnat
  · split at hnat
    · omega
    · have htop := top_bit hy.2
      rw [← hnat, hlow] at htop
      cases htop
  · split at hnat
    · have htop := top_bit hx.2
      rw [hnat, hlow'] at htop
      cases htop
    · have hhalf := Nat.xor_left_injective hnat
      omega

theorem iterate_state (h : State x) : ∀ j, State (shift^[j] x)
  | 0 => h
  | j + 1 => by
    rw [Function.iterate_succ_apply']
    exact shift_state (iterate_state h j)

theorem iterate_cancel (h : State x) (i j : Nat) (he : shift^[i] x = shift^[i + j] x) :
    x = shift^[j] x := by
  induction i with
  | zero => rw [Nat.zero_add] at he; exact he
  | succ i ih =>
    rw [Nat.succ_add, Function.iterate_succ_apply', Function.iterate_succ_apply'] at he
    exact ih (shift_inj (iterate_state h i) (iterate_state h (i + j)) he)

variable {mask : UInt32}

def value (mask lfsr : UInt32) : UInt32 := (lfsr - 1) ^^^ mask

theorem value_lt (h : State x) (hmask : mask.toNat < 2 ^ 24) : (value mask x).toNat < 2 ^ 24 := by
  have hone : (1 : UInt32) ≤ x := by
    rw [UInt32.le_iff_toNat_le]
    exact h.1
  rw [value, UInt32.toNat_xor, UInt32.toNat_sub_of_le _ _ hone]
  have hlt := h.2
  exact Nat.xor_lt_two_pow (by omega) hmask

theorem value_inj (h : value mask x = value mask y) : x = y := by
  have hsub : x - 1 = y - 1 := by
    have h' := congrArg (· ^^^ mask) h
    simpa only [value, UInt32.xor_assoc, UInt32.xor_self, UInt32.xor_zero] using h'
  have hadd := congrArg (· + 1) hsub
  simpa using hadd

end IndexLfsr

-- ---------------------------------------------------------------------------
-- The maps
-- ---------------------------------------------------------------------------

namespace Device

variable {prim : Primitives} {d d' : Device} {seed mask : UInt32}

open IndexLfsr

/-- The peer object `pid` was drawn the index of its number, and the register
has not come back to its seed. -/
structure Drawn (seed mask : UInt32) (d : Device) : Prop where
  register : d.nextIndex = ⟨seed, shift^[d.heapSize] seed, mask⟩
  ahead : ∀ j, 0 < j → j ≤ d.heapSize → shift^[j] seed ≠ seed
  index : ∀ pid p, d.heap pid = some p →
    pid < d.heapSize ∧ p.index = value mask (shift^[pid] seed)

theorem Drawn.distinct (hseed : State seed) (h : Drawn seed mask d) (hp : d.heap pid = some p)
    (hp' : d.heap pid' = some p') (hlt : pid < pid') : p.index ≠ p'.index := by
  obtain ⟨_, hi⟩ := h.index pid p hp
  obtain ⟨hsize, hi'⟩ := h.index pid' p' hp'
  rw [hi, hi']
  intro he
  obtain ⟨j, rfl⟩ := Nat.exists_eq_add_of_lt hlt
  have hback := iterate_cancel hseed pid (j + 1) (value_inj he)
  have hle : j + 1 ≤ d.heapSize := ((Nat.le_add_left (j + 1) pid).trans_lt hsize).le
  exact h.ahead (j + 1) (Nat.succ_pos j) hle hback.symm

theorem Drawn.index_inj (hseed : State seed) (h : Drawn seed mask d) (hp : d.heap pid = some p)
    (hp' : d.heap pid' = some p') (he : p.index = p'.index) : pid = pid' := by
  rcases Nat.lt_trichotomy pid pid' with hlt | heq | hgt
  · exact absurd he (h.distinct hseed hp hp' hlt)
  · exact heq
  · exact absurd he.symm (h.distinct hseed hp' hp hgt)

/-- The register tells how many peers were made. -/
theorem Drawn.size_inj (hseed : State seed) (h : Drawn seed mask d) (h' : Drawn seed mask d')
    (he : d.nextIndex = d'.nextIndex) : d.heapSize = d'.heapSize := by
  rw [h.register, h'.register, IndexLfsr.mk.injEq] at he
  rcases Nat.lt_trichotomy d.heapSize d'.heapSize with hlt | heq | hgt
  · obtain ⟨j, hj⟩ := Nat.exists_eq_add_of_lt hlt
    have hback := iterate_cancel hseed d.heapSize (j + 1) (by rw [he.2.1, hj]; rfl)
    exact absurd hback.symm (h'.ahead (j + 1) (Nat.succ_pos j) (by omega))
  · exact heq
  · obtain ⟨j, hj⟩ := Nat.exists_eq_add_of_lt hgt
    have hback := iterate_cancel hseed d'.heapSize (j + 1) (by rw [← he.2.1, hj]; rfl)
    exact absurd hback.symm (h.ahead (j + 1) (Nat.succ_pos j) (by omega))

theorem Drawn.same (h : Drawn seed mask d) (hs : SameMaps d d') : Drawn seed mask d' where
  register := by rw [hs.nextIndex, hs.heapSize, h.register]
  ahead := hs.heapSize ▸ h.ahead
  index pid p' hp' := by
    obtain ⟨p, hp, hsame⟩ := hs.heap pid p' hp'
    rw [hs.heapSize, hsame.index]
    exact h.index pid p hp

theorem Drawn.adds (h : Drawn seed mask d) (ha : Adds d d' key ips p) : Drawn seed mask d' := by
  have hnext := ha.nextIndex
  rw [h.register, next_eq] at hnext
  split at hnext
  · cases hnext
  rename_i hne
  obtain ⟨hindex, hreg⟩ := Prod.mk.inj (Option.some.inj hnext)
  constructor
  · rw [← hreg, ha.heapSize, Function.iterate_succ_apply']
  · intro j hpos hle
    rw [ha.heapSize] at hle
    rcases Nat.lt_or_ge d.heapSize j with hlt | hge
    · obtain rfl : j = d.heapSize + 1 := Nat.le_antisymm hle hlt
      rw [Function.iterate_succ_apply']
      exact hne
    · exact h.ahead j hpos hge
  · intro pid q hq
    rw [ha.heap] at hq
    rw [ha.heapSize]
    by_cases hpid : pid = d.heapSize
    · subst hpid
      obtain rfl : p = q := by simpa using hq
      exact ⟨Nat.lt_succ_self _, hindex.symm⟩
    · rw [Function.update_of_ne hpid] at hq
      exact ⟨Nat.lt_succ_of_lt (h.index pid q hq).1, (h.index pid q hq).2⟩

/-- The peer is in the table of keys. -/
def Present (d : Device) (pid : PeerId) : Prop := ∃ key, d.peers.lookup key = some pid

/-- The map from indices holds the peers of the table of keys, each under its
own index. -/
structure Indexes (d : Device) : Prop where
  live : ∀ key pid, d.peers.lookup key = some pid → ∃ p, d.heap pid = some p
  once : ∀ k k' pid, d.peers.lookup k = some pid → d.peers.lookup k' = some pid → k = k'
  byIdx : ∀ i pid, d.peersByIdx.lookup i = some pid ↔
    d.Present pid ∧ ∃ p, d.heap pid = some p ∧ p.index = i

theorem Indexes.same (h : Indexes d) (hs : SameMaps d d') : Indexes d' where
  live key pid hp := by
    obtain ⟨p, hp⟩ := h.live key pid (hs.peers ▸ hp)
    obtain ⟨p', hp', _⟩ := hs.kept pid p hp
    exact ⟨p', hp'⟩
  once := hs.peers ▸ h.once
  byIdx i pid := by
    rw [hs.peersByIdx, h.byIdx, Present, Present, hs.peers]
    refine and_congr_right fun _ => ⟨?_, ?_⟩
    · rintro ⟨p, hp, hi⟩
      obtain ⟨p', hp', hsame⟩ := hs.kept pid p hp
      exact ⟨p', hp', hsame.index.trans hi⟩
    · rintro ⟨p', hp', hi⟩
      obtain ⟨p, hp, hsame⟩ := hs.heap pid p' hp'
      exact ⟨p, hp, hsame.index.symm.trans hi⟩

theorem Adds.old (ha : Adds d d' key ips p) (hd : Drawn seed mask d) (hl : Indexes d)
    (hk : d.peers.lookup k = some pid) : pid ≠ d.heapSize ∧ k ≠ key := by
  obtain ⟨q, hq⟩ := hl.live k pid hk
  refine ⟨Nat.ne_of_lt (hd.index pid q hq).1, ?_⟩
  rintro rfl
  rw [ha.absent] at hk
  cases hk

theorem Adds.present (ha : Adds d d' key ips p) :
    d'.Present pid ↔ pid = d.heapSize ∨ d.Present pid := by
  constructor
  · rintro ⟨k, hk⟩
    rw [ha.peers] at hk
    by_cases hkey : k = key
    · subst hkey
      rw [AList.lookup_insert] at hk
      exact .inl (Option.some.inj hk).symm
    · rw [AList.lookup_insert_ne hkey] at hk
      exact .inr ⟨k, hk⟩
  · rintro (rfl | ⟨k, hk⟩)
    · exact ⟨key, by rw [ha.peers, AList.lookup_insert]⟩
    · have hkey : k ≠ key := by
        rintro rfl
        rw [ha.absent] at hk
        cases hk
      exact ⟨k, by rw [ha.peers, AList.lookup_insert_ne hkey, hk]⟩

theorem Indexes.adds (hseed : State seed) (hd : Drawn seed mask d) (h : Indexes d)
    (ha : Adds d d' key ips p) : Indexes d' := by
  have hnew : d'.heap d.heapSize = some p := by rw [ha.heap, Function.update_self]
  have hold {pid : PeerId} (hne : pid ≠ d.heapSize) : d'.heap pid = d.heap pid := by
    rw [ha.heap, Function.update_of_ne hne]
  have hd' := hd.adds ha
  constructor
  · intro k pid hk
    rw [ha.peers] at hk
    by_cases hkey : k = key
    · subst hkey
      obtain rfl : d.heapSize = pid := by simpa using hk
      exact ⟨p, hnew⟩
    · rw [AList.lookup_insert_ne hkey] at hk
      rw [hold (ha.old hd h hk).1]
      exact h.live k pid hk
  · intro k k' pid hk hk'
    rw [ha.peers] at hk hk'
    by_cases hkey : k = key <;> by_cases hkey' : k' = key
    · rw [hkey, hkey']
    · subst hkey
      rw [AList.lookup_insert_ne hkey'] at hk'
      obtain rfl : d.heapSize = pid := by simpa using hk
      exact absurd rfl (ha.old hd h hk').1
    · subst hkey'
      rw [AList.lookup_insert_ne hkey] at hk
      obtain rfl : d.heapSize = pid := by simpa using hk'
      exact absurd rfl (ha.old hd h hk).1
    · rw [AList.lookup_insert_ne hkey] at hk
      rw [AList.lookup_insert_ne hkey'] at hk'
      exact h.once k k' pid hk hk'
  · intro i pid
    rw [ha.peersByIdx, ha.present]
    by_cases hi : i = p.index
    · subst hi
      rw [AList.lookup_insert]
      constructor
      · intro he
        obtain rfl := Option.some.inj he
        exact ⟨.inl rfl, p, hnew, rfl⟩
      · rintro ⟨_, q, hq, he⟩
        rw [hd'.index_inj hseed hq hnew he]
    · rw [AList.lookup_insert_ne hi, h.byIdx]
      constructor
      · rintro ⟨hpres, q, hq, he⟩
        obtain ⟨k, hk⟩ := hpres
        refine ⟨.inr ⟨k, hk⟩, q, ?_, he⟩
        rw [hold (ha.old hd h hk).1, hq]
      · rintro ⟨rfl | hpres, q, hq, he⟩
        · rw [hnew] at hq
          cases hq
          exact absurd he.symm hi
        · obtain ⟨k, hk⟩ := hpres
          rw [hold (ha.old hd h hk).1] at hq
          exact ⟨⟨k, hk⟩, q, hq, he⟩

theorem removePeer_nextIndex (d : Device) (key : Bytes32) :
    (d.removePeer key).nextIndex = d.nextIndex := by
  unfold removePeer
  split <;> rfl

theorem Drawn.remove (h : Drawn seed mask d) (key : Bytes32) :
    Drawn seed mask (d.removePeer key) where
  register := by rw [removePeer_nextIndex, removePeer_heapSize, h.register]
  ahead := by rw [removePeer_heapSize]; exact h.ahead
  index := by rw [removePeer_heap, removePeer_heapSize]; exact h.index

theorem Indexes.remove (hseed : State seed) (hd : Drawn seed mask d) (h : Indexes d)
    (key : Bytes32) : Indexes (d.removePeer key) := by
  cases hl : d.peers.lookup key with
  | none =>
    have hsame : d.removePeer key = d := by simp only [removePeer, hl]
    rw [hsame]
    exact h
  | some gone =>
    obtain ⟨p, hp⟩ := h.live key gone hl
    have hidx : (d.removePeer key).peersByIdx = d.peersByIdx.erase p.index := by
      simp only [removePeer, hl, hp]
    have hold {k : Bytes32} {pid : PeerId} (hk : (d.removePeer key).peers.lookup k = some pid) :
        k ≠ key ∧ d.peers.lookup k = some pid := by
      rw [removePeer_lookup] at hk
      split at hk
      · cases hk
      · exact ⟨‹_›, hk⟩
    constructor
    · intro k pid hk
      rw [removePeer_heap]
      exact h.live k pid (hold hk).2
    · intro k k' pid hk hk'
      exact h.once k k' pid (hold hk).2 (hold hk').2
    · intro i pid
      rw [hidx, removePeer_heap]
      constructor
      · intro hi
        have hne : i ≠ p.index := by
          rintro rfl
          rw [AList.lookup_erase] at hi
          cases hi
        rw [AList.lookup_erase_ne hne] at hi
        obtain ⟨⟨k, hk⟩, q, hq, he⟩ := (h.byIdx i pid).mp hi
        refine ⟨⟨k, ?_⟩, q, hq, he⟩
        -- the removed peer has another index
        have hkey : k ≠ key := by
          rintro rfl
          obtain rfl := Option.some.inj (hl.symm.trans hk)
          exact hne (he.symm.trans (congrArg Peer.index (Option.some.inj (hq.symm.trans hp))))
        rw [removePeer_lookup, if_neg hkey, hk]
      · rintro ⟨⟨k, hk⟩, q, hq, he⟩
        obtain ⟨hkey, hk⟩ := hold hk
        have hne : i ≠ p.index := by
          rintro rfl
          obtain rfl := hd.index_inj hseed hq hp he
          exact hkey (h.once k key pid hk hl)
        rw [AList.lookup_erase_ne hne]
        exact (h.byIdx i pid).mpr ⟨⟨k, hk⟩, q, hq, he⟩

theorem Drawn.clear (h : Drawn seed mask d) : Drawn seed mask d.clearPeers :=
  ⟨h.register, h.ahead, h.index⟩

theorem Indexes.clear (d : Device) : Indexes d.clearPeers where
  live _ _ h := by cases h
  once _ _ _ h := by cases h
  byIdx i pid := by
    constructor
    · intro h
      cases h
    · rintro ⟨⟨_, h⟩, _⟩
      cases h

theorem indexes_step (hseed : State seed) (h : Drawn seed mask d ∧ Indexes d)
    (hs : d.step prim e = some d') : Drawn seed mask d' ∧ Indexes d' := by
  obtain ⟨hd, hi⟩ := h
  rcases step_maps hs with hsame | ⟨key, _, ips, p, _, ha⟩ | ⟨key, _, _, _, rfl⟩ | ⟨_, rfl⟩
  · exact ⟨hd.same hsame, hi.same hsame⟩
  · exact ⟨hd.adds ha, hi.adds hseed hd ha⟩
  · exact ⟨hd.remove key, hi.remove hseed hd key⟩
  · exact ⟨hd.clear, .clear d⟩

theorem indexes_init (config : PaymentConfig) (seed mask : UInt32) :
    Drawn seed mask (.init config ⟨seed, seed, mask⟩) ∧
      Indexes (.init config ⟨seed, seed, mask⟩) := by
  constructor
  · refine ⟨rfl, fun j hpos hle => ?_, fun pid p hp => ?_⟩
    · exact absurd hle (Nat.not_le_of_gt hpos)
    · cases hp
  · refine ⟨fun _ _ h => ?_, fun _ _ _ h => ?_, fun i pid => ⟨fun h => ?_, ?_⟩⟩
    · cases h
    · cases h
    · cases h
    · rintro ⟨⟨_, h⟩, _⟩
      cases h

end Device

end Xelt.Boringtun
