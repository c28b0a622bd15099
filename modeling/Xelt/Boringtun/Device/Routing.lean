import Xelt.Boringtun.Device.Indices

/-!
# Routing by address

Inbound packets are checked against the peer's own table of allowed
addresses, outbound ones are routed by the table of the device. An address
that is routed to a peer is always one the peer is allowed. The other
direction is kept by nothing but the additions: the two tables agree in a
whole run exactly when no peer is added with an address another one has.
-/

namespace Xelt.Boringtun

open Bytes Noise Payment Runs

-- ---------------------------------------------------------------------------
-- Prefix tables
-- ---------------------------------------------------------------------------

namespace IpNetwork

theorem shift_back (a : BitVec w) (k : Nat) : a >>> k <<< k >>> k = a >>> k := by
  ext i hi
  simp only [BitVec.getElem_ushiftRight, BitVec.getLsbD_shiftLeft, BitVec.getLsbD_ushiftRight]
  by_cases hlt : k + i < w
  · simp [hlt]
  · simp [hlt, BitVec.getLsbD_of_ge a (k + i) (Nat.le_of_not_lt hlt)]

theorem contains_newTruncate (addr : IpAddr) (netmask : Nat) :
    (newTruncate addr netmask).contains addr = true := by
  cases addr <;> simp [contains, newTruncate, prefixBits, shift_back]

end IpNetwork

def AllowedIP.net (ip : AllowedIP) : IpNetwork := .newTruncate ip.addr ip.cidr

namespace AllowedIps

variable {δ : Type} {t : AllowedIps δ} {ip : IpAddr}

theorem longestMatch_mem {l : List (IpNetwork × δ)} (h : longestMatch ip l = some e) :
    e ∈ l ∧ e.1.contains ip := by
  induction l with
  | nil => cases h
  | cons first rest ih =>
    simp only [longestMatch] at h
    split at h
    · rename_i best hbest
      split at h
      · rename_i hfirst
        cases h
        exact ⟨List.mem_cons_self, (Bool.and_eq_true _ _ ▸ hfirst).1⟩
      · cases h
        exact ⟨List.mem_cons_of_mem _ (ih hbest).1, (ih hbest).2⟩
    · split at h
      · rename_i hfirst
        cases h
        exact ⟨List.mem_cons_self, hfirst⟩
      · cases h

theorem longestMatch_isSome {l : List (IpNetwork × δ)} (he : e ∈ l) (hc : e.1.contains ip) :
    (longestMatch ip l).isSome := by
  induction l with
  | nil => cases he
  | cons first rest ih =>
    simp only [longestMatch]
    split
    · split <;> rfl
    · rename_i hnone
      rcases List.mem_cons.mp he with rfl | hrest
      · rw [if_pos hc]
        rfl
      · rw [hnone] at ih
        cases ih hrest

theorem find_mem (h : t.find ip = some v) : ∃ net, (net, v) ∈ t.ips ∧ net.contains ip := by
  obtain ⟨e, he, rfl⟩ := Option.map_eq_some_iff.mp h
  exact ⟨e.1, longestMatch_mem he⟩

theorem find_isSome_iff : (t.find ip).isSome ↔ ∃ e ∈ t.ips, e.1.contains ip := by
  rw [find, Option.isSome_map]
  constructor
  · intro h
    obtain ⟨e, he⟩ := Option.isSome_iff_exists.mp h
    exact ⟨e, longestMatch_mem he⟩
  · rintro ⟨e, he, hc⟩
    exact longestMatch_isSome he hc

theorem mem_insert {key : AllowedIP} {v : δ} {e : IpNetwork × δ} :
    e ∈ (t.insert key v).ips ↔ e = (key.net, v) ∨ e.1 ≠ key.net ∧ e ∈ t.ips := by
  simp only [AllowedIP.net, insert]
  generalize IpNetwork.newTruncate key.addr key.cidr = net
  by_cases hany : t.ips.any (·.1 == net) = true
  · obtain ⟨old, hold, heq⟩ := List.any_eq_true.mp hany
    rw [if_pos hany, List.mem_map]
    constructor
    · rintro ⟨a, ha, rfl⟩
      by_cases hkey : a.1 = net
      · exact .inl (by simp [hkey])
      · exact .inr (by simpa [hkey] using ha)
    · rintro (rfl | ⟨hne, he⟩)
      · exact ⟨old, hold, by rw [if_pos heq]⟩
      · exact ⟨e, he, by simp [hne]⟩
  · rw [if_neg hany, List.mem_append, List.mem_singleton, or_comm]
    refine or_congr_right ⟨fun he => ⟨?_, he⟩, And.right⟩
    intro hkey
    exact hany (List.any_eq_true.mpr ⟨e, he, by simp [hkey]⟩)

theorem mem_foldl_insert {ips : List AllowedIP} {v : δ} {e : IpNetwork × δ} :
    e ∈ (ips.foldl (fun t ip => t.insert ip v) t).ips ↔
      (e.2 = v ∧ ∃ ip ∈ ips, e.1 = ip.net) ∨ (∀ ip ∈ ips, e.1 ≠ ip.net) ∧ e ∈ t.ips := by
  induction ips generalizing t with
  | nil => simp
  | cons ip ips ih =>
    rw [List.foldl_cons, ih, mem_insert]
    constructor
    · rintro (⟨hv, i, hi, hnet⟩ | ⟨hout, rfl | ⟨hne, ht⟩⟩)
      · exact .inl ⟨hv, i, List.mem_cons_of_mem _ hi, hnet⟩
      · exact .inl ⟨rfl, ip, List.mem_cons_self, rfl⟩
      · exact .inr ⟨List.forall_mem_cons.mpr ⟨hne, hout⟩, ht⟩
    · rintro (⟨hv, i, hi, hnet⟩ | ⟨hout, ht⟩)
      · by_cases hin : ∃ i ∈ ips, e.1 = i.net
        · exact .inl ⟨hv, hin⟩
        · rcases List.mem_cons.mp hi with rfl | hi
          · exact .inr ⟨fun j hj heq => hin ⟨j, hj, heq⟩, .inl (Prod.ext hnet hv)⟩
          · exact absurd ⟨i, hi, hnet⟩ hin
      · obtain ⟨hne, hout⟩ := List.forall_mem_cons.mp hout
        exact .inr ⟨hout, .inr ⟨hne, ht⟩⟩

theorem mem_ofList {ips : List AllowedIP} {e : IpNetwork × Unit} :
    e ∈ (ofList ips ()).ips ↔ ∃ ip ∈ ips, e.1 = ip.net := by
  rw [ofList, mem_foldl_insert]
  simp [new]

end AllowedIps

theorem Peer.isAllowedIp_iff {p : Peer} {s : IpAddr} :
    p.isAllowedIp s = true ↔ ∃ e ∈ p.allowedIps.ips, e.1.contains s :=
  AllowedIps.find_isSome_iff

-- ---------------------------------------------------------------------------
-- The two tables
-- ---------------------------------------------------------------------------

namespace Device

variable {prim : Primitives} {d d' : Device}

/-- A peer can send from exactly the addresses that are routed to it. -/
def Routed (d : Device) : Prop :=
  ∀ pid p s, d.Present pid → d.heap pid = some p →
    (p.isAllowedIp s = true ↔ d.peersByIp.find s = some pid)

/-- The table of the device holds networks of present peers only. -/
structure Routes (d : Device) : Prop where
  live : ∀ key pid, d.peers.lookup key = some pid → pid < d.heapSize ∧ ∃ p, d.heap pid = some p
  once : ∀ k k' pid, d.peers.lookup k = some pid → d.peers.lookup k' = some pid → k = k'
  entry : ∀ net pid, (net, pid) ∈ d.peersByIp.ips →
    d.Present pid ∧ ∃ p, d.heap pid = some p ∧ (net, ()) ∈ p.allowedIps.ips

/-- No two present peers have an address in common, and each network of a
present peer is in the table of the device. -/
structure Separate (d : Device) : Prop where
  apart : ∀ pid pid' p p' s, d.Present pid → d.Present pid' → d.heap pid = some p →
    d.heap pid' = some p' → p.isAllowedIp s = true → p'.isAllowedIp s = true → pid = pid'
  entered : ∀ pid p net, d.Present pid → d.heap pid = some p → (net, ()) ∈ p.allowedIps.ips →
    (net, pid) ∈ d.peersByIp.ips

theorem Routes.allowed (h : Routes d) (hf : d.peersByIp.find s = some pid) :
    d.Present pid ∧ ∃ p, d.heap pid = some p ∧ p.isAllowedIp s = true := by
  obtain ⟨net, hmem, hc⟩ := AllowedIps.find_mem hf
  obtain ⟨hpres, p, hp, hnet⟩ := h.entry net pid hmem
  exact ⟨hpres, p, hp, Peer.isAllowedIp_iff.mpr ⟨_, hnet, hc⟩⟩

theorem Separate.routed (hr : Routes d) (h : Separate d) : Routed d := by
  intro pid p s hpres hp
  constructor
  · intro hs
    obtain ⟨⟨net, _⟩, hnet, hc⟩ := Peer.isAllowedIp_iff.mp hs
    have hsome : (d.peersByIp.find s).isSome :=
      AllowedIps.find_isSome_iff.mpr ⟨_, h.entered pid p net hpres hp hnet, hc⟩
    obtain ⟨owner, howner⟩ := Option.isSome_iff_exists.mp hsome
    obtain ⟨hpres', q, hq, hqs⟩ := hr.allowed howner
    rw [howner, h.apart pid owner p q s hpres hpres' hp hq hs hqs]
  · intro hf
    obtain ⟨_, q, hq, hqs⟩ := hr.allowed hf
    obtain rfl := Option.some.inj (hp.symm.trans hq)
    exact hqs

-- ---------------------------------------------------------------------------
-- What a step keeps
-- ---------------------------------------------------------------------------

theorem SameMaps.present (hs : SameMaps d d') : d'.Present pid ↔ d.Present pid := by
  rw [Present, Present, hs.peers]

theorem Routes.same (h : Routes d) (hs : SameMaps d d') : Routes d' where
  live key pid hk := by
    obtain ⟨hlt, p, hp⟩ := h.live key pid (hs.peers ▸ hk)
    obtain ⟨p', hp', _⟩ := hs.kept pid p hp
    exact ⟨hs.heapSize ▸ hlt, p', hp'⟩
  once := hs.peers ▸ h.once
  entry net pid he := by
    rw [hs.peersByIp] at he
    obtain ⟨hpres, p, hp, hnet⟩ := h.entry net pid he
    obtain ⟨p', hp', hsame⟩ := hs.kept pid p hp
    exact ⟨hs.present.mpr hpres, p', hp', hsame.allowedIps ▸ hnet⟩

theorem Separate.same (h : Separate d) (hs : SameMaps d d') : Separate d' where
  apart pid pid' p p' s hpres hpres' hp hp' ha ha' := by
    obtain ⟨q, hq, hsame⟩ := hs.heap pid p hp
    obtain ⟨q', hq', hsame'⟩ := hs.heap pid' p' hp'
    rw [Peer.isAllowedIp, hsame.allowedIps] at ha
    rw [Peer.isAllowedIp, hsame'.allowedIps] at ha'
    exact h.apart pid pid' q q' s (hs.present.mp hpres) (hs.present.mp hpres') hq hq' ha ha'
  entered pid p net hpres hp hnet := by
    obtain ⟨q, hq, hsame⟩ := hs.heap pid p hp
    rw [hsame.allowedIps] at hnet
    rw [hs.peersByIp]
    exact h.entered pid q net (hs.present.mp hpres) hq hnet

theorem Routes.old (h : Routes d) (hpres : d.Present pid) : pid ≠ d.heapSize := by
  obtain ⟨key, hk⟩ := hpres
  exact Nat.ne_of_lt (h.live key pid hk).1

theorem Routes.peer_adds (h : Routes d) (ha : Adds d d' key ips p) (hpres : d'.Present pid)
    (hq : d'.heap pid = some q) :
    (pid = d.heapSize ∧ q = p) ∨ (pid ≠ d.heapSize ∧ d.Present pid ∧ d.heap pid = some q) := by
  rw [ha.heap] at hq
  rcases ha.present.mp hpres with rfl | hold
  · rw [Function.update_self] at hq
    exact .inl ⟨rfl, (Option.some.inj hq).symm⟩
  · have hne := h.old hold
    rw [Function.update_of_ne hne] at hq
    exact .inr ⟨hne, hold, hq⟩

theorem Routes.adds (h : Routes d) (ha : Adds d d' key ips p) : Routes d' where
  live k pid hk := by
    rw [ha.heapSize, ha.heap]
    rcases ha.present.mp ⟨k, hk⟩ with rfl | ⟨k', hold⟩
    · exact ⟨Nat.lt_succ_self _, p, Function.update_self ..⟩
    · obtain ⟨hlt, q, hq⟩ := h.live k' pid hold
      exact ⟨Nat.lt_succ_of_lt hlt, q, by rw [Function.update_of_ne (Nat.ne_of_lt hlt), hq]⟩
  once k k' pid hk hk' := by
    rw [ha.peers] at hk hk'
    by_cases hkey : k = key <;> by_cases hkey' : k' = key
    · rw [hkey, hkey']
    · rw [hkey, AList.lookup_insert] at hk
      rw [AList.lookup_insert_ne hkey'] at hk'
      exact absurd (Option.some.inj hk).symm (h.old ⟨k', hk'⟩)
    · rw [hkey', AList.lookup_insert] at hk'
      rw [AList.lookup_insert_ne hkey] at hk
      exact absurd (Option.some.inj hk').symm (h.old ⟨k, hk⟩)
    · rw [AList.lookup_insert_ne hkey] at hk
      rw [AList.lookup_insert_ne hkey'] at hk'
      exact h.once k k' pid hk hk'
  entry net pid he := by
    rw [ha.peersByIp, AllowedIps.mem_foldl_insert] at he
    rw [ha.present, ha.heap]
    rcases he with ⟨hpid, hnet⟩ | ⟨_, hold⟩
    · obtain rfl : pid = d.heapSize := hpid
      refine ⟨.inl rfl, p, Function.update_self .., ?_⟩
      rw [ha.allowedIps]
      exact AllowedIps.mem_ofList.mpr hnet
    · obtain ⟨hpres, q, hq, hnet⟩ := h.entry net pid hold
      exact ⟨.inr hpres, q, by rw [Function.update_of_ne (h.old hpres), hq], hnet⟩

/-- No present peer is allowed an address of one of the networks. -/
def Free (d : Device) (ips : List AllowedIP) : Prop :=
  ∀ pid p s, d.Present pid → d.heap pid = some p → p.isAllowedIp s = true →
    ∀ ip ∈ ips, ¬ ip.net.contains s = true

theorem Separate.adds (hr : Routes d) (h : Separate d) (hfree : d.Free ips)
    (ha : Adds d d' key ips p) : Separate d' where
  apart pid pid' q q' s hpres hpres' hq hq' hs hs' := by
    have hnew : ∀ {pid q}, d.Present pid → d.heap pid = some q → q.isAllowedIp s = true →
        ¬ p.isAllowedIp s = true := by
      intro pid q hpres hq hs hps
      obtain ⟨e, he, hc⟩ := Peer.isAllowedIp_iff.mp hps
      rw [ha.allowedIps, AllowedIps.mem_ofList] at he
      obtain ⟨ip, hip, hnet⟩ := he
      exact hfree pid q s hpres hq hs ip hip (hnet ▸ hc)
    rcases hr.peer_adds ha hpres hq with ⟨hpid, rfl⟩ | ⟨_, hold, hheap⟩
    · rcases hr.peer_adds ha hpres' hq' with ⟨hpid', _⟩ | ⟨_, hold', hheap'⟩
      · exact hpid.trans hpid'.symm
      · exact absurd hs (hnew hold' hheap' hs')
    · rcases hr.peer_adds ha hpres' hq' with ⟨_, rfl⟩ | ⟨_, hold', hheap'⟩
      · exact absurd hs' (hnew hold hheap hs)
      · exact h.apart pid pid' q q' s hold hold' hheap hheap' hs hs'
  entered pid q net hpres hq hnet := by
    rw [ha.peersByIp, AllowedIps.mem_foldl_insert]
    rcases hr.peer_adds ha hpres hq with ⟨rfl, rfl⟩ | ⟨_, hold, hheap⟩
    · rw [ha.allowedIps, AllowedIps.mem_ofList] at hnet
      exact .inl ⟨rfl, hnet⟩
    · refine .inr ⟨fun ip hip heq => ?_, h.entered pid q net hold hheap hnet⟩
      -- an equal network would share its own address
      have hc : ip.net.contains ip.addr = true := IpNetwork.contains_newTruncate ip.addr ip.cidr
      have hallowed : q.isAllowedIp ip.addr = true :=
        Peer.isAllowedIp_iff.mpr ⟨_, hnet, heq ▸ hc⟩
      exact hfree pid q ip.addr hold hheap hallowed ip hip hc

theorem Routes.present_remove (h : Routes d) (hl : d.peers.lookup key = some gone)
    (hk : (d.removePeer key).peers.lookup k = some pid) :
    d.peers.lookup k = some pid ∧ pid ≠ gone := by
  rw [removePeer_lookup] at hk
  split at hk
  · cases hk
  · rename_i hne
    refine ⟨hk, ?_⟩
    rintro rfl
    exact hne (h.once k key pid hk hl)

theorem removePeer_none (h : d.peers.lookup key = none) : d.removePeer key = d := by
  simp only [removePeer, h]

theorem mem_removePeer_ips (hl : d.peers.lookup key = some gone) {e : IpNetwork × PeerId} :
    e ∈ (d.removePeer key).peersByIp.ips ↔ e ∈ d.peersByIp.ips ∧ e.2 ≠ gone := by
  simp [removePeer, hl, AllowedIps.remove]

theorem Routes.remove (h : Routes d) (key : Bytes32) : Routes (d.removePeer key) := by
  cases hl : d.peers.lookup key with
  | none =>
    rw [removePeer_none hl]
    exact h
  | some gone =>
    constructor
    · intro k pid hk
      rw [removePeer_heap, removePeer_heapSize]
      exact h.live k pid (h.present_remove hl hk).1
    · intro k k' pid hk hk'
      exact h.once k k' pid (h.present_remove hl hk).1 (h.present_remove hl hk').1
    · intro net pid he
      obtain ⟨he, hne⟩ := (mem_removePeer_ips hl).mp he
      obtain ⟨⟨k, hk⟩, hp⟩ := h.entry net pid he
      rw [removePeer_heap]
      refine ⟨⟨k, ?_⟩, hp⟩
      have hkey : k ≠ key := by
        rintro rfl
        exact hne (Option.some.inj (hk.symm.trans hl))
      rw [removePeer_lookup, if_neg hkey, hk]

theorem Separate.remove (hr : Routes d) (h : Separate d) (key : Bytes32) :
    Separate (d.removePeer key) := by
  cases hl : d.peers.lookup key with
  | none =>
    rw [removePeer_none hl]
    exact h
  | some gone =>
    constructor
    · rintro pid pid' p p' s ⟨k, hk⟩ ⟨k', hk'⟩ hp hp'
      rw [removePeer_heap] at hp hp'
      exact h.apart pid pid' p p' s ⟨k, (hr.present_remove hl hk).1⟩
        ⟨k', (hr.present_remove hl hk').1⟩ hp hp'
    · rintro pid p net ⟨k, hk⟩ hp hnet
      rw [removePeer_heap] at hp
      obtain ⟨hk, hne⟩ := hr.present_remove hl hk
      exact (mem_removePeer_ips hl).mpr ⟨h.entered pid p net ⟨k, hk⟩ hp hnet, hne⟩

def KeepsApart (d : Device) : Event → Prop
  | .updatePeer _ false _ ips => d.Free ips
  | _ => True

theorem Routes.kept (h : Routes d) (hs : d.step prim e = some d') : Routes d' := by
  rcases step_maps hs with hsame | ⟨key, _, ips, p, _, ha⟩ | ⟨key, _, _, _, rfl⟩ | ⟨_, rfl⟩
  · exact h.same hsame
  · exact h.adds ha
  · exact h.remove key
  · constructor
    · rintro _ _ ⟨⟩
    · rintro _ _ _ ⟨⟩
    · rintro _ _ ⟨⟩

theorem Separate.kept (hr : Routes d) (h : Separate d) (hk : d.KeepsApart e)
    (hs : d.step prim e = some d') : Separate d' := by
  rcases step_maps hs with hsame | ⟨key, _, ips, p, rfl, ha⟩ | ⟨key, _, _, _, rfl⟩ | ⟨_, rfl⟩
  · exact h.same hsame
  · exact h.adds hr hk ha
  · exact h.remove hr key
  · constructor
    · rintro _ _ _ _ _ ⟨_, ⟨⟩⟩
    · rintro _ _ _ ⟨_, ⟨⟩⟩

theorem Routes.free (h : Routes d) (hr : d'.Routed) (ha : Adds d d' key ips p) : d.Free ips := by
  intro pid q s hpres hq hs ip hip hc
  have hne := h.old hpres
  have hold : d'.peersByIp.find s = some pid := by
    refine (hr pid q s (ha.present.mpr (.inr hpres)) ?_).mp hs
    rw [ha.heap, Function.update_of_ne hne, hq]
  have hnew : d'.peersByIp.find s = some d.heapSize := by
    refine (hr d.heapSize p s (ha.present.mpr (.inl rfl)) ?_).mp ?_
    · rw [ha.heap, Function.update_self]
    · refine Peer.isAllowedIp_iff.mpr ⟨(ip.net, ()), ?_, hc⟩
      rw [ha.allowedIps]
      exact AllowedIps.mem_ofList.mpr ⟨ip, hip, rfl⟩
  exact hne (Option.some.inj (hold.symm.trans hnew))

theorem routes_init (config : PaymentConfig) (nextIndex : IndexLfsr) :
    Routes (init config nextIndex) ∧ Separate (init config nextIndex) := by
  refine ⟨⟨?_, ?_, ?_⟩, ?_, ?_⟩
  · rintro _ _ ⟨⟩
  · rintro _ _ _ ⟨⟩
  · rintro _ _ ⟨⟩
  · rintro _ _ _ _ _ ⟨_, ⟨⟩⟩
  · rintro _ _ _ ⟨_, ⟨⟩⟩

/-- The tables agree all through a run exactly when every addition in it
shares no address with a peer that is present. -/
theorem routed_iff (config : PaymentConfig) (nextIndex : IndexLfsr)
    (he : exec (step prim) (init config nextIndex) es = some d) :
    (∀ pre post d', es = pre ++ post → exec (step prim) (init config nextIndex) pre = some d' →
        Routed d') ↔
      Along (step prim) KeepsApart (init config nextIndex) es := by
  obtain ⟨hr, hsep⟩ := routes_init config nextIndex
  constructor
  · intro h
    refine along_iff_at.mpr fun pre e post t hsplit ht => ?_
    subst hsplit
    have ht' : exec (step prim) (init config nextIndex) (pre ++ [e] ++ post) = some d := by
      rw [List.append_assoc]
      exact he
    obtain ⟨t', hpre, _⟩ := (exec_append_some _).mp ht'
    obtain ⟨t₁, ht₁, hlast⟩ := (exec_append_some _).mp hpre
    obtain rfl := Option.some.inj (ht.symm.trans ht₁)
    obtain ⟨t₂, hstep, hnil⟩ := (exec_cons_some _).mp hlast
    obtain rfl : t₂ = t' := Option.some.inj hnil
    have hroutes : Routes t := invariant_run (fun _ _ _ hi hs => Routes.kept hi hs) hr ht
    cases e with
    | updatePeer key remove endpoint ips =>
      cases remove with
      | true => trivial
      | false =>
        obtain ⟨p, ha⟩ := updatePeer_adds hstep
        exact hroutes.free (h (pre ++ [_]) post t₂ (by simp) hpre) ha
    | _ => trivial
  · intro hc pre post d' hsplit hd'
    subst hsplit
    have hinv : Routes d' ∧ Separate d' :=
      invariant (I := fun d => Routes d ∧ Separate d)
        (fun d e d' hi hk hs => ⟨hi.1.kept hs, hi.2.kept hi.1 hk hs⟩) ⟨hr, hsep⟩
        (along_append.mp hc).1 hd'
    exact hinv.2.routed hinv.1

/-- Two peers, the networks of the second one inside those of the first. -/
def nested (ips : List AllowedIP) : List Event :=
  [.setKey sampleKey, .updatePeer (beArray 32 7) false none [⟨.v4 (.new 10 0 0 0), 8⟩],
    .updatePeer (beArray 32 9) false none ips]

theorem nested_runs (ips : List AllowedIP) :
    (exec (step samplePrimitives) (init sampleConfig.toPaymentConfig sampleIndex)
      (nested ips)).isSome := rfl

def nestedDevice (ips : List AllowedIP) : Device :=
  (exec (step samplePrimitives) (init sampleConfig.toPaymentConfig sampleIndex) (nested ips)).get
    (nested_runs ips)

theorem exec_nested (ips : List AllowedIP) :
    exec (step samplePrimitives) (init sampleConfig.toPaymentConfig sampleIndex) (nested ips) =
      some (nestedDevice ips) :=
  (Option.some_get (nested_runs ips)).symm

theorem routed_iff_sample :
    let ips : List AllowedIP := [⟨.v4 (.new 192 168 0 0), 16⟩]
    let start := init sampleConfig.toPaymentConfig sampleIndex
    (∀ pre post d', nested ips = pre ++ post →
        exec (step samplePrimitives) start pre = some d' → Routed d') ↔
      Along (step samplePrimitives) KeepsApart start (nested ips) :=
  routed_iff _ _ (exec_nested _)

/-- 10.1.0.1 may come from the peer of 10.0.0.0/8, and goes to the one of
10.1.0.0/16. -/
theorem nested_not_routed :
    let d := nestedDevice [⟨.v4 (.new 10 1 0 0), 16⟩]
    let s : IpAddr := .v4 (.new 10 1 0 1)
    exec (step samplePrimitives) (init sampleConfig.toPaymentConfig sampleIndex)
        (nested [⟨.v4 (.new 10 1 0 0), 16⟩]) = some d ∧
      d.Present 0 ∧ (∃ p, d.heap 0 = some p ∧ p.isAllowedIp s = true) ∧
      d.peersByIp.find s = some 1 ∧ ¬ d.Routed := by
  intro d s
  have hpres : d.Present 0 := ⟨beArray 32 7, by decide +kernel⟩
  have hsome : (d.heap 0).map (·.isAllowedIp s) = some true := by decide +kernel
  have hfind : d.peersByIp.find s = some 1 := by decide +kernel
  obtain ⟨p, hp, hallowed⟩ := Option.map_eq_some_iff.mp hsome
  refine ⟨exec_nested _, hpres, ⟨p, hp, hallowed⟩, hfind, fun h => ?_⟩
  have hroute := (h 0 p s hpres hp).mp hallowed
  rw [hfind] at hroute
  cases hroute

end Device

end Xelt.Boringtun
