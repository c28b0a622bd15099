import Xelt.Boringtun.Noise.Cookies

/-!
# A flood of handshake messages

What the limiter lets through on the first MAC alone, over any calls made of it.
That MAC anyone can compute who knows the public key of the device, so this is
the work that strangers can make it do; a message that shows the cookie of its
address is not counted. The limiter looks at the clock only when it is reset,
and that leaves two partial periods at the ends of a stretch of time.
-/

namespace Xelt.Boringtun.Noise.Crypto.RateLimiter

open Bytes Runs

variable (p : CookiePrimitives)

def LimiterCall.now : LimiterCall → Nat
  | .resetCount now => now
  | .verifyPacket _ _ _ now => now

/-- The second MAC of a datagram is made with the cookie of its address. -/
def showsCookie (r : RateLimiter) (srcAddr : Option IpAddr) (src : Bytes) (now : Nat) : Bool :=
  match srcAddr with
  | none => false
  | some addr => (p.b2sKeyedMac16_2 (r.currentCookie p addr now) (src.take (src.length - 32))
      ((src.drop (src.length - 32)).take 16)).toList = (src.drop (src.length - 32)).drop 16

def step (r : RateLimiter) (c : LimiterCall) : Option RateLimiter := some (r.call p c)

def withoutCookie (r : RateLimiter) (srcAddr : Option IpAddr) (src : Bytes) (now : Nat) :
    Except Rejection Packet → List Packet
  | .ok packet =>
    if packet.senderIdx.isSome ∧ r.showsCookie p srcAddr src now = false then [packet] else []
  | .error _ => []

/-- The handshake message that a call lets through on its first MAC alone. -/
def admissions (r : RateLimiter) : LimiterCall → List Packet
  | .resetCount _ => []
  | .verifyPacket srcAddr src dst now =>
    r.withoutCookie p srcAddr src now (r.verifyPacket p srcAddr src dst now).2

/-- How many it may still let through before the next reset. -/
def room (r : RateLimiter) : Nat := r.limit.toNat - r.count.toNat

variable {p} {r r' : RateLimiter}

/-- A message is counted before it is let through. -/
structure Spends (r r' : RateLimiter) (admitted : Nat) : Prop where
  limit : r'.limit = r.limit
  lastReset : r'.lastReset = r.lastReset
  count : r'.count.toNat ≤ r.count.toNat + 1
  room : admitted + r'.room ≤ r.room

theorem Spends.refl (r : RateLimiter) : Spends r r 0 :=
  ⟨rfl, rfl, Nat.le_succ _, Nat.le_of_eq (Nat.zero_add _)⟩

theorem isUnderLoad_count (h : r.count.toNat + 1 < 2 ^ 64) :
    r.isUnderLoad.1.count.toNat = r.count.toNat + 1 := by
  change (r.count + 1).toNat = _
  rw [UInt64.toNat_add]
  exact Nat.mod_eq_of_lt h

theorem isUnderLoad_spends (h : r.count.toNat + 1 < 2 ^ 64) : Spends r r.isUnderLoad.1 0 := by
  have hcount := isUnderLoad_count h
  refine ⟨rfl, rfl, Nat.le_of_eq hcount, ?_⟩
  rw [room, room, hcount]
  change 0 + (r.limit.toNat - _) ≤ _
  omega

/-- Without load one more is let through, and there was room for it. -/
theorem idle_spends (h : r.count.toNat + 1 < 2 ^ 64) (hidle : r.isUnderLoad.2 = false) :
    Spends r r.isUnderLoad.1 1 := by
  have hcount := isUnderLoad_count h
  have hlt : r.count.toNat < r.limit.toNat := by
    simpa [isUnderLoad, UInt64.lt_iff_toNat_lt] using hidle
  refine ⟨rfl, rfl, Nat.le_of_eq hcount, ?_⟩
  rw [room, room, hcount]
  change 1 + (r.limit.toNat - _) ≤ _
  omega

theorem formatCookieReply_spends (h : Spends r r' admitted) (idx : UInt32) (cookie : ByteArr 16)
    (mac1 : Bytes) (dst : Nat) :
    Spends r (r'.formatCookieReply p idx cookie mac1 dst).1 admitted := by
  unfold formatCookieReply
  split
  · exact h
  · exact ⟨h.limit, h.lastReset, h.count, h.room⟩

theorem admissions_length (r : RateLimiter) (c : LimiterCall) :
    (r.admissions p c).length ≤ 1 := by
  unfold admissions
  split
  · exact Nat.zero_le _
  · unfold withoutCookie
    split
    · split <;> simp
    · exact Nat.zero_le _

/-- A message is turned away, or there was room for it, or it shows a cookie. -/
theorem verifyMacs_spends (h : r.count.toNat + 1 < 2 ^ 64)
    (hres : r.verifyMacs p srcAddr packet senderIdx msg mac1 mac2 dst now = (r', res)) :
    (Spends r r' 0 ∧ ∃ e, res = .error e) ∨ Spends r r' 1 ∨
      (Spends r r' 0 ∧ ∃ addr, srcAddr = some addr ∧
        (p.b2sKeyedMac16_2 (r.currentCookie p addr now) msg mac1).toList = mac2) := by
  unfold verifyMacs at hres
  split at hres
  · cases hres
    exact .inl ⟨.refl r, _, rfl⟩
  · cases hload : r.isUnderLoad.2 with
    | false =>
      rw [hload, if_neg Bool.false_ne_true] at hres
      cases hres
      exact .inr (.inl (idle_spends h hload))
    | true =>
      have hloaded := isUnderLoad_spends h
      rw [hload, if_pos rfl] at hres
      cases srcAddr with
      | none =>
        cases hres
        exact .inl ⟨hloaded, _, rfl⟩
      | some addr =>
        dsimp only at hres
        split at hres
        · have hreply := formatCookieReply_spends (p := p) hloaded senderIdx
            (r.currentCookie p addr now) mac1 dst
          split at hres <;>
            (rename_i heq; cases hres; rw [heq] at hreply; exact .inl ⟨hreply, _, rfl⟩)
        · rename_i hmac2
          cases hres
          exact .inr (.inr ⟨hloaded, addr, rfl, not_not.mp hmac2⟩)

theorem verifyPacket_spends (h : r.count.toNat + 1 < 2 ^ 64) (srcAddr : Option IpAddr)
    (src : Bytes) (dst now : Nat) : Spends r (r.verifyPacket p srcAddr src dst now).1
      (r.admissions p (.verifyPacket srcAddr src dst now)).length := by
  have hone := admissions_length (p := p) r (.verifyPacket srcAddr src dst now)
  rw [admissions] at hone ⊢
  cases hres : r.verifyPacket p srcAddr src dst now with
  | mk r' res =>
    rw [hres] at hone
    rw [verifyPacket_eq] at hres
    split at hres
    · cases hres
      exact .refl r
    · split at hres
      · rename_i hidx
        cases hres
        simpa [withoutCookie, hidx] using Spends.refl r
      · rcases verifyMacs_spends h hres with ⟨hspends, e, rfl⟩ | hspends |
          ⟨hspends, addr, rfl, hmac2⟩
        · exact hspends
        · exact ⟨hspends.limit, hspends.lastReset, hspends.count,
            le_trans (Nat.add_le_add_right hone _) hspends.room⟩
        · -- under load only a cookie helps
          have hshows : r.showsCookie p (some addr) src now = true := by
            simpa [showsCookie] using hmac2
          cases res with
          | error e => exact hspends
          | ok packet => simpa [withoutCookie, hshows] using hspends

/-- From a reset on, every further reset is a period later. -/
theorem admitted_room (calls : List LimiterCall) (hstop : ∀ c ∈ calls, c.now ≤ stop)
    (hfew : r.count.toNat + calls.length < 2 ^ 64) :
    (trace (step p) (admissions p) r calls).length ≤
      r.room + r.limit.toNat * ((stop - r.lastReset) / 10 ^ 9) := by
  induction calls generalizing r with
  | nil => exact Nat.zero_le _
  | cons c calls ih =>
    have hrest := fun c hc => hstop c (List.mem_cons_of_mem _ hc)
    rw [List.length_cons] at hfew
    rw [trace_cons_some rfl, List.length_append]
    cases c with
    | resetCount now =>
      have hnow : now ≤ stop := hstop _ List.mem_cons_self
      change 0 + (trace (step p) (admissions p) (r.resetCount now) calls).length ≤ _
      rw [Nat.zero_add, resetCount]
      split
      · rename_i hperiod
        have hlater := ih (r := { r with count := 0, lastReset := now }) hrest
          (by change 0 + _ < _; omega)
        have hperiods : (stop - now) / 10 ^ 9 + 1 ≤ (stop - r.lastReset) / 10 ^ 9 := by
          rw [resetPeriod] at hperiod
          omega
        calc (trace (step p) (admissions p) { r with count := 0, lastReset := now } calls).length
          _ ≤ r.limit.toNat + r.limit.toNat * ((stop - now) / 10 ^ 9) := hlater
          _ = r.limit.toNat * ((stop - now) / 10 ^ 9 + 1) := by rw [Nat.mul_succ, Nat.add_comm]
          _ ≤ r.limit.toNat * ((stop - r.lastReset) / 10 ^ 9) := Nat.mul_le_mul_left _ hperiods
          _ ≤ _ := Nat.le_add_left _ _
      · exact ih hrest (by omega)
    | verifyPacket srcAddr src dst now =>
      have hspends := verifyPacket_spends (p := p) (r := r) (by omega) srcAddr src dst now
      have hlater := ih (r := (r.verifyPacket p srcAddr src dst now).1) hrest
        (by have hcount := hspends.count; omega)
      rw [hspends.limit, hspends.lastReset] at hlater
      have hroom := hspends.room
      change _ + (trace (step p) (admissions p) (r.verifyPacket p srcAddr src dst now).1
        calls).length ≤ _
      omega

/-- The same from any state of the limiter, however long ago it was reset. -/
theorem admitted_within (calls : List LimiterCall)
    (hwithin : ∀ c ∈ calls, start ≤ c.now ∧ c.now ≤ start + lasting)
    (hfew : r.count.toNat + calls.length < 2 ^ 64) :
    (trace (step p) (admissions p) r calls).length ≤
      r.room + r.limit.toNat * (lasting / 10 ^ 9 + 1) := by
  induction calls generalizing r with
  | nil => exact Nat.zero_le _
  | cons c calls ih =>
    have hrest := fun c hc => hwithin c (List.mem_cons_of_mem _ hc)
    rw [List.length_cons] at hfew
    rw [trace_cons_some rfl, List.length_append]
    cases c with
    | resetCount now =>
      have hnow : start ≤ now := (hwithin _ List.mem_cons_self).1
      change 0 + (trace (step p) (admissions p) (r.resetCount now) calls).length ≤ _
      rw [Nat.zero_add, resetCount]
      split
      · have hlater := admitted_room (p := p) (r := { r with count := 0, lastReset := now }) calls
          (fun c hc => (hrest c hc).2) (by change 0 + _ < _; omega)
        have hperiods : (start + lasting - now) / 10 ^ 9 ≤ lasting / 10 ^ 9 :=
          Nat.div_le_div_right (by omega)
        calc (trace (step p) (admissions p) { r with count := 0, lastReset := now } calls).length
          _ ≤ r.limit.toNat + r.limit.toNat * ((start + lasting - now) / 10 ^ 9) := hlater
          _ ≤ r.limit.toNat + r.limit.toNat * (lasting / 10 ^ 9) :=
            Nat.add_le_add_left (Nat.mul_le_mul_left _ hperiods) _
          _ = r.limit.toNat * (lasting / 10 ^ 9 + 1) := by rw [Nat.mul_succ, Nat.add_comm]
          _ ≤ _ := Nat.le_add_left _ _
      · exact ih hrest (by omega)
    | verifyPacket srcAddr src dst now =>
      have hspends := verifyPacket_spends (p := p) (r := r) (by omega) srcAddr src dst now
      have hlater := ih (r := (r.verifyPacket p srcAddr src dst now).1) hrest
        (by have hcount := hspends.count; omega)
      rw [hspends.limit] at hlater
      have hroom := hspends.room
      change _ + (trace (step p) (admissions p) (r.verifyPacket p srcAddr src dst now).1
        calls).length ≤ _
      omega

/-- No more calls were counted than were made. -/
theorem exec_count {calls : List LimiterCall} (he : exec (step p) r calls = some r')
    (hfew : r.count.toNat + calls.length < 2 ^ 64) :
    r'.limit = r.limit ∧ r'.count.toNat ≤ r.count.toNat + calls.length := by
  induction calls generalizing r with
  | nil =>
    cases he
    exact ⟨rfl, Nat.le_refl _⟩
  | cons c calls ih =>
    rw [List.length_cons] at hfew ⊢
    obtain ⟨next, hs, he⟩ := (exec_cons_some (step p)).mp he
    obtain rfl := Option.some.inj hs
    have hcall : (r.call p c).limit = r.limit ∧ (r.call p c).count.toNat ≤ r.count.toNat + 1 := by
      cases c with
      | resetCount now =>
        simp only [call, resetCount]
        split
        · exact ⟨rfl, Nat.zero_le _⟩
        · exact ⟨rfl, Nat.le_succ _⟩
      | verifyPacket srcAddr src dst now =>
        have hspends := verifyPacket_spends (p := p) (r := r) (by omega) srcAddr src dst now
        exact ⟨hspends.limit, hspends.count⟩
    obtain ⟨hlimit, hcount⟩ := ih he (by have hstep := hcall.2; omega)
    refine ⟨hlimit.trans hcall.1, ?_⟩
    have hstep := hcall.2
    omega

/-- Whatever was sent to a limiter before, and whatever is sent to it in a stretch
of time: it lets no more messages without a cookie through than its limit for
each whole second of it and twice more; and from when it was made on, than its
limit for each whole second and once more. -/
theorem flood_bounded (p : CookiePrimitives) (publicKey : Bytes32) (limit : UInt64)
    (secretKey : ByteArr 16) (nonceKey : Bytes32) (created : Nat)
    (before later : List LimiterCall) (start lasting stop : Nat)
    (he : exec (step p) (new p publicKey limit secretKey nonceKey created) before = some r)
    (hfew : before.length + later.length < 2 ^ 64) :
    ((∀ c ∈ later, start ≤ c.now ∧ c.now ≤ start + lasting) →
      (trace (step p) (admissions p) r later).length ≤
        limit.toNat * (lasting / 10 ^ 9 + 2)) ∧
    ((∀ c ∈ before ++ later, c.now ≤ stop) →
      (trace (step p) (admissions p) (new p publicKey limit secretKey nonceKey created)
        (before ++ later)).length ≤ limit.toNat * ((stop - created) / 10 ^ 9 + 1)) := by
  obtain ⟨hlimit, hcount⟩ := exec_count he (by change 0 + _ < _; omega)
  change r.count.toNat ≤ 0 + before.length at hcount
  constructor
  · intro hwithin
    have hroom : r.room ≤ r.limit.toNat := Nat.sub_le ..
    calc (trace (step p) (admissions p) r later).length
      _ ≤ r.room + r.limit.toNat * (lasting / 10 ^ 9 + 1) :=
        admitted_within later hwithin (by omega)
      _ ≤ r.limit.toNat + r.limit.toNat * (lasting / 10 ^ 9 + 1) :=
        Nat.add_le_add_right hroom _
      _ = r.limit.toNat * (lasting / 10 ^ 9 + 2) := by rw [Nat.mul_succ _ (_ + 1), Nat.add_comm]
      _ = limit.toNat * (lasting / 10 ^ 9 + 2) := by rw [hlimit]; rfl
  · intro hstop
    have hall := admitted_room (p := p)
      (r := new p publicKey limit secretKey nonceKey created) (before ++ later) hstop
      (by rw [List.length_append]; change 0 + _ < _; omega)
    calc (trace (step p) (admissions p) (new p publicKey limit secretKey nonceKey created)
        (before ++ later)).length
      _ ≤ limit.toNat + limit.toNat * ((stop - created) / 10 ^ 9) := hall
      _ = limit.toNat * ((stop - created) / 10 ^ 9 + 1) := by rw [Nat.mul_succ, Nat.add_comm]

/-- Two messages are let through within a second, and a third is not. -/
def sampleFlood : List LimiterCall :=
  [.verifyPacket none sampleMessage 64 (5 * 10 ^ 8), .resetCount (10 ^ 9),
    .verifyPacket none sampleMessage 64 (12 * 10 ^ 8),
    .verifyPacket none sampleMessage 64 (13 * 10 ^ 8)]

theorem sampleFlood_admitted : (trace (step sampleCookiePrimitives)
    (admissions sampleCookiePrimitives) (new sampleCookiePrimitives (beArray 32 9) 1
      (beArray 16 77) (beArray 32 78) 0) sampleFlood).length = 2 := by
  decide +kernel

theorem flood_bounded_sample : ∃ admitted, (trace (step sampleCookiePrimitives)
    (admissions sampleCookiePrimitives) (new sampleCookiePrimitives (beArray 32 9) 1
      (beArray 16 77) (beArray 32 78) 0) sampleFlood).length = admitted ∧
    admitted ≤ 1 * (8 * 10 ^ 8 / 10 ^ 9 + 2) ∧ admitted = 2 := by
  obtain ⟨hwithin, -⟩ := flood_bounded sampleCookiePrimitives (beArray 32 9) 1 (beArray 16 77)
    (beArray 32 78) 0 [] sampleFlood (5 * 10 ^ 8) (8 * 10 ^ 8) 0 rfl (by decide)
  exact ⟨_, rfl, hwithin (by decide), sampleFlood_admitted⟩

end Xelt.Boringtun.Noise.Crypto.RateLimiter
