import Xelt.Boringtun.Noise.Tunn

/-!
# Inner packets through the tunnel

Whatever inner packets are weighed by, the tunnel makes no weight of its own:
what a call queues and writes was queued before or was its argument. The
destination buffer must hold a handshake initiation, as every buffer of the
device does; with a smaller one a failed call queues its packet twice.
-/

namespace Xelt.Boringtun.Noise

/-- The weight of the inner packet a datagram carries. -/
def Datagram.weight (w : InnerPacket → Nat) : Datagram → Nat
  | .data _ inner => w inner
  | .handshakeInit | .handshakeResponse => 0

def TunnResult.weight (w : InnerPacket → Nat) : TunnResult → Nat
  | .writeToNetwork datagram => datagram.weight w
  | _ => 0

namespace Tunn

/-- The weight of the packets waiting for a session. -/
def queued (w : InnerPacket → Nat) (t : Tunn) : Nat := (t.packetQueue.map w).sum

variable {w : InnerPacket → Nat}

@[simp] theorem queued_new : queued w .new = 0 := rfl

@[simp] theorem queued_storeSession (t : Tunn) : queued w (t.storeSession s) = queued w t := rfl

@[simp] theorem queued_setCurrentSession (t : Tunn) :
    queued w (t.setCurrentSession i) = queued w t := by
  unfold setCurrentSession
  split
  · rfl
  · split <;> rfl

@[simp] theorem queued_setStaticPrivate (t : Tunn) :
    queued w t.setStaticPrivate = queued w t := rfl

@[simp] theorem handshakeInitiation_queued (t : Tunn) :
    queued w (t.formatHandshakeInitiation dst force).1 = queued w t := by
  unfold formatHandshakeInitiation
  split
  · rfl
  · split <;> rfl

theorem handshakeInitiation_weight (t : Tunn) :
    (t.formatHandshakeInitiation dst force).2.weight w = 0 := by
  unfold formatHandshakeInitiation
  split
  · rfl
  · split <;> rfl

theorem handshakeInitiation_ne_err (t : Tunn) (hd : handshakeInitSz ≤ dst) :
    (t.formatHandshakeInitiation dst force).2 ≠ .err e := by
  unfold formatHandshakeInitiation
  split
  · simp
  · rw [if_neg (by omega)]; simp

theorem queuePacket_queued (t : Tunn) : queued w (t.queuePacket src) ≤ queued w t + w src := by
  unfold queuePacket
  split
  · simp [queued]
  · omega

theorem encapsulate_flow (t : Tunn) (src : InnerPacket) (dst : Nat) :
    queued w (t.encapsulate src dst).1 + (t.encapsulate src dst).2.weight w ≤
      queued w t + w src := by
  unfold encapsulate
  split
  · simp [TunnResult.weight, Datagram.weight]
  · rw [handshakeInitiation_queued, handshakeInitiation_weight]
    exact queuePacket_queued t

theorem encapsulate_ne_err (t : Tunn) (hd : handshakeInitSz ≤ dst) :
    (t.encapsulate src dst).2 ≠ .err e := by
  unfold encapsulate
  split
  · simp
  · exact handshakeInitiation_ne_err _ hd

theorem sendQueuedPacket_flow (t : Tunn) (hd : handshakeInitSz ≤ dst) :
    queued w (t.sendQueuedPacket dst).1 + (t.sendQueuedPacket dst).2.weight w ≤ queued w t := by
  unfold sendQueuedPacket
  split
  · simp [TunnResult.weight]
  · rename_i packet rest hq
    have hflow := encapsulate_flow (w := w) { t with packetQueue := rest } packet dst
    have hq' : queued w { t with packetQueue := rest } + w packet = queued w t := by
      simp [queued, hq]; omega
    split
    · rename_i t' e he
      exact absurd (congrArg Prod.snd he) (encapsulate_ne_err _ hd)
    · omega

theorem flush_flow (hd : handshakeInitSz ≤ dst) (fuel : Nat) (t : Tunn) :
    queued w (flush fuel t dst).1 + ((flush fuel t dst).2.map (·.weight w)).sum ≤ queued w t := by
  induction fuel generalizing t with
  | zero => simp [flush]
  | succ fuel ih =>
    have hsend := sendQueuedPacket_flow (w := w) t hd
    simp only [flush]
    split
    · rename_i t' datagram hs
      rw [hs] at hsend
      have := ih t'
      simp only [TunnResult.weight] at hsend
      simp only [List.map_cons, List.sum_cons]
      omega
    · rename_i t' r hr hs
      rw [hs] at hsend
      have : queued w t' ≤ queued w t := le_trans (Nat.le_add_right ..) hsend
      simpa using this

theorem handleVerifiedPacket_queued (t : Tunn) (packet : Packet) :
    queued w (t.handleVerifiedPacket packet).1 = queued w t := by
  cases packet with
  | handshakeInit peer session => cases session <;> rfl
  | handshakeResponse idx session =>
    cases session with
    | error e => rfl
    | ok r => simp only [handleVerifiedPacket, queued_setCurrentSession, queued_storeSession]; rfl
  | cookieReply idx accepted => cases accepted <;> rfl
  | data idx opened =>
    simp only [handleVerifiedPacket]
    split
    · rfl
    · split
      · rfl
      · cases opened <;> simp

theorem handleVerifiedPacket_weight (hk : w ⟨[], .keepalive⟩ = 0) (t : Tunn) (packet : Packet) :
    (t.handleVerifiedPacket packet).2.weight w = 0 := by
  have hv (b : Bytes) : (validateDecapsulatedPacket b).weight w = 0 := by
    unfold validateDecapsulatedPacket
    simp only
    repeat' split
    all_goals rfl
  cases packet with
  | handshakeInit peer session => cases session <;> rfl
  | handshakeResponse idx session =>
    cases session with
    | error e => rfl
    | ok r => exact hk
  | cookieReply idx accepted => cases accepted <;> rfl
  | data idx opened =>
    simp only [handleVerifiedPacket]
    split
    · rfl
    · split
      · rfl
      · cases opened with
        | error e => rfl
        | ok inner => exact hv inner

theorem updateTimers_flow (dst : Nat) (hk : w ⟨[], .keepalive⟩ = 0) (t : Tunn)
    (outcome : TimerOutcome) :
    queued w (t.updateTimers dst outcome).1 + (t.updateTimers dst outcome).2.weight w ≤
      queued w t := by
  cases outcome with
  | readClock timeNow => exact Nat.le_refl _
  | expireSessions slots => exact Nat.le_refl _
  | connectionExpired => exact Nat.zero_le _
  | handshakeRetry => simp [updateTimers, handshakeInitiation_weight]
  | keepalive =>
    have := encapsulate_flow (w := w) t ⟨[], .keepalive⟩ dst
    rw [hk] at this
    exact this

/-- A packet handed on is as long as its own header says, so its length fits
the counters. -/
theorem validate_v4_length (h : validateDecapsulatedPacket b = .writeToTunnelV4 packet src) :
    packet.length < 65536 := by
  have hr := Bytes.readBe_lt ((b.drop 2).take 2)
  have hl : ((b.drop 2).take 2).length ≤ 2 := List.length_take_le ..
  have hp := Nat.pow_le_pow_right (n := 256) (by omega) hl
  unfold validateDecapsulatedPacket at h
  simp only at h
  repeat' split at h
  all_goals simp only [reduceCtorEq, TunnResult.writeToTunnelV4.injEq] at h
  obtain ⟨rfl, -⟩ := h
  rw [List.length_take]
  omega

theorem validate_v6_length (h : validateDecapsulatedPacket b = .writeToTunnelV6 packet src) :
    packet.length < 65576 := by
  have hr := Bytes.readBe_lt ((b.drop 4).take 2)
  have hl : ((b.drop 4).take 2).length ≤ 2 := List.length_take_le ..
  have hp := Nat.pow_le_pow_right (n := 256) (by omega) hl
  unfold validateDecapsulatedPacket at h
  simp only at h
  repeat' split at h
  all_goals simp only [reduceCtorEq, TunnResult.writeToTunnelV6.injEq] at h
  obtain ⟨rfl, -⟩ := h
  rw [List.length_take, ipv6MinHeaderSize]
  omega

theorem handleVerifiedPacket_tunnel {t : Tunn}
    (h : (t.handleVerifiedPacket packet).2 = r)
    (hr : (∃ b s, r = .writeToTunnelV4 b s) ∨ ∃ b s, r = .writeToTunnelV6 b s) :
    ∃ inner, validateDecapsulatedPacket inner = r := by
  cases packet with
  | handshakeInit peer session => cases session <;> subst h <;> simp [handleVerifiedPacket] at hr
  | handshakeResponse idx session =>
    cases session <;> subst h <;> simp [handleVerifiedPacket] at hr
  | cookieReply idx accepted => cases accepted <;> subst h <;> simp [handleVerifiedPacket] at hr
  | data idx opened =>
    simp only [handleVerifiedPacket] at h
    split at h
    · subst h; simp at hr
    · split at h
      · subst h; simp at hr
      · cases opened with
        | error e => subst h; simp at hr
        | ok inner => exact ⟨inner, h⟩

end Tunn

end Xelt.Boringtun.Noise
