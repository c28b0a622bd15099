import Xelt.Boringtun.Device.Routing

/-!
# Connected sockets

A datagram reaches a peer by the maps of the device or by the connected socket
of the peer, whose handler holds the peer object itself. Removing one peer
closes its socket; clearing all of them empties the maps only. So a removed
peer is cut off exactly as long as the table is not cleared while a connected
socket of a peer in it is open.
-/

namespace Xelt.Boringtun

open Bytes Noise Payment Runs

abbrev SockId := Nat

/-- The device with the connected sockets its handlers made. -/
structure Sockets where
  device : Device
  useConnectedSocket : Bool
  /-- `Endpoint.conn` of each peer object. -/
  conn : PeerId → Option SockId
  /-- The peer object that the handler of an open socket holds. -/
  held : SockId → Option PeerId
  opened : Nat

/-- What can happen; opening a connected socket succeeds or fails. -/
inductive SocketsInput
  | udp (env : Env) (addr : SocketAddr) (packet : Packet) (connects : Bool)
  | conn (env : Env) (sock : SockId) (packet : Packet)
  | iface (env : Env) (src : Bytes)
  | timer (pid : PeerId) (outcome : Tunn.TimerOutcome)
  | setKey (privateKey : Bytes32)
  | updatePeer (pubKey : Bytes32) (remove : Bool) (endpoint : Option SocketAddr)
      (allowedIps : List AllowedIP)
  | clearPeers
  | openListenSocket

namespace Sockets

variable (prim : Primitives)

def init (config : PaymentConfig) (nextIndex : IndexLfsr) (useConnectedSocket : Bool) :
    Sockets where
  device := .init config nextIndex
  useConnectedSocket := useConnectedSocket
  conn := fun _ => none
  held := fun _ => none
  opened := 0

def shutdownEndpoint (x : Sockets) (pid : PeerId) : Sockets :=
  match x.conn pid with
  | none => x
  | some sock =>
    { x with
      conn := Function.update x.conn pid none
      held := Function.update x.held sock none }

/-- The socket goes only when the address is another one. -/
def setEndpoint (x : Sockets) (pid : PeerId) (old : Option SocketAddr) (addr : SocketAddr) :
    Sockets :=
  if old ≠ some addr then x.shutdownEndpoint pid else x

def connectEndpoint (x : Sockets) (pid : PeerId) (connects : Bool) : Sockets :=
  if x.useConnectedSocket ∧ x.conn pid = none ∧ connects then
    { x with
      conn := Function.update x.conn pid (some x.opened)
      held := Function.update x.held x.opened (some pid)
      opened := x.opened + 1 }
  else x

/-- The event of the device in an input. A closed socket is not read, and the
timer goes over the table of keys. -/
def event (x : Sockets) : SocketsInput → Option Device.Event
  | .udp env addr packet _ => some (.udp env addr packet)
  | .conn env sock packet => (x.held sock).map fun pid => .conn env pid packet
  | .iface env src => some (.iface env src)
  | .timer pid outcome =>
    if pid ∈ x.device.peers.entries.map (·.2) then some (.timer pid outcome) else none
  | .setKey privateKey => some (.setKey privateKey)
  | .updatePeer pubKey remove endpoint allowedIps =>
    some (.updatePeer pubKey remove endpoint allowedIps)
  | .clearPeers => some .clearPeers
  | .openListenSocket => none

def endpoints (x : Sockets) : SocketsInput → Sockets
  | .udp env addr packet connects =>
    match x.device.findPeer packet with
    | none => x
    | some pid =>
      match x.device.heap pid with
      | none => x
      | some p =>
        match (inbound prim x.device.toPaymentState env p packet).2.2 with
        | .continue => x
        | .after => (x.setEndpoint pid p.endpointAddr addr).connectEndpoint pid connects
  | .timer pid outcome =>
    if pid ∈ x.device.peers.entries.map (·.2) then
      match x.device.heap pid with
      | none => x
      | some p =>
        if p.endpointAddr.isSome ∧
            (p.tunnel.updateTimers maxUdpSize outcome).2 = .err .connectionExpired then
          x.shutdownEndpoint pid
        else x
    else x
  | .updatePeer pubKey true _ _ =>
    match x.device.peers.lookup pubKey with
    | none => x
    | some pid => x.shutdownEndpoint pid
  | .openListenSocket => (x.device.peers.entries.map (·.2)).foldl shutdownEndpoint x
  | .conn .. | .iface .. | .setKey _ | .updatePeer _ false _ _ | .clearPeers => x

def step (x : Sockets) (i : SocketsInput) : Option Sockets :=
  match x.event i with
  | none => some (x.endpoints prim i)
  | some e => (x.device.step prim e).map fun device => { x.endpoints prim i with device }

def effects (x : Sockets) (i : SocketsInput) : List (PeerId × Effect) :=
  match x.event i with
  | none => []
  | some e => x.device.effects prim e

def target (x : Sockets) : SocketsInput → Option PeerId
  | .udp _ _ packet _ => x.device.findPeer packet
  | .conn _ sock _ => x.held sock
  | _ => none

-- ---------------------------------------------------------------------------
-- The sockets
-- ---------------------------------------------------------------------------

/-- Every open socket is the current one of the peer its handler holds. -/
structure Tracks (x : Sockets) : Prop where
  current : ∀ sock pid, x.held sock = some pid → x.conn pid = some sock
  fresh : ∀ sock, x.opened ≤ sock → x.held sock = none

/-- The peers of the open sockets are among those of another state. -/
def Held (x x' : Sockets) : Prop := ∀ sock pid, x'.held sock = some pid → x.held sock = some pid

variable {prim} {x x' : Sockets}

theorem shutdown_held (x : Sockets) (pid : PeerId) : Held x (x.shutdownEndpoint pid) := by
  intro sock target h
  unfold shutdownEndpoint at h
  split at h
  · exact h
  · rename_i closed _
    by_cases hs : sock = closed
    · subst hs
      simp at h
    · simpa [hs] using h

theorem shutdown_gone (h : Tracks x) (pid : PeerId) (sock : SockId) :
    (x.shutdownEndpoint pid).held sock ≠ some pid := by
  intro hheld
  have hconn := h.current sock pid (shutdown_held x pid sock pid hheld)
  simp [shutdownEndpoint, hconn] at hheld

theorem Tracks.shutdown (h : Tracks x) (pid : PeerId) : Tracks (x.shutdownEndpoint pid) := by
  constructor
  · intro sock target hheld
    have hold := h.current sock target (shutdown_held x pid sock target hheld)
    have hne : target ≠ pid := by
      rintro rfl
      exact shutdown_gone h target sock hheld
    unfold shutdownEndpoint
    split
    · exact hold
    · simpa [hne] using hold
  · intro sock hle
    unfold shutdownEndpoint at hle ⊢
    split at hle
    · exact h.fresh sock hle
    · rename_i closed _
      by_cases hs : sock = closed
      · subst hs
        simp
      · simpa [hs] using h.fresh sock hle

theorem Tracks.setEndpoint (h : Tracks x) (pid : PeerId) (old : Option SocketAddr)
    (addr : SocketAddr) : Tracks (x.setEndpoint pid old addr) := by
  unfold Sockets.setEndpoint
  split
  · exact h.shutdown pid
  · exact h

theorem setEndpoint_held (x : Sockets) (pid : PeerId) (old : Option SocketAddr)
    (addr : SocketAddr) : Held x (x.setEndpoint pid old addr) := by
  unfold Sockets.setEndpoint
  split
  · exact shutdown_held x pid
  · exact fun _ _ => id

theorem Tracks.connect (h : Tracks x) (pid : PeerId) (connects : Bool) :
    Tracks (x.connectEndpoint pid connects) := by
  unfold connectEndpoint
  split
  · rename_i hnone
    constructor
    · intro sock target hheld
      by_cases hs : sock = x.opened
      · subst hs
        obtain rfl : pid = target := by simpa using hheld
        simp
      · have hold : x.held sock = some target := by simpa [hs] using hheld
        have hconn := h.current sock target hold
        have hne : target ≠ pid := by
          rintro rfl
          rw [hnone.2.1] at hconn
          cases hconn
        simpa [hne] using hconn
    · intro sock hle
      have hs : sock ≠ x.opened := Nat.ne_of_gt hle
      simpa [hs] using h.fresh sock (Nat.le_of_succ_le hle)
  · exact h

theorem connect_held (x : Sockets) (pid owner : PeerId) (connects : Bool)
    (h : (x.connectEndpoint pid connects).held sock = some owner) :
    x.held sock = some owner ∨ owner = pid := by
  unfold connectEndpoint at h
  split at h
  · by_cases hs : sock = x.opened
    · subst hs
      exact .inr (by simpa using h.symm)
    · exact .inl (by simpa [hs] using h)
  · exact .inl h

theorem shutdownAll_held (pids : List PeerId) : ∀ x, Held x (pids.foldl shutdownEndpoint x) := by
  induction pids with
  | nil => exact fun _ _ _ => id
  | cons pid pids ih =>
    exact fun x sock target h => shutdown_held x pid sock target (ih _ sock target h)

theorem Tracks.shutdownAll (pids : List PeerId) :
    ∀ {x}, Tracks x → Tracks (pids.foldl shutdownEndpoint x) := by
  induction pids with
  | nil => exact fun h => h
  | cons pid pids ih => exact fun h => ih (h.shutdown pid)

theorem Tracks.endpoints (h : Tracks x) (prim : Primitives) (i : SocketsInput) :
    Tracks (x.endpoints prim i) := by
  cases i with
  | udp env addr packet connects =>
    simp only [Sockets.endpoints]
    split
    · exact h
    split
    · exact h
    split
    · exact h
    · exact (h.setEndpoint _ _ _).connect _ _
  | timer pid outcome =>
    simp only [Sockets.endpoints]
    split
    · split
      · exact h
      split
      · exact h.shutdown _
      · exact h
    · exact h
  | updatePeer pubKey remove endpoint allowedIps =>
    cases remove with
    | false => exact h
    | true =>
      simp only [Sockets.endpoints]
      split
      · exact h
      · exact h.shutdown _
  | openListenSocket => exact h.shutdownAll _
  | _ => exact h

theorem endpoints_held (i : SocketsInput) (h : (x.endpoints prim i).held sock = some pid) :
    x.held sock = some pid ∨
      ∃ env addr packet connects, i = .udp env addr packet connects ∧
        x.device.findPeer packet = some pid := by
  cases i with
  | udp env addr packet connects =>
    simp only [Sockets.endpoints] at h
    split at h
    · exact .inl h
    rename_i hfind
    split at h
    · exact .inl h
    split at h
    · exact .inl h
    · rcases connect_held _ _ _ _ h with h | rfl
      · exact .inl (setEndpoint_held x _ _ _ _ _ h)
      · exact .inr ⟨env, addr, packet, connects, rfl, hfind⟩
  | timer pid outcome =>
    simp only [Sockets.endpoints] at h
    split at h
    · split at h
      · exact .inl h
      split at h
      · exact .inl (shutdown_held x _ _ _ h)
      · exact .inl h
    · exact .inl h
  | updatePeer pubKey remove endpoint allowedIps =>
    cases remove with
    | false => exact .inl h
    | true =>
      simp only [Sockets.endpoints] at h
      split at h
      · exact .inl h
      · exact .inl (shutdown_held x _ _ _ h)
  | openListenSocket => exact .inl (shutdownAll_held _ x _ _ h)
  | _ => exact .inl h

end Sockets

-- ---------------------------------------------------------------------------
-- The maps
-- ---------------------------------------------------------------------------

namespace Device

variable {prim : Primitives} {d d' : Device}

/-- The map from indices holds present peers only, each under its own index. -/
def Refers (d : Device) : Prop :=
  ∀ i pid, d.peersByIdx.lookup i = some pid →
    d.Present pid ∧ ∃ p, d.heap pid = some p ∧ p.index = i

theorem Refers.findPeer (h : Refers d) {packet : Packet} (hf : d.findPeer packet = some pid) :
    d.Present pid := by
  cases packet with
  | handshakeInit peerStaticPublic session =>
    obtain ⟨key, _, hkey⟩ := Option.bind_eq_some_iff.mp hf
    exact ⟨key, hkey⟩
  | handshakeResponse receiverIdx session => exact (h _ pid hf).1
  | cookieReply receiverIdx accepted => exact (h _ pid hf).1
  | data receiverIdx opened => exact (h _ pid hf).1

theorem Present.kept (hpres : d.Present pid) (hl : d.peers.lookup key = some gone)
    (hne : pid ≠ gone) : (d.removePeer key).Present pid := by
  obtain ⟨k, hk⟩ := hpres
  have hkey : k ≠ key := by
    rintro rfl
    exact hne (Option.some.inj (hk.symm.trans hl))
  exact ⟨k, by rw [removePeer_lookup, if_neg hkey, hk]⟩

theorem Refers.kept (hr : Routes d) (h : Refers d) (hs : d.step prim e = some d') :
    Refers d' := by
  rcases step_maps hs with hsame | ⟨key, _, ips, p, _, ha⟩ | ⟨key, _, _, _, rfl⟩ | ⟨_, rfl⟩
  · intro i pid hi
    rw [hsame.peersByIdx] at hi
    obtain ⟨hpres, q, hq, hidx⟩ := h i pid hi
    obtain ⟨q', hq', hpeer⟩ := hsame.kept pid q hq
    exact ⟨hsame.present.mpr hpres, q', hq', hpeer.index.trans hidx⟩
  · intro i pid hi
    rw [ha.peersByIdx] at hi
    rw [ha.present, ha.heap]
    by_cases hnew : i = p.index
    · rw [hnew, AList.lookup_insert] at hi
      obtain rfl := Option.some.inj hi
      exact ⟨.inl rfl, p, Function.update_self .., hnew.symm⟩
    · rw [AList.lookup_insert_ne hnew] at hi
      obtain ⟨hpres, q, hq, hidx⟩ := h i pid hi
      exact ⟨.inr hpres, q, by rw [Function.update_of_ne (hr.old hpres), hq], hidx⟩
  · cases hl : d.peers.lookup key with
    | none =>
      rw [removePeer_none hl]
      exact h
    | some gone =>
      obtain ⟨_, p, hp⟩ := hr.live key gone hl
      intro i pid hi
      have hidx : (d.removePeer key).peersByIdx = d.peersByIdx.erase p.index := by
        simp only [removePeer, hl, hp]
      have hne : i ≠ p.index := by
        rintro rfl
        rw [hidx, AList.lookup_erase] at hi
        cases hi
      rw [hidx, AList.lookup_erase_ne hne] at hi
      obtain ⟨hpres, q, hq, he⟩ := h i pid hi
      have hother : pid ≠ gone := by
        rintro rfl
        obtain rfl := Option.some.inj (hp.symm.trans hq)
        exact hne he.symm
      rw [removePeer_heap]
      exact ⟨hpres.kept hl hother, q, hq, he⟩
  · rintro _ _ ⟨⟩

end Device

-- ---------------------------------------------------------------------------
-- Who is reached
-- ---------------------------------------------------------------------------

namespace Sockets

variable {prim : Primitives} {x x' : Sockets}

/-- No datagram is decapsulated for a peer that is not in the table, and
nothing that happens has an effect on it. -/
def CutOff (prim : Primitives) (x : Sockets) : Prop :=
  ∀ pid, ¬ x.device.Present pid → ∀ i, x.target i ≠ some pid ∧
    ∀ eff, (pid, eff) ∉ x.effects prim i

/-- The table is not cleared while a connected socket of a peer in it is open. -/
def Cuts (x : Sockets) : SocketsInput → Prop
  | .clearPeers => ∀ sock pid, x.held sock = some pid → ¬ x.device.Present pid
  | _ => True

/-- What holds in every run. -/
structure Inv (x : Sockets) : Prop where
  routes : x.device.Routes
  refers : x.device.Refers
  tracks : Tracks x

/-- The handlers of the open sockets hold peers in the table. -/
def HoldsPresent (x : Sockets) : Prop :=
  ∀ sock pid, x.held sock = some pid → x.device.Present pid

theorem shutdown_device (x : Sockets) (pid : PeerId) :
    (x.shutdownEndpoint pid).device = x.device := by
  unfold shutdownEndpoint
  split <;> rfl

theorem shutdownAll_device (pids : List PeerId) :
    ∀ x : Sockets, (pids.foldl shutdownEndpoint x).device = x.device := by
  induction pids with
  | nil => exact fun _ => rfl
  | cons pid pids ih => exact fun x => (ih _).trans (shutdown_device x pid)

/-- An input moves the sockets, the device, or both. -/
theorem step_cases (h : x.step prim i = some x') :
    (x.event i = none ∧ x' = x.endpoints prim i) ∨
      ∃ e d', x.event i = some e ∧ x.device.step prim e = some d' ∧
        x' = { x.endpoints prim i with device := d' } := by
  unfold step at h
  split at h
  · rename_i he
    exact .inl ⟨he, (Option.some.inj h).symm⟩
  · rename_i e he
    obtain ⟨d', hd', rfl⟩ := Option.map_eq_some_iff.mp h
    exact .inr ⟨e, d', he, hd', rfl⟩

theorem endpoints_device (prim : Primitives) (h : x.event i = none) :
    (x.endpoints prim i).device = x.device := by
  cases i with
  | conn env sock packet => rfl
  | timer pid outcome =>
    simp only [event] at h
    split at h
    · cases h
    · rename_i habsent
      simp only [endpoints, if_neg habsent]
  | openListenSocket => exact shutdownAll_device _ x
  | _ => cases h

theorem Inv.kept (h : Inv x) (hs : x.step prim i = some x') : Inv x' := by
  rcases step_cases hs with ⟨he, rfl⟩ | ⟨e, d', _, hd', rfl⟩
  · have hdev := endpoints_device prim he
    exact ⟨hdev ▸ h.routes, hdev ▸ h.refers, h.tracks.endpoints prim i⟩
  · have ht := h.tracks.endpoints prim i
    exact ⟨h.routes.kept hd', Device.Refers.kept h.routes h.refers hd', ht.current, ht.fresh⟩

theorem endpoints_remove (he : x.event i = some (.updatePeer key true endpoint ips))
    (hl : x.device.peers.lookup key = some gone) :
    x.endpoints prim i = x.shutdownEndpoint gone := by
  cases i with
  | updatePeer key' remove endpoint' ips' =>
    cases he
    simp only [endpoints, hl]
  | conn env sock packet =>
    obtain ⟨_, _, hc⟩ := Option.map_eq_some_iff.mp he
    cases hc
  | timer pid outcome =>
    simp only [event] at he
    split at he <;> cases he
  | _ => cases he

theorem event_clearPeers (he : x.event i = some .clearPeers) : i = .clearPeers := by
  cases i with
  | clearPeers => rfl
  | conn env sock packet =>
    obtain ⟨_, _, hc⟩ := Option.map_eq_some_iff.mp he
    cases hc
  | timer pid outcome =>
    simp only [event] at he
    split at he <;> cases he
  | _ => cases he

theorem HoldsPresent.kept (hi : Inv x) (h : HoldsPresent x) (hc : x.Cuts i)
    (hs : x.step prim i = some x') : HoldsPresent x' := by
  have hold : ∀ sock pid, (x.endpoints prim i).held sock = some pid → x.device.Present pid := by
    intro sock pid hheld
    rcases endpoints_held i hheld with hheld | ⟨_, _, packet, _, _, hfind⟩
    · exact h sock pid hheld
    · exact hi.refers.findPeer hfind
  rcases step_cases hs with ⟨he, rfl⟩ | ⟨e, d', he, hd', rfl⟩
  · intro sock pid hheld
    rw [endpoints_device prim he]
    exact hold sock pid hheld
  · intro sock pid (hheld : (x.endpoints prim i).held sock = some pid)
    change d'.Present pid
    rcases Device.step_maps hd' with
      hsame | ⟨key, _, ips, p, _, ha⟩ | ⟨key, _, _, rfl, rfl⟩ | ⟨rfl, rfl⟩
    · exact hsame.present.mpr (hold sock pid hheld)
    · exact ha.present.mpr (.inr (hold sock pid hheld))
    · cases hl : x.device.peers.lookup key with
      | none =>
        rw [Device.removePeer_none hl]
        exact hold sock pid hheld
      | some gone =>
        refine (hold sock pid hheld).kept hl ?_
        rintro rfl
        rw [endpoints_remove he hl] at hheld
        exact shutdown_gone hi.tracks pid sock hheld
    · obtain rfl := event_clearPeers he
      exact absurd (h sock pid hheld) (hc sock pid hheld)

theorem target_present (hi : Inv x) (h : HoldsPresent x) (ht : x.target i = some pid) :
    x.device.Present pid := by
  cases i with
  | udp env addr packet connects => exact hi.refers.findPeer ht
  | conn env sock packet => exact h sock pid ht
  | _ => cases ht

theorem effect_call {d : Device} (h : (pid, eff) ∈ d.effects prim e) :
    ∃ f, d.call prim e = some (pid, f) := by
  unfold Device.effects at h
  split at h
  · cases h
  rename_i target f hcall
  split at h
  · cases h
  obtain ⟨_, _, heq⟩ := List.mem_map.mp h
  obtain rfl := (Prod.mk.inj heq).1
  exact ⟨f, hcall⟩

theorem effect_present (hi : Inv x) (h : HoldsPresent x) (he : (pid, eff) ∈ x.effects prim i) :
    x.device.Present pid := by
  unfold effects at he
  split at he
  · cases he
  rename_i e hevent
  obtain ⟨f, hcall⟩ := effect_call he
  cases i with
  | udp env addr packet connects =>
    cases hevent
    obtain ⟨_, hfind, heq⟩ := Option.map_eq_some_iff.mp hcall
    obtain rfl := (Prod.mk.inj heq).1
    exact hi.refers.findPeer hfind
  | conn env sock packet =>
    obtain ⟨owner, howner, heq⟩ := Option.map_eq_some_iff.mp hevent
    subst heq
    cases hcall
    exact h sock pid howner
  | iface env src =>
    cases hevent
    simp only [Device.call] at hcall
    split at hcall
    · obtain ⟨_, hfind, heq⟩ := Option.map_eq_some_iff.mp hcall
      obtain rfl := (Prod.mk.inj heq).1
      obtain ⟨s, _, hroute⟩ := Option.bind_eq_some_iff.mp hfind
      exact (hi.routes.allowed hroute).1
    · cases hcall
  | timer owner outcome =>
    simp only [event] at hevent
    split at hevent
    · rename_i hmem
      cases hevent
      cases hcall
      obtain ⟨⟨key, _⟩, hentry, rfl⟩ := List.mem_map.mp hmem
      exact ⟨key, AList.mem_lookup_iff.mpr hentry⟩
    · cases hevent
  | setKey privateKey =>
    cases hevent
    cases hcall
  | updatePeer pubKey remove endpoint allowedIps =>
    cases hevent
    cases hcall
  | clearPeers =>
    cases hevent
    cases hcall
  | openListenSocket => cases hevent

theorem inv_init (config : PaymentConfig) (nextIndex : IndexLfsr) (useConnectedSocket : Bool) :
    Inv (init config nextIndex useConnectedSocket) ∧
      HoldsPresent (init config nextIndex useConnectedSocket) := by
  refine ⟨⟨(Device.routes_init config nextIndex).1, ?_, ?_, ?_⟩, ?_⟩
  · rintro _ _ ⟨⟩
  · rintro _ _ ⟨⟩
  · exact fun _ _ => rfl
  · rintro _ _ ⟨⟩

/-- Removed peers are cut off all through a run exactly when the table is
never cleared while a connected socket of a peer in it is open. -/
theorem cutOff_iff (prim : Primitives) (config : PaymentConfig) (nextIndex : IndexLfsr)
    (useConnectedSocket : Bool) (is : List SocketsInput) :
    (∀ pre post x', is = pre ++ post →
        exec (step prim) (init config nextIndex useConnectedSocket) pre = some x' →
        CutOff prim x') ↔
      Along (step prim) Cuts (init config nextIndex useConnectedSocket) is := by
  obtain ⟨hi, hp⟩ := inv_init config nextIndex useConnectedSocket
  constructor
  · intro h
    refine along_iff_at.mpr fun pre i post t hsplit ht => ?_
    subst hsplit
    cases i with
    | clearPeers =>
      intro sock pid hheld _
      -- the socket is still open after the table is cleared
      have hstep : t.step prim .clearPeers = some { t with device := t.device.clearPeers } := rfl
      have hpre : exec (step prim) (init config nextIndex useConnectedSocket)
          (pre ++ [.clearPeers]) = some { t with device := t.device.clearPeers } :=
        (exec_append_some _).mpr ⟨t, ht, (exec_cons_some _).mpr ⟨_, hstep, rfl⟩⟩
      have hcut := h (pre ++ [.clearPeers]) post _ (by simp) hpre
      refine (hcut pid ?_ (.conn sampleEnv sock (.data 0 (.ok [])))).1 hheld
      rintro ⟨_, ⟨⟩⟩
    | _ => trivial
  · intro hc pre post x' hsplit hx'
    subst hsplit
    obtain ⟨hi', hp'⟩ : Inv x' ∧ HoldsPresent x' :=
      invariant (I := fun x => Inv x ∧ HoldsPresent x)
        (fun x i x' h hk hs => ⟨h.1.kept hs, h.2.kept h.1 hk hs⟩) ⟨hi, hp⟩
        (along_append.mp hc).1 hx'
    intro pid hgone i
    exact ⟨fun ht => hgone (target_present hi' hp' ht),
      fun eff heff => hgone (effect_present hi' hp' heff)⟩

/-- A peer gets its connected socket, then the table is cleared. -/
def clearing : List SocketsInput :=
  [.setKey sampleKey, .updatePeer samplePeerKey false none [⟨.v4 sampleAddr, 32⟩],
    .udp sampleEnv 1 (.handshakeInit (some samplePeerKey) (.ok ⟨0x100, 1⟩)) true, .clearPeers]

/-- A packet of the removed peer, on its connected socket. -/
def leftover : SocketsInput :=
  .conn sampleEnv 0 (.data 0x100 (.ok (samplePacket sampleAddr sampleAddr)))

theorem cleared_reached : ∃ x,
    exec (step samplePrimitives) (init sampleConfig.toPaymentConfig sampleIndex true) clearing =
        some x ∧
      ¬ x.device.Present 0 ∧
      (0, .write4 (samplePacket sampleAddr sampleAddr)) ∈ x.effects samplePrimitives leftover := by
  refine ⟨_, rfl, ?_, by decide +kernel⟩
  rintro ⟨_, ⟨⟩⟩

end Sockets

end Xelt.Boringtun
