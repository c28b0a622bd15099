import Xelt.Boringtun.Noise.Channel
import Xelt.Boringtun.Noise.Transcript

/-!
# Key agreement

Two honest ends, each configured with the other's static key, and a network
that delivers whatever it likes. Either end may initiate and answer; its
history pairs what it sent with what it kept. Whenever an end still holds an
initiation, the response the other end made to it is accepted, and the two
sessions are the two ends of one channel.

The two transcripts agree because each secret is computed from the same two
key pairs; the response is found because the two initiations an end may hold
have different indices.
-/

namespace Xelt.Boringtun.Noise.Crypto

open Bytes Runs Handshake

/-- One end: the initiations it sent with the state each left, and the requests
it answered with the reply and the session each led to. -/
structure HandshakeEnd where
  handshake : Handshake
  initiations : List (Bytes × HandshakeInitSentState)
  responses : List (Bytes × Bytes × Session)

inductive HandshakeMove
  | initiate (dst : Nat) (ephemeral : Bytes32) (now : Nat)
  | receive (datagram : Bytes) (dst : Nat) (ephemeral : Bytes32) (now : Nat)
  | setExpired
  | clearCookie
  deriving DecidableEq

namespace HandshakeEnd

variable (p : Primitives)

def initiate (e : HandshakeEnd) (dst : Nat) (ephemeral : Bytes32) (now : Nat) : HandshakeEnd :=
  match e.handshake.formatHandshakeInitiation p dst ephemeral now with
  | (h, .error _) => { e with handshake := h }
  | (h, .ok bytes) =>
    match h.state with
    | .initSent s => { e with handshake := h, initiations := e.initiations ++ [(bytes, s)] }
    | _ => { e with handshake := h }

/-- A datagram goes to the function for its type; data is for the sessions. -/
def receive (e : HandshakeEnd) (datagram : Bytes) (dst : Nat) (ephemeral : Bytes32)
    (now : Nat) : Option HandshakeEnd :=
  match parseIncomingPacket datagram with
  | .ok (.handshakeInit m) =>
    (e.handshake.receiveHandshakeInitialization p m dst ephemeral).map fun
      | (h, .ok (reply, session)) =>
        { e with handshake := h, responses := e.responses ++ [(datagram, reply, session)] }
      | (h, .error _) => { e with handshake := h }
  | .ok (.handshakeResponse r) =>
    some { e with handshake := (e.handshake.receiveHandshakeResponse p r now).1 }
  | .ok (.packetCookieReply c) =>
    some { e with handshake := (e.handshake.receiveCookieReply p c).1 }
  | .ok (.packetData _) | .error _ => some e

def step (e : HandshakeEnd) : HandshakeMove → Option HandshakeEnd
  | .initiate dst ephemeral now => some (e.initiate p dst ephemeral now)
  | .receive datagram dst ephemeral now => e.receive p datagram dst ephemeral now
  | .setExpired => some { e with handshake := e.handshake.setExpired }
  | .clearCookie => some { e with handshake := e.handshake.clearCookie }

end HandshakeEnd

structure Exchange where
  ends : Party → HandshakeEnd

namespace Exchange

variable (p : Primitives)

/-- What an end is configured with: its own key pair, the other end's public
key and the preshared key. -/
def params (privates : Party → Bytes32) (psk : Option Bytes32) (x : Party) : NoiseParams :=
  .new p (privates x) (p.publicKey (privates x)) (p.publicKey (privates x.other)) psk

def new (privates : Party → Bytes32) (psk : Option Bytes32) (index : Party → UInt32)
    (stamper : Party → TimeStamper) : Exchange where
  ends x := ⟨.new p (privates x) (p.publicKey (privates x)) (p.publicKey (privates x.other))
    (index x) psk (stamper x), [], []⟩

def step (n : Exchange) (i : Party × HandshakeMove) : Option Exchange :=
  ((n.ends i.1).step p i.2).map fun e => ⟨Function.update n.ends i.1 e⟩

end Exchange

def Handshake.Outstanding (h : Handshake) (s : HandshakeInitSentState) : Prop :=
  h.state = .initSent s ∨ h.previous = .initSent s

-- ---------------------------------------------------------------------------
-- The two transcripts
-- ---------------------------------------------------------------------------

namespace Exchange

variable {p : Primitives}

/-- The state an initiation left is what the responder computes from it. -/
theorem initiation_agrees (hp : p.Lawful) (hm : m.unencryptedEphemeral = p.publicKey ephemeral) :
    Transcript.initiation p (params p privates psk x).peerStaticPublic m
        (p.diffieHellman ephemeral (params p privates psk x).peerStaticPublic)
        (params p privates psk x).staticShared =
      readTranscript p (params p privates psk x.other) m := by
  have hes : p.diffieHellman ephemeral (p.publicKey (privates x.other)) =
      p.diffieHellman (privates x.other) m.unencryptedEphemeral := by rw [hm, hp.dh_comm]
  have hss : p.diffieHellman (privates x) (p.publicKey (privates x.other)) =
      p.diffieHellman (privates x.other) (p.publicKey (privates x)) := hp.dh_comm ..
  simp only [params, NoiseParams.new, readTranscript, Party.other_other, hes, hss]

/-- The transcript of a response is the same to both ends. -/
theorem response_agrees (hp : p.Lawful)
    (hm : m.unencryptedEphemeral = p.publicKey s.ephemeralPrivate)
    (hr : r.unencryptedEphemeral = p.publicKey ephemeral) :
    readResponse p (params p privates psk x) s r =
      writtenResponse p (params p privates psk x.other) ephemeral m
        ⟨s.chainingKey, s.hash⟩ := by
  have hee : p.diffieHellman s.ephemeralPrivate (p.publicKey ephemeral) =
      p.diffieHellman ephemeral m.unencryptedEphemeral := by rw [hm, hp.dh_comm]
  have hse : p.diffieHellman (privates x) (p.publicKey ephemeral) =
      p.diffieHellman ephemeral (p.publicKey (privates x)) := hp.dh_comm ..
  simp only [readResponse, writtenResponse, params, NoiseParams.new, Party.other_other, hr, hee,
    hse]

end Exchange

-- ---------------------------------------------------------------------------
-- What the histories say
-- ---------------------------------------------------------------------------

/-- An initiation that was sent, and the state it left. -/
def Sent (p : Primitives) (params : NoiseParams) (q : Bytes × HandshakeInitSentState) : Prop :=
  ∃ m macs, q.1 = HandshakeInit.fields m ++ macs ∧ macs.length = 32 ∧
    m.senderIdx = q.2.localIndex ∧ m.unencryptedEphemeral = p.publicKey q.2.ephemeralPrivate ∧
    Transcript.mk q.2.chainingKey q.2.hash = .initiation p params.peerStaticPublic m
      (p.diffieHellman q.2.ephemeralPrivate params.peerStaticPublic) params.staticShared

/-- A request that was answered, the reply, and the session it led to. -/
def Answered (p : Primitives) (params : NoiseParams) (q : Bytes × Bytes × Session) : Prop :=
  ∃ m r macs ephemeral, parseIncomingPacket q.1 = .ok (.handshakeInit m) ∧
    q.2.1 = HandshakeResponse.fields r ++ macs ∧ macs.length = 32 ∧
    Responds p params ephemeral m (readTranscript p params m) r q.2.2

/-- The invariant of one end. -/
structure HandshakeEnd.Honest (p : Primitives) (params : NoiseParams) (e : HandshakeEnd) :
    Prop where
  configured : e.handshake.params = params
  initiations : ∀ q ∈ e.initiations, Sent p params q
  responses : ∀ q ∈ e.responses, Answered p params q
  held : ∀ s, e.handshake.Outstanding s → ∃ bytes, (bytes, s) ∈ e.initiations
  current : ∀ s, e.handshake.state = .initSent s → s.localIndex = e.handshake.nextIndex
  distinct : ∀ s s', e.handshake.state = .initSent s → e.handshake.previous = .initSent s' →
    s.localIndex ≠ s'.localIndex

namespace HandshakeEnd

variable {p : Primitives} {e e' : HandshakeEnd} {params : NoiseParams}

theorem Honest.initiate (h : Honest p params e) :
    Honest p params (e.initiate p dst ephemeral now) := by
  rcases formatHandshakeInitiation_cases p e.handshake dst ephemeral now with
    hres | ⟨h', m, macs, hres, hmacs, hi⟩
  · rw [HandshakeEnd.initiate, hres]
    exact h
  · rw [HandshakeEnd.initiate, hres]
    simp only [hi.state]
    constructor
    · exact hi.params.trans h.configured
    · intro q hq
      rcases List.mem_append.mp hq with hq | hq
      · exact h.initiations q hq
      · obtain rfl := List.mem_singleton.mp hq
        rw [← h.configured]
        exact ⟨m, macs, rfl, hmacs, hi.senderIdx, hi.unencryptedEphemeral, rfl⟩
    · exact h.responses
    · rintro s (hs | hs)
      · obtain rfl := HandshakeState.initSent.inj (hi.state.symm.trans hs)
        exact ⟨_, List.mem_append_right _ (List.mem_singleton_self _)⟩
      · obtain ⟨bytes, hmem⟩ := h.held s (.inl (hi.previous.symm.trans hs))
        exact ⟨bytes, List.mem_append_left _ hmem⟩
    · intro s hs
      obtain rfl := HandshakeState.initSent.inj (hi.state.symm.trans hs)
      exact hi.nextIndex.symm
    · intro s s' hs hs'
      obtain rfl := HandshakeState.initSent.inj (hi.state.symm.trans hs)
      rw [h.current s' (hi.previous.symm.trans hs')]
      exact incIndex_ne _

/-- A handshake that holds no initiation it did not hold before, in either
place, keeps the invariant. -/
theorem Honest.shrink (h : Honest p params e) (hparams : h'.params = e.handshake.params)
    (hnext : h'.nextIndex = e.handshake.nextIndex)
    (hstate : ∀ s, h'.state = .initSent s → e.handshake.state = .initSent s)
    (hprevious : ∀ s, h'.previous = .initSent s → e.handshake.previous = .initSent s) :
    Honest p params { e with handshake := h' } where
  configured := hparams.trans h.configured
  initiations := h.initiations
  responses := h.responses
  held s hs := h.held s (hs.imp (hstate s) (hprevious s))
  current s hs := (h.current s (hstate s hs)).trans hnext.symm
  distinct s s' hs hs' := h.distinct s s' (hstate s hs) (hprevious s' hs')

theorem Honest.push {responses : List (Bytes × Bytes × Session)} (h : Honest p params e)
    (hparams : h'.params = e.handshake.params)
    (hstate : ∀ s, h'.state ≠ .initSent s) (hprevious : h'.previous = e.handshake.state)
    (hresponses : ∀ q ∈ responses, Answered p params q) :
    Honest p params { e with handshake := h', responses } where
  configured := hparams.trans h.configured
  initiations := h.initiations
  responses := hresponses
  held s hs := h.held s (.inl (hprevious.symm.trans (hs.resolve_left (hstate s))))
  current s hs := absurd hs (hstate s)
  distinct s _ hs := absurd hs (hstate s)

theorem Honest.receive (h : Honest p params e)
    (hs : e.receive p datagram dst ephemeral now = some e') : Honest p params e' := by
  simp only [HandshakeEnd.receive] at hs
  cases hparse : parseIncomingPacket datagram with
  | error err =>
    simp only [hparse, Option.some.injEq] at hs
    exact hs ▸ h
  | ok packet =>
    cases packet with
    | packetData d =>
      simp only [hparse, Option.some.injEq] at hs
      exact hs ▸ h
    | packetCookieReply c =>
      simp only [hparse, Option.some.injEq] at hs
      subst hs
      simp only [receiveCookieReply]
      split
      · exact h
      split
      · exact h
      split
      · exact h
      · exact h.shrink rfl rfl (fun _ => id) (fun _ => id)
    | handshakeResponse r =>
      simp only [hparse, Option.some.injEq] at hs
      subst hs
      rcases receiveHandshakeResponse_cases p e.handshake r now with
        ⟨err, hres⟩ | ⟨s, isPrevious, session, _, hres⟩
      · rw [hres]
        exact h
      · rw [hres]
        cases isPrevious
        · exact h.shrink rfl rfl (fun _ hs => by cases hs) (fun _ => id)
        · exact h.shrink rfl rfl (fun _ => id) (fun _ hs => by cases hs)
    | handshakeInit m =>
      simp only [hparse] at hs
      rcases receiveHandshakeInitialization_cases p e.handshake m dst ephemeral with
        ⟨err, hres⟩ | ⟨h', hash, ck, hres, hparams, _, hprevious, hstate⟩ |
        ⟨h', r, macs, session, hres, hmacs, hparams, _, hprevious, hstate, _, hr⟩
      · simp only [hres, Option.map_some, Option.some.injEq] at hs
        exact hs ▸ h
      · simp only [hres, Option.map_some, Option.some.injEq] at hs
        subst hs
        exact h.push hparams (fun s hs => by rw [hstate] at hs; cases hs) hprevious h.responses
      · simp only [hres, Option.map_some, Option.some.injEq] at hs
        subst hs
        refine h.push hparams (fun s hs => by rw [hstate] at hs; cases hs) hprevious fun q hq => ?_
        rcases List.mem_append.mp hq with hq | hq
        · exact h.responses q hq
        · obtain rfl := List.mem_singleton.mp hq
          exact ⟨m, r, macs, ephemeral, hparse, rfl, hmacs, h.configured ▸ hr⟩

theorem Honest.step (h : Honest p params e) (hs : e.step p i = some e') :
    Honest p params e' := by
  cases i with
  | initiate dst ephemeral now =>
    cases hs
    exact h.initiate
  | receive datagram dst ephemeral now => exact h.receive hs
  | setExpired =>
    cases hs
    exact h.shrink rfl rfl (fun _ hs => by cases hs) (fun _ hs => by cases hs)
  | clearCookie =>
    cases hs
    exact h.shrink rfl rfl (fun _ => id) (fun _ => id)

theorem Honest.awaiting (h : Honest p params e) (hs : e.handshake.Outstanding s) :
    ∃ isPrevious, e.handshake.awaiting s.localIndex = some (s, isPrevious) := by
  rcases hs with hs | hs
  · refine ⟨false, ?_⟩
    cases hprevious : e.handshake.previous <;>
      simp only [Handshake.awaiting, hs, hprevious, if_true]
  · refine ⟨true, ?_⟩
    cases hstate : e.handshake.state with
    | initSent s' =>
      have hne := h.distinct s' s hstate hs
      simp only [Handshake.awaiting, hstate, hs, if_neg hne, if_true]
    | _ => simp only [Handshake.awaiting, hstate, hs, if_true]

theorem step_total (p : Primitives) (e : HandshakeEnd) (i : HandshakeMove) :
    ∃ e', e.step p i = some e' := by
  cases i with
  | receive datagram dst ephemeral now =>
    simp only [HandshakeEnd.step, HandshakeEnd.receive]
    split
    · rename_i m _
      rcases receiveHandshakeInitialization_cases p e.handshake m dst ephemeral with
        ⟨_, hres⟩ | ⟨_, _, _, hres, _⟩ | ⟨_, _, _, _, hres, _⟩
      all_goals exact ⟨_, by rw [hres, Option.map_some]⟩
    all_goals exact ⟨_, rfl⟩
  | _ => exact ⟨_, rfl⟩

end HandshakeEnd

namespace Exchange

variable {p : Primitives} {n : Exchange}

theorem honest_new (p : Primitives) (privates : Party → Bytes32) (psk : Option Bytes32)
    (index : Party → UInt32) (stamper : Party → TimeStamper) (x : Party) :
    ((new p privates psk index stamper).ends x).Honest p (params p privates psk x) where
  configured := rfl
  initiations := by simp [new]
  responses := by simp [new]
  held s hs := by rcases hs with hs | hs <;> cases hs
  current s hs := by cases hs
  distinct s _ hs := by cases hs

theorem honest_run (he : exec (step p) n is = some n')
    (h : ∀ x, (n.ends x).Honest p (params p privates psk x)) :
    ∀ x, (n'.ends x).Honest p (params p privates psk x) := by
  refine invariant_run (I := fun n => ∀ x, (n.ends x).Honest p (params p privates psk x))
    (fun n i n' hn hs x => ?_) h he
  obtain ⟨e, hstep, rfl⟩ := Option.map_eq_some_iff.mp hs
  by_cases hx : x = i.1
  · subst hx
    simpa using (hn i.1).step hstep
  · simpa [hx] using hn x

/-- The response to an initiation that is still held leads to the other end
of the channel whose one end the responder's session is. -/
theorem sessions_matching (hp : p.Lawful) (hn : ∀ x, (n.ends x).Honest p (params p privates psk x))
    (hout : (n.ends x).handshake.Outstanding s) (hsent : (request, s) ∈ (n.ends x).initiations)
    (hreply : (request, reply, session) ∈ (n.ends x.other).responses) :
    ∃ r h' indexI indexR keyI keyR, parseIncomingPacket reply = .ok (.handshakeResponse r) ∧
      (n.ends x).handshake.receiveHandshakeResponse p r now =
        (h', .ok (.new indexI indexR keyR keyI)) ∧
      session = .new indexR indexI keyI keyR := by
  obtain ⟨m, macs, hrequest, hmacs, hsender, hephemeral, htranscript⟩ :=
    (hn x).initiations _ hsent
  obtain ⟨m', r, macs', ephemeral, hparse, hbytes, hmacs', hresponds⟩ :=
    (hn x.other).responses _ hreply
  -- the request was read as it was written
  obtain rfl : m = m' := by
    simp only at hrequest hparse
    rw [hrequest, parse_initiation m hmacs] at hparse
    injection hparse with hparse
    injection hparse
  have hread : readTranscript p (params p privates psk x.other) m =
      ⟨s.chainingKey, s.hash⟩ :=
    (initiation_agrees hp hephemeral).symm.trans htranscript.symm
  rw [hread] at hresponds
  have hagree : readResponse p (params p privates psk x) s r = _ :=
    response_agrees hp hephemeral hresponds.unencryptedEphemeral
  obtain ⟨isPrevious, hawait⟩ := (hn x).awaiting hout
  have hindex : r.receiverIdx = s.localIndex := hresponds.receiverIdx.trans hsender
  obtain ⟨nothing, hnothing⟩ := hresponds.encryptedNothing
  refine ⟨r, (n.ends x).handshake.answered s isPrevious now, s.localIndex, r.senderIdx, _, _, ?_,
    ?_, hsender ▸ hresponds.session⟩
  · simp only at hbytes
    rw [hbytes, parse_response r hmacs']
  · rw [receiveHandshakeResponse_eq (hindex ▸ hawait), (hn x).configured, hagree, hnothing,
      hp.aead_open_seal]

/-- In every run, an initiation that is still held is completed by the
unmodified response to it, and the two sessions agree. -/
theorem sessions_agree {privates : Party → Bytes32} {psk : Option Bytes32}
    {index : Party → UInt32} {stamper : Party → TimeStamper} (hp : p.Lawful)
    (he : exec (step p) (new p privates psk index stamper) is = some n) (x : Party)
    (hout : (n.ends x).handshake.Outstanding s) (hsent : (request, s) ∈ (n.ends x).initiations)
    (hreply : (request, reply, session) ∈ (n.ends x.other).responses) (now : Nat) :
    ∃ r h' session', parseIncomingPacket reply = .ok (.handshakeResponse r) ∧
      (n.ends x).handshake.receiveHandshakeResponse p r now = (h', .ok session') ∧
      session'.sender = session.receiver ∧ session'.receivingIndex = session.sendingIndex ∧
      session'.receiver = session.sender ∧ session'.sendingIndex = session.receivingIndex := by
  have hn := honest_run he (honest_new p privates psk index stamper)
  obtain ⟨r, h', _, _, _, _, hparse, hres, rfl⟩ := sessions_matching hp hn hout hsent hreply
  exact ⟨r, h', _, hparse, hres, rfl, rfl, rfl, rfl⟩

def sampleExchange : Exchange :=
  new samplePrimitives
    (fun | .initiator => beArray 32 5 | .responder => beArray 32 9) (some (beArray 32 77))
    (fun _ => 0x100) (fun _ => ⟨10 ^ 18, 0⟩)

def sampleRequest : Bytes :=
  match (sampleExchange.ends .initiator).handshake.formatHandshakeInitiation samplePrimitives 148
    (beArray 32 21) 1000 with
  | (_, .ok bytes) => bytes
  | (_, .error _) => []

def delayed : List (Party × HandshakeMove) :=
  [(.initiator, .initiate 148 (beArray 32 21) 1000),
    (.initiator, .initiate 148 (beArray 32 22) 2000),
    (.responder, .receive sampleRequest 92 (beArray 32 23) 3000)]

theorem delayed_runs : (exec (step samplePrimitives) sampleExchange delayed).isSome := by
  decide +kernel

def delayedExchange : Exchange :=
  (exec (step samplePrimitives) sampleExchange delayed).get delayed_runs

theorem exec_delayed : exec (step samplePrimitives) sampleExchange delayed = some delayedExchange :=
  (Option.some_get delayed_runs).symm

theorem delayed_sent : (delayedExchange.ends .initiator).initiations.length = 2 := by
  decide +kernel

theorem delayed_replied : (delayedExchange.ends .responder).responses.length = 1 := by
  decide +kernel

def sampleInitiation : Bytes × HandshakeInitSentState :=
  (delayedExchange.ends .initiator).initiations.get ⟨0, delayed_sent ▸ by decide⟩

def sampleResponse : Bytes × Bytes × Session :=
  (delayedExchange.ends .responder).responses.get ⟨0, delayed_replied ▸ by decide⟩

theorem delayed_held :
    (delayedExchange.ends .initiator).handshake.Outstanding sampleInitiation.2 :=
  .inr (by decide +kernel)

theorem delayed_logged :
    (sampleInitiation.1, sampleInitiation.2) ∈ (delayedExchange.ends .initiator).initiations := by
  decide +kernel

theorem delayed_answered : (sampleInitiation.1, sampleResponse.2.1, sampleResponse.2.2) ∈
    (delayedExchange.ends (Party.other .initiator)).responses := by
  decide +kernel

theorem sessions_agree_sample : ∃ r h' session',
    parseIncomingPacket sampleResponse.2.1 = .ok (.handshakeResponse r) ∧
      (delayedExchange.ends .initiator).handshake.receiveHandshakeResponse samplePrimitives r 4000 =
        (h', .ok session') ∧
      session'.sender = sampleResponse.2.2.receiver ∧
      session'.receivingIndex = sampleResponse.2.2.sendingIndex ∧
      session'.receiver = sampleResponse.2.2.sender ∧
      session'.sendingIndex = sampleResponse.2.2.receivingIndex :=
  sessions_agree samplePrimitives_lawful exec_delayed .initiator delayed_held delayed_logged
    delayed_answered 4000

end Exchange

end Xelt.Boringtun.Noise.Crypto
