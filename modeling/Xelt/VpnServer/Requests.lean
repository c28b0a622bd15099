import Xelt.Lib.Runs
import Xelt.VpnServer.PaymentVerify
import Xelt.VpnServer.SessionStore

/-!
# Paid requests

`POST /connect` and `POST /renew` go through the payment gate to their
handler. A request runs from one await to the next without interruption; at
an await any other request, the expiry worker or the clock may go on. The
clock stands still within such a stretch.
-/

namespace Xelt.VpnServer

open Runs

inductive Route
  | connect
  | renew
  deriving DecidableEq

/-- The fields of a body; all are undefined in one that is no object. -/
structure RequestBody where
  wireguardPublicKey : JsValue
  durationMinutes : JsValue
  transactionId : JsValue
  payerAddress : JsValue
  payerPublicKey : JsValue

/-- `proof.txHashes ?? []`: a string is the list of its characters, an object
of length 0 the empty list. -/
inductive TxHashes
  | hashes (hs : List String)
  | notIterable

/-- The payment proof of the `X-PAYMENT` header. Its fields are undefined
where there is no header, or none that parses to an object. -/
structure Proof where
  transactionId : JsValue
  payerAddress : JsValue
  txHashes : TxHashes

structure ServerConfig where
  verify : VerifyConfig
  pricing : PricingConfig
  payee : String

/-- A request that has passed the first checks of the gate, with the key and
the minutes the gate has computed. -/
structure Gated where
  route : Route
  body : RequestBody
  /-- `none` is the JSON value `null`. -/
  proof : Option Proof
  wgKey : String
  minutes : Int

inductive Response
  | error (status : Nat) (error : String)
  | paymentRequired (route : Route) (amountUsd : Option ℚ) (minutes : Int)
  | paymentInvalid (reason : Option String)
  | connected (serverPublicKey endpoint assignedIp wireguardPublicKey : String)
    (durationMinutes expiresAt : Int)
  | renewed (serverPublicKey endpoint assignedIp wireguardPublicKey : String)
    (durationMinutes expiresAt : Int) (renewedCount : Nat)

def Response.status : Response → Nat
  | .error status _ => status
  | .paymentRequired .. | .paymentInvalid _ => 402
  | .connected .. | .renewed .. => 200

/-- The answer to a request whose handler throws. -/
def internalError : Response := .error 500 "Internal Server Error"

/-- Where a request is: at an await, or answered. -/
inductive Phase
  /-- `await probeBoringtunHealth()`. -/
  | probing (q : Gated)
  /-- `await verifyUaPayment(..)`. -/
  | verifying (q : Gated) (call : VerifyCall)
  /-- `await registerWireGuardPeer(..)` of the connect handler. -/
  | connecting (q : Gated) (durationMinutes : Int) (payerPublicKey : Option String)
  /-- The same of the renew handler, with the session it has renewed. -/
  | renewing (q : Gated) (session : Nat) (durationMinutes : Int)
  | answered (response : Response)

/-- What is seen of a request. -/
inductive Effect
  /-- The gate has a payment of the price of so many minutes verified. -/
  | priced (minutes : Int)
  /-- The settlement hash was added to the spent set. -/
  | spent (hash : String)
  /-- Minutes were added in the session store. -/
  | granted (key : String) (minutes : Int)
  /-- The renewal of an expired session removed it. -/
  | dropped (key : String)
  | answered (status : Nat)
  deriving DecidableEq

/-- What a request has come to at its next await: the shared state, where
the request is, and what was seen of it. -/
structure Served where
  spent : Finset String
  store : SessionStore
  phase : Phase
  effects : List Effect

/-- What a request waits for. -/
inductive Event
  | probed (health : Except String Unit)
  | receipt (receipt : Option Receipt)
  | verified
  | registered (outcome : Except String BoringtunRegisterResponse)

/-- `toISOString` throws beyond this. -/
def ValidDate (t : Int) : Prop := -8640000000000000 ≤ t ∧ t ≤ 8640000000000000

instance (t : Int) : Decidable (ValidDate t) := inferInstanceAs (Decidable (_ ∧ _))

def invalidTime : Response := .error 400 "Invalid time value"

section
variable (cfg : ServerConfig) (now : Int) (spent : Finset String) (store : SessionStore)

def fallbackMinutes : Route → String → Option Int
  | .renew, wgKey => (store.getSession now wgKey).map (·.durationMinutes)
  | .connect, _ => none

/-- The gate, up to the health probe. -/
def paymentGate (route : Route) (body : RequestBody) (proof : Option Proof) :
    Except Response Gated :=
  match trim? body.wireguardPublicKey with
  | .error _ => .error internalError
  | .ok none | .ok (some "") =>
    .error (.error 400 "wireguardPublicKey is required in the JSON body")
  | .ok (some wgKey) =>
    match resolveDurationMinutes body.durationMinutes cfg.pricing
        (fallbackMinutes now store route wgKey) with
    | .error e => .error (.error 400 e)
    | .ok minutes =>
      match route, store.getSession now wgKey with
      | .renew, none => .error (.error 400 "No active session. Call POST /connect first.")
      | .connect, some _ =>
        .error (.error 409 "Session already active for this WireGuard key. Use POST /renew.")
      | _, _ => .ok { route, body, proof, wgKey, minutes }

/-- The call of `verifyUaPayment`, which prints the `transactionId` first. -/
def verifyProof (q : Gated) (transactionId : JsValue) : TxHashes → VerifyCall
  | .hashes txHashes =>
    if transactionId.printable then
      verifyUaPayment cfg.verify spent
        { txHashes
          payTo := cfg.payee
          minAmountUsd := amountUsd q.minutes cfg.pricing }
    else .done (.error typeError)
  | .notIterable => .done (.error typeError)

/-- The gate, from the health probe to the verification. -/
def requirePayment (q : Gated) : Except Response VerifyCall :=
  match q.proof with
  | none => .error internalError
  | some proof =>
    let transactionId := proof.transactionId.or q.body.transactionId
    if transactionId.truthy then .ok (verifyProof cfg spent q transactionId proof.txHashes)
    else .error (.paymentRequired q.route (amountUsd q.minutes cfg.pricing) q.minutes)

/-- The payer: `(body.payerAddress ?? body.payerPublicKey)?.trim() || undefined`,
where the gate has put the payer of the proof into the body. -/
def Gated.payer (q : Gated) : Except String (Option String) :=
  let proofPayer := (q.proof.map (·.payerAddress)).getD .undefined
  match trim? ((proofPayer.or q.body.payerAddress).orElse q.body.payerPublicKey) with
  | .ok (some "") => .ok none
  | r => r

/-- The connect handler, up to its await. Its key is that of the gate. -/
def connectHandler (q : Gated) : Except String (Int × Option String) :=
  match resolveDurationMinutes q.body.durationMinutes cfg.pricing none with
  | .error e => .error e
  | .ok durationMinutes =>
    match q.payer with
    | .error e => .error e
    | .ok payerPublicKey => .ok (durationMinutes, payerPublicKey)

def answer (effects : List Effect) (response : Response) : Served :=
  ⟨spent, store, .answered response, effects ++ [.answered response.status]⟩

/-- The connect handler, behind its await. -/
def connectRegistered (q : Gated) (durationMinutes : Int) (payerPublicKey : Option String)
    (outcome : Except String BoringtunRegisterResponse) : Served :=
  match outcome with
  | .error e => answer spent store [] (.error 400 e)
  | .ok boringtun =>
    match store.createSession now q.wgKey durationMinutes boringtun payerPublicKey with
    | .error e => answer spent store [] (.error 400 e)
    | .ok (store, session) =>
      answer spent store [.granted q.wgKey durationMinutes] <|
        if ValidDate session.expiresAt then
          .connected boringtun.serverPublicKey boringtun.endpoint boringtun.assignedIp q.wgKey
            session.durationMinutes session.expiresAt
        else invalidTime

/-- The renew handler, up to its await: the session is renewed before it. -/
def renewHandler (q : Gated) : Served :=
  let existing := store.getSession now q.wgKey
  match resolveDurationMinutes q.body.durationMinutes cfg.pricing
      (existing.map (·.durationMinutes)) with
  | .error e => answer spent store [] (.error 400 e)
  | .ok durationMinutes =>
    match store.renewSession now q.wgKey durationMinutes with
    | (store', .error e) =>
      answer spent store'
        (if (store.sessions.get q.wgKey).isSome then [.dropped q.wgKey] else []) (.error 400 e)
    | (store', .ok session) =>
      ⟨spent, store', .renewing q session durationMinutes, [.granted q.wgKey durationMinutes]⟩

/-- The renew handler, behind its await. -/
def renewRegistered (q : Gated) (session : Nat)
    (outcome : Except String BoringtunRegisterResponse) : Served :=
  match outcome with
  | .error e => answer spent store [] (.error 400 e)
  | .ok _ =>
    match store.objects[session]? with
    | none => answer spent store [] internalError
    | some session =>
      answer spent store [] <|
        if ValidDate session.expiresAt then
          .renewed session.serverPublicKey session.endpoint (session.assignedIp ++ "/32") q.wgKey
            session.durationMinutes session.expiresAt session.renewedCount
        else invalidTime

/-- A request from one await to the next. -/
def serve : Phase → Event → Option Served
  | .probing _, .probed (.error message) => some (answer spent store [] (.error 503 message))
  | .probing q, .probed (.ok ()) =>
    match requirePayment cfg spent q with
    | .error response => some (answer spent store [] response)
    | .ok call => some ⟨spent, store, .verifying q call, [.priced q.minutes]⟩
  | .verifying q (.awaiting l), .receipt receipt =>
    let resumed := l.resume cfg.verify spent receipt
    some ⟨resumed.1, store, .verifying q resumed.2,
      if resumed.2.Credited then [.spent l.hash] else []⟩
  | .verifying _ (.done (.error _)), .verified => some (answer spent store [] internalError)
  | .verifying q (.done (.ok v)), .verified =>
    if v.ok = false then some (answer spent store [] (.paymentInvalid v.reason))
    else match q.route with
      | .connect =>
        match connectHandler cfg q with
        | .error e => some (answer spent store [] (.error 400 e))
        | .ok (durationMinutes, payerPublicKey) =>
          some ⟨spent, store, .connecting q durationMinutes payerPublicKey, []⟩
      | .renew => some (renewHandler cfg now spent store q)
  | .connecting q durationMinutes payerPublicKey, .registered outcome =>
    some (connectRegistered now spent store q durationMinutes payerPublicKey outcome)
  | .renewing q session _, .registered outcome =>
    some (renewRegistered spent store q session outcome)
  | _, _ => none

end

theorem requirePayment_ok (h : requirePayment cfg spent q = .ok call) :
    ∃ proof, q.proof = some proof ∧
      (proof.transactionId.or q.body.transactionId).truthy = true ∧
      call = verifyProof cfg spent q (proof.transactionId.or q.body.transactionId)
        proof.txHashes := by
  unfold requirePayment at h
  split at h
  · cases h
  · rename_i proof hproof
    dsimp only at h
    split at h
    · rename_i htruthy
      exact ⟨proof, hproof, htruthy, (Except.ok.inj h).symm⟩
    · cases h

-- ---------------------------------------------------------------------------
-- The server
-- ---------------------------------------------------------------------------

structure Server where
  /-- `Date.now()`. -/
  now : Int
  spent : Finset String
  store : SessionStore
  requests : Nat → Option Phase
  /-- What each tick of the expiry worker has still to remove. -/
  ticks : Nat → List Nat

inductive Input
  | elapse (ms : Nat)
  | request (r : Nat) (route : Route) (body : RequestBody) (proof : Option Proof)
  | event (r : Nat) (e : Event)
  /-- `POST /session/clear`; `none` is a body that is no object. -/
  | clear (body : Option RequestBody)
  /-- The timer of the expiry worker fires. -/
  | tick (t : Nat)
  /-- boringtun answers the tick on the first session it has still to remove. -/
  | unregistered (t : Nat) (outcome : Except String Unit)

def Input.owner : Input → Option Nat
  | .request r .. | .event r _ => some r
  | _ => none

namespace Server

def init (now : Int) : Server where
  now
  spent := ∅
  store := .empty
  requests _ := none
  ticks _ := []

/-- The clear handler, up to its await; nothing is changed behind it. -/
def clearSession (store : SessionStore) (body : Option RequestBody) : SessionStore :=
  match body.map fun body => trim? body.wireguardPublicKey with
  | some (.ok (some wgKey)) => if wgKey = "" then store else (store.deleteSession wgKey).1
  | _ => store

variable (cfg : ServerConfig)

/-- A step, with what it shows of the requests. -/
def move (s : Server) : Input → Option (Server × List (Nat × Effect))
  | .elapse ms => some ({ s with now := s.now + ms }, [])
  | .request r route body proof =>
    match s.requests r with
    | none =>
      match paymentGate cfg s.now s.store route body proof with
      | .error response =>
        some ({ s with requests := Function.update s.requests r (some (.answered response)) },
          [(r, .answered response.status)])
      | .ok q =>
        some ({ s with requests := Function.update s.requests r (some (.probing q)) }, [])
    | some _ => none
  | .event r e =>
    match s.requests r with
    | some phase =>
      (serve cfg s.now s.spent s.store phase e).map fun out =>
        ({ s with
            spent := out.spent
            store := out.store
            requests := Function.update s.requests r (some out.phase) },
          out.effects.map (r, ·))
    | none => none
  | .clear body => some ({ s with store := clearSession s.store body }, [])
  | .tick t =>
    if s.ticks t = [] then
      some ({ s with ticks := Function.update s.ticks t (s.store.listExpired s.now) }, [])
    else none
  | .unregistered t outcome =>
    match s.ticks t with
    | [] => none
    | ref :: rest =>
      let store := match outcome, s.store.objects[ref]? with
        | .ok (), some session => (s.store.deleteSession session.wireguardPublicKey).1
        | _, _ => s.store
      some ({ s with store, ticks := Function.update s.ticks t rest }, [])

def step (s : Server) (i : Input) : Option Server := (s.move cfg i).map (·.1)

def effects (s : Server) (i : Input) : List (Nat × Effect) := ((s.move cfg i).map (·.2)).getD []

def answer (s : Server) (r : Nat) : Option Response :=
  match s.requests r with
  | some (.answered response) => some response
  | _ => none

theorem answer_some {s : Server} (h : s.answer r = some response) :
    s.requests r = some (.answered response) := by
  unfold answer at h
  split at h
  · cases h
    assumption
  · cases h

-- ---------------------------------------------------------------------------
-- What an input can do
-- ---------------------------------------------------------------------------

variable {cfg}

theorem step_iff {s : Server} :
    step cfg s i = some s' ↔ ∃ effs, s.move cfg i = some (s', effs) := by
  simp [step]

theorem move_event {s : Server} :
    s.move cfg (.event r e) = some (s', effs) ↔
      ∃ phase out, s.requests r = some phase ∧
        serve cfg s.now s.spent s.store phase e = some out ∧
        s' = { s with
          spent := out.spent
          store := out.store
          requests := Function.update s.requests r (some out.phase) } ∧
        effs = out.effects.map (r, ·) := by
  cases hp : s.requests r with
  | none => simp [move, hp]
  | some phase => simp [move, hp, eq_comm]

theorem move_request {s : Server} (h : s.move cfg (.request r route body proof) = some (s', effs)) :
    s.requests r = none ∧ ∃ phase,
      s' = { s with requests := Function.update s.requests r (some phase) } ∧
      ((∃ response, paymentGate cfg s.now s.store route body proof = .error response ∧
          phase = .answered response ∧ effs = [(r, .answered response.status)]) ∨
        ∃ q, paymentGate cfg s.now s.store route body proof = .ok q ∧
          phase = .probing q ∧ effs = []) := by
  simp only [move] at h
  split at h
  · rename_i hnone
    split at h
    · rename_i response hg
      cases h
      exact ⟨hnone, _, rfl, .inl ⟨response, hg, rfl, rfl⟩⟩
    · rename_i q hg
      cases h
      exact ⟨hnone, _, rfl, .inr ⟨q, hg, rfl, rfl⟩⟩
  · cases h

theorem move_tick {s : Server} (h : s.move cfg (.tick t) = some (s', effs)) :
    s.ticks t = [] ∧
      s' = { s with ticks := Function.update s.ticks t (s.store.listExpired s.now) } ∧
        effs = [] := by
  simp only [move] at h
  split at h
  · rename_i hnil
    cases h
    exact ⟨hnil, rfl, rfl⟩
  · cases h

theorem clearSession_cases (store : SessionStore) (body : Option RequestBody) :
    clearSession store body = store ∨ ∃ fields ∈ body, ∃ key,
      trim? fields.wireguardPublicKey = .ok (some key) ∧
        clearSession store body = store.delete key := by
  cases body with
  | none => exact .inl rfl
  | some fields =>
    simp only [clearSession, Option.map_some]
    split
    · rename_i key htrim
      split
      · exact .inl rfl
      · exact .inr ⟨fields, rfl, key, Option.some.inj htrim, rfl⟩
    · exact .inl rfl

theorem move_unregistered {s : Server}
    (h : s.move cfg (.unregistered t outcome) = some (s', effs)) :
    ∃ ref rest, s.ticks t = ref :: rest ∧
      s' = { s with store := s'.store, ticks := Function.update s.ticks t rest } ∧
      (s'.store = s.store ∨ outcome = .ok () ∧ ∃ session ∈ s.store.objects[ref]?,
        s'.store = s.store.delete session.wireguardPublicKey) := by
  simp only [move] at h
  split at h
  · cases h
  · rename_i ref rest ht
    cases h
    refine ⟨ref, rest, ht, rfl, ?_⟩
    split
    · rename_i session hobj
      exact .inr ⟨rfl, session, hobj, rfl⟩
    · exact .inl rfl

end Server

-- ---------------------------------------------------------------------------
-- A sample server
-- ---------------------------------------------------------------------------

def sampleServerConfig : ServerConfig where
  verify := sampleVerifyConfig
  pricing :=
    { pricePerMinuteUsd := toDouble (1 / 50)
      defaultSessionMinutes := some 5
      minSessionMinutes := some 1
      maxSessionMinutes := some 60
      renewWindowSeconds := some 30 }
  payee := samplePayee

def sampleKey : String := "hSDwCYkwp1R0i33ctD73Wg2/Og0mOBr066SpjqqbTmo="

/-- A request for a session of the default length. -/
def sampleBody : RequestBody where
  wireguardPublicKey := .string sampleKey
  durationMinutes := .undefined
  transactionId := .undefined
  payerAddress := .undefined
  payerPublicKey := .undefined

def sampleRegistered : BoringtunRegisterResponse where
  serverPublicKey := "HIgo9xNzJMWLKASShiTqIybxZ0U3wGLiUeJ1PKf8ykw="
  endpoint := "203.0.113.7:51820"
  assignedIp := "10.0.0.2/32"

def sampleProof (hash : String) : Proof where
  transactionId := .string "tx"
  payerAddress := .undefined
  txHashes := .hashes [hash]

/-- A request from its arrival to the await of its receipt. -/
def sampleOpened (r : Nat) (route : Route) (body : RequestBody) (hash : String) : List Input :=
  [.request r route body (some (sampleProof hash)), .event r (.probed (.ok ()))]

def sampleVerified (r : Nat) : List Input :=
  [.event r (.receipt (some sampleReceipt)), .event r .verified]

end Xelt.VpnServer
