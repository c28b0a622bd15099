import Mathlib.Data.Finset.Insert
import Xelt.VpnServer.Js

/-!
# Payment verification

A call of `verifyUaPayment` looks the settlement transactions up one after
the other and awaits each receipt. From one await to the next it runs
without interruption; the set of spent hashes is shared by all calls.
-/

namespace Xelt.VpnServer

def transferTopic : String := "0xddf252ad1be2c89b69c2b068fc378daa952ba7f163c4a11628f55a4df523b3ef"

/-- The token contract, and what the code takes from viem: the checksummed
form of an address, and an amount in the token's units. `none` is a throw. -/
structure VerifyConfig where
  usdc : String
  getAddress : String → Option String
  /-- `parseUnits(String(amount), 6)`. -/
  parseUnits : ℚ → Option Int

structure Log where
  address : String
  topics : List String
  data : String

structure Receipt where
  status : String
  logs : List Log

structure VerifyResult where
  ok : Bool
  reason : Option String
  amountUsd : Option ℚ
  deriving DecidableEq

structure VerifyOpts where
  txHashes : List String
  payTo : String
  /-- `none` is `NaN` or infinite. -/
  minAmountUsd : Option ℚ

/-- A call at its await: the hash it looks up, the hashes behind it, and
what it has computed before its loop. -/
structure Lookup where
  hash : String
  rest : List String
  minUnits : Int
  payToTopic : String
  deriving DecidableEq

inductive VerifyCall
  | awaiting (l : Lookup)
  | done (result : Except String VerifyResult)
  deriving DecidableEq

def VerifyResult.failed (reason : String) : VerifyResult := ⟨false, some reason, none⟩

def noHash : VerifyResult := .failed "no settlement tx hash provided"

def replay : VerifyResult := .failed "replay: settlement already used"

def noMatch : VerifyResult :=
  .failed "no matching USDC transfer to payee in the provided settlement tx(s)"

/-- `Number(value) / 1e6`. -/
def VerifyResult.paid (value : Int) : VerifyResult :=
  ⟨true, none, (toDouble value).bind fun number => toDouble (number / 1000000)⟩

/-- The address as a 32-byte topic. -/
def toTopic (cfg : VerifyConfig) (a : String) : Option String :=
  (cfg.getAddress a).map fun address =>
    "0x" ++ String.ofList (padStart (toLowerCase address).toList.tail.tail 64 '0')

/-- The loop over the hashes, up to its next await. -/
def nextHash (spent : Finset String) (minUnits : Int) (payToTopic : String) :
    List String → VerifyCall
  | [] => .done (.ok noMatch)
  | h :: rest =>
    if h ∈ spent then .done (.ok replay) else .awaiting ⟨h, rest, minUnits, payToTopic⟩

/-- A call, up to its first await. -/
def verifyUaPayment (cfg : VerifyConfig) (spent : Finset String) (opts : VerifyOpts) : VerifyCall :=
  if opts.txHashes = [] then .done (.ok noHash)
  else match opts.minAmountUsd.bind cfg.parseUnits with
    | none => .done (.error "InvalidDecimalNumberError")
    | some minUnits =>
      match toTopic cfg opts.payTo with
      | none => .done (.error "InvalidAddressError")
      | some payToTopic => nextHash spent minUnits payToTopic opts.txHashes

/-- The loop over the logs: the value of the first transfer that pays. -/
def scanLogs (cfg : VerifyConfig) (minUnits : Int) (payToTopic : String) :
    List Log → Except String (Option Int)
  | [] => .ok none
  | log :: logs =>
    match cfg.getAddress log.address with
    | none => .error "InvalidAddressError"
    | some address =>
      if address ≠ cfg.usdc then scanLogs cfg minUnits payToTopic logs
      else if log.topics[0]? ≠ some transferTopic then scanLogs cfg minUnits payToTopic logs
      else if toLowerCase (log.topics[2]?.getD "") ≠ payToTopic then
        scanLogs cfg minUnits payToTopic logs
      else match bigInt log.data with
        | none => .error "SyntaxError"
        | some value =>
          if minUnits ≤ value then .ok (some value) else scanLogs cfg minUnits payToTopic logs

/-- The transfer a call finds in what the RPC answers; a lookup that throws
is passed over. -/
def Lookup.transfer (cfg : VerifyConfig) (l : Lookup) :
    Option Receipt → Except String (Option Int)
  | none => .ok none
  | some receipt =>
    if receipt.status ≠ "success" then .ok none
    else scanLogs cfg l.minUnits l.payToTopic receipt.logs

/-- The receipt of a transaction pays the call that looked it up. -/
def Lookup.Pays (cfg : VerifyConfig) (l : Lookup) (receipt : Option Receipt) : Prop :=
  ∃ value, l.transfer cfg receipt = .ok (some value)

/-- A call from the answer of the RPC to its next await. -/
def Lookup.resume (cfg : VerifyConfig) (spent : Finset String) (l : Lookup)
    (receipt : Option Receipt) : Finset String × VerifyCall :=
  match l.transfer cfg receipt with
  | .error e => (spent, .done (.error e))
  | .ok none => (spent, nextHash spent l.minUnits l.payToTopic l.rest)
  | .ok (some value) => (insert l.hash spent, .done (.ok (.paid value)))

/-- The call has returned `ok: true`. -/
def VerifyCall.Credited : VerifyCall → Prop
  | .done (.ok v) => v.ok = true
  | _ => False

instance : (c : VerifyCall) → Decidable c.Credited
  | .done (.ok v) => inferInstanceAs (Decidable (v.ok = true))
  | .done (.error _) | .awaiting _ => inferInstanceAs (Decidable False)

theorem nextHash_not_credited : ¬ (nextHash spent minUnits topic hashes).Credited := by
  cases hashes with
  | nil => simp [nextHash, VerifyCall.Credited, noMatch, VerifyResult.failed]
  | cons h rest =>
    rw [nextHash]
    split <;> simp [VerifyCall.Credited, replay, VerifyResult.failed]

theorem verify_not_credited : ¬ (verifyUaPayment cfg spent opts).Credited := by
  rw [verifyUaPayment]
  split
  · simp [VerifyCall.Credited, noHash, VerifyResult.failed]
  · split
    · simp [VerifyCall.Credited]
    · split
      · simp [VerifyCall.Credited]
      · exact nextHash_not_credited

/-- A lookup that pays marks its hash as spent and credits its call; no
other does either. -/
theorem resume_cases (cfg : VerifyConfig) (spent : Finset String) (l : Lookup)
    (receipt : Option Receipt) :
    (l.Pays cfg receipt ∧ (l.resume cfg spent receipt).1 = insert l.hash spent ∧
        (l.resume cfg spent receipt).2.Credited) ∨
      (¬ l.Pays cfg receipt ∧ (l.resume cfg spent receipt).1 = spent ∧
        ¬ (l.resume cfg spent receipt).2.Credited) := by
  rw [Lookup.resume, Lookup.Pays]
  cases l.transfer cfg receipt with
  | error e => exact .inr ⟨by simp, rfl, by simp [VerifyCall.Credited]⟩
  | ok value =>
    cases value with
    | none => exact .inr ⟨by simp, rfl, nextHash_not_credited⟩
    | some value =>
      exact .inl ⟨⟨value, rfl⟩, rfl, by simp [VerifyCall.Credited, VerifyResult.paid]⟩

theorem resume_credited {l : Lookup} :
    (l.resume cfg spent receipt).2.Credited ↔ l.Pays cfg receipt := by
  rcases resume_cases cfg spent l receipt with ⟨hp, _, hc⟩ | ⟨hp, _, hc⟩
  · exact iff_of_true hc hp
  · exact iff_of_false hc hp

theorem nextHash_awaiting (h : nextHash spent minUnits topic hashes = .awaiting l) :
    l.hash ∉ spent := by
  cases hashes with
  | nil => simp [nextHash] at h
  | cons g rest =>
    rw [nextHash] at h
    split at h
    · cases h
    · rename_i hg
      cases h
      exact hg

theorem verify_awaiting (h : verifyUaPayment cfg spent opts = .awaiting l) : l.hash ∉ spent := by
  rw [verifyUaPayment] at h
  split at h
  · cases h
  · split at h
    · cases h
    · split at h
      · cases h
      · exact nextHash_awaiting h

theorem resume_awaiting {l l' : Lookup} (h : (l.resume cfg spent receipt).2 = .awaiting l') :
    l'.hash ∉ (l.resume cfg spent receipt).1 := by
  rw [Lookup.resume] at h ⊢
  cases ht : l.transfer cfg receipt with
  | error e => simp [ht] at h
  | ok value =>
    cases value with
    | none =>
      simp only [ht] at h ⊢
      exact nextHash_awaiting h
    | some value => simp [ht] at h

-- ---------------------------------------------------------------------------
-- A sample payment
-- ---------------------------------------------------------------------------

def sampleUsdc : String := "0xaf88d065e77c8cC2239327C5EDb3A432268e5831"

def samplePayee : String := "0x5aAeb6053F3E94C9b9A09f33669435E7Ef1BeAed"

/-- The configuration on Arbitrum; `getAddress` on the two addresses of the sample. -/
def sampleVerifyConfig : VerifyConfig where
  usdc := sampleUsdc
  getAddress a :=
    if a = "0xaf88d065e77c8cc2239327c5edb3a432268e5831" then some sampleUsdc
    else if a = samplePayee then some samplePayee
    else none
  parseUnits amount := some (mathRound (amount * 1000000))

/-- The receipt of a transfer of one USDC to the payee. -/
def sampleReceipt : Receipt where
  status := "success"
  logs :=
    [{ address := "0xaf88d065e77c8cc2239327c5edb3a432268e5831"
       topics :=
        [transferTopic, "0x00000000000000000000000014791697260e4c9a71f18484c9f997b308e59325",
          "0x0000000000000000000000005aaeb6053f3e94c9b9a09f33669435e7ef1beaed"]
       data := "0x00000000000000000000000000000000000000000000000000000000000f4240" }]

def sampleHash : String := "0xab00000000000000000000000000000000000000000000000000000000000001"

def sampleHash₂ : String := "0xab00000000000000000000000000000000000000000000000000000000000002"

def sampleHash₃ : String := "0xab00000000000000000000000000000000000000000000000000000000000003"

def sampleOpts (hash : String) : VerifyOpts where
  txHashes := [hash]
  payTo := samplePayee
  minAmountUsd := toDouble (1 / 10)

def sampleLookup (hash : String) : Lookup :=
  ⟨hash, [], 100000, "0x0000000000000000000000005aaeb6053f3e94c9b9a09f33669435e7ef1beaed"⟩

theorem sampleOpts_verify (hash : String) (spent : Finset String) (h : hash ∉ spent) :
    verifyUaPayment sampleVerifyConfig spent (sampleOpts hash) = .awaiting (sampleLookup hash) := by
  have hunits : (toDouble (1 / 10)).bind sampleVerifyConfig.parseUnits = some 100000 := by
    decide +kernel
  have htopic : toTopic sampleVerifyConfig samplePayee =
      some "0x0000000000000000000000005aaeb6053f3e94c9b9a09f33669435e7ef1beaed" := by
    decide +kernel
  simp only [verifyUaPayment, sampleOpts, hunits, htopic]
  simp [nextHash, h, sampleLookup]

theorem sampleLookup_transfer (hash : String) :
    (sampleLookup hash).transfer sampleVerifyConfig (some sampleReceipt) =
      .ok (some 1000000) := by
  simp only [Lookup.transfer, sampleLookup]
  decide +kernel

end Xelt.VpnServer
