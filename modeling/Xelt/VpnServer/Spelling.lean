import Xelt.VpnServer.Replay

/-!
# Spellings of a transaction hash

The guard compares the strings the clients send; the RPC reads the 32 bytes
they denote. Two spellings of one transaction are two payments to the guard.
-/

namespace Xelt.VpnServer

open Runs

/-- The value of 32 bytes in hexadecimal, as the RPC reads a hash; `none` where it refuses. -/
def hash32 (h : String) : Option Nat :=
  match h.toList with
  | '0' :: 'x' :: cs | '0' :: 'X' :: cs => if cs.length = 64 then digits 16 cs else none
  | _ => none

/-- The RPC on a chain: the receipt depends on the denoted value. -/
def getTransactionReceipt (chain : Nat → Option Receipt) (h : String) : Option Receipt :=
  (hash32 h).bind chain

namespace Verifier

def Sequential (s : Verifier) : Input → Prop
  | .call .. => ∀ id l, s.calls id ≠ some (.awaiting l)
  | .receipt .. => True

def Answers (chain : Nat → Option Receipt) (s : Verifier) : Input → Prop
  | .call .. => True
  | .receipt id receipt =>
    ∀ l, s.calls id = some (.awaiting l) → receipt = getTransactionReceipt chain l.hash

/-- Where a receipt pays a call, no other string in the spent set denotes
the transaction. -/
def NoOtherSpelling (cfg : VerifyConfig) : Verifier → Input → Prop :=
  AtPayment cfg fun s l => ∀ g ∈ s.spent, g ≠ l.hash → hash32 g ≠ hash32 l.hash

def OneAwaits (s : Verifier) : Prop :=
  ∀ id id' l l', s.calls id = some (.awaiting l) → s.calls id' = some (.awaiting l') → id = id'

variable {cfg : VerifyConfig}

theorem OneAwaits.alone (h : OneAwaits s) : s.Alone :=
  fun id id' l l' hl hl' _ => h id id' l l' hl hl'

theorem step_oneAwaits (ho : OneAwaits s) (hi : Sequential s i) (h : step cfg s i = some s') :
    OneAwaits s' := by
  cases i with
  | call id opts =>
    obtain ⟨-, rfl⟩ := call_of_step h
    have hnew : ∀ id' l', Function.update s.calls id
        (some (verifyUaPayment cfg s.spent opts)) id' = some (.awaiting l') → id' = id := by
      intro id' l' hl'
      by_contra hid
      exact hi id' l' (by simpa [Function.update_of_ne hid] using hl')
    exact fun a b _ _ ha hb => (hnew a _ ha).trans (hnew b _ hb).symm
  | receipt id receipt =>
    obtain ⟨l, hl, rfl⟩ := receipt_of_step h
    have hold : ∀ id' l', Function.update s.calls id
        (some (l.resume cfg s.spent receipt).2) id' = some (.awaiting l') → id' = id := by
      intro id' l' hl'
      by_contra hid
      exact hid (ho _ _ _ _ (by simpa [Function.update_of_ne hid] using hl') hl)
    exact fun a b _ _ ha hb => (hold a _ ha).trans (hold b _ hb).symm

theorem sequential_alone (h : Along (step cfg) Sequential init is) :
    Along (step cfg) (fun s _ => s.Alone) init is :=
  Along.mono (fun s i s' ho hi => step_oneAwaits ho hi) (fun s i ho _ => ho.alone)
    (fun id id' l l' hl => by cases hl) h

/-- In a sequential run, no two credited hashes denote the same transaction,
exactly when no receipt that pays comes in for another spelling of a spent
hash. -/
theorem distinct_transactions_iff (cfg : VerifyConfig) (is : List Input)
    (h : Along (step cfg) Sequential init is) :
    ((trace (step cfg) (credited cfg) init is).map hash32).Nodup ↔
      Along (step cfg) (NoOtherSpelling cfg) init is := by
  rw [nodup_credited_iff]
  constructor
  · intro hd
    exact AtPayment.along hd (along_unspent (sequential_alone h))
      fun s id receipt l _ _ hs g hg _ => hs g hg
  · intro hn
    refine AtPayment.along hn (along_unspent (sequential_alone h)) ?_
    intro s id receipt l hu hl hs g hg
    -- a sequential call has just found its own string unspent
    exact hs g hg fun hgl => hu id l hl (hgl ▸ hg)

def sampleRespelled : String :=
  "0xAB00000000000000000000000000000000000000000000000000000000000001"

theorem sampleRespelled_value : hash32 sampleRespelled = hash32 sampleHash := by decide +kernel

def sampleChain (value : Nat) : Option Receipt :=
  if hash32 sampleHash = some value then some sampleReceipt else none

/-- One payment, shown twice, one call after the other. -/
def sampleSpellings : List Input :=
  [.call 0 (sampleOpts sampleHash), .receipt 0 (some sampleReceipt),
    .call 1 (sampleOpts sampleRespelled), .receipt 1 (some sampleReceipt)]

def samplePaid : Verifier where
  spent := {sampleHash}
  calls := Function.update
    (Function.update init.calls 0 (some (.awaiting (sampleLookup sampleHash))))
    0 (some (.done (.ok (.paid 1000000))))

theorem samplePaid_exec :
    exec (step sampleVerifyConfig) init (sampleSpellings.take 2) = some samplePaid := by
  have hcall := sampleOpts_verify sampleHash ∅ (by simp)
  simp [sampleSpellings, exec, step, init, hcall, Lookup.resume, sampleLookup_transfer, samplePaid]
  rfl

theorem sampleSpellings_sequential :
    Along (step sampleVerifyConfig) Sequential init sampleSpellings := by
  rw [← List.take_append_drop 2 sampleSpellings, along_append, samplePaid_exec]
  refine ⟨⟨?_, fun _ _ => ⟨trivial, fun _ _ => trivial⟩⟩, ?_⟩
  · intro id l hl
    cases hl
  · rintro s ⟨⟩
    refine ⟨fun id l hl => ?_, fun _ _ => ⟨trivial, fun _ _ => trivial⟩⟩
    by_cases hid : id = 0
    · simp [samplePaid, hid] at hl
    · simp [samplePaid, hid, init] at hl

theorem sampleSpellings_answers :
    Along (step sampleVerifyConfig) (Answers sampleChain) init sampleSpellings := by
  have hcall := sampleOpts_verify sampleHash ∅ (by simp)
  have hrespelled := sampleOpts_verify sampleRespelled {sampleHash} (by decide +kernel)
  have hreceipt : getTransactionReceipt sampleChain sampleHash = some sampleReceipt ∧
      getTransactionReceipt sampleChain sampleRespelled = some sampleReceipt := by
    have hsome : (hash32 sampleHash).isSome = true := by decide +kernel
    obtain ⟨value, hvalue⟩ := Option.isSome_iff_exists.mp hsome
    simp [getTransactionReceipt, sampleRespelled_value, hvalue, sampleChain]
  rw [← List.take_append_drop 2 sampleSpellings, along_append, samplePaid_exec]
  constructor
  · refine ⟨trivial, fun s hs => ⟨?_, fun _ _ => trivial⟩⟩
    simp only [step, init, Option.some.injEq] at hs
    subst hs
    intro l hl
    simp only [Function.update_self, Option.some.injEq, hcall, VerifyCall.awaiting.injEq] at hl
    rw [← hl]
    exact hreceipt.1.symm
  · rintro s ⟨⟩
    refine ⟨trivial, fun s hs => ⟨?_, fun _ _ => trivial⟩⟩
    have hidle : samplePaid.calls 1 = none := rfl
    simp only [step, hidle, Option.some.injEq] at hs
    subst hs
    intro l hl
    simp only [Function.update_self, Option.some.injEq, samplePaid, hrespelled,
      VerifyCall.awaiting.injEq] at hl
    rw [← hl]
    exact hreceipt.2.symm

theorem sampleSpellings_credited :
    ¬ ((trace (step sampleVerifyConfig) (credited sampleVerifyConfig) init sampleSpellings).map
      hash32).Nodup := by
  have htrace : trace (step sampleVerifyConfig) (credited sampleVerifyConfig) init sampleSpellings =
      [sampleHash, sampleRespelled] := by decide +kernel
  rw [htrace]
  simp [sampleRespelled_value]

/-- The one transaction is credited to both calls. -/
theorem respelled_credited :
    ¬ ∀ chain is, Along (step sampleVerifyConfig) Sequential init is →
      Along (step sampleVerifyConfig) (Answers chain) init is →
      ((trace (step sampleVerifyConfig)
        (credited sampleVerifyConfig) init is).map hash32).Nodup := by
  intro h
  exact sampleSpellings_credited (h _ _ sampleSpellings_sequential sampleSpellings_answers)

theorem distinct_transactions_sample :
    ¬ Along (step sampleVerifyConfig) (NoOtherSpelling sampleVerifyConfig) init
      sampleSpellings := by
  rw [← distinct_transactions_iff sampleVerifyConfig sampleSpellings sampleSpellings_sequential]
  exact sampleSpellings_credited

end Verifier

end Xelt.VpnServer
