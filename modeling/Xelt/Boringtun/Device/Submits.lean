import Mathlib.Data.Finset.Card
import Xelt.Boringtun.Device.Steps

/-!
# What a payment submit does

A submit passes two sets of checks. The cheap ones ask whether it is for this
server and worth enough; one that meets them has its nonce recorded. Only then
come the signature and the settlement. So a quota is credited at most once for
a nonce, and a submit that fails late uses its nonce up.
-/

namespace Xelt.Boringtun

open Noise Payment Runs Bytes

variable {prim : Primitives} {d : PaymentState} {env : Env} {p : Peer}

/-- The cheap checks: the server has a wallet, the submit pays to it, and
pays enough. -/
def Addressed (d : PaymentState) (submit : PaymentSubmit) : Prop :=
  (∃ wallet, d.paymentWallet = some wallet ∧ submit.toAddr = wallet.ethereumAddress) ∧
    d.paymentConfig.amountPerQuota ≤ submit.value

/-- The late checks: the sender signed, and the settlement service, when there
is one, answered with success. -/
structure Payable (prim : Primitives) (d : PaymentState) (env : Env) (submit : PaymentSubmit) :
    Prop where
  signed : verifyAuthorization prim d.paymentConfig.gatewayDomain (signedOf submit) =
    some submit.fromAddr
  settled : d.settlementClient = false ∨ env.settlement = .response true

/-- What a payload makes of a quota, with the payment effects it takes. -/
inductive Submitted (prim : Primitives) (d : PaymentState) (env : Env) (q : BandwidthQuota)
    (payload : Bytes) : BandwidthQuota → List Effect → Prop
  | ignored (h : ∀ submit, PaymentSubmit.decode payload = some submit → ¬ Addressed d submit) :
      Submitted prim d env q payload q []
  | refused (hs : PaymentSubmit.decode payload = some submit) (ha : Addressed d submit)
      (h : submit.nonce ∈ q.usedNonces ∨ ¬ Payable prim d env submit) :
      Submitted prim d env q payload (q.checkAndRecordNonce submit.nonce).2 []
  | credited (hs : PaymentSubmit.decode payload = some submit) (ha : Addressed d submit)
      (hn : submit.nonce ∉ q.usedNonces) (hp : Payable prim d env submit) :
      Submitted prim d env q payload
        ((q.checkAndRecordNonce submit.nonce).2.credit d.paymentConfig.quotaBytes)
        [.credit d.paymentConfig.quotaBytes]

/-- A submit that fails a cheap check is dropped. -/
theorem handlePaymentSubmit_ignored
    (h : ∀ submit, PaymentSubmit.decode payload = some submit → ¬ Addressed d submit) :
    handlePaymentSubmit prim d env p payload = (p, []) := by
  unfold handlePaymentSubmit
  split
  · rfl
  · rename_i wallet hw
    split
    · rfl
    · rename_i submit hs
      split
      · rfl
      · rename_i hto
        split
        · rfl
        · rename_i hlt
          exact absurd ⟨⟨wallet, hw, not_not.mp hto⟩, UInt64.not_lt.mp hlt⟩ (h submit hs)

/-- One that meets them and fails later leaves its nonce recorded. -/
theorem handlePaymentSubmit_refused (hq : p.quota = some q)
    (hs : PaymentSubmit.decode payload = some submit) (ha : Addressed d submit)
    (h : submit.nonce ∈ q.usedNonces ∨ ¬ Payable prim d env submit) :
    (handlePaymentSubmit prim d env p payload).1.quota =
        some (q.checkAndRecordNonce submit.nonce).2 ∧
      payments (handlePaymentSubmit prim d env p payload).2 = [] := by
  obtain ⟨⟨wallet, hw, hto⟩, hv⟩ := ha
  simp only [handlePaymentSubmit, hw, hs, hto, ne_eq, not_true, if_false, UInt64.not_lt.mpr hv,
    recordNonce, hq]
  by_cases hn : submit.nonce ∈ q.usedNonces
  · have hfresh : (q.checkAndRecordNonce submit.nonce).1 = false := by
      simp [BandwidthQuota.checkAndRecordNonce, hn]
    simp [hfresh]
  have hnp := h.resolve_left hn
  have hfresh : (q.checkAndRecordNonce submit.nonce).1 = true := by
    simp [BandwidthQuota.checkAndRecordNonce, hn]
  simp only [hfresh, Bool.not_true, Bool.false_eq_true, if_false]
  split
  · exact ⟨rfl, rfl⟩
  · rename_i hsig
    have hsig := not_not.mp hsig
    split
    · rename_i hclient
      exact absurd ⟨hsig, .inl (by simpa using hclient)⟩ hnp
    · split
      · rename_i hset
        exact absurd ⟨hsig, .inr hset⟩ hnp
      · exact ⟨rfl, rfl⟩
      · exact ⟨rfl, rfl⟩

/-- One that meets all checks is credited, on either of the two paths. -/
theorem handlePaymentSubmit_credited (hq : p.quota = some q)
    (hs : PaymentSubmit.decode payload = some submit) (ha : Addressed d submit)
    (hn : submit.nonce ∉ q.usedNonces) (hp : Payable prim d env submit) :
    (handlePaymentSubmit prim d env p payload).1.quota =
        some ((q.checkAndRecordNonce submit.nonce).2.credit d.paymentConfig.quotaBytes) ∧
      payments (handlePaymentSubmit prim d env p payload).2 =
        [.credit d.paymentConfig.quotaBytes] := by
  obtain ⟨⟨wallet, hw, hto⟩, hv⟩ := ha
  have hfresh : (q.checkAndRecordNonce submit.nonce).1 = true := by
    simp [BandwidthQuota.checkAndRecordNonce, hn]
  have hsent (p : Peer) := sendPaymentAccepted_sends (g := .zero) (d := d) (p := p)
  simp only [handlePaymentSubmit, hw, hs, hto, ne_eq, not_true, if_false, UInt64.not_lt.mpr hv,
    recordNonce, hq, hfresh, Bool.not_true, Bool.false_eq_true, hp.signed, creditPeer]
  split
  · exact ⟨(hsent _).quota, by simp [(hsent _).payments, payments_cons]⟩
  · rename_i hclient
    have hset := hp.settled.resolve_left (by simpa using hclient)
    simp only [hset]
    exact ⟨(hsent _).quota, by simp [(hsent _).payments, payments_cons]⟩

theorem handlePaymentSubmit_submitted (prim : Primitives) (d : PaymentState) (env : Env)
    (payload : Bytes) (hq : p.quota = some q) :
    ∃ q', (handlePaymentSubmit prim d env p payload).1.quota = some q' ∧
      Submitted prim d env q payload q'
        (payments (handlePaymentSubmit prim d env p payload).2) := by
  by_cases h : ∃ submit, PaymentSubmit.decode payload = some submit ∧ Addressed d submit
  · obtain ⟨submit, hs, ha⟩ := h
    by_cases hpass : submit.nonce ∉ q.usedNonces ∧ Payable prim d env submit
    · obtain ⟨hquota, hpays⟩ := handlePaymentSubmit_credited hq hs ha hpass.1 hpass.2
      exact ⟨_, hquota, hpays ▸ .credited hs ha hpass.1 hpass.2⟩
    · have hfail : submit.nonce ∈ q.usedNonces ∨ ¬ Payable prim d env submit := by
        rwa [not_and_or, not_not] at hpass
      obtain ⟨hquota, hpays⟩ := handlePaymentSubmit_refused hq hs ha hfail
      exact ⟨_, hquota, hpays ▸ .refused hs ha hfail⟩
  · have h : ∀ submit, PaymentSubmit.decode payload = some submit → ¬ Addressed d submit :=
      fun submit hs ha => h ⟨submit, hs, ha⟩
    rw [handlePaymentSubmit_ignored h]
    exact ⟨q, hq, .ignored h⟩

def Effect.isCredit : Effect → Bool
  | .credit _ => true
  | _ => false

theorem credit_mem_payments {effects : List Effect} :
    (∃ bytes, .credit bytes ∈ effects) ↔ ∃ bytes, .credit bytes ∈ payments effects := by
  simp [payments]

-- ---------------------------------------------------------------------------
-- The quota of one peer over its payloads
-- ---------------------------------------------------------------------------

/-- Every check a submit has to meet on the peer it comes from. -/
def Passes (prim : Primitives) (d : PaymentState) (env : Env) (p : Peer) (submit : PaymentSubmit) :
    Prop :=
  Addressed d submit ∧ Payable prim d env submit ∧
    ∃ q, p.quota = some q ∧ submit.nonce ∉ q.usedNonces

theorem credits_iff (hq : p.quota = some q) :
    (∃ bytes, .credit bytes ∈ (handlePaymentSubmit prim d env p payload).2) ↔
      ∃ submit, PaymentSubmit.decode payload = some submit ∧ Passes prim d env p submit := by
  obtain ⟨q', -, h⟩ := handlePaymentSubmit_submitted prim d env payload hq
  rw [credit_mem_payments]
  simp only [Passes, hq, Option.some.injEq, exists_eq_left']
  generalize payments (handlePaymentSubmit prim d env p payload).2 = pays at h ⊢
  cases h with
  | ignored h =>
    simp only [List.not_mem_nil, exists_false, false_iff]
    rintro ⟨submit, hs, ha, -⟩
    exact h submit hs ha
  | refused hs ha h =>
    simp only [List.not_mem_nil, exists_false, false_iff]
    rintro ⟨submit, hs', -, hp, hn⟩
    obtain rfl := Option.some.inj (hs.symm.trans hs')
    exact h.elim hn fun h => h hp
  | credited hs ha hn hp =>
    exact iff_of_true ⟨_, List.mem_singleton_self _⟩ ⟨_, hs, ha, hp, hn⟩

/-- What happens to the quota of a peer: a payload comes in for
`handle_payment_submit`, or a packet is metered. -/
inductive QuotaCall
  | submit (prim : Primitives) (d : PaymentState) (env : Env) (payload : Bytes)
  | packet (d : PaymentState) (len : Nat)

namespace QuotaCall

def result (p : Peer) : QuotaCall → Peer × List Effect
  | .submit prim d env payload => handlePaymentSubmit prim d env p payload
  | .packet d len => (meterPeer d p len).2

def step (p : Peer) (c : QuotaCall) : Option Peer := some (c.result p).1

def nonce? : QuotaCall → Option Bytes32
  | .submit _ _ _ payload => (PaymentSubmit.decode payload).map (·.nonce)
  | .packet .. => none

/-- The nonces a call credits, one for each time it credits the quota. -/
def creditedNonces (p : Peer) (c : QuotaCall) : List Bytes32 :=
  ((c.result p).2.filter (·.isCredit)).filterMap fun _ => c.nonce?

/-- A call credits what meets every check, and nothing else. -/
def CreditsChecked (p : Peer) (c : QuotaCall) : Prop :=
  (∃ bytes, .credit bytes ∈ (c.result p).2) ↔
    ∃ prim d env payload submit, c = .submit prim d env payload ∧
      PaymentSubmit.decode payload = some submit ∧ Passes prim d env p submit

end QuotaCall

/-- The nonces `past` were credited on a quota, each once. -/
structure Tallied (q : BandwidthQuota) (past : List Bytes32) : Prop where
  once : past.Nodup
  recorded : ∀ nonce ∈ past, nonce ∈ q.usedNonces
  counted : q.paymentCount.toNat ≤ past.length

theorem tallied_new : Tallied (.new bytes) [] :=
  ⟨List.nodup_nil, by simp, Nat.zero_le _⟩

theorem Tallied.count_le (h : Tallied q past) : q.paymentCount.toNat ≤ q.usedNonces.card := by
  have hsub : past.toFinset ⊆ q.usedNonces := fun nonce hn =>
    h.recorded nonce (List.mem_toFinset.mp hn)
  calc q.paymentCount.toNat
      ≤ past.length := h.counted
    _ = past.toFinset.card := (List.toFinset_card_of_nodup h.once).symm
    _ ≤ q.usedNonces.card := Finset.card_le_card hsub

theorem Tallied.keep (h : Tallied q past) (hc : q'.paymentCount = q.paymentCount)
    (hn : q.usedNonces ⊆ q'.usedNonces) : Tallied q' past :=
  ⟨h.once, fun nonce hm => hn (h.recorded nonce hm), hc ▸ h.counted⟩

theorem Tallied.credit (h : Tallied q past) (hn : nonce ∉ q.usedNonces) (bytes : UInt64) :
    Tallied ((q.checkAndRecordNonce nonce).2.credit bytes) (past ++ [nonce]) where
  once := by
    refine List.nodup_append.mpr ⟨h.once, List.nodup_singleton _, fun a ha b hb => ?_⟩
    rintro rfl
    exact hn (List.mem_singleton.mp hb ▸ h.recorded a ha)
  recorded n hm := by
    rcases List.mem_append.mp hm with hm | hm
    · exact Finset.mem_insert_of_mem (h.recorded n hm)
    · rw [List.mem_singleton.mp hm]
      exact Finset.mem_insert_self _ _
  counted := by
    have hc := h.counted
    simp only [BandwidthQuota.credit_paymentCount, BandwidthQuota.nonce_paymentCount,
      UInt64.toNat_add, List.length_append, List.length_singleton]
    exact le_trans (Nat.mod_le _ _) (Nat.add_le_add_right hc 1)

theorem filter_credit_payments (effects : List Effect) :
    (payments effects).filter (·.isCredit) = effects.filter (·.isCredit) := by
  rw [payments, List.filter_filter]
  refine List.filter_congr fun e _ => ?_
  cases e <;> rfl

theorem meterPeer_payments (d : PaymentState) (len : Nat) (hq : p.quota = some q) :
    (∃ q', (meterPeer d p len).2.1.quota = some q' ∧ q'.paymentCount = q.paymentCount ∧
      q'.usedNonces = q.usedNonces) ∧
    ∀ bytes, .credit bytes ∉ (meterPeer d p len).2.2 := by
  cases hs : d.paymentConfig.isServer with
  | false => exact ⟨⟨q, by simp [meterPeer, hs, hq]⟩, by simp [meterPeer, hs]⟩
  | true =>
    rcases meterPeer_cases hs hq len with ⟨hb, hm⟩ | ⟨hx, hm⟩ | ⟨hf, hm⟩
    · exact ⟨⟨q, by simp [hm, hq]⟩, by simp [hm]⟩
    · exact ⟨⟨_, by rw [hm], q.meter_payments _⟩, by simp [hm]⟩
    · exact ⟨⟨_, by rw [hm], q.meter_payments _⟩, by simp [hm]⟩

namespace QuotaCall

theorem checked (hq : p.quota = some q) (c : QuotaCall) : c.CreditsChecked p := by
  cases c with
  | submit prim d env payload =>
    refine (credits_iff hq).trans ⟨?_, ?_⟩
    · rintro ⟨submit, hs, hp⟩
      exact ⟨prim, d, env, payload, submit, rfl, hs, hp⟩
    · rintro ⟨prim', d', env', payload', submit, hc, hs, hp⟩
      cases hc
      exact ⟨submit, hs, hp⟩
  | packet d len =>
    refine iff_of_false ?_ ?_
    · rintro ⟨bytes, hm⟩
      exact (meterPeer_payments d len hq).2 bytes hm
    · rintro ⟨_, _, _, _, _, hc, -⟩
      cases hc

theorem tallied (hq : p.quota = some q) (ht : Tallied q past) (c : QuotaCall) :
    ∃ q', (c.result p).1.quota = some q' ∧ Tallied q' (past ++ c.creditedNonces p) := by
  cases c with
  | submit prim d env payload =>
    obtain ⟨q', hq', h⟩ := handlePaymentSubmit_submitted prim d env payload hq
    refine ⟨q', hq', ?_⟩
    rw [creditedNonces, ← filter_credit_payments]
    simp only [result]
    generalize payments (handlePaymentSubmit prim d env p payload).2 = pays at h
    cases h with
    | ignored h => simpa using ht
    | @refused submit hs ha h =>
      have hk : Tallied (q.checkAndRecordNonce submit.nonce).2 past :=
        ht.keep rfl (Finset.subset_insert _ _)
      simpa using hk
    | credited hs ha hn hp => simpa [Effect.isCredit, nonce?, hs] using ht.credit hn _
  | packet d len =>
    obtain ⟨⟨q', hq', hc, hn⟩, -⟩ := meterPeer_payments d len hq
    exact ⟨q', hq', by simpa [creditedNonces, nonce?] using ht.keep hc hn.ge⟩

theorem run_tallied (hq : p.quota = some (.new initial)) (he : exec step p calls = some p') :
    ∃ q, p'.quota = some q ∧ Tallied q (trace step (fun p c => c.creditedNonces p) p calls) := by
  have h := invariant_trace (C := fun _ _ => True)
    (I := fun p past => ∃ q, p.quota = some q ∧ Tallied q past)
    (fun p c => c.creditedNonces p) [] ?_ ⟨_, hq, tallied_new⟩
    (along_iff_at.mpr fun _ _ _ _ _ _ => trivial) he
  · simpa using h
  · rintro p c p' past ⟨q, hq, ht⟩ - ⟨⟩
    exact tallied hq ht c

/-- Over any sequence of payloads, with packets metered in between, a fresh
quota is credited exactly for the submits that meet every check, each nonce at
most once, and it counts no more payments than it has nonces. -/
theorem credits_sound (p : Peer) (initial : UInt64) (calls : List QuotaCall) :
    let p₀ : Peer := { p with quota := some (.new initial) }
    Along step (fun p c => c.CreditsChecked p) p₀ calls ∧
      (trace step (fun p c => c.creditedNonces p) p₀ calls).Nodup ∧
      ∃ p' q, exec step p₀ calls = some p' ∧ p'.quota = some q ∧
        q.paymentCount.toNat ≤ q.usedNonces.card := by
  intro p₀
  have hq : p₀.quota = some (.new initial) := rfl
  obtain ⟨p', he⟩ := exec_total step (fun p c => ⟨_, rfl⟩) p₀ calls
  obtain ⟨q, hq', ht⟩ := run_tallied hq he
  refine ⟨along_iff_at.mpr fun pre c post p₁ _ he₁ => ?_, ht.once, p', q, he, hq', ht.count_le⟩
  obtain ⟨q₁, hq₁, -⟩ := run_tallied hq he₁
  exact c.checked hq₁

theorem result_nonces (hq : p.quota = some q) (c : QuotaCall) :
    ∃ q', (c.result p).1.quota = some q' ∧ q.usedNonces ⊆ q'.usedNonces := by
  cases c with
  | submit prim d env payload =>
    obtain ⟨q', hq', h⟩ := handlePaymentSubmit_submitted prim d env payload hq
    refine ⟨q', hq', ?_⟩
    generalize payments (handlePaymentSubmit prim d env p payload).2 = pays at h
    cases h with
    | ignored h => exact Finset.Subset.refl _
    | refused hs ha h => exact Finset.subset_insert _ _
    | credited hs ha hn hp => exact Finset.subset_insert _ _
  | packet d len =>
    obtain ⟨⟨q', hq', -, hn⟩, -⟩ := meterPeer_payments d len hq
    exact ⟨q', hq', hn.ge⟩

end QuotaCall

theorem recorded_uncredited (hq : p.quota = some q) (hn : nonce ∈ q.usedNonces)
    (he : exec QuotaCall.step p calls = some p') (hs : PaymentSubmit.decode payload = some submit)
    (hsn : submit.nonce = nonce) :
    ∀ bytes, .credit bytes ∉ (handlePaymentSubmit prim d env p' payload).2 := by
  have hi : ∃ q, p'.quota = some q ∧ nonce ∈ q.usedNonces := by
    refine invariant_run (I := fun p => ∃ q, p.quota = some q ∧ nonce ∈ q.usedNonces) ?_
      ⟨q, hq, hn⟩ he
    rintro p c p' ⟨q, hq, hn⟩ ⟨⟩
    obtain ⟨q', hq', hsub⟩ := QuotaCall.result_nonces hq c
    exact ⟨q', hq', hsub hn⟩
  obtain ⟨q', hq', hn'⟩ := hi
  intro bytes hm
  obtain ⟨submit', hs', -, -, q'', hq'', hfresh⟩ := (credits_iff hq').mp ⟨bytes, hm⟩
  obtain rfl := Option.some.inj (hs.symm.trans hs')
  obtain rfl := Option.some.inj (hq'.symm.trans hq'')
  exact hfresh (hsn ▸ hn')

/-- A call that credits nothing leaves the counters and the flag of the quota
as they were. Of its nonces it leaves all, and adds that of a submit which met
the cheap checks; no later call on this quota credits that nonce. -/
theorem uncredited_quota (prim : Primitives) (d : PaymentState) (env : Env) (payload : Bytes)
    (hq : p.quota = some q)
    (hc : ∀ bytes, .credit bytes ∉ (handlePaymentSubmit prim d env p payload).2) :
    ∃ used, (handlePaymentSubmit prim d env p payload).1.quota =
        some { q with usedNonces := used } ∧
      (∀ nonce, nonce ∈ used ↔ nonce ∈ q.usedNonces ∨
        ∃ submit, PaymentSubmit.decode payload = some submit ∧ Addressed d submit ∧
          submit.nonce = nonce) ∧
      ∀ submit, PaymentSubmit.decode payload = some submit → Addressed d submit →
        ∀ calls p' prim' d' env' payload' submit',
          exec QuotaCall.step (handlePaymentSubmit prim d env p payload).1 calls = some p' →
          PaymentSubmit.decode payload' = some submit' → submit'.nonce = submit.nonce →
          ∀ bytes, .credit bytes ∉ (handlePaymentSubmit prim' d' env' p' payload').2 := by
  by_cases h : ∃ submit, PaymentSubmit.decode payload = some submit ∧ Addressed d submit
  · obtain ⟨submit, hs, ha⟩ := h
    have hfail : submit.nonce ∈ q.usedNonces ∨ ¬ Payable prim d env submit := by
      by_contra hpass
      rw [not_or, not_not] at hpass
      obtain ⟨bytes, hm⟩ := (credits_iff hq).mpr ⟨submit, hs, ha, hpass.2, q, hq, hpass.1⟩
      exact hc bytes hm
    have hquota := (handlePaymentSubmit_refused hq hs ha hfail).1
    refine ⟨insert submit.nonce q.usedNonces, hquota, fun nonce => ?_, ?_⟩
    · rw [Finset.mem_insert]
      constructor
      · rintro (rfl | hn)
        · exact .inr ⟨submit, hs, ha, rfl⟩
        · exact .inl hn
      · rintro (hn | ⟨submit', hs', -, rfl⟩)
        · exact .inr hn
        · exact .inl (by rw [Option.some.inj (hs.symm.trans hs')])
    · intro submit₀ hs₀ _ calls p' prim' d' env' payload' submit' he hs' hn
      obtain rfl := Option.some.inj (hs.symm.trans hs₀)
      exact recorded_uncredited hquota (Finset.mem_insert_self _ _) he hs' hn
  · have hignored : ∀ submit, PaymentSubmit.decode payload = some submit → ¬ Addressed d submit :=
      fun submit hs ha => h ⟨submit, hs, ha⟩
    rw [handlePaymentSubmit_ignored hignored]
    refine ⟨q.usedNonces, hq, fun nonce => ⟨.inl, fun hn => hn.elim id ?_⟩, ?_⟩
    · rintro ⟨submit, hs, ha, -⟩
      exact absurd ha (hignored submit hs)
    · intro submit hs ha
      exact absurd ha (hignored submit hs)

-- ---------------------------------------------------------------------------
-- A sample payment
-- ---------------------------------------------------------------------------

/-- The wallet of a peer whose private key is 32 twos. -/
def samplePayer : PaymentWallet where
  signingKey := beArray 32 0x32ea92717eb064ad871ffc1afdb291e93fb79b2ffde7a3a9117b7ae796e78c0a
  ethereumAddress := beArray 20 0xe5018f40fe93f54942f59de1d96548eac9b0fd10

/-- The authorization the peer signs when the server asks for a payment with
the nonce of `sampleEnv`. -/
def sampleSubmit : PaymentSubmit where
  fromAddr := samplePayer.ethereumAddress
  toAddr := sampleWallet.ethereumAddress
  value := 10000
  validAfter := 0
  validBefore := 1700345600
  nonce := beArray 32 7
  v := 27
  r := beArray 32 0x61483e2c89b90ed5973cea0f2a4115aa49e2327cedf657295914e39aa1847a86
  s := beArray 32 0x52b070f6259d7a2afd2e456e65ec83ce5c609c9dd7d5ed40ad2c53a27b98df4a

/-- The digest of `sampleSubmit` under the domain of `sampleConfig`. -/
def sampleDigest : Bytes32 :=
  beArray 32 0xb6fdb987669e5dd4967e0bb8d4e620cbf56900f3b0b3b470118f3860d730a4ae

/-- The hashes taken on the way to `sampleDigest`, told apart by the length of
what is hashed. -/
def sampleHashes : List (Nat × Nat) :=
  [(82, 0x8b73c3c69bb8fe3d512ecc4cf759cc79239f7b179b0ffacaa9a75d522b39400f),
    (20, 0x363ac721d4bc73b414e911527e7061a0186228f5ef573f2174e7d58ed4bbdf11),
    (1, 0xc89efdaa54c0f20c7adf612882df0950f5a951637e0307cdcb4c672f298b8bc6),
    (160, 0x777f1a7bd2dd4cb786270c436ca4c6349f27d20cf59769780fe13355920306f0),
    (117, 0x7c7c6cdb67a18743f49ec6fa9b35f50d52ed05cbed4cc592e13b44501c1a2267),
    (224, 0xd47866148b2ef35a91ee44d5e67767f09be437ba57508cda04fa0d8e448706ec),
    (66, 0xb6fdb987669e5dd4967e0bb8d4e620cbf56900f3b0b3b470118f3860d730a4ae)]

/-- The library calls, as far as the sample payment asks them. -/
def payingPrimitives : Primitives where
  keccak256 input := beArray 32 ((sampleHashes.lookup input.length).getD 0)
  x25519PublicKey := samplePrimitives.x25519PublicKey
  fromWireguardKey := samplePrimitives.fromWireguardKey
  signDigest _ _ := (sampleSubmit.v, sampleSubmit.r, sampleSubmit.s)
  recoverAddress digest v r s :=
    if digest = sampleDigest ∧ v = sampleSubmit.v ∧ r = sampleSubmit.r ∧ s = sampleSubmit.s then
      some samplePayer.ethereumAddress
    else none

def samplePayload : Bytes := sampleSubmit.encode

/-- The server of the sample, as its handlers see it. -/
def sampleState : PaymentState where
  paymentConfig := sampleConfig.toPaymentConfig
  paymentWallet := some sampleWallet
  settlementClient := true

def sampleSettled : Env := { sampleEnv with settlement := .response true }

/-- The settlement service fails for a valid submit, and its nonce is used up:
submitted again, it is not credited, although the service now accepts it. -/
theorem settlement_error_burns_nonce :
    let failed :=
      handlePaymentSubmit payingPrimitives sampleState sampleEnv samplePeer samplePayload
    payments failed.2 = [] ∧ failed.1.quota ≠ samplePeer.quota ∧
      payments (handlePaymentSubmit payingPrimitives sampleState sampleSettled failed.1
        samplePayload).2 = [] ∧
      payments (handlePaymentSubmit payingPrimitives sampleState sampleSettled samplePeer
        samplePayload).2 = [.credit sampleConfig.quotaBytes] := by
  decide +kernel

/-- The nonce of the submit whose settlement failed is the one thing changed. -/
theorem uncredited_quota_sample :
    ∃ used, (handlePaymentSubmit payingPrimitives sampleState sampleEnv samplePeer
          samplePayload).1.quota =
        some { BandwidthQuota.new defaultQuotaBytes with usedNonces := used } ∧
      beArray 32 7 ∈ used := by
  have hpays : payments (handlePaymentSubmit payingPrimitives sampleState sampleEnv samplePeer
      samplePayload).2 = [] := by decide +kernel
  have hdecode : PaymentSubmit.decode samplePayload = some sampleSubmit := by decide +kernel
  have haddressed : Addressed sampleState sampleSubmit :=
    ⟨⟨sampleWallet, rfl, rfl⟩, by decide⟩
  obtain ⟨used, hquota, hused, -⟩ := uncredited_quota payingPrimitives sampleState sampleEnv
    (p := samplePeer) samplePayload rfl fun bytes hm => by
      obtain ⟨bytes', hm'⟩ := credit_mem_payments.mp ⟨bytes, hm⟩
      rw [hpays] at hm'
      cases hm'
  exact ⟨used, hquota, (hused _).mpr (.inr ⟨sampleSubmit, hdecode, haddressed, rfl⟩)⟩

end Xelt.Boringtun
