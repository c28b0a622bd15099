import Xelt.Boringtun.HttpApi.Agreement

/-!
# What a tick may remove

A tick compares the table, as it is once locked, with a snapshot of the
device made before. A peer registered in between is in the table and need not
be in the snapshot, and what the snapshot lacks is removed. A tick spares the
peers registered since its snapshot exactly when the snapshot lists them all
the same, young enough.
-/

namespace Xelt.Boringtun.HttpApi

open Runs

/-- The snapshot lists a key with a recent handshake, or without one while
its registration is recent. -/
def ListedFresh (inner : RegistrationInner) (snapshot : Snapshot) (nowInstant : Nat)
    (key : Bytes32) : Prop :=
  (∃ age, snapshot.lookup key = some (some age) ∧ 0 < age ∧ age ≤ 600) ∨
  ((snapshot.lookup key = some none ∨ snapshot.lookup key = some (some 0)) ∧
    ∀ registeredAt, inner.peerRegisteredAt.lookup key = some registeredAt →
      nowInstant - registeredAt < 601 * 10 ^ 9)

theorem dlookup_map {β : Type} (es : List (Σ _ : Bytes32, PeerId)) (f : Bytes32 → β)
    (key : Bytes32) :
    (es.map fun e => (⟨e.1, f e.1⟩ : Σ _ : Bytes32, β)).dlookup key =
      (es.dlookup key).map fun _ => f key := by
  induction es with
  | nil => rfl
  | cons e es ih =>
    obtain ⟨k, pid⟩ := e
    by_cases hk : k = key
    · subst hk
      simp [List.dlookup_cons_eq]
    · simp [List.dlookup_cons_ne, Ne.symm hk, ih]

theorem uapiGetPeers_lookup (d : Device) (ages : Bytes32 → Option Nat) (key : Bytes32) :
    (uapiGetPeers d ages).lookup key = (d.peers.lookup key).map fun _ => ages key :=
  dlookup_map d.peers.entries ages key

theorem neverConnectedStale_iff {inner : RegistrationInner} :
    neverConnectedStale inner nowInstant key = false ↔
      ∀ registeredAt, inner.peerRegisteredAt.lookup key = some registeredAt →
        nowInstant - registeredAt < 601 * 10 ^ 9 := by
  unfold neverConnectedStale
  cases inner.peerRegisteredAt.lookup key with
  | none => simp
  | some registeredAt =>
    have h : (nowInstant - registeredAt) / 10 ^ 9 ≤ 600 ↔
        nowInstant - registeredAt < 601 * 10 ^ 9 := by omega
    simpa [staleNeverConnectedSecs] using h

theorem isStale_iff {inner : RegistrationInner} :
    isStale inner snapshot nowInstant key = false ↔
      ListedFresh inner snapshot nowInstant key := by
  unfold isStale ListedFresh
  cases hl : snapshot.lookup key with
  | none => simp
  | some age? =>
    cases age? with
    | none => simp [neverConnectedStale_iff]
    | some age =>
      by_cases h0 : 0 < age
      · have hne : age ≠ 0 := by omega
        simp [h0, hne, stalePeerSecs]
      · obtain rfl : age = 0 := by omega
        simp [neverConnectedStale_iff]

def Input.Succeeds : Input → Prop
  | .uapi c | .reap c => c = .ok
  | .snapshot ages => ∃ f, ages = .ok f
  | .register _ info _ => ∃ port, info = .ok port
  | _ => True

theorem Input.Succeeds.definite {i : Input} (h : i.Succeeds) : i.Definite := by
  cases i <;> first | trivial | (cases h; trivial)

namespace Service

section
variable {cfg : Settings} {base64Decode : String → Option Bytes}

/-- A removal of a tick leaves the keys committed since its snapshot alone:
in the table, and in the device. -/
def SparesCommitted (cfg : Settings) (base64Decode : String → Option Bytes) (s : Service)
    (i : Input) : Prop :=
  ∀ c, i = .reap c → ∀ s', s.step cfg base64Decode i = some s' → ∀ key ∈ s.committed,
    s'.inner.peerToOctet.lookup key = s.inner.peerToOctet.lookup key ∧
      s'.device.netsOf key = s.device.netsOf key

/-- At its scan, a tick finds every key committed since its snapshot, and
still registered, in the snapshot. -/
def ScansFresh (s : Service) (i : Input) : Prop :=
  i = .scan → ∀ snapshot nowInstant, s.reaper = .timed snapshot nowInstant →
    ∀ key ∈ s.committed, (s.inner.peerToOctet.lookup key).isSome →
      ListedFresh s.inner snapshot nowInstant key

/-- The peers a tick will still remove are none of the committed ones. -/
def ReapsOthers (s : Service) : Prop :=
  match s.reaper with
  | .reaping rest => s.http = .idle ∧ ∀ e ∈ rest, e.1 ∉ s.committed
  | _ => True

theorem step_reaping {s : Service} (hr : s.reaper = .reaping rest) (hidle : s.http = .idle)
    (hs : s.step cfg base64Decode i = some s') :
    s'.http = .idle ∧ s'.committed = s.committed ∧
      ((∃ ns, i = .elapse ns ∧ s'.reaper = .reaping rest) ∨
        ∃ c e rest', i = .reap c ∧ rest = e :: rest' ∧ s'.reaper = .ofRest rest') := by
  cases i with
  | elapse ns =>
    cases hs
    exact ⟨hidle, rfl, .inl ⟨ns, rfl, hr⟩⟩
  | reap c =>
    simp only [step, hr] at hs
    split at hs
    · rename_i hrest
      cases hrest
      simp only [Option.some.injEq] at hs
      subst hs
      exact ⟨hidle, rfl, .inr ⟨c, _, _, rfl, rfl, rfl⟩⟩
    · cases hs
  | register pubkeyBase64 info octet => simp [step, handlerFree, hidle, hr] at hs
  | unregister pubkeyBase64 => simp [step, handlerFree, hidle, hr] at hs
  | uapi c => simp [step, hidle] at hs
  | reply => simp [step, hidle] at hs
  | snapshot ages => simp [step, hr] at hs
  | readClock => simp [step, hr] at hs
  | scan => simp [step, hr] at hs

theorem reapsOthers_of_not {s : Service} (h : ∀ rest, s.reaper ≠ .reaping rest) :
    s.ReapsOthers := by
  unfold ReapsOthers
  split
  · rename_i rest hr
    exact absurd hr (h rest)
  · trivial

theorem ofRest_reapsOthers {s : Service} (hr : s.reaper = .ofRest rest) (hidle : s.http = .idle)
    (h : ∀ e ∈ rest, e.1 ∉ s.committed) : s.ReapsOthers := by
  cases rest with
  | nil => exact reapsOthers_of_not fun _ h' => by rw [hr] at h'; cases h'
  | cons e rest =>
    rw [ReapsOthers, hr]
    exact ⟨hidle, h⟩

theorem step_not_reaping {s : Service} (h : ∀ rest, s.reaper ≠ .reaping rest)
    (hs : s.step cfg base64Decode i = some s') :
    (∀ rest, s'.reaper ≠ .reaping rest) ∨
      ∃ snapshot nowInstant, i = .scan ∧ s.reaper = .timed snapshot nowInstant ∧
        s.http = .idle ∧
        s' = { s with reaper := .ofRest (toRemove s.inner snapshot nowInstant) } := by
  cases i with
  | scan =>
    simp only [step] at hs
    split at hs
    · rename_i snapshot nowInstant hr hidle
      cases hs
      exact .inr ⟨snapshot, nowInstant, rfl, hr, hidle, rfl⟩
    · cases hs
  | reap c =>
    simp only [step] at hs
    split at hs
    · rename_i hr
      exact absurd hr (h _)
    · cases hs
  | _ =>
    left
    simp only [step] at hs
    repeat' split at hs
    all_goals first
      | (cases hs; done)
      | (obtain rfl := Option.some.inj hs; first | exact h | (intro rest hr; cases hr))

theorem step_reapsOthers {s : Service} (hi : s.ReapsOthers) (hc : s.ScansFresh i)
    (hs : s.step cfg base64Decode i = some s') : s'.ReapsOthers := by
  by_cases hr : ∃ rest, s.reaper = .reaping rest
  · obtain ⟨rest, hr⟩ := hr
    rw [ReapsOthers, hr] at hi
    obtain ⟨hidle, hothers⟩ := hi
    obtain ⟨hidle', hcommitted, ⟨ns, -, hr'⟩ | ⟨c, e, rest', -, rfl, hr'⟩⟩ :=
      step_reaping hr hidle hs
    · rw [ReapsOthers, hr', hcommitted]
      exact ⟨hidle', hothers⟩
    · refine ofRest_reapsOthers hr' hidle' ?_
      rw [hcommitted]
      exact fun e he => hothers e (List.mem_cons_of_mem _ he)
  · rw [not_exists] at hr
    rcases step_not_reaping hr hs with hr' | ⟨snapshot, nowInstant, rfl, htimed, hidle, rfl⟩
    · exact reapsOthers_of_not hr'
    · refine ofRest_reapsOthers rfl hidle fun e he hmem => ?_
      have hlookup := toRemove_lookup he
      have hfresh := hc rfl snapshot nowInstant htimed e.1 hmem (by simp [hlookup])
      rw [← isStale_iff] at hfresh
      simp only [toRemove, List.mem_map, List.mem_filter] at he
      obtain ⟨x, ⟨-, hstale⟩, rfl⟩ := he
      rw [hfresh] at hstale
      cases hstale

theorem reap_step {s : Service} (hs : s.step cfg base64Decode (.reap .ok) = some s') :
    ∃ key octet rest, s.reaper = .reaping ((key, octet) :: rest) ∧
      (∀ k, s'.inner.peerToOctet.lookup k =
        if k = key then none else s.inner.peerToOctet.lookup k) ∧
      ∀ k, s'.device.netsOf k = if k = key then none else s.device.netsOf k := by
  simp only [step] at hs
  split at hs
  · rename_i key octet rest hr
    simp only [Option.some.injEq] at hs
    subst hs
    exact ⟨key, octet, rest, hr, fun k => RegistrationInner.forget_lookup _ _ k _,
      s.device.removePeer_netsOf key⟩
  · cases hs

theorem spares_of_reapsOthers {s : Service} (hi : s.ReapsOthers) (hok : i.Succeeds) :
    s.SparesCommitted cfg base64Decode i := by
  rintro c rfl s' hs k hk
  obtain rfl : c = .ok := hok
  obtain ⟨key, octet, rest, hr, htable, hdevice⟩ := reap_step hs
  rw [ReapsOthers, hr] at hi
  have hne : k ≠ key := fun h => hi.2 (key, octet) (List.mem_cons_self ..) (h ▸ hk)
  exact ⟨by rw [htable, if_neg hne], by rw [hdevice, if_neg hne]⟩

theorem reaps_committed {s : Service} (hi : Agrees cfg s) (hr : s.reaper = .reaping rest)
    (hkey : (key, octet) ∈ rest) (hmem : key ∈ s.committed) (hok : ∀ i ∈ is, i.Succeeds)
    (he : exec (step cfg base64Decode) s is = some t) (ht : t.reaper = .idle) :
    ¬ Along (step cfg base64Decode) (SparesCommitted cfg base64Decode) s is := by
  induction is generalizing s rest with
  | nil => cases he; rw [hr] at ht; cases ht
  | cons i is ih =>
    rintro ⟨hspares, hrest⟩
    obtain ⟨s', hs, he'⟩ := (exec_cons_some _).mp he
    have hreaping := hi.reaping
    rw [ReapingOk, hr] at hreaping
    have hi' := step_agrees hi (hok i (List.mem_cons_self ..)).definite hs
    have hok' : ∀ i ∈ is, i.Succeeds := fun i h => hok i (List.mem_cons_of_mem _ h)
    obtain ⟨hidle', hcommitted, ⟨ns, -, hr'⟩ | ⟨c, e, rest', rfl, rfl, hr'⟩⟩ :=
      step_reaping hr hreaping.1 hs
    · exact ih hi' hr' hkey (hcommitted ▸ hmem) hok' he' (hrest s' hs)
    · rcases List.mem_cons.mp hkey with rfl | hlater
      · obtain rfl : c = .ok := hok _ (List.mem_cons_self ..)
        obtain ⟨k, o, r, hr₂, htable, -⟩ := reap_step hs
        rw [hr] at hr₂
        cases hr₂
        have hgone := (hspares _ rfl s' hs key hmem).1
        rw [htable, if_pos rfl, hreaping.2.2 (key, octet) (List.mem_cons_self ..)] at hgone
        cases hgone
      · cases rest' with
        | nil => cases hlater
        | cons e' rest' => exact ih hi' hr' hlater (hcommitted ▸ hmem) hok' he' (hrest s' hs)

theorem scan_step {s : Service} (hr : s.reaper = .timed snapshot nowInstant)
    (hs : s.step cfg base64Decode .scan = some s') :
    s' = { s with reaper := .ofRest (toRemove s.inner snapshot nowInstant) } := by
  simp only [step, hr] at hs
  split at hs
  · rename_i h _
    cases h
    exact (Option.some.inj hs).symm
  · cases hs

theorem scansFresh_of_spares {s : Service} (hi : Agrees cfg s) (hok : ∀ j ∈ i :: is, j.Succeeds)
    (he : exec (step cfg base64Decode) s (i :: is) = some t) (ht : t.reaper = .idle)
    (hspares : Along (step cfg base64Decode) (SparesCommitted cfg base64Decode) s (i :: is)) :
    s.ScansFresh i := by
  rintro rfl snapshot nowInstant htimed key hmem hsome
  by_contra hfresh
  rw [← isStale_iff, Bool.not_eq_false] at hfresh
  obtain ⟨octet, hlookup⟩ := Option.isSome_iff_exists.mp hsome
  obtain ⟨s', hs, he'⟩ := (exec_cons_some _).mp he
  have hi' := step_agrees hi (i := .scan) trivial hs
  have hkey : (key, octet) ∈ toRemove s.inner snapshot nowInstant := by
    simp only [toRemove, List.mem_map, List.mem_filter]
    exact ⟨⟨key, octet⟩, ⟨AList.mem_lookup_iff.mp hlookup, hfresh⟩, rfl⟩
  obtain rfl := scan_step htimed hs
  cases hrem : toRemove s.inner snapshot nowInstant with
  | nil => rw [hrem] at hkey; cases hkey
  | cons e rest =>
    have hreaping : ({ s with reaper := .ofRest (toRemove s.inner snapshot nowInstant) } :
        Service).reaper = .reaping (e :: rest) := by rw [hrem]; rfl
    refine reaps_committed hi' hreaping (hrem ▸ hkey) hmem
      (fun i h => hok i (List.mem_cons_of_mem _ h)) he' ht (hspares.2 _ hs)

/-- In a run of the service whose UAPI calls all succeed, the ticks spare
every key registered since their snapshot if each scan finds these keys in
the snapshot, with a handshake of at most 600 seconds or with none and a
registration no older than that; and only if, where the ticks all come to
their end. -/
theorem spares_committed_iff (cfg : Settings) (base64Decode : String → Option Bytes) (d : Device)
    (is : List Input) (hok : ∀ i ∈ is, i.Succeeds) :
    (Along (step cfg base64Decode) ScansFresh (init d) is →
      Along (step cfg base64Decode) (SparesCommitted cfg base64Decode) (init d) is) ∧
    ∀ t, exec (step cfg base64Decode) (init d) is = some t → t.reaper = .idle →
      Along (step cfg base64Decode) (SparesCommitted cfg base64Decode) (init d) is →
        Along (step cfg base64Decode) ScansFresh (init d) is := by
  have hsucceeds : Along (step cfg base64Decode) (fun _ i => i.Succeeds) (init d) is :=
    along_iff_at.mpr fun pre i post t hsplit _ => hok i (by rw [hsplit]; simp)
  constructor
  · intro hfresh
    refine Along.mono (P := fun s i => s.ScansFresh i ∧ i.Succeeds) (I := ReapsOthers)
      (fun s i s' hi hc hs => step_reapsOthers hi hc.1 hs)
      (fun s i hi hc => spares_of_reapsOthers hi hc.2) trivial (hfresh.and hsucceeds)
  · intro t he ht hspares
    rw [along_iff_at]
    rintro pre i post s rfl hpre
    obtain ⟨s', hs, he'⟩ := (exec_append_some _).mp he
    obtain rfl := Option.some.inj (hpre.symm.trans hs)
    have hi : Agrees cfg s := invariant (C := fun _ i => i.Succeeds)
      (fun s i s' hi hc hs => step_agrees hi hc.definite hs) (init_agrees d)
      (along_append.mp hsucceeds).1 hpre
    exact scansFresh_of_spares hi (fun j h => hok j (List.mem_append_right _ h)) he' ht
      ((along_append.mp hspares).2 s hpre)

end

/-- A registration that commits after the snapshot but was in the device
before it: the snapshot lists the key, and the tick spares it. -/
theorem spares_committed_sample :
    let is := [sampleRegister, .uapi .ok, .snapshot (.ok fun _ => none), .reply, .readClock, .scan]
    Along (step sampleSettings sampleDecode) (SparesCommitted sampleSettings sampleDecode)
        sampleService is ↔
      Along (step sampleSettings sampleDecode) ScansFresh sampleService is := by
  intro is
  have h : (exec (step sampleSettings sampleDecode) sampleService is).map
    (·.reaper) = some .idle := by
    decide +kernel
  obtain ⟨s, he, hr⟩ := Option.map_eq_some_iff.mp h
  have hok : ∀ i ∈ is, i.Succeeds := by simp [is, sampleRegister, Input.Succeeds]
  have hspares := spares_committed_iff sampleSettings sampleDecode
    (sampleKeyed samplePrimitives) is hok
  exact ⟨hspares.2 s he hr, hspares.1⟩

/-- A registration that comes after the snapshot of a tick and is answered
before its scan: the tick removes the peer. -/
theorem reaped_after_answer :
    let is := [.snapshot (.ok fun _ => none), sampleRegister, .uapi .ok, .reply, .readClock, .scan]
    ∃ s, exec (step sampleSettings sampleDecode) sampleService is = some s ∧
      samplePeerKey ∈ s.committed ∧
      ¬ SparesCommitted sampleSettings sampleDecode s (.reap .ok) := by
  intro is
  have h : ((exec (step sampleSettings sampleDecode) sampleService is).map fun s =>
      (decide (samplePeerKey ∈ s.committed), s.device.netsOf samplePeerKey,
        (s.step sampleSettings sampleDecode (.reap .ok)).map (·.device.netsOf samplePeerKey))) =
      some (true, some [hostNet (.new 10 0 0 2)], some none) := by decide +kernel
  obtain ⟨s, he, hs⟩ := Option.map_eq_some_iff.mp h
  simp only [Prod.mk.injEq, decide_eq_true_eq] at hs
  obtain ⟨hmem, hnets, hstep⟩ := hs
  obtain ⟨s', hs', hgone⟩ := Option.map_eq_some_iff.mp hstep
  refine ⟨s, he, hmem, fun hspares => ?_⟩
  have hkeeps := (hspares _ rfl s' hs' samplePeerKey hmem).2
  rw [hgone, hnets] at hkeeps
  cases hkeeps

end Service

end Xelt.Boringtun.HttpApi
