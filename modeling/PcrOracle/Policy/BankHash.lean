import PcrOracle.Policy.Esys

/-!
# Hashing a PCR bank into a policy

`__pcr_policy_make` turns a PCR bank into a `PolicyPCR` digest: `__pcr_bank_hash` feeds the
valid registers to a TPM hash sequence and builds, register by register, the selection of the
registers it fed; `esys_policy_pcr` then issues `PolicyPCR` with the sequence's digest and that
selection in a trial session. `pcr_seal_secret` records `pcr_bank_to_selection` of the bank next
to the sealed secret, and unsealing replays `PolicyPCR` over that selection, so both selections
have to be the same.

## Main results

* `pcrBankHashLoop_of_succeeds`, `pcrBankHashLoop_spec`: the loop of `__pcr_bank_hash` when the
  TPM accepts its updates, and on every run.
* `pcrBankHash_spec`: the calls `__pcr_bank_hash` makes on every run, and what it fed and built
  whenever it succeeds.
* `pcrPolicyMake_policyPcr`, `pcrPolicyMake_of_succeeds`: the `PolicyPCR` that
  `__pcr_policy_make` issues, and that it issues it when the TPM accepts every call.
* `pcrPolicyMake_binds_valid_registers`: together, the policy binds the valid registers.
-/

namespace PcrOracle

/-- `TPM2_MAX_DIGEST_BUFFER`, the bytes a `TPM2B_MAX_BUFFER` holds. -/
def tpm2MaxDigestBuffer : Nat := 1024

/-- The bytes of a register `__pcr_bank_hash` feeds: the `size` first bytes of `data`. -/
def TpmEvdigest.value (d : TpmEvdigest) : List UInt8 := d.data.take d.size

/-- The loop of `__pcr_bank_hash` over the registers `is`: each valid register is fed to the
sequence and added to the selection. `some (false, _)` is a failed update (`goto failed`),
`none` a failed assertion. -/
def pcrBankHashLoop (bank : TpmPcrBank) (sequence : Nat) :
    List Nat → TpmlPcrSelection → Esys (Option (Bool × TpmlPcrSelection))
  | [], pcrSel => pure (some (true, pcrSel))
  | i :: is, pcrSel =>
    if !pcrBankRegisterIsValid bank i then pcrBankHashLoop bank sequence is pcrSel
    else do
      let d := bank.pcr.getD i default
      if d.size > tpm2MaxDigestBuffer then return none
      if !(← esysSequenceUpdate sequence d.value) then return some (false, pcrSel)
      match pcrSelectionAdd pcrSel bank.algoInfo.tcgId i with
      | none => return none
      | some pcrSel => pcrBankHashLoop bank sequence is pcrSel

/-- `__pcr_bank_hash`: hash the valid registers of the bank in a TPM hash sequence, building the
selection of the registers hashed. `none` is a failed assertion; otherwise the result says
whether it succeeded, the digest `*hash_ret` and the selection `pcr_sel`. -/
def pcrBankHash (bank : TpmPcrBank) :
    Esys (Option (Bool × Option TpmDigest × TpmlPcrSelection)) := do
  let pcrSel := TpmlPcrSelection.zero
  let some sequence ← esysCreateObject (.hashSequenceStart bank.algoInfo.tcgId)
    | return some (false, none, pcrSel)
  match ← pcrBankHashLoop bank sequence (List.range pcrBankRegisterMax) pcrSel with
  | none => return none
  | some (false, pcrSel) =>
    let _ ← esysSequenceComplete sequence
    return some (false, none, pcrSel)
  | some (true, pcrSel) =>
    let hash ← esysSequenceComplete sequence
    return some (hash.isSome, hash, pcrSel)

/-- `esys_policy_pcr`: `PolicyPCR` and `PolicyGetDigest` in a trial session, flushed after.
The result says whether `*result` was set. -/
def esysPolicyPcr (pcrSel : TpmlPcrSelection) (pcrDigest : TpmDigest) : Esys Bool := do
  let (ok, sessionHandle) ← esysStartAuthSession tpm2SeTrial esysTrNone
  if !ok then return false
  let ok ← do
    if !(← esysCall (.policyPcr sessionHandle pcrDigest pcrSel)) then pure false
    else esysCall (.policyGetDigest sessionHandle)
  let _ ← esysFlushContext sessionHandle
  return ok

/-- `__pcr_policy_make`: `none` is a failed assertion; otherwise whether a policy digest was
made. The selection `pcr_bank_to_selection` fills first is cleared and rebuilt by
`__pcr_bank_hash`, and `esys_policy_pcr` sets `result` only when it succeeds, so its
`assert(result == NULL)` holds. -/
def pcrPolicyMake (bank : TpmPcrBank) : Esys (Option Bool) := do
  match ← pcrBankHash bank with
  | none => return none
  | some (true, some pcrDigest, pcrSel) => return some (← esysPolicyPcr pcrSel pcrDigest)
  | some _ => return some false

/-! ## The loop over the registers -/

/-- The update calls of the loop over `is`: one per valid register, with its bytes. -/
def hashUpdates (bank : TpmPcrBank) (sequence : Nat) (is : List Nat) : List EsysCall :=
  (is.filter (pcrBankRegisterIsValid bank)).map fun i =>
    .sequenceUpdate sequence (bank.pcr.getD i default).value

/-- The bytes the loop over `is` feeds. -/
def hashData (bank : TpmPcrBank) (is : List Nat) : List UInt8 :=
  (is.filter (pcrBankRegisterIsValid bank)).flatMap fun i => (bank.pcr.getD i default).value

/-- The mask of the valid registers among `is`, on top of `m`. -/
def hashMask (bank : TpmPcrBank) (is : List Nat) (m : Nat) : Nat :=
  (is.filter (pcrBankRegisterIsValid bank)).foldl (fun m i => m ||| 2 ^ i) m

section Loop

variable (bank : TpmPcrBank) (sequence : Nat)

@[simp] theorem hashUpdates_nil : hashUpdates bank sequence [] = [] := rfl

theorem hashUpdates_cons (i : Nat) (is : List Nat) :
    hashUpdates bank sequence (i :: is) =
      if pcrBankRegisterIsValid bank i then
        .sequenceUpdate sequence (bank.pcr.getD i default).value :: hashUpdates bank sequence is
      else hashUpdates bank sequence is := by
  unfold hashUpdates
  split <;> simp [List.filter_cons, *]

@[simp] theorem EsysState.feed_nil (s : EsysState) (h : Nat) : s.feed h [] = s := by
  cases s
  simp [EsysState.feed]

theorem EsysState.feed_feed (s : EsysState) (h : Nat) (a b : List UInt8) :
    (s.feed h a).feed h b = s.feed h (a ++ b) := by
  simp [EsysState.feed, List.append_assoc]

theorem EsysState.feed_addCalls (s : EsysState) (h : Nat) (a : List UInt8) (cs : List EsysCall) :
    (s.feed h a).addCalls cs = (s.addCalls cs).feed h a := rfl

/-- When the TPM accepts every update, the loop feeds the valid registers in order, one update
each, and leaves the selection built from their mask. -/
theorem pcrBankHashLoop_of_succeeds (Q : Option (Bool × TpmlPcrSelection) → EsysState → Prop) :
    ∀ (is : List Nat) (m : Nat) (s : EsysState), (∀ i ∈ is, i < 24) →
      (∀ i ∈ is, pcrBankRegisterIsValid bank i →
        (bank.pcr.getD i default).size ≤ tpm2MaxDigestBuffer) →
      (∀ j < (hashUpdates bank sequence is).length, s.succeeds (s.calls.length + j) = true) →
      (Esys.wp (pcrBankHashLoop bank sequence is (pcrSelectionBuild m bank.algoInfo)) Q s ↔
        Q (some (true, pcrSelectionBuild (hashMask bank is m) bank.algoInfo))
          ((s.addCalls (hashUpdates bank sequence is)).feed sequence (hashData bank is)))
  | [], m, s, _, _, _ => by simp [pcrBankHashLoop, hashData, hashMask]
  | i :: is, m, s, hlt, hsize, hok => by
    have hlt' : ∀ j ∈ is, j < 24 := fun j hj => hlt j (List.mem_cons_of_mem i hj)
    have hsize' := fun j hj => hsize j (List.mem_cons_of_mem i hj)
    by_cases hv : pcrBankRegisterIsValid bank i
    · have h0 : s.succeeds s.calls.length = true := by
        simpa using hok 0 (by simp [hashUpdates_cons, hv])
      have ih := pcrBankHashLoop_of_succeeds Q is (m ||| 2 ^ i)
        ((s.addCall (.sequenceUpdate sequence (bank.pcr.getD i default).value)).feed sequence
          (bank.pcr.getD i default).value) hlt' hsize'
        (fun j hj => by
          simpa [Nat.add_assoc, Nat.add_comm 1] using
            hok (j + 1) (by simpa [hashUpdates_cons, hv] using hj))
      simp only [pcrBankHashLoop, hv, Bool.not_true, Bool.false_eq_true, if_false, wp_bind,
        wp_ite, wp_pure, Nat.not_lt.mpr (hsize i (List.mem_cons_self i is) hv),
        wp_esysSequenceUpdate, h0, if_true, Bool.not_true, pcrSelectionAdd_pcrSelectionBuild m
          bank.algoInfo (hlt i (List.mem_cons_self i is))] at ih ⊢
      rw [ih]
      simp [hashUpdates_cons, hashData, hashMask, hv, EsysState.feed_feed,
        EsysState.feed_addCalls, EsysState.addCall_addCalls]
    · have ih := pcrBankHashLoop_of_succeeds Q is m s hlt' hsize'
        (fun j hj => hok j (by simpa [hashUpdates_cons, hv] using hj))
      simpa [pcrBankHashLoop, hv, hashUpdates_cons, hashData, hashMask] using ih

/-- What every run of the loop over `is` from `s` guarantees: it returns, with `true` only when
the TPM accepted every update, and the calls it made are the first ones of `hashUpdates`. -/
def LoopPost (is : List Nat) (s : EsysState) (r : Option (Bool × TpmlPcrSelection))
    (s' : EsysState) : Prop :=
  (∃ b pcrSel, r = some (b, pcrSel) ∧ (b = true →
    ∀ j < (hashUpdates bank sequence is).length, s.succeeds (s.calls.length + j) = true)) ∧
  s'.loaded = s.loaded ∧ s'.next = s.next ∧ s'.succeeds = s.succeeds ∧
  ∃ cs, cs <+: hashUpdates bank sequence is ∧ s'.calls = s.calls ++ cs

/-- Every run of the loop returns: the size assertion holds for registers that fit a
`TPM2B_MAX_BUFFER`, and the assertion of `__pcr_selection_add` always does. -/
theorem pcrBankHashLoop_spec :
    ∀ (is : List Nat) (m : Nat) (s : EsysState), (∀ i ∈ is, i < 24) →
      (∀ i ∈ is, pcrBankRegisterIsValid bank i →
        (bank.pcr.getD i default).size ≤ tpm2MaxDigestBuffer) →
      Esys.wp (pcrBankHashLoop bank sequence is (pcrSelectionBuild m bank.algoInfo))
        (LoopPost bank sequence is s) s
  | [], m, s, _, _ =>
    ⟨⟨true, _, rfl, fun _ j hj => absurd hj (by simp)⟩, rfl, rfl, rfl, [], List.nil_prefix,
      (List.append_nil _).symm⟩
  | i :: is, m, s, hlt, hsize => by
    have hlt' : ∀ j ∈ is, j < 24 := fun j hj => hlt j (List.mem_cons_of_mem i hj)
    have hsize' := fun j hj => hsize j (List.mem_cons_of_mem i hj)
    by_cases hv : pcrBankRegisterIsValid bank i
    · simp only [pcrBankHashLoop, hv, Bool.not_true, Bool.not_false, Bool.false_eq_true,
        if_false, if_true, wp_bind, wp_ite, wp_pure, Nat.not_lt.mpr (hsize i (List.mem_cons_self i is) hv),
        wp_esysSequenceUpdate, pcrSelectionAdd_pcrSelectionBuild m bank.algoInfo
          (hlt i (List.mem_cons_self i is))]
      split_ifs with h0
      · -- the update went through: the rest of the loop runs after it
        refine Esys.wp_mono (pcrBankHashLoop_spec is _ _ hlt' hsize') ?_
        rintro r s' ⟨⟨b, pcrSel, rfl, hb⟩, hl, hn, hs, cs, hcs, hc⟩
        refine ⟨⟨b, pcrSel, rfl, fun hbt j hj => ?_⟩, by simpa using hl, by simpa using hn,
          by simpa using hs,
          .sequenceUpdate sequence (bank.pcr.getD i default).value :: cs, ?_, by simp [hc]⟩
        · rcases j with _ | j
          · simpa using h0
          · have := hb hbt j (by simpa [hashUpdates_cons, hv] using hj)
            simpa [Nat.add_assoc, Nat.add_comm 1] using this
        · simpa [hashUpdates_cons, hv] using hcs
      · -- the update failed: `goto failed`
        exact ⟨⟨false, _, rfl, nofun⟩, rfl, rfl, rfl, _, by simp [hashUpdates_cons, hv], rfl⟩
    · have heq : hashUpdates bank sequence (i :: is) = hashUpdates bank sequence is := by
        simp [hashUpdates_cons, hv]
      simp only [pcrBankHashLoop, hv, Bool.not_false, if_true]
      exact Esys.wp_mono (pcrBankHashLoop_spec is m s hlt' hsize') fun r s' h => by
        simpa only [LoopPost, heq] using h

end Loop

theorem mem_hashUpdates {bank : TpmPcrBank} {sequence : Nat} {is : List Nat} {c : EsysCall}
    (h : c ∈ hashUpdates bank sequence is) : ∃ buffer, c = .sequenceUpdate sequence buffer := by
  obtain ⟨i, -, rfl⟩ := List.mem_map.mp h
  exact ⟨_, rfl⟩

/-! ## The whole hash -/

section BankHash

variable (bank : TpmPcrBank)

/-- The selection `__pcr_bank_hash` starts from, `memset` to zero, is the one an empty mask
builds. -/
theorem pcrSelectionBuild_zero (algo : TpmAlgoInfo) :
    pcrSelectionBuild 0 algo = TpmlPcrSelection.zero := rfl

/-- The mask the loop over all registers builds gives `pcr_bank_to_selection`. -/
theorem pcrSelectionBuild_hashMask :
    pcrSelectionBuild (hashMask bank (List.range pcrBankRegisterMax) 0) bank.algoInfo =
      pcrBankToSelection bank :=
  pcrSelectionBuild_validIndices bank

/-- What every run of `__pcr_bank_hash` from `s` does: it returns; either starting the sequence
failed, or it started one, made the first update calls of `hashUpdates` and completed it, and the
sequence stays loaded if the TPM rejected the completion; and when it succeeds it made every
update, the digest is that of the bytes fed and the selection the one `pcr_bank_to_selection`
builds. -/
def BankHashPost (s : EsysState) (r : Option (Bool × Option TpmDigest × TpmlPcrSelection))
    (s' : EsysState) : Prop :=
  r ≠ none ∧ s'.succeeds = s.succeeds ∧
  ((s'.calls = s.calls ++ [.hashSequenceStart bank.algoInfo.tcgId] ∧ s'.next = s.next ∧
      s'.loaded = s.loaded ∧ r = some (false, none, .zero)) ∨
    ∃ cs, cs <+: hashUpdates bank s.next (List.range pcrBankRegisterMax) ∧
      s'.calls = s.calls ++ .hashSequenceStart bank.algoInfo.tcgId :: cs ++
        [.sequenceComplete s.next] ∧ s'.next = s.next + 1 ∧
      s'.loaded = (if s.succeeds (s.calls.length + (cs.length + 1)) then [] else [s.next]) ++
        s.loaded ∧
      ∀ digest pcrSel, r = some (true, digest, pcrSel) →
        cs = hashUpdates bank s.next (List.range pcrBankRegisterMax) ∧
        digest = some (.sequence (hashData bank (List.range pcrBankRegisterMax))) ∧
        pcrSel = pcrBankToSelection bank)

/-- The registers of a bank fit the hash sequence buffer, as `__pcr_bank_hash` asserts. -/
def RegistersFit (bank : TpmPcrBank) : Prop :=
  ∀ i ∈ validIndices bank, (bank.pcr.getD i default).size ≤ tpm2MaxDigestBuffer

instance (bank : TpmPcrBank) : Decidable (RegistersFit bank) :=
  inferInstanceAs (Decidable (∀ i ∈ validIndices bank, _))

variable {bank} in
/-- What the loop lemmas need of the registers, for the loop over all of them: each is below
24, and the valid ones fit the buffer. -/
theorem RegistersFit.range (hsize : RegistersFit bank) :
    (∀ i ∈ List.range pcrBankRegisterMax, i < 24) ∧
    ∀ i ∈ List.range pcrBankRegisterMax, pcrBankRegisterIsValid bank i →
      (bank.pcr.getD i default).size ≤ tpm2MaxDigestBuffer :=
  ⟨fun _ hi => List.mem_range.mp hi, fun i hi hv => hsize i (List.mem_filter.mpr ⟨hi, hv⟩)⟩

/-- `__pcr_bank_hash` meets `BankHashPost` on every run, whatever the TPM answers. -/
theorem pcrBankHash_spec
    (hsize : RegistersFit bank)
    (s : EsysState) : Esys.wp (pcrBankHash bank) (BankHashPost bank s) s := by
  obtain ⟨hlt, hsize'⟩ := hsize.range
  simp only [pcrBankHash, wp_bind, wp_esysCreateObject, ← pcrSelectionBuild_zero bank.algoInfo]
  split_ifs with hstart
  · by_cases hall : ∀ j < (hashUpdates bank s.next (List.range pcrBankRegisterMax)).length,
        (s.create (.hashSequenceStart bank.algoInfo.tcgId)).succeeds
          ((s.create (.hashSequenceStart bank.algoInfo.tcgId)).calls.length + j) = true
    · -- every update went through
      rw [pcrBankHashLoop_of_succeeds bank s.next _ _ 0 _ hlt hsize' hall]
      simp only [wp_bind, wp_map, wp_esysSequenceComplete, wp_pure]
      refine ⟨by simp, by simp, .inr ⟨_, List.prefix_refl _, by simp, by simp, ?_, ?_⟩⟩
      · rw [EsysState.releaseOn_loaded_cons _ _ (L := s.loaded) (by simp)]
        simp [Nat.add_comm 1, Nat.add_assoc]
      intro digest pcrSel h
      split_ifs at h with hc
      · simp only [Option.some.injEq, Prod.mk.injEq, Option.isSome_some, true_and] at h
        simp [← h.1, ← h.2, pcrSelectionBuild_hashMask]
      · simp at h
    · -- an update failed, and the sequence is completed on the way out
      refine Esys.wp_mono (pcrBankHashLoop_spec bank s.next _ 0 _ hlt hsize') ?_
      rintro r s' ⟨⟨b, pcrSel, rfl, hb⟩, hl, hn, hs, cs, hcs, hc⟩
      cases b
      · simp only [wp_bind, wp_map, wp_esysSequenceComplete, wp_pure]
        refine ⟨by simp, by simp [hs], .inr ⟨cs, hcs, by simp [hc], by simp [hn], ?_, by simp⟩⟩
        rw [EsysState.releaseOn_loaded_cons _ _ (L := s.loaded) (by simp [hl])]
        simp [hs, hc, Nat.add_comm 1, Nat.add_assoc]
      · exact absurd (hb rfl) hall
  · exact ⟨Option.some_ne_none _, rfl, .inl ⟨rfl, rfl, rfl, rfl⟩⟩

/-- When the TPM accepts the start, every update and the completion, `__pcr_bank_hash` succeeds
with the digest of the valid registers and the selection of the bank. -/
theorem pcrBankHash_of_succeeds
    (hsize : RegistersFit bank)
    (s : EsysState)
    (hok : ∀ j < (validIndices bank).length + 2, s.succeeds (s.calls.length + j) = true) :
    (pcrBankHash bank s).1 =
      some (true, some (.sequence (hashData bank (List.range pcrBankRegisterMax))),
        pcrBankToSelection bank) := by
  obtain ⟨hlt, hsize'⟩ := hsize.range
  have hlen : (hashUpdates bank s.next (List.range pcrBankRegisterMax)).length =
      (validIndices bank).length := List.length_map _ _
  have h0 : s.succeeds s.calls.length = true := by simpa using hok 0 (by omega)
  show Esys.wp (pcrBankHash bank) (fun r _ => r = _) s
  simp only [pcrBankHash, wp_bind, wp_esysCreateObject, ← pcrSelectionBuild_zero bank.algoInfo, h0,
    if_true]
  rw [pcrBankHashLoop_of_succeeds bank s.next _ _ 0 _ hlt hsize' fun j hj => by
    simpa [Nat.add_assoc, Nat.add_comm 1] using hok (j + 1) (by omega)]
  have hend : s.succeeds (s.calls.length + (validIndices bank).length + 1) = true := by
    simpa [Nat.add_assoc] using hok ((validIndices bank).length + 1) (by omega)
  simp [← Nat.add_assoc, hlen, Nat.add_right_comm _ 1, hend, pcrSelectionBuild_hashMask]

/-- A run of `__pcr_bank_hash` that succeeds made every call of the hash, and handed out one
handle. -/
theorem BankHashPost.of_true {s s' : EsysState} {digest : Option TpmDigest}
    {pcrSel : TpmlPcrSelection} (h : BankHashPost bank s (some (true, digest, pcrSel)) s') :
    s'.calls = s.calls ++ .hashSequenceStart bank.algoInfo.tcgId ::
      hashUpdates bank s.next (List.range pcrBankRegisterMax) ++ [.sequenceComplete s.next] ∧
    s'.next = s.next + 1 ∧
    digest = some (.sequence (hashData bank (List.range pcrBankRegisterMax))) ∧
    pcrSel = pcrBankToSelection bank := by
  obtain ⟨-, -, ⟨-, -, -, h⟩ | ⟨cs, -, hc, hn, -, h⟩⟩ := h
  · simp at h
  · obtain ⟨rfl, hd, hsel⟩ := h digest pcrSel rfl
    exact ⟨hc, hn, hd, hsel⟩

/-- The calls of a run of `__pcr_bank_hash` hash and give no `PolicyPCR`. -/
theorem BankHashPost.policyPcr_not_mem {s s' : EsysState}
    {r : Option (Bool × Option TpmDigest × TpmlPcrSelection)} (h : BankHashPost bank s r s') :
    ∃ cs, s'.calls = s.calls ++ cs ∧ ∀ session d pcrSel, .policyPcr session d pcrSel ∉ cs := by
  obtain ⟨-, -, ⟨hc, -⟩ | ⟨cs, hcs, hc, -⟩⟩ := h
  · exact ⟨_, hc, by simp⟩
  · refine ⟨_, hc.trans (List.append_assoc _ _ _), fun session d pcrSel hmem => ?_⟩
    simp only [List.cons_append, List.mem_cons, List.mem_append, List.mem_singleton,
      reduceCtorEq, false_or, or_false, List.not_mem_nil] at hmem
    obtain ⟨_, hu⟩ := mem_hashUpdates (hcs.subset hmem)
    cases hu

end BankHash

/-! ## The policy -/

section Policy

variable (pcrSel : TpmlPcrSelection) (pcrDigest : TpmDigest)

/-- `esys_policy_pcr` only ever gives `PolicyPCR` the digest and the selection it was given. -/
theorem esysPolicyPcr_policyPcr (s : EsysState) :
    Esys.wp (esysPolicyPcr pcrSel pcrDigest) (fun _ s' => ∃ cs, s'.calls = s.calls ++ cs ∧
      ∀ session d sel, .policyPcr session d sel ∈ cs → d = pcrDigest ∧ sel = pcrSel) s := by
  simp only [esysPolicyPcr, esysStartAuthSession, esysFlushContext, wp_bind, wp_esysCreateObject,
    wp_esysCall, wp_esysRelease, wp_pure, wp_ite]
  -- whatever the TPM answers, the calls made are these, with one `PolicyPCR` at most
  repeat' refine ite_prop_iff_and.mpr ⟨fun _ => ?_, fun _ => ?_⟩
  all_goals exact ⟨_, by simp only [EsysState.create_calls, EsysState.addCall_calls,
    EsysState.releaseOn_calls, List.append_assoc, List.singleton_append]; rfl, by simp⟩

/-- When the TPM accepts the session, `PolicyPCR` and `PolicyGetDigest`, `esys_policy_pcr`
issues `PolicyPCR` with its digest and selection and succeeds. -/
theorem esysPolicyPcr_of_succeeds (s : EsysState)
    (hok : ∀ j < 3, s.succeeds (s.calls.length + j) = true) :
    Esys.wp (esysPolicyPcr pcrSel pcrDigest) (fun ok s' => ok = true ∧
      .policyPcr s.next pcrDigest pcrSel ∈ s'.calls) s := by
  have h0 : s.succeeds s.calls.length = true := by simpa using hok 0 (by omega)
  have h1 := hok 1 (by omega)
  have h2 := hok 2 (by omega)
  simp only [esysPolicyPcr, esysStartAuthSession, esysFlushContext, wp_bind, wp_esysCreateObject,
    wp_esysCall, wp_esysRelease, wp_pure, wp_ite]
  simp [h0, h1, h2]

end Policy

/-! ## `__pcr_policy_make` -/

section PolicyMake

variable (bank : TpmPcrBank)

/-- Every `PolicyPCR` that `__pcr_policy_make` issues, whatever the TPM answers, is given the
digest of the valid registers and the selection of the bank. -/
theorem pcrPolicyMake_policyPcr
    (hsize : RegistersFit bank)
    (s : EsysState) :
    Esys.wp (pcrPolicyMake bank) (fun _ s' => ∃ cs, s'.calls = s.calls ++ cs ∧
      ∀ session d pcrSel, .policyPcr session d pcrSel ∈ cs →
        d = .sequence (hashData bank (List.range pcrBankRegisterMax)) ∧
        pcrSel = pcrBankToSelection bank) s := by
  simp only [pcrPolicyMake, wp_bind]
  refine Esys.wp_mono (pcrBankHash_spec bank hsize s) fun r s₁ hpost => ?_
  obtain ⟨cs₁, hc₁, hno⟩ := hpost.policyPcr_not_mem
  have hskip : ∃ cs, s₁.calls = s.calls ++ cs ∧ ∀ session d pcrSel,
      .policyPcr session d pcrSel ∈ cs →
        d = .sequence (hashData bank (List.range pcrBankRegisterMax)) ∧
        pcrSel = pcrBankToSelection bank :=
    ⟨cs₁, hc₁, fun _ _ _ h => absurd h (hno _ _ _)⟩
  rcases r with _ | ⟨_ | _, _ | d, pcrSel⟩
  · exact absurd rfl hpost.1
  · exact hskip
  · exact hskip
  · exact hskip
  · -- the hash succeeded: `esys_policy_pcr` runs with its digest and selection
    obtain ⟨-, -, hd, hsel⟩ := hpost.of_true
    simp only [wp_bind, wp_pure]
    refine Esys.wp_mono (esysPolicyPcr_policyPcr pcrSel d s₁) fun _ s₂ ⟨cs₂, hc₂, hmem⟩ => ?_
    refine ⟨cs₁ ++ cs₂, by simp [hc₂, hc₁], fun session d' sel' h => ?_⟩
    rcases List.mem_append.mp h with h | h
    · exact absurd h (hno _ _ _)
    · obtain ⟨rfl, rfl⟩ := hmem _ _ _ h
      exact ⟨Option.some.inj hd, hsel⟩

/-- When the TPM accepts every call, `__pcr_policy_make` makes a policy, and the `PolicyPCR` it
issues carries the digest of the valid registers and the selection of the bank. -/
theorem pcrPolicyMake_of_succeeds
    (hsize : RegistersFit bank)
    (s : EsysState)
    (hok : ∀ j < (validIndices bank).length + 5, s.succeeds (s.calls.length + j) = true) :
    (pcrPolicyMake bank s).1 = some true ∧
      .policyPcr (s.next + 1) (.sequence (hashData bank (List.range pcrBankRegisterMax)))
        (pcrBankToSelection bank) ∈ (pcrPolicyMake bank s).2.calls := by
  have hpost : BankHashPost bank s (pcrBankHash bank s).1 (pcrBankHash bank s).2 :=
    pcrBankHash_spec bank hsize s
  have hr := pcrBankHash_of_succeeds bank hsize s fun j hj => hok j (by omega)
  generalize hp : pcrBankHash bank s = p at hpost hr
  obtain ⟨r, s₁⟩ := p
  obtain rfl : r = _ := hr
  obtain ⟨hc, hn, -⟩ := hpost.of_true
  have hs := hpost.2.1
  simp only at hc hn hs
  show Esys.wp (pcrBankHash bank >>= _) (fun r s' => r = some true ∧ _ ∈ s'.calls) s
  rw [Esys.wp_bind_of_eq hp]
  simp only [wp_bind, wp_pure]
  refine Esys.wp_mono (esysPolicyPcr_of_succeeds _ _ s₁ fun j hj => ?_) fun ok s' h => ?_
  · have hlen : (hashUpdates bank s.next (List.range pcrBankRegisterMax)).length =
        (validIndices bank).length := List.length_map _ _
    have := hok ((validIndices bank).length + 2 + j) (by omega)
    simpa [hc, hs, hlen, Nat.add_assoc, Nat.add_comm 1, Nat.add_left_comm] using this
  · rw [← hn]
    exact ⟨congrArg some h.1, h.2⟩

end PolicyMake

/-! ## The policy binds the registers its selection names -/

/-- On every run, whatever the TPM answers: `__pcr_bank_hash` fails no assertion; when it
succeeds it fed `Esys_SequenceUpdate` exactly the values of the valid registers below 24, once
each and in increasing order, and left the selection that `pcr_bank_to_selection` builds, which
`pcr_seal_secret` records; it succeeds when the TPM accepts its calls; and every `PolicyPCR` that
`__pcr_policy_make` issues carries the digest of those values and that selection, and is issued
when the TPM accepts the calls. -/
theorem pcrPolicyMake_binds_valid_registers (bank : TpmPcrBank)
    (hsize : RegistersFit bank)
    (s : EsysState) :
    (pcrBankHash bank s).1 ≠ none ∧
    (∀ digest pcrSel, (pcrBankHash bank s).1 = some (true, digest, pcrSel) →
      (pcrBankHash bank s).2.calls = s.calls ++ .hashSequenceStart bank.algoInfo.tcgId ::
        (validIndices bank).map (fun i => .sequenceUpdate s.next (bank.pcr.getD i default).value) ++
          [.sequenceComplete s.next] ∧
      digest = some (.sequence ((validIndices bank).flatMap fun i =>
        (bank.pcr.getD i default).value)) ∧
      pcrSel = pcrBankToSelection bank) ∧
    ((∀ j < (validIndices bank).length + 2, s.succeeds (s.calls.length + j) = true) →
      ∃ digest, (pcrBankHash bank s).1 = some (true, digest, pcrBankToSelection bank)) ∧
    (∀ session d pcrSel,
      .policyPcr session d pcrSel ∈ (pcrPolicyMake bank s).2.calls.drop s.calls.length →
        d = .sequence ((validIndices bank).flatMap fun i => (bank.pcr.getD i default).value) ∧
        pcrSel = pcrBankToSelection bank) ∧
    ((∀ j < (validIndices bank).length + 5, s.succeeds (s.calls.length + j) = true) →
      (pcrPolicyMake bank s).1 = some true ∧
      .policyPcr (s.next + 1)
        (.sequence ((validIndices bank).flatMap fun i => (bank.pcr.getD i default).value))
        (pcrBankToSelection bank) ∈ (pcrPolicyMake bank s).2.calls) := by
  have hpost : BankHashPost bank s (pcrBankHash bank s).1 (pcrBankHash bank s).2 :=
    pcrBankHash_spec bank hsize s
  refine ⟨hpost.1, fun digest pcrSel h => ?_, fun hok => ⟨_, pcrBankHash_of_succeeds bank hsize s hok⟩,
    fun session d pcrSel h => ?_, pcrPolicyMake_of_succeeds bank hsize s⟩
  · rw [h] at hpost
    obtain ⟨hc, -, hd, hsel⟩ := hpost.of_true
    exact ⟨hc, hd, hsel⟩
  · obtain ⟨cs, hc, hmem⟩ := pcrPolicyMake_policyPcr bank hsize s
    rw [hc, List.drop_left] at h
    exact hmem _ _ _ h

theorem pcrPolicyMake_binds_valid_registers_pcr0 :
    (pcrPolicyMake ⟨1, 1, "sha256", ⟨11, "sha256", 32⟩,
        [⟨⟨11, "sha256", 32⟩, 32, List.replicate 32 0⟩]⟩ (EsysState.init fun _ => true)).1 =
      some true :=
  ((pcrPolicyMake_binds_valid_registers ⟨1, 1, "sha256", ⟨11, "sha256", 32⟩,
      [⟨⟨11, "sha256", 32⟩, 32, List.replicate 32 0⟩]⟩ (by decide)
      (EsysState.init fun _ => true)).2.2.2.2 fun _ _ => rfl).1

end PcrOracle
