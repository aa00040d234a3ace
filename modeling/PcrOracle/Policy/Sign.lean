import Mathlib.Data.List.Sort
import PcrOracle.Policy.BankHash

/-!
# Signed policies and the PCRs recorded with them

`pcr_policy_sign` and `pcr_policy_sign_systemd` make the PCR policy of a bank with
`__pcr_policy_make`, sign it, and write the signature out together with the PCRs a verifier has
to replay `PolicyPCR` over. The TPM 2.0 key file writer, `tpm2key_write_signed_policy`, records
`pcr_bank_to_selection` of the bank, the selection of the registers in `valid_mask`, which is the
selection `__pcr_policy_make` gave `PolicyPCR`. The systemd writer records
`print_pcr_mask(bank->pcr_mask)`, the registers that were asked for. A register that was asked
for but saw no event is in `pcr_mask` and not in `valid_mask`.

## Main results

* `tpm2keyWriteSignedPolicy_selection`: the TPM 2.0 key file records the selection of every
  `PolicyPCR` that `__pcr_policy_make` issues.
* `printPcrMask_eq_validIndices_iff`: the systemd JSON lists the signed registers exactly when
  `pcr_mask` has no bit that `valid_mask` lacks below 32.
* `pcrPolicySignSystemd_records_unsigned_pcr`: a bank asked for PCRs 0 and 1 with only PCR 0
  extended.
-/

namespace PcrOracle

/-- Modelled from the spec: `print_pcr_mask` (`util.c`, not among the sources): the indices of
the PCRs whose bit is set, in increasing order, as the systemd JSON `"pcrs"` array lists them;
indices run over `[0, 31]`. -/
def printPcrMask (pcrMask : Nat) : List Nat :=
  (List.range 32).filter pcrMask.testBit

/-- One entry of the systemd signed-policy JSON, as far as the PCRs go: the key is the bank's
algorithm name, and `pcrs` the PCRs to replay. The key fingerprint, policy digest and signature,
written as hex and base64, are not modelled. -/
structure SystemdPolicyEntry where
  algoName : String
  pcrs : List Nat
  deriving DecidableEq, Repr

/-- `pcr_policy_sign_systemd`: `keyRead` is whether the signing key was read, `signed` whether
`__pcr_policy_sign` went through. The result is the entry written, if any. -/
def pcrPolicySignSystemd (bank : TpmPcrBank) (keyRead signed : Bool) :
    Esys (Option SystemdPolicyEntry) := do
  if !keyRead then return none
  let some true ← pcrPolicyMake bank | return none
  if !signed then return none
  return some ⟨bank.algoName, printPcrMask bank.pcrMask⟩

/-- `tpm2key_write_signed_policy`: `keyFileRead` is whether the key file was read and
`publicKeyConverted` whether the signing key converts to a `TPM2B_PUBLIC`; the result is the
selection that goes into the `PolicyAuthorize` entry of the key file, if it gets that far. -/
def tpm2keyWriteSignedPolicy (bank : TpmPcrBank) (keyFileRead publicKeyConverted : Bool) :
    Option TpmlPcrSelection :=
  if keyFileRead && publicKeyConverted then some (pcrBankToSelection bank) else none

/-! ## What each writer records -/

/-- The TPM 2.0 key file records the selection of every `PolicyPCR` that `__pcr_policy_make`
issues. -/
theorem tpm2keyWriteSignedPolicy_selection (bank : TpmPcrBank)
    (hsize : RegistersFit bank) (s : EsysState) {session : Nat} {d : TpmDigest} {pcrSel : TpmlPcrSelection}
    (h : .policyPcr session d pcrSel ∈ (pcrPolicyMake bank s).2.calls.drop s.calls.length) :
    tpm2keyWriteSignedPolicy bank true true = some pcrSel := by
  obtain ⟨cs, hc, hmem⟩ := pcrPolicyMake_policyPcr bank hsize s
  rw [hc, List.drop_left] at h
  simp [tpm2keyWriteSignedPolicy, (hmem _ _ _ h).2]

theorem mem_printPcrMask {pcrMask i : Nat} : i ∈ printPcrMask pcrMask ↔ i < 32 ∧ pcrMask.testBit i := by
  simp [printPcrMask]

theorem mem_validIndices {bank : TpmPcrBank} {i : Nat} :
    i ∈ validIndices bank ↔ i < 24 ∧ bank.validMask.testBit i := by
  simp [validIndices, pcrBankRegisterIsValid, pcrBankRegisterMax]

/-- The systemd JSON lists exactly the registers that were signed, those of `valid_mask` below 24,
if and only if `pcr_mask` agrees with them on every bit below 32. -/
theorem printPcrMask_eq_validIndices_iff (bank : TpmPcrBank) :
    printPcrMask bank.pcrMask = validIndices bank ↔
      ∀ i < 32, bank.pcrMask.testBit i = (decide (i < 24) && bank.validMask.testBit i) := by
  -- both lists are increasing, so they are equal when they have the same elements
  have hsorted : ∀ {l : List Nat}, l.Pairwise (· < ·) → ∀ {l' : List Nat}, l'.Pairwise (· < ·) →
      (∀ i, i ∈ l ↔ i ∈ l') → l = l' := fun h _ h' hmem =>
    List.eq_of_perm_of_sorted (r := (· ≤ ·))
      ((List.perm_ext_iff_of_nodup h.nodup h'.nodup).mpr hmem)
      (h.imp Nat.le_of_lt) (h'.imp Nat.le_of_lt)
  have hs₁ : (printPcrMask bank.pcrMask).Pairwise (· < ·) := (List.pairwise_lt_range 32).filter _
  have hs₂ : (validIndices bank).Pairwise (· < ·) := (List.pairwise_lt_range _).filter _
  constructor
  · intro h i hi
    have := congrArg (i ∈ ·) h
    simp only [mem_printPcrMask, mem_validIndices, eq_iff_iff] at this
    by_cases h24 : i < 24 <;> cases hb : bank.pcrMask.testBit i <;> simp_all
  · intro h
    refine hsorted hs₁ hs₂ fun i => ?_
    rw [mem_printPcrMask, mem_validIndices]
    by_cases h32 : i < 32
    · rw [h i h32]
      by_cases h24 : i < 24 <;> simp [h24, h32]
    · simp [h32]
      omega

/-! ## A bank with a register that saw no event -/

/-- A SHA-256 bank asked for PCRs 0 and 1 (`pcr_mask` 3) in which only PCR 0 was extended
(`valid_mask` 1). -/
def partlyExtendedBank : TpmPcrBank :=
  ⟨3, 1, "sha256", ⟨11, "sha256", 32⟩, [⟨⟨11, "sha256", 32⟩, 32, List.replicate 32 0⟩]⟩

/-- For the bank asked for PCRs 0 and 1 with only PCR 0 extended, with a TPM that accepts every
call: `__pcr_policy_make` signs a `PolicyPCR` over the selection of PCR 0 alone, which the TPM 2.0
key file records, but `pcr_policy_sign_systemd` writes `"pcrs": [0, 1]`, and replaying
`PolicyPCR` over PCRs 0 and 1 uses another selection. -/
theorem pcrPolicySignSystemd_records_unsigned_pcr :
    (pcrPolicySignSystemd partlyExtendedBank true true (EsysState.init fun _ => true)).1 =
      some ⟨"sha256", [0, 1]⟩ ∧
    validIndices partlyExtendedBank = [0] ∧
    EsysCall.policyPcr (esysTrNone + 2) (.sequence (List.replicate 32 0))
      (pcrBankToSelection partlyExtendedBank) ∈
      (pcrPolicyMake partlyExtendedBank (EsysState.init fun _ => true)).2.calls ∧
    tpm2keyWriteSignedPolicy partlyExtendedBank true true =
      some (pcrBankToSelection partlyExtendedBank) ∧
    pcrSelectionBuild 3 partlyExtendedBank.algoInfo ≠ pcrBankToSelection partlyExtendedBank := by
  have hsize : RegistersFit partlyExtendedBank := by decide
  obtain ⟨hmake, hmem⟩ := pcrPolicyMake_of_succeeds partlyExtendedBank hsize
    (EsysState.init fun _ => true) fun _ _ => rfl
  refine ⟨?_, by decide, hmem, rfl, by decide⟩
  show Esys.wp (pcrPolicySignSystemd partlyExtendedBank true true) (fun r _ => r = _) _
  simp only [pcrPolicySignSystemd, Bool.not_true, Bool.false_eq_true, if_false, wp_bind, wp_pure]
  unfold Esys.wp
  rw [hmake]
  rfl

end PcrOracle
