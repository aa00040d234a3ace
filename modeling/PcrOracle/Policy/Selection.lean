import Mathlib.Data.Nat.Bitwise
import PcrOracle.Digest

/-!
# PCR selections

The `TPML_PCR_SELECTION` of a PCR bank, as `pcr-policy.c` builds it in two ways: at once from a
mask (`__pcr_selection_build`, through `pcr_bank_to_selection`), and one register at a time
(`__pcr_selection_add`, as `__pcr_bank_hash` does while it hashes the bank). Sealing records the
first and `PolicyPCR` is given the second, so a secret can only be unsealed if they agree.

## Main results

* `pcrSelectionAdd_pcrSelectionBuild`: adding a register to a built selection is building the
  selection of the larger mask; the assertion of `__pcr_selection_add` holds there.
* `foldlM_pcrSelectionAdd_validIndices`: adding the valid registers of a bank one by one, from a
  cleared selection, gives `pcr_bank_to_selection` of the bank.
-/

namespace PcrOracle

/-- `PCR_BANK_REGISTER_MAX`, the registers of a bank. -/
def pcrBankRegisterMax : Nat := 24

/-- `TPMS_PCR_SELECTION`: a hash algorithm and the bitmap of the PCRs selected in its bank. -/
structure TpmsPcrSelection where
  hash : Nat
  sizeofSelect : Nat
  /-- The `TPM2_PCR_SELECT_MAX` bytes of the bitmap, PCR `8 * k + j` at bit `j` of byte `k`. -/
  pcrSelect : List Nat
  deriving DecidableEq, Repr, Inhabited

/-- `TPML_PCR_SELECTION`: `count` entries in use. -/
structure TpmlPcrSelection where
  count : Nat
  /-- The `TPM2_NUM_PCR_BANKS` entries. -/
  pcrSelections : List TpmsPcrSelection
  deriving DecidableEq, Repr

/-- A `TPMS_PCR_SELECTION` cleared by `memset`. -/
def TpmsPcrSelection.zero : TpmsPcrSelection := ⟨0, 0, [0, 0, 0, 0]⟩

/-- A `TPML_PCR_SELECTION` cleared by `memset`: no entry in use, sixteen zero entries. -/
def TpmlPcrSelection.zero : TpmlPcrSelection := ⟨0, List.replicate 16 TpmsPcrSelection.zero⟩

/-- `tpm_pcr_bank_t`: the registers a bank was asked for (`pcr_mask`), those an event extended
(`valid_mask`), and their values. -/
structure TpmPcrBank where
  pcrMask : Nat
  validMask : Nat
  algoName : String
  algoInfo : TpmAlgoInfo
  pcr : List TpmEvdigest
  deriving DecidableEq, Repr

/-- Modelled from the spec: `pcr_bank_register_is_valid` (`pcr.c`): register `index` is
populated, its bit of `valid_mask` is set. -/
def pcrBankRegisterIsValid (bank : TpmPcrBank) (index : Nat) : Bool :=
  bank.validMask.testBit index

/-- Byte `k` of a mask, `(mask >> 8k) & 0xFF`. -/
def selectByte (mask k : Nat) : Nat := (mask >>> (8 * k)) &&& 0xFF

/-- `__pcr_selection_build`: nothing for an empty mask, otherwise one entry for the bank's
algorithm whose three bytes are those of the mask cut to 24 bits. It returns `true` on every
path, so the model returns the selection only. -/
def pcrSelectionBuild (pcrMask : Nat) (algoInfo : TpmAlgoInfo) : TpmlPcrSelection :=
  let pcrMask := pcrMask &&& 0xFFFFFF
  if pcrMask = 0 then TpmlPcrSelection.zero
  else
    { count := 1
      pcrSelections := TpmlPcrSelection.zero.pcrSelections.set 0
        ⟨algoInfo.tcgId, 3, [selectByte pcrMask 0, selectByte pcrMask 1, selectByte pcrMask 2, 0]⟩ }

/-- `pcr_bank_to_selection`: the selection of the registers the bank holds values for. -/
def pcrBankToSelection (bank : TpmPcrBank) : TpmlPcrSelection :=
  pcrSelectionBuild bank.validMask bank.algoInfo

/-- `__pcr_selection_add`: set the bit of `pcrIndex` in the first entry, which the first call
starts for `algoId`; `none` is the assertion that a later call names the same algorithm
failing. -/
def pcrSelectionAdd (sel : TpmlPcrSelection) (algoId pcrIndex : Nat) :
    Option TpmlPcrSelection := do
  let i := pcrIndex / 8
  let (sel, bankSel) ← if sel.count = 0 then
      pure ({ sel with count := sel.count + 1 },
        { sel.pcrSelections.getD 0 default with hash := algoId, sizeofSelect := 3 })
    else
      let bankSel := sel.pcrSelections.getD 0 default
      if bankSel.hash = algoId then pure (sel, bankSel) else none
  let bankSel := { bankSel with
    pcrSelect := bankSel.pcrSelect.set i (bankSel.pcrSelect.getD i 0 ||| 1 <<< (pcrIndex % 8)) }
  pure { sel with pcrSelections := sel.pcrSelections.set 0 bankSel }

/-- The registers `__pcr_bank_hash` hashes, in the order it hashes them: those below
`PCR_BANK_REGISTER_MAX` that are valid. -/
def validIndices (bank : TpmPcrBank) : List Nat :=
  (List.range pcrBankRegisterMax).filter (pcrBankRegisterIsValid bank)

/-! ## Bits and bytes -/

theorem testBit_selectByte (m k j : Nat) :
    (selectByte m k).testBit j = (decide (j < 8) && m.testBit (8 * k + j)) := by
  have : (0xFF : Nat) = 2 ^ 8 - 1 := rfl
  rw [selectByte, this, Nat.and_pow_two_sub_one_eq_mod, Nat.testBit_mod_two_pow,
    Nat.testBit_shiftRight]

/-- Setting bit `i` of a mask sets bit `i % 8` of its byte `i / 8`. -/
theorem selectByte_or_two_pow (m i k : Nat) :
    selectByte (m ||| 2 ^ i) k = selectByte m k ||| (if i / 8 = k then 2 ^ (i % 8) else 0) := by
  apply Nat.eq_of_testBit_eq
  intro j
  have key : (decide (j < 8) && decide (i = 8 * k + j)) =
      (if i / 8 = k then decide (i % 8 = j) else false) := by
    split_ifs <;> by_cases j < 8 <;> simp [*] <;> omega
  simp only [testBit_selectByte, Nat.testBit_or, Nat.testBit_two_pow, Bool.and_or_distrib_left]
  rw [key]
  split_ifs <;> simp [Nat.testBit_two_pow]

theorem and_mask24_or_two_pow (m : Nat) {i : Nat} (hi : i < 24) :
    (m ||| 2 ^ i) &&& 0xFFFFFF = (m &&& 0xFFFFFF) ||| 2 ^ i := by
  have : (0xFFFFFF : Nat) = 2 ^ 24 - 1 := rfl
  apply Nat.eq_of_testBit_eq
  intro j
  simp only [this, Nat.and_pow_two_sub_one_eq_mod, Nat.testBit_mod_two_pow, Nat.testBit_or,
    Nat.testBit_two_pow]
  by_cases hj : j < 24 <;> simp [hj]
  omega

@[simp]
theorem selectByte_zero (k : Nat) : selectByte 0 k = 0 := by
  simp [selectByte]

/-! ## Building one register at a time -/

/-- The bytes of a 24-bit mask once bit `i` is set: byte `i / 8` gains bit `i % 8`. -/
theorem selectBytes_or_two_pow (m : Nat) {i : Nat} (hi : i < 24) :
    [selectByte (m ||| 2 ^ i) 0, selectByte (m ||| 2 ^ i) 1, selectByte (m ||| 2 ^ i) 2, 0] =
      [selectByte m 0, selectByte m 1, selectByte m 2, 0].set (i / 8)
        ([selectByte m 0, selectByte m 1, selectByte m 2, 0].getD (i / 8) 0 ||| 1 <<< (i % 8)) := by
  simp only [selectByte_or_two_pow, Nat.one_shiftLeft]
  obtain h | h | h : i / 8 = 0 ∨ i / 8 = 1 ∨ i / 8 = 2 := by omega
  all_goals simp [h]

/-- Adding register `i` to the selection built from `m` builds the selection of `m` with bit `i`
set; the assertion holds, as the entry in use is already the bank's. -/
theorem pcrSelectionAdd_pcrSelectionBuild (m : Nat) (algo : TpmAlgoInfo) {i : Nat}
    (hi : i < 24) :
    pcrSelectionAdd (pcrSelectionBuild m algo) algo.tcgId i =
      some (pcrSelectionBuild (m ||| 2 ^ i) algo) := by
  have hne : (m &&& 0xFFFFFF) ||| 2 ^ i ≠ 0 := fun h => by
    simpa [Nat.testBit_two_pow_self] using congrArg (Nat.testBit · i) h
  unfold pcrSelectionBuild
  simp only [and_mask24_or_two_pow m hi, if_neg hne]
  rw [selectBytes_or_two_pow _ hi]
  split_ifs with h
  · -- the first register starts the entry
    simp [pcrSelectionAdd, TpmlPcrSelection.zero, TpmsPcrSelection.zero, h]
  · -- later registers extend it
    simp [pcrSelectionAdd, TpmlPcrSelection.zero, h]

/-- A selection is built from the low 24 bits of its mask only. -/
theorem pcrSelectionBuild_congr {m m' : Nat} (algo : TpmAlgoInfo)
    (h : m &&& 0xFFFFFF = m' &&& 0xFFFFFF) : pcrSelectionBuild m algo = pcrSelectionBuild m' algo := by
  simp only [pcrSelectionBuild, h]

/-- Adding registers below 24 one by one to a built selection builds the selection of the mask
with their bits set. -/
theorem foldlM_pcrSelectionAdd (algo : TpmAlgoInfo) :
    ∀ (is : List Nat) (m : Nat), (∀ i ∈ is, i < 24) →
      is.foldlM (fun sel i => pcrSelectionAdd sel algo.tcgId i) (pcrSelectionBuild m algo) =
        some (pcrSelectionBuild (is.foldl (fun m i => m ||| 2 ^ i) m) algo)
  | [], _, _ => rfl
  | i :: is, m, h => by
    rw [List.foldlM_cons, pcrSelectionAdd_pcrSelectionBuild m algo (h i (List.mem_cons_self _ _))]
    exact foldlM_pcrSelectionAdd algo is _ fun j hj => h j (List.mem_cons_of_mem _ hj)

theorem testBit_foldl_or_two_pow (j : Nat) :
    ∀ (is : List Nat) (m : Nat),
      (is.foldl (fun m i => m ||| 2 ^ i) m).testBit j = (m.testBit j || decide (j ∈ is))
  | [], m => by simp
  | i :: is, m => by
    rw [List.foldl_cons, testBit_foldl_or_two_pow j is, Nat.testBit_or, Nat.testBit_two_pow]
    by_cases h : i = j
    · simp [h]
    · simp [h, Ne.symm h]

/-- The mask of the valid registers of a bank, set one by one, has the low 24 bits of
`valid_mask`, so it builds the selection `pcr_bank_to_selection` builds. -/
theorem pcrSelectionBuild_validIndices (bank : TpmPcrBank) :
    pcrSelectionBuild ((validIndices bank).foldl (fun m i => m ||| 2 ^ i) 0) bank.algoInfo =
      pcrBankToSelection bank := by
  have hmask : (validIndices bank).foldl (fun m i => m ||| 2 ^ i) 0 &&& 0xFFFFFF =
      bank.validMask &&& 0xFFFFFF := by
    have : (0xFFFFFF : Nat) = 2 ^ 24 - 1 := rfl
    apply Nat.eq_of_testBit_eq
    intro j
    simp only [this, Nat.and_pow_two_sub_one_eq_mod, Nat.testBit_mod_two_pow,
      testBit_foldl_or_two_pow, Nat.zero_testBit, Bool.false_or]
    by_cases hj : j < 24 <;> simp [hj, validIndices, pcrBankRegisterIsValid, pcrBankRegisterMax]
  exact pcrSelectionBuild_congr _ hmask

/-- The valid registers are below `PCR_BANK_REGISTER_MAX`. -/
theorem lt_of_mem_validIndices {bank : TpmPcrBank} {i : Nat} (h : i ∈ validIndices bank) :
    i < 24 :=
  List.mem_range.mp (List.mem_filter.mp h).1

/-- Adding the valid registers of a bank one by one, in increasing order, to a cleared selection
gives the selection `pcr_bank_to_selection` builds, and the assertion never fails. -/
theorem foldlM_pcrSelectionAdd_validIndices (bank : TpmPcrBank) :
    (validIndices bank).foldlM (fun sel i => pcrSelectionAdd sel bank.algoInfo.tcgId i)
      TpmlPcrSelection.zero = some (pcrBankToSelection bank) := by
  have hzero : TpmlPcrSelection.zero = pcrSelectionBuild 0 bank.algoInfo := rfl
  rw [hzero, foldlM_pcrSelectionAdd _ _ _ fun i => lt_of_mem_validIndices,
    pcrSelectionBuild_validIndices]

end PcrOracle
