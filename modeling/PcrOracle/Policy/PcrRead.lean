import Mathlib.Data.List.Nodup
import PcrOracle.Policy.Selection

/-!
# Reading the current PCR values into a bank

`pcr_read_into_bank` of `pcr-policy.c` fills a bank from the TPM. A `TPML_DIGEST` holds at most
eight digests, so the registers of `pcr_mask` are read in three chunks of eight: each chunk's
mask is built into a selection with `__pcr_selection_build` and sent with `Esys_PCR_Read`, and
the `k`-th digest of the answer is taken for the `k`-th selected register. A digest of size zero
is skipped, one of another size than the bank's aborts the read, and any other is stored in the
register, which is marked valid unless its value is all zero or all `0xFF`.

The TPM is a function from selections to answers, `none` for a failed `Esys_PCR_Read`. The TPM
the results are stated for answers a selection with the values of the selected registers, in
increasing order (`pcrReadAnswer`).

## Main results

* `pcrReadChunkLoop_take`: a chunk reads only the first `popcount` digests of the answer, and
  `selected_chunk_length_le`: a chunk selects at most eight registers.
* `pcrReadIntoBankLoop_validMask`: whatever the TPM answers, only registers of `pcr_mask` below
  24 are marked valid.
* `pcrReadIntoBank_answer`: with values of the bank's size or empty, every selected register
  with a value gets it, and is marked valid unless its value is all zero or all `0xFF`.
* `pcrReadIntoBank_wrong_size`: a value of another size makes the read fail, whatever the other
  registers hold, and leaves that register and those after it unread (`KeepsFrom`).
* `pcrReadIntoBank_spec` gathers them.
-/

namespace PcrOracle

/-! ## The model -/

/-- Modelled from the spec: `digest_is_invalid` (`digest.c`, not among the sources): a value of
all zero bytes or all `0xFF` bytes, which a register no event extended holds. -/
def digestIsInvalid (d : TpmEvdigest) : Bool := d.data.all (· = 0) || d.data.all (· = 0xFF)

/-- Modelled from the spec: `pcr_bank_mark_valid` (`pcr.c`, not among the sources): set the
register's bit of `valid_mask`. -/
def pcrBankMarkValid (bank : TpmPcrBank) (index : Nat) : TpmPcrBank :=
  { bank with validMask := bank.validMask ||| 2 ^ index }

/-- `digest_set(&bank->pcr[index], ...)` with a digest the TPM returned, then
`pcr_bank_mark_valid` unless `digest_is_invalid`. -/
def pcrBankSetRegister (bank : TpmPcrBank) (index : Nat) (d : List UInt8) : TpmPcrBank :=
  let pcr : TpmEvdigest := ⟨bank.algoInfo, d.length, d⟩
  let bank := { bank with pcr := bank.pcr.set index pcr }
  if digestIsInvalid pcr then bank else pcrBankMarkValid bank index

/-- The loop of one chunk over the registers: `k` counts the selected registers and
`pcrValues` is the TPM's answer, `digests[k]` being read as its `k`-th digest. Whether it goes
on, and the bank: a digest of the wrong size goes to `cleanup` with the registers set so far. -/
def pcrReadChunkLoop (pcrMask : Nat) (pcrValues : List (List UInt8)) :
    List Nat → Nat → TpmPcrBank → Bool × TpmPcrBank
  | [], _, bank => (true, bank)
  | index :: indices, k, bank =>
    if !pcrMask.testBit index then pcrReadChunkLoop pcrMask pcrValues indices k bank
    else
      let d := pcrValues.getD k []
      if d.length = 0 then pcrReadChunkLoop pcrMask pcrValues indices (k + 1) bank
      else if d.length ≠ bank.algoInfo.digestSize then (false, bank)
      else pcrReadChunkLoop pcrMask pcrValues indices (k + 1) (pcrBankSetRegister bank index d)

/-- The chunk loop of `pcr_read_into_bank`, from `pcr_chunk_offset`: skip a chunk with no
register of `pcr_mask`, otherwise read it. -/
def pcrReadIntoBankLoop (pcrRead : TpmlPcrSelection → Option (List (List UInt8))) :
    List Nat → TpmPcrBank → Bool × TpmPcrBank
  | [], bank => (true, bank)
  | offset :: offsets, bank =>
    let pcrMask := bank.pcrMask &&& 0xFF <<< offset
    if pcrMask = 0 then pcrReadIntoBankLoop pcrRead offsets bank
    else
      match pcrRead (pcrSelectionBuild pcrMask bank.algoInfo) with
      | none => (false, bank)
      | some pcrValues =>
        match pcrReadChunkLoop pcrMask pcrValues (List.range pcrBankRegisterMax) 0 bank with
        | (true, bank) => pcrReadIntoBankLoop pcrRead offsets bank
        | (false, bank) => (false, bank)

/-- `pcr_read_into_bank`: whether it returns `true`, and the bank. -/
def pcrReadIntoBank (pcrRead : TpmlPcrSelection → Option (List (List UInt8)))
    (bank : TpmPcrBank) : Bool × TpmPcrBank :=
  pcrReadIntoBankLoop pcrRead [0, 8, 16] bank

/-- The registers a selection asks for: those below 24 whose bit `i % 8` of byte `i / 8` is set
in the bitmap of its first bank, if it has one. -/
def TpmlPcrSelection.selected (sel : TpmlPcrSelection) : List Nat :=
  if sel.count = 0 then []
  else (List.range pcrBankRegisterMax).filter fun i =>
    ((sel.pcrSelections.getD 0 default).pcrSelect.getD (i / 8) 0).testBit (i % 8)

/-- A TPM whose `PCR_Read` answers a selection with the values of the selected registers in
increasing order; `values i` is the value of register `i` in the bank's algorithm. -/
def pcrReadAnswer (values : Nat → List UInt8) (sel : TpmlPcrSelection) :
    Option (List (List UInt8)) :=
  some (sel.selected.map values)

/-! ## One register -/

section Register

variable (bank : TpmPcrBank) (index : Nat) (d : List UInt8)

/-- Setting a register is one update of the bank: the register, and its bit of `valid_mask`
unless the value is invalid. -/
theorem pcrBankSetRegister_eq : pcrBankSetRegister bank index d =
    { bank with
      pcr := bank.pcr.set index ⟨bank.algoInfo, d.length, d⟩
      validMask := if digestIsInvalid ⟨bank.algoInfo, d.length, d⟩ then bank.validMask
        else bank.validMask ||| 2 ^ index } := by
  unfold pcrBankSetRegister pcrBankMarkValid
  dsimp only
  split_ifs <;> rfl

@[simp] theorem pcrBankSetRegister_algoInfo :
    (pcrBankSetRegister bank index d).algoInfo = bank.algoInfo := by
  rw [pcrBankSetRegister_eq]

@[simp] theorem pcrBankSetRegister_pcrMask :
    (pcrBankSetRegister bank index d).pcrMask = bank.pcrMask := by
  rw [pcrBankSetRegister_eq]

@[simp] theorem pcrBankSetRegister_pcr :
    (pcrBankSetRegister bank index d).pcr = bank.pcr.set index ⟨bank.algoInfo, d.length, d⟩ := by
  rw [pcrBankSetRegister_eq]

theorem testBit_pcrBankSetRegister_validMask (j : Nat) :
    (pcrBankSetRegister bank index d).validMask.testBit j =
      (bank.validMask.testBit j ||
        (decide (j = index) && !digestIsInvalid ⟨bank.algoInfo, d.length, d⟩)) := by
  rw [pcrBankSetRegister_eq]
  split_ifs with h <;> simp [h, Nat.testBit_two_pow, eq_comm]

end Register

/-- The registers from `b` on, and their bits of `valid_mask`, are in `bank'` as in `bank`: going
from `bank` to `bank'` read none of them. -/
def KeepsFrom (b : Nat) (bank bank' : TpmPcrBank) : Prop :=
  ∀ i, b ≤ i → bank'.pcr.getD i default = bank.pcr.getD i default ∧
    bank'.validMask.testBit i = bank.validMask.testBit i

theorem KeepsFrom.refl (b : Nat) (bank : TpmPcrBank) : KeepsFrom b bank bank :=
  fun _ _ => ⟨rfl, rfl⟩

theorem KeepsFrom.trans {b : Nat} {bank₁ bank₂ bank₃ : TpmPcrBank} (h₁ : KeepsFrom b bank₁ bank₂)
    (h₂ : KeepsFrom b bank₂ bank₃) : KeepsFrom b bank₁ bank₃ :=
  fun i hi => ⟨(h₂ i hi).1.trans (h₁ i hi).1, (h₂ i hi).2.trans (h₁ i hi).2⟩

/-- Setting a register below `b` keeps the registers from `b` on. -/
theorem keepsFrom_pcrBankSetRegister {b index : Nat} (h : index < b) (bank : TpmPcrBank)
    (d : List UInt8) : KeepsFrom b bank (pcrBankSetRegister bank index d) := fun i hi => by
  have hne : index ≠ i := by omega
  rw [pcrBankSetRegister_pcr, testBit_pcrBankSetRegister_validMask]
  simp [List.getD_eq_getElem?_getD, List.getElem?_set_ne hne, hne.symm]

section Registers

variable (values : Nat → List UInt8)

/-- A field that setting a register keeps is kept by a run of them. -/
theorem foldl_pcrBankSetRegister_keep {α : Type} (field : TpmPcrBank → α)
    (h : ∀ bank index d, field (pcrBankSetRegister bank index d) = field bank) :
    ∀ (l : List Nat) (bank : TpmPcrBank),
      field (l.foldl (fun b i => pcrBankSetRegister b i (values i)) bank) = field bank
  | [], _ => rfl
  | i :: l, bank => by rw [List.foldl_cons, foldl_pcrBankSetRegister_keep field h l, h]

@[simp] theorem foldl_pcrBankSetRegister_pcrMask (l : List Nat) (bank : TpmPcrBank) :
    (l.foldl (fun b i => pcrBankSetRegister b i (values i)) bank).pcrMask = bank.pcrMask :=
  foldl_pcrBankSetRegister_keep values _ pcrBankSetRegister_pcrMask l bank

@[simp] theorem foldl_pcrBankSetRegister_algoInfo (l : List Nat) (bank : TpmPcrBank) :
    (l.foldl (fun b i => pcrBankSetRegister b i (values i)) bank).algoInfo = bank.algoInfo :=
  foldl_pcrBankSetRegister_keep values _ pcrBankSetRegister_algoInfo l bank

/-- After a run of registers set from `values`, a register holds its value if it was set, and
what it held before otherwise. -/
theorem foldl_pcrBankSetRegister_pcr : ∀ (l : List Nat) (bank : TpmPcrBank) {i : Nat},
    i < bank.pcr.length →
      (l.foldl (fun b j => pcrBankSetRegister b j (values j)) bank).pcr.getD i default =
        if i ∈ l then ⟨bank.algoInfo, (values i).length, values i⟩ else bank.pcr.getD i default
  | [], _, _, _ => rfl
  | j :: l, bank, i, hi => by
    rw [List.foldl_cons, foldl_pcrBankSetRegister_pcr l _ (by simpa using hi)]
    by_cases hj : i = j
    · subst hj
      simp [hi]
    · simp [hj, List.getElem?_set_ne (Ne.symm hj)]

theorem testBit_foldl_pcrBankSetRegister_validMask (j : Nat) :
    ∀ (l : List Nat) (bank : TpmPcrBank),
      (l.foldl (fun b i => pcrBankSetRegister b i (values i)) bank).validMask.testBit j =
        (bank.validMask.testBit j ||
          (decide (j ∈ l) && !digestIsInvalid ⟨bank.algoInfo, (values j).length, values j⟩))
  | [], _ => by simp
  | i :: l, bank => by
    rw [List.foldl_cons, testBit_foldl_pcrBankSetRegister_validMask j l,
      testBit_pcrBankSetRegister_validMask, pcrBankSetRegister_algoInfo]
    by_cases h : j = i
    · subst h
      cases digestIsInvalid ⟨bank.algoInfo, (values j).length, values j⟩ <;> simp
    · simp [h]

end Registers

/-! ## One chunk -/

section Chunk

variable (pcrMask : Nat)

/-- Two answers that agree on the digests a chunk reads give the same run: the `k`-th selected
register reads `digests[k]`, so no digest at or past `popcount` is read. -/
theorem pcrReadChunkLoop_congr : ∀ (l : List Nat) (k : Nat) (bank : TpmPcrBank)
    {pcrValues pcrValues' : List (List UInt8)},
    (∀ j < k + (l.filter pcrMask.testBit).length, pcrValues.getD j [] = pcrValues'.getD j []) →
      pcrReadChunkLoop pcrMask pcrValues l k bank = pcrReadChunkLoop pcrMask pcrValues' l k bank
  | [], _, _, _, _, _ => rfl
  | i :: l, k, bank, pcrValues, pcrValues', h => by
    by_cases hi : pcrMask.testBit i
    · have hk : pcrValues.getD k [] = pcrValues'.getD k [] := h k (by simp [hi])
      have hrest : ∀ j < k + 1 + (l.filter pcrMask.testBit).length,
          pcrValues.getD j [] = pcrValues'.getD j [] := fun j hj => h j (by simp [hi]; omega)
      simp only [pcrReadChunkLoop, hi, Bool.not_true, Bool.false_eq_true, if_false, hk,
        pcrReadChunkLoop_congr l (k + 1) _ hrest]
    · simp only [pcrReadChunkLoop, hi, Bool.not_false, if_true]
      exact pcrReadChunkLoop_congr l k bank fun j hj => h j (by simpa [hi] using hj)

/-- A chunk reads only the first `popcount` digests of the answer. -/
theorem pcrReadChunkLoop_take (l : List Nat) (bank : TpmPcrBank) (pcrValues : List (List UInt8)) :
    pcrReadChunkLoop pcrMask pcrValues l 0 bank =
      pcrReadChunkLoop pcrMask (pcrValues.take (l.filter pcrMask.testBit).length) l 0 bank :=
  pcrReadChunkLoop_congr pcrMask l 0 bank fun j hj => by
    have hj' : j < (l.filter pcrMask.testBit).length := by omega
    simp only [List.getD_eq_getElem?_getD, List.getElem?_take_of_lt hj']

/-- Whatever the answer, a chunk marks valid only registers it selects. -/
theorem pcrReadChunkLoop_validMask (pcrValues : List (List UInt8)) (j : Nat) :
    ∀ (l : List Nat) (k : Nat) (bank : TpmPcrBank),
      (pcrReadChunkLoop pcrMask pcrValues l k bank).2.validMask.testBit j →
        bank.validMask.testBit j ∨ (j ∈ l ∧ pcrMask.testBit j)
  | [], _, _, h => .inl h
  | i :: l, k, bank, h => by
    unfold pcrReadChunkLoop at h
    dsimp only at h
    split_ifs at h with hi
    · exact (pcrReadChunkLoop_validMask pcrValues j l k bank h).imp_right
        fun h' => ⟨.tail _ h'.1, h'.2⟩
    · exact (pcrReadChunkLoop_validMask pcrValues j l _ bank h).imp_right
        fun h' => ⟨.tail _ h'.1, h'.2⟩
    · exact .inl h
    · rcases pcrReadChunkLoop_validMask pcrValues j l _ _ h with h' | h'
      · rw [testBit_pcrBankSetRegister_validMask] at h'
        by_cases hj : j = i
        · subst hj
          exact .inr ⟨.head _, by simpa using hi⟩
        · exact .inl (by simpa [hj] using h')
      · exact .inr ⟨.tail _ h'.1, h'.2⟩

/-- A field that setting a register keeps is kept by a chunk, whatever the answer. -/
theorem pcrReadChunkLoop_keep {α : Type} (field : TpmPcrBank → α)
    (h : ∀ bank index d, field (pcrBankSetRegister bank index d) = field bank)
    (pcrValues : List (List UInt8)) : ∀ (l : List Nat) (k : Nat) (bank : TpmPcrBank),
      field (pcrReadChunkLoop pcrMask pcrValues l k bank).2 = field bank
  | [], _, _ => rfl
  | i :: l, k, bank => by
    unfold pcrReadChunkLoop
    dsimp only
    split_ifs
    · exact pcrReadChunkLoop_keep field h pcrValues l k bank
    · exact pcrReadChunkLoop_keep field h pcrValues l _ bank
    · rfl
    · rw [pcrReadChunkLoop_keep field h pcrValues l _ _, h]

theorem pcrReadChunkLoop_pcrMask (pcrValues : List (List UInt8)) (l : List Nat) (k : Nat)
    (bank : TpmPcrBank) : (pcrReadChunkLoop pcrMask pcrValues l k bank).2.pcrMask = bank.pcrMask :=
  pcrReadChunkLoop_keep pcrMask _ pcrBankSetRegister_pcrMask pcrValues l k bank

theorem pcrReadChunkLoop_algoInfo (pcrValues : List (List UInt8)) (l : List Nat) (k : Nat)
    (bank : TpmPcrBank) :
    (pcrReadChunkLoop pcrMask pcrValues l k bank).2.algoInfo = bank.algoInfo :=
  pcrReadChunkLoop_keep pcrMask _ pcrBankSetRegister_algoInfo pcrValues l k bank

/-- Whatever the answer, a chunk whose selected registers all lie below `b` keeps the registers
from `b` on. -/
theorem pcrReadChunkLoop_keepsFrom {b : Nat} (pcrValues : List (List UInt8)) :
    ∀ (l : List Nat) (k : Nat) (bank : TpmPcrBank), (∀ i ∈ l, pcrMask.testBit i → i < b) →
      KeepsFrom b bank (pcrReadChunkLoop pcrMask pcrValues l k bank).2
  | [], _, bank, _ => KeepsFrom.refl b bank
  | i :: l, k, bank, h => by
    have h' : ∀ j ∈ l, pcrMask.testBit j → j < b := fun j hj => h j (.tail _ hj)
    unfold pcrReadChunkLoop
    dsimp only
    split_ifs with hi
    · exact pcrReadChunkLoop_keepsFrom pcrValues l k bank h'
    · exact pcrReadChunkLoop_keepsFrom pcrValues l _ bank h'
    · exact KeepsFrom.refl b bank
    · exact (keepsFrom_pcrBankSetRegister (h i (.head _) (by simpa using hi)) bank _).trans
        (pcrReadChunkLoop_keepsFrom pcrValues l _ _ h')

theorem getD_length_append (pre rest : List (List UInt8)) (d : List UInt8) :
    (pre ++ d :: rest).getD pre.length [] = d := by
  rw [List.getD_eq_getElem?_getD, List.getElem?_append_right (le_refl _), Nat.sub_self,
    List.getElem?_cons_zero, Option.getD_some]

section Answer

variable (values : Nat → List UInt8)

/-- A chunk answered with the values of its selected registers, each empty or of the bank's
size, runs to its end and sets every selected register whose value is not empty. -/
theorem pcrReadChunkLoop_answer : ∀ (l : List Nat) (pre : List (List UInt8)) (bank : TpmPcrBank),
    (∀ i ∈ l, pcrMask.testBit i →
      (values i).length = 0 ∨ (values i).length = bank.algoInfo.digestSize) →
    pcrReadChunkLoop pcrMask (pre ++ (l.filter pcrMask.testBit).map values) l pre.length bank =
      (true, (l.filter fun i => pcrMask.testBit i && (values i).length != 0).foldl
        (fun b i => pcrBankSetRegister b i (values i)) bank)
  | [], _, _, _ => by simp [pcrReadChunkLoop]
  | i :: l, pre, bank, h => by
    have h' : ∀ j ∈ l, pcrMask.testBit j →
        (values j).length = 0 ∨ (values j).length = bank.algoInfo.digestSize :=
      fun j hj => h j (.tail _ hj)
    by_cases hi : pcrMask.testBit i
    · have hk : pre.length + 1 = (pre ++ [values i]).length := by simp
      simp only [pcrReadChunkLoop, hi, Bool.not_true, Bool.false_eq_true, if_false,
        List.filter_cons_of_pos hi, List.map_cons, getD_length_append]
      by_cases h0 : (values i).length = 0
      · -- an empty digest is skipped
        rw [if_pos h0, List.append_cons, hk, pcrReadChunkLoop_answer l _ bank h']
        simp [h0]
      · -- a digest of the bank's size is stored
        have hs := (h i (.head _) hi).resolve_left h0
        have h'' : ∀ j ∈ l, pcrMask.testBit j → (values j).length = 0 ∨
            (values j).length = (pcrBankSetRegister bank i (values i)).algoInfo.digestSize := by
          simpa only [pcrBankSetRegister_algoInfo] using h'
        rw [if_neg h0, if_neg (not_not.mpr hs), List.append_cons, hk,
          pcrReadChunkLoop_answer l _ _ h'']
        simp [hi, h0]
    · simp only [pcrReadChunkLoop, hi, Bool.not_false, if_true, List.filter_cons_of_neg hi,
        pcrReadChunkLoop_answer l pre bank h']
      simp [hi]

/-- A chunk that selects `b`, whose value is neither empty nor of the bank's size, fails, and
keeps the registers from `b` on: it reads its registers in increasing order and stops at `b` at
the latest. -/
theorem pcrReadChunkLoop_wrong_size {b : Nat} (hb : pcrMask.testBit b)
    (h0 : (values b).length ≠ 0) : ∀ (l : List Nat) (pre : List (List UInt8)) (bank : TpmPcrBank),
    l.Pairwise (· < ·) → b ∈ l → (values b).length ≠ bank.algoInfo.digestSize →
    (pcrReadChunkLoop pcrMask (pre ++ (l.filter pcrMask.testBit).map values) l pre.length bank).1 =
      false ∧ KeepsFrom b bank
        (pcrReadChunkLoop pcrMask (pre ++ (l.filter pcrMask.testBit).map values) l pre.length bank).2
  | [], _, _, _, hbl, _ => absurd hbl (List.not_mem_nil _)
  | i :: l, pre, bank, hl, hbl, hs => by
    obtain ⟨hlt, hl⟩ := List.pairwise_cons.mp hl
    by_cases hi : pcrMask.testBit i
    · have hk : pre.length + 1 = (pre ++ [values i]).length := by simp
      simp only [pcrReadChunkLoop, hi, Bool.not_true, Bool.false_eq_true, if_false,
        List.filter_cons_of_pos hi, List.map_cons, getD_length_append]
      by_cases hi0 : (values i).length = 0
      · -- an empty digest is skipped, and `b` comes later
        have hbl' : b ∈ l := (List.mem_cons.mp hbl).resolve_left (by rintro rfl; exact h0 hi0)
        rw [if_pos hi0, List.append_cons, hk]
        exact pcrReadChunkLoop_wrong_size hb h0 l _ bank hl hbl' hs
      · by_cases his : (values i).length = bank.algoInfo.digestSize
        · -- a digest of the bank's size is stored below `b`, and `b` comes later
          have hbl' : b ∈ l := (List.mem_cons.mp hbl).resolve_left (by rintro rfl; exact hs his)
          rw [if_neg hi0, if_neg (not_not.mpr his), List.append_cons, hk]
          have ih := pcrReadChunkLoop_wrong_size hb h0 l (pre ++ [values i])
            (pcrBankSetRegister bank i (values i)) hl hbl' (by rwa [pcrBankSetRegister_algoInfo])
          exact ⟨ih.1, (keepsFrom_pcrBankSetRegister (hlt b hbl') bank _).trans ih.2⟩
        · -- the read stops here
          rw [if_neg hi0, if_pos his]
          exact ⟨rfl, KeepsFrom.refl b bank⟩
    · have hbl' : b ∈ l := (List.mem_cons.mp hbl).resolve_left (by rintro rfl; exact hi hb)
      simp only [pcrReadChunkLoop, hi, Bool.not_false, if_true, List.filter_cons_of_neg hi]
      exact pcrReadChunkLoop_wrong_size hb h0 l pre bank hl hbl' hs

end Answer

end Chunk

/-! ## The three chunks -/

/-- Bit `j` of the chunk of `pcr_mask` at `offset`. -/
theorem testBit_chunkMask (pcrMask offset j : Nat) :
    (pcrMask &&& 0xFF <<< offset).testBit j =
      (pcrMask.testBit j && decide (offset ≤ j ∧ j < offset + 8)) := by
  have : (0xFF : Nat) = 2 ^ 8 - 1 := rfl
  rw [Nat.testBit_and, Nat.testBit_shiftLeft, this, Nat.testBit_two_pow_sub_one]
  have hwin : j - offset < 8 ↔ j < offset + 8 := by omega
  by_cases h : offset ≤ j <;> simp [h, hwin]

/-- The registers of the selection `__pcr_selection_build` makes of a mask are the set bits of
the mask below 24. -/
theorem selected_pcrSelectionBuild (pcrMask : Nat) (algoInfo : TpmAlgoInfo) :
    (pcrSelectionBuild pcrMask algoInfo).selected =
      (List.range pcrBankRegisterMax).filter pcrMask.testBit := by
  have h24 : ∀ i ∈ List.range pcrBankRegisterMax,
      (pcrMask &&& 0xFFFFFF).testBit i = pcrMask.testBit i := fun i hi => by
    have hmask : (0xFFFFFF : Nat) = 2 ^ 24 - 1 := rfl
    have hi : i < 24 := by simpa [pcrBankRegisterMax] using hi
    rw [Nat.testBit_and, hmask, Nat.testBit_two_pow_sub_one, decide_eq_true hi, Bool.and_true]
  unfold pcrSelectionBuild TpmlPcrSelection.selected
  dsimp only
  by_cases h : pcrMask &&& 0xFFFFFF = 0
  · -- no register below 24: nothing is selected
    rw [if_pos h, TpmlPcrSelection.zero, if_pos rfl, eq_comm, List.filter_eq_nil_iff]
    intro i hi
    have hbit := h24 i hi
    rw [h, Nat.zero_testBit] at hbit
    simp [← hbit]
  · rw [if_neg h, if_neg one_ne_zero]
    refine List.filter_congr fun i hi => ?_
    have hbyte : [selectByte (pcrMask &&& 0xFFFFFF) 0, selectByte (pcrMask &&& 0xFFFFFF) 1,
        selectByte (pcrMask &&& 0xFFFFFF) 2, 0].getD (i / 8) 0 =
          selectByte (pcrMask &&& 0xFFFFFF) (i / 8) := by
      have hi : i < 24 := by simpa [pcrBankRegisterMax] using hi
      obtain h | h | h : i / 8 = 0 ∨ i / 8 = 1 ∨ i / 8 = 2 := by omega
      all_goals simp [h]
    simp only [TpmlPcrSelection.zero, List.replicate_succ, List.set_cons_zero, List.getD_cons_zero,
      hbyte, testBit_selectByte, Nat.mod_lt _ (by omega : 8 > 0), decide_True, Bool.true_and,
      Nat.div_add_mod, h24 i hi]

/-- A chunk asks for at most eight registers. -/
theorem selected_chunk_length_le (pcrMask : Nat) (algoInfo : TpmAlgoInfo) :
    ∀ offset ∈ [0, 8, 16],
      (pcrSelectionBuild (pcrMask &&& 0xFF <<< offset) algoInfo).selected.length ≤ 8 := by
  intro offset hoff
  have hwin : ((List.range pcrBankRegisterMax).filter
      fun i => decide (offset ≤ i ∧ i < offset + 8)).length = 8 := by
    simp only [List.mem_cons, List.mem_singleton, List.not_mem_nil, or_false] at hoff
    rcases hoff with rfl | rfl | rfl <;> decide
  have hchunk : (List.range pcrBankRegisterMax).filter (pcrMask &&& 0xFF <<< offset).testBit =
      ((List.range pcrBankRegisterMax).filter fun i => decide (offset ≤ i ∧ i < offset + 8)).filter
        pcrMask.testBit := by
    rw [List.filter_filter]
    exact List.filter_congr fun i _ => testBit_chunkMask pcrMask offset i
  rw [selected_pcrSelectionBuild, hchunk]
  exact (List.length_filter_le _ _).trans hwin.le

/-- A chunk of the read marks valid only registers of `pcr_mask` below 24. -/
theorem pcrReadChunkLoop_chunk_validMask {bank : TpmPcrBank} {offset j : Nat}
    {pcrValues : List (List UInt8)}
    (h : (pcrReadChunkLoop (bank.pcrMask &&& 0xFF <<< offset) pcrValues
      (List.range pcrBankRegisterMax) 0 bank).2.validMask.testBit j) :
    bank.validMask.testBit j ∨ (j < pcrBankRegisterMax ∧ bank.pcrMask.testBit j) :=
  (pcrReadChunkLoop_validMask _ pcrValues j _ 0 bank h).imp_right fun ⟨hj, hsel⟩ =>
    ⟨List.mem_range.mp hj, by rw [Nat.testBit_and, Bool.and_eq_true] at hsel; exact hsel.1⟩

section Tpm

variable (pcrRead : TpmlPcrSelection → Option (List (List UInt8)))

/-- Whatever the TPM answers, a read reads only the first `popcount` digests of each answer. -/
theorem pcrReadIntoBankLoop_take : ∀ (offsets : List Nat) (bank : TpmPcrBank),
    pcrReadIntoBankLoop pcrRead offsets bank =
      pcrReadIntoBankLoop (fun sel => (pcrRead sel).map (List.take sel.selected.length))
        offsets bank
  | [], _ => rfl
  | offset :: offsets, bank => by
    simp only [pcrReadIntoBankLoop]
    split_ifs
    · exact pcrReadIntoBankLoop_take offsets bank
    · rcases pcrRead (pcrSelectionBuild (bank.pcrMask &&& 0xFF <<< offset) bank.algoInfo)
        with _ | pcrValues
      · rfl
      · simp only [Option.map_some', selected_pcrSelectionBuild, ← pcrReadChunkLoop_take,
          pcrReadIntoBankLoop_take offsets]

/-- Whatever the TPM answers, a read marks valid only registers of `pcr_mask` below 24. -/
theorem pcrReadIntoBankLoop_validMask (j : Nat) : ∀ (offsets : List Nat) (bank : TpmPcrBank),
    (pcrReadIntoBankLoop pcrRead offsets bank).2.validMask.testBit j →
      bank.validMask.testBit j ∨ (j < pcrBankRegisterMax ∧ bank.pcrMask.testBit j)
  | [], _, h => .inl h
  | offset :: offsets, bank, h => by
    simp only [pcrReadIntoBankLoop] at h
    split_ifs at h
    · exact pcrReadIntoBankLoop_validMask j offsets bank h
    · split at h
      · exact .inl h
      · split at h
        · rename_i bank' hchunk
          have hmask : bank'.pcrMask = bank.pcrMask := by
            rw [← pcrReadChunkLoop_pcrMask _ _ _ 0 bank, hchunk]
          rcases pcrReadIntoBankLoop_validMask j offsets bank' h with h' | h'
          · exact pcrReadChunkLoop_chunk_validMask (by rw [hchunk]; exact h')
          · exact .inr (hmask ▸ h')
        · rename_i bank' hchunk
          exact pcrReadChunkLoop_chunk_validMask (by rw [hchunk]; exact h)

end Tpm

section Answer

variable (values : Nat → List UInt8)

/-- The registers an honest read sets, chunk by chunk: those of `pcr_mask` in the chunk whose
value is not empty. -/
theorem pcrReadIntoBankLoop_answer : ∀ (offsets : List Nat) (bank : TpmPcrBank),
    (∀ i < pcrBankRegisterMax, bank.pcrMask.testBit i →
      (values i).length = 0 ∨ (values i).length = bank.algoInfo.digestSize) →
    pcrReadIntoBankLoop (pcrReadAnswer values) offsets bank =
      (true, (offsets.flatMap fun offset => (List.range pcrBankRegisterMax).filter fun i =>
          (bank.pcrMask &&& 0xFF <<< offset).testBit i && (values i).length != 0).foldl
        (fun b i => pcrBankSetRegister b i (values i)) bank)
  | [], _, _ => rfl
  | offset :: offsets, bank, h => by
    have hchunk : ∀ i ∈ List.range pcrBankRegisterMax,
        (bank.pcrMask &&& 0xFF <<< offset).testBit i →
          (values i).length = 0 ∨ (values i).length = bank.algoInfo.digestSize :=
      fun i hi hsel => h i (List.mem_range.mp hi)
        (by rw [Nat.testBit_and, Bool.and_eq_true] at hsel; exact hsel.1)
    simp only [pcrReadIntoBankLoop, pcrReadAnswer, selected_pcrSelectionBuild]
    split_ifs with hz
    · -- a chunk with no register of the mask is skipped
      rw [pcrReadIntoBankLoop_answer offsets bank h, List.flatMap_cons, hz]
      simp
    · have hrun := pcrReadChunkLoop_answer _ values (List.range pcrBankRegisterMax) [] bank hchunk
      rw [List.nil_append, List.length_nil] at hrun
      rw [hrun]
      dsimp only
      rw [pcrReadIntoBankLoop_answer offsets _ (by simpa using h), List.flatMap_cons,
        List.foldl_append, foldl_pcrBankSetRegister_pcrMask]

/-- An honest read that selects `b`, with a value neither empty nor of the bank's size, fails
and keeps the registers from `b` on, when the chunks before the one of `b` lie below `b`. -/
theorem pcrReadIntoBankLoop_wrong_size {b : Nat} (offset : Nat) (hoff : offset ≤ b)
    (hb : b < offset + 8) (hb24 : b < pcrBankRegisterMax) (h0 : (values b).length ≠ 0)
    (post : List Nat) : ∀ (pre : List Nat) (bank : TpmPcrBank), (∀ o ∈ pre, o + 8 ≤ b) →
    bank.pcrMask.testBit b → (values b).length ≠ bank.algoInfo.digestSize →
    (pcrReadIntoBankLoop (pcrReadAnswer values) (pre ++ offset :: post) bank).1 = false ∧
      KeepsFrom b bank (pcrReadIntoBankLoop (pcrReadAnswer values) (pre ++ offset :: post) bank).2
  | [], bank, _, hsel, hs => by
    -- the chunk of `b` stops at `b` at the latest
    have hchunk : (bank.pcrMask &&& 0xFF <<< offset).testBit b := by
      rw [testBit_chunkMask, hsel, Bool.true_and, decide_eq_true_eq]
      omega
    have hz : bank.pcrMask &&& 0xFF <<< offset ≠ 0 := fun hz => by simp [hz] at hchunk
    have hrun := pcrReadChunkLoop_wrong_size _ values hchunk h0 (List.range pcrBankRegisterMax) []
      bank (List.pairwise_lt_range _) (List.mem_range.mpr hb24) hs
    rw [List.nil_append, List.length_nil] at hrun
    simp only [List.nil_append, pcrReadIntoBankLoop, pcrReadAnswer, selected_pcrSelectionBuild,
      if_neg hz]
    split
    · rename_i hc
      exact absurd (hc ▸ hrun.1) Bool.noConfusion
    · rename_i hc
      exact ⟨rfl, hc ▸ hrun.2⟩
  | o :: pre, bank, hpre, hsel, hs => by
    -- a chunk below `b` reads registers below `b` only
    have hbelow : ∀ i ∈ List.range pcrBankRegisterMax,
        (bank.pcrMask &&& 0xFF <<< o).testBit i → i < b := fun i _ hi => by
      rw [testBit_chunkMask, Bool.and_eq_true, decide_eq_true_eq] at hi
      have := hpre o (.head _)
      omega
    have hpre' : ∀ o' ∈ pre, o' + 8 ≤ b := fun o' h => hpre o' (.tail _ h)
    have hkeep := pcrReadChunkLoop_keepsFrom _ (((List.range pcrBankRegisterMax).filter
      (bank.pcrMask &&& 0xFF <<< o).testBit).map values) _ 0 bank hbelow
    simp only [List.cons_append, pcrReadIntoBankLoop, pcrReadAnswer, selected_pcrSelectionBuild]
    split_ifs
    · exact pcrReadIntoBankLoop_wrong_size offset hoff hb hb24 h0 post pre bank hpre' hsel hs
    · split
      · -- the chunk reads on, and the rest of the read keeps the registers from `b` on
        rename_i bank' hc
        have hmask : bank'.pcrMask = bank.pcrMask := by
          rw [← pcrReadChunkLoop_pcrMask _ _ _ 0 bank, hc]
        have halgo : bank'.algoInfo = bank.algoInfo := by
          rw [← pcrReadChunkLoop_algoInfo _ _ _ 0 bank, hc]
        rw [hc] at hkeep
        have ih := pcrReadIntoBankLoop_wrong_size offset hoff hb hb24 h0 post pre bank' hpre'
          (hmask ▸ hsel) (halgo ▸ hs)
        exact ⟨ih.1, hkeep.trans ih.2⟩
      · -- the chunk stops the read below `b`
        rename_i hc
        rw [hc] at hkeep
        exact ⟨rfl, hkeep⟩

/-- The registers the three chunks of an honest read set are the registers of `pcr_mask` below
24 whose value is not empty. -/
theorem mem_chunkRegisters (pcrMask i : Nat) :
    i ∈ [0, 8, 16].flatMap (fun offset => (List.range pcrBankRegisterMax).filter fun j =>
        (pcrMask &&& 0xFF <<< offset).testBit j && (values j).length != 0) ↔
      i < pcrBankRegisterMax ∧ pcrMask.testBit i ∧ (values i).length ≠ 0 := by
  simp only [List.mem_flatMap, List.mem_filter, List.mem_range, testBit_chunkMask,
    Bool.and_eq_true, decide_eq_true_eq, bne_iff_ne, ne_eq, List.mem_cons, List.mem_singleton,
    List.not_mem_nil, or_false, exists_eq_or_imp, exists_eq_left, pcrBankRegisterMax]
  by_cases hb : pcrMask.testBit i = true <;> by_cases hv : values i = [] <;> simp [hb, hv]
  omega

end Answer

/-! ## The read -/

/-- Whatever the TPM answers, the read takes only the first `popcount` digests of each
answer. -/
theorem pcrReadIntoBank_take (pcrRead : TpmlPcrSelection → Option (List (List UInt8)))
    (bank : TpmPcrBank) :
    pcrReadIntoBank pcrRead bank =
      pcrReadIntoBank (fun sel => (pcrRead sel).map (List.take sel.selected.length)) bank :=
  pcrReadIntoBankLoop_take pcrRead _ bank

/-- An honest read whose values are empty or of the bank's size returns `true`, stores every
value that is not empty in its register of `pcr_mask`, and marks valid those of them that are not
all zero or all `0xFF`. -/
theorem pcrReadIntoBank_answer (values : Nat → List UInt8) (bank : TpmPcrBank)
    (hsize : ∀ i < pcrBankRegisterMax, bank.pcrMask.testBit i →
      (values i).length = 0 ∨ (values i).length = bank.algoInfo.digestSize) :
    (pcrReadIntoBank (pcrReadAnswer values) bank).1 = true ∧
    (∀ i < bank.pcr.length, (pcrReadIntoBank (pcrReadAnswer values) bank).2.pcr.getD i default =
      if i < pcrBankRegisterMax ∧ bank.pcrMask.testBit i ∧ (values i).length ≠ 0 then
        ⟨bank.algoInfo, (values i).length, values i⟩ else bank.pcr.getD i default) ∧
    (∀ i, (pcrReadIntoBank (pcrReadAnswer values) bank).2.validMask.testBit i =
      (bank.validMask.testBit i ||
        (decide (i < pcrBankRegisterMax ∧ bank.pcrMask.testBit i ∧ (values i).length ≠ 0) &&
          !digestIsInvalid ⟨bank.algoInfo, (values i).length, values i⟩))) := by
  rw [pcrReadIntoBank, pcrReadIntoBankLoop_answer values _ bank hsize]
  refine ⟨rfl, fun i hi => ?_, fun i => ?_⟩
  · simp only [foldl_pcrBankSetRegister_pcr values _ bank hi, mem_chunkRegisters]
  · simp only [testBit_foldl_pcrBankSetRegister_validMask, mem_chunkRegisters]

/-- An honest read fails when a register `b` of `pcr_mask` below 24 has a value neither empty nor
of the bank's size, whatever the other registers hold, and it leaves the registers from `b` on
unread. -/
theorem pcrReadIntoBank_wrong_size (values : Nat → List UInt8) (bank : TpmPcrBank) {b : Nat}
    (hb : b < pcrBankRegisterMax) (hsel : bank.pcrMask.testBit b) (h0 : (values b).length ≠ 0)
    (hs : (values b).length ≠ bank.algoInfo.digestSize) :
    (pcrReadIntoBank (pcrReadAnswer values) bank).1 = false ∧
      KeepsFrom b bank (pcrReadIntoBank (pcrReadAnswer values) bank).2 := by
  have hb' : b < 24 := hb
  obtain h | h | h : b / 8 = 0 ∨ b / 8 = 1 ∨ b / 8 = 2 := by omega
  · exact pcrReadIntoBankLoop_wrong_size values 0 (by omega) (by omega) hb h0 [8, 16] [] bank
      (by simp) hsel hs
  · exact pcrReadIntoBankLoop_wrong_size values 8 (by omega) (by omega) hb h0 [16] [0] bank
      (by simp; omega) hsel hs
  · exact pcrReadIntoBankLoop_wrong_size values 16 (by omega) (by omega) hb h0 [] [0, 8] bank
      (by simp; omega) hsel hs

/-- `pcr_read_into_bank`, for a bank and a TPM. Whatever the TPM answers, the `k`-th digest of a
chunk's answer is read only for `k` below the number of registers of the chunk, which is at most
eight, and only registers of `pcr_mask` below 24 are marked valid. If the TPM answers with the
values of the selected registers in increasing order, and each is empty or of the bank's size,
every register of `pcr_mask` below 24 with a value gets it and is marked valid exactly when the
value is not all zero or all `0xFF`. If one of them has a value of another size, the read fails,
and it and the registers after it are left unread. -/
theorem pcrReadIntoBank_spec (bank : TpmPcrBank) (values : Nat → List UInt8) :
    (∀ pcrRead, pcrReadIntoBank pcrRead bank =
      pcrReadIntoBank (fun sel => (pcrRead sel).map (List.take sel.selected.length)) bank) ∧
    (∀ offset ∈ [0, 8, 16],
      (pcrSelectionBuild (bank.pcrMask &&& 0xFF <<< offset) bank.algoInfo).selected.length ≤ 8) ∧
    (∀ pcrRead j, (pcrReadIntoBank pcrRead bank).2.validMask.testBit j →
      bank.validMask.testBit j ∨ (j < pcrBankRegisterMax ∧ bank.pcrMask.testBit j)) ∧
    ((∀ i < pcrBankRegisterMax, bank.pcrMask.testBit i →
        (values i).length = 0 ∨ (values i).length = bank.algoInfo.digestSize) →
      (pcrReadIntoBank (pcrReadAnswer values) bank).1 = true ∧
      (∀ i < bank.pcr.length, (pcrReadIntoBank (pcrReadAnswer values) bank).2.pcr.getD i default =
        if i < pcrBankRegisterMax ∧ bank.pcrMask.testBit i ∧ (values i).length ≠ 0 then
          ⟨bank.algoInfo, (values i).length, values i⟩ else bank.pcr.getD i default) ∧
      (∀ i, (pcrReadIntoBank (pcrReadAnswer values) bank).2.validMask.testBit i =
        (bank.validMask.testBit i ||
          (decide (i < pcrBankRegisterMax ∧ bank.pcrMask.testBit i ∧ (values i).length ≠ 0) &&
            !digestIsInvalid ⟨bank.algoInfo, (values i).length, values i⟩)))) ∧
    (∀ b < pcrBankRegisterMax, bank.pcrMask.testBit b → (values b).length ≠ 0 →
      (values b).length ≠ bank.algoInfo.digestSize →
      (pcrReadIntoBank (pcrReadAnswer values) bank).1 = false ∧
        KeepsFrom b bank (pcrReadIntoBank (pcrReadAnswer values) bank).2) :=
  ⟨fun pcrRead => pcrReadIntoBank_take pcrRead bank, selected_chunk_length_le _ _,
    fun pcrRead j => pcrReadIntoBankLoop_validMask pcrRead j _ bank,
    pcrReadIntoBank_answer values bank,
    fun _ hb hsel h0 hs => pcrReadIntoBank_wrong_size values bank hb hsel h0 hs⟩

/-- A SHA-256 bank asking for PCRs 0 and 1, none of them read yet. -/
def sha256BankPcr01 : TpmPcrBank :=
  ⟨0b11, 0, "sha256", ⟨tpm2AlgSha256, "sha256", 32⟩, List.replicate pcrBankRegisterMax default⟩

/-- A TPM that returns a SHA-1 sized value for PCR 0 and SHA-256 sized values for the others. -/
def shortPcr0Values (i : Nat) : List UInt8 :=
  if i = 0 then List.replicate 20 0x11 else List.replicate 32 0x22

/-- PCR 1 returns a digest of the bank's size, but the 20-byte value of PCR 0 before it makes the
read fail with PCR 1 never assigned. -/
theorem pcrReadIntoBank_stops_before_pcr1 :
    sha256BankPcr01.pcrMask.testBit 1 = true ∧
    (shortPcr0Values 1).length = sha256BankPcr01.algoInfo.digestSize ∧
    (pcrReadIntoBank (pcrReadAnswer shortPcr0Values) sha256BankPcr01).1 = false ∧
    (pcrReadIntoBank (pcrReadAnswer shortPcr0Values) sha256BankPcr01).2.pcr.getD 1 default ≠
      ⟨sha256BankPcr01.algoInfo, (shortPcr0Values 1).length, shortPcr0Values 1⟩ := by
  decide

/-- With both values of the bank's size, both registers are read and marked valid. -/
theorem pcrReadIntoBank_spec_sha256BankPcr01 :
    (pcrReadIntoBank (pcrReadAnswer fun _ => List.replicate 32 0x22) sha256BankPcr01).1 = true ∧
    (∀ i < sha256BankPcr01.pcr.length,
      (pcrReadIntoBank (pcrReadAnswer fun _ => List.replicate 32 0x22) sha256BankPcr01).2.pcr.getD
        i default =
      if i < pcrBankRegisterMax ∧ sha256BankPcr01.pcrMask.testBit i ∧
          (List.replicate 32 (0x22 : UInt8)).length ≠ 0 then
        ⟨sha256BankPcr01.algoInfo, (List.replicate 32 0x22).length, List.replicate 32 0x22⟩
      else sha256BankPcr01.pcr.getD i default) ∧
    (∀ i, (pcrReadIntoBank (pcrReadAnswer fun _ => List.replicate 32 0x22)
        sha256BankPcr01).2.validMask.testBit i =
      (sha256BankPcr01.validMask.testBit i ||
        (decide (i < pcrBankRegisterMax ∧ sha256BankPcr01.pcrMask.testBit i ∧
            (List.replicate 32 (0x22 : UInt8)).length ≠ 0) &&
          !digestIsInvalid ⟨sha256BankPcr01.algoInfo, (List.replicate 32 0x22).length,
            List.replicate 32 0x22⟩))) :=
  (pcrReadIntoBank_spec sha256BankPcr01 fun _ => List.replicate 32 0x22).2.2.2.1 (by decide)

end PcrOracle
