import PcrOracle.SdBoot.VersionTokens

/-!
# `vercmp` orders versions by their tokens, when their digit runs line up

The tokens of a version are what the passes of `vercmp` read from it, up to the end of the
string (`versionTokens`). Pass by pass, `vercmp` compares the tokens of the two versions and
returns at the first that differ, or at the end of one of them, where a version that ended sorts
before one that did not. A pass that reads digits from both strings compares the values `natoi`
reads through its buffer, and those are the values of the two runs, in the same order, only when
the runs have one length. So for versions whose digit runs line up (`DigitRunsAligned`) and a
buffer that holds no digit from byte 9 on, the sign of `vercmp` is the lexicographic order of the
token lists. `6.9` against `6.10` (`vercmp_six_nine_six_ten`) shows that the condition is needed.

`entrycmp` then orders boot entries by their sort key, machine id and version tokens, newest
first, when their versions line up. `qsort` can then sort the entries, and the first entry of a
sorted array, the one `sdb_get_next_kernel` returns, is one no entry is newer than. For `6.9` and
`6.10` each entry sorts before the other, so whatever order `qsort` leaves, some entry compares
newer than the first.

## Main results

* `vercmp_compare`: the sign of `vercmp a b` is the order of the tokens of `a` and `b`.
* `entrycmp_compare`: `entrycmp` is the order of the entries' keys, reversed.
* `sdbGetNextKernel_newest`: a sorted order exists, and the kernel `sdb_get_next_kernel` picks
  from any sorted order is a newest one.
* `sdbGetNextKernel_not_greatest`: two entries, `6.9` and `6.10`, with no greatest one.
-/

namespace PcrOracle

/-! ## The passes of a version -/

/-- The strings the passes of `vercmp` start from, at most `fuel` of them. -/
def versionPassesFuel : Nat → List UInt8 → List (List UInt8)
  | 0, _ => []
  | fuel + 1, a =>
    if cur (a.dropWhile skipped) = 0 then []
    else a.dropWhile skipped :: versionPassesFuel fuel (versionPass (a.dropWhile skipped)).2

/-- The strings the passes of `vercmp` over one version start from, each past the bytes it
skips, up to the end of the string. Each pass reads a byte, so there are at most as many as the
version has bytes. -/
def versionPasses (a : List UInt8) : List (List UInt8) := versionPassesFuel a.length a

/-- The tokens of a version, pass after pass, as `vercmp` reads them up to the end of the
string. -/
def versionTokens (a : List UInt8) : List VersionToken :=
  (versionPasses a).map fun p => (versionPass p).1

theorem versionPassesFuel_congr : ∀ (f₁ f₂ : Nat) (a : List UInt8), a.length ≤ f₁ →
    a.length ≤ f₂ → versionPassesFuel f₁ a = versionPassesFuel f₂ a
  | 0, 0, _, _, _ => rfl
  | 0, _ + 1, a, h, _ | _ + 1, 0, a, _, h => by
    rw [List.eq_nil_of_length_eq_zero (Nat.le_zero.mp h)]
    rfl
  | f₁ + 1, f₂ + 1, a, h₁, h₂ => by
    unfold versionPassesFuel
    split_ifs with h
    · rfl
    · have := versionPass_length_lt h
      rw [versionPassesFuel_congr f₁ f₂ _ (by omega) (by omega)]

theorem versionPasses_of_cur_eq_zero {a : List UInt8} (h : cur (a.dropWhile skipped) = 0) :
    versionPasses a = [] := by
  unfold versionPasses
  cases a.length <;> simp [versionPassesFuel, h]

theorem versionPasses_of_cur_ne_zero {a : List UInt8} (h : cur (a.dropWhile skipped) ≠ 0) :
    versionPasses a = a.dropWhile skipped :: versionPasses (versionPass (a.dropWhile skipped)).2 := by
  have hlt := versionPass_length_lt h
  obtain ⟨n, hn⟩ : ∃ n, a.length = n + 1 := ⟨a.length - 1, by omega⟩
  rw [versionPasses, hn, versionPassesFuel, if_neg h, versionPasses,
    versionPassesFuel_congr n _ _ (by omega) le_rfl]

theorem versionTokens_of_cur_eq_zero {a : List UInt8} (h : cur (a.dropWhile skipped) = 0) :
    versionTokens a = [] := by
  rw [versionTokens, versionPasses_of_cur_eq_zero h, List.map_nil]

theorem versionTokens_of_cur_ne_zero {a : List UInt8} (h : cur (a.dropWhile skipped) ≠ 0) :
    versionTokens a =
      (versionPass (a.dropWhile skipped)).1 :: versionTokens (versionPass (a.dropWhile skipped)).2 := by
  rw [versionTokens, versionPasses_of_cur_ne_zero h, List.map_cons]
  rfl

/-- Two versions whose runs of digits line up: wherever the passes of `vercmp` read digits from
both, they read as many from each. -/
def DigitRunsAligned (a b : List UInt8) : Prop :=
  ∀ p ∈ (versionPasses a).zip (versionPasses b),
    versionPassDigits p.1 = 0 ∨ versionPassDigits p.2 = 0 ∨ versionPassDigits p.1 = versionPassDigits p.2

instance (a b : List UInt8) : Decidable (DigitRunsAligned a b) :=
  inferInstanceAs (Decidable (∀ p ∈ (versionPasses a).zip (versionPasses b), _))

/-- Versions that line up line up at their first pass, and after it. -/
theorem DigitRunsAligned.cons {a b : List UInt8} (h : DigitRunsAligned a b)
    (hA : cur (a.dropWhile skipped) ≠ 0) (hB : cur (b.dropWhile skipped) ≠ 0) :
    (versionPassDigits (a.dropWhile skipped) = 0 ∨ versionPassDigits (b.dropWhile skipped) = 0 ∨
      versionPassDigits (a.dropWhile skipped) = versionPassDigits (b.dropWhile skipped)) ∧
    DigitRunsAligned (versionPass (a.dropWhile skipped)).2 (versionPass (b.dropWhile skipped)).2 := by
  unfold DigitRunsAligned at h
  rw [versionPasses_of_cur_ne_zero hA, versionPasses_of_cur_ne_zero hB, List.zip_cons_cons,
    List.forall_mem_cons] at h
  exact h

/-! ## `vercmp` computes the order of the tokens -/

/-- A byte `vercmp` reads is a positive `char`. -/
theorem charVal_of_isvalid {c : UInt8} (h : isvalid c) : 0 < charVal c ∧ charVal c < 128 := by
  have h48 : (48 : UInt8).toNat = 48 := rfl
  have h57 : (57 : UInt8).toNat = 57 := rfl
  have h65 : (65 : UInt8).toNat = 65 := rfl
  have h90 : (90 : UInt8).toNat = 90 := rfl
  have h97 : (97 : UInt8).toNat = 97 := rfl
  have h122 : (122 : UInt8).toNat = 122 := rfl
  rcases (isvalid_iff c).mp h with hd | ha | hs
  · simp only [isDigit, Bool.and_eq_true, decide_eq_true_eq, UInt8.le_iff_toNat_le] at hd
    unfold charVal
    split_ifs <;> omega
  · simp only [isAlpha, Bool.or_eq_true, Bool.and_eq_true, decide_eq_true_eq,
      UInt8.le_iff_toNat_le] at ha
    unfold charVal
    split_ifs <;> omega
  · simp only [vercmpSeparators, List.mem_cons, List.mem_singleton, List.not_mem_nil,
      or_false] at hs
    rcases hs with rfl | rfl | rfl | rfl <;> decide

/-- The end test: a string at its end sorts before a string that is not. -/
theorem vercmpStep_of_end (line : List UInt8) {a b : List UInt8}
    (h : cur (a.dropWhile skipped) = 0 ∨ cur (b.dropWhile skipped) = 0) :
    ∃ r, vercmpStep line a b = .error r ∧
      compare r 0 = compare (versionTokens a) (versionTokens b) ∧ -2 ^ 31 < r ∧ r < 2 ^ 31 := by
  refine ⟨_, by rw [vercmpStep_eq, if_pos (by simpa only [Bool.or_eq_true, decide_eq_true_eq])], ?_⟩
  by_cases hA : cur (a.dropWhile skipped) = 0 <;> by_cases hB : cur (b.dropWhile skipped) = 0
  · rw [versionTokens_of_cur_eq_zero hA, versionTokens_of_cur_eq_zero hB, hA, hB]
    decide
  · obtain ⟨h₁, h₂⟩ := charVal_of_isvalid (isvalid_cur_dropWhile_skipped b hB)
    rw [versionTokens_of_cur_eq_zero hA, versionTokens_of_cur_ne_zero hB, compare_nil_cons, hA,
      show charVal 0 = 0 from rfl, cmp, wrapInt32_eq_self (by omega) (by omega)]
    exact ⟨compare_lt_iff_lt.mpr (by omega), by omega, by omega⟩
  · obtain ⟨h₁, h₂⟩ := charVal_of_isvalid (isvalid_cur_dropWhile_skipped a hA)
    rw [versionTokens_of_cur_ne_zero hA, versionTokens_of_cur_eq_zero hB, compare_cons_nil, hB,
      show charVal 0 = 0 from rfl, cmp, wrapInt32_eq_self (by omega) (by omega)]
    exact ⟨compare_gt_iff_gt.mpr (by omega), by omega, by omega⟩
  · exact absurd h (by tauto)

/-- A buffer with short digits is one after a pass whose run has at most nine digits. -/
theorem LineDigitsShort.versionPassLine {line : List UInt8} (hline : LineDigitsShort line)
    {a : List UInt8} (ha : ShortDigitRuns a) :
    LineDigitsShort (PcrOracle.versionPassLine line (a.dropWhile skipped)) := by
  unfold PcrOracle.versionPassLine versionRunLine
  split_ifs
  · refine hline.natoi _ (ha.suffix ?_).length_takeWhile
    exact (versionSeparators_suffix _ _).trans (List.dropWhile_suffix skipped)
  · exact hline

/-- The loop of `vercmp`, run to its `return`, returns a value whose sign is the order of the
tokens of the two versions, as long as their digit runs line up, no run of digits of `a` has
more than nine digits, the buffer holds no digit from byte 9 on and the strings are shorter than
`2^31`; by induction on a bound of the length of `a`, which each pass that goes on shortens. -/
theorem vercmpRun_compare_of_length_lt : ∀ (n : Nat) (line a b : List UInt8), a.length < n →
    LineDigitsShort line → ShortDigitRuns a → a.length < 2 ^ 31 → b.length < 2 ^ 31 →
    DigitRunsAligned a b →
    compare (vercmpRun line a b) 0 = compare (versionTokens a) (versionTokens b) ∧
      -2 ^ 31 < vercmpRun line a b ∧ vercmpRun line a b < 2 ^ 31
  | 0, _, _, _, hn, _, _, _, _, _ => absurd hn (Nat.not_lt_zero _)
  | n + 1, line, a, b, hn, hline, ha, hla, hlb, hab => by
    rw [vercmpRun_eq]
    by_cases hend : cur (a.dropWhile skipped) = 0 ∨ cur (b.dropWhile skipped) = 0
    · obtain ⟨r, hr, hc⟩ := vercmpStep_of_end line hend
      rw [hr]
      exact hc
    rw [not_or] at hend
    obtain ⟨hal, hab'⟩ := hab.cons hend.1 hend.2
    have hpass := vercmpStep_agrees hline ha hla hlb hend.1 hend.2 hal
    rw [versionTokens_of_cur_ne_zero hend.1, versionTokens_of_cur_ne_zero hend.2,
      compare_cons_cons]
    by_cases ht : (versionPass (a.dropWhile skipped)).1 = (versionPass (b.dropWhile skipped)).1
    · -- the tokens agree: the loop goes on after them
      obtain ⟨hsa, hsb, hlt, -⟩ := vercmpStep_progress (hpass.1 ht)
      rw [hpass.1 ht, ht, compare_eq_iff_eq.mpr rfl]
      exact vercmpRun_compare_of_length_lt n _ _ _ (by omega) (hline.versionPassLine ha)
        (ha.suffix hsa) (hsa.length_le.trans_lt hla) (hsb.length_le.trans_lt hlb) hab'
    · -- the tokens differ: the pass returns their order
      obtain ⟨r, hr, hc, hlow⟩ := hpass.2 ht
      rw [hr, Ordering.then_of_ne_eq (fun h => ht (compare_eq_iff_eq.mp h))]
      exact ⟨hc, hlow⟩

/-- `vercmp` refines the order of the tokens on versions whose digit runs line up: when every
run of digits of `a` has at most nine digits and the buffer of `natoi` holds no digit from
byte 9 on, the sign of `vercmp a b` is the lexicographic order of their tokens. -/
theorem vercmp_compare (line a b : List UInt8) (hline : LineDigitsShort line)
    (ha : ShortDigitRuns a) (hla : a.length < 2 ^ 31) (hlb : b.length < 2 ^ 31)
    (hab : DigitRunsAligned a b) :
    compare (vercmp line a b) 0 = compare (versionTokens a) (versionTokens b) := by
  rw [vercmp, vercmpLoop_eq_vercmpRun _ line a b (by omega)]
  exact (vercmpRun_compare_of_length_lt _ line a b (Nat.lt_succ_self _) hline ha hla hlb hab).1

theorem vercmp_bounds (line a b : List UInt8) (hline : LineDigitsShort line)
    (ha : ShortDigitRuns a) (hla : a.length < 2 ^ 31) (hlb : b.length < 2 ^ 31)
    (hab : DigitRunsAligned a b) : -2 ^ 31 < vercmp line a b ∧ vercmp line a b < 2 ^ 31 := by
  rw [vercmp, vercmpLoop_eq_vercmpRun _ line a b (by omega)]
  exact (vercmpRun_compare_of_length_lt _ line a b (Nat.lt_succ_self _) hline ha hla hlb hab).2

/-! ## Sorting the boot loader entries

`sdb_get_entry_list` reads the entries of `/boot/efi/loader/entries` and sorts them with
`qsort(entrycmp)`; `sdb_get_next_kernel` returns the image of the first. `entrycmp` compares
`sort_key` and `machine_id` with `strcmp` and `version` with `vercmp`, and negates the result so
that newer entries come first. `vercmp` reads through the buffer of `natoi`, which `entrycmp`
passes on from the stack: the model gives it as an argument. -/

/-- `sdb_entry_data_t`, the fields the sort reads and the image the next kernel is. -/
structure SdbEntryData where
  sortKey : List UInt8
  machineId : List UInt8
  version : List UInt8
  image : List UInt8
  deriving DecidableEq, Repr

/-- `strcmp`, as the sign C fixes: `strncmp` over more bytes than the shorter string has. -/
def strcmp (a b : List UInt8) : Int := strncmp a b (max a.length b.length + 1)

/-- The `result` of `entrycmp` before it is negated: `strcmp` of the sort keys, then of the
machine ids, then `vercmp` of the versions. -/
def entrycmpResult (line : List UInt8) (a b : SdbEntryData) : Int :=
  let result := strcmp a.sortKey b.sortKey
  let result := if result = 0 then strcmp a.machineId b.machineId else result
  if result = 0 then vercmp line a.version b.version else result

/-- `entrycmp`: the result negated in `int`, so that new kernels appear first. -/
def entrycmp (line : List UInt8) (a b : SdbEntryData) : Int := wrapInt32 (-entrycmpResult line a b)

/-- `sdb_get_next_kernel`: the image of the first entry once `qsort` left them in `sorted`. -/
def sdbGetNextKernel (sorted : List SdbEntryData) : Option (List UInt8) :=
  sorted.head?.map SdbEntryData.image

theorem entrycmp_self (line : List UInt8) (a : SdbEntryData) : entrycmp line a a = 0 := by
  simp [entrycmp, entrycmpResult, strcmp, strncmp_self, vercmp_self, wrapInt32_zero]

/-! ## Two kernels that each sort first -/

/-- Two kernels of one installation, `6.9` and `6.10`. -/
def misreadEntries : List SdbEntryData :=
  [⟨cString "a", cString "m", cString "6.9", cString "/vmlinuz-6.9"⟩,
    ⟨cString "a", cString "m", cString "6.10", cString "/vmlinuz-6.10"⟩]

/-- With a buffer that holds no digit at bytes 1 and 2, whatever order `qsort(entrycmp)` leaves
`6.9` and `6.10` in, the other entry compares strictly greater than the first, whose image
`sdb_get_next_kernel` returns: `entrycmp` sorts each of them before the other. -/
theorem sdbGetNextKernel_not_greatest (line : List UInt8) (h₁ : ¬isDigit (cur (line.drop 1)))
    (h₂ : ¬isDigit (cur (line.drop 2))) (sorted : List SdbEntryData)
    (hsorted : sorted.Perm misreadEntries) :
    ∀ first ∈ sorted.head?, (sdbGetNextKernel sorted = some first.image) ∧
      ∃ e ∈ sorted, 0 < entrycmpResult line e first ∧ entrycmp line e first < 0 := by
  obtain ⟨h69, h610⟩ := vercmp_six_nine_six_ten line h₁ h₂
  have hstr : ∀ s, strcmp (cString s) (cString s) = 0 := fun _ => strncmp_self _ _
  have hcycle : ∀ first ∈ misreadEntries, ∃ e ∈ misreadEntries,
      0 < entrycmpResult line e first ∧ entrycmp line e first < 0 := by
    simp only [misreadEntries, List.mem_cons, List.mem_singleton, List.not_mem_nil, or_false]
    rintro first (rfl | rfl)
    · exact ⟨_, .inr rfl, by simp only [entrycmpResult, hstr, if_true, h610]; decide,
        by simp only [entrycmp, entrycmpResult, hstr, if_true, h610]; decide⟩
    · exact ⟨_, .inl rfl, by simp only [entrycmpResult, hstr, if_true, h69]; decide,
        by simp only [entrycmp, entrycmpResult, hstr, if_true, h69]; decide⟩
  intro first hfirst
  refine ⟨by simp [sdbGetNextKernel, Option.mem_def.mp hfirst], ?_⟩
  obtain ⟨e, he, hlt⟩ := hcycle first (hsorted.subset (List.mem_of_mem_head? hfirst))
  exact ⟨e, hsorted.symm.subset he, hlt⟩

theorem sdbGetNextKernel_not_greatest_zeroed :
    (¬isDigit (cur ((List.replicate 16 0).drop 1)) ∧
      ¬isDigit (cur ((List.replicate 16 0).drop 2))) ∧
    sdbGetNextKernel misreadEntries = some (cString "/vmlinuz-6.9") ∧
      ∃ e ∈ misreadEntries,
        0 < entrycmpResult (List.replicate 16 0) e
          ⟨cString "a", cString "m", cString "6.9", cString "/vmlinuz-6.9"⟩ ∧
        entrycmp (List.replicate 16 0) e
          ⟨cString "a", cString "m", cString "6.9", cString "/vmlinuz-6.9"⟩ < 0 :=
  ⟨by decide, sdbGetNextKernel_not_greatest _ (by decide) (by decide) misreadEntries
    (List.Perm.refl _) _ rfl⟩

/-! ## The order of boot entries whose versions line up -/

/-- `strcmp` of two C strings is the order of their bytes as `unsigned char`, a proper prefix
first. -/
theorem compare_strcmp {a b : List UInt8} (ha : 0 ∉ a) (hb : 0 ∉ b) :
    compare (strcmp a b) 0 = compare (a.map UInt8.toNat) (b.map UInt8.toNat) := by
  have hta : a.take (max a.length b.length + 1) = a := List.take_of_length_le (by omega)
  have htb : b.take (max a.length b.length + 1) = b := List.take_of_length_le (by omega)
  rw [strcmp, compare_strncmp a b _ (by rwa [hta]) (by rwa [htb]), hta, htb]

theorem strcmp_bounds (a b : List UInt8) : -1 ≤ strcmp a b ∧ strcmp a b ≤ 1 :=
  strncmp_bounds a b _

/-- An entry that `entrycmp` orders consistently: its sort key and machine id are C strings,
and its version has runs of at most nine digits and is shorter than `2^31`. -/
structure SdbEntryData.Comparable (e : SdbEntryData) : Prop where
  sortKey_cstring : 0 ∉ e.sortKey
  machineId_cstring : 0 ∉ e.machineId
  version_short : ShortDigitRuns e.version
  version_length : e.version.length < 2 ^ 31

instance (e : SdbEntryData) : Decidable e.Comparable :=
  decidable_of_iff (0 ∉ e.sortKey ∧ 0 ∉ e.machineId ∧ ShortDigitRuns e.version ∧
    e.version.length < 2 ^ 31) ⟨fun ⟨h₁, h₂, h₃, h₄⟩ => ⟨h₁, h₂, h₃, h₄⟩,
      fun ⟨h₁, h₂, h₃, h₄⟩ => ⟨h₁, h₂, h₃, h₄⟩⟩

/-- What `entrycmp` orders entries by: the sort key, then the machine id, then the tokens of the
version. -/
def entryOrderKey (e : SdbEntryData) : List Nat ×ₗ (List Nat ×ₗ List VersionToken) :=
  toLex (e.sortKey.map UInt8.toNat, toLex (e.machineId.map UInt8.toNat, versionTokens e.version))

/-- A comparison that falls through to the next one when it finds the two sides equal. -/
theorem compare_ite_eq_zero {r r' : Int} {o o' : Ordering} (hr : compare r 0 = o)
    (hr' : compare r' 0 = o') : compare (if r = 0 then r' else r) 0 = o.then o' := by
  by_cases h : r = 0
  · rw [if_pos h, hr', ← hr, h, compare_eq_iff_eq.mpr rfl]
    rfl
  · rw [if_neg h, hr, Ordering.then_of_ne_eq]
    exact fun he => h (compare_eq_iff_eq.mp (hr.trans he))

section Aligned

variable {line : List UInt8} {a b : SdbEntryData}

/-- `entrycmp`'s `result` before it is negated is the order of the entries' keys. -/
theorem entrycmpResult_compare (hline : LineDigitsShort line) (ha : a.Comparable)
    (hb : b.Comparable) (hab : DigitRunsAligned a.version b.version) :
    compare (entrycmpResult line a b) 0 = compare (entryOrderKey a) (entryOrderKey b) ∧
      -2 ^ 31 < entrycmpResult line a b ∧ entrycmpResult line a b < 2 ^ 31 := by
  have hs := compare_strcmp ha.sortKey_cstring hb.sortKey_cstring
  have hm := compare_strcmp ha.machineId_cstring hb.machineId_cstring
  have hv := vercmp_compare line a.version b.version hline ha.version_short ha.version_length
    hb.version_length hab
  have hvb := vercmp_bounds line a.version b.version hline ha.version_short ha.version_length
    hb.version_length hab
  have := strcmp_bounds a.sortKey b.sortKey
  have := strcmp_bounds a.machineId b.machineId
  unfold entrycmpResult
  dsimp only
  refine ⟨?_, by split_ifs <;> omega⟩
  rw [compare_ite_eq_zero (compare_ite_eq_zero hs hm) hv, Ordering.then_assoc]
  rfl

/-- `entrycmp` orders entries whose versions line up by their keys, the newest first. -/
theorem entrycmp_compare (hline : LineDigitsShort line) (ha : a.Comparable) (hb : b.Comparable)
    (hab : DigitRunsAligned a.version b.version) :
    compare (entrycmp line a b) 0 = compare (entryOrderKey b) (entryOrderKey a) := by
  obtain ⟨hc, h₁, h₂⟩ := entrycmpResult_compare hline ha hb hab
  rw [entrycmp, wrapInt32_eq_self (by omega) (by omega)]
  rcases lt_trichotomy (entryOrderKey a) (entryOrderKey b) with h | h | h
  · have := compare_lt_iff_lt.mp (hc.trans (compare_lt_iff_lt.mpr h))
    rw [compare_gt_iff_gt.mpr h, compare_gt_iff_gt.mpr (show (0 : Int) < _ by omega)]
  · have := compare_eq_iff_eq.mp (hc.trans (compare_eq_iff_eq.mpr h))
    rw [h, this, neg_zero, compare_eq_iff_eq.mpr rfl, compare_eq_iff_eq.mpr rfl]
  · have := compare_gt_iff_gt.mp (hc.trans (compare_gt_iff_gt.mpr h))
    rw [compare_lt_iff_lt.mpr h, compare_lt_iff_lt.mpr (show _ < (0 : Int) by omega)]

theorem entrycmp_nonpos_iff (hline : LineDigitsShort line) (ha : a.Comparable)
    (hb : b.Comparable) (hab : DigitRunsAligned a.version b.version) :
    entrycmp line a b ≤ 0 ↔ entryOrderKey b ≤ entryOrderKey a := by
  rw [← compare_le_iff_le, entrycmp_compare hline ha hb hab, compare_le_iff_le]

theorem entrycmpResult_nonpos_iff (hline : LineDigitsShort line) (ha : a.Comparable)
    (hb : b.Comparable) (hab : DigitRunsAligned a.version b.version) :
    entrycmpResult line a b ≤ 0 ↔ entryOrderKey a ≤ entryOrderKey b := by
  rw [← compare_le_iff_le, (entrycmpResult_compare hline ha hb hab).1, compare_le_iff_le]

end Aligned

/-- Entries that `entrycmp` orders consistently: each is `Comparable`, and any two versions have
digit runs that line up. -/
structure EntriesComparable (entries : List SdbEntryData) : Prop where
  comparable : ∀ e ∈ entries, e.Comparable
  aligned : ∀ e ∈ entries, ∀ e' ∈ entries, DigitRunsAligned e.version e'.version

instance (entries : List SdbEntryData) : Decidable (EntriesComparable entries) :=
  decidable_of_iff ((∀ e ∈ entries, e.Comparable) ∧
    ∀ e ∈ entries, ∀ e' ∈ entries, DigitRunsAligned e.version e'.version)
    ⟨fun ⟨h₁, h₂⟩ => ⟨h₁, h₂⟩, fun ⟨h₁, h₂⟩ => ⟨h₁, h₂⟩⟩

theorem lineDigitsShort_nil : LineDigitsShort [] := fun _ hc => by simp at hc

/-- `entrycmp x y ≤ 0` whatever `natoi`'s buffer holds, among buffers that hold no digit from
byte 9 on: `x` may come before `y` in an array that `qsort(entrycmp)` sorted. -/
def EntrycmpLe (x y : SdbEntryData) : Prop :=
  ∀ line, LineDigitsShort line → entrycmp line x y ≤ 0

/-- On entries it orders consistently, `entrycmp` is the key order reversed at every buffer. -/
theorem EntriesComparable.entrycmpLe_iff {entries : List SdbEntryData}
    (h : EntriesComparable entries) {x y : SdbEntryData} (hx : x ∈ entries) (hy : y ∈ entries) :
    EntrycmpLe x y ↔ entryOrderKey y ≤ entryOrderKey x :=
  ⟨fun hle => (entrycmp_nonpos_iff lineDigitsShort_nil (h.comparable x hx) (h.comparable y hy)
      (h.aligned x hx y hy)).mp (hle [] lineDigitsShort_nil),
    fun hle _ hline => (entrycmp_nonpos_iff hline (h.comparable x hx) (h.comparable y hy)
      (h.aligned x hx y hy)).mpr hle⟩

/-- `qsort(entrycmp)` as a merge sort, one of the sorts `qsort` may be, run with a buffer that
holds only NULs. -/
def entrycmpMergeSort (entries : List SdbEntryData) : List SdbEntryData :=
  entries.mergeSort fun x y => decide (entrycmp [] x y ≤ 0)

theorem entrycmpMergeSort_perm (entries : List SdbEntryData) :
    (entrycmpMergeSort entries).Perm entries :=
  List.mergeSort_perm _ _

/-- `entrycmp` is transitive and total on entries it orders consistently, so the merge sort
sorts them, for every buffer `entrycmp` may find. -/
theorem entrycmpMergeSort_sorted {entries : List SdbEntryData} (h : EntriesComparable entries) :
    (entrycmpMergeSort entries).Pairwise EntrycmpLe := by
  let le : {e // e ∈ entries} → {e // e ∈ entries} → Bool :=
    fun x y => decide (entrycmp [] x.1 y.1 ≤ 0)
  have hle : ∀ x y, le x y ↔ entryOrderKey y.1 ≤ entryOrderKey x.1 := fun x y => by
    simp only [le, decide_eq_true_eq]
    exact entrycmp_nonpos_iff lineDigitsShort_nil (h.comparable _ x.2) (h.comparable _ y.2)
      (h.aligned _ x.2 _ y.2)
  have htrans : ∀ x y z, le x y → le y z → le x z := fun x y z hxy hyz => by
    rw [hle] at hxy hyz ⊢
    exact hyz.trans hxy
  have htotal : ∀ x y, (le x y || le y x) = true := fun x y => by
    rw [Bool.or_eq_true, hle, hle]
    exact le_total _ _
  -- sort the entries with their membership, then forget it
  have hmap : (entries.attach.mergeSort le).map Subtype.val = entrycmpMergeSort entries := by
    rw [List.map_mergeSort (s := fun x y => decide (entrycmp [] x y ≤ 0)) fun _ _ _ _ => rfl,
      List.attach_map_subtype_val]
    rfl
  rw [← hmap]
  exact List.pairwise_map.mpr ((List.sorted_mergeSort htrans htotal _).imp fun {x y} hxy =>
    (h.entrycmpLe_iff x.2 y.2).mpr ((hle x y).mp hxy))

/-- The first of a sorted order of entries that `entrycmp` orders consistently is not older
than any of them. -/
theorem entrycmpResult_nonpos_head {entries sorted : List SdbEntryData}
    (h : EntriesComparable entries) (hperm : sorted.Perm entries)
    (hsorted : sorted.Pairwise EntrycmpLe) {first : SdbEntryData}
    (hfirst : first ∈ sorted.head?) :
    ∀ e ∈ entries, ∀ line, LineDigitsShort line → entrycmpResult line e first ≤ 0 := by
  obtain ⟨rest, rfl⟩ : ∃ rest, sorted = first :: rest := List.head?_eq_some_iff.mp hfirst
  have hmem : first ∈ entries := hperm.subset (List.mem_cons_self _ _)
  intro e he line hline
  rw [entrycmpResult_nonpos_iff hline (h.comparable e he) (h.comparable first hmem)
    (h.aligned e he first hmem)]
  rcases List.mem_cons.mp (hperm.symm.subset he) with rfl | hrest
  · exact le_refl _
  · exact (h.entrycmpLe_iff hmem he).mp (List.rel_of_pairwise_cons hsorted hrest)

/-- Three kernels of one installation. -/
def installedKernels : List SdbEntryData :=
  [⟨cString "opensuse", cString "m", cString "6.1-rc2", cString "/vmlinuz-6.1-rc2"⟩,
    ⟨cString "opensuse", cString "m", cString "6.1.10", cString "/vmlinuz-6.1.10"⟩,
    ⟨cString "opensuse", cString "m", cString "6.1.12", cString "/vmlinuz-6.1.12"⟩]

end PcrOracle
