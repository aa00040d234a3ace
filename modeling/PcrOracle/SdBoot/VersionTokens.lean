import Mathlib.Data.List.Lex
import Mathlib.Data.Prod.Lex
import Mathlib.Data.Sum.Order
import PcrOracle.SdBoot.VercmpTermination

/-!
# The tokens `vercmp` reads

A pass of `vercmp` that does not return reads from each string on its own: it skips the bytes
that are not valid, steps over the separators of `sep` the string is at, in the order `~-^.`,
and reads a run of digits, or else of letters. What it reads from one string is a token: for
each separator the flag `*a != s` the pass compares, then the value of the digits or the
letters. Tokens are ordered lexicographically, the flags first and letters before digits, which
is the order in which the pass compares them; Mathlib's orders on `Prod.Lex`, `Sum.Lex` and
lists give that order with its laws.

This file states what one pass does in terms of the tokens it reads (`PassAgrees`): when the
tokens of the two strings agree the pass goes on after them, and when they differ it returns a
value whose sign is their order. Two runs of digits are read by `natoi` through its buffer:
each `atoi` reads its run and then the digits the buffer holds past it. Those are the same
digits for both runs only when the runs have one length, so the pass compares the values of the
runs only then. It also needs at most nine digits in each read, which holds for runs of at most
nine digits in a buffer that holds no digit from byte 9 on (`LineDigitsShort`); the comparison of
the lengths of two letter runs is in `int` too, so it needs strings shorter than `2^31`.

## Main results

* `vercmpSeparatorLoop_agrees`: the separator loop compares the flags, in order.
* `vercmpRunCompare_digits`: two runs of digits of one length compare by value.
* `vercmpRunCompare_agrees`: the runs compare by value, letters before digits, and letter runs
  as byte strings, a proper prefix first.
* `vercmpStep_agrees`: a whole pass compares the tokens it reads.
* `versionPass_length_lt`: a pass over one string reads at least one byte of it.
-/

namespace PcrOracle

/-! ## Lexicographic comparison -/

section Compare

variable {α : Type} [LinearOrder α]

theorem compare_cons_cons (x y : α) (l m : List α) :
    compare (x :: l) (y :: m) = (compare x y).then (compare l m) := by
  rcases lt_trichotomy x y with h | rfl | h
  · rw [compare_lt_iff_lt.mpr h, compare_lt_iff_lt.mpr (List.Lex.rel h)]
    rfl
  · rw [compare_eq_iff_eq.mpr rfl]
    rcases lt_trichotomy l m with h | rfl | h
    · rw [compare_lt_iff_lt.mpr h, compare_lt_iff_lt.mpr (List.Lex.cons h)]
      rfl
    · rw [compare_eq_iff_eq.mpr rfl, compare_eq_iff_eq.mpr rfl]
      rfl
    · rw [compare_gt_iff_gt.mpr h, compare_gt_iff_gt.mpr (List.Lex.cons h)]
      rfl
  · rw [compare_gt_iff_gt.mpr h, compare_gt_iff_gt.mpr (List.Lex.rel h)]
    rfl

theorem compare_nil_cons (y : α) (m : List α) : compare [] (y :: m) = .lt :=
  compare_lt_iff_lt.mpr (List.nil_lt_cons y m)

theorem compare_cons_nil (x : α) (l : List α) : compare (x :: l) [] = .gt :=
  compare_gt_iff_gt.mpr (List.nil_lt_cons x l)

/-- A map that preserves and reflects `<` keeps `compare`. -/
theorem compare_map_of_lt_iff {β : Type} [LinearOrder β] {f : α → β}
    (hf : ∀ x y, f x < f y ↔ x < y) (x y : α) : compare (f x) (f y) = compare x y := by
  rcases lt_trichotomy x y with h | rfl | h
  · rw [compare_lt_iff_lt.mpr h, compare_lt_iff_lt.mpr ((hf x y).mpr h)]
  · rw [compare_eq_iff_eq.mpr rfl, compare_eq_iff_eq.mpr rfl]
  · rw [compare_gt_iff_gt.mpr h, compare_gt_iff_gt.mpr ((hf y x).mpr h)]

theorem compare_add_one (n m : Nat) : compare (n + 1) (m + 1) = compare n m :=
  compare_map_of_lt_iff (fun _ _ => Nat.succ_lt_succ_iff) n m

theorem Ordering.then_assoc (a b c : Ordering) : (a.then b).then c = a.then (b.then c) := by
  cases a <;> rfl

/-- Two lists compare as their first `min` elements, and then as their lengths. -/
theorem compare_eq_then_length : ∀ (l m : List α),
    compare l m = (compare (l.take (min l.length m.length)) (m.take (min l.length m.length))).then
      (compare l.length m.length)
  | [], [] => rfl
  | [], y :: m => by
    simp only [List.length_nil, List.length_cons, Nat.zero_min, List.take_zero, compare_nil_cons]
    rw [compare_eq_iff_eq.mpr rfl]
    exact (compare_lt_iff_lt.mpr (Nat.succ_pos _)).symm
  | x :: l, [] => by
    simp only [List.length_nil, List.length_cons, Nat.min_zero, List.take_zero, compare_cons_nil]
    rw [compare_eq_iff_eq.mpr rfl]
    exact (compare_gt_iff_gt.mpr (Nat.succ_pos _)).symm
  | x :: l, y :: m => by
    rw [List.length_cons, List.length_cons, Nat.succ_min_succ, List.take_succ_cons,
      List.take_succ_cons, compare_cons_cons, compare_cons_cons, compare_add_one,
      Ordering.then_assoc, ← compare_eq_then_length l m]

end Compare

/-- The sign of a difference that does not wrap. -/
theorem compare_cmp {x y : Int} (h₁ : -2 ^ 31 ≤ x - y) (h₂ : x - y < 2 ^ 31) :
    compare (cmp x y) 0 = compare x y := by
  rw [cmp, wrapInt32_eq_self h₁ h₂]
  rcases lt_trichotomy x y with h | rfl | h
  · rw [compare_lt_iff_lt.mpr h, compare_lt_iff_lt.mpr (by omega)]
  · rw [sub_self, compare_eq_iff_eq.mpr rfl, compare_eq_iff_eq.mpr rfl]
  · rw [compare_gt_iff_gt.mpr h, compare_gt_iff_gt.mpr (by omega)]


/-- `cmp` of the two flags a test sets: its sign is the order of the flags as `Bool`s. -/
theorem compare_cmp_flags (p q : Prop) [Decidable p] [Decidable q] :
    compare (cmp (if p then 1 else 0) (if q then 1 else 0)) 0 = compare (decide p) (decide q) ∧
      -2 ^ 31 < cmp (if p then 1 else 0) (if q then 1 else 0) ∧
      cmp (if p then 1 else 0) (if q then 1 else 0) < 2 ^ 31 := by
  by_cases hp : p <;> by_cases hq : q <;> simp only [hp, hq, if_true, if_false] <;> decide

/-! ## The tokens of a version -/

/-- A token of a version: what one pass of `vercmp` reads from one string. For each separator of
`sep`, in order, the flag `*a != s` the pass compares; then the run it reads, the letters
(`inl`, possibly none) or the value of the digits (`inr`). Tokens compare lexicographically,
the flags first and letters before digits, in the order the pass compares them. -/
abbrev VersionToken := List Bool ×ₗ (List Nat ⊕ₗ Nat)

/-- The separator loop of a pass over one string: for each `s` of `seps` the flag `*a != s`, and
the string moved past `s` when it is there. -/
def versionSeparators : List UInt8 → List UInt8 → List Bool × List UInt8
  | [], a => ([], a)
  | s :: seps, a =>
    let r := versionSeparators seps (if cur a = s then a.tail else a)
    (decide (cur a ≠ s) :: r.1, r.2)

/-- The value of a run of decimal digits, which `atoi` reads before it saturates. -/
def digitsValue (run : List UInt8) : Nat := run.foldl (fun v c => 10 * v + (c.toNat - 48)) 0

/-- The run a pass reads once past the separators: the value of the digits when the string is
at a digit, and otherwise the letters it is at, none when it is at neither. -/
def versionRun (a : List UInt8) : (List Nat ⊕ₗ Nat) × List UInt8 :=
  if isDigit (cur a) then (toLex (.inr (digitsValue (a.takeWhile isDigit))), a.dropWhile isDigit)
  else (toLex (.inl ((a.takeWhile isAlpha).map UInt8.toNat)), a.dropWhile isAlpha)

/-- One pass over one string at a byte that is not skipped: its token and what is left. -/
def versionPass (a : List UInt8) : VersionToken × List UInt8 :=
  let seps := versionSeparators vercmpSeparators a
  let run := versionRun seps.2
  (toLex (seps.1, run.1), run.2)

/-! ## One pass against the tokens -/

/-- A pass of `vercmp` against the tokens `x` and `y` it reads: when they agree it goes on from
`rest`, and when they differ it returns a value whose sign is their order and whose negation
is still an `int`. -/
def PassAgrees {β ρ : Type} [LinearOrder β] (x y : β) (rest : ρ) (step : Except Int ρ) : Prop :=
  (x = y → step = .ok rest) ∧
    (x ≠ y → ∃ r, step = .error r ∧ compare r 0 = compare x y ∧ -2 ^ 31 < r ∧ r < 2 ^ 31)

section PassAgrees

variable {β ρ : Type} [LinearOrder β]

theorem PassAgrees.of_error {x y : β} (hxy : x ≠ y) {r : Int}
    (hr : compare r 0 = compare x y) (hlow : -2 ^ 31 < r ∧ r < 2 ^ 31) (rest : ρ) :
    PassAgrees x y rest (.error r) :=
  ⟨fun h => absurd h hxy, fun _ => ⟨r, rfl, hr, hlow⟩⟩

/-- Tokens that start alike compare as what follows. -/
theorem PassAgrees.cons {l m : List β} {rest : ρ} {step}
    (h : PassAgrees l m rest step) (x : β) : PassAgrees (x :: l) (x :: m) rest step := by
  refine ⟨fun he => h.1 (List.cons.inj he).2, fun hne => ?_⟩
  obtain ⟨r, hr, hc, hlow⟩ := h.2 fun he => hne (he ▸ rfl)
  exact ⟨r, hr, by rw [compare_cons_cons, compare_eq_iff_eq.mpr rfl]; exact hc, hlow⟩

end PassAgrees

theorem Ordering.then_of_ne_eq {o : Ordering} (h : o ≠ .eq) (o' : Ordering) : o.then o' = o := by
  cases o <;> first | rfl | exact absurd rfl h

/-- The separator loop compares the flags of the two strings, in order. -/
theorem vercmpSeparatorLoop_agrees : ∀ (seps a b : List UInt8),
    PassAgrees (versionSeparators seps a).1 (versionSeparators seps b).1
      ((versionSeparators seps a).2, (versionSeparators seps b).2)
      (vercmpSeparatorLoop seps a b)
  | [], _, _ => ⟨fun _ => rfl, fun h => absurd rfl h⟩
  | s :: seps, a, b => by
    obtain ⟨hcmp, hlow⟩ := compare_cmp_flags (cur a ≠ s) (cur b ≠ s)
    show PassAgrees (decide (cur a ≠ s) :: _) (decide (cur b ≠ s) :: _) _ _
    by_cases hab : decide (cur a ≠ s) = decide (cur b ≠ s)
    · -- both strings at `s`, or neither: the loop goes on, past `s` or not
      have hiff : cur a = s ↔ cur b = s := by simpa using hab
      have hstep : vercmpSeparatorLoop (s :: seps) a b = vercmpSeparatorLoop seps
          (if cur a = s then a.tail else a) (if cur b = s then b.tail else b) := by
        by_cases ha : cur a = s
        · simp [vercmpSeparatorLoop, ha, hiff.mp ha]
        · simp [vercmpSeparatorLoop, ha, mt hiff.mpr ha]
      rw [hstep, hab]
      exact (vercmpSeparatorLoop_agrees seps _ _).cons _
    · -- one string at `s`: the loop returns the order of the flags
      have hs : (decide (cur a = s) || decide (cur b = s)) = true := by
        by_contra h
        simp only [Bool.or_eq_true, decide_eq_true_eq, not_or] at h
        exact hab (by simp [h.1, h.2])
      have hr : cmp (if cur a ≠ s then 1 else 0) (if cur b ≠ s then 1 else 0) ≠ 0 := fun h => by
        rw [h, compare_eq_iff_eq.mpr rfl] at hcmp
        exact hab (compare_eq_iff_eq.mp hcmp.symm)
      have hne : compare (decide (cur a ≠ s)) (decide (cur b ≠ s)) ≠ .eq :=
        fun h => hab (compare_eq_iff_eq.mp h)
      rw [show vercmpSeparatorLoop (s :: seps) a b = .error _ by
        simp only [vercmpSeparatorLoop, hs, if_true]
        exact if_pos hr]
      refine PassAgrees.of_error (fun h => hab (List.cons.inj h).1) ?_ hlow _
      rw [compare_cons_cons, Ordering.then_of_ne_eq hne, hcmp]


/-! ## The buffer of `natoi` -/

/-- A buffer of `natoi` whose digits all lie in its first nine bytes. `atoi` reads at most nine
digits from it, and `natoi` of a run of at most nine digits leaves such a buffer. -/
def LineDigitsShort (line : List UInt8) : Prop := ∀ c ∈ line.drop 9, isDigit c = false

instance (line : List UInt8) : Decidable (LineDigitsShort line) :=
  inferInstanceAs (Decidable (∀ c ∈ line.drop 9, _))

theorem length_takeWhile_le_of_drop {p : UInt8 → Bool} : ∀ {l : List UInt8} {k : Nat},
    (∀ c ∈ l.drop k, p c = false) → (l.takeWhile p).length ≤ k
  | [], _, _ => by simp
  | c :: l, 0, h => by simp [List.takeWhile_cons, h c (List.mem_cons_self _ _)]
  | c :: l, k + 1, h => by
    by_cases hc : p c
    · simpa [List.takeWhile_cons, hc] using
        length_takeWhile_le_of_drop (l := l) (k := k) (by simpa using h)
    · simp [List.takeWhile_cons, hc]

/-- Past its first `n` bytes, a buffer with short digits starts with at most `9 - n` digits. -/
theorem LineDigitsShort.length_takeWhile_drop {line : List UInt8} (h : LineDigitsShort line)
    {n : Nat} (hn : n ≤ 9) : ((line.drop n).takeWhile isDigit).length ≤ 9 - n :=
  length_takeWhile_le_of_drop fun c hc => h c (by rwa [List.drop_drop, Nat.add_sub_cancel' hn] at hc)

/-- `natoi` of at most nine bytes leaves a buffer with short digits. -/
theorem LineDigitsShort.natoi {line : List UInt8} (h : LineDigitsShort line) (a : List UInt8)
    {n : Nat} (hn : n ≤ 9) : LineDigitsShort (PcrOracle.natoi line a n).2 := fun c hc => by
  have hl := List.length_take_le n a
  simp only [PcrOracle.natoi, List.drop_append_eq_append_drop,
    List.drop_eq_nil_of_le (hl.trans hn), List.nil_append, List.drop_drop] at hc
  exact h c (List.drop_subset_drop_left line (by omega) hc)

/-! ## The runs -/

theorem drop_length_takeWhile (p : UInt8 → Bool) (l : List UInt8) :
    l.drop (l.takeWhile p).length = l.dropWhile p := by
  have h := congrArg (List.drop (l.takeWhile p).length) (List.takeWhile_append_dropWhile p l)
  rwa [List.drop_left, eq_comm] at h

theorem take_length_takeWhile (p : UInt8 → Bool) (l : List UInt8) :
    l.take (l.takeWhile p).length = l.takeWhile p :=
  (List.prefix_iff_eq_take.mp (List.takeWhile_prefix p)).symm

theorem foldl_digits_acc : ∀ (run : List UInt8) (acc : Nat),
    run.foldl (fun v c => 10 * v + (c.toNat - 48)) acc = acc * 10 ^ run.length + digitsValue run
  | [], acc => by simp [digitsValue]
  | c :: run, acc => by
    rw [digitsValue, List.foldl_cons, List.foldl_cons, foldl_digits_acc run,
      foldl_digits_acc run (10 * 0 + _), List.length_cons, pow_succ]
    ring

/-- `atoi` reads the digits of the run, then those that follow it. -/
theorem digitsValue_append (x y : List UInt8) :
    digitsValue (x ++ y) = digitsValue x * 10 ^ y.length + digitsValue y := by
  rw [digitsValue, List.foldl_append, foldl_digits_acc]
  rfl

/-- A run of at most nine digits is read at its value. -/
theorem atoiDigits_of_le {run : List UInt8} (hd : ∀ c ∈ run, isDigit c) (h : run.length ≤ 9) :
    atoiDigits run = digitsValue run ∧ digitsValue run < 10 ^ 9 := by
  have hlt := foldl_digits_lt run 0 hd
  have hpow : 10 ^ run.length ≤ 10 ^ 9 := Nat.pow_le_pow_right (by norm_num) h
  have hv : digitsValue run < 10 ^ 9 := by
    unfold digitsValue
    omega
  rw [atoiDigits, show run.foldl _ 0 = digitsValue run from rfl, min_eq_left (by omega),
    wrapInt32_eq_self (by omega) (by omega)]
  exact ⟨rfl, hv⟩

/-- `strncmp` of `n` bytes that are not the NUL is the order of the bytes, compared as
`unsigned char`. -/
theorem compare_strncmp : ∀ (a b : List UInt8) (n : Nat), 0 ∉ a.take n → 0 ∉ b.take n →
    compare (strncmp a b n) 0 = compare ((a.take n).map UInt8.toNat) ((b.take n).map UInt8.toNat)
  | _, _, 0, _, _ => rfl
  | [], [], _ + 1, _, _ => rfl
  | [], y :: b, n + 1, _, hb => by
    have hy : y ≠ 0 := fun h => hb (h ▸ List.mem_cons_self _ _)
    have : (0 : UInt8) < y := by
      rw [UInt8.lt_iff_toNat_lt]
      exact Nat.pos_of_ne_zero fun h => hy (UInt8.toNat.inj h)
    simp only [strncmp, cur_nil, cur_cons, Ne.symm hy, ne_eq, not_false_eq_true, if_true, this,
      List.take_nil, List.take_succ_cons, List.map_nil, List.map_cons, compare_nil_cons]
    decide
  | x :: a, [], n + 1, ha, _ => by
    have hx : x ≠ 0 := fun h => ha (h ▸ List.mem_cons_self _ _)
    have : ¬x < 0 := fun h => by simp [UInt8.lt_iff_toNat_lt] at h
    simp only [strncmp, cur_nil, cur_cons, hx, ne_eq, not_false_eq_true, if_true, this, if_false,
      List.take_nil, List.take_succ_cons, List.map_nil, List.map_cons, compare_cons_nil]
    decide
  | x :: a, y :: b, n + 1, ha, hb => by
    simp only [List.take_succ_cons, List.mem_cons, not_or] at ha hb
    simp only [strncmp, cur_cons, List.tail_cons, List.take_succ_cons, List.map_cons,
      compare_cons_cons]
    by_cases hxy : x = y
    · subst hxy
      rw [if_neg (not_not.mpr rfl), if_neg (Ne.symm ha.1), compare_eq_iff_eq.mpr rfl]
      exact compare_strncmp a b n ha.2 hb.2
    · have hne : x.toNat ≠ y.toNat := fun h => hxy (UInt8.toNat.inj h)
      rw [if_pos hxy, Ordering.then_of_ne_eq (fun h => hne (compare_eq_iff_eq.mp h))]
      by_cases hlt : x < y
      · rw [if_pos hlt, compare_lt_iff_lt.mpr ((UInt8.lt_iff_toNat_lt x y).mp hlt)]
        decide
      · rw [UInt8.lt_iff_toNat_lt] at hlt
        rw [if_neg (by rwa [UInt8.lt_iff_toNat_lt]), compare_gt_iff_gt.mpr (show y.toNat < x.toNat by omega)]
        decide



/-- The part of a pass after the separators, as `vercmpStep` has it: the runs of digits, or else
of letters, and the buffer and the strings moved past them. -/
def vercmpRunCompare (line a b : List UInt8) : Except Int (List UInt8 × List UInt8 × List UInt8) :=
  if isDigit (cur a) || isDigit (cur b) then
    let na := (a.takeWhile isDigit).length
    let nb := (b.takeWhile isDigit).length
    let r := cmp (if na ≠ 0 then 1 else 0) (if nb ≠ 0 then 1 else 0)
    if r ≠ 0 then .error r
    else
      let vb := natoi line b nb
      let va := natoi vb.2 a na
      let r := cmp va.1 vb.1
      if r ≠ 0 then .error r else .ok (va.2, a.drop na, b.drop nb)
  else
    let na := (a.takeWhile isAlpha).length
    let nb := (b.takeWhile isAlpha).length
    let r := cmp (strncmp a b (min na nb)) 0
    if r ≠ 0 then .error r
    else
      let r := cmp na nb
      if r ≠ 0 then .error r else .ok (line, a.drop na, b.drop nb)

/-- A pass: the end test, the separator loop, then the runs. -/
theorem vercmpStep_eq (line a b : List UInt8) :
    vercmpStep line a b =
      if cur (a.dropWhile skipped) = 0 || cur (b.dropWhile skipped) = 0 then
        .error (cmp (charVal (cur (a.dropWhile skipped))) (charVal (cur (b.dropWhile skipped))))
      else
        match vercmpSeparatorLoop vercmpSeparators (a.dropWhile skipped) (b.dropWhile skipped) with
        | .error r => .error r
        | .ok (a, b) => vercmpRunCompare line a b :=
  rfl

/-- The buffer of `natoi` after a pass reads the run at `a` against one of the same length: the
digits of the run over the start of `line`. A run of letters leaves `line` as it was. -/
def versionRunLine (line a : List UInt8) : List UInt8 :=
  if isDigit (cur a) then (natoi line a (a.takeWhile isDigit).length).2 else line

/-- A map that preserves and reflects `<` keeps the agreement of a pass. -/
theorem PassAgrees.map {β γ ρ : Type} [LinearOrder β] [LinearOrder γ] {f : β → γ}
    (hf : ∀ x y, f x < f y ↔ x < y) {x y : β} {rest : ρ} {step} (h : PassAgrees x y rest step) :
    PassAgrees (f x) (f y) rest step := by
  have hinj : f x = f y → x = y := fun he => by
    rw [← compare_eq_iff_eq, ← compare_map_of_lt_iff hf, compare_eq_iff_eq, he]
  refine ⟨fun he => h.1 (hinj he), fun hne => ?_⟩
  obtain ⟨r, hr, hc, hlow⟩ := h.2 fun he => hne (he ▸ rfl)
  exact ⟨r, hr, hc.trans (compare_map_of_lt_iff hf x y).symm, hlow⟩

theorem compare_natCast (n m : Nat) : compare (n : Int) m = compare n m :=
  compare_map_of_lt_iff (fun _ _ => Int.ofNat_lt) n m

/-- The values `atoi` reads from two buffers that hold runs of one length followed by the same
`d`, as `natoi` leaves them: compared as the runs. -/
theorem compare_digitsValue_append (x y d : List UInt8) :
    compare (digitsValue x * 10 ^ d.length + digitsValue d)
      (digitsValue y * 10 ^ d.length + digitsValue d) = compare (digitsValue x) (digitsValue y) :=
  compare_map_of_lt_iff (f := fun v => v * 10 ^ d.length + digitsValue d) (fun _ _ => by
    rw [Nat.add_lt_add_iff_right, Nat.mul_lt_mul_right (Nat.pos_pow_of_pos _ (by decide))]) _ _

/-- Two runs of digits of one length compare by value: `natoi` of `b` writes its run over the
start of the buffer, `natoi` of `a` writes over exactly those bytes, and both `atoi`s read on
over the same digits of the buffer. -/
theorem vercmpRunCompare_digits {line a b : List UInt8} (hline : LineDigitsShort line)
    (hda : isDigit (cur a)) (hn : (a.takeWhile isDigit).length = (b.takeWhile isDigit).length)
    (ha : (a.takeWhile isDigit).length ≤ 9) :
    PassAgrees (digitsValue (a.takeWhile isDigit)) (digitsValue (b.takeWhile isDigit))
      (versionRunLine line a, a.dropWhile isDigit, b.dropWhile isDigit)
      (vercmpRunCompare line a b) := by
  have hna := (length_takeWhile_pos_iff (p := isDigit) (by decide) (x := a)).mpr hda
  generalize hra : a.takeWhile isDigit = ra at hn ha hna
  generalize hrb : b.takeWhile isDigit = rb at hn
  have hdig : ∀ {x r : List UInt8}, x.takeWhile isDigit = r → ∀ c ∈ r, isDigit c :=
    fun h _ hc => List.mem_takeWhile_imp (h ▸ hc)
  -- the digits both `atoi`s read past the runs
  generalize hd : (line.drop ra.length).takeWhile isDigit = d
  have hdl : ra.length + d.length ≤ 9 := by
    have := hline.length_takeWhile_drop ha
    rw [hd] at this
    omega
  have hvb : natoi line b ra.length = (atoiDigits (rb ++ d), rb ++ line.drop ra.length) := by
    rw [hn, natoi_eq (by rw [← hrb, take_length_takeWhile]; exact hdig rfl), ← hrb,
      take_length_takeWhile, hrb, ← hn, hd]
  have hva : natoi (rb ++ line.drop ra.length) a ra.length =
      (atoiDigits (ra ++ d), (natoi line a ra.length).2) := by
    rw [natoi_eq (by rw [← hra, take_length_takeWhile]; exact hdig rfl), ← hra,
      take_length_takeWhile, hra, List.drop_left' hn.symm, hd]
    simp only [natoi, ← hra, take_length_takeWhile]
  obtain ⟨hva', hlta⟩ := atoiDigits_of_le (List.forall_mem_append.mpr ⟨hdig hra, hdig hd⟩)
    (by rw [List.length_append]; omega)
  obtain ⟨hvb', hltb⟩ := atoiDigits_of_le (List.forall_mem_append.mpr ⟨hdig hrb, hdig hd⟩)
    (by rw [List.length_append]; omega)
  rw [digitsValue_append] at hva' hlta
  rw [digitsValue_append] at hvb' hltb
  have hc := compare_cmp (x := ((digitsValue ra * 10 ^ d.length + digitsValue d : Nat) : Int))
    (y := ((digitsValue rb * 10 ^ d.length + digitsValue d : Nat) : Int)) (by omega) (by omega)
  rw [compare_natCast, compare_digitsValue_append] at hc
  have hline' : versionRunLine line a = (natoi line a ra.length).2 := by
    rw [versionRunLine, if_pos hda, hra]
  have hda' : a.drop ra.length = a.dropWhile isDigit := by rw [← hra, drop_length_takeWhile]
  have hdb' : b.drop ra.length = b.dropWhile isDigit := by rw [hn, ← hrb, drop_length_takeWhile]
  unfold vercmpRunCompare
  simp only [hda, Bool.true_or, if_true, hra, hrb, ← hn, ne_eq, Nat.pos_iff_ne_zero.mp hna,
    not_false_eq_true, cmp_self, not_true_eq_false, if_false, hvb, hva, hva', hvb',
    drop_length_takeWhile, hline']
  refine ⟨fun he => ?_, fun hne => ?_⟩
  · simp only [he, cmp_self, ne_eq, not_true_eq_false, if_false]
    rw [hda', hdb']
  have hr : cmp (digitsValue ra * 10 ^ d.length + digitsValue d : Nat)
      (digitsValue rb * 10 ^ d.length + digitsValue d : Nat) ≠ 0 :=
    fun h => hne (compare_eq_iff_eq.mp (hc.symm.trans (by rw [h]; rfl)))
  refine ⟨_, if_pos hr, hc, ?_⟩
  rw [cmp, wrapInt32_eq_self (by omega) (by omega)]
  omega

/-- A run of digits against none: the string with the digits is newer. -/
theorem vercmpRunCompare_digit_left {line a b : List UInt8} (hda : isDigit (cur a))
    (hdb : ¬isDigit (cur b)) : vercmpRunCompare line a b = .error 1 := by
  have hna := (length_takeWhile_pos_iff (p := isDigit) (by decide) (x := a)).mpr hda
  unfold vercmpRunCompare
  simp only [hda, Bool.true_or, if_true, ne_eq, Nat.pos_iff_ne_zero.mp hna, not_false_eq_true,
    takeWhile_eq_nil_of_not hdb, List.length_nil, not_true_eq_false, if_false]
  rfl

theorem vercmpRunCompare_digit_right {line a b : List UInt8} (hda : ¬isDigit (cur a))
    (hdb : isDigit (cur b)) : vercmpRunCompare line a b = .error (-1) := by
  have hnb := (length_takeWhile_pos_iff (p := isDigit) (by decide) (x := b)).mpr hdb
  unfold vercmpRunCompare
  simp only [hdb, Bool.or_true, if_true, ne_eq, Nat.pos_iff_ne_zero.mp hnb, not_false_eq_true,
    takeWhile_eq_nil_of_not hda, List.length_nil, not_true_eq_false, if_false]
  rfl

/-- Two runs of letters compare as `strncmp` of their common length, then by length: the order
of the runs, a proper prefix first. -/
theorem vercmpRunCompare_letters {line a b : List UInt8} (hda : ¬isDigit (cur a))
    (hdb : ¬isDigit (cur b)) (hla : a.length < 2 ^ 31) (hlb : b.length < 2 ^ 31) :
    PassAgrees ((a.takeWhile isAlpha).map UInt8.toNat) ((b.takeWhile isAlpha).map UInt8.toNat)
      (line, a.dropWhile isAlpha, b.dropWhile isAlpha) (vercmpRunCompare line a b) := by
  set A := (a.takeWhile isAlpha).map UInt8.toNat
  set B := (b.takeWhile isAlpha).map UInt8.toNat
  set m := min (a.takeWhile isAlpha).length (b.takeWhile isAlpha).length with hm
  have hta : a.take m = (a.takeWhile isAlpha).take m := by
    conv_lhs => rw [← List.takeWhile_append_dropWhile isAlpha a]
    exact List.take_append_of_le_length (min_le_left _ _)
  have htb : b.take m = (b.takeWhile isAlpha).take m := by
    conv_lhs => rw [← List.takeWhile_append_dropWhile isAlpha b]
    exact List.take_append_of_le_length (min_le_right _ _)
  have hnz : ∀ {x : List UInt8}, 0 ∉ (x.takeWhile isAlpha).take m := fun h =>
    absurd (List.mem_takeWhile_imp (List.mem_of_mem_take h)) (by decide)
  have hsb := strncmp_bounds a b m
  have hc1 : compare (cmp (strncmp a b m) 0) 0 = compare (A.take m) (B.take m) := by
    rw [compare_cmp (by omega) (by omega),
      compare_strncmp a b m (hta ▸ hnz) (htb ▸ hnz), hta, htb, List.map_take, List.map_take]
  have hc2 : compare (cmp (a.takeWhile isAlpha).length (b.takeWhile isAlpha).length) 0 =
      compare (a.takeWhile isAlpha).length (b.takeWhile isAlpha).length := by
    have := (List.takeWhile_prefix isAlpha (l := a)).length_le
    have := (List.takeWhile_prefix isAlpha (l := b)).length_le
    rw [compare_cmp (by omega) (by omega), compare_natCast]
  have hAB : compare A B = (compare (A.take m) (B.take m)).then
      (compare (a.takeWhile isAlpha).length (b.takeWhile isAlpha).length) := by
    rw [compare_eq_then_length A B, List.length_map, List.length_map]
  unfold vercmpRunCompare
  simp only [hda, hdb, Bool.or_false, if_false, ne_eq, drop_length_takeWhile, ← hm]
  by_cases h1 : cmp (strncmp a b m) 0 = 0
  · rw [if_neg (not_not.mpr h1)]
    rw [h1, compare_eq_iff_eq.mpr rfl] at hc1
    rw [← hc1] at hAB
    by_cases h2 : cmp (a.takeWhile isAlpha).length (b.takeWhile isAlpha).length = 0
    · rw [if_neg (not_not.mpr h2)]
      rw [h2, compare_eq_iff_eq.mpr rfl] at hc2
      rw [← hc2] at hAB
      exact ⟨fun _ => rfl, fun hne => absurd (compare_eq_iff_eq.mp hAB) hne⟩
    · rw [if_pos h2]
      refine PassAgrees.of_error (fun he => ?_) (hc2.trans hAB.symm) ?_ _
      · have hn : compare (a.takeWhile isAlpha).length (b.takeWhile isAlpha).length = .eq :=
          hAB.symm.trans (compare_eq_iff_eq.mpr he)
        exact h2 (by rw [compare_eq_iff_eq.mp hn, cmp_self])
      · have := (List.takeWhile_prefix isAlpha (l := a)).length_le
        have := (List.takeWhile_prefix isAlpha (l := b)).length_le
        rw [cmp, wrapInt32_eq_self (by omega) (by omega)]
        omega
  · rw [if_pos h1]
    have hne : compare (A.take m) (B.take m) ≠ .eq := fun h => h1 (compare_eq_iff_eq.mp (hc1.trans h))
    rw [Ordering.then_of_ne_eq hne] at hAB
    refine PassAgrees.of_error (fun he => hne (hAB.symm.trans (compare_eq_iff_eq.mpr he)))
      (hc1.trans hAB.symm) ?_ _
    rw [cmp, wrapInt32_eq_self (by omega) (by omega)]
    omega


/-- The runs a pass reads, compared as the pass compares them, when two runs of digits have one
length. -/
theorem vercmpRunCompare_agrees {line a b : List UInt8} (hline : LineDigitsShort line)
    (ha : (a.takeWhile isDigit).length ≤ 9) (hla : a.length < 2 ^ 31) (hlb : b.length < 2 ^ 31)
    (hn : isDigit (cur a) → isDigit (cur b) →
      (a.takeWhile isDigit).length = (b.takeWhile isDigit).length) :
    PassAgrees (versionRun a).1 (versionRun b).1
      (versionRunLine line a, (versionRun a).2, (versionRun b).2) (vercmpRunCompare line a b) := by
  unfold versionRun
  by_cases hda : isDigit (cur a) <;> by_cases hdb : isDigit (cur b)
  · simp only [hda, hdb, if_true]
    exact (vercmpRunCompare_digits hline hda (hn hda hdb) ha).map
      (f := fun v => toLex (Sum.inr v)) fun _ _ => Sum.Lex.inr_lt_inr_iff
  · simp only [hda, hdb, if_true, if_false, Bool.false_eq_true]
    rw [vercmpRunCompare_digit_left hda hdb]
    exact PassAgrees.of_error (by simp)
      ((show compare (1 : Int) 0 = .gt by decide).trans
        (compare_gt_iff_gt.mpr (Sum.Lex.inl_lt_inr _ _)).symm) (by decide) _
  · simp only [hda, hdb, if_true, if_false, Bool.false_eq_true]
    rw [vercmpRunCompare_digit_right hda hdb]
    exact PassAgrees.of_error (by simp)
      ((show compare (-1 : Int) 0 = .lt by decide).trans
        (compare_lt_iff_lt.mpr (Sum.Lex.inl_lt_inr _ _)).symm) (by decide) _
  · simp only [hda, hdb, if_false, Bool.false_eq_true, versionRunLine]
    exact (vercmpRunCompare_letters hda hdb hla hlb).map (f := fun l => toLex (Sum.inl l))
      fun _ _ => Sum.Lex.inl_lt_inl_iff

theorem versionSeparators_suffix : ∀ (seps a : List UInt8), (versionSeparators seps a).2 <:+ a
  | [], a => List.suffix_refl a
  | s :: seps, a => by
    refine (versionSeparators_suffix seps _).trans ?_
    split_ifs
    · exact List.tail_suffix a
    · exact List.suffix_refl a

theorem compare_toLex_prod {β γ : Type} [LinearOrder β] [LinearOrder γ] (x₁ x₂ : β) (y₁ y₂ : γ) :
    compare (toLex (x₁, y₁)) (toLex (x₂, y₂)) = (compare x₁ x₂).then (compare y₁ y₂) :=
  rfl

/-- The run of digits one pass reads from a string at a byte it does not skip, `0` when it
reads letters. -/
def versionPassDigits (a : List UInt8) : Nat :=
  ((versionSeparators vercmpSeparators a).2.takeWhile isDigit).length

/-- The buffer of `natoi` after a pass over `a` against a string with the same token. -/
def versionPassLine (line a : List UInt8) : List UInt8 :=
  versionRunLine line (versionSeparators vercmpSeparators a).2

/-- A whole pass: when both strings are at a byte it reads, and two runs of digits it reads have
one length, it returns the order of the tokens it reads from them, or goes on after them when
they agree. -/
theorem vercmpStep_agrees {line a b : List UInt8} (hline : LineDigitsShort line)
    (ha : ShortDigitRuns a) (hla : a.length < 2 ^ 31) (hlb : b.length < 2 ^ 31)
    (hA : cur (a.dropWhile skipped) ≠ 0) (hB : cur (b.dropWhile skipped) ≠ 0)
    (hal : versionPassDigits (a.dropWhile skipped) = 0 ∨ versionPassDigits (b.dropWhile skipped) = 0 ∨
      versionPassDigits (a.dropWhile skipped) = versionPassDigits (b.dropWhile skipped)) :
    PassAgrees (versionPass (a.dropWhile skipped)).1 (versionPass (b.dropWhile skipped)).1
      (versionPassLine line (a.dropWhile skipped), (versionPass (a.dropWhile skipped)).2,
        (versionPass (b.dropWhile skipped)).2)
      (vercmpStep line a b) := by
  rw [vercmpStep_eq, if_neg (by simp [hA, hB])]
  obtain ⟨hsep, hsepne⟩ := vercmpSeparatorLoop_agrees vercmpSeparators (a.dropWhile skipped)
    (b.dropWhile skipped)
  unfold versionPass versionPassLine
  unfold versionPassDigits at hal
  dsimp only
  generalize hsa : versionSeparators vercmpSeparators (a.dropWhile skipped) = sa at hsep hsepne hal
  generalize hsb : versionSeparators vercmpSeparators (b.dropWhile skipped) = sb at hsep hsepne hal
  obtain ⟨fa, a₁⟩ := sa
  obtain ⟨fb, b₁⟩ := sb
  by_cases hf : fa = fb
  · -- the flags agree: the runs decide
    subst hf
    rw [hsep rfl]
    have hsa₁ : a₁ <:+ a := by
      have := versionSeparators_suffix vercmpSeparators (a.dropWhile skipped)
      rw [hsa] at this
      exact this.trans (List.dropWhile_suffix skipped)
    have hsb₁ : b₁ <:+ b := by
      have := versionSeparators_suffix vercmpSeparators (b.dropWhile skipped)
      rw [hsb] at this
      exact this.trans (List.dropWhile_suffix skipped)
    have hn : isDigit (cur a₁) → isDigit (cur b₁) →
        (a₁.takeWhile isDigit).length = (b₁.takeWhile isDigit).length := fun hda hdb => by
      have := (length_takeWhile_pos_iff (p := isDigit) (by decide) (x := a₁)).mpr hda
      have := (length_takeWhile_pos_iff (p := isDigit) (by decide) (x := b₁)).mpr hdb
      dsimp only at hal
      omega
    exact (vercmpRunCompare_agrees hline (ha.suffix hsa₁).length_takeWhile
      (hsa₁.length_le.trans_lt hla) (hsb₁.length_le.trans_lt hlb) hn).map
      (f := fun r => toLex (fa, r)) fun _ _ => by simp [Prod.Lex.lt_iff]
  · -- a string at a separator the other is not at: the flags decide
    obtain ⟨r, hr, hc, hlow⟩ := hsepne hf
    rw [hr]
    have hne : (toLex (fa, (versionRun a₁).1) : VersionToken) ≠ toLex (fb, (versionRun b₁).1) :=
      fun he => hf (congrArg (fun p : VersionToken => (ofLex p).1) he)
    refine PassAgrees.of_error hne ?_ hlow _
    rw [compare_toLex_prod, Ordering.then_of_ne_eq (fun h => hf (compare_eq_iff_eq.mp h)), hc]


/-! ## A version against itself -/

theorem vercmpRunCompare_self (line a : List UInt8) :
    vercmpRunCompare line a a = .ok (versionRunLine line a, (versionRun a).2, (versionRun a).2) := by
  unfold vercmpRunCompare versionRun versionRunLine
  by_cases hd : isDigit (cur a)
  · simp only [hd, Bool.or_self, if_true, cmp_self, ne_eq, not_true_eq_false, if_false,
      natoi_natoi_run, drop_length_takeWhile]
  · simp only [hd, Bool.or_self, if_false, Bool.false_eq_true, strncmp_self, cmp_self, ne_eq,
      not_true_eq_false, drop_length_takeWhile]

/-- A pass over a string against itself goes on after the token it reads. -/
theorem vercmpStep_self (line : List UInt8) {a : List UInt8} (h : cur (a.dropWhile skipped) ≠ 0) :
    vercmpStep line a a = .ok (versionPassLine line (a.dropWhile skipped),
      (versionPass (a.dropWhile skipped)).2, (versionPass (a.dropWhile skipped)).2) := by
  rw [vercmpStep_eq, if_neg (by simp [h]),
    (vercmpSeparatorLoop_agrees vercmpSeparators (a.dropWhile skipped) _).1 rfl]
  dsimp only [versionPass, versionPassLine]
  exact vercmpRunCompare_self _ _

/-- Each pass over a string that is not at its end reads a byte of it. -/
theorem versionPass_length_lt {a : List UInt8} (h : cur (a.dropWhile skipped) ≠ 0) :
    (versionPass (a.dropWhile skipped)).2.length < a.length :=
  (vercmpStep_progress (vercmpStep_self [] h)).2.2.1

end PcrOracle
