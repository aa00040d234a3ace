import Mathlib.Data.List.Infix
import Mathlib.Tactic.Ring
import PcrOracle.SdBoot.Vercmp

/-!
# What `vercmp` gets right, and where the buffer of `natoi` breaks it

A version `v` and its pre-release `v~s` are read alike up to the end of `v`, where `vercmp`
returns `'~' - '\0'`: the pre-release always compares newer, whatever `natoi`'s buffer holds,
since two runs read alike write the same bytes to it and read the same value back.

Two runs of different lengths are not read alike. `natoi` of the shorter run reads on over the
digits the longer one left in the buffer, so `6.9` against `6.10` compares `90` with `10`, and
`6.10` against `6.9` compares `10` with `9`: each compares newer than the other. The same reading
on puts `1.0` before `10.1`, `10.1` before `11`, and `11` before `1.0`.

## Main results

* `vercmpLoop_append_common`: a common prefix is read alike in both strings, one pass per byte
  at most, up to its end or a `~`.
* `vercmp_tilde_suffix`, `vercmp_tilde_newer`: every version `v~s` compares newer than `v`, by
  `'~' - '\0'`.
* `vercmp_six_nine_six_ten`, `vercmp_inconsistent`: with a buffer that holds no digit at bytes 1
  and 2, `vercmp` gives the same sign both ways round, and is not transitive, on versions of one-
  and two-digit runs.
-/

namespace PcrOracle

/-! ## A version and its pre-release

`v` and `v ++ "~" ++ s` are read alike as long as `v` lasts: every run `vercmp` reads ends at
the end of `v`, since neither the NUL nor `~` is a digit or a letter, and `~` is the first
separator checked. Each pass reads at least one byte of `v`, so the loop reaches the end of `v`
with fuel left, and there the end test returns `'~' - '\0'` before the separators are looked
at. -/

/-- A string at its end or at a `~`: what follows the common prefix of `v` and `v~s`. -/
def AtBoundary (x : List UInt8) : Prop := cur x = 0 ∨ cur x = '~'.toUInt8

theorem dropWhile_skipped_idem (l : List UInt8) :
    (l.dropWhile skipped).dropWhile skipped = l.dropWhile skipped := by
  cases h : l.dropWhile skipped with
  | nil => rfl
  | cons c t =>
    have hc := List.head_dropWhile_not skipped l (by simp [h])
    simp only [h, List.head_cons] at hc
    exact List.dropWhile_cons_of_neg (by simp [hc])

/-- A pass starts by skipping the bytes that are neither alphanumeric nor separators. -/
theorem vercmpLoop_dropWhile (fuel : Nat) (line a b : List UInt8) :
    vercmpLoop (fuel + 1) line a b =
      vercmpLoop (fuel + 1) line (a.dropWhile skipped) (b.dropWhile skipped) := by
  simp only [vercmpLoop, dropWhile_skipped_idem]

theorem isvalid_iff (c : UInt8) : isvalid c ↔ isDigit c ∨ isAlpha c ∨ c ∈ vercmpSeparators := by
  simp [isvalid, vercmpSeparators, or_assoc]

section CommonPrefix

variable {x y : List UInt8}

theorem AtBoundary.dropWhile_skipped (hx : AtBoundary x) : x.dropWhile skipped = x := by
  cases x with
  | nil => rfl
  | cons c x =>
    apply List.dropWhile_cons_of_neg
    rcases hx with rfl | rfl <;> decide

theorem AtBoundary.dropWhile_skipped_append (hx : AtBoundary x) (w : List UInt8) :
    (w ++ x).dropWhile skipped = w.dropWhile skipped ++ x := by
  induction w with
  | nil => exact hx.dropWhile_skipped
  | cons c w ih =>
    by_cases hc : skipped c
    · simp [List.dropWhile_cons_of_pos hc, ih]
    · simp [List.dropWhile_cons_of_neg hc]

/-- No run of digits or letters goes on past the common prefix. -/
theorem AtBoundary.takeWhile_append (hx : AtBoundary x) {p : UInt8 → Bool} (hp0 : p 0 = false)
    (hpt : p '~'.toUInt8 = false) (w : List UInt8) : (w ++ x).takeWhile p = w.takeWhile p := by
  induction w with
  | nil =>
    cases x with
    | nil => rfl
    | cons c x => rcases hx with rfl | rfl <;> simp [hp0, hpt]
  | cons c w ih => by_cases hc : p c <;> simp [hc, ih]

theorem strncmp_append_common (x y : List UInt8) :
    ∀ (w : List UInt8) (n : Nat), n ≤ w.length → strncmp (w ++ x) (w ++ y) n = 0
  | _, 0, _ => rfl
  | [], _ + 1, h => absurd h (by simp)
  | c :: w, n + 1, h => by
    simp only [strncmp, List.cons_append, cur_cons, List.tail_cons, ne_eq, not_true_eq_false,
      if_false, strncmp_append_common x y w n (by simpa using h), ite_self]

/-- The separator loop steps past the separators the common prefix starts with and stops at
its end: `~`, which could follow it, is checked first. When the prefix starts with a separator,
it is shortened. -/
theorem vercmpSeparatorLoop_append_common (hx : AtBoundary x) (hy : AtBoundary y) :
    ∀ (seps w : List UInt8), 0 ∉ seps → '~'.toUInt8 ∉ seps.tail →
      (w = [] → '~'.toUInt8 ∉ seps) →
      ∃ w', w' <:+ w ∧ (∀ c ∈ w.head?, c ∈ seps → w'.length < w.length) ∧
        vercmpSeparatorLoop seps (w ++ x) (w ++ y) = .ok (w' ++ x, w' ++ y)
  | [], w, _, _, _ => ⟨w, List.suffix_refl w, by simp, rfl⟩
  | sep :: seps, [], hz, ht, hw => by
    have hsep : sep ≠ 0 ∧ sep ≠ '~'.toUInt8 :=
      ⟨fun h => hz (h ▸ List.mem_cons_self _ _), fun h => hw rfl (h ▸ List.mem_cons_self _ _)⟩
    obtain ⟨w', hw', -, h⟩ := vercmpSeparatorLoop_append_common hx hy seps []
      (fun h => hz (List.mem_cons_of_mem _ h)) (fun h => ht (List.mem_of_mem_tail h))
      fun _ h => hw rfl (List.mem_cons_of_mem _ h)
    have hxs : cur x ≠ sep := by rcases hx with h | h <;> rw [h] <;> exact Ne.symm (by tauto)
    have hys : cur y ≠ sep := by rcases hy with h | h <;> rw [h] <;> exact Ne.symm (by tauto)
    refine ⟨w', hw', by simp, ?_⟩
    simpa [vercmpSeparatorLoop, hxs, hys] using h
  | sep :: seps, c :: w, hz, ht, _ => by
    have hz' : 0 ∉ seps := fun h => hz (List.mem_cons_of_mem _ h)
    have ht' : '~'.toUInt8 ∉ seps.tail := fun h => ht (List.mem_of_mem_tail h)
    by_cases hc : c = sep
    · -- both strings are at `sep` and step past it
      obtain ⟨w', hw', -, h⟩ := vercmpSeparatorLoop_append_common hx hy seps w hz' ht' fun _ => ht
      refine ⟨w', hw'.trans (List.suffix_cons c w), fun _ _ _ => ?_, ?_⟩
      · have := hw'.length_le
        simp only [List.length_cons]
        omega
      · simpa [vercmpSeparatorLoop, hc] using h
    · obtain ⟨w', hw', hlt, h⟩ := vercmpSeparatorLoop_append_common hx hy seps (c :: w) hz' ht'
        nofun
      refine ⟨w', hw', fun d hd hds => hlt d hd ?_, ?_⟩
      · simp only [List.head?_cons, Option.mem_def, Option.some.injEq] at hd
        subst hd
        exact (List.mem_cons.mp hds).resolve_left hc
      · simpa [vercmpSeparatorLoop, hc] using h

theorem natoi_append {w : List UInt8} {n : Nat} (line x : List UInt8) (h : n ≤ w.length) :
    natoi line (w ++ x) n = natoi line w n := by
  simp only [natoi, List.take_append_of_le_length h]

/-- What is left of a prefix after a run is shorter than the prefix, if the run is not empty or
the separators before it already shortened the prefix. -/
theorem length_drop_takeWhile_lt {p : UInt8 → Bool} {w' w : List UInt8} {c : UInt8}
    (hsuf : w' <:+ c :: w) (hp : w' = c :: w → p c) :
    (w'.drop (w'.takeWhile p).length).length < (c :: w).length := by
  rw [List.length_drop]
  have := hsuf.length_le
  by_cases heq : w' = c :: w
  · have : 0 < (w'.takeWhile p).length := by simp [heq, List.takeWhile_cons_of_pos (hp heq)]
    have : 0 < w'.length := heq ▸ Nat.succ_pos _
    omega
  · have := mt hsuf.eq_of_length heq
    omega

/-- One pass over a common prefix that starts with a byte `vercmp` reads: it reads separators or
a run, the same in both strings, and leaves a shorter common prefix. A run of digits writes the
same bytes to the buffer twice. -/
theorem vercmpLoop_succ_append_common (hx : AtBoundary x) (hy : AtBoundary y) (fuel : Nat)
    (line : List UInt8) {w : List UInt8} (hw0 : 0 ∉ w) (hne : w ≠ [])
    (hskip : w.dropWhile skipped = w) :
    ∃ w', w' <:+ w ∧ w'.length < w.length ∧ ∃ line',
      vercmpLoop (fuel + 1) line (w ++ x) (w ++ y) = vercmpLoop fuel line' (w' ++ x) (w' ++ y) := by
  obtain ⟨c, w₁, rfl⟩ := List.exists_cons_of_ne_nil hne
  have hc0 : c ≠ 0 := fun h => hw0 (h ▸ List.mem_cons_self _ _)
  have hvalid : isvalid c := by
    have := List.head_dropWhile_not skipped (c :: w₁) (by simp [hskip])
    simp only [hskip, List.head_cons, skipped] at this
    simpa [hc0] using this
  obtain ⟨w₂, hw₂, hlt₂, hsep⟩ := vercmpSeparatorLoop_append_common hx hy vercmpSeparators
    (c :: w₁) (by decide) (by decide) nofun
  have hcur : ∀ z, cur ((c :: w₁) ++ z) = c := fun _ => rfl
  rw [vercmpLoop, hx.dropWhile_skipped_append, hy.dropWhile_skipped_append, hskip]
  simp only [hcur, hc0, Bool.or_self, decide_False, Bool.false_eq_true, if_false, hsep]
  by_cases hd : isDigit (cur (w₂ ++ x)) || isDigit (cur (w₂ ++ y))
  · -- a run of digits, ending within the prefix: the same value in both
    have hn := (List.takeWhile_prefix isDigit (l := w₂)).length_le
    refine ⟨_, (List.drop_suffix _ w₂).trans hw₂,
      length_drop_takeWhile_lt hw₂ fun h => by simpa [h, hcur] using hd,
      (natoi line w₂ (w₂.takeWhile isDigit).length).2, ?_⟩
    simp only [hd, if_true, hx.takeWhile_append (p := isDigit) rfl rfl,
      hy.takeWhile_append (p := isDigit) rfl rfl, cmp_self, natoi_append _ x hn,
      natoi_append _ y hn, natoi_natoi_run, ne_eq, not_true_eq_false, if_false,
      List.drop_append_of_le_length hn]
  · -- a run of letters, ending within the prefix: the same bytes in both. If the separators
    -- read nothing, `c` is a letter.
    have halpha : w₂ = c :: w₁ → isAlpha c := fun h => by
      have hsepc : c ∉ vercmpSeparators := fun hm => by
        have := hlt₂ c rfl hm
        simp [h] at this
      have hdc : isDigit c = false := by simpa [h, hcur] using hd
      simpa [hdc, hsepc] using (isvalid_iff c).mp hvalid
    have hn := (List.takeWhile_prefix isAlpha (l := w₂)).length_le
    refine ⟨_, (List.drop_suffix _ w₂).trans hw₂, length_drop_takeWhile_lt hw₂ halpha, line, ?_⟩
    simp only [hd, Bool.false_eq_true, if_false, hx.takeWhile_append (p := isAlpha) rfl rfl,
      hy.takeWhile_append (p := isAlpha) rfl rfl, min_self, strncmp_append_common x y w₂ _ hn,
      cmp_self, ne_eq, not_true_eq_false, List.drop_append_of_le_length hn]

/-- Read to its end, a common prefix without NUL leaves what follows it to the remaining
passes, of which at most one per byte of the prefix was used. -/
theorem vercmpLoop_append_common (hx : AtBoundary x) (hy : AtBoundary y) :
    ∀ (fuel : Nat) (line w : List UInt8), 0 ∉ w →
      ∃ fuel', fuel - w.length ≤ fuel' ∧ ∃ line',
        vercmpLoop fuel line (w ++ x) (w ++ y) = vercmpLoop fuel' line' x y
  | 0, line, _, _ => ⟨0, by omega, line, rfl⟩
  | fuel + 1, line, w, hw => by
    have hsuf := List.dropWhile_suffix skipped (l := w)
    rw [vercmpLoop_dropWhile, hx.dropWhile_skipped_append, hy.dropWhile_skipped_append]
    by_cases hne : w.dropWhile skipped = []
    · -- only skipped bytes are left of the prefix
      refine ⟨fuel + 1, by omega, line, ?_⟩
      rw [hne, List.nil_append, List.nil_append, vercmpLoop_dropWhile fuel line x y,
        hx.dropWhile_skipped, hy.dropWhile_skipped]
    · obtain ⟨w', hw', hlt, line₁, heq⟩ := vercmpLoop_succ_append_common hx hy fuel line
        (fun h => hw (hsuf.subset h)) hne (dropWhile_skipped_idem w)
      obtain ⟨fuel', hle, line', h'⟩ := vercmpLoop_append_common hx hy fuel line₁ w'
        fun h => hw ((hw'.trans hsuf).subset h)
      have := hsuf.length_le
      exact ⟨fuel', by omega, line', heq.trans h'⟩

end CommonPrefix

/-- For every version `v` and every `s`, the pre-release `v~s` compares newer than `v`, by
`'~' - '\0'`, both ways round, whatever `natoi`'s buffer holds. -/
theorem vercmp_tilde_suffix (line v s : List UInt8) (hv : 0 ∉ v) :
    vercmp line (v ++ '~'.toUInt8 :: s) v = 126 ∧ vercmp line v (v ++ '~'.toUInt8 :: s) = -126 := by
  have hx : AtBoundary ('~'.toUInt8 :: s) := .inr rfl
  have hy : AtBoundary [] := .inl rfl
  have hend : ∀ fuel line, 0 < fuel → vercmpLoop fuel line ('~'.toUInt8 :: s) [] = 126 ∧
      vercmpLoop fuel line [] ('~'.toUInt8 :: s) = -126
    | fuel + 1, _, _ => by
      simp only [vercmpLoop, hx.dropWhile_skipped, List.dropWhile_nil, cur_cons, cur_nil,
        decide_True, Bool.or_true, Bool.true_or, if_true]
      decide
  obtain ⟨f₁, hf₁, l₁, h₁⟩ := vercmpLoop_append_common hx hy
    ((v ++ '~'.toUInt8 :: s).length + v.length + 1) line v hv
  obtain ⟨f₂, hf₂, l₂, h₂⟩ := vercmpLoop_append_common hy hx
    (v.length + (v ++ '~'.toUInt8 :: s).length + 1) line v hv
  rw [List.append_nil] at h₁ h₂
  exact ⟨h₁.trans (hend f₁ l₁ (by simp at hf₁; omega)).1,
    h₂.trans (hend f₂ l₂ (by simp at hf₂; omega)).2⟩

/-- `1.0~rc1` compares newer than `1.0`: once `1.0` is read in both, `b` is at its end while `a`
is at `~`, and the end test returns `'~' - '\0'` before the separators are looked at. -/
theorem vercmp_tilde_newer (line : List UInt8) :
    vercmp line (cString "1.0~rc1") (cString "1.0") = 126 ∧
    vercmp line (cString "1.0") (cString "1.0~rc1") = -126 :=
  vercmp_tilde_suffix line (cString "1.0") (cString "rc1") (by decide)

/-! ## Runs of different lengths -/

theorem UInt8.lt_iff_toNat_lt (a b : UInt8) : a < b ↔ a.toNat < b.toNat :=
  UInt8.lt_def.trans BitVec.lt_def

theorem UInt8.le_iff_toNat_le (a b : UInt8) : a ≤ b ↔ a.toNat ≤ b.toNat :=
  UInt8.le_def.trans BitVec.le_def

theorem takeWhile_eq_nil_of_not {p : UInt8 → Bool} {a : List UInt8} (h : ¬p (cur a)) :
    a.takeWhile p = [] := by
  cases a with
  | nil => rfl
  | cons c a => simp [List.takeWhile_cons, show p c = false by simpa using h]

/-- With a buffer that holds no digit at bytes 1 and 2 (a zeroed one, say), `6.9` and `6.10`
each compare newer than the other. In the second pass of `6.9` against `6.10`, `natoi` of `10`
leaves `10` in the buffer and `natoi` of `9` overwrites only its first byte, so it reads `90`;
against `6.9`, `natoi` of `9` reads `9` and `natoi` of `10` reads `10`. -/
theorem vercmp_six_nine_six_ten (line : List UInt8) (h₁ : ¬isDigit (cur (line.drop 1)))
    (h₂ : ¬isDigit (cur (line.drop 2))) :
    vercmp line (cString "6.9") (cString "6.10") = 80 ∧
      vercmp line (cString "6.10") (cString "6.9") = 1 := by
  have t₁ : line.tail.takeWhile isDigit = [] := List.drop_one line ▸ takeWhile_eq_nil_of_not h₁
  have t₂ := takeWhile_eq_nil_of_not h₂
  rw [show cString "6.9" = [54, 46, 57] from rfl, show cString "6.10" = [54, 46, 49, 48] from rfl]
  simp +decide [vercmp, vercmpLoop, natoi, vercmpSeparatorLoop, vercmpSeparators, t₁, t₂,
    List.takeWhile_cons, List.dropWhile_cons, List.drop_drop]

/-- With a buffer that holds no digit at bytes 1 and 2, `vercmp` is neither antisymmetric nor
transitive on versions of one- and two-digit runs: `6.9` and `6.10` each compare newer than the
other, and `1.0` before `10.1` before `11` before `1.0`. -/
theorem vercmp_inconsistent (line : List UInt8) (h₁ : ¬isDigit (cur (line.drop 1)))
    (h₂ : ¬isDigit (cur (line.drop 2))) :
    (vercmp line (cString "6.9") (cString "6.10") = 80 ∧
      vercmp line (cString "6.10") (cString "6.9") = 1) ∧
    (vercmp line (cString "1.0") (cString "10.1") = -10 ∧
      vercmp line (cString "10.1") (cString "11") = -1 ∧
      vercmp line (cString "1.0") (cString "11") = 46) := by
  refine ⟨vercmp_six_nine_six_ten line h₁ h₂, ?_⟩
  have t₂ := takeWhile_eq_nil_of_not h₂
  rw [show cString "1.0" = [49, 46, 48] from rfl, show cString "10.1" = [49, 48, 46, 49] from rfl,
    show cString "11" = [49, 49] from rfl]
  simp +decide [vercmp, vercmpLoop, natoi, vercmpSeparatorLoop, vercmpSeparators, t₂,
    List.takeWhile_cons, List.dropWhile_cons, List.drop_drop]

theorem vercmp_inconsistent_zeroed :
    (¬isDigit (cur ((List.replicate 16 0).drop 1)) ∧
      ¬isDigit (cur ((List.replicate 16 0).drop 2))) ∧
    ((vercmp (List.replicate 16 0) (cString "6.9") (cString "6.10") = 80 ∧
      vercmp (List.replicate 16 0) (cString "6.10") (cString "6.9") = 1) ∧
    (vercmp (List.replicate 16 0) (cString "1.0") (cString "10.1") = -10 ∧
      vercmp (List.replicate 16 0) (cString "10.1") (cString "11") = -1 ∧
      vercmp (List.replicate 16 0) (cString "1.0") (cString "11") = 46)) :=
  ⟨by decide, vercmp_inconsistent _ (by decide) (by decide)⟩

/-! ## Runs of at most nine digits -/

/-- `int` arithmetic on values below `2^31` does not wrap. -/
theorem wrapInt32_eq_self {z : Int} (h₁ : -2 ^ 31 ≤ z) (h₂ : z < 2 ^ 31) : wrapInt32 z = z := by
  unfold wrapInt32
  omega

theorem strncmp_swap : ∀ (a b : List UInt8) (n : Nat), strncmp b a n = -strncmp a b n
  | _, _, 0 => rfl
  | a, b, n + 1 => by
    by_cases h : cur a = cur b
    · simp [strncmp, h, strncmp_swap a.tail b.tail n, apply_ite Neg.neg]
    · have hlt : cur b < cur a ↔ ¬cur a < cur b := by
        rw [UInt8.lt_iff_toNat_lt, UInt8.lt_iff_toNat_lt]
        have : (cur a).toNat ≠ (cur b).toNat := fun e => h (UInt8.toNat.inj e)
        omega
      simp only [strncmp, ne_eq, h, Ne.symm h, not_false_eq_true, if_true, hlt]
      split_ifs <;> rfl

theorem strncmp_bounds : ∀ (a b : List UInt8) (n : Nat), -1 ≤ strncmp a b n ∧ strncmp a b n ≤ 1
  | _, _, 0 => by simp only [strncmp]; decide
  | a, b, n + 1 => by
    unfold strncmp
    split_ifs
    all_goals first | decide | exact strncmp_bounds _ _ n

theorem vercmpSeparatorLoop_ok_suffix : ∀ {seps a b a' b' : List UInt8},
    vercmpSeparatorLoop seps a b = .ok (a', b') → a' <:+ a ∧ b' <:+ b
  | [], _, _, _, _, h => by
    cases h
    exact ⟨List.suffix_refl _, List.suffix_refl _⟩
  | s :: _, a, b, _, _, h => by
    unfold vercmpSeparatorLoop at h
    dsimp only at h
    by_cases hc : (decide (cur a = s) || decide (cur b = s)) = true
    · rw [if_pos hc] at h
      by_cases hr : cmp (if cur a ≠ s then 1 else 0) (if cur b ≠ s then 1 else 0) ≠ 0
      · rw [if_pos hr] at h
        cases h
      · rw [if_neg hr] at h
        obtain ⟨ha, hb⟩ := vercmpSeparatorLoop_ok_suffix h
        exact ⟨ha.trans (List.tail_suffix a), hb.trans (List.tail_suffix b)⟩
    · rw [if_neg hc] at h
      exact vercmpSeparatorLoop_ok_suffix h

/-- Every run of digits in `a` has at most nine digits: `atoi` of it is below `INT_MAX`, and
the differences `cmp` takes of such values do not wrap. -/
def ShortDigitRuns (a : List UInt8) : Prop := ∀ t ∈ a.tails, (t.takeWhile isDigit).length ≤ 9

instance (a : List UInt8) : Decidable (ShortDigitRuns a) :=
  inferInstanceAs (Decidable (∀ t ∈ a.tails, _))

theorem ShortDigitRuns.suffix {a t : List UInt8} (h : ShortDigitRuns a) (ht : t <:+ a) :
    ShortDigitRuns t :=
  fun u hu => h u ((List.mem_tails _ _).mpr (((List.mem_tails _ _).mp hu).trans ht))

theorem ShortDigitRuns.length_takeWhile {a : List UInt8} (h : ShortDigitRuns a) :
    (a.takeWhile isDigit).length ≤ 9 :=
  h a ((List.mem_tails _ _).mpr (List.suffix_refl a))

theorem toNat_sub_le_of_isDigit {c : UInt8} (h : isDigit c) : c.toNat - 48 ≤ 9 := by
  simp only [isDigit, Bool.and_eq_true, decide_eq_true_eq, UInt8.le_iff_toNat_le] at h
  have : (57 : UInt8).toNat = 57 := rfl
  omega

theorem foldl_digits_lt : ∀ (run : List UInt8) (acc : Nat), (∀ c ∈ run, isDigit c) →
    run.foldl (fun v c => 10 * v + (c.toNat - 48)) acc < (acc + 1) * 10 ^ run.length
  | [], acc, _ => by simp
  | c :: run, acc, h => by
    have hc := toNat_sub_le_of_isDigit (h c (List.mem_cons_self _ _))
    calc _ < (10 * acc + (c.toNat - 48) + 1) * 10 ^ run.length :=
          foldl_digits_lt run _ fun d hd => h d (List.mem_cons_of_mem _ hd)
      _ ≤ (10 * acc + 10) * 10 ^ run.length := Nat.mul_le_mul_right _ (by omega)
      _ = (acc + 1) * 10 ^ (c :: run).length := by rw [List.length_cons, pow_succ]; ring

example : ShortDigitRuns (cString "1.0~rc1") ∧ ¬ShortDigitRuns (cString "2147483648") := by
  decide

end PcrOracle
