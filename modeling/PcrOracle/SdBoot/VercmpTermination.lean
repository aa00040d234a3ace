import PcrOracle.SdBoot.VercmpLaws

/-!
# The loop of `vercmp` returns

The `for (;;)` of `vercmp` has no bound of its own: it returns when a string ends or a
comparison differs. Every pass that does not return moves both strings past at least one byte:
past the separators it steps over, or past the runs of digits or letters it reads. When the
separator loop steps over nothing, both strings are at a byte that is valid, not a separator and
not the NUL, so at a digit or a letter, and the run read from it is not empty. When it steps over
a separator, both strings already moved, whatever follows: the NUL, empty letter runs, or bytes
that are not valid.

So the loop returns after at most `min (strlen a) (strlen b) + 1` passes, and the fuel `vercmp`
gives `vercmpLoop` is never used up.

## Main results

* `vercmpStep_progress`: a pass that does not return leaves each string at a proper suffix.
* `vercmpRun`: the loop run to its `return`, by well-founded recursion on the length of `a`.
* `vercmpLoop_eq_vercmpRun`: with more passes than the shorter string has bytes, the fuelled loop
  is the loop run to its `return`.
-/

namespace PcrOracle

/-! ## One pass -/

/-- One pass of the `for (;;)` of `vercmp`: `.error r` when it returns `r`, and otherwise the
buffer of `natoi` and where it leaves `a` and `b`. -/
def vercmpStep (line a b : List UInt8) : Except Int (List UInt8 × List UInt8 × List UInt8) :=
  let a := a.dropWhile skipped
  let b := b.dropWhile skipped
  -- the longer string is considered newer
  if cur a = 0 || cur b = 0 then .error (cmp (charVal (cur a)) (charVal (cur b)))
  else
    match vercmpSeparatorLoop vercmpSeparators a b with
    | .error r => .error r
    | .ok (a, b) =>
      if isDigit (cur a) || isDigit (cur b) then
        let na := (a.takeWhile isDigit).length
        let nb := (b.takeWhile isDigit).length
        let r := cmp (if na ≠ 0 then 1 else 0) (if nb ≠ 0 then 1 else 0)
        if r ≠ 0 then .error r
        else
          let vb := natoi line b nb
          let va := natoi vb.2 a na
          let r := cmp va.1 vb.1
          if r ≠ 0 then .error r else .ok (va.2, a.drop na, b.drop nb)
      else
        let na := (a.takeWhile isAlpha).length
        let nb := (b.takeWhile isAlpha).length
        let r := cmp (strncmp a b (min na nb)) 0
        if r ≠ 0 then .error r
        else
          let r := cmp na nb
          if r ≠ 0 then .error r else .ok (line, a.drop na, b.drop nb)

/-- What the fuelled loop does after a pass: return, or go on with the buffer and the strings
the pass leaves. -/
def vercmpContinue (fuel : Nat) : Except Int (List UInt8 × List UInt8 × List UInt8) → Int
  | .error r => r
  | .ok (line, a, b) => vercmpLoop fuel line a b

/-- A pass of the fuelled loop is `vercmpStep`. -/
theorem vercmpLoop_succ (fuel : Nat) (line a b : List UInt8) :
    vercmpLoop (fuel + 1) line a b = vercmpContinue fuel (vercmpStep line a b) := by
  simp only [vercmpLoop, vercmpStep, apply_ite (vercmpContinue fuel)]
  rcases vercmpSeparatorLoop vercmpSeparators (a.dropWhile skipped) (b.dropWhile skipped)
    with r | ⟨a', b'⟩ <;> simp only [apply_ite (vercmpContinue fuel)] <;> rfl

/-! ## What a pass moves past -/

/-- `cmp` of two flags is `0` only when they agree. -/
theorem cmp_flags_eq_zero {p q : Prop} [Decidable p] [Decidable q]
    (h : cmp (if p then 1 else 0) (if q then 1 else 0) = 0) : p ↔ q := by
  by_cases hp : p <;> by_cases hq : q <;> simp only [hp, hq, if_true, if_false] at h
  all_goals first | exact absurd h (by decide) | simp [hp, hq]

/-- The byte at which the skip stops is the NUL or a byte `vercmp` reads. -/
theorem isvalid_cur_dropWhile_skipped (l : List UInt8) (h : cur (l.dropWhile skipped) ≠ 0) :
    isvalid (cur (l.dropWhile skipped)) := by
  cases hl : l.dropWhile skipped with
  | nil => simp [hl] at h
  | cons c t =>
    have hc := List.head_dropWhile_not skipped l (by simp [hl])
    simp only [hl, List.head_cons, cur_cons, skipped] at hc h ⊢
    simpa [h] using hc

/-- A byte the skip stops at that is not the NUL, a separator or a digit is a letter. -/
theorem isAlpha_cur_dropWhile_skipped {x : List UInt8} (h0 : cur (x.dropWhile skipped) ≠ 0)
    (hsep : cur (x.dropWhile skipped) ∉ vercmpSeparators)
    (hdig : ¬isDigit (cur (x.dropWhile skipped))) : isAlpha (cur (x.dropWhile skipped)) :=
  (((isvalid_iff _).mp (isvalid_cur_dropWhile_skipped x h0)).resolve_left hdig).resolve_right hsep

/-- The separator loop steps over nothing, and then neither string is at a separator, or steps
over at least one byte of each. -/
theorem vercmpSeparatorLoop_progress : ∀ {seps a b a' b' : List UInt8}, 0 ∉ seps →
    vercmpSeparatorLoop seps a b = .ok (a', b') →
      (a' = a ∧ b' = b ∧ cur a ∉ seps ∧ cur b ∉ seps) ∨
        (a'.length < a.length ∧ b'.length < b.length)
  | [], _, _, _, _, _, h => by
    cases h
    exact .inl ⟨rfl, rfl, List.not_mem_nil _, List.not_mem_nil _⟩
  | s :: seps, a, b, a', b', h0, h => by
    have hs : s ≠ 0 := fun hs => h0 (hs ▸ List.mem_cons_self _ _)
    have h0' : 0 ∉ seps := fun h' => h0 (List.mem_cons_of_mem _ h')
    unfold vercmpSeparatorLoop at h
    dsimp only at h
    by_cases hc : (decide (cur a = s) || decide (cur b = s)) = true
    · -- both strings are at `s` and step past it
      rw [if_pos hc] at h
      by_cases hr : cmp (if cur a ≠ s then 1 else 0) (if cur b ≠ s then 1 else 0) ≠ 0
      · rw [if_pos hr] at h
        cases h
      · rw [if_neg hr] at h
        have hab := cmp_flags_eq_zero (not_not.mp hr)
        simp only [Bool.or_eq_true, decide_eq_true_eq] at hc
        have ha : cur a = s := Decidable.byContradiction fun hna => hab.mp hna (hc.resolve_left hna)
        have hb : cur b = s := Decidable.byContradiction fun hnb => hab.mpr hnb (hc.resolve_right hnb)
        have hlen : ∀ x : List UInt8, cur x = s → x.tail.length < x.length := fun x hx => by
          cases x with
          | nil => exact absurd hx.symm hs
          | cons c t => exact Nat.lt_succ_self _
        refine .inr ?_
        rcases vercmpSeparatorLoop_progress h0' h with ⟨rfl, rfl, -⟩ | ⟨ha', hb'⟩
        · exact ⟨hlen a ha, hlen b hb⟩
        · exact ⟨ha'.trans (hlen a ha), hb'.trans (hlen b hb)⟩
    · -- neither string is at `s`
      rw [if_neg hc] at h
      simp only [Bool.or_eq_true, decide_eq_true_eq, not_or] at hc
      refine (vercmpSeparatorLoop_progress h0' h).imp_left fun ⟨ha, hb, hna, hnb⟩ => ?_
      exact ⟨ha, hb, List.not_mem_cons_of_ne_of_not_mem hc.1 hna,
        List.not_mem_cons_of_ne_of_not_mem hc.2 hnb⟩

/-- A pass goes on past `if (r != 0) return r;` only with `r = 0`. -/
theorem eq_ok_of_ite_error {α : Type} {r : Int} {x : Except Int α} {v : α}
    (h : (if r ≠ 0 then .error r else x) = .ok v) : r = 0 ∧ x = .ok v := by
  by_cases hr : r = 0
  · rw [if_neg (not_not.mpr hr)] at h
    exact ⟨hr, h⟩
  · rw [if_pos hr] at h
    cases h

/-- A run is not empty exactly when it starts with a byte of its class; the NUL is in none. -/
theorem length_takeWhile_pos_iff {p : UInt8 → Bool} (hp0 : p 0 = false) {x : List UInt8} :
    0 < (x.takeWhile p).length ↔ p (cur x) := by
  cases x with
  | nil => simp [hp0]
  | cons c t => by_cases hc : p c <;> simp [List.takeWhile_cons, hc]

/-- What a pass leaves of one string after the separators and a run: a suffix, shorter than the
string if the separators stepped over a byte of it or the run is not empty. -/
theorem drop_takeWhile_progress {p : UInt8 → Bool} {x₂ x : List UInt8} (hsuf : x₂ <:+ x)
    (h : x₂.length < x.length ∨ p (cur x₂)) (hp0 : p 0 = false) :
    x₂.drop (x₂.takeWhile p).length <:+ x ∧ (x₂.drop (x₂.takeWhile p).length).length < x.length := by
  refine ⟨(List.drop_suffix _ _).trans hsuf, ?_⟩
  have hle := hsuf.length_le
  have hrun : (x₂.takeWhile p).length ≤ x₂.length := (List.takeWhile_prefix p).length_le
  rw [List.length_drop]
  rcases h with h | h
  · omega
  · have := (length_takeWhile_pos_iff hp0).mpr h
    omega

/-- A pass that does not return leaves each string at a proper suffix of it. -/
theorem vercmpStep_progress {line a b line' a' b' : List UInt8}
    (h : vercmpStep line a b = .ok (line', a', b')) :
    a' <:+ a ∧ b' <:+ b ∧ a'.length < a.length ∧ b'.length < b.length := by
  unfold vercmpStep at h
  dsimp only at h
  by_cases h0 : (decide (cur (a.dropWhile skipped) = 0) ||
      decide (cur (b.dropWhile skipped) = 0)) = true
  · rw [if_pos h0] at h
    cases h
  rw [if_neg h0] at h
  rcases hsep : vercmpSeparatorLoop vercmpSeparators (a.dropWhile skipped) (b.dropWhile skipped)
    with r | ⟨a₂, b₂⟩ <;> rw [hsep] at h
  · cases h
  dsimp only at h
  obtain ⟨hsa, hsb⟩ := vercmpSeparatorLoop_ok_suffix hsep
  have hsa := hsa.trans (List.dropWhile_suffix skipped)
  have hsb := hsb.trans (List.dropWhile_suffix skipped)
  by_cases hd : (isDigit (cur a₂) || isDigit (cur b₂)) = true
  · -- a run of digits, not empty in either string
    rw [if_pos hd] at h
    obtain ⟨hr₁, h⟩ := eq_ok_of_ite_error h
    obtain ⟨-, h⟩ := eq_ok_of_ite_error h
    cases h
    have hrun : isDigit (cur a₂) ↔ isDigit (cur b₂) := by
      rw [← length_takeWhile_pos_iff (by decide), ← length_takeWhile_pos_iff (by decide),
        Nat.pos_iff_ne_zero, Nat.pos_iff_ne_zero]
      exact cmp_flags_eq_zero hr₁
    obtain ⟨hda, hdb⟩ : isDigit (cur a₂) ∧ isDigit (cur b₂) := by
      rcases Bool.or_eq_true _ _ ▸ hd with hd | hd
      · exact ⟨hd, hrun.mp hd⟩
      · exact ⟨hrun.mpr hd, hd⟩
    obtain ⟨ha, ha'⟩ := drop_takeWhile_progress hsa (.inr hda) rfl
    obtain ⟨hb, hb'⟩ := drop_takeWhile_progress hsb (.inr hdb) rfl
    exact ⟨ha, hb, ha', hb'⟩
  · -- a run of letters: the separators moved both strings, or both are at a letter
    rw [if_neg hd] at h
    obtain ⟨-, h⟩ := eq_ok_of_ite_error h
    obtain ⟨-, h⟩ := eq_ok_of_ite_error h
    cases h
    simp only [Bool.or_eq_true, decide_eq_true_eq, not_or] at h0 hd
    rcases vercmpSeparatorLoop_progress (by decide) hsep with ⟨rfl, rfl, hna, hnb⟩ | ⟨ha₂, hb₂⟩
    · obtain ⟨ha, ha'⟩ :=
        drop_takeWhile_progress hsa (.inr (isAlpha_cur_dropWhile_skipped h0.1 hna hd.1)) rfl
      obtain ⟨hb, hb'⟩ :=
        drop_takeWhile_progress hsb (.inr (isAlpha_cur_dropWhile_skipped h0.2 hnb hd.2)) rfl
      exact ⟨ha, hb, ha', hb'⟩
    · have ha₂' := ha₂.trans_le (List.dropWhile_suffix skipped).length_le
      have hb₂' := hb₂.trans_le (List.dropWhile_suffix skipped).length_le
      obtain ⟨ha, ha'⟩ := drop_takeWhile_progress (p := isAlpha) hsa (.inl ha₂') rfl
      obtain ⟨hb, hb'⟩ := drop_takeWhile_progress (p := isAlpha) hsb (.inl hb₂') rfl
      exact ⟨ha, hb, ha', hb'⟩

/-! ## The loop run to its `return` -/

/-- The `for (;;)` of `vercmp` run until it returns, with no fuel: every pass that goes on
shortens `a`. -/
def vercmpRun (line a b : List UInt8) : Int :=
  match h : vercmpStep line a b with
  | .error r => r
  | .ok (line', a', b') =>
    have : a'.length < a.length := (vercmpStep_progress h).2.2.1
    vercmpRun line' a' b'
termination_by a.length

theorem vercmpRun_eq (line a b : List UInt8) :
    vercmpRun line a b =
      match vercmpStep line a b with
      | .error r => r
      | .ok (line', a', b') => vercmpRun line' a' b' := by
  rw [vercmpRun]
  split <;> rename_i hs <;> simp only [hs]

/-- With more passes than the shorter string has bytes, the fuelled loop is the loop run to its
`return`. -/
theorem vercmpLoop_eq_vercmpRun : ∀ (fuel : Nat) (line a b : List UInt8),
    min a.length b.length < fuel → vercmpLoop fuel line a b = vercmpRun line a b
  | 0, _, _, _, h => absurd h (Nat.not_lt_zero _)
  | fuel + 1, line, a, b, h => by
    rw [vercmpLoop_succ, vercmpRun_eq]
    rcases hs : vercmpStep line a b with r | ⟨line', a', b'⟩
    · rfl
    · have ⟨_, _, ha, hb⟩ := vercmpStep_progress hs
      exact vercmpLoop_eq_vercmpRun fuel line' a' b' (by omega)

/-- For all strings `a` and `b`, and whatever `natoi`'s buffer holds, the loop of `vercmp`
returns. Every pass that does not return leaves each string at a proper suffix, so
`strlen (a) + strlen (b)` decreases at every pass; the loop returns within
`min (strlen a) (strlen b) + 1` passes, and the fuel `vercmp` gives `vercmpLoop` is enough. -/
theorem vercmp_terminates (line a b : List UInt8) :
    (∀ line' a' b', vercmpStep line a b = .ok (line', a', b') →
      a' <:+ a ∧ b' <:+ b ∧ a'.length < a.length ∧ b'.length < b.length) ∧
    (∀ fuel, min a.length b.length < fuel → vercmpLoop fuel line a b = vercmpRun line a b) ∧
    vercmp line a b = vercmpRun line a b :=
  ⟨fun _ _ _ => vercmpStep_progress, fun fuel => vercmpLoop_eq_vercmpRun fuel line a b,
    vercmpLoop_eq_vercmpRun _ line a b (by omega)⟩

end PcrOracle
