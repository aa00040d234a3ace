import Mathlib.Data.List.Infix
import PcrOracle.SdBoot.Vercmp

/-!
# Reading a boot loader entry

`read_entry` of `sd-boot.c` reads an entry file of `/boot/efi/loader/entries` line by line with
`fgets`. A line that starts with one of the keys `sort-key`, `machine-id`, `version`,
`options`, `linux` and `initrd` (tested in that order, by `strncmp` over the key's length) has
its value copied into the field of that key: the value starts after the first space past the
line's first byte and the spaces that follow it, and `strncpy` copies it without its last byte,
meant to be the newline, and without a NUL.

Lines are those `fgets` returns when every line is shorter than `SDB_LINE_MAX` (`sd-boot.h`, not
among the sources): each with its newline, the last one without it if the file does not end in
one. A field is the bytes of its buffer, zero past the end of the list: `sdb_get_entry_list`
clears the entries before it reads them.

## Main results

* `readEntryLine_entryKeyLine`: a line `key value\n` writes `value` over the start of the field.
* `readEntry_of_entryLines`: on a file of such lines and of lines that start with no key, each
  field holds the values of its lines, each written over the ones before.
* `readEntry_diverges`: a shorter later value keeps the tail of the earlier one, a last line
  without a newline loses its last byte, and a tab after the key sends the scan past the NUL.
-/

namespace PcrOracle

/-! ## Lines and buffers -/

/-- The lines `fgets` returns: each with its newline, the last one without it if the file does
not end in one. -/
def fgetsLines : List UInt8 → List (List UInt8)
  | [] => []
  | c :: cs =>
    match fgetsLines cs with
    | [] => [[c]]
    | line :: lines => if c = '\n'.toUInt8 then [c] :: line :: lines else (c :: line) :: lines

/-- The C string held by a buffer: its bytes before the first NUL. -/
def cStr (buf : List UInt8) : List UInt8 := buf.takeWhile (· ≠ 0)

/-- `bytes` written at the start of a buffer, as `strncpy` does when it copies fewer bytes than
its source has, and as `id[k++] = c` does: the bytes past them are kept. -/
def overwrite (buf bytes : List UInt8) : List UInt8 := bytes ++ buf.drop bytes.length

/-! ## `read_entry` -/

/-- The fields of `sdb_entry_data_t` that `read_entry` fills, in the order it tests their
keys. -/
inductive SdbEntryField
  | sortKey
  | machineId
  | version
  | options
  | image
  | initrd
  deriving DecidableEq, Repr

/-- The key of the lines a field is read from; `image` is read from `linux` lines. -/
def SdbEntryField.key : SdbEntryField → List UInt8
  | .sortKey => cString "sort-key"
  | .machineId => cString "machine-id"
  | .version => cString "version"
  | .options => cString "options"
  | .image => cString "linux"
  | .initrd => cString "initrd"

/-- The fields in the order of the `if ... else if` chain of `read_entry`. -/
def sdbEntryFields : List SdbEntryField := [.sortKey, .machineId, .version, .options, .image, .initrd]

/-- The ways `read_entry` fails, or leaves the buffers it is given. -/
inductive ReadEntryError
  /-- `fopen` failed (`Cannot open %s: %m`), and `read_entry` returns `false`. -/
  | cannotOpen
  /-- `while (line[++index] != ' ');` found no space in the line before the NUL that `fgets`
  ends it with, and read on past it. -/
  | pastNul
  /-- Only spaces follow the first space: `strlen(&line[index]) - 1` is `SIZE_MAX`, and
  `strncpy` writes that many bytes into the field. -/
  | strncpyOverflow
  deriving DecidableEq, Repr

/-- One pass of the `fgets` loop of `read_entry`: the first field whose key starts the line,
as `strncmp` tests it, then the value after the first space past the line's first byte and
after the spaces that follow it, copied by `strncpy` without its last byte. The two scans read
the bytes `fgets` wrote, NULs read from the file among them, up to the NUL `fgets` ends the line
with; `strlen` ends the value at the first NUL. -/
def readEntryLine (result : SdbEntryField → List UInt8) (line : List UInt8) :
    Except ReadEntryError (SdbEntryField → List UInt8) :=
  match sdbEntryFields.find? fun f => f.key.isPrefixOf (cStr line) with
  | none => .ok result
  | some dest =>
    match (line.drop 1).dropWhile (· ≠ ' '.toUInt8) with
    | [] => .error .pastNul
    | _ :: rest =>
      let value := cStr (rest.dropWhile (· = ' '.toUInt8))
      if value = [] then .error .strncpyOverflow
      else .ok (Function.update result dest
        (overwrite (result dest) (value.take (value.length - 1))))

/-- `read_entry` of a file, `none` if it cannot be opened, into cleared fields. -/
def readEntry (file : Option (List UInt8)) : Except ReadEntryError (SdbEntryField → List UInt8) :=
  match file with
  | none => .error .cannotOpen
  | some contents => (fgetsLines contents).foldlM readEntryLine fun _ => []

/-! ## The reading the fields are documented with -/

/-- `isspace` of the C locale. -/
def isspace (c : UInt8) : Bool := c = 32 || (9 ≤ c && c ≤ 13)

/-- A field as the documentation of the entry format reads it, to compare `read_entry` with:
the value of the last line whose first blank-delimited word is the key, which is the line's text
after that word and the blanks that follow it, without the line's newline; empty if no line has
the key. -/
def readEntrySpec (contents : List UInt8) (f : SdbEntryField) : List UInt8 :=
  let text := fun line : List UInt8 =>
    (if line.getLast? = some '\n'.toUInt8 then line.dropLast else line).dropWhile isspace
  match ((fgetsLines contents).map text).reverse.find? (·.takeWhile (!isspace ·) = f.key) with
  | none => []
  | some line => (line.dropWhile (!isspace ·)).dropWhile isspace

/-! ## Lines of the usual shape -/

/-- The line `key value\n`. -/
def entryKeyLine (f : SdbEntryField) (value : List UInt8) : List UInt8 :=
  f.key ++ ' '.toUInt8 :: value ++ ['\n'.toUInt8]

/-- The value of a line `key value\n` of field `f`, if the line has that shape. -/
def entryKeyLineValue (f : SdbEntryField) (line : List UInt8) : Option (List UInt8) :=
  if (f.key ++ [' '.toUInt8]).isPrefixOf line && line.getLast? == some '\n'.toUInt8 then
    some ((line.drop (f.key.length + 1)).dropLast)
  else none

/-- The lines the run of `read_entry` is stated over: lines that start with no key, and lines
`key value\n` whose value has no NUL and does not start with a space. -/
def EntryLine (line : List UInt8) : Prop :=
  (∀ f : SdbEntryField, f.key.isPrefixOf (cStr line) = false) ∨
    ∃ f value, line = entryKeyLine f value ∧ 0 ∉ value ∧ cur value ≠ ' '.toUInt8

theorem cStr_of_not_mem {l : List UInt8} (h : 0 ∉ l) : cStr l = l :=
  List.takeWhile_eq_self_iff.mpr fun x hx => by simpa using ne_of_mem_of_not_mem hx h

/-- What the run lemma needs of the keys: each is non-empty, with no space, newline or NUL. -/
theorem SdbEntryField.key_facts (f : SdbEntryField) :
    f.key ≠ [] ∧ ' '.toUInt8 ∉ f.key ∧ '\n'.toUInt8 ∉ f.key ∧ (0 : UInt8) ∉ f.key := by
  cases f <;> decide

/-- The keys start with six different bytes, so no key starts a line of another. -/
theorem SdbEntryField.eq_of_key_head? {f g : SdbEntryField} (h : g.key.head? = f.key.head?) :
    g = f := by
  cases f <;> cases g <;> first | rfl | exact absurd h (by decide)

theorem isPrefixOf_key_entryKeyLine (f g : SdbEntryField) (value : List UInt8) :
    g.key.isPrefixOf (entryKeyLine f value) = decide (g = f) := by
  by_cases hgf : g = f
  · subst hgf
    simp [entryKeyLine, List.isPrefixOf_iff_prefix]
  · simp only [hgf, decide_False, Bool.eq_false_iff, ne_eq, List.isPrefixOf_iff_prefix]
    intro h
    refine hgf (SdbEntryField.eq_of_key_head? ?_)
    obtain ⟨t, ht⟩ := h
    obtain ⟨c, cs, hc⟩ := List.exists_cons_of_ne_nil g.key_facts.1
    obtain ⟨d, ds, hd⟩ := List.exists_cons_of_ne_nil f.key_facts.1
    rw [entryKeyLine, hc, hd] at ht
    simp only [List.cons_append, List.cons.injEq] at ht
    rw [hc, hd, ht.1]
    rfl

theorem find?_key_entryKeyLine (f : SdbEntryField) (value : List UInt8) :
    sdbEntryFields.find? (fun g => g.key.isPrefixOf (entryKeyLine f value)) = some f := by
  simp only [isPrefixOf_key_entryKeyLine]
  cases f <;> rfl

/-- A line `key value\n` writes `value` over the start of the key's field, and leaves the
bytes of the field past it. -/
theorem readEntryLine_entryKeyLine (result : SdbEntryField → List UInt8) (f : SdbEntryField)
    {value : List UInt8} (h0 : 0 ∉ value) (hsp : cur value ≠ ' '.toUInt8) :
    readEntryLine result (entryKeyLine f value) =
      .ok (Function.update result f (overwrite (result f) value)) := by
  obtain ⟨hne, hsp', -, h0'⟩ := f.key_facts
  obtain ⟨d, ds, hd⟩ := List.exists_cons_of_ne_nil hne
  have hline : 0 ∉ entryKeyLine f value := by
    simp [entryKeyLine, h0, h0', show (0 : UInt8) ≠ ' '.toUInt8 by decide,
      show (0 : UInt8) ≠ '\n'.toUInt8 by decide]
  -- the scan for a space stops right after the key
  have hscan : ((entryKeyLine f value).drop 1).dropWhile (· ≠ ' '.toUInt8) =
      ' '.toUInt8 :: (value ++ ['\n'.toUInt8]) := by
    have hds : ∀ a ∈ ds, decide (a ≠ ' '.toUInt8) = true := fun a ha => by
      rw [hd] at hsp'
      simpa using ne_of_mem_of_not_mem ha (List.not_mem_of_not_mem_cons hsp')
    have hdrop : (entryKeyLine f value).drop 1 = ds ++ ' '.toUInt8 :: (value ++ ['\n'.toUInt8]) := by
      simp [entryKeyLine, hd]
    rw [hdrop, List.dropWhile_append_of_pos hds]
    simp
  have hvalue : (value ++ ['\n'.toUInt8]).dropWhile (· = ' '.toUInt8) =
      value ++ ['\n'.toUInt8] := by
    cases value with
    | nil => decide
    | cons c cs => simp_all
  have hnl : 0 ∉ value ++ ['\n'.toUInt8] := by
    simp [h0, show (0 : UInt8) ≠ '\n'.toUInt8 by decide]
  simp only [readEntryLine, cStr_of_not_mem hline, find?_key_entryKeyLine, hscan, hvalue,
    cStr_of_not_mem hnl]
  simp

theorem readEntryLine_of_not_isPrefixOf (result : SdbEntryField → List UInt8) {line : List UInt8}
    (h : ∀ f : SdbEntryField, f.key.isPrefixOf (cStr line) = false) :
    readEntryLine result line = .ok result := by
  have hnone : sdbEntryFields.find? (fun f => f.key.isPrefixOf (cStr line)) = none :=
    List.find?_eq_none.mpr fun f _ => by simp [h f]
  simp only [readEntryLine, hnone]

theorem prefix_cStr {p l : List UInt8} (h : p <+: l) (h0 : 0 ∉ p) : p <+: cStr l := by
  obtain ⟨t, rfl⟩ := h
  rw [cStr, List.takeWhile_append_of_pos fun a ha => by simpa using ne_of_mem_of_not_mem ha h0]
  exact List.prefix_append _ _

theorem entryKeyLineValue_entryKeyLine (f g : SdbEntryField) (value : List UInt8) :
    entryKeyLineValue g (entryKeyLine f value) = if g = f then some value else none := by
  by_cases hgf : g = f
  · subst hgf
    have hlast : (entryKeyLine g value).getLast? = some '\n'.toUInt8 := List.getLast?_concat _
    simp only [entryKeyLineValue, hlast]
    simp [entryKeyLine, List.isPrefixOf_iff_prefix]
  · have hkey : ¬g.key <+: entryKeyLine f value := by
      rw [← List.isPrefixOf_iff_prefix, isPrefixOf_key_entryKeyLine]
      simp [hgf]
    simp only [entryKeyLineValue, hgf, if_false, Bool.and_eq_true, List.isPrefixOf_iff_prefix]
    exact if_neg fun h => hkey ((List.prefix_append _ _).trans h.1)

theorem entryKeyLineValue_of_not_isPrefixOf {line : List UInt8}
    (h : ∀ f : SdbEntryField, f.key.isPrefixOf (cStr line) = false) (g : SdbEntryField) :
    entryKeyLineValue g line = none := by
  have hg := h g
  simp only [List.isPrefixOf_iff_prefix, Bool.eq_false_iff, ne_eq, decide_eq_true_eq] at hg
  simp only [entryKeyLineValue, Bool.and_eq_true, List.isPrefixOf_iff_prefix]
  exact if_neg fun hp => hg (prefix_cStr ((List.prefix_append _ _).trans hp.1) g.key_facts.2.2.2)

/-- The run of `read_entry` over lines that start with no key or read `key value\n`: each field
holds the values of its lines, each written over the start of the ones before. -/
theorem foldlM_readEntryLine (lines : List (List UInt8)) (h : ∀ line ∈ lines, EntryLine line)
    (result : SdbEntryField → List UInt8) :
    lines.foldlM readEntryLine result =
      .ok fun f => (lines.filterMap (entryKeyLineValue f)).foldl overwrite (result f) := by
  induction lines generalizing result with
  | nil => rfl
  | cons line lines ih =>
    have ih := ih fun l hl => h l (List.mem_cons_of_mem _ hl)
    rw [List.foldlM_cons]
    rcases h line (List.mem_cons_self _ _) with hkey | ⟨g, value, rfl, h0, hsp⟩
    · -- a line with no key changes nothing
      rw [readEntryLine_of_not_isPrefixOf result hkey]
      refine (ih result).trans (congrArg _ (funext fun f => ?_))
      rw [List.filterMap_cons_none (entryKeyLineValue_of_not_isPrefixOf hkey f)]
    · -- a key line writes its value into its own field only
      rw [readEntryLine_entryKeyLine result g h0 hsp]
      refine (ih _).trans (congrArg _ (funext fun f => ?_))
      by_cases hfg : f = g
      · subst hfg
        rw [List.filterMap_cons_some (show entryKeyLineValue f (entryKeyLine f value) = some value
          by simp [entryKeyLineValue_entryKeyLine]), List.foldl_cons,
          Function.update_same]
      · rw [List.filterMap_cons_none (by simp [entryKeyLineValue_entryKeyLine, hfg]),
          Function.update_noteq hfg]

/-- On a file of lines that start with no key or read `key value\n`, every field holds the values
of its lines, each written over the start of the ones before: a value shorter than an earlier one
keeps that one's tail. -/
theorem readEntry_of_entryLines {contents : List UInt8}
    (h : ∀ line ∈ fgetsLines contents, EntryLine line) :
    readEntry (some contents) =
      .ok fun f => ((fgetsLines contents).filterMap (entryKeyLineValue f)).foldl overwrite [] :=
  foldlM_readEntryLine _ h _

/-! ## Where the fields differ from the documented reading -/

/-- A later `version` line with a shorter value keeps the tail of the earlier value, a last line
without a newline loses its last byte, a line whose first word only starts with a key is read
as that key, and a tab after the key sends the scan for a space past the line's NUL. -/
theorem readEntry_diverges :
    (readEntry (some (cString "version 1.10\nversion 2.0\nlinux /vmlinuz"))).map
        (fun result => (result .version, result .image)) =
        .ok (cString "2.00", cString "/vmlinu") ∧
      (readEntrySpec (cString "version 1.10\nversion 2.0\nlinux /vmlinuz") .version,
        readEntrySpec (cString "version 1.10\nversion 2.0\nlinux /vmlinuz") .image) =
        (cString "2.0", cString "/vmlinuz") ∧
      (readEntry (some (cString "optionsX quiet\n"))).map (· .options) = .ok (cString "quiet") ∧
      readEntrySpec (cString "optionsX quiet\n") .options = [] ∧
      (readEntry (some (cString "version\t1.0\n"))).map (· .version) = .error .pastNul ∧
      readEntrySpec (cString "version\t1.0\n") .version = cString "1.0" :=
  ⟨rfl, rfl, rfl, rfl, rfl, rfl⟩

end PcrOracle
