import Mathlib.Data.List.Basic

/-!
# The grub commands measured into PCR 8

grub2 measures every command it runs into PCR 8 as an IPL event whose body is
`grub_cmd: <command>` or `kernel_cmdline: <command line>`, with a trailing NUL.
`__tpm_event_grub_command_event_parse` splits the body into its keyword and its argument and,
for `linux` and `initrd` commands and for the kernel command line, parses the file the command
names with `__grub_file_parse`. To predict PCR 8 for the next boot,
`__tpm_event_grub_command_rehash` rebuilds the command from the boot entry of the rehash
context: the kernel or initrd path of the entry replaces the path, the grub device is kept, and
the entry's options replace the arguments.

Strings are the characters of the C strings, before their NUL. The digest of the rebuilt string
is not modelled: the rehash returns the string `digest_compute` hashes.

## Main results

* `grubFileJoin_grubFileParse`: joining a parsed file gives back the text it was parsed from.
* `tpmEventGrubCommandEventParse_eq_some`: what the parser accepts, and what it keeps.
* `tpmEventGrubCommandRehash_of_parse`: what the rehash hashes, for every accepted body and
  every boot entry.
* `tpmEventGrubCommandRehash_linuxefi`: a `linuxefi` command is rehashed as `linux`.
-/

namespace PcrOracle

/-! ## Files on grub devices -/

/-- `grub_file_t`: a path, on a grub device such as `hd0,gpt1` or on the root device. -/
structure GrubFile where
  device : Option (List Char)
  path : List Char
  deriving DecidableEq, Repr

/-- `__grub_file_parse`: `/path` is on the root device, `(device)path` on `device`; anything
else, or a `(` with no `)`, is refused. -/
def grubFileParse (value : List Char) : Option GrubFile :=
  match value with
  | '/' :: _ => some ⟨none, value⟩
  | '(' :: rest =>
    match rest.dropWhile (· ≠ ')') with
    | ')' :: path => some ⟨some (rest.takeWhile (· ≠ ')')), path⟩
    | _ => none
  | _ => none

/-- `PATH_MAX` of Linux. -/
def pathMax : Nat := 4096

/-- `__grub_file_join`: `(device)path`, or `path`, printed into a static buffer of `PATH_MAX`
bytes, which `snprintf` cuts to `PATH_MAX - 1` characters. -/
def grubFileJoin (file : GrubFile) : List Char :=
  (match file.device with
    | none => file.path
    | some device => '(' :: device ++ ')' :: file.path).take (pathMax - 1)

theorem grubFileParse_eq_some_iff {value : List Char} {file : GrubFile} :
    grubFileParse value = some file ↔
      (∃ rest, value = '/' :: rest ∧ file = ⟨none, value⟩) ∨
      (∃ device path, ')' ∉ device ∧ value = '(' :: (device ++ ')' :: path) ∧
        file = ⟨some device, path⟩) := by
  constructor
  · intro h
    unfold grubFileParse at h
    split at h
    · exact .inl ⟨_, rfl, (Option.some.inj h).symm⟩
    · rename_i rest
      split at h
      · rename_i path hdrop
        refine .inr ⟨_, path, fun hm => ?_, ?_, (Option.some.inj h).symm⟩
        · simpa using List.mem_takeWhile_imp hm
        · rw [← hdrop, List.takeWhile_append_dropWhile]
      · cases h
    · cases h
  · rintro (⟨rest, rfl, rfl⟩ | ⟨device, path, hd, rfl, rfl⟩)
    · rfl
    · have hpos : ∀ c ∈ device, decide (c ≠ ')') = true := fun c hc => by
        simpa using fun h : c = ')' => hd (h ▸ hc)
      simp only [grubFileParse]
      rw [List.dropWhile_append_of_pos hpos, List.takeWhile_append_of_pos hpos]
      simp

/-- Joining a parsed file gives back the text it was parsed from, device included, when it fits
the buffer. -/
theorem grubFileJoin_grubFileParse {value : List Char} {file : GrubFile}
    (h : grubFileParse value = some file) (hlen : value.length < pathMax) :
    grubFileJoin file = value := by
  rcases grubFileParse_eq_some_iff.mp h with ⟨rest, rfl, rfl⟩ | ⟨device, path, -, rfl, rfl⟩
  · exact List.take_of_length_le (by simp at hlen ⊢; omega)
  · exact List.take_of_length_le (by simp at hlen ⊢; omega)

/-! ## The command events -/

/-- The kinds of grub command event. -/
inductive GrubEventSubtype
  | command
  | commandLinux
  | commandInitrd
  | kernelCmdline
  deriving DecidableEq, Repr

/-- `parsed->grub_command`: the kind of event, `string`, the argument after `K: `, and `file`,
the file it names if it is a `linux` or `initrd` command or the kernel command line. `argv`, the
argument split at blanks, is read by no function modelled here. -/
structure GrubCommand where
  subtype : GrubEventSubtype
  string : List Char
  file : Option GrubFile
  deriving DecidableEq, Repr

/-- The characters of the keyword: letters and `_`. -/
def isKeywordChar (c : Char) : Bool := c.isAlpha || c == '_'

/-- The file a `grub_cmd` names: the text after its first space, if it has one. `none` is a
file that `__grub_file_parse` refuses (`goto failed`), `some none` no file. -/
def grubCommandFile (arg : List Char) : Option (Option GrubFile) :=
  match arg.dropWhile (· ≠ ' ') with
  | ' ' :: rest => (grubFileParse rest).map some
  | _ => some none

/-- `__tpm_event_grub_command_event_parse` of the body `value`: the keyword is the run of
letters and `_`, followed by `: `; `grub_cmd` commands that start with `linux` or `initrd`
and the `kernel_cmdline` name a file. -/
def tpmEventGrubCommandEventParse (value : List Char) : Option GrubCommand :=
  let keyword := value.takeWhile isKeywordChar
  match value.dropWhile isKeywordChar with
  | ':' :: ' ' :: arg =>
    if keyword = "grub_cmd".toList ∧ "linux".toList.isPrefixOf arg then
      (grubCommandFile arg).map fun file => ⟨.commandLinux, arg, file⟩
    else if keyword = "grub_cmd".toList ∧ "initrd".toList.isPrefixOf arg then
      (grubCommandFile arg).map fun file => ⟨.commandInitrd, arg, file⟩
    else if keyword = "grub_cmd".toList then some ⟨.command, arg, none⟩
    else if keyword = "kernel_cmdline".toList then
      (grubFileParse arg).map fun file => ⟨.kernelCmdline, arg, some file⟩
    else none
  | _ => none

/-- The fields of `ctx->boot_entry` the rehash reads. -/
structure BootEntry where
  imagePath : List Char
  initrdPath : List Char
  options : List Char
  deriving DecidableEq, Repr

/-- `__tpm_event_grub_command_rehash`: the string it hashes. With a boot entry and a file,
`linux` and `initrd` commands become `linux <file> <options>` and `initrd <file>`, and the
kernel command line `<file> <options>`, the file being the entry's kernel or initrd on the
command's device; otherwise the command's own string. -/
def tpmEventGrubCommandRehash (cmd : GrubCommand) (bootEntry : Option BootEntry) : List Char :=
  match cmd.subtype, bootEntry, cmd.file with
  | .commandLinux, some entry, some file =>
    "linux ".toList ++ grubFileJoin ⟨file.device, entry.imagePath⟩ ++ ' ' :: entry.options
  | .commandInitrd, some entry, some file =>
    "initrd ".toList ++ grubFileJoin ⟨file.device, entry.initrdPath⟩
  | .kernelCmdline, some entry, some file =>
    grubFileJoin ⟨file.device, entry.imagePath⟩ ++ ' ' :: entry.options
  | _, _, _ => cmd.string

/-! ## What the parser keeps and what the rehash hashes -/

/-- A `grub_cmd` that names a file has a first word, a space, and the file's text. -/
theorem grubCommandFile_eq_some_some {arg : List Char} {file : GrubFile}
    (h : grubCommandFile arg = some (some file)) :
    ∃ word path, arg = word ++ ' ' :: path ∧ ' ' ∉ word ∧ grubFileParse path = some file := by
  unfold grubCommandFile at h
  split at h
  · rename_i rest hdrop
    obtain ⟨file', hfile, hsome⟩ := Option.map_eq_some'.mp h
    cases hsome
    exact ⟨_, rest, by rw [← hdrop, List.takeWhile_append_dropWhile],
      fun hm => by simpa using List.mem_takeWhile_imp hm, hfile⟩
  · cases h

/-- What `__tpm_event_grub_command_event_parse` accepts: a keyword of letters and `_`, `: `, and
the argument, which it keeps as the command's string. A `grub_cmd` that starts with `linux` or
`initrd` names the file after its first space, if it has one; the kernel command line names
the file it starts with. -/
theorem tpmEventGrubCommandEventParse_eq_some {value : List Char} {cmd : GrubCommand}
    (h : tpmEventGrubCommandEventParse value = some cmd) :
    ∃ keyword, value = keyword ++ ':' :: ' ' :: cmd.string ∧
      (keyword = "grub_cmd".toList ∧ "linux".toList <+: cmd.string ∧
          cmd.subtype = .commandLinux ∧ grubCommandFile cmd.string = some cmd.file ∨
        keyword = "grub_cmd".toList ∧ "initrd".toList <+: cmd.string ∧
          cmd.subtype = .commandInitrd ∧ grubCommandFile cmd.string = some cmd.file ∨
        keyword = "grub_cmd".toList ∧ cmd.subtype = .command ∧ cmd.file = none ∨
        keyword = "kernel_cmdline".toList ∧ cmd.subtype = .kernelCmdline ∧
          ∃ file, grubFileParse cmd.string = some file ∧ cmd.file = some file) := by
  unfold tpmEventGrubCommandEventParse at h
  dsimp only at h
  split at h
  · rename_i arg hdrop
    have hvalue : value = value.takeWhile isKeywordChar ++ ':' :: ' ' :: arg := by
      rw [← hdrop, List.takeWhile_append_dropWhile]
    split_ifs at h with h₁ h₂ h₃ h₄
    · obtain ⟨file, hfile, rfl⟩ := Option.map_eq_some'.mp h
      exact ⟨_, hvalue, .inl ⟨h₁.1, List.isPrefixOf_iff_prefix.mp h₁.2, rfl, hfile⟩⟩
    · obtain ⟨file, hfile, rfl⟩ := Option.map_eq_some'.mp h
      exact ⟨_, hvalue, .inr (.inl ⟨h₂.1, List.isPrefixOf_iff_prefix.mp h₂.2, rfl, hfile⟩)⟩
    · cases h
      exact ⟨_, hvalue, .inr (.inr (.inl ⟨h₃, rfl, rfl⟩))⟩
    · obtain ⟨file, hfile, rfl⟩ := Option.map_eq_some'.mp h
      exact ⟨_, hvalue, .inr (.inr (.inr ⟨h₄, rfl, file, hfile, rfl⟩))⟩
  · cases h

/-- For every body `K: s` the parser accepts and every boot entry: without a boot entry or a
file, the rehash hashes `s`. Otherwise a `grub_cmd` starting with `linux` (`linux`, `linuxefi`,
`linux16`, ...) is hashed as `linux (dev)<image_path> <options>` and one starting with `initrd`
as `initrd (dev)<initrd_path>`, whatever its first word and whatever follows its first path;
the kernel command line is hashed as `(dev)<image_path> <options>`. `(dev)` is the device of
the command's file, as `grubFileJoin_grubFileParse` shows. -/
theorem tpmEventGrubCommandRehash_of_parse {value : List Char} {cmd : GrubCommand}
    (h : tpmEventGrubCommandEventParse value = some cmd) (bootEntry : Option BootEntry) :
    ∃ keyword, value = keyword ++ ':' :: ' ' :: cmd.string ∧
      ((bootEntry = none ∨ cmd.file = none) →
        tpmEventGrubCommandRehash cmd bootEntry = cmd.string) ∧
      ∀ entry file, bootEntry = some entry → cmd.file = some file →
        (keyword = "grub_cmd".toList ∧ "linux".toList <+: cmd.string ∧
          (∃ word path, cmd.string = word ++ ' ' :: path ∧ ' ' ∉ word ∧
            grubFileParse path = some file) ∧
          tpmEventGrubCommandRehash cmd bootEntry = "linux ".toList ++
            grubFileJoin ⟨file.device, entry.imagePath⟩ ++ ' ' :: entry.options) ∨
        (keyword = "grub_cmd".toList ∧ "initrd".toList <+: cmd.string ∧
          (∃ word path, cmd.string = word ++ ' ' :: path ∧ ' ' ∉ word ∧
            grubFileParse path = some file) ∧
          tpmEventGrubCommandRehash cmd bootEntry =
            "initrd ".toList ++ grubFileJoin ⟨file.device, entry.initrdPath⟩) ∨
        (keyword = "kernel_cmdline".toList ∧ grubFileParse cmd.string = some file ∧
          tpmEventGrubCommandRehash cmd bootEntry =
            grubFileJoin ⟨file.device, entry.imagePath⟩ ++ ' ' :: entry.options) := by
  obtain ⟨keyword, hvalue, hcases⟩ := tpmEventGrubCommandEventParse_eq_some h
  rcases cmd with ⟨subtype, string, cmdFile⟩
  dsimp only at hvalue hcases ⊢
  refine ⟨keyword, hvalue, fun hnone => ?_, fun entry file hentry hfile => ?_⟩
  · rcases hnone with rfl | rfl <;> cases subtype <;> (try cases bootEntry) <;> rfl
  · subst hentry hfile
    rcases hcases with ⟨hk, hpre, rfl, hf⟩ | ⟨hk, hpre, rfl, hf⟩ | ⟨-, -, hf⟩ | ⟨hk, rfl, f, hf, hf'⟩
    · exact .inl ⟨hk, hpre, grubCommandFile_eq_some_some hf, rfl⟩
    · exact .inr (.inl ⟨hk, hpre, grubCommandFile_eq_some_some hf, rfl⟩)
    · cases hf
    · cases hf'
      exact .inr (.inr ⟨hk, hf, rfl⟩)

/-- The PCR 8 body of the kernel command line of the spec's rehash scenario, with a boot entry
for `/vmlinuz-new`. -/
theorem tpmEventGrubCommandRehash_kernel_cmdline :
    tpmEventGrubCommandRehash
        ⟨.kernelCmdline, "(hd0,gpt1)/vmlinuz-old ro quiet".toList,
          some ⟨some "hd0,gpt1".toList, "/vmlinuz-old ro quiet".toList⟩⟩
        (some ⟨"/vmlinuz-new".toList, "/initrd-new".toList, "ro debug".toList⟩) =
      "(hd0,gpt1)/vmlinuz-new ro debug".toList := by
  obtain ⟨keyword, hvalue, -, hentry⟩ := @tpmEventGrubCommandRehash_of_parse
    "kernel_cmdline: (hd0,gpt1)/vmlinuz-old ro quiet".toList
    ⟨.kernelCmdline, "(hd0,gpt1)/vmlinuz-old ro quiet".toList,
      some ⟨some "hd0,gpt1".toList, "/vmlinuz-old ro quiet".toList⟩⟩ (by decide)
    (some ⟨"/vmlinuz-new".toList, "/initrd-new".toList, "ro debug".toList⟩)
  rcases hentry _ _ rfl rfl with ⟨rfl, -⟩ | ⟨rfl, -⟩ | ⟨-, -, h⟩
  · exact absurd hvalue (by decide)
  · exact absurd hvalue (by decide)
  · rw [h]
    decide

/-- `grub_cmd: linuxefi /vmlinuz ro` is parsed as a `linux` command and rehashed as
`linux /vmlinuz-new ro debug`: the command word is not kept. `grub_cmd: initrd /initrd-1
/initrd-2` is rehashed as `initrd /initrd-new`: the second initrd is dropped. -/
theorem tpmEventGrubCommandRehash_linuxefi :
    tpmEventGrubCommandEventParse "grub_cmd: linuxefi /vmlinuz ro".toList =
      some ⟨.commandLinux, "linuxefi /vmlinuz ro".toList, some ⟨none, "/vmlinuz ro".toList⟩⟩ ∧
    tpmEventGrubCommandRehash
        ⟨.commandLinux, "linuxefi /vmlinuz ro".toList, some ⟨none, "/vmlinuz ro".toList⟩⟩
        (some ⟨"/vmlinuz-new".toList, "/initrd-new".toList, "ro debug".toList⟩) =
      "linux /vmlinuz-new ro debug".toList ∧
    tpmEventGrubCommandEventParse "grub_cmd: initrd /initrd-1 /initrd-2".toList =
      some ⟨.commandInitrd, "initrd /initrd-1 /initrd-2".toList,
        some ⟨none, "/initrd-1 /initrd-2".toList⟩⟩ ∧
    tpmEventGrubCommandRehash
        ⟨.commandInitrd, "initrd /initrd-1 /initrd-2".toList,
          some ⟨none, "/initrd-1 /initrd-2".toList⟩⟩
        (some ⟨"/vmlinuz-new".toList, "/initrd-new".toList, "ro debug".toList⟩) =
      "initrd /initrd-new".toList := by
  decide

end PcrOracle
