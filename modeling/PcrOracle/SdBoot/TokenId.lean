import PcrOracle.EventLog.Grub
import PcrOracle.SdBoot.EntryFile

/-!
# The token id of the installation

`get_token_id` of `sd-boot.c` names the directory of `/boot/efi` that holds this installation's
kernels, and the prefix of its boot loader entries. It reads `/etc/kernel/entry-token`, the `ID`
and `IMAGE_ID` values of `/etc/os-release` and `/etc/machine-id`, each into a static buffer of the
function that reads it, and returns a pointer into one of those buffers.

`read_os_release` has one buffer for both keys, so the pointers it returns for `ID` and for
`IMAGE_ID` are the same pointer, and once both have been read it holds the `IMAGE_ID` value. A
line of the right key whose value is refused still writes the bytes read so far. The model keeps
each static buffer as its bytes, and a returned pointer as the buffer it points at.

## Main results

* `getTokenId_of_entryToken_none`: without an entry token, the result is the `os-release`
  buffer as the `IMAGE_ID` lookup left it, if `ID` was found and its directory exists, and
  otherwise the machine id if its directory exists.
* `getTokenId_ne_imageId`: an `IMAGE_ID` is never chosen on its own.
* `getTokenId_diverges`: two installations for which `get_token_id` gives no token where the
  documented order gives one.
-/

namespace PcrOracle

/-! ## Files and static buffers -/

/-- The files `get_token_id` reads, `none` when `fopen` fails, and whether `opendir` opens a
path. -/
structure SdBootFiles where
  entryToken : Option (List UInt8)
  osRelease : Option (List UInt8)
  machineId : Option (List UInt8)
  isDir : List UInt8 → Bool

/-- The static `id` buffers of `read_entry_token`, `read_os_release` and `read_machine_id`, as
their bytes: they keep them from one call to the next. -/
structure SdBootStatics where
  entryTokenId : List UInt8
  osReleaseId : List UInt8
  machineId : List UInt8
  deriving DecidableEq, Repr

/-- The buffers as the program starts, cleared. -/
def SdBootStatics.init : SdBootStatics := ⟨[], [], []⟩

/-- The static buffer a pointer returned by one of the readers points at. -/
inductive SdBootStatic
  | entryToken
  | osRelease
  | machineId
  deriving DecidableEq, Repr

/-- The string a pointer into the static buffers points at. -/
def SdBootStatics.read (st : SdBootStatics) : SdBootStatic → List UInt8
  | .entryToken => cStr st.entryTokenId
  | .osRelease => cStr st.osReleaseId
  | .machineId => cStr st.machineId

/-! ## The readers -/

/-- `if (fgets(id, SDB_LINE_MAX, fp)) id[strcspn(id, "\n")] = 0;` on an opened file: the first
line with its NUL written over the buffer, then a NUL over its newline. An empty file leaves the
buffer as it was. -/
def readFirstLine (file : Option (List UInt8)) (id : List UInt8) : Bool × List UInt8 :=
  match file with
  | none => (false, id)
  | some contents =>
    match fgetsLines contents with
    | [] => (true, id)
    | line :: _ =>
      let id := overwrite id (line ++ [0])
      (true, overwrite id ((cStr id).takeWhile (· ≠ '\n'.toUInt8) ++ [0]))

/-- `read_entry_token`: whether it returns its buffer, and the buffer. -/
def readEntryToken (file : Option (List UInt8)) (id : List UInt8) : Bool × List UInt8 :=
  readFirstLine file id

/-- `read_machine_id`: whether it returns its buffer, and the buffer. -/
def readMachineId (file : Option (List UInt8)) (id : List UInt8) : Bool × List UInt8 :=
  readFirstLine file id

/-- One line of the loop of `read_os_release`: `KEY`, blanks, `=`, blanks, and a value in double
quotes, copied byte by byte into the 128-byte buffer. Whether the line gives the value, and the
buffer after the bytes written: a line refused in the copy loop, for a missing closing quote or
a value of 128 bytes or more, keeps the bytes it wrote. -/
def readOsReleaseLine (key line id : List UInt8) : Bool × List UInt8 :=
  let line := cStr line
  if !key.isPrefixOf line then (false, id)
  else
    match (line.drop key.length).dropWhile isspace with
    | [] => (false, id)
    | c :: rest =>
      if c ≠ '='.toUInt8 then (false, id)
      else
        match rest.dropWhile isspace with
        | [] => (false, id)
        | q :: rest =>
          if q ≠ '"'.toUInt8 then (false, id)
          else
            let value := rest.takeWhile (· ≠ '"'.toUInt8)
            if value.length < rest.length ∧ value.length < 128 then
              (true, overwrite id (value ++ [0]))
            else (false, overwrite id (value.take 127))

/-- The `fgets` loop of `read_os_release`, up to the first line that gives the value. -/
def readOsReleaseLines (key : List UInt8) : List (List UInt8) → List UInt8 → Bool × List UInt8
  | [], id => (false, id)
  | line :: lines, id =>
    match readOsReleaseLine key line id with
    | (true, id) => (true, id)
    | (false, id) => readOsReleaseLines key lines id

/-- `read_os_release(key)`: whether it returns its buffer, and the buffer. -/
def readOsRelease (file : Option (List UInt8)) (key id : List UInt8) : Bool × List UInt8 :=
  match file with
  | none => (false, id)
  | some contents => readOsReleaseLines key (fgetsLines contents) id

/-- `exists_efi_dir`: `false` for `NULL`, otherwise whether `/boot/efi/<path>`, as `snprintf`
cuts it to `PATH_MAX - 1` bytes, opens as a directory. -/
def existsEfiDir (isDir : List UInt8 → Bool) (path : Option (List UInt8)) : Bool :=
  match path with
  | none => false
  | some path => isDir ((cString "/boot/efi/" ++ path).take (pathMax - 1))

@[simp]
theorem existsEfiDir_none (isDir : List UInt8 → Bool) : existsEfiDir isDir none = false := rfl

/-- `get_token_id`: the string the returned pointer points at, `none` for `NULL`, and the static
buffers after the call. The `IMAGE_ID` branch assigns `id`, as the source does. -/
def getTokenId (files : SdBootFiles) (st : SdBootStatics) :
    Option (List UInt8) × SdBootStatics :=
  let (tokenFound, entryTokenId) := readEntryToken files.entryToken st.entryTokenId
  let (idFound, osReleaseId) := readOsRelease files.osRelease (cString "ID") st.osReleaseId
  let (imageIdFound, osReleaseId) := readOsRelease files.osRelease (cString "IMAGE_ID") osReleaseId
  let (machineIdFound, machineId) := readMachineId files.machineId st.machineId
  let st : SdBootStatics := ⟨entryTokenId, osReleaseId, machineId⟩
  if !machineIdFound then (none, st)
  else
    let tokenId := if tokenFound then some SdBootStatic.entryToken else none
    let id := if idFound then some SdBootStatic.osRelease else none
    let imageId := if imageIdFound then some SdBootStatic.osRelease else none
    let tokenId :=
      if tokenId.isNone && existsEfiDir files.isDir (id.map st.read) then id else tokenId
    let tokenId :=
      if tokenId.isNone && existsEfiDir files.isDir (imageId.map st.read) then id else tokenId
    let tokenId :=
      if tokenId.isNone && existsEfiDir files.isDir (some (st.read .machineId)) then
        some SdBootStatic.machineId
      else tokenId
    (tokenId.map st.read, st)

/-- The token id as documented, to compare `get_token_id` with: the first line of
`/etc/kernel/entry-token` if it can be read, otherwise the first of the `ID` value, the
`IMAGE_ID` value (each as `read_os_release` reads it on its own) and the machine id whose
`/boot/efi/<value>` directory exists. -/
def getTokenIdSpec (files : SdBootFiles) : Option (List UInt8) :=
  match files.entryToken with
  | some contents => some (cStr (readEntryToken (some contents) []).2)
  | none =>
    let value := fun key =>
      let (found, id) := readOsRelease files.osRelease key []
      if found then some (cStr id) else none
    let candidates := [value (cString "ID"), value (cString "IMAGE_ID"),
      some (cStr (readMachineId files.machineId []).2)]
    (candidates.find? (existsEfiDir files.isDir)).join

/-! ## What `get_token_id` returns -/

theorem readFirstLine_some_fst (contents id : List UInt8) :
    (readFirstLine (some contents) id).1 = true := by
  simp only [readFirstLine]
  split <;> rfl

/-- Without an entry token, and with a machine id: `id` and `image_id` both point at the
`os-release` buffer, which holds what the `IMAGE_ID` lookup left there, so the first test reads
that buffer, the second assigns `id` (`NULL` if `ID` was not found), and only the machine id
is left. -/
theorem getTokenId_of_entryToken_none {files : SdBootFiles} (st : SdBootStatics)
    (htoken : files.entryToken = none) {m : List UInt8} (hmachine : files.machineId = some m)
    {idFound imageIdFound : Bool} {idBuf imageIdBuf : List UInt8}
    (hid : readOsRelease files.osRelease (cString "ID") st.osReleaseId = (idFound, idBuf))
    (himage : readOsRelease files.osRelease (cString "IMAGE_ID") idBuf =
      (imageIdFound, imageIdBuf)) :
    (getTokenId files st).1 =
      if idFound && existsEfiDir files.isDir (some (cStr imageIdBuf)) then some (cStr imageIdBuf)
      else if existsEfiDir files.isDir (some (cStr (readMachineId (some m) st.machineId).2)) then
        some (cStr (readMachineId (some m) st.machineId).2)
      else none := by
  have ht : readEntryToken files.entryToken st.entryTokenId = (false, st.entryTokenId) := by
    rw [htoken]
    rfl
  have hm : (readMachineId (some m) st.machineId).1 = true := readFirstLine_some_fst m st.machineId
  simp only [getTokenId, ht, hid, himage, hmachine]
  generalize readMachineId (some m) st.machineId = machine at hm ⊢
  obtain ⟨found, machineBuf⟩ := machine
  obtain rfl : found = true := hm
  cases idFound <;> cases imageIdFound <;>
    by_cases hb : existsEfiDir files.isDir (some (cStr imageIdBuf)) <;>
    by_cases hmb : existsEfiDir files.isDir (some (cStr machineBuf)) <;>
    simp [hb, hmb, SdBootStatics.read]

/-- Without an entry token, an `IMAGE_ID` is never the token on its own: with no `ID` line the
result is the machine id or `NULL`. -/
theorem getTokenId_ne_imageId {files : SdBootFiles} (st : SdBootStatics)
    (htoken : files.entryToken = none) {m : List UInt8} (hmachine : files.machineId = some m)
    {idBuf : List UInt8}
    (hid : readOsRelease files.osRelease (cString "ID") st.osReleaseId = (false, idBuf)) :
    (getTokenId files st).1 = none ∨
      (getTokenId files st).1 = some (cStr (readMachineId (some m) st.machineId).2) := by
  rw [getTokenId_of_entryToken_none st htoken hmachine hid rfl, Bool.false_and, if_neg (by simp)]
  split_ifs <;> simp

/-! ## Where the token differs from the documented order -/

/-- With no entry token and the machine id `mid`: an `os-release` with only `IMAGE_ID="img"`
and a directory `/boot/efi/img` gives `NULL`, the `IMAGE_ID` branch assigning the `NULL` of
`id`; an `os-release` with `ID="a"` and `IMAGE_ID="b"` and a directory `/boot/efi/a` gives
`NULL` as well, both tests reading the `b` that the `IMAGE_ID` lookup left in the shared
buffer. The documented order gives `img` and `a`. -/
theorem getTokenId_diverges :
    (getTokenId ⟨none, some (cString "IMAGE_ID=\"img\"\n"), some (cString "mid\n"),
      fun path => path == cString "/boot/efi/img"⟩ SdBootStatics.init).1 = none ∧
    getTokenIdSpec ⟨none, some (cString "IMAGE_ID=\"img\"\n"), some (cString "mid\n"),
      fun path => path == cString "/boot/efi/img"⟩ = some (cString "img") ∧
    (getTokenId ⟨none, some (cString "ID=\"a\"\nIMAGE_ID=\"b\"\n"), some (cString "mid\n"),
      fun path => path == cString "/boot/efi/a"⟩ SdBootStatics.init).1 = none ∧
    getTokenIdSpec ⟨none, some (cString "ID=\"a\"\nIMAGE_ID=\"b\"\n"), some (cString "mid\n"),
      fun path => path == cString "/boot/efi/a"⟩ = some (cString "a") :=
  ⟨rfl, rfl, rfl, rfl⟩

end PcrOracle
