import Mathlib.Algebra.BigOperators.Group.List
import PcrOracle.EventLog.Grub
import PcrOracle.EventLog.Records

/-!
# The systemd events of PCR 12

systemd-boot measures the kernel command line into PCR 12 as an IPL event whose body is the
command line in UTF-16LE with its NUL. `__tpm_event_parse_ipl` sends the body of an IPL event
to the parser of its PCR, and `__tpm_event_systemd_event_parse` keeps a copy of a PCR-12 body
and its length. `__tpm_event_systemd_describe` converts the body back into the stack array
`char data[768]`: it takes `len` as half the body's length, clamps it to `sizeof(data)`, lets
`__convert_from_utf16le` write at most `len` bytes, and writes the terminating NUL at
`data[len]`.

The clamp lets `len` reach `sizeof(data)`, so for a body of 1536 bytes or more the NUL lands
at `data[768]`, one past the array. The reader accepts bodies up to 1 MiB, and a body of 1536
bytes is a command line of 767 characters.

`__convert_from_utf16le` (`util.c`) is not among the sources: the writes are stated for every
conversion that writes at most the capacity it is given.

## Main results

* `tpmEventParseIpl_eq_systemd`: the IPL events parsed as systemd events.
* `writesWithin_tpmEventSystemdDescribeWrites_iff`: the writes stay in `data` exactly when the
  body is shorter than 1536 bytes.
* `tpmEventSystemdDescribe_writes`: the same for the events the IPL parser accepts, with the
  write at `data[768]` past that length.
-/

namespace PcrOracle

/-! ## Parsing -/

/-- `TPM2_EVENT_IPL`. -/
def tpm2EventIpl : Nat := 0x0000000D

/-- `struct systemd_event`: the body of the event, UTF-16LE, and its length. -/
structure SystemdEvent where
  len : Nat
  string : List UInt8
  deriving DecidableEq, Repr

/-- `__tpm_event_systemd_event_parse`: a copy of the `len` bytes of the body. -/
def tpmEventSystemdEventParse (value : List UInt8) (len : Nat) : SystemdEvent :=
  ⟨len, value.take len⟩

/-- What `__tpm_event_parse_ipl` makes of an IPL event. -/
inductive IplEvent
  /-- An empty body, or one that starts with a NUL: `EVENT_STRATEGY_COPY`, nothing parsed. -/
  | copy
  | grubCommand (cmd : GrubCommand)
  | grubFile (file : GrubFile)
  | systemd (ev : SystemdEvent)
  /-- The run-time name of the EFI variable a shim event names. -/
  | shim (efiVariable : List Char)
  deriving DecidableEq, Repr

/-- The characters of the C string at the start of a body. -/
def cChars (value : List UInt8) : List Char :=
  (value.takeWhile (· ≠ 0)).map fun b => Char.ofNat b.toNat

/-- `__tpm_event_parse_ipl`; `none` is `return false`. A body other than an empty one must end
with a NUL. PCR 14 goes to `__tpm_event_shim_event_parse`, which keeps the name
`shim_variable_get_full_rtname` (`shim.c`, not among the sources) gives the value, and refuses a
value it has no name for. -/
def tpmEventParseIpl (shimVariableGetFullRtname : List Char → Option (List Char))
    (ev : TpmEvent) : Option IplEvent :=
  let value := ev.eventData
  let len := value.length
  if len = 0 ∨ value.head? = some 0 then some .copy
  else if value.getLast? ≠ some 0 then none
  else if ev.pcrIndex = 8 then (tpmEventGrubCommandEventParse (cChars value)).map .grubCommand
  else if ev.pcrIndex = 9 then (grubFileParse (cChars value)).map .grubFile
  else if ev.pcrIndex = 12 then some (.systemd (tpmEventSystemdEventParse value len))
  else if ev.pcrIndex = 14 then (shimVariableGetFullRtname (cChars value)).map .shim
  else none

/-- The IPL events parsed as systemd events: the PCR-12 events whose body does not start with
a NUL and ends with one. The event keeps the whole body. -/
theorem tpmEventParseIpl_eq_systemd (shimVariableGetFullRtname : List Char → Option (List Char))
    (ev : TpmEvent) (sev : SystemdEvent) :
    tpmEventParseIpl shimVariableGetFullRtname ev = some (.systemd sev) ↔
      ev.pcrIndex = 12 ∧ ev.eventData ≠ [] ∧ ev.eventData.head? ≠ some 0 ∧
        ev.eventData.getLast? = some 0 ∧ sev = ⟨ev.eventData.length, ev.eventData⟩ := by
  unfold tpmEventParseIpl tpmEventSystemdEventParse
  dsimp only
  by_cases hcopy : ev.eventData.length = 0 ∨ ev.eventData.head? = some 0
  · rw [if_pos hcopy]
    have : ¬(ev.eventData ≠ [] ∧ ev.eventData.head? ≠ some 0) := by
      rintro ⟨hne, hhead⟩
      exact hcopy.elim (fun h => hne (List.eq_nil_of_length_eq_zero h)) hhead
    simp only [Option.some.injEq, reduceCtorEq, false_iff]
    tauto
  rw [if_neg hcopy]
  have hne : ev.eventData ≠ [] := fun h => hcopy (.inl (by simp [h]))
  have hhead : ev.eventData.head? ≠ some 0 := fun h => hcopy (.inr h)
  by_cases hlast : ev.eventData.getLast? = some 0
  · rw [if_neg (not_not.mpr hlast)]
    by_cases h8 : ev.pcrIndex = 8
    · simp [h8, Option.map_eq_some']
    by_cases h9 : ev.pcrIndex = 9
    · simp [h9, Option.map_eq_some']
    by_cases h12 : ev.pcrIndex = 12
    · simp [h12, hne, hhead, hlast, eq_comm]
    by_cases h14 : ev.pcrIndex = 14
    · simp [h14, Option.map_eq_some']
    simp [h8, h9, h12, h14]
  · rw [if_pos hlast]
    simp [hlast]

/-! ## Describing -/

/-- `sizeof(data)` in `__tpm_event_systemd_describe`. -/
def systemdDescribeDataSize : Nat := 768

/-- `__convert_from_utf16le` (`util.c`, not among the sources): a conversion of UTF-16LE bytes
that writes at most `outBytes` bytes from the start of its output. -/
structure Utf16Converter where
  /-- The bytes written for an input and a capacity. -/
  convert : List UInt8 → Nat → List UInt8
  length_convert_le : ∀ input outBytes, (convert input outBytes).length ≤ outBytes

/-- The writes of `__tpm_event_systemd_describe` into `data`, in order, as (index, byte): the
bytes `__convert_from_utf16le` writes, then the NUL at `data[len]`, where `len` is half the
body's length clamped to `sizeof(data)`. -/
def tpmEventSystemdDescribeWrites (conv : Utf16Converter) (ev : SystemdEvent) :
    List (Nat × UInt8) :=
  let len := ev.len >>> 1
  let len := if len > systemdDescribeDataSize then systemdDescribeDataSize else len
  (conv.convert ev.string len).enum ++ [(len, 0)]

/-- Every write lands in an array of `size` bytes. -/
def WritesWithin (size : Nat) (writes : List (Nat × UInt8)) : Prop := ∀ w ∈ writes, w.1 < size

instance (size : Nat) (writes : List (Nat × UInt8)) : Decidable (WritesWithin size writes) :=
  inferInstanceAs (Decidable (∀ w ∈ writes, w.1 < size))

/-- Whatever the conversion writes, the writes stay in `data` exactly when the body is shorter
than 1536 bytes: the conversion stays below the capacity, which is at most `sizeof(data)`, and
the NUL lands at half the body's length, clamped to `sizeof(data)`. -/
theorem writesWithin_tpmEventSystemdDescribeWrites_iff (conv : Utf16Converter)
    (ev : SystemdEvent) :
    WritesWithin systemdDescribeDataSize (tpmEventSystemdDescribeWrites conv ev) ↔
      ev.len < 1536 := by
  have hshift : ev.len >>> 1 = ev.len / 2 := Nat.shiftRight_eq_div_pow _ 1
  unfold WritesWithin tpmEventSystemdDescribeWrites systemdDescribeDataSize
  dsimp only
  rw [hshift]
  set len := if ev.len / 2 > 768 then 768 else ev.len / 2 with hlen
  have hconv : ∀ w ∈ (conv.convert ev.string len).enum, w.1 < 768 := fun w hw =>
    (List.fst_lt_of_mem_enum hw).trans_le
      ((conv.length_convert_le _ _).trans (by rw [hlen]; split_ifs <;> omega))
  simp only [List.mem_append, List.mem_singleton]
  constructor
  · intro h
    have := h _ (.inr rfl)
    rw [hlen] at this
    split_ifs at this <;> omega
  · rintro h w (hw | rfl)
    · exact hconv w hw
    · rw [hlen]
      split_ifs <;> omega

/-- For every conversion, and every event `__tpm_event_parse_ipl` parses as a systemd event:
the event keeps the body's length, the writes of `__tpm_event_systemd_describe` stay in `data`
exactly when the body is shorter than 1536 bytes, and from 1536 bytes on the NUL is written at
`data[768]`, past the array. -/
theorem tpmEventSystemdDescribe_writes (conv : Utf16Converter)
    (shimVariableGetFullRtname : List Char → Option (List Char)) (ev : TpmEvent)
    (sev : SystemdEvent) (hparse : tpmEventParseIpl shimVariableGetFullRtname ev = some (.systemd sev)) :
    sev.len = ev.eventData.length ∧
    (WritesWithin systemdDescribeDataSize (tpmEventSystemdDescribeWrites conv sev) ↔
      ev.eventData.length < 1536) ∧
    (1536 ≤ ev.eventData.length →
      (systemdDescribeDataSize, 0) ∈ tpmEventSystemdDescribeWrites conv sev) := by
  obtain ⟨-, -, -, -, rfl⟩ := (tpmEventParseIpl_eq_systemd _ ev sev).mp hparse
  refine ⟨rfl, writesWithin_tpmEventSystemdDescribeWrites_iff conv _, fun h => ?_⟩
  have hshift : ev.eventData.length >>> 1 = ev.eventData.length / 2 :=
    Nat.shiftRight_eq_div_pow _ 1
  simp only [tpmEventSystemdDescribeWrites, List.mem_append, List.mem_singleton, Prod.mk.injEq,
    and_true, hshift, systemdDescribeDataSize]
  refine .inr ?_
  split_ifs <;> omega

/-- A conversion of UTF-16LE text below U+0080: one byte per code unit, up to the capacity. -/
def asciiFromUtf16le : Utf16Converter where
  convert input outBytes :=
    ((List.range (input.length / 2)).map fun i => input.getD (2 * i) 0).take outBytes
  length_convert_le _ _ := List.length_take_le _ _

/-- A PCR-12 IPL event whose body is a command line of 767 characters `A` and its NUL, in
UTF-16LE. -/
def longCmdlineEvent : TpmEvent :=
  ⟨0, 12, tpm2EventIpl, 0, [], (List.replicate 767 [0x41, 0]).flatten ++ [0, 0]⟩

/-- The systemd event `__tpm_event_systemd_event_parse` makes of it. -/
def longCmdlineSystemdEvent : SystemdEvent :=
  ⟨longCmdlineEvent.eventData.length, longCmdlineEvent.eventData⟩

/-- The body of `longCmdlineEvent` has 1536 bytes, well under the 1 MiB the reader accepts; it
is parsed as a systemd event, and describing it writes the NUL at `data[768]`. -/
theorem tpmEventSystemdDescribe_writes_longCmdline :
    longCmdlineEvent.eventData.length = 1536 ∧
    tpmEventParseIpl (fun _ => none) longCmdlineEvent = some (.systemd longCmdlineSystemdEvent) ∧
    longCmdlineSystemdEvent.len = longCmdlineEvent.eventData.length ∧
    (WritesWithin systemdDescribeDataSize
        (tpmEventSystemdDescribeWrites asciiFromUtf16le longCmdlineSystemdEvent) ↔
      longCmdlineEvent.eventData.length < 1536) ∧
    (1536 ≤ longCmdlineEvent.eventData.length →
      (systemdDescribeDataSize, 0) ∈
        tpmEventSystemdDescribeWrites asciiFromUtf16le longCmdlineSystemdEvent) := by
  have hlen : longCmdlineEvent.eventData.length = 1536 := by
    rw [longCmdlineEvent, List.length_append, List.length_flatten, List.map_replicate,
      List.sum_replicate]
    rfl
  have hhead : longCmdlineEvent.eventData.head? ≠ some 0 := by
    rw [longCmdlineEvent, show 767 = 766 + 1 from rfl, List.replicate_succ, List.flatten_cons]
    simp only [List.cons_append, List.head?_cons]
    decide
  have hlast : longCmdlineEvent.eventData.getLast? = some 0 := by
    rw [longCmdlineEvent, List.getLast?_append_of_ne_nil _ (List.cons_ne_nil _ _)]
    rfl
  have hparse : tpmEventParseIpl (fun _ => none) longCmdlineEvent =
      some (.systemd longCmdlineSystemdEvent) :=
    (tpmEventParseIpl_eq_systemd _ _ _).mpr
      ⟨rfl, List.ne_nil_of_length_pos (by omega), hhead, hlast, rfl⟩
  exact ⟨hlen, hparse,
    tpmEventSystemdDescribe_writes asciiFromUtf16le (fun _ => none) _ _ hparse⟩

end PcrOracle
