import PcrOracle.Digest
import PcrOracle.EventLog.Stream

/-!
# The TCG event-log reader

`event_log_read_next` of `eventlog.c` and what it reads with: the per-version digest sets
(`event_log_read_pcrs_tpm1`, `event_log_read_pcrs_tpm2`), the algorithm lookup
(`event_log_get_algo_info`), and the Spec ID header parser `__tpm_event_parse_tcg2_info`.

The reader starts in TCG 1.2 mode (`tpm_version = 1`). While no event has been returned yet, a
`NO_ACTION` record in PCR 0 is looked at more closely: a "Spec ID Event03" header switches the
version to the header's spec major and registers the header's unknown algorithms; a
"StartupLocality" record records the locality of PCR 0. Neither is returned: the C code jumps
back to `again`, which the model does by recursion on a fuel argument that the length of the
log bounds (each record consumes at least twelve bytes).

Everything `fatal()` stops on is an error of `ReadError`; the reader state is passed explicitly
and returned with every result, as the C code mutates it in place.
-/

namespace PcrOracle

/-- `TPM2_EVENT_NO_ACTION`, the event type of the Spec ID and StartupLocality records. -/
def tpm2EventNoAction : Nat := 0x00000003

/-- `TPM_EVENT_LOG_MAX_ALGOS`, the number of slots of `tcg2_info.algorithms`. -/
def tpmEventLogMaxAlgos : Nat := 64

/-- Bytes of an ASCII text. -/
def asciiBytes (s : String) : List UInt8 := s.toList.map fun c => UInt8.ofNat c.toNat

/-- "Spec ID Event03" with its NUL: the 16 bytes `strncmp(signature, "Spec ID Event03", 16)`
compares, so that a match means the body starts with exactly these bytes. -/
def specIdSignature : List UInt8 := asciiBytes "Spec ID Event03" ++ [0]

/-- "StartupLocality" with its NUL, the 16 bytes `memcmp` compares. -/
def startupLocalitySignature : List UInt8 := asciiBytes "StartupLocality" ++ [0]

/-- `struct tpm_event_log_tcg2_info`: what the Spec ID header declared. -/
structure Tcg2Info where
  platformClass : Nat
  specVersionMajor : Nat
  specVersionMinor : Nat
  specErrata : Nat
  uintnSize : Nat
  /-- The slots of `algorithms[]` written so far, most recent first, with their index. The
  list has no bound, so a slot of index 64 or more is one the C code wrote past the array. -/
  algorithms : List (Nat × TpmAlgoInfo)
  deriving DecidableEq, Repr

/-- Every written slot lies in the `TPM_EVENT_LOG_MAX_ALGOS` slots of `algorithms[]`; a table
without this is the outcome of a write past the array, into `tpm_startup` and beyond. -/
def Tcg2Info.InArray (info : Tcg2Info) : Prop :=
  ∀ slot ∈ info.algorithms, slot.1 < tpmEventLogMaxAlgos

instance (info : Tcg2Info) : Decidable info.InArray :=
  inferInstanceAs (Decidable (∀ _ ∈ _, _))

/-- The table fits the C structures: its slots lie in `algorithms[]`, and each declares a digest
size that fits `tpm_evdigest_t.data`, so that no digest read with it runs past `data`. -/
def Tcg2Info.Fits (info : Tcg2Info) : Prop :=
  info.InArray ∧ ∀ slot ∈ info.algorithms, slot.2.digestSize ≤ tpm2MaxDigestSize

instance (info : Tcg2Info) : Decidable info.Fits :=
  inferInstanceAs (Decidable (_ ∧ _))

/-- The `tpm_startup` part of the reader: the locality a StartupLocality record declared. -/
structure TpmStartup where
  validPcr0Locality : Bool
  pcr0Locality : UInt8
  deriving DecidableEq, Repr

/-- `struct tpm_event_log_reader`. -/
structure TpmEventLogReader where
  fd : ByteStream
  tpmVersion : Nat
  eventCount : Nat
  tcg2Info : Tcg2Info
  tpmStartup : TpmStartup
  deriving DecidableEq, Repr

/-- `tpm_event_t` as the reader fills it; `event_size` is the length of `eventData`. -/
structure TpmEvent where
  eventIndex : Nat
  pcrIndex : Nat
  eventType : Nat
  fileOffset : Nat
  pcrValues : List TpmEvdigest
  eventData : List UInt8
  deriving DecidableEq, Repr

/-- `event_log_open` on a log whose bytes are `data`: a zeroed reader in TCG 1.2 mode. -/
def eventLogOpen (data : List UInt8) : TpmEventLogReader where
  fd := ⟨data, 0⟩
  tpmVersion := 1
  eventCount := 0
  tcg2Info := ⟨0, 0, 0, 0, 0, []⟩
  tpmStartup := ⟨false, 0⟩

/-- `event_log_get_locality`. -/
def eventLogGetLocality (log : TpmEventLogReader) (pcrIndex : Nat) : Option UInt8 :=
  if pcrIndex ≠ 0 then none
  else if !log.tpmStartup.validPcr0Locality then none
  else some log.tpmStartup.pcr0Locality

/-- Modelled from the spec: `__digest_by_tpm_alg` (`digest.c`), the registered slot of `algoId`
in a table of `numAlgos` slots, and nothing for an index outside the table. -/
def digestByTpmAlgIn (algoId : Nat) (algos : List (Nat × TpmAlgoInfo)) (numAlgos : Nat) :
    Option TpmAlgoInfo :=
  if algoId < numAlgos then algos.lookup algoId else none

section Reader

-- `builtin` is the built-in algorithm table, `digest_by_tpm_alg`.
variable (builtin : Nat → Option TpmAlgoInfo)

/-- `event_log_get_algo_info`: the built-in algorithm, or else the one the header registered. -/
def eventLogGetAlgoInfo (info : Tcg2Info) (algoId : Nat) : Option TpmAlgoInfo :=
  match builtin algoId with
  | some algo => some algo
  | none => digestByTpmAlgIn algoId info.algorithms tpmEventLogMaxAlgos

/-- `event_log_read_digest`: `digest_size` bytes of an algorithm the reader knows. -/
def eventLogReadDigest (info : Tcg2Info) (algoId : Nat) : Parser TpmEvdigest :=
  match eventLogGetAlgoInfo builtin info algoId with
  | none => throw (.unknownAlgorithm algoId)
  | some algo => do
    let data ← readExactly algo.digestSize
    return ⟨algo, algo.digestSize, data⟩

/-- `event_log_read_pcrs_tpm1`: the single SHA-1 digest of a TCG 1.2 record. -/
def eventLogReadPcrsTpm1 (info : Tcg2Info) : Parser (List TpmEvdigest) := do
  let d ← eventLogReadDigest builtin info tpm2AlgSha1
  return [d]

/-- The loop of `event_log_read_pcrs_tpm2`: `count` pairs of an algorithm id and a digest. -/
def eventLogReadDigests (info : Tcg2Info) : Nat → Parser (List TpmEvdigest)
  | 0 => pure []
  | count + 1 => do
    let algoId ← readU16le
    let d ← eventLogReadDigest builtin info algoId
    let ds ← eventLogReadDigests info count
    return d :: ds

/-- `event_log_read_pcrs_tpm2`: a count, which `event_log_resize_pcrs` bounds by 32, and that
many digests. -/
def eventLogReadPcrsTpm2 (info : Tcg2Info) : Parser (List TpmEvdigest) := do
  let count ← readU32le
  if count > 32 then throw (.badPcrCount count)
  else eventLogReadDigests builtin info count

/-- The digest set of a record, in the format of the reader's version. -/
def eventLogReadPcrs (log : TpmEventLogReader) : Parser (List TpmEvdigest) :=
  if log.tpmVersion = 1 then eventLogReadPcrsTpm1 builtin log.tcg2Info
  else eventLogReadPcrsTpm2 builtin log.tcg2Info

/-- The part of `event_log_read_next` after the file offset is taken: the digest set, the body
size with its 1 MiB bound, and the body. -/
def eventLogReadFields (log : TpmEventLogReader) : Parser (List TpmEvdigest × List UInt8) := do
  let pcrValues ← eventLogReadPcrs builtin log
  let eventSize ← readU32le
  if eventSize > 1024 * 1024 then throw (.oversizedEvent eventSize)
  else do
    let eventData ← readExactly eventSize
    return (pcrValues, eventData)

/-- One entry of the algorithm table of `__tpm_event_parse_tcg2_info`. Ids above
`TPM2_ALG_LAST` are skipped; an id with no built-in algorithm gets its slot written with the
declared size and a made-up name (its `tcg_id` stays zero, as `calloc` left it); a built-in id is
left alone, with a warning when the sizes disagree. The slot is written whatever its index, as
`info->algorithms[algo_id]` is: ids 64 to 68 land past the array (`Tcg2Info.InArray`). -/
def tpmEventRegisterAlgorithm (algorithms : List (Nat × TpmAlgoInfo)) (algoId algoSize : Nat) :
    List (Nat × TpmAlgoInfo) :=
  if algoId > tpm2AlgLast then algorithms
  else match builtin algoId with
    | none => (algoId, ⟨0, "TPM2_ALG_" ++ toString algoId, algoSize⟩) :: algorithms
    | some _ => algorithms

/-- The algorithm-table loop of `__tpm_event_parse_tcg2_info`: `count` pairs of a two-byte id
and a two-byte digest size. -/
def tpmEventParseAlgorithms : Nat → List (Nat × TpmAlgoInfo) → Parser (List (Nat × TpmAlgoInfo))
  | 0, algorithms => pure algorithms
  | count + 1, algorithms => do
    let algoId ← readU16le
    let algoSize ← readU16le
    tpmEventParseAlgorithms count (tpmEventRegisterAlgorithm builtin algorithms algoId algoSize)

/-- `__tpm_event_parse_tcg2_info` over the header body, after its 16-byte signature. -/
def tpmEventParseTcg2Info (info : Tcg2Info) : Parser Tcg2Info := do
  let _ ← readExactly 16
  let platformClass ← readU32le
  let specVersionMinor ← readU8
  let specVersionMajor ← readU8
  let specErrata ← readU8
  let uintnSize ← readU8
  let algoInfoCount ← readU32le
  let algorithms ← tpmEventParseAlgorithms builtin algoInfoCount info.algorithms
  return ⟨platformClass, specVersionMajor, specVersionMinor, specErrata, uintnSize, algorithms⟩

/-- The test of `event_log_read_next` that sends a record to the Spec ID and StartupLocality
checks: a `NO_ACTION` in PCR 0 of at least 16 bytes, before any event was returned. -/
def mayBeSpecial (log : TpmEventLogReader) (ev : TpmEvent) : Prop :=
  ev.eventType = tpm2EventNoAction ∧ ev.pcrIndex = 0 ∧ log.eventCount = 0 ∧
    16 ≤ ev.eventData.length

instance (log : TpmEventLogReader) (ev : TpmEvent) : Decidable (mayBeSpecial log ev) :=
  inferInstanceAs (Decidable (_ ∧ _))

/-- What `event_log_read_next` does with a record once it is read, with `again` for its jump back
to `again`: a Spec ID header is parsed and switches the version, a StartupLocality record sets
the locality, and any other record is returned under the next event index. -/
def eventLogDispatch (log : TpmEventLogReader) (ev : TpmEvent)
    (again : TpmEventLogReader → Except ReadError (Option TpmEvent × TpmEventLogReader)) :
    Except ReadError (Option TpmEvent × TpmEventLogReader) :=
  if mayBeSpecial log ev ∧ ev.eventData.take 16 = specIdSignature then
    match (tpmEventParseTcg2Info builtin log.tcg2Info).run ⟨ev.eventData, 0⟩ with
    | .error _ => .error .badTcg2Header
    | .ok (info, _) => again { log with tcg2Info := info, tpmVersion := info.specVersionMajor }
  else if mayBeSpecial log ev ∧ ev.eventData.take 16 = startupLocalitySignature ∧
      ev.eventData.length = 17 then
    again { log with tpmStartup := ⟨true, ev.eventData.getD 16 0⟩ }
  else
    .ok (some { ev with eventIndex := log.eventCount }, { log with eventCount := log.eventCount + 1 })

/-- One pass of `event_log_read_next` from `again`: the PCR index (or the end of the log), the
event type, the file offset after them, the digests and the body, then `eventLogDispatch`. -/
def eventLogReadNextStep (log : TpmEventLogReader)
    (again : TpmEventLogReader → Except ReadError (Option TpmEvent × TpmEventLogReader)) :
    Except ReadError (Option TpmEvent × TpmEventLogReader) :=
  match readU32leOrEof.run log.fd with
  | .error e => .error e
  | .ok (none, fd) => .ok (none, { log with fd })
  | .ok (some pcrIndex, fd) =>
    match readU32le.run fd with
    | .error e => .error e
    | .ok (eventType, fd) =>
      let fileOffset := fd.pos
      match (eventLogReadFields builtin log).run fd with
      | .error e => .error e
      | .ok ((pcrValues, eventData), fd) =>
        eventLogDispatch builtin { log with fd }
          ⟨0, pcrIndex, eventType, fileOffset, pcrValues, eventData⟩ again

/-- `event_log_read_next` with `fuel` passes through `again`. The result carries the reader as
the call leaves it: at the end of the log, after header records, it is not the one passed in. -/
def eventLogReadNextAux :
    Nat → TpmEventLogReader → Except ReadError (Option TpmEvent × TpmEventLogReader)
  | 0, log => .ok (none, log)
  | fuel + 1, log => eventLogReadNextStep builtin log (eventLogReadNextAux fuel)

/-- `event_log_read_next`: a pass through `again` per record at most, so the bytes left bound
the fuel it needs. -/
def eventLogReadNext (log : TpmEventLogReader) :
    Except ReadError (Option TpmEvent × TpmEventLogReader) :=
  eventLogReadNextAux builtin (log.fd.data.length + 1) log

/-- The caller's loop: `event_log_read_next` until it returns `NULL`, with `fuel` calls. -/
def eventLogReadAllAux :
    Nat → TpmEventLogReader → Except ReadError (List TpmEvent × TpmEventLogReader)
  | 0, log => .ok ([], log)
  | fuel + 1, log => do
    let (ev?, log) ← eventLogReadNext builtin log
    match ev? with
    | none => return ([], log)
    | some ev =>
      let (evs, log) ← eventLogReadAllAux fuel log
      return (ev :: evs, log)

/-- Every event of the log, and the reader once `event_log_read_next` has returned `NULL`. -/
def eventLogReadAll (log : TpmEventLogReader) :
    Except ReadError (List TpmEvent × TpmEventLogReader) :=
  eventLogReadAllAux builtin (log.fd.data.length + 1) log

end Reader

end PcrOracle
