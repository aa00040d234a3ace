import PcrOracle.EventLog.Records

/-!
# Reading a whole log back

A log is read by calling `event_log_read_next` until it returns `NULL`. A TCG 1.2 log is a
list of records in the TCG 1.2 format; a crypto-agile log starts with a Spec ID Event03 header
in that format, possibly a StartupLocality record, and then records in the crypto-agile format.
`LogPreamble` describes what comes before the events, and this module proves that reading the
log returns exactly its events, numbered from zero, while a log that ends inside a record is
refused with a short read.

The argument has three layers: one pass over a record (`Records`), the header and locality
records that the reader consumes without returning them (`eventLogReadNextStep_specIdRecord`,
`eventLogReadNextStep_startupLocalityRecord`), and the run over all records
(`eventLogReadAll_encodeAll`), which the preamble only changes the starting reader of.

## Main definitions

* `SpecIdEvent`: the body of the Spec ID Event03 header.
* `LogPreamble`: nothing, or a header and an optional StartupLocality record.
* `LogRecord.events`: the events a list of records is read as.

## Main results

* `eventLogReadAll_encodeAll`: the run over records of one format.
* `eventLogReadAll_preamble`: reading the preamble leaves the reader it describes.
* `eventLogReadAll_encodeLog`: the round trip over the whole log, and the refusal of every log
  that ends inside a record.
-/

namespace PcrOracle

/-! ## The Spec ID header -/

/-- The body of a Spec ID Event03 header (`TCG_EfiSpecIdEvent`): the fields
`__tpm_event_parse_tcg2_info` reads, and the vendor data after the algorithm table. -/
structure SpecIdEvent where
  platformClass : Nat
  specVersionMinor : Nat
  specVersionMajor : Nat
  specErrata : Nat
  uintnSize : Nat
  /-- The algorithm table: a TCG algorithm id and a digest size per entry. -/
  digestSizes : List (Nat × Nat)
  vendorInfo : List UInt8
  deriving DecidableEq, Repr

/-- The bytes of an algorithm table, two two-byte words per entry. -/
def algorithmTableBytes (table : List (Nat × Nat)) : List UInt8 :=
  table.flatMap fun p => leBytes 2 p.1 ++ leBytes 2 p.2

/-- The header bytes the parser reads: the signature, the version fields and the table. -/
def SpecIdEvent.fields (h : SpecIdEvent) : List UInt8 :=
  specIdSignature ++ (leBytes 4 h.platformClass ++ (leBytes 1 h.specVersionMinor ++
    (leBytes 1 h.specVersionMajor ++ (leBytes 1 h.specErrata ++ (leBytes 1 h.uintnSize ++
      (leBytes 4 h.digestSizes.length ++ algorithmTableBytes h.digestSizes))))))

/-- The header body. -/
def SpecIdEvent.encode (h : SpecIdEvent) : List UInt8 := h.fields ++ h.vendorInfo

/-- A header whose fields fit their words. -/
@[mk_iff]
structure SpecIdEvent.WellFormed (h : SpecIdEvent) : Prop where
  platformClass_lt : h.platformClass < 2 ^ 32
  specVersionMinor_lt : h.specVersionMinor < 2 ^ 8
  specVersionMajor_lt : h.specVersionMajor < 2 ^ 8
  specErrata_lt : h.specErrata < 2 ^ 8
  uintnSize_lt : h.uintnSize < 2 ^ 8
  digestSizes_length_lt : h.digestSizes.length < 2 ^ 32
  digestSizes_lt : ∀ p ∈ h.digestSizes, p.1 < 2 ^ 16 ∧ p.2 < 2 ^ 16

instance (h : SpecIdEvent) : Decidable h.WellFormed :=
  decidable_of_iff _ (SpecIdEvent.wellFormed_iff h).symm

theorem specIdSignature_length : specIdSignature.length = 16 := by decide

theorem startupLocalitySignature_length : startupLocalitySignature.length = 16 := by decide

theorem specIdSignature_prefix_encode (h : SpecIdEvent) : specIdSignature <+: h.encode :=
  (List.prefix_append _ _).trans (List.prefix_append _ _)

section Header

variable (builtin : Nat → Option TpmAlgoInfo)

/-- The algorithm slots once the entries of `table` are registered, in order, on top of
`algorithms`. -/
def registerAlgorithms (algorithms : List (Nat × TpmAlgoInfo)) (table : List (Nat × Nat)) :
    List (Nat × TpmAlgoInfo) :=
  table.foldl (fun algs p => tpmEventRegisterAlgorithm builtin algs p.1 p.2) algorithms

/-- What the header declares, with its table registered on top of `algorithms`. -/
def SpecIdEvent.toTcg2Info (h : SpecIdEvent) (algorithms : List (Nat × TpmAlgoInfo)) :
    Tcg2Info :=
  ⟨h.platformClass, h.specVersionMajor, h.specVersionMinor, h.specErrata, h.uintnSize,
    registerAlgorithms builtin algorithms h.digestSizes⟩

variable {builtin}

/-- One entry of the table writes the slot of its id, with the declared size, when the id is at
most `TPM2_ALG_LAST` and has no built-in algorithm. -/
theorem mem_tpmEventRegisterAlgorithm {algorithms : List (Nat × TpmAlgoInfo)}
    {algoId algoSize : Nat} {slot : Nat × TpmAlgoInfo} :
    slot ∈ tpmEventRegisterAlgorithm builtin algorithms algoId algoSize ↔
      slot ∈ algorithms ∨ (slot = (algoId, ⟨0, "TPM2_ALG_" ++ toString algoId, algoSize⟩) ∧
        algoId ≤ tpm2AlgLast ∧ builtin algoId = none) := by
  unfold tpmEventRegisterAlgorithm
  split_ifs with h
  · simp only [show ¬ algoId ≤ tpm2AlgLast by omega, false_and, and_false, or_false]
  · cases hb : builtin algoId <;> simp [hb, Nat.le_of_not_gt h, or_comm]

/-- The slots the whole table leaves written: those written before, and one for each entry
whose id is at most `TPM2_ALG_LAST` and has no built-in algorithm. -/
theorem mem_registerAlgorithms {slot : Nat × TpmAlgoInfo} :
    ∀ {algorithms : List (Nat × TpmAlgoInfo)} {table : List (Nat × Nat)},
      slot ∈ registerAlgorithms builtin algorithms table ↔
        slot ∈ algorithms ∨ ∃ p ∈ table, slot = (p.1, ⟨0, "TPM2_ALG_" ++ toString p.1, p.2⟩) ∧
          p.1 ≤ tpm2AlgLast ∧ builtin p.1 = none
  | _, [] => by simp [registerAlgorithms]
  | algorithms, p :: table => by
    show slot ∈ registerAlgorithms builtin
      (tpmEventRegisterAlgorithm builtin algorithms p.1 p.2) table ↔ _
    rw [mem_registerAlgorithms, mem_tpmEventRegisterAlgorithm, List.exists_mem_cons_iff, or_assoc]

/-- A table that declares no id `__tpm_event_parse_tcg2_info` writes past `algorithms[]`: each
id is below `TPM_EVENT_LOG_MAX_ALGOS`, or above `TPM2_ALG_LAST` and skipped. -/
def SpecIdEvent.IdsInArray (h : SpecIdEvent) : Prop :=
  ∀ q ∈ h.digestSizes, q.1 < tpmEventLogMaxAlgos ∨ tpm2AlgLast < q.1

instance (h : SpecIdEvent) : Decidable h.IdsInArray :=
  inferInstanceAs (Decidable (∀ _ ∈ _, _))

/-- Such a table, registered on slots in the array, leaves every slot in the array. -/
theorem SpecIdEvent.inArray_toTcg2Info {h : SpecIdEvent} (hids : h.IdsInArray)
    {algorithms : List (Nat × TpmAlgoInfo)}
    (ha : ∀ slot ∈ algorithms, slot.1 < tpmEventLogMaxAlgos) :
    (h.toTcg2Info builtin algorithms).InArray := by
  intro slot hs
  obtain hs | ⟨q, hq, rfl, hle, -⟩ := mem_registerAlgorithms.mp hs
  · exact ha slot hs
  · exact (hids q hq).resolve_right (Nat.not_lt.mpr hle)

theorem decodes_tpmEventParseAlgorithms :
    ∀ {table : List (Nat × Nat)} (algorithms : List (Nat × TpmAlgoInfo)),
      (∀ p ∈ table, p.1 < 2 ^ 16 ∧ p.2 < 2 ^ 16) →
      Decodes (tpmEventParseAlgorithms builtin table.length algorithms)
        (algorithmTableBytes table) (registerAlgorithms builtin algorithms table)
  | [], _, _ => decodes_pure _
  | (algoId, algoSize) :: table, algorithms, h => by
    have ⟨hid, hsize⟩ := h _ (List.mem_cons_self _ _)
    have hrest := decodes_tpmEventParseAlgorithms
      (tpmEventRegisterAlgorithm builtin algorithms algoId algoSize)
      fun p hp => h p (List.mem_cons_of_mem _ hp)
    rw [algorithmTableBytes, List.flatMap_cons, List.append_assoc]
    exact (decodes_readU16le hid).bind <| (decodes_readU16le hsize).bind hrest

theorem decodes_tpmEventParseTcg2Info (info : Tcg2Info) {h : SpecIdEvent} (hw : h.WellFormed) :
    Decodes (tpmEventParseTcg2Info builtin info) h.fields (h.toTcg2Info builtin info.algorithms) := by
  have hsig := decodes_readExactly specIdSignature
  rw [specIdSignature_length] at hsig
  exact hsig.bind <| (decodes_readU32le hw.platformClass_lt).bind <|
    (decodes_readU8 hw.specVersionMinor_lt).bind <| (decodes_readU8 hw.specVersionMajor_lt).bind <|
    (decodes_readU8 hw.specErrata_lt).bind <| (decodes_readU8 hw.uintnSize_lt).bind <|
    (decodes_readU32le hw.digestSizes_length_lt).bind <|
    (decodes_tpmEventParseAlgorithms info.algorithms hw.digestSizes_lt).bind_pure _

end Header

/-! ## The records the reader consumes -/

/-- The Spec ID header record, in the TCG 1.2 format with its SHA-1 digest `d`. -/
def specIdRecord (d : TpmEvdigest) (h : SpecIdEvent) : LogRecord :=
  ⟨0, tpm2EventNoAction, [d], h.encode⟩

/-- The StartupLocality record with digests `ds`, declaring locality `loc`. -/
def startupLocalityRecord (ds : List TpmEvdigest) (loc : UInt8) : LogRecord :=
  ⟨0, tpm2EventNoAction, ds, startupLocalitySignature ++ [loc]⟩

section Consumed

variable {builtin : Nat → Option TpmAlgoInfo}

/-- Before any event, a Spec ID header is consumed: the reader takes on the version and the
algorithms it declares, and reads on. -/
theorem eventLogReadNextStep_specIdRecord {log : TpmEventLogReader} {d : TpmEvdigest}
    {h : SpecIdEvent} {rest : List UInt8} {pos : Nat}
    (hfd : log.fd = ⟨(specIdRecord d h).encode log.tpmVersion ++ rest, pos⟩)
    (hr : (specIdRecord d h).WellFormed builtin log.tpmVersion) (hw : h.WellFormed)
    (hc : log.eventCount = 0)
    (again : TpmEventLogReader → Except ReadError (Option TpmEvent × TpmEventLogReader)) :
    eventLogReadNextStep builtin log again =
      again { log with
        fd := ⟨rest, pos + ((specIdRecord d h).encode log.tpmVersion).length⟩,
        tcg2Info := h.toTcg2Info builtin log.tcg2Info.algorithms,
        tpmVersion := h.specVersionMajor } := by
  have hsig := specIdSignature_prefix_encode h
  have hparse := (@decodes_tpmEventParseTcg2Info builtin log.tcg2Info h hw).reads h.vendorInfo 0
  rw [eventLogReadNextStep_of_reads hfd hr]
  unfold eventLogDispatch
  rw [if_pos]
  · dsimp only [LogRecord.toEvent, specIdRecord, SpecIdEvent.encode]
    rw [hparse]
    rfl
  · refine ⟨⟨rfl, rfl, hc, ?_⟩, ?_⟩
    · simpa [specIdSignature_length] using hsig.length_le
    · simpa [specIdSignature_length] using (List.prefix_iff_eq_take.mp hsig).symm

/-- Before any event, a StartupLocality record is consumed: the reader records its locality and
reads on. -/
theorem eventLogReadNextStep_startupLocalityRecord {log : TpmEventLogReader}
    {ds : List TpmEvdigest} {loc : UInt8} {rest : List UInt8} {pos : Nat}
    (hfd : log.fd = ⟨(startupLocalityRecord ds loc).encode log.tpmVersion ++ rest, pos⟩)
    (hr : (startupLocalityRecord ds loc).WellFormed builtin log.tpmVersion)
    (hc : log.eventCount = 0)
    (again : TpmEventLogReader → Except ReadError (Option TpmEvent × TpmEventLogReader)) :
    eventLogReadNextStep builtin log again =
      again { log with
        fd := ⟨rest, pos + ((startupLocalityRecord ds loc).encode log.tpmVersion).length⟩,
        tpmStartup := ⟨true, loc⟩ } := by
  have htake : (startupLocalitySignature ++ [loc]).take 16 = startupLocalitySignature :=
    List.take_left' startupLocalitySignature_length
  rw [eventLogReadNextStep_of_reads hfd hr]
  unfold eventLogDispatch
  rw [if_neg, if_pos]
  · rfl
  · exact ⟨⟨rfl, rfl, hc, by simp [LogRecord.toEvent, startupLocalityRecord,
      startupLocalitySignature_length]⟩, htake, by
      simp [LogRecord.toEvent, startupLocalityRecord, startupLocalitySignature_length]⟩
  · rintro ⟨-, hs⟩
    exact absurd (htake.symm.trans hs) (by decide)

end Consumed

/-! ## From passes to calls -/

section Calls

variable {builtin : Nat → Option TpmAlgoInfo}

/-- A record the reader consumes without returning it leaves `event_log_read_next` returning
what it returns on the reader after that record. -/
theorem eventLogReadNext_of_step {log log' : TpmEventLogReader}
    (hstep : ∀ again, eventLogReadNextStep builtin log again = again log')
    (hlen : log'.fd.data.length < log.fd.data.length) :
    eventLogReadNext builtin log = eventLogReadNext builtin log' := by
  unfold eventLogReadNext
  rw [eventLogReadNextAux, hstep]
  exact eventLogReadNextAux_eq_eventLogReadNext hlen

/-- The caller's loop depends on the reader only through what `event_log_read_next` returns. -/
theorem eventLogReadAll_congr {log log' : TpmEventLogReader}
    (h : eventLogReadNext builtin log = eventLogReadNext builtin log') :
    eventLogReadAll builtin log = eventLogReadAll builtin log' := by
  rw [← eventLogReadAllAux_eq_eventLogReadAll
      (Nat.lt_succ_of_le (le_max_left log.fd.data.length log'.fd.data.length)),
    ← eventLogReadAllAux_eq_eventLogReadAll
      (Nat.lt_succ_of_le (le_max_right log.fd.data.length log'.fd.data.length))]
  simp only [eventLogReadAllAux, h]

theorem eventLogReadNext_encode {log : TpmEventLogReader} {r : LogRecord} {rest : List UInt8}
    {pos : Nat} (hfd : log.fd = ⟨r.encode log.tpmVersion ++ rest, pos⟩)
    (hr : r.WellFormed builtin log.tpmVersion) (h : log.eventCount = 0 → ¬ r.Special) :
    eventLogReadNext builtin log =
      .ok (some (r.toEvent log.eventCount pos),
        { log with fd := ⟨rest, pos + (r.encode log.tpmVersion).length⟩,
                   eventCount := log.eventCount + 1 }) := by
  unfold eventLogReadNext
  rw [eventLogReadNextAux]
  exact eventLogReadNextStep_encode hfd hr h _

/-- At the end of the log the loop stops with no event and the reader unchanged. -/
theorem eventLogReadAll_eof {log : TpmEventLogReader} (h : log.fd.data = []) :
    eventLogReadAll builtin log = .ok ([], log) := by
  obtain ⟨⟨data, pos⟩, _, _, _, _⟩ := log
  subst h
  rfl

/-- A log that ends inside a record is refused with a short read. -/
theorem eventLogReadAll_cut {log : TpmEventLogReader} {r : LogRecord} {q : List UInt8}
    {pos : Nat} (hfd : log.fd = ⟨q, pos⟩) (hr : r.WellFormed builtin log.tpmVersion)
    (hq : q <+: r.encode log.tpmVersion) (hq₀ : q ≠ []) (hqr : q ≠ r.encode log.tpmVersion) :
    eventLogReadAll builtin log = .error .shortRead := by
  unfold eventLogReadAll
  rw [eventLogReadAllAux]
  unfold eventLogReadNext
  rw [eventLogReadNextAux, eventLogReadNextStep_cut hfd hr hq hq₀ hqr]
  rfl

end Calls

/-! ## The run over the records -/

/-- A list of records in the format of `tpmVersion`, one after the other. -/
def LogRecord.encodeAll (tpmVersion : Nat) (rs : List LogRecord) : List UInt8 :=
  rs.flatMap (LogRecord.encode tpmVersion)

/-- The events records `rs` of format `tpmVersion` are read as: numbered from `n`, the first
at byte `pos` of the log. -/
def LogRecord.events (tpmVersion : Nat) : List LogRecord → Nat → Nat → List TpmEvent
  | [], _, _ => []
  | r :: rs, n, pos =>
    r.toEvent n pos :: LogRecord.events tpmVersion rs (n + 1) (pos + (r.encode tpmVersion).length)

@[simp]
theorem LogRecord.map_record_events (v : Nat) :
    ∀ (rs : List LogRecord) (n pos : Nat), (LogRecord.events v rs n pos).map TpmEvent.record = rs
  | [], _, _ => rfl
  | r :: rs, _, _ => congrArg (r :: ·) (LogRecord.map_record_events v rs _ _)

@[simp]
theorem LogRecord.map_eventIndex_events (v : Nat) :
    ∀ (rs : List LogRecord) (n pos : Nat),
      (LogRecord.events v rs n pos).map TpmEvent.eventIndex = List.range' n rs.length
  | [], _, _ => rfl
  | _ :: rs, n, _ => congrArg (n :: ·) (LogRecord.map_eventIndex_events v rs _ _)

section Run

variable {builtin : Nat → Option TpmAlgoInfo}

/-- Reading records of the reader's format returns them one by one, after which the loop goes
on with the bytes after them. -/
theorem eventLogReadAll_encodeAll :
    ∀ {rs : List LogRecord} {log : TpmEventLogReader} {rest : List UInt8} {pos : Nat},
      log.fd = ⟨LogRecord.encodeAll log.tpmVersion rs ++ rest, pos⟩ →
      (∀ r ∈ rs, r.WellFormed builtin log.tpmVersion) →
      (log.eventCount = 0 → ∀ r ∈ rs.head?, ¬ r.Special) →
      eventLogReadAll builtin log =
        (fun p => (LogRecord.events log.tpmVersion rs log.eventCount pos ++ p.1, p.2)) <$>
          eventLogReadAll builtin { log with
            fd := ⟨rest, pos + (LogRecord.encodeAll log.tpmVersion rs).length⟩,
            eventCount := log.eventCount + rs.length }
  | [], log, rest, pos, hfd, _, _ => by
    obtain ⟨fd, _, _, _, _⟩ := log
    simp only [LogRecord.encodeAll, List.flatMap_nil, List.nil_append, List.length_nil,
      Nat.add_zero] at hfd ⊢
    subst hfd
    cases eventLogReadAll builtin _ <;> rfl
  | r :: rs, log, rest, pos, hfd, hwf, hs => by
    have hfd₁ : log.fd = ⟨r.encode log.tpmVersion ++
        (LogRecord.encodeAll log.tpmVersion rs ++ rest), pos⟩ := by
      rw [hfd, LogRecord.encodeAll, List.flatMap_cons, List.append_assoc]
      rfl
    have hr := hwf r (List.mem_cons_self r rs)
    have ih := @eventLogReadAll_encodeAll rs
      { log with fd := ⟨LogRecord.encodeAll log.tpmVersion rs ++ rest,
          pos + (r.encode log.tpmVersion).length⟩, eventCount := log.eventCount + 1 }
      rest _ rfl (fun r' h' => hwf r' (List.mem_cons_of_mem r h'))
      (fun hc => absurd hc (Nat.succ_ne_zero _))
    have hlen : (LogRecord.encodeAll log.tpmVersion rs ++ rest).length < log.fd.data.length := by
      simp only [List.length_append, hfd₁, LogRecord.length_encode, Nat.lt_add_left_iff_pos]
      omega
    conv_lhs => unfold eventLogReadAll
    rw [eventLogReadAllAux, eventLogReadNext_encode hfd₁ hr fun hc => hs hc r rfl]
    simp only [bind, Except.bind]
    dsimp only at ih
    rw [eventLogReadAllAux_eq_eventLogReadAll hlen, ih]
    have hlog : ({ log with
        fd := ⟨rest, pos + (r.encode log.tpmVersion).length +
          (LogRecord.encodeAll log.tpmVersion rs).length⟩,
        eventCount := log.eventCount + 1 + rs.length } : TpmEventLogReader) =
        { log with
          fd := ⟨rest, pos + (LogRecord.encodeAll log.tpmVersion (r :: rs)).length⟩,
          eventCount := log.eventCount + (r :: rs).length } := by
      simp only [LogRecord.encodeAll, List.flatMap_cons, List.length_append, List.length_cons]
      congr 1
      · exact congrArg _ (Nat.add_assoc _ _ _)
      · omega
    rw [hlog]
    cases eventLogReadAll builtin _ <;> rfl

/-- A log of records of the reader's format is read back whole. -/
theorem eventLogReadAll_encodeAll_eof {rs : List LogRecord} {log : TpmEventLogReader} {pos : Nat}
    (hfd : log.fd = ⟨LogRecord.encodeAll log.tpmVersion rs, pos⟩)
    (hwf : ∀ r ∈ rs, r.WellFormed builtin log.tpmVersion)
    (hs : log.eventCount = 0 → ∀ r ∈ rs.head?, ¬ r.Special) :
    eventLogReadAll builtin log =
      .ok (LogRecord.events log.tpmVersion rs log.eventCount pos, { log with
        fd := ⟨[], pos + (LogRecord.encodeAll log.tpmVersion rs).length⟩,
        eventCount := log.eventCount + rs.length }) := by
  rw [@eventLogReadAll_encodeAll builtin rs log [] pos (by rw [hfd, List.append_nil]) hwf hs,
    eventLogReadAll_eof rfl]
  simp only [Functor.map, Except.map, List.append_nil]

/-- A log of records of the reader's format that ends inside one more record is refused. -/
theorem eventLogReadAll_encodeAll_cut {rs : List LogRecord} {log : TpmEventLogReader}
    {r : LogRecord} {q : List UInt8} {pos : Nat}
    (hfd : log.fd = ⟨LogRecord.encodeAll log.tpmVersion rs ++ q, pos⟩)
    (hwf : ∀ r ∈ rs, r.WellFormed builtin log.tpmVersion)
    (hs : log.eventCount = 0 → ∀ r ∈ rs.head?, ¬ r.Special)
    (hr : r.WellFormed builtin log.tpmVersion) (hq : q <+: r.encode log.tpmVersion) (hq₀ : q ≠ [])
    (hqr : q ≠ r.encode log.tpmVersion) :
    eventLogReadAll builtin log = .error .shortRead := by
  rw [eventLogReadAll_encodeAll hfd hwf hs,
    @eventLogReadAll_cut builtin { log with fd := _, eventCount := _ } r q _ rfl hr hq hq₀ hqr]
  rfl

end Run

/-! ## What comes before the events -/

/-- What precedes the events of a log: nothing in a TCG 1.2 log; in a crypto-agile log a Spec ID
header with its SHA-1 digest, and possibly a StartupLocality record with its digests and
locality. -/
inductive LogPreamble
  | tcg12
  | cryptoAgile (headerDigest : TpmEvdigest) (header : SpecIdEvent)
      (startup : Option (List TpmEvdigest × UInt8))
  deriving DecidableEq, Repr

namespace LogPreamble

/-- The format of the records after the preamble. -/
def tpmVersion : LogPreamble → Nat
  | tcg12 => 1
  | cryptoAgile .. => 2

/-- The locality the preamble declares for PCR 0. -/
def locality : LogPreamble → Option UInt8
  | tcg12 => none
  | cryptoAgile _ _ startup => startup.map Prod.snd

/-- The bytes of the preamble: the header in the TCG 1.2 format, then the StartupLocality
record in the crypto-agile one. -/
def bytes : LogPreamble → List UInt8
  | tcg12 => []
  | cryptoAgile d h none => (specIdRecord d h).encode 1
  | cryptoAgile d h (some (ds, loc)) =>
    (specIdRecord d h).encode 1 ++ (startupLocalityRecord ds loc).encode 2

/-- A preamble the reader takes as one: a header record the TCG 1.2 format carries, declaring
spec version 2, and a StartupLocality record the crypto-agile format carries. -/
def WellFormed (builtin : Nat → Option TpmAlgoInfo) : LogPreamble → Prop
  | tcg12 => True
  | cryptoAgile d h startup =>
    (specIdRecord d h).WellFormed builtin 1 ∧ h.WellFormed ∧ h.specVersionMajor = 2 ∧
      ∀ s ∈ startup, (startupLocalityRecord s.1 s.2).WellFormed builtin 2

/-- The reader once the preamble is read, with `tail` left in the log. -/
def reader (builtin : Nat → Option TpmAlgoInfo) : LogPreamble → List UInt8 → TpmEventLogReader
  | tcg12, tail => eventLogOpen tail
  | cryptoAgile d h startup, tail =>
    { fd := ⟨tail, (cryptoAgile d h startup).bytes.length⟩
      tpmVersion := h.specVersionMajor
      eventCount := 0
      tcg2Info := h.toTcg2Info builtin []
      tpmStartup := match startup with
        | none => ⟨false, 0⟩
        | some (_, loc) => ⟨true, loc⟩ }

variable {builtin : Nat → Option TpmAlgoInfo}

theorem reader_fd (p : LogPreamble) (tail : List UInt8) :
    (p.reader builtin tail).fd = ⟨tail, p.bytes.length⟩ := by
  cases p <;> rfl

theorem reader_eventCount (p : LogPreamble) (tail : List UInt8) :
    (p.reader builtin tail).eventCount = 0 := by
  cases p <;> rfl

theorem reader_tpmVersion {p : LogPreamble} (hp : p.WellFormed builtin) (tail : List UInt8) :
    (p.reader builtin tail).tpmVersion = p.tpmVersion := by
  cases p with
  | tcg12 => rfl
  | cryptoAgile _ _ _ => exact hp.2.2.1

theorem getLocality_reader (p : LogPreamble) (tail : List UInt8) :
    eventLogGetLocality (p.reader builtin tail) 0 = p.locality := by
  rcases p with _ | ⟨_, _, _ | _⟩ <;> rfl

/-- A preamble whose header declares no id written past `algorithms[]`. -/
def IdsInArray : LogPreamble → Prop
  | tcg12 => True
  | cryptoAgile _ h _ => h.IdsInArray

theorem inArray_reader {p : LogPreamble} (hids : p.IdsInArray) (tail : List UInt8) :
    (p.reader builtin tail).tcg2Info.InArray := by
  cases p with
  | tcg12 => exact fun _ h => absurd h (List.not_mem_nil _)
  | cryptoAgile _ h _ =>
    exact SpecIdEvent.inArray_toTcg2Info (h := h) hids fun _ h => absurd h (List.not_mem_nil _)

end LogPreamble

section Preamble

variable {builtin : Nat → Option TpmAlgoInfo}

/-- Reading the preamble leaves the reader `LogPreamble.reader` describes. -/
theorem eventLogReadAll_preamble {p : LogPreamble} (hp : p.WellFormed builtin)
    (tail : List UInt8) :
    eventLogReadAll builtin (eventLogOpen (p.bytes ++ tail)) =
      eventLogReadAll builtin (p.reader builtin tail) := by
  rcases p with _ | ⟨d, h, _ | ⟨ds, loc⟩⟩
  · rfl
  · obtain ⟨hhdr, hw, -, -⟩ := hp
    refine eventLogReadAll_congr <| (eventLogReadNext_of_step
      (eventLogReadNextStep_specIdRecord rfl hhdr hw rfl) ?_).trans ?_
    · simp only [eventLogOpen, LogPreamble.bytes, List.length_append, LogRecord.length_encode,
        Nat.lt_add_left_iff_pos]
      omega
    · simp only [LogPreamble.reader, LogPreamble.bytes, eventLogOpen, Nat.zero_add]
  · obtain ⟨hhdr, hw, hmaj, hloc⟩ := hp
    obtain ⟨_, _, major, _, _, _, _⟩ := h
    dsimp only at hmaj
    subst hmaj
    rw [LogPreamble.bytes, List.append_assoc]
    refine eventLogReadAll_congr <| (eventLogReadNext_of_step
      (eventLogReadNextStep_specIdRecord rfl hhdr hw rfl) ?_).trans <|
      (eventLogReadNext_of_step
        (eventLogReadNextStep_startupLocalityRecord rfl (hloc (ds, loc) rfl) rfl) ?_).trans ?_
    · simp only [List.length_append, LogRecord.length_encode, eventLogOpen,
        Nat.lt_add_left_iff_pos]
      omega
    · simp only [List.length_append, LogRecord.length_encode, Nat.lt_add_left_iff_pos]
      omega
    · simp only [LogPreamble.reader, LogPreamble.bytes, eventLogOpen, Nat.zero_add,
        List.length_append]

end Preamble

/-! ## The round trip -/

section RoundTrip

variable (builtin : Nat → Option TpmAlgoInfo)

/-- Reading a log made of a preamble whose header declares no id past `algorithms[]` and the
records `E` returns `E` in order, numbered from zero, writes no slot past the array, and leaves
the locality the preamble declared; a log that ends inside one more record is refused with a
short read. -/
theorem eventLogReadAll_encodeLog (p : LogPreamble) (hp : p.WellFormed builtin)
    (hids : p.IdsInArray) (E : List LogRecord) (hE : ∀ r ∈ E, r.WellFormed builtin p.tpmVersion)
    (hhead : ∀ r ∈ E.head?, ¬ r.Special) :
    (∃ evs final,
      eventLogReadAll builtin (eventLogOpen (p.bytes ++ LogRecord.encodeAll p.tpmVersion E)) =
        .ok (evs, final) ∧
      evs.map TpmEvent.record = E ∧ evs.map TpmEvent.eventIndex = List.range E.length ∧
      eventLogGetLocality final 0 = p.locality ∧ final.tcg2Info.InArray) ∧
    ∀ (r : LogRecord) (q : List UInt8), r.WellFormed builtin p.tpmVersion →
      q <+: r.encode p.tpmVersion → q ≠ [] → q ≠ r.encode p.tpmVersion →
      eventLogReadAll builtin
        (eventLogOpen (p.bytes ++ (LogRecord.encodeAll p.tpmVersion E ++ q))) =
        .error .shortRead := by
  have hfd : ∀ tail, (p.reader builtin tail).fd = ⟨tail, p.bytes.length⟩ :=
    LogPreamble.reader_fd p
  have hv : ∀ tail, (p.reader builtin tail).tpmVersion = p.tpmVersion :=
    LogPreamble.reader_tpmVersion hp
  have hc : ∀ tail, (p.reader builtin tail).eventCount = 0 := LogPreamble.reader_eventCount p
  constructor
  · -- the log read to its end
    have h := @eventLogReadAll_encodeAll_eof builtin E
      (p.reader builtin (LogRecord.encodeAll p.tpmVersion E)) p.bytes.length
      (by rw [hfd, hv]) (by rwa [hv]) fun _ => hhead
    rw [hv, hc] at h
    exact ⟨_, _, (eventLogReadAll_preamble hp _).trans h, by simp,
      by simp [List.range_eq_range'], LogPreamble.getLocality_reader p _,
      LogPreamble.inArray_reader hids _⟩
  · -- the log cut inside a record
    intro r q hr hq hq₀ hqr
    rw [eventLogReadAll_preamble hp]
    exact @eventLogReadAll_encodeAll_cut builtin E _ r q p.bytes.length (by rw [hfd, hv])
      (by rwa [hv]) (fun _ => hhead) (by rwa [hv]) (by rwa [hv]) hq₀ (by rwa [hv])

theorem eventLogReadAll_encodeLog_tcg12 :
    ∃ evs final,
      eventLogReadAll digestByTpmAlg (eventLogOpen (LogRecord.encodeAll 1
        [⟨0, 4, [⟨⟨4, "sha1", 20⟩, 20, List.replicate 20 0⟩], [1, 2, 3]⟩])) = .ok (evs, final) ∧
      evs.map TpmEvent.record = [⟨0, 4, [⟨⟨4, "sha1", 20⟩, 20, List.replicate 20 0⟩], [1, 2, 3]⟩] ∧
      evs.map TpmEvent.eventIndex = [0] ∧ eventLogGetLocality final 0 = none ∧
      final.tcg2Info.InArray :=
  (eventLogReadAll_encodeLog digestByTpmAlg .tcg12 trivial trivial
    [⟨0, 4, [⟨⟨4, "sha1", 20⟩, 20, List.replicate 20 0⟩], [1, 2, 3]⟩] (by decide)
    (by simp [LogRecord.Special, tpm2EventNoAction])).1

/-- A crypto-agile log whose well-formed header declares id 65, which has no built-in algorithm,
is read back in the model, but only after `__tpm_event_parse_tcg2_info` wrote slot 65 of
`algorithms[]`, past its 64 slots and past the reader `calloc` gave. -/
theorem eventLogReadAll_encodeLog_slot65 :
    (LogPreamble.cryptoAgile ⟨⟨4, "sha1", 20⟩, 20, List.replicate 20 0⟩
      ⟨0, 0, 2, 0, 2, [(65, 20)], []⟩ none).WellFormed digestByTpmAlg ∧
    ∃ evs final, eventLogReadAll digestByTpmAlg (eventLogOpen
        ((LogPreamble.cryptoAgile ⟨⟨4, "sha1", 20⟩, 20, List.replicate 20 0⟩
          ⟨0, 0, 2, 0, 2, [(65, 20)], []⟩ none).bytes ++ LogRecord.encodeAll 2
          [⟨4, 13, [⟨⟨11, "sha256", 32⟩, 32, List.replicate 32 0⟩], []⟩])) = .ok (evs, final) ∧
      evs.map TpmEvent.record = [⟨4, 13, [⟨⟨11, "sha256", 32⟩, 32, List.replicate 32 0⟩], []⟩] ∧
      (65, ⟨0, "TPM2_ALG_65", 20⟩) ∈ final.tcg2Info.algorithms ∧ ¬ final.tcg2Info.InArray := by
  have hp : (LogPreamble.cryptoAgile ⟨⟨4, "sha1", 20⟩, 20, List.replicate 20 0⟩
      ⟨0, 0, 2, 0, 2, [(65, 20)], []⟩ none).WellFormed digestByTpmAlg :=
    ⟨by decide, by decide, rfl, by simp⟩
  have hrun := @eventLogReadAll_encodeAll_eof digestByTpmAlg
    [⟨4, 13, [⟨⟨11, "sha256", 32⟩, 32, List.replicate 32 0⟩], []⟩]
    ((LogPreamble.cryptoAgile ⟨⟨4, "sha1", 20⟩, 20, List.replicate 20 0⟩
      ⟨0, 0, 2, 0, 2, [(65, 20)], []⟩ none).reader digestByTpmAlg (LogRecord.encodeAll 2
        [⟨4, 13, [⟨⟨11, "sha256", 32⟩, 32, List.replicate 32 0⟩], []⟩])) _ rfl (by decide)
    (fun _ => by simp [LogRecord.Special, tpm2EventNoAction])
  have hmem : (65, ⟨0, "TPM2_ALG_65", 20⟩) ∈ registerAlgorithms digestByTpmAlg [] [(65, 20)] :=
    mem_registerAlgorithms.mpr (.inr ⟨(65, 20), List.mem_singleton_self _, rfl, by decide, rfl⟩)
  exact ⟨hp, _, _, (eventLogReadAll_preamble hp _).trans hrun, by simp, hmem,
    fun h => absurd (h _ hmem) (by decide)⟩

end RoundTrip

end PcrOracle
