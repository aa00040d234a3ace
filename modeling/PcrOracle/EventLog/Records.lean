import PcrOracle.EventLog.Fuel

/-!
# Log records and how the reader reads one

The other direction of the reader: `LogRecord.encode` writes a record in the TCG 1.2 format
(one bare SHA-1 digest) or the crypto-agile one (a count, then an algorithm id before each
digest), and `LogRecord.WellFormed` says which records that format can carry. A well-formed
record is read back field by field (`decodes_eventLogReadFields`), and one pass of
`event_log_read_next` over it returns it (`eventLogReadNextStep_encode`) unless it is a Spec ID
header or a StartupLocality record met before any event. On every proper prefix of a record the
pass stops with a short read instead (`eventLogReadNextStep_cut`).
-/

namespace PcrOracle

/-- A record of the log as `event_log_read_next` returns it, without its index and offset. -/
structure LogRecord where
  pcrIndex : Nat
  eventType : Nat
  digests : List TpmEvdigest
  body : List UInt8
  deriving DecidableEq, Repr

/-- The record an event was read from. -/
def TpmEvent.record (ev : TpmEvent) : LogRecord :=
  ⟨ev.pcrIndex, ev.eventType, ev.pcrValues, ev.eventData⟩

/-- A digest as a crypto-agile record lists it: the algorithm id, then the digest bytes. -/
def TpmEvdigest.encode (d : TpmEvdigest) : List UInt8 := leBytes 2 d.algo.tcgId ++ d.data

/-- The digest set of a record in the format of `tpmVersion`: the bare bytes of its digest in
TCG 1.2, a count and the algorithm of each digest in the crypto-agile format. -/
def LogRecord.digestBytes (tpmVersion : Nat) (r : LogRecord) : List UInt8 :=
  if tpmVersion = 1 then r.digests.flatMap (·.data)
  else leBytes 4 r.digests.length ++ r.digests.flatMap TpmEvdigest.encode

/-- What follows the event type: the digest set, the body size and the body. -/
def LogRecord.fields (tpmVersion : Nat) (r : LogRecord) : List UInt8 :=
  r.digestBytes tpmVersion ++ (leBytes 4 r.body.length ++ r.body)

/-- A record in the format of `tpmVersion`. -/
def LogRecord.encode (tpmVersion : Nat) (r : LogRecord) : List UInt8 :=
  leBytes 4 r.pcrIndex ++ (leBytes 4 r.eventType ++ r.fields tpmVersion)

/-- A digest the reader reads back: of a built-in algorithm, whose id fits the two bytes the
crypto-agile format gives it, with as many bytes as that algorithm's digests have. -/
@[mk_iff]
structure TpmEvdigest.WellFormed (builtin : Nat → Option TpmAlgoInfo) (d : TpmEvdigest) :
    Prop where
  builtin_eq : builtin d.algo.tcgId = some d.algo
  tcgId_lt : d.algo.tcgId < 2 ^ 16
  size_eq : d.size = d.algo.digestSize
  length_eq : d.data.length = d.algo.digestSize

/-- The digests a record of version `tpmVersion` carries: one SHA-1 digest in TCG 1.2, at
most 32 in the crypto-agile format. -/
def LogRecord.DigestsFit (tpmVersion : Nat) (r : LogRecord) : Prop :=
  if tpmVersion = 1 then r.digests.map (·.algo.tcgId) = [tpm2AlgSha1]
  else r.digests.length ≤ 32

instance (tpmVersion : Nat) (r : LogRecord) : Decidable (r.DigestsFit tpmVersion) :=
  inferInstanceAs (Decidable (ite _ _ _))

/-- A record the format of `tpmVersion` carries: its two words fit in 32 bits, its digests are
well formed and fit the format, and its body is at most 1 MiB. -/
@[mk_iff]
structure LogRecord.WellFormed (builtin : Nat → Option TpmAlgoInfo) (tpmVersion : Nat)
    (r : LogRecord) : Prop where
  pcrIndex_lt : r.pcrIndex < 2 ^ 32
  eventType_lt : r.eventType < 2 ^ 32
  digests_wellFormed : ∀ d ∈ r.digests, d.WellFormed builtin
  digests_fit : r.DigestsFit tpmVersion
  body_length_le : r.body.length ≤ 1024 * 1024

instance (builtin : Nat → Option TpmAlgoInfo) (d : TpmEvdigest) : Decidable (d.WellFormed builtin) :=
  decidable_of_iff _ (TpmEvdigest.wellFormed_iff builtin d).symm

instance (builtin : Nat → Option TpmAlgoInfo) (tpmVersion : Nat) (r : LogRecord) :
    Decidable (r.WellFormed builtin tpmVersion) :=
  decidable_of_iff _ (LogRecord.wellFormed_iff builtin tpmVersion r).symm

/-- The records `event_log_read_next` consumes when no event has been returned yet: a
`NO_ACTION` in PCR 0 whose body starts with "Spec ID Event03" or is "StartupLocality\0" and one
more byte. -/
def LogRecord.Special (r : LogRecord) : Prop :=
  r.eventType = tpm2EventNoAction ∧ r.pcrIndex = 0 ∧
    (asciiBytes "Spec ID Event03" <+: r.body ∨ ∃ b, r.body = startupLocalitySignature ++ [b])

section Decoding

variable {builtin : Nat → Option TpmAlgoInfo}

/-- `event_log_read_digest` reads as many bytes as the algorithm the reader finds for the id
declares, whatever that size is. -/
theorem decodes_eventLogReadDigest_of_getAlgoInfo {info : Tcg2Info} {algoId : Nat}
    {algo : TpmAlgoInfo} (h : eventLogGetAlgoInfo builtin info algoId = some algo)
    {data : List UInt8} (hlen : data.length = algo.digestSize) :
    Decodes (eventLogReadDigest builtin info algoId) data ⟨algo, algo.digestSize, data⟩ := by
  unfold eventLogReadDigest
  rw [h]
  have hd := (decodes_readExactly data).bind_pure (TpmEvdigest.mk algo algo.digestSize)
  rwa [hlen] at hd

theorem decodes_eventLogReadDigest (info : Tcg2Info) {d : TpmEvdigest}
    (hd : d.WellFormed builtin) :
    Decodes (eventLogReadDigest builtin info d.algo.tcgId) d.data d := by
  obtain ⟨algo, size, data⟩ := d
  obtain ⟨hb, -, hsize, hlen⟩ := hd
  dsimp only at hb hsize hlen ⊢
  subst hsize
  exact decodes_eventLogReadDigest_of_getAlgoInfo (by simp [eventLogGetAlgoInfo, hb]) hlen

theorem decodes_eventLogReadDigests (info : Tcg2Info) :
    ∀ {ds : List TpmEvdigest}, (∀ d ∈ ds, d.WellFormed builtin) →
      Decodes (eventLogReadDigests builtin info ds.length) (ds.flatMap TpmEvdigest.encode) ds
  | [], _ => decodes_pure []
  | d :: ds, h => by
    have hd := h d (List.mem_cons_self d ds)
    have hrest := decodes_eventLogReadDigests info fun d' hd' => h d' (List.mem_cons_of_mem d hd')
    rw [List.flatMap_cons, TpmEvdigest.encode, List.append_assoc]
    exact (decodes_readU16le hd.tcgId_lt).bind <| (decodes_eventLogReadDigest info hd).bind <|
      hrest.bind_pure (List.cons d)

theorem decodes_eventLogReadPcrs (log : TpmEventLogReader) {r : LogRecord}
    (hr : r.WellFormed builtin log.tpmVersion) :
    Decodes (eventLogReadPcrs builtin log) (r.digestBytes log.tpmVersion) r.digests := by
  have hfit := hr.digests_fit
  unfold LogRecord.DigestsFit at hfit
  unfold eventLogReadPcrs LogRecord.digestBytes
  split_ifs at hfit ⊢ with hv
  · obtain ⟨d, hds, hid⟩ : ∃ d, r.digests = [d] ∧ d.algo.tcgId = tpm2AlgSha1 := by
      simpa [List.map_eq_cons_iff] using hfit
    have hd := hr.digests_wellFormed d (by simp [hds])
    rw [hds, List.flatMap_singleton]
    unfold eventLogReadPcrsTpm1
    rw [← hid]
    exact (decodes_eventLogReadDigest log.tcg2Info hd).bind_pure fun d => [d]
  · have hcount : ¬ r.digests.length > 32 := by omega
    have hlt : r.digests.length < 2 ^ 32 := by omega
    exact (decodes_readU32le hlt).bind <| Decodes.of_not_throw hcount <|
      decodes_eventLogReadDigests log.tcg2Info hr.digests_wellFormed

theorem decodes_eventLogReadFields (log : TpmEventLogReader) {r : LogRecord}
    (hr : r.WellFormed builtin log.tpmVersion) :
    Decodes (eventLogReadFields builtin log) (r.fields log.tpmVersion) (r.digests, r.body) := by
  have hsize : ¬ r.body.length > 1024 * 1024 := by have := hr.body_length_le; omega
  have hlt : r.body.length < 2 ^ 32 := by have := hr.body_length_le; omega
  exact (decodes_eventLogReadPcrs log hr).bind <| (decodes_readU32le hlt).bind <|
    Decodes.of_not_throw hsize <| (decodes_readExactly r.body).bind_pure (Prod.mk r.digests)

end Decoding

/-- The event a record is returned as: numbered `n`, its PCR index at file offset `pos`. -/
def LogRecord.toEvent (r : LogRecord) (n pos : Nat) : TpmEvent :=
  ⟨n, r.pcrIndex, r.eventType, pos + 8, r.digests, r.body⟩

@[simp]
theorem LogRecord.length_encode (v : Nat) (r : LogRecord) :
    (r.encode v).length = 8 + (r.fields v).length := by
  simp [LogRecord.encode]
  omega

section Pass

variable {builtin : Nat → Option TpmAlgoInfo}

/-- A record the dispatch parses as a Spec ID header is special. -/
theorem TpmEvent.special_of_specId {log : TpmEventLogReader} {ev : TpmEvent}
    (h : mayBeSpecial log ev ∧ ev.eventData.take 16 = specIdSignature) : ev.record.Special := by
  obtain ⟨⟨ht, hp, -, -⟩, hs⟩ := h
  refine ⟨ht, hp, .inl ?_⟩
  have hpre : asciiBytes "Spec ID Event03" <+: ev.eventData.take 16 := by
    rw [hs]
    exact List.prefix_append _ _
  exact hpre.trans (List.take_prefix _ _)

/-- A record the dispatch takes for a StartupLocality record is special. -/
theorem TpmEvent.special_of_startupLocality {log : TpmEventLogReader} {ev : TpmEvent}
    (h : mayBeSpecial log ev ∧ ev.eventData.take 16 = startupLocalitySignature ∧
      ev.eventData.length = 17) : ev.record.Special := by
  obtain ⟨⟨ht, hp, -, -⟩, hs, hlen⟩ := h
  refine ⟨ht, hp, .inr ⟨ev.eventData.getD 16 0, ?_⟩⟩
  obtain ⟨b, hb⟩ := List.length_eq_one.mp (by simp only [List.length_drop, hlen] :
    (ev.eventData.drop 16).length = 1)
  have hbody := List.take_append_drop 16 ev.eventData
  rw [hs, hb] at hbody
  show ev.eventData = _
  rw [← hbody]
  simp [startupLocalitySignature, asciiBytes]

/-- A record that is not special, or that comes after an event, is returned by the dispatch
under the next index. -/
theorem eventLogDispatch_toEvent {log : TpmEventLogReader} {r : LogRecord} {pos : Nat}
    (h : log.eventCount = 0 → ¬ r.Special)
    (again : TpmEventLogReader → Except ReadError (Option TpmEvent × TpmEventLogReader)) :
    eventLogDispatch builtin log (r.toEvent 0 pos) again =
      .ok (some (r.toEvent log.eventCount pos), { log with eventCount := log.eventCount + 1 }) := by
  unfold eventLogDispatch
  rw [if_neg fun hc => h hc.1.2.2.1
      (TpmEvent.special_of_specId hc : (r.toEvent 0 pos).record.Special),
    if_neg fun hc => h hc.1.2.2.1
      (TpmEvent.special_of_startupLocality hc : (r.toEvent 0 pos).record.Special)]
  rfl

/-- Reading a record that starts the stream: its three reads take exactly its bytes. -/
theorem eventLogReadNextStep_of_reads {log : TpmEventLogReader} {r : LogRecord}
    {rest : List UInt8} {pos : Nat}
    (hfd : log.fd = ⟨r.encode log.tpmVersion ++ rest, pos⟩)
    (hr : r.WellFormed builtin log.tpmVersion)
    (again : TpmEventLogReader → Except ReadError (Option TpmEvent × TpmEventLogReader)) :
    eventLogReadNextStep builtin log again =
      eventLogDispatch builtin
        { log with fd := ⟨rest, pos + (r.encode log.tpmVersion).length⟩ } (r.toEvent 0 pos)
        again := by
  have h₁ : readU32leOrEof.run log.fd =
      .ok (some r.pcrIndex, ⟨leBytes 4 r.eventType ++ (r.fields log.tpmVersion ++ rest), pos + 4⟩)
      := by
    rw [readU32leOrEof_of_ne_nil (by simp [hfd, LogRecord.encode]), StateT.run_map, hfd]
    simp only [LogRecord.encode, List.append_assoc,
      (decodes_readU32le hr.pcrIndex_lt).reads, length_leBytes]
    rfl
  have h₂ := (decodes_readU32le hr.eventType_lt).reads (r.fields log.tpmVersion ++ rest) (pos + 4)
  have h₃ := (decodes_eventLogReadFields log hr).reads rest (pos + 4 + 4)
  unfold eventLogReadNextStep
  simp only [h₁, h₂, h₃, length_leBytes, LogRecord.length_encode]
  congr 3
  · omega

theorem eventLogReadNextStep_encode {log : TpmEventLogReader} {r : LogRecord}
    {rest : List UInt8} {pos : Nat}
    (hfd : log.fd = ⟨r.encode log.tpmVersion ++ rest, pos⟩)
    (hr : r.WellFormed builtin log.tpmVersion) (h : log.eventCount = 0 → ¬ r.Special)
    (again : TpmEventLogReader → Except ReadError (Option TpmEvent × TpmEventLogReader)) :
    eventLogReadNextStep builtin log again =
      .ok (some (r.toEvent log.eventCount pos),
        { log with fd := ⟨rest, pos + (r.encode log.tpmVersion).length⟩,
                   eventCount := log.eventCount + 1 }) := by
  rw [eventLogReadNextStep_of_reads hfd hr]
  exact @eventLogDispatch_toEvent builtin
    { log with fd := ⟨rest, pos + (r.encode log.tpmVersion).length⟩ } r pos h again

/-- On a stream that ends inside a record, one pass stops with a short read. -/
theorem eventLogReadNextStep_cut {log : TpmEventLogReader} {r : LogRecord} {q : List UInt8}
    {pos : Nat} (hfd : log.fd = ⟨q, pos⟩) (hr : r.WellFormed builtin log.tpmVersion)
    (hq : q <+: r.encode log.tpmVersion) (hq₀ : q ≠ []) (hqr : q ≠ r.encode log.tpmVersion)
    (again : TpmEventLogReader → Except ReadError (Option TpmEvent × TpmEventLogReader)) :
    eventLogReadNextStep builtin log again = .error .shortRead := by
  have hpcr := decodes_readU32le hr.pcrIndex_lt
  have htype := decodes_readU32le hr.eventType_lt
  unfold eventLogReadNextStep
  rw [readU32leOrEof_of_ne_nil (by rw [hfd]; exact hq₀), hfd, StateT.run_map]
  rcases prefix_append_cases hq hqr with ⟨h₁, h₁'⟩ | ⟨q₁, rfl, hq₁, hq₁'⟩
  · -- inside the PCR index
    rw [hpcr.cut q pos h₁ h₁']
    rfl
  rw [hpcr.reads]
  rcases prefix_append_cases hq₁ hq₁' with ⟨h₂, h₂'⟩ | ⟨q₂, rfl, hq₂, hq₂'⟩
  · -- inside the event type
    simp only [Functor.map, Except.map, htype.cut q₁ _ h₂ h₂']
  · -- inside the digests, the size or the body
    simp only [Functor.map, Except.map, htype.reads,
      (decodes_eventLogReadFields log hr).cut q₂ _ hq₂ hq₂']

end Pass

end PcrOracle
