import PcrOracle.EventLog.RoundTrip

/-!
# What every run of the reader returns

Whatever bytes it is given, every run of `event_log_read_next` that does not stop the program
returns events that look alike. Each has at most the 32 digests `event_log_resize_pcrs` allows,
each digest of an algorithm the reader knew, built in or declared by the header, and holding that
algorithm's `digest_size` bytes; in the TCG 1.2 format it has exactly one SHA-1 digest; its body
has at most 1 MiB. The events are numbered from the reader's `event_count` on, one by one.

The reader's state changes in one way only: the Spec ID and StartupLocality records are looked
at while `event_count` is zero. Once an event was returned, the version, the algorithm table and
the locality are fixed, so a Spec ID record further down the log is returned as an event and
changes nothing. All events of a run are therefore well formed for the header the reader ends
with.

The model keeps digest bytes and the algorithm table as lists, where the C code has
`tpm_evdigest_t.data` of `TPM2_MAX_DIGEST_SIZE` bytes and `algorithms[]` of 64 slots. A run whose
table does not fit them (`Tcg2Info.Fits`) is one where the C code wrote past an array, and the
run invariant is stated for the others: there every digest fits `data`.

The facts are proved for the values a parser returns (`Returns`), then for one pass
(`eventLogReadNextStep_post`), one call (`eventLogReadNextAux_post`), and the caller's loop.

## Main results

* `eventLogReadFields_returns`: the digests and body of one record.
* `eventLogReadNextAux_post`: what one call of `event_log_read_next` can do to the reader.
* `eventLogReadAll_invariant`: every run that stays within the C arrays, from every reader state.
-/

namespace PcrOracle

/-! ## The values a parser returns -/

section Returns

variable {α β : Type}

/-- Every value `p` returns satisfies `P`. -/
def Returns (p : Parser α) (P : α → Prop) : Prop :=
  ∀ s a s', p.run s = .ok (a, s') → P a

theorem returns_pure {P : α → Prop} {v : α} (h : P v) : Returns (pure v : Parser α) P := by
  rintro s a s' ⟨⟩
  exact h

theorem returns_throw (P : α → Prop) (e : ReadError) : Returns (throw e : Parser α) P := by
  rintro s a s' ⟨⟩

theorem Returns.bind {p : Parser α} {f : α → Parser β} {P : α → Prop} {Q : β → Prop}
    (hp : Returns p P) (hf : ∀ a, P a → Returns (f a) Q) : Returns (p >>= f) Q := by
  intro s b s' h
  rw [StateT.run_bind] at h
  match hps : p.run s, h with
  | .ok (a, s₁), h => exact hf a (hp _ _ _ hps) _ _ _ h

theorem returns_readExactly (len : Nat) : Returns (readExactly len) (·.length = len) := by
  intro s a s' h
  simp only [readExactly, StateT.run] at h
  split at h
  · cases h
    simp only [List.length_take]
    omega
  · cases h

theorem returns_true (p : Parser α) : Returns p fun _ => True :=
  fun _ _ _ _ => trivial

theorem Returns.imp {p : Parser α} {P Q : α → Prop} (hp : Returns p P) (h : ∀ a, P a → Q a) :
    Returns p Q :=
  fun s a s' hs => h a (hp s a s' hs)

end Returns

/-! ## One record -/

section Reader

variable (builtin : Nat → Option TpmAlgoInfo)

/-- A digest as `event_log_read_digest` fills it: of an algorithm the reader knows, with that
algorithm's size and that many bytes. -/
def DigestRead (info : Tcg2Info) (d : TpmEvdigest) : Prop :=
  (∃ algoId, eventLogGetAlgoInfo builtin info algoId = some d.algo) ∧
    d.size = d.algo.digestSize ∧ d.data.length = d.size

/-- The digests and body of a record as the reader returns them, read with the algorithm table
`info` in the format of `tpmVersion`. -/
structure RecordWellFormed (info : Tcg2Info) (tpmVersion : Nat) (pcrValues : List TpmEvdigest)
    (eventData : List UInt8) : Prop where
  /-- At most the 32 digests `event_log_resize_pcrs` allows. -/
  pcrCount_le : pcrValues.length ≤ 32
  /-- Each digest is of an algorithm the reader knows, and holds that algorithm's size. -/
  digests : ∀ d ∈ pcrValues, DigestRead builtin info d
  /-- A TCG 1.2 record carries one SHA-1 digest. -/
  tpm1 : tpmVersion = 1 →
    ∃ d, pcrValues = [d] ∧ eventLogGetAlgoInfo builtin info tpm2AlgSha1 = some d.algo
  /-- A body of at most 1 MiB. -/
  eventSize_le : eventData.length ≤ 1024 * 1024

theorem eventLogReadDigest_returns (info : Tcg2Info) (algoId : Nat) :
    Returns (eventLogReadDigest builtin info algoId) fun d =>
      eventLogGetAlgoInfo builtin info algoId = some d.algo ∧ d.size = d.algo.digestSize ∧
        d.data.length = d.size := by
  unfold eventLogReadDigest
  split
  · exact returns_throw _ _
  · rename_i algo halgo
    exact (returns_readExactly _).bind fun data hdata => returns_pure ⟨halgo, rfl, hdata⟩

theorem eventLogReadDigests_returns (info : Tcg2Info) : ∀ count,
    Returns (eventLogReadDigests builtin info count) fun ds =>
      ds.length = count ∧ ∀ d ∈ ds, DigestRead builtin info d
  | 0 => returns_pure ⟨rfl, fun _ h => absurd h (List.not_mem_nil _)⟩
  | count + 1 =>
    (returns_true readU16le).bind fun algoId _ =>
      (eventLogReadDigest_returns builtin info algoId).bind fun d hd =>
        (eventLogReadDigests_returns info count).bind fun ds hds =>
          returns_pure ⟨by rw [List.length_cons, hds.1], fun d' hd' =>
            (List.mem_cons.mp hd').elim (fun h => h ▸ ⟨⟨algoId, hd.1⟩, hd.2⟩) (hds.2 d')⟩

theorem eventLogReadPcrs_returns (log : TpmEventLogReader) :
    Returns (eventLogReadPcrs builtin log) fun ds =>
      ds.length ≤ 32 ∧ (∀ d ∈ ds, DigestRead builtin log.tcg2Info d) ∧
        (log.tpmVersion = 1 →
          ∃ d, ds = [d] ∧ eventLogGetAlgoInfo builtin log.tcg2Info tpm2AlgSha1 = some d.algo) := by
  unfold eventLogReadPcrs eventLogReadPcrsTpm1 eventLogReadPcrsTpm2
  split
  · -- TCG 1.2: one SHA-1 digest
    exact (eventLogReadDigest_returns builtin _ _).bind fun d hd => returns_pure
      ⟨by simp, fun d' hd' => (List.mem_singleton.mp hd') ▸ ⟨⟨_, hd.1⟩, hd.2⟩,
        fun _ => ⟨d, rfl, hd.1⟩⟩
  · -- crypto agile: a count of at most 32, and that many digests
    rename_i hv
    refine (returns_true readU32le).bind fun count _ => ?_
    split
    · exact returns_throw _ _
    · rename_i hcount
      exact (eventLogReadDigests_returns builtin _ count).imp fun ds hds =>
        ⟨by omega, hds.2, fun h => absurd h hv⟩

/-- The digests and body `event_log_read_next` reads for a record. -/
theorem eventLogReadFields_returns (log : TpmEventLogReader) :
    Returns (eventLogReadFields builtin log) fun r =>
      RecordWellFormed builtin log.tcg2Info log.tpmVersion r.1 r.2 := by
  unfold eventLogReadFields
  refine (eventLogReadPcrs_returns builtin log).bind fun pv hpv =>
    (returns_true readU32le).bind fun size _ => ?_
  split
  · exact returns_throw _ _
  · rename_i hsize
    exact (returns_readExactly size).bind fun ed hed =>
      returns_pure ⟨hpv.1, hpv.2.1, hpv.2.2, by dsimp only; omega⟩

/-! ## One call -/

/-- Two reader states that read records alike: the same version, algorithm table and
locality. -/
structure SameHeader (log l : TpmEventLogReader) : Prop where
  tcg2Info : l.tcg2Info = log.tcg2Info
  tpmVersion : l.tpmVersion = log.tpmVersion
  tpmStartup : l.tpmStartup = log.tpmStartup

theorem SameHeader.refl (log : TpmEventLogReader) : SameHeader log log := ⟨rfl, rfl, rfl⟩

theorem SameHeader.trans {log l₁ l : TpmEventLogReader} (h₁ : SameHeader log l₁)
    (h₂ : SameHeader l₁ l) : SameHeader log l :=
  ⟨h₂.tcg2Info.trans h₁.tcg2Info, h₂.tpmVersion.trans h₁.tpmVersion,
    h₂.tpmStartup.trans h₁.tpmStartup⟩

/-- What one call of `event_log_read_next` can do to the reader `log`. At the end of the log
the event count stays; an event is numbered with it and counted, and is well formed for the
header the call leaves; once an event was returned, the header does not change. -/
def ReadNextPost (log : TpmEventLogReader) : Option TpmEvent × TpmEventLogReader → Prop
  | (none, l) => l.eventCount = log.eventCount ∧ (0 < log.eventCount → SameHeader log l)
  | (some e, l) => e.eventIndex = log.eventCount ∧ l.eventCount = log.eventCount + 1 ∧
      RecordWellFormed builtin l.tcg2Info l.tpmVersion e.pcrValues e.eventData ∧
      (0 < log.eventCount → SameHeader log l)

/-- A jump back to `again` happens before any event was returned and keeps the count, so what
the next pass does is what the call does. -/
theorem ReadNextPost.of_again {log l' : TpmEventLogReader} (hc : l'.eventCount = log.eventCount)
    (h0 : log.eventCount = 0) :
    ∀ {r}, ReadNextPost builtin l' r → ReadNextPost builtin log r
  | (none, _), h => ⟨h.1.trans hc, fun hp => absurd h0 (Nat.pos_iff_ne_zero.mp hp)⟩
  | (some _, _), h => ⟨h.1.trans hc, by rw [h.2.1, hc], h.2.2.1,
      fun hp => absurd h0 (Nat.pos_iff_ne_zero.mp hp)⟩

theorem SameHeader.of_fd {log l : TpmEventLogReader} {fd : ByteStream}
    (h : SameHeader { log with fd } l) : SameHeader log l :=
  ⟨h.1, h.2, h.3⟩

/-- The stream is not part of what a call does to the reader. -/
theorem ReadNextPost.of_fd {log : TpmEventLogReader} {fd : ByteStream} :
    ∀ {r}, ReadNextPost builtin { log with fd } r → ReadNextPost builtin log r
  | (none, _), h => ⟨h.1, fun hp => (h.2 hp).of_fd⟩
  | (some _, _), h => ⟨h.1, h.2.1, h.2.2.1, fun hp => (h.2.2.2 hp).of_fd⟩

/-- The dispatch: a header record jumps back, which only happens while no event was returned,
and any other record is returned under the next number. -/
theorem eventLogDispatch_post {log : TpmEventLogReader} {ev : TpmEvent}
    {again : TpmEventLogReader → Except ReadError (Option TpmEvent × TpmEventLogReader)}
    (hev : RecordWellFormed builtin log.tcg2Info log.tpmVersion ev.pcrValues ev.eventData)
    (hagain : ∀ l', l'.eventCount = log.eventCount → ∀ r, again l' = .ok r →
      ReadNextPost builtin l' r)
    {r} (h : eventLogDispatch builtin log ev again = .ok r) : ReadNextPost builtin log r := by
  unfold eventLogDispatch at h
  split_ifs at h with hspec hloc
  · split at h
    · cases h
    · exact ReadNextPost.of_again builtin (by rfl) hspec.1.2.2.1 (hagain _ (by rfl) _ h)
  · exact ReadNextPost.of_again builtin (by rfl) hloc.1.2.2.1 (hagain _ (by rfl) _ h)
  · cases h
    exact ⟨rfl, rfl, hev, fun _ => ⟨rfl, rfl, rfl⟩⟩

/-- What one pass can do: stop at the end of the log, or read a record's PCR index, event type,
digests and body, and dispatch it. -/
theorem eventLogReadNextStep_cases {log : TpmEventLogReader}
    {again : TpmEventLogReader → Except ReadError (Option TpmEvent × TpmEventLogReader)} {r}
    (h : eventLogReadNextStep builtin log again = .ok r) :
    (∃ fd, readU32leOrEof.run log.fd = .ok (none, fd) ∧ r = (none, { log with fd })) ∨
    ∃ pcrIndex eventType pcrValues eventData fd₁ fd₂ fd₃,
      readU32leOrEof.run log.fd = .ok (some pcrIndex, fd₁) ∧
      readU32le.run fd₁ = .ok (eventType, fd₂) ∧
      (eventLogReadFields builtin log).run fd₂ = .ok ((pcrValues, eventData), fd₃) ∧
      eventLogDispatch builtin { log with fd := fd₃ }
        ⟨0, pcrIndex, eventType, fd₂.pos, pcrValues, eventData⟩ again = .ok r := by
  unfold eventLogReadNextStep at h
  cases h₁ : readU32leOrEof.run log.fd with
  | error => simp [h₁] at h
  | ok r₁ =>
  obtain ⟨_ | pcrIndex, fd₁⟩ := r₁
  · simp only [h₁, Except.ok.injEq] at h
    exact .inl ⟨fd₁, rfl, h.symm⟩
  cases h₂ : readU32le.run fd₁ with
  | error => simp [h₁, h₂] at h
  | ok r₂ =>
  obtain ⟨eventType, fd₂⟩ := r₂
  cases h₃ : (eventLogReadFields builtin log).run fd₂ with
  | error => simp [h₁, h₂, h₃] at h
  | ok r₃ =>
  obtain ⟨⟨pcrValues, eventData⟩, fd₃⟩ := r₃
  simp only [h₁, h₂, h₃] at h
  exact .inr ⟨_, _, _, _, _, _, _, rfl, h₂, h₃, h⟩

/-- One pass from `again`, given what the passes after a jump back do. -/
theorem eventLogReadNextStep_post {log : TpmEventLogReader}
    {again : TpmEventLogReader → Except ReadError (Option TpmEvent × TpmEventLogReader)}
    (hagain : ∀ l', l'.eventCount = log.eventCount → ∀ r, again l' = .ok r →
      ReadNextPost builtin l' r)
    {r} (h : eventLogReadNextStep builtin log again = .ok r) : ReadNextPost builtin log r := by
  rcases eventLogReadNextStep_cases builtin h with ⟨_, -, rfl⟩ | ⟨_, _, _, _, _, _, _, -, -, h₃, h⟩
  · exact ⟨rfl, fun _ => ⟨rfl, rfl, rfl⟩⟩
  · refine ReadNextPost.of_fd builtin (eventLogDispatch_post builtin ?_ ?_ h)
    · exact eventLogReadFields_returns builtin log _ _ _ h₃
    · exact hagain

/-- One call of `event_log_read_next`, whatever the fuel. -/
theorem eventLogReadNextAux_post : ∀ (fuel : Nat) (log : TpmEventLogReader) {r},
    eventLogReadNextAux builtin fuel log = .ok r → ReadNextPost builtin log r
  | 0, _, _, h => by
    cases h
    exact ⟨rfl, fun _ => SameHeader.refl _⟩
  | fuel + 1, _, _, h =>
    eventLogReadNextStep_post builtin (fun l' _ _ h' => eventLogReadNextAux_post fuel l' h') h

/-! ## Every run -/

/-- What a run of the caller's loop returns from the reader `log` and leaves it as: events
numbered from `event_count` on, as many as the count grew by, each well formed for the header
the reader ends with; and once `log` has returned an event, that header is its own. -/
structure RunPost (log : TpmEventLogReader) (evs : List TpmEvent) (l : TpmEventLogReader) :
    Prop where
  eventIndex : evs.map TpmEvent.eventIndex = List.range' log.eventCount evs.length
  eventCount : l.eventCount = log.eventCount + evs.length
  wellFormed : ∀ e ∈ evs, RecordWellFormed builtin l.tcg2Info l.tpmVersion e.pcrValues e.eventData
  header : 0 < log.eventCount → SameHeader log l

/-- What one round of the caller's loop can do: meet the end of the log, or take an event and
go on. -/
theorem eventLogReadAllAux_cases {fuel : Nat} {log : TpmEventLogReader} {evs : List TpmEvent}
    {l : TpmEventLogReader} (h : eventLogReadAllAux builtin (fuel + 1) log = .ok (evs, l)) :
    (evs = [] ∧ eventLogReadNext builtin log = .ok (none, l)) ∨
    ∃ e evs' l₁, evs = e :: evs' ∧ eventLogReadNext builtin log = .ok (some e, l₁) ∧
      eventLogReadAllAux builtin fuel l₁ = .ok (evs', l) := by
  simp only [eventLogReadAllAux, bind, Except.bind] at h
  cases hr : eventLogReadNext builtin log with
  | error => simp [hr] at h
  | ok r =>
  obtain ⟨_ | e, l₁⟩ := r
  · simp only [hr, pure, Except.pure, Except.ok.injEq, Prod.mk.injEq] at h
    obtain ⟨rfl, rfl⟩ := h
    exact .inl ⟨rfl, rfl⟩
  · cases hrest : eventLogReadAllAux builtin fuel l₁ with
    | error => simp [hr, hrest] at h
    | ok r' =>
    simp only [hr, hrest, pure, Except.pure, Except.ok.injEq, Prod.mk.injEq] at h
    obtain ⟨rfl, rfl⟩ := h
    exact .inr ⟨e, _, l₁, rfl, rfl, hrest⟩

theorem eventLogReadAllAux_post : ∀ (fuel : Nat) (log : TpmEventLogReader) {evs l},
    eventLogReadAllAux builtin fuel log = .ok (evs, l) → RunPost builtin log evs l
  | 0, _, _, _, h => by
    cases h
    exact ⟨rfl, rfl, fun _ h => absurd h (List.not_mem_nil _), fun _ => SameHeader.refl _⟩
  | fuel + 1, log, evs, l, h => by
    rcases eventLogReadAllAux_cases builtin h with ⟨rfl, hr⟩ | ⟨e, evs', l₁, rfl, hr, hrest⟩
    · -- the end of the log
      have hp := eventLogReadNextAux_post builtin _ log hr
      exact ⟨rfl, by rw [hp.1]; rfl, fun _ h => absurd h (List.not_mem_nil _), hp.2⟩
    · -- an event, then the rest of the run
      have hp := eventLogReadNextAux_post builtin _ log hr
      have ih := eventLogReadAllAux_post fuel l₁ hrest
      have hsame := ih.header (by rw [hp.2.1]; omega)
      refine ⟨?_, ?_, ?_, fun hpos => (hp.2.2.2 hpos).trans hsame⟩
      · rw [List.map_cons, ih.eventIndex, hp.1, hp.2.1, List.length_cons, List.range'_succ]
      · rw [ih.eventCount, hp.2.1, List.length_cons]
        omega
      · intro x hx
        rcases List.mem_cons.mp hx with rfl | hx
        · rw [hsame.tcg2Info, hsame.tpmVersion]
          exact hp.2.2.1
        · exact ih.wellFormed x hx

/-! ## The C arrays -/

/-- A digest read with a table that fits the C structures, over a built-in table whose digests
fit `tpm_evdigest_t.data`, fits `data`. -/
theorem DigestRead.fits (hbuiltin : BuiltinFits builtin) {info : Tcg2Info} (hinfo : info.Fits)
    {d : TpmEvdigest} (hd : DigestRead builtin info d) : d.Fits := by
  obtain ⟨⟨algoId, halgo⟩, hsize, hlen⟩ := hd
  have hle : d.algo.digestSize ≤ tpm2MaxDigestSize := by
    unfold eventLogGetAlgoInfo digestByTpmAlgIn at halgo
    split at halgo
    · rename_i hb
      exact hbuiltin algoId _ (hb.trans halgo)
    · split_ifs at halgo
      obtain ⟨l₁, l₂, hl, -⟩ := List.lookup_eq_some_iff.mp halgo
      exact hinfo.2 _ (hl ▸ List.mem_append_right l₁ (List.mem_cons_self _ _))
  exact (hlen.trans hsize).trans_le hle

/-- Whatever bytes the reader is given, every run that does not stop the program and ends with
an algorithm table that fits the C structures returns events numbered from the reader's
`event_count` on, one by one; each has at most 32 digests, of algorithms the reader knows and
with their sizes, one SHA-1 digest in the TCG 1.2 format, and a body of at most 1 MiB, for the
header the reader ends with; a reader that has returned an event keeps its version, algorithm
table and locality to the end; and over a built-in table that fits `tpm_evdigest_t.data`, every
digest fits `data`. -/
theorem eventLogReadAll_invariant (hbuiltin : BuiltinFits builtin) (log : TpmEventLogReader)
    {evs : List TpmEvent} {l : TpmEventLogReader} (h : eventLogReadAll builtin log = .ok (evs, l))
    (hfits : l.tcg2Info.Fits) :
    RunPost builtin log evs l ∧ ∀ e ∈ evs, ∀ d ∈ e.pcrValues, d.Fits := by
  have hpost := eventLogReadAllAux_post builtin _ log h
  exact ⟨hpost, fun e he d hd =>
    DigestRead.fits builtin hbuiltin hfits ((hpost.wellFormed e he).digests d hd)⟩

end Reader

theorem eventLogReadAll_invariant_tcg12 :
    ∃ evs l, eventLogReadAll digestByTpmAlg (eventLogOpen (LogRecord.encodeAll 1
        [⟨0, 4, [⟨⟨4, "sha1", 20⟩, 20, List.replicate 20 0⟩], [1, 2, 3]⟩])) = .ok (evs, l) ∧
      l.tcg2Info.Fits ∧
      RunPost digestByTpmAlg (eventLogOpen (LogRecord.encodeAll 1
        [⟨0, 4, [⟨⟨4, "sha1", 20⟩, 20, List.replicate 20 0⟩], [1, 2, 3]⟩])) evs l ∧
      ∀ e ∈ evs, ∀ d ∈ e.pcrValues, d.Fits :=
  ⟨_, _, rfl, by decide,
    eventLogReadAll_invariant digestByTpmAlg builtinFits_digestByTpmAlg _ rfl (by decide)⟩

end PcrOracle
