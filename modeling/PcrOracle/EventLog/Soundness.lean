import PcrOracle.EventLog.Invariants

/-!
# What the reader accepts

The converse of the round trip: every log on which a run of the reader does not stop the program
is made of whole records, one after the other. It starts with the header records
`event_log_read_next` consumed while no event had been returned, each a Spec ID header or a
StartupLocality record in the format the reader was in when it met it; then come the records of
the returned events, in order and in the format the reader ends with; and nothing follows them.

An event keeps the algorithms of its digests, not the ids they were written under, so the bytes
are the events' encoding when the reader knows each algorithm under its own id: the built-in
table lists each algorithm under its `tcg_id`, and the header declared no algorithm of its own.
An algorithm `__tpm_event_parse_tcg2_info` registers keeps the `tcg_id` zero that `calloc` gave it.

## Main results

* `Consumes`: what a parser's result says about the bytes it took.
* `eventLogReadFields_consumes`: the digests and body of a record are the bytes read for them.
* `eventLogReadNextAux_bytes`: what one call of `event_log_read_next` took.
* `eventLogReadAll_records`: every accepted log, from every reader state.
-/

namespace PcrOracle

/-! ## The bytes a parser takes -/

section Consumes

variable {α β : Type}

/-- Every run of `p` that succeeds takes bytes `xs` off the stream, with `R a xs` for its
result `a`. -/
def Consumes (p : Parser α) (R : α → List UInt8 → Prop) : Prop :=
  ∀ s a s', p.run s = .ok (a, s') → ∃ xs, s.data = xs ++ s'.data ∧ R a xs

theorem consumes_pure {R : α → List UInt8 → Prop} {v : α} (h : R v []) :
    Consumes (pure v : Parser α) R := by
  rintro s a s' ⟨⟩
  exact ⟨[], rfl, h⟩

theorem consumes_throw (R : α → List UInt8 → Prop) (e : ReadError) :
    Consumes (throw e : Parser α) R := by
  rintro s a s' ⟨⟩

theorem Consumes.bind {p : Parser α} {f : α → Parser β} {R : α → List UInt8 → Prop}
    {S : β → List UInt8 → Prop} (hp : Consumes p R)
    (hf : ∀ a xs, R a xs → Consumes (f a) fun b ys => S b (xs ++ ys)) :
    Consumes (p >>= f) S := by
  intro s b s' h
  rw [StateT.run_bind] at h
  match hps : p.run s, h with
  | .ok (a, s₁), h =>
    obtain ⟨xs, hxs, hR⟩ := hp _ _ _ hps
    obtain ⟨ys, hys, hS⟩ := hf a xs hR _ _ _ h
    exact ⟨xs ++ ys, by rw [hxs, hys, List.append_assoc], hS⟩

theorem Consumes.imp {p : Parser α} {R S : α → List UInt8 → Prop} (hp : Consumes p R)
    (h : ∀ a xs, R a xs → S a xs) : Consumes p S := fun s a s' hs =>
  let ⟨xs, hxs, hR⟩ := hp s a s' hs
  ⟨xs, hxs, h a xs hR⟩

theorem consumes_readExactly (len : Nat) :
    Consumes (readExactly len) fun a xs => xs = a ∧ a.length = len := by
  intro s a s' h
  simp only [readExactly, StateT.run] at h
  split at h
  · cases h
    exact ⟨_, (List.take_append_drop len s.data).symm, rfl, by simp only [List.length_take]; omega⟩
  · cases h

/-- Little-endian bytes of the value they encode are those bytes. -/
theorem leBytes_leValue : ∀ xs : List UInt8, leBytes xs.length (leValue xs) = xs
  | [] => rfl
  | b :: bs => by
    have hb : b.toNat < 256 := b.val.isLt
    show UInt8.ofNat (b.toNat + 256 * leValue bs) ::
      leBytes bs.length ((b.toNat + 256 * leValue bs) / 256) = b :: bs
    rw [show (b.toNat + 256 * leValue bs) / 256 = leValue bs by omega, leBytes_leValue bs]
    congr 1
    exact UInt8.toNat.inj (by show (b.toNat + 256 * leValue bs) % 256 = b.toNat; omega)

theorem consumes_leValue (n : Nat) :
    Consumes (leValue <$> readExactly n) fun v xs => xs = leBytes n v := by
  intro s v s' h
  rw [StateT.run_map] at h
  match hr : (readExactly n).run s, h with
  | .ok (a, s₁), h =>
    cases h
    obtain ⟨xs, hxs, rfl, rfl⟩ := consumes_readExactly n s a s₁ hr
    exact ⟨xs, hxs, (leBytes_leValue xs).symm⟩

theorem consumes_readU32le : Consumes readU32le fun v xs => xs = leBytes 4 v :=
  consumes_leValue 4

theorem consumes_readU16le : Consumes readU16le fun v xs => xs = leBytes 2 v :=
  consumes_leValue 2

/-- `__read_u32le_or_eof` reports the end of the log only at its end, and takes nothing. -/
theorem readU32leOrEof_eq_none {s s' : ByteStream} (h : readU32leOrEof.run s = .ok (none, s')) :
    s' = s ∧ s.data = [] := by
  by_cases he : s.data = []
  · simp only [readU32leOrEof, StateT.run, he, if_true, Except.ok.injEq, Prod.mk.injEq] at h
    exact ⟨h.2.symm, he⟩
  · rw [readU32leOrEof_of_ne_nil he, StateT.run_map] at h
    match hr : readU32le.run s, h with
    | .ok (a, s₁), h => cases h

/-- A word read by `__read_u32le_or_eof` is the four bytes it took. -/
theorem readU32leOrEof_eq_some {s s' : ByteStream} {v : Nat}
    (h : readU32leOrEof.run s = .ok (some v, s')) : s.data = leBytes 4 v ++ s'.data := by
  by_cases he : s.data = []
  · simp [readU32leOrEof, StateT.run, he] at h
  · rw [readU32leOrEof_of_ne_nil he, StateT.run_map] at h
    match hr : readU32le.run s, h with
    | .ok (a, s₁), h =>
      cases h
      obtain ⟨xs, hxs, rfl⟩ := consumes_readU32le s a s₁ hr
      exact hxs

end Consumes

/-! ## The bytes of one record -/

/-- A table that finds each algorithm under its own id. -/
def NamesById (lookup : Nat → Option TpmAlgoInfo) : Prop :=
  ∀ algoId algo, lookup algoId = some algo → algo.tcgId = algoId

theorem namesById_digestByTpmAlg : NamesById digestByTpmAlg := fun _ _ h =>
  of_decide_eq_true (List.find?_some (p := fun a : TpmAlgoInfo => decide (a.tcgId = _)) h)

section Reader

variable (builtin : Nat → Option TpmAlgoInfo)

/-- With no algorithm of the header's own, the reader finds algorithms in the built-in table
only. -/
theorem namesById_eventLogGetAlgoInfo (hbuiltin : NamesById builtin) {info : Tcg2Info}
    (h : info.algorithms = []) : NamesById (eventLogGetAlgoInfo builtin info) := by
  intro algoId algo halgo
  unfold eventLogGetAlgoInfo at halgo
  split at halgo
  · rename_i algo' hb
    cases halgo
    exact hbuiltin _ _ hb
  · simp [digestByTpmAlgIn, h] at halgo

theorem eventLogReadDigest_consumes (info : Tcg2Info) (algoId : Nat) :
    Consumes (eventLogReadDigest builtin info algoId) fun d xs =>
      xs = d.data ∧ eventLogGetAlgoInfo builtin info algoId = some d.algo := by
  unfold eventLogReadDigest
  split
  · exact consumes_throw _ _
  · rename_i algo halgo
    exact (consumes_readExactly _).bind fun data xs hxs =>
      consumes_pure ⟨by rw [List.append_nil, hxs.1], halgo⟩

theorem eventLogReadDigests_consumes {info : Tcg2Info}
    (hid : NamesById (eventLogGetAlgoInfo builtin info)) : ∀ count,
    Consumes (eventLogReadDigests builtin info count) fun ds xs =>
      xs = ds.flatMap TpmEvdigest.encode ∧ ds.length = count
  | 0 => consumes_pure ⟨rfl, rfl⟩
  | count + 1 =>
    consumes_readU16le.bind fun algoId xs₁ hxs₁ =>
      (eventLogReadDigest_consumes builtin info algoId).bind fun d xs₂ hd =>
        (eventLogReadDigests_consumes hid count).bind fun ds xs₃ hds =>
          consumes_pure ⟨by
            rw [hxs₁, hd.1, hds.1, List.flatMap_cons, TpmEvdigest.encode, hid _ _ hd.2]
            simp only [List.append_nil, List.append_assoc],
          by rw [List.length_cons, hds.2]⟩

/-- The digest set of a record is the bytes read for it, in the format of the reader's
version. -/
theorem eventLogReadPcrs_consumes (log : TpmEventLogReader)
    (hid : NamesById (eventLogGetAlgoInfo builtin log.tcg2Info)) :
    Consumes (eventLogReadPcrs builtin log) fun ds xs =>
      xs = LogRecord.digestBytes log.tpmVersion ⟨0, 0, ds, []⟩ := by
  unfold eventLogReadPcrs eventLogReadPcrsTpm1 eventLogReadPcrsTpm2
  split
  · -- TCG 1.2: the bare SHA-1 digest
    rename_i hv
    exact (eventLogReadDigest_consumes builtin _ _).bind fun d xs hd =>
      consumes_pure (by simp [LogRecord.digestBytes, hv, hd.1])
  · -- crypto agile: a count of at most 32, and that many digests with their ids
    rename_i hv
    refine consumes_readU32le.bind fun count xs₁ hxs₁ => ?_
    split
    · exact consumes_throw _ _
    · exact (eventLogReadDigests_consumes builtin hid count).imp fun ds xs₂ hds => by
        simp only [LogRecord.digestBytes, if_neg hv, hxs₁, hds.1, hds.2]

/-- The digests and body of a record are the bytes read for them. -/
theorem eventLogReadFields_consumes (log : TpmEventLogReader)
    (hid : NamesById (eventLogGetAlgoInfo builtin log.tcg2Info)) :
    Consumes (eventLogReadFields builtin log) fun r xs =>
      xs = LogRecord.fields log.tpmVersion ⟨0, 0, r.1, r.2⟩ := by
  unfold eventLogReadFields
  refine (eventLogReadPcrs_consumes builtin log hid).bind fun pv xs₁ hxs₁ =>
    consumes_readU32le.bind fun size xs₂ hxs₂ => ?_
  split
  · exact consumes_throw _ _
  · exact (consumes_readExactly size).bind fun ed xs₃ hxs₃ => consumes_pure (by
      simp only [LogRecord.fields, LogRecord.digestBytes, hxs₁, hxs₂, hxs₃.1, hxs₃.2,
        List.append_nil, List.append_assoc])

/-! ## One call -/

/-- A header only adds algorithms to the table. -/
theorem suffix_tpmEventRegisterAlgorithm (algorithms : List (Nat × TpmAlgoInfo))
    (algoId algoSize : Nat) :
    algorithms <:+ tpmEventRegisterAlgorithm builtin algorithms algoId algoSize := by
  unfold tpmEventRegisterAlgorithm
  split
  · exact List.suffix_refl _
  · split
    · exact List.suffix_cons _ _
    · exact List.suffix_refl _

theorem tpmEventParseAlgorithms_returns : ∀ (count : Nat) (algorithms : List (Nat × TpmAlgoInfo)),
    Returns (tpmEventParseAlgorithms builtin count algorithms) (algorithms <:+ ·)
  | 0, _ => returns_pure (List.suffix_refl _)
  | count + 1, algorithms =>
    (returns_true readU16le).bind fun algoId _ => (returns_true readU16le).bind fun algoSize _ =>
      (tpmEventParseAlgorithms_returns count _).imp fun _ h =>
        (suffix_tpmEventRegisterAlgorithm builtin algorithms algoId algoSize).trans h

theorem tpmEventParseTcg2Info_returns (info : Tcg2Info) :
    Returns (tpmEventParseTcg2Info builtin info) (info.algorithms <:+ ·.algorithms) :=
  (returns_true _).bind fun _ _ => (returns_true _).bind fun _ _ =>
    (returns_true _).bind fun _ _ => (returns_true _).bind fun _ _ =>
    (returns_true _).bind fun _ _ => (returns_true _).bind fun _ _ =>
    (returns_true _).bind fun _ _ =>
    (tpmEventParseAlgorithms_returns builtin _ _).bind fun _ h => returns_pure h

/-- The bytes of header records, each in the format it was read in. -/
def headerBytes (hs : List (Nat × LogRecord)) : List UInt8 :=
  hs.flatMap fun h => h.2.encode h.1

@[simp]
theorem headerBytes_nil : headerBytes [] = [] := rfl

@[simp]
theorem headerBytes_cons (h : Nat × LogRecord) (hs : List (Nat × LogRecord)) :
    headerBytes (h :: hs) = h.2.encode h.1 ++ headerBytes hs := rfl

/-- What one call of `event_log_read_next` took from the reader `log`, with the result `r`: the
algorithm table only grows; and when it ends with no algorithm of the header's own, the call
took header records, met while no event had been returned, then the record of the event it
returns, or, at the end of the log, nothing more. -/
structure ReadNextBytes (log : TpmEventLogReader) (r : Option TpmEvent × TpmEventLogReader) :
    Prop where
  suffix : log.tcg2Info.algorithms <:+ r.2.tcg2Info.algorithms
  bytes : r.2.tcg2Info.algorithms = [] → ∃ hs : List (Nat × LogRecord),
    (∀ h ∈ hs, h.2.Special) ∧ (0 < log.eventCount → hs = []) ∧
    log.fd.data = headerBytes hs ++
      ((r.1.map fun e => e.record.encode r.2.tpmVersion).getD [] ++ r.2.fd.data) ∧
    (r.1 = none → r.2.fd.data = [])

/-- A header record the dispatch consumes goes before what the pass after the jump took. -/
theorem ReadNextBytes.of_header {log l' : TpmEventLogReader} {fd : ByteStream} {ev : TpmEvent}
    {r : Option TpmEvent × TpmEventLogReader} (h : ReadNextBytes l' r) (hfd : l'.fd = fd)
    (hsuffix : log.tcg2Info.algorithms <:+ l'.tcg2Info.algorithms)
    (hev : log.tcg2Info.algorithms = [] → log.fd.data = ev.record.encode log.tpmVersion ++ fd.data)
    (hs : ev.record.Special) (hc : log.eventCount = 0) : ReadNextBytes log r := by
  refine ⟨hsuffix.trans h.suffix, fun hnil => ?_⟩
  obtain ⟨hs', hspecial, -, hbytes, hend⟩ := h.bytes hnil
  refine ⟨(log.tpmVersion, ev.record) :: hs', List.forall_mem_cons.mpr ⟨hs, hspecial⟩,
    fun hpos => absurd hc (Nat.pos_iff_ne_zero.mp hpos), ?_, hend⟩
  rw [hev (List.suffix_nil.mp (hnil ▸ hsuffix.trans h.suffix)), ← hfd, hbytes, headerBytes_cons,
    List.append_assoc]

/-- The dispatch of a record whose bytes start the stream: a header record is consumed before
what the pass after the jump takes, and any other record is returned. -/
theorem eventLogDispatch_bytes {log : TpmEventLogReader} {fd : ByteStream} {ev : TpmEvent}
    {again : TpmEventLogReader → Except ReadError (Option TpmEvent × TpmEventLogReader)}
    (hev : log.tcg2Info.algorithms = [] → log.fd.data = ev.record.encode log.tpmVersion ++ fd.data)
    (hagain : ∀ l', l'.fd = fd → ∀ r, again l' = .ok r → ReadNextBytes l' r)
    {r} (h : eventLogDispatch builtin { log with fd } ev again = .ok r) : ReadNextBytes log r := by
  unfold eventLogDispatch at h
  split_ifs at h with hspec hloc
  · split at h
    · cases h
    · rename_i hparse
      exact (hagain _ rfl _ h).of_header rfl
        (tpmEventParseTcg2Info_returns builtin _ _ _ _ hparse) hev
        (TpmEvent.special_of_specId hspec) hspec.1.2.2.1
  · exact (hagain _ rfl _ h).of_header rfl (List.suffix_refl _) hev
      (TpmEvent.special_of_startupLocality hloc) hloc.1.2.2.1
  · cases h
    refine ⟨List.suffix_refl _, fun hnil => ⟨[], nofun, fun _ => rfl, ?_, nofun⟩⟩
    rw [hev hnil]
    rfl

/-- One pass from `again`, given what the passes after a jump back take. -/
theorem eventLogReadNextStep_bytes (hbuiltin : NamesById builtin) {log : TpmEventLogReader}
    {again : TpmEventLogReader → Except ReadError (Option TpmEvent × TpmEventLogReader)}
    (hagain : ∀ l', l'.fd.data.length + 8 ≤ log.fd.data.length → ∀ r, again l' = .ok r →
      ReadNextBytes l' r)
    {r} (h : eventLogReadNextStep builtin log again = .ok r) : ReadNextBytes log r := by
  rcases eventLogReadNextStep_cases builtin h with
    ⟨fd, h₁, rfl⟩ | ⟨pcrIndex, eventType, pcrValues, eventData, fd₁, fd₂, fd₃, h₁, h₂, h₃, h⟩
  · -- the end of the log
    obtain ⟨rfl, hnil⟩ := readU32leOrEof_eq_none h₁
    exact ⟨List.suffix_refl _, fun _ => ⟨[], nofun, fun _ => rfl, by simp [hnil], fun _ => hnil⟩⟩
  have hlen : fd₃.data.length + 8 ≤ log.fd.data.length := by
    have := readU32leOrEof_length h₁
    have := readU32le_length h₂
    have := readsForward_eventLogReadFields builtin log _ _ _ h₃
    omega
  refine eventLogDispatch_bytes builtin (fun hnil => ?_) (fun l' hl' => hagain l' (hl' ▸ hlen)) h
  obtain ⟨xs₂, hxs₂, rfl⟩ := consumes_readU32le _ _ _ h₂
  obtain ⟨xs₃, hxs₃, rfl⟩ := eventLogReadFields_consumes builtin log
    (namesById_eventLogGetAlgoInfo builtin hbuiltin hnil) _ _ _ h₃
  rw [readU32leOrEof_eq_some h₁, hxs₂, hxs₃]
  simp only [TpmEvent.record, LogRecord.encode, List.append_assoc]
  rfl

/-- One call of `event_log_read_next`, with fuel above the length of the log. -/
theorem eventLogReadNextAux_bytes (hbuiltin : NamesById builtin) :
    ∀ (fuel : Nat) (log : TpmEventLogReader), log.fd.data.length < fuel →
      ∀ {r}, eventLogReadNextAux builtin fuel log = .ok r → ReadNextBytes log r
  | 0, _, hfuel, _, _ => absurd hfuel (Nat.not_lt_zero _)
  | fuel + 1, _, hfuel, _, h => eventLogReadNextStep_bytes builtin hbuiltin
      (fun l' hl' _ h' => eventLogReadNextAux_bytes hbuiltin fuel l' (by omega) h') h

/-! ## Every run -/

/-- What a run of the caller's loop took from the reader `log`, returning `evs` and leaving `l`:
the algorithm table only grows; and when it ends with no algorithm of the header's own, the run
read to the end of the log, which held header records, met while no event had been returned,
then the records of the events in the format the reader ends with. -/
structure RunBytes (log : TpmEventLogReader) (evs : List TpmEvent) (l : TpmEventLogReader) :
    Prop where
  suffix : log.tcg2Info.algorithms <:+ l.tcg2Info.algorithms
  bytes : l.tcg2Info.algorithms = [] → l.fd.data = [] ∧ ∃ hs : List (Nat × LogRecord),
    (∀ x ∈ hs, x.2.Special) ∧ (0 < log.eventCount → hs = []) ∧
    log.fd.data = headerBytes hs ++ LogRecord.encodeAll l.tpmVersion (evs.map TpmEvent.record)

theorem eventLogReadAllAux_bytes (hbuiltin : NamesById builtin) :
    ∀ (fuel : Nat) (log : TpmEventLogReader), log.fd.data.length < fuel →
      ∀ {evs l}, eventLogReadAllAux builtin fuel log = .ok (evs, l) → RunBytes log evs l
  | 0, _, hfuel, _, _, _ => absurd hfuel (Nat.not_lt_zero _)
  | fuel + 1, log, hfuel, evs, l, h => by
    rcases eventLogReadAllAux_cases builtin h with ⟨rfl, hr⟩ | ⟨e, evs', l₁, rfl, hr, hrest⟩
    · -- the end of the log
      have hp := eventLogReadNextAux_bytes builtin hbuiltin _ log (Nat.lt_succ_self _) hr
      refine ⟨hp.suffix, fun hnil => ?_⟩
      obtain ⟨hs, hspecial, hfirst, hbytes, hend⟩ := hp.bytes hnil
      have hend : l.fd.data = [] := hend rfl
      exact ⟨hend, hs, hspecial, hfirst, by simpa [LogRecord.encodeAll, hend] using hbytes⟩
    · -- an event, then the rest of the run, which reads no header
      have hp := eventLogReadNextAux_bytes builtin hbuiltin _ log (Nat.lt_succ_self _) hr
      have hcount := (eventLogReadNextAux_post builtin _ log hr).2.1
      have hlen := eventLogReadNextAux_eq_some hr
      have ih := eventLogReadAllAux_bytes hbuiltin fuel l₁ (by omega) hrest
      have hsame := (eventLogReadAllAux_post builtin fuel l₁ hrest).header (by omega)
      refine ⟨hp.suffix.trans ih.suffix, fun hnil => ?_⟩
      obtain ⟨hend, hs', -, hfirst', hbytes'⟩ := ih.bytes hnil
      obtain ⟨hs, hspecial, hfirst, hbytes, -⟩ := hp.bytes (List.suffix_nil.mp (hnil ▸ ih.suffix))
      refine ⟨hend, hs, hspecial, hfirst, ?_⟩
      rw [hbytes, hbytes', hfirst' (by omega), hsame.tpmVersion]
      simp [LogRecord.encodeAll]

/-- Every log the reader accepts, from any reader state, is made of whole records: header
records consumed while no event had been returned, none once the reader has returned one, then
the records of the returned events in the format the reader ends with, and nothing after them.
This holds when the built-in table finds each algorithm under its own id and the log declared no
algorithm of its own. -/
theorem eventLogReadAll_records (hbuiltin : NamesById builtin) (log : TpmEventLogReader)
    {evs : List TpmEvent} {l : TpmEventLogReader} (h : eventLogReadAll builtin log = .ok (evs, l))
    (hdeclared : l.tcg2Info.algorithms = []) :
    l.fd.data = [] ∧ ∃ hs : List (Nat × LogRecord), (∀ x ∈ hs, x.2.Special) ∧
      (0 < log.eventCount → hs = []) ∧
      log.fd.data = headerBytes hs ++ LogRecord.encodeAll l.tpmVersion (evs.map TpmEvent.record) :=
  (eventLogReadAllAux_bytes builtin hbuiltin _ log (Nat.lt_succ_self _) h).bytes hdeclared

end Reader

/-- A crypto-agile log: a Spec ID header whose table lists SHA-1 and SHA-256, which are built
in, and one record with a SHA-256 digest. -/
theorem eventLogReadAll_records_cryptoAgile :
    let log := eventLogOpen ((LogPreamble.cryptoAgile ⟨⟨4, "sha1", 20⟩, 20, List.replicate 20 0⟩
      ⟨0, 0, 2, 0, 2, [(4, 20), (11, 32)], []⟩ none).bytes ++ LogRecord.encodeAll 2
        [⟨4, 13, [⟨⟨11, "sha256", 32⟩, 32, List.replicate 32 0⟩], [1, 2, 3]⟩])
    ∃ evs l, eventLogReadAll digestByTpmAlg log = .ok (evs, l) ∧ l.tcg2Info.algorithms = [] ∧
      l.fd.data = [] ∧ ∃ hs : List (Nat × LogRecord), (∀ x ∈ hs, x.2.Special) ∧
        (0 < log.eventCount → hs = []) ∧
        log.fd.data = headerBytes hs ++ LogRecord.encodeAll l.tpmVersion (evs.map TpmEvent.record) := by
  have hp : (LogPreamble.cryptoAgile ⟨⟨4, "sha1", 20⟩, 20, List.replicate 20 0⟩
      ⟨0, 0, 2, 0, 2, [(4, 20), (11, 32)], []⟩ none).WellFormed digestByTpmAlg :=
    ⟨by decide, by decide, rfl, by simp⟩
  have hread := (eventLogReadAll_preamble hp _).trans <| @eventLogReadAll_encodeAll_eof
    digestByTpmAlg [⟨4, 13, [⟨⟨11, "sha256", 32⟩, 32, List.replicate 32 0⟩], [1, 2, 3]⟩]
    ((LogPreamble.cryptoAgile ⟨⟨4, "sha1", 20⟩, 20, List.replicate 20 0⟩
      ⟨0, 0, 2, 0, 2, [(4, 20), (11, 32)], []⟩ none).reader digestByTpmAlg (LogRecord.encodeAll 2
        [⟨4, 13, [⟨⟨11, "sha256", 32⟩, 32, List.replicate 32 0⟩], [1, 2, 3]⟩])) _ rfl (by decide)
    (fun _ => by simp [LogRecord.Special, tpm2EventNoAction])
  exact ⟨_, _, hread, rfl, eventLogReadAll_records digestByTpmAlg namesById_digestByTpmAlg _ hread rfl⟩

end PcrOracle
