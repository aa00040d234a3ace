import PcrOracle.EventLog.Reader

/-!
# The reader runs out of log before it runs out of fuel

`event_log_read_next` has no bound on how often it jumps back to `again`; the model counts the
passes with a fuel argument. Each pass reads a PCR index and an event type before it can jump
back, so it takes at least eight bytes off the log, and the length of the log plus one is
always enough fuel: more fuel changes nothing (`eventLogReadNextAux_eq_eventLogReadNext`,
`eventLogReadAllAux_eq_eventLogReadAll`). This is what makes the fuelled model the C loop.

The argument is made once, on the loop body: `eventLogReadNextStep` only calls its
continuation on readers whose stream is at least eight bytes shorter
(`eventLogReadNextStep_congr`).
-/

namespace PcrOracle

section Fuel

variable (builtin : Nat → Option TpmAlgoInfo)

theorem readsForward_eventLogReadDigest (info : Tcg2Info) (algoId : Nat) :
    ReadsForward (eventLogReadDigest builtin info algoId) := by
  unfold eventLogReadDigest
  split
  · exact readsForward_throw _
  · exact (readsForward_readExactly _).bind fun _ => readsForward_pure _

theorem readsForward_eventLogReadDigests (info : Tcg2Info) :
    ∀ count, ReadsForward (eventLogReadDigests builtin info count)
  | 0 => readsForward_pure _
  | count + 1 =>
    readsForward_readU16le.bind fun _ => (readsForward_eventLogReadDigest builtin info _).bind
      fun _ => (readsForward_eventLogReadDigests info count).bind fun _ => readsForward_pure _

theorem readsForward_eventLogReadFields (log : TpmEventLogReader) :
    ReadsForward (eventLogReadFields builtin log) := by
  refine ReadsForward.bind ?_ fun _ => readsForward_readU32le.bind fun size => ?_
  · unfold eventLogReadPcrs eventLogReadPcrsTpm1 eventLogReadPcrsTpm2
    split
    · exact (readsForward_eventLogReadDigest builtin _ _).bind fun _ => readsForward_pure _
    · refine readsForward_readU32le.bind fun count => ?_
      split
      · exact readsForward_throw _
      · exact readsForward_eventLogReadDigests builtin _ _
  · split
    · exact readsForward_throw _
    · exact (readsForward_readExactly _).bind fun _ => readsForward_pure _

variable {builtin}

/-- The dispatch only jumps back with the stream it was given. -/
theorem eventLogDispatch_congr {log : TpmEventLogReader} {ev : TpmEvent}
    {again again' : TpmEventLogReader → Except ReadError (Option TpmEvent × TpmEventLogReader)}
    (h : ∀ l : TpmEventLogReader, l.fd = log.fd → again l = again' l) :
    eventLogDispatch builtin log ev again = eventLogDispatch builtin log ev again' := by
  unfold eventLogDispatch
  split_ifs
  · split
    · rfl
    · exact h _ rfl
  · exact h _ rfl
  · rfl

/-- The dispatch returns an event either itself, leaving the stream as it was, or through a jump
back that was given that stream. -/
theorem eventLogDispatch_eq_some {log : TpmEventLogReader} {ev e : TpmEvent}
    {again : TpmEventLogReader → Except ReadError (Option TpmEvent × TpmEventLogReader)}
    {l : TpmEventLogReader} (h : eventLogDispatch builtin log ev again = .ok (some e, l)) :
    l.fd = log.fd ∨ ∃ l', l'.fd = log.fd ∧ again l' = .ok (some e, l) := by
  unfold eventLogDispatch at h
  split_ifs at h
  · split at h
    · cases h
    · exact .inr ⟨_, by rfl, h⟩
  · exact .inr ⟨_, by rfl, h⟩
  · cases h
    exact .inl rfl

/-- One pass of the loop reads the record's PCR index and event type before anything else, so
it only jumps back to `again` with at least eight bytes fewer. -/
theorem eventLogReadNextStep_congr {log : TpmEventLogReader}
    {again again' : TpmEventLogReader → Except ReadError (Option TpmEvent × TpmEventLogReader)}
    (h : ∀ l : TpmEventLogReader, l.fd.data.length + 8 ≤ log.fd.data.length →
      again l = again' l) :
    eventLogReadNextStep builtin log again = eventLogReadNextStep builtin log again' := by
  unfold eventLogReadNextStep
  cases h₁ : readU32leOrEof.run log.fd with
  | error => rfl
  | ok r₁ =>
  obtain ⟨_ | pcrIndex, fd₁⟩ := r₁
  · rfl
  cases h₂ : readU32le.run fd₁ with
  | error => simp only [h₂]
  | ok r₂ =>
  obtain ⟨eventType, fd₂⟩ := r₂
  cases h₃ : (eventLogReadFields builtin log).run fd₂ with
  | error => simp only [h₂, h₃]
  | ok r₃ =>
  obtain ⟨⟨pcrValues, eventData⟩, fd₃⟩ := r₃
  simp only [h₂, h₃]
  have := readU32leOrEof_length h₁
  have := readU32le_length h₂
  have := readsForward_eventLogReadFields builtin log _ _ _ h₃
  exact eventLogDispatch_congr fun l hl => h l (by rw [hl]; dsimp only; omega)

/-- An event returned by one pass comes at least eight bytes further into the log. -/
theorem eventLogReadNextStep_eq_some {log : TpmEventLogReader} {e : TpmEvent}
    {again : TpmEventLogReader → Except ReadError (Option TpmEvent × TpmEventLogReader)}
    {l : TpmEventLogReader}
    (hagain : ∀ l' e l, again l' = .ok (some e, l) → l.fd.data.length ≤ l'.fd.data.length)
    (h : eventLogReadNextStep builtin log again = .ok (some e, l)) :
    l.fd.data.length + 8 ≤ log.fd.data.length := by
  unfold eventLogReadNextStep at h
  cases h₁ : readU32leOrEof.run log.fd with
  | error => simp [h₁] at h
  | ok r₁ =>
  obtain ⟨_ | pcrIndex, fd₁⟩ := r₁
  · simp [h₁] at h
  cases h₂ : readU32le.run fd₁ with
  | error => simp [h₁, h₂] at h
  | ok r₂ =>
  obtain ⟨eventType, fd₂⟩ := r₂
  cases h₃ : (eventLogReadFields builtin log).run fd₂ with
  | error => simp [h₁, h₂, h₃] at h
  | ok r₃ =>
  obtain ⟨⟨pcrValues, eventData⟩, fd₃⟩ := r₃
  simp only [h₁, h₂, h₃] at h
  have := readU32leOrEof_length h₁
  have := readU32le_length h₂
  have := readsForward_eventLogReadFields builtin log _ _ _ h₃
  rcases eventLogDispatch_eq_some h with hl | ⟨l', hl', hagain'⟩
  · rw [hl]
    dsimp only
    omega
  · have := hagain _ _ _ hagain'
    rw [hl'] at this
    dsimp only at this
    omega

/-- Any fuel above the length of the log gives the same result. -/
theorem eventLogReadNextAux_eq {fuel fuel' : Nat} {log : TpmEventLogReader}
    (h : log.fd.data.length < fuel) (h' : log.fd.data.length < fuel') :
    eventLogReadNextAux builtin fuel log = eventLogReadNextAux builtin fuel' log := by
  suffices key : ∀ n fuel fuel' (log : TpmEventLogReader), log.fd.data.length = n →
      n < fuel → n < fuel' →
        eventLogReadNextAux builtin fuel log = eventLogReadNextAux builtin fuel' log from
    key _ _ _ _ rfl h h'
  intro n
  induction n using Nat.strong_induction_on with
  | _ n ih =>
    intro fuel fuel' log hn h h'
    obtain ⟨f, rfl⟩ : ∃ f, fuel = f + 1 := ⟨fuel - 1, by omega⟩
    obtain ⟨f', rfl⟩ : ∃ f', fuel' = f' + 1 := ⟨fuel' - 1, by omega⟩
    exact eventLogReadNextStep_congr fun l hl =>
      ih _ (by omega) f f' l rfl (by omega) (by omega)

theorem eventLogReadNextAux_eq_eventLogReadNext {fuel : Nat} {log : TpmEventLogReader}
    (h : log.fd.data.length < fuel) :
    eventLogReadNextAux builtin fuel log = eventLogReadNext builtin log :=
  eventLogReadNextAux_eq h (Nat.lt_succ_self _)

/-- Every event `event_log_read_next` returns takes at least eight bytes off the log. -/
theorem eventLogReadNextAux_eq_some :
    ∀ {fuel : Nat} {log l : TpmEventLogReader} {e : TpmEvent},
      eventLogReadNextAux builtin fuel log = .ok (some e, l) →
        l.fd.data.length + 8 ≤ log.fd.data.length
  | 0, _, _, _, h => by cases h
  | _ + 1, _, _, _, h =>
    eventLogReadNextStep_eq_some (fun _ _ _ h' => by
      have := eventLogReadNextAux_eq_some h'
      omega) h

/-- The caller's loop needs no more calls than the log has bytes, plus one. -/
theorem eventLogReadAllAux_eq_eventLogReadAll {fuel : Nat} {log : TpmEventLogReader}
    (h : log.fd.data.length < fuel) :
    eventLogReadAllAux builtin fuel log = eventLogReadAll builtin log := by
  suffices key : ∀ n fuel fuel' (log : TpmEventLogReader), log.fd.data.length = n →
      n < fuel → n < fuel' →
        eventLogReadAllAux builtin fuel log = eventLogReadAllAux builtin fuel' log from
    key _ _ _ _ rfl h (Nat.lt_succ_self _)
  intro n
  induction n using Nat.strong_induction_on with
  | _ n ih =>
    intro fuel fuel' log hn h h'
    obtain ⟨f, rfl⟩ : ∃ f, fuel = f + 1 := ⟨fuel - 1, by omega⟩
    obtain ⟨f', rfl⟩ : ∃ f', fuel' = f' + 1 := ⟨fuel' - 1, by omega⟩
    simp only [eventLogReadAllAux]
    cases hr : eventLogReadNext builtin log with
    | error => rfl
    | ok r =>
    obtain ⟨_ | e, l⟩ := r
    · rfl
    have := eventLogReadNextAux_eq_some hr
    simp only [bind, Except.bind]
    rw [ih l.fd.data.length (by omega) f f' l rfl (by omega) (by omega)]

end Fuel

end PcrOracle
