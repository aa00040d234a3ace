import PcrOracle.EventLog.RoundTrip

/-!
# The algorithm table of the Spec ID header

`__tpm_event_parse_tcg2_info` registers each entry of the header's algorithm table that has no
built-in algorithm by writing `info->algorithms[algo_id]` with the declared digest size. The
array has `TPM_EVENT_LOG_MAX_ALGOS` (64) slots, but the loop only skips ids above
`TPM2_ALG_LAST` (0x44), and it keeps the declared size, any 16-bit value, as it is. The slots
the loop writes are `mem_registerAlgorithms`; this module says what `event_log_get_algo_info`
then finds, for every table, and evaluates both on two headers: one writes slot 64, past the
array, and one declares a 65535-byte digest, which `event_log_read_digest` then reads into
`tpm_evdigest_t.data`.

## Main results

* `eventLogGetAlgoInfo_tpmEventRegisterAlgorithm`: a registered id is found with the declared
  size.
* `eventLogReadAll_header_writes_slot64`, `eventLogReadDigest_reads_declared_size`: the two
  headers.
-/

namespace PcrOracle

section Registry

variable {builtin : Nat → Option TpmAlgoInfo}

/-- An id below 64 with no built-in algorithm is found with the size its entry declared, whatever
that size. -/
theorem eventLogGetAlgoInfo_tpmEventRegisterAlgorithm (info : Tcg2Info) {algoId : Nat}
    (algoSize : Nat) (hid : algoId < tpmEventLogMaxAlgos) (hb : builtin algoId = none) :
    eventLogGetAlgoInfo builtin
      { info with algorithms := tpmEventRegisterAlgorithm builtin info.algorithms algoId algoSize }
      algoId = some ⟨0, "TPM2_ALG_" ++ toString algoId, algoSize⟩ := by
  have hlast : ¬ algoId > tpm2AlgLast := by
    unfold tpm2AlgLast
    unfold tpmEventLogMaxAlgos at hid
    omega
  simp [eventLogGetAlgoInfo, tpmEventRegisterAlgorithm, digestByTpmAlgIn, hb, hlast, hid]

end Registry

/-! ## Two headers -/

/-- A header declaring id 64, which has no built-in algorithm, writes slot 64 of
`tcg2_info.algorithms`, one past its 64 slots: the guard `algo_id > TPM2_ALG_LAST` lets ids 64
to 68 through. -/
theorem eventLogReadAll_header_writes_slot64 :
    ∃ final, eventLogReadAll digestByTpmAlg (eventLogOpen
        ((specIdRecord ⟨⟨4, "sha1", 20⟩, 20, List.replicate 20 0⟩
          ⟨0, 0, 2, 0, 2, [(64, 20)], []⟩).encode 1)) = .ok ([], final) ∧
      (64, ⟨0, "TPM2_ALG_64", 20⟩) ∈ final.tcg2Info.algorithms ∧ tpmEventLogMaxAlgos ≤ 64 := by
  have hp : (LogPreamble.cryptoAgile ⟨⟨4, "sha1", 20⟩, 20, List.replicate 20 0⟩
      ⟨0, 0, 2, 0, 2, [(64, 20)], []⟩ none).WellFormed digestByTpmAlg :=
    ⟨by decide, by decide, rfl, by simp⟩
  rw [← List.append_nil (LogRecord.encode 1 _)]
  exact ⟨_, (eventLogReadAll_preamble hp []).trans (eventLogReadAll_eof rfl),
    mem_registerAlgorithms.mpr (.inr ⟨(64, 20), List.mem_singleton_self _, rfl, by decide, rfl⟩),
    le_refl _⟩

/-- A header declaring a 65535-byte digest for id 1, which has no built-in algorithm, makes
`event_log_get_algo_info` return that size, and `event_log_read_digest` then reads 65535 bytes
into a digest whose `data` holds `TPM2_MAX_DIGEST_SIZE`. -/
theorem eventLogReadDigest_reads_declared_size :
    ∃ final, eventLogReadAll digestByTpmAlg (eventLogOpen
        ((specIdRecord ⟨⟨4, "sha1", 20⟩, 20, List.replicate 20 0⟩
          ⟨0, 0, 2, 0, 2, [(1, 65535)], []⟩).encode 1)) = .ok ([], final) ∧
      eventLogGetAlgoInfo digestByTpmAlg final.tcg2Info 1 = some ⟨0, "TPM2_ALG_1", 65535⟩ ∧
      (eventLogReadDigest digestByTpmAlg final.tcg2Info 1).run ⟨List.replicate 65535 0, 0⟩ =
        .ok (⟨⟨0, "TPM2_ALG_1", 65535⟩, 65535, List.replicate 65535 0⟩, ⟨[], 65535⟩) ∧
      tpm2MaxDigestSize < 65535 := by
  have hp : (LogPreamble.cryptoAgile ⟨⟨4, "sha1", 20⟩, 20, List.replicate 20 0⟩
      ⟨0, 0, 2, 0, 2, [(1, 65535)], []⟩ none).WellFormed digestByTpmAlg :=
    ⟨by decide, by decide, rfl, by simp⟩
  have hget := @eventLogGetAlgoInfo_tpmEventRegisterAlgorithm digestByTpmAlg
    ⟨0, 2, 0, 0, 2, []⟩ 1 65535 (by decide) (by decide)
  rw [← List.append_nil (LogRecord.encode 1 _)]
  refine ⟨_, (eventLogReadAll_preamble hp []).trans (eventLogReadAll_eof rfl), hget, ?_, by decide⟩
  simpa only [List.append_nil, List.length_replicate, Nat.zero_add] using
    (decodes_eventLogReadDigest_of_getAlgoInfo hget (List.length_replicate 65535 0)).reads [] 0

end PcrOracle
