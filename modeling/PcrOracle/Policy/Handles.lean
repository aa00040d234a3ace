import PcrOracle.Policy.BankHash

/-!
# The handles of the TPM-facing operations

Each TPM-facing operation of `pcr-policy.c` loads objects, hash sequences and sessions into the
TPM and has to give each of them up again, on every path: the functions run their ESYS calls up
to a cleanup label (`goto out`, `goto cleanup`) and flush there every handle variable that is not
`ESYS_TR_NONE`. The model keeps that shape: the body of an operation returns, with its result,
the values its handle variables hold at the label, and the operation then flushes them as the C
does. Each body is shown to end with its variables naming exactly the handles it still holds
(`HeldBy`), and flushing them all ends a balanced run (`esysFlushContexts_balanced`).

`esys_create_authorized_policy` declares `session_handle` and `pub_key_handle` with no initial
value, so the model takes what they hold on entry as parameters. When `Esys_LoadExternal`,
`Esys_TR_GetName` or the session start fails, the cleanup flushes those values: handles the
operation never created.

## Main results

* `esysPolicyPcr_balanced`, `pcrBankHash_balanced`, `pcrPolicyMake_balanced`,
  `sealSecretWith_balanced`, `esysUnsealPcrPolicy_balanced`, `esysUnsealAuthorized_balanced`:
  these operations pass exactly the handles they create to a flush or a completion, on every
  run, and leak only those whose release the TPM rejects.
* `esysCreateAuthorizedPolicy_balanced_of_none`: so would `esys_create_authorized_policy` if its
  handle variables started as `ESYS_TR_NONE`.
* `esysCreateAuthorizedPolicy_flushes_uninitialized`: as it is, when `Esys_LoadExternal` fails
  it flushes the two values it found on entry, the caller's object among them.
-/

namespace PcrOracle

/-! ## The operations -/

/-- The body of `esys_create_authorized_policy` up to `out:`: whether it succeeded, and
`session_handle` and `pub_key_handle` there. Neither is initialised in the C; `sessionHandle` and
`pubKeyHandle` are the values they hold on entry. -/
def esysCreateAuthorizedPolicyBody (sessionHandle pubKeyHandle : Nat) :
    Esys (Bool × Nat × Nat) := do
  let some pubKeyHandle ← esysCreateObject .loadExternal
    | return (false, sessionHandle, pubKeyHandle)
  if !(← esysCall (.trGetName pubKeyHandle)) then return (false, sessionHandle, pubKeyHandle)
  let (ok, sessionHandle) ← esysStartAuthSession tpm2SeTrial sessionHandle
  if !ok then return (false, sessionHandle, pubKeyHandle)
  if !(← esysCall (.policyAuthorize sessionHandle)) then
    return (false, sessionHandle, pubKeyHandle)
  if !(← esysCall (.policyGetDigest sessionHandle)) then
    return (false, sessionHandle, pubKeyHandle)
  return (true, sessionHandle, pubKeyHandle)

/-- `esys_create_authorized_policy`: `PolicyAuthorize` by a loaded public key in a trial session;
at `out:` both handle variables are flushed. -/
def esysCreateAuthorizedPolicy (sessionHandle pubKeyHandle : Nat) : Esys Bool := do
  let (okay, sessionHandle, pubKeyHandle) ←
    esysCreateAuthorizedPolicyBody sessionHandle pubKeyHandle
  esysFlushContexts [sessionHandle, pubKeyHandle]
  return okay

/-- `esys_create`: `Esys_Create` under the storage root key makes the sealed object's blobs and
loads nothing. -/
def esysCreate (srkHandle : Nat) : Esys Bool :=
  esysCall (.create srkHandle)

/-- The body shared by the two sealing functions, up to `cleanup:`: read the inputs, create the
storage root key, create the sealed object under it and write it out. `inputsRead` and `written`
are how the file operations went. The result is `ok` and `srk_handle` there. -/
def sealSecretWithBody (inputsRead written : Bool) : Esys (Bool × Nat) := do
  let srkHandle := esysTrNone
  if !inputsRead then return (false, srkHandle)
  let (ok, srkHandle) ← esysCreatePrimary srkHandle
  if !ok then return (false, srkHandle)
  if !(← esysCreate srkHandle) then return (false, srkHandle)
  return (written, srkHandle)

/-- The sealing functions flush the storage root key at `cleanup:`. -/
def sealSecretWith (inputsRead written : Bool) : Esys Bool := do
  let (ok, srkHandle) ← sealSecretWithBody inputsRead written
  esysFlushContexts [srkHandle]
  return ok

/-- `esys_seal_secret`: `read_secret`, then the sealing; `written` is how the platform's
`write_sealed_secret` went. -/
def esysSealSecret (secretRead written : Bool) : Esys Bool :=
  sealSecretWith secretRead written

/-- `old_pcr_authorized_policy_seal_secret`: `read_secret` and `read_digest`, then the sealing;
`written` is how `write_sealed_secret` went. -/
def oldPcrAuthorizedPolicySealSecret (secretRead digestRead written : Bool) : Esys Bool :=
  sealSecretWith (secretRead && digestRead) written

/-- The body of `esys_unseal_pcr_policy` up to `cleanup:`: the result and `session_handle`,
`primary_handle` and `sealed_object_handle` there. -/
def esysUnsealPcrPolicyBody (bank : TpmPcrBank) : Esys (Bool × Nat × Nat × Nat) := do
  let pcrs := pcrBankToSelection bank
  let sessionHandle := esysTrNone
  let sealedObjectHandle := esysTrNone
  let (ok, primaryHandle) ← esysCreatePrimary esysTrNone
  if !ok then return (false, sessionHandle, primaryHandle, sealedObjectHandle)
  let some sealedObjectHandle ← esysCreateObject (.load primaryHandle)
    | return (false, sessionHandle, primaryHandle, sealedObjectHandle)
  let (ok, sessionHandle) ← esysStartAuthSession tpm2SePolicy sessionHandle
  if !ok then return (false, sessionHandle, primaryHandle, sealedObjectHandle)
  if !(← esysCall (.policyPcr sessionHandle (.given []) pcrs)) then
    return (false, sessionHandle, primaryHandle, sealedObjectHandle)
  if !(← esysCall (.unseal sealedObjectHandle sessionHandle)) then
    return (false, sessionHandle, primaryHandle, sealedObjectHandle)
  return (true, sessionHandle, primaryHandle, sealedObjectHandle)

/-- `esys_unseal_pcr_policy`: unseal under `PolicyPCR` over the bank's selection; the three
handles are flushed at `cleanup:`. -/
def esysUnsealPcrPolicy (bank : TpmPcrBank) : Esys Bool := do
  let (okay, sessionHandle, primaryHandle, sealedObjectHandle) ← esysUnsealPcrPolicyBody bank
  esysFlushContexts [sessionHandle, primaryHandle, sealedObjectHandle]
  return okay

/-- The body of `esys_unseal_authorized` up to `cleanup:`: the result and `pub_key_handle`,
`session_handle`, `primary_handle` and `sealed_object_handle` there. The calls from `PolicyPCR`
to `Unseal` each `goto cleanup` on failure. -/
def esysUnsealAuthorizedBody (bank : TpmPcrBank) : Esys (Bool × Nat × Nat × Nat × Nat) := do
  let pcrs := pcrBankToSelection bank
  let sessionHandle := esysTrNone
  let primaryHandle := esysTrNone
  let sealedObjectHandle := esysTrNone
  let some pubKeyHandle ← esysCreateObject .loadExternal
    | return (false, esysTrNone, sessionHandle, primaryHandle, sealedObjectHandle)
  if !(← esysCall (.trGetName pubKeyHandle)) then
    return (false, pubKeyHandle, sessionHandle, primaryHandle, sealedObjectHandle)
  let (ok, primaryHandle) ← esysCreatePrimary primaryHandle
  if !ok then return (false, pubKeyHandle, sessionHandle, primaryHandle, sealedObjectHandle)
  let some sealedObjectHandle ← esysCreateObject (.load primaryHandle)
    | return (false, pubKeyHandle, sessionHandle, primaryHandle, sealedObjectHandle)
  let (ok, sessionHandle) ← esysStartAuthSession tpm2SePolicy sessionHandle
  if !ok then return (false, pubKeyHandle, sessionHandle, primaryHandle, sealedObjectHandle)
  let okay ← esysCalls [.policyPcr sessionHandle (.given []) pcrs,
    .policyGetDigest sessionHandle, .hash, .verifySignature pubKeyHandle,
    .policyAuthorize sessionHandle, .unseal sealedObjectHandle sessionHandle]
  return (okay, pubKeyHandle, sessionHandle, primaryHandle, sealedObjectHandle)

/-- `esys_unseal_authorized`: unseal under `PolicyPCR` and `PolicyAuthorize`, with the signature
checked by a loaded public key; the four handles are flushed at `cleanup:`. -/
def esysUnsealAuthorized (bank : TpmPcrBank) : Esys Bool := do
  let (okay, pubKeyHandle, sessionHandle, primaryHandle, sealedObjectHandle) ←
    esysUnsealAuthorizedBody bank
  esysFlushContexts [pubKeyHandle, sessionHandle, primaryHandle, sealedObjectHandle]
  return okay

/-! ## Balanced runs -/

section Balanced

variable (s : EsysState)

/-! Each body ends at its cleanup label with its handle variables naming, newest first, the
handles it created and still holds; the cleanup then flushes them all. -/

theorem esysCreateAuthorizedPolicyBody_heldBy :
    Esys.wp (esysCreateAuthorizedPolicyBody esysTrNone esysTrNone)
      (fun r t => HeldBy s t [r.2.1, r.2.2]) s := by
  simp only [esysCreateAuthorizedPolicyBody, esysStartAuthSession, wp_bind, wp_esysCreateObject,
    wp_esysCall, wp_pure, wp_ite, Bool.not_true, Bool.not_false, Bool.false_eq_true, if_true,
    if_false]
  repeat' refine ite_prop_iff_and.mpr ⟨fun _ => ?_, fun _ => ?_⟩
  all_goals repeat' first
    | exact HeldBy.refl _
    | refine HeldBy.cons_none ?_
    | refine HeldBy.create ?_ rfl
    | refine HeldBy.addCall ?_ rfl

theorem sealSecretWithBody_heldBy (inputsRead written : Bool) :
    Esys.wp (sealSecretWithBody inputsRead written) (fun r t => HeldBy s t [r.2]) s := by
  simp only [sealSecretWithBody, esysCreatePrimary, esysCreate, wp_bind, wp_esysCreateObject,
    wp_esysCall, wp_pure, wp_ite, Bool.not_true, Bool.not_false, Bool.false_eq_true, if_true,
    if_false]
  repeat' refine ite_prop_iff_and.mpr ⟨fun _ => ?_, fun _ => ?_⟩
  all_goals repeat' first
    | exact HeldBy.refl _
    | refine HeldBy.cons_none ?_
    | refine HeldBy.create ?_ rfl
    | refine HeldBy.addCall ?_ rfl

theorem esysUnsealPcrPolicyBody_heldBy (bank : TpmPcrBank) :
    Esys.wp (esysUnsealPcrPolicyBody bank) (fun r t => HeldBy s t [r.2.1, r.2.2.2, r.2.2.1]) s := by
  simp only [esysUnsealPcrPolicyBody, esysStartAuthSession, esysCreatePrimary, wp_bind,
    wp_esysCreateObject, wp_esysCall, wp_pure, wp_ite, Bool.not_true, Bool.not_false,
    Bool.false_eq_true, if_true, if_false]
  repeat' refine ite_prop_iff_and.mpr ⟨fun _ => ?_, fun _ => ?_⟩
  all_goals repeat' first
    | exact HeldBy.refl _
    | refine HeldBy.cons_none ?_
    | refine HeldBy.create ?_ rfl
    | refine HeldBy.addCall ?_ rfl

theorem esysUnsealAuthorizedBody_heldBy (bank : TpmPcrBank) :
    Esys.wp (esysUnsealAuthorizedBody bank)
      (fun r t => HeldBy s t [r.2.2.1, r.2.2.2.2, r.2.2.2.1, r.2.1]) s := by
  simp only [esysUnsealAuthorizedBody, esysStartAuthSession, esysCreatePrimary, wp_bind,
    wp_esysCreateObject, wp_esysCall, wp_pure, wp_ite, Bool.not_true, Bool.not_false,
    Bool.false_eq_true, if_true, if_false]
  repeat' refine ite_prop_iff_and.mpr ⟨fun _ => ?_, fun _ => ?_⟩
  all_goals repeat' first
    | exact HeldBy.refl _
    | refine HeldBy.cons_none ?_
    | refine HeldBy.create ?_ rfl
    | refine HeldBy.addCall ?_ rfl
    | refine esysCalls_heldBy ?_ (by simp [EsysCall.releases])

/-- Initialised to `ESYS_TR_NONE`, as the other functions initialise theirs, the handle variables
of `esys_create_authorized_policy` would make it release exactly what it created. -/
theorem esysCreateAuthorizedPolicy_balanced_of_none :
    Balanced s (esysCreateAuthorizedPolicy esysTrNone esysTrNone s).2 := by
  show Esys.wp (esysCreateAuthorizedPolicy esysTrNone esysTrNone) (fun _ t => Balanced s t) s
  simp only [esysCreateAuthorizedPolicy, wp_bind, wp_pure]
  exact Esys.wp_mono (esysCreateAuthorizedPolicyBody_heldBy s) fun _ _ h =>
    esysFlushContexts_balanced _ h

theorem sealSecretWith_balanced (inputsRead written : Bool) :
    Balanced s (sealSecretWith inputsRead written s).2 := by
  show Esys.wp (sealSecretWith inputsRead written) (fun _ t => Balanced s t) s
  simp only [sealSecretWith, wp_bind, wp_pure]
  exact Esys.wp_mono (sealSecretWithBody_heldBy s inputsRead written) fun _ _ h =>
    esysFlushContexts_balanced _ h

theorem esysSealSecret_balanced (secretRead written : Bool) :
    Balanced s (esysSealSecret secretRead written s).2 :=
  sealSecretWith_balanced s secretRead written

theorem oldPcrAuthorizedPolicySealSecret_balanced (secretRead digestRead written : Bool) :
    Balanced s (oldPcrAuthorizedPolicySealSecret secretRead digestRead written s).2 :=
  sealSecretWith_balanced s _ written

theorem esysUnsealPcrPolicy_balanced (bank : TpmPcrBank) :
    Balanced s (esysUnsealPcrPolicy bank s).2 := by
  show Esys.wp (esysUnsealPcrPolicy bank) (fun _ t => Balanced s t) s
  simp only [esysUnsealPcrPolicy, wp_bind, wp_pure]
  -- flushed in the order session, primary key, sealed object
  exact Esys.wp_mono (esysUnsealPcrPolicyBody_heldBy s bank) fun _ _ h =>
    esysFlushContexts_balanced _ (h.perm (.cons _ (.swap _ _ _)))

theorem esysUnsealAuthorized_balanced (bank : TpmPcrBank) :
    Balanced s (esysUnsealAuthorized bank s).2 := by
  show Esys.wp (esysUnsealAuthorized bank) (fun _ t => Balanced s t) s
  simp only [esysUnsealAuthorized, wp_bind, wp_pure]
  -- flushed in the order public key, session, primary key, sealed object
  exact Esys.wp_mono (esysUnsealAuthorizedBody_heldBy s bank) fun _ _ h =>
    esysFlushContexts_balanced _
      (h.perm ((List.perm_append_singleton _ [_, _, _]).trans (.cons _ (.cons _ (.swap _ _ _)))))

/-- `esys_policy_pcr` flushes its trial session on every path that started it. -/
theorem esysPolicyPcr_balanced (pcrSel : TpmlPcrSelection) (pcrDigest : TpmDigest) :
    Balanced s (esysPolicyPcr pcrSel pcrDigest s).2 := by
  show Esys.wp (esysPolicyPcr pcrSel pcrDigest) (fun _ t => Balanced s t) s
  simp only [esysPolicyPcr, esysStartAuthSession, wp_bind, wp_esysCreateObject, wp_esysCall,
    wp_pure, wp_ite, Bool.not_true, Bool.not_false, Bool.false_eq_true, if_true, if_false]
  repeat' refine ite_prop_iff_and.mpr ⟨fun _ => ?_, fun _ => ?_⟩
  all_goals first
    | refine Esys.wp_mono (esysFlushContext_heldBy ?_) fun _ _ h => h.2.balanced
    | refine HeldBy.balanced ?_
  all_goals repeat' first
    | exact HeldBy.refl _
    | refine HeldBy.create ?_ rfl
    | refine HeldBy.addCall ?_ rfl

variable (bank : TpmPcrBank) (hsize : RegistersFit bank)
include hsize

/-- `__pcr_bank_hash` completes its hash sequence on every path that started it; a completion
the TPM rejects leaves the sequence loaded, the one handle the call then leaks (`rejectedIn`).
The size of each valid register is what its `assert` checks. -/
theorem pcrBankHash_balanced : Balanced s (pcrBankHash bank s).2 := by
  obtain ⟨-, hs, ⟨hc, hn, hl, -⟩ | ⟨cs, hcs, hc, hn, hl, -⟩⟩ := pcrBankHash_spec bank hsize s
  · exact .of_released (k := 0) hc hn hs rfl (by simp [hl, rejectedIn, EsysCall.releases])
  · have hnone : ∀ c ∈ cs, c.releases = none := fun c hc => by
      obtain ⟨_, rfl⟩ := mem_hashUpdates (hcs.subset hc)
      rfl
    have hr : releasedIn cs = [] := List.filterMap_eq_nil_iff.mpr hnone
    refine .of_released (k := 1) (hc.trans (List.append_assoc _ _ _)) hn hs
      (by simp [hr, EsysCall.releases]) ?_
    rw [hl, List.cons_append, rejectedIn, rejectedIn_append, rejectedIn_eq_nil _ _ hnone,
      rejectedIn_singleton _ (show (EsysCall.sequenceComplete s.next).releases = some s.next
        from rfl)]
    simp [EsysCall.releases, Nat.add_assoc, Nat.add_comm 1]

/-- `__pcr_policy_make` releases every handle it created, in `__pcr_bank_hash` and in
`esys_policy_pcr`. -/
theorem pcrPolicyMake_balanced : Balanced s (pcrPolicyMake bank s).2 := by
  show Esys.wp (pcrPolicyMake bank) (fun _ t => Balanced s t) s
  simp only [pcrPolicyMake, wp_bind, wp_pure]
  refine Esys.wp_mono (show Esys.wp (pcrBankHash bank) (fun _ t => Balanced s t) s from
    pcrBankHash_balanced s bank hsize) fun r t ht => ?_
  split
  · exact ht
  · simp only [wp_bind, wp_pure]
    exact Esys.wp_mono (show Esys.wp (esysPolicyPcr _ _) (fun _ u => Balanced t u) t from
      esysPolicyPcr_balanced t _ _) fun _ _ hu => ht.trans hu
  · exact ht

end Balanced

/-! ## The uninitialised handles of `esys_create_authorized_policy` -/

/-- When `Esys_LoadExternal` fails, `esys_create_authorized_policy` goes to `out:` with both
handle variables as it found them, and flushes them: it created nothing, and flushes two handles
that are not its own. -/
theorem esysCreateAuthorizedPolicy_of_loadExternal_fails (sessionHandle pubKeyHandle : Nat)
    (s : EsysState) (hfail : s.succeeds s.calls.length = false)
    (hs : sessionHandle ≠ esysTrNone) (hp : pubKeyHandle ≠ esysTrNone) :
    (esysCreateAuthorizedPolicy sessionHandle pubKeyHandle s).2 =
      ((s.addCall .loadExternal).releaseOn (.flushContext sessionHandle) sessionHandle).releaseOn
        (.flushContext pubKeyHandle) pubKeyHandle := by
  show Esys.wp (esysCreateAuthorizedPolicy sessionHandle pubKeyHandle) (fun _ s' => s' = _) s
  simp only [esysCreateAuthorizedPolicy, esysCreateAuthorizedPolicyBody, esysFlushContexts,
    esysFlushContext, bind_pure_comp, map_pure, pure_bind, map_bind, bind_assoc, wp_bind, wp_map,
    wp_ite, wp_pure, wp_esysRelease, wp_esysCreateObject, hfail, Bool.false_eq_true, ↓reduceIte,
    hs, hp]

/-- A caller that holds one loaded object, its primary key, `0x1000`, and whose TPM rejects only
the call that follows, `Esys_LoadExternal`. -/
def callerHoldingPrimary : EsysState :=
  (EsysState.init fun n => n != 1).create .createPrimary

/-- With `session_handle` holding the caller's handle `0x1000` on entry and `pub_key_handle`
some other value, a TPM that rejects only `Esys_LoadExternal` makes
`esys_create_authorized_policy` flush both: the TPM accepts the flush of the caller's object,
which is gone, and the run is not balanced. -/
theorem esysCreateAuthorizedPolicy_flushes_uninitialized :
    (esysCreateAuthorizedPolicy 0x1000 5 callerHoldingPrimary).2.calls =
      callerHoldingPrimary.calls ++ [.loadExternal, .flushContext 0x1000, .flushContext 5] ∧
    callerHoldingPrimary.loaded = [0x1000] ∧
    (esysCreateAuthorizedPolicy 0x1000 5 callerHoldingPrimary).2.loaded = [] ∧
    ¬ Balanced callerHoldingPrimary (esysCreateAuthorizedPolicy 0x1000 5 callerHoldingPrimary).2 := by
  rw [esysCreateAuthorizedPolicy_of_loadExternal_fails 0x1000 5 _ rfl (by decide) (by decide)]
  exact ⟨rfl, rfl, rfl, fun h => absurd (h.mem_released 0x1000).mp (by decide)⟩

end PcrOracle
