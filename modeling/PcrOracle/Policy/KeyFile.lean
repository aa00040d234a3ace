import PcrOracle.Policy.Handles

/-!
# Unsealing a TPM 2.0 key file

`tpm2key_unseal_secret` unseals a secret kept in the TPM 2.0 key file format. It loads the sealed
object under a fresh storage root key and satisfies the object's policy with
`__pcr_policy_unseal_policy_seq`, which replays a `TPM2_POLICY` sequence of the key file,
`PolicyPCR` and `PolicyAuthorize` commands, in a policy session and unseals. With an
`authPolicy` list the sequences are tried in turn until one unseals.

Reading and unmarshalling the key file are not modelled: the key file is given as what they
produce, and each policy command as what its parameters unmarshal to. What is unsealed and
written out is not followed either; the model follows the calls and the handles.

## Main results

* `pcrPolicyUnsealPolicyCommand_heldBy`, `pcrPolicyUnsealPolicySeqLoop_heldBy`: a command of a
  policy sequence, and so the whole sequence, keeps the handles of the caller.
* `pcrPolicyTpm2Policyauthorize_balanced`, `pcrPolicyUnsealPolicySeq_balanced`,
  `tpm2keyUnsealAuthPolicies_balanced`, `tpm2keyUnsealSecret_balanced`: each releases exactly
  the handles it created, on every run, and leaks those whose release the TPM rejects.
-/

namespace PcrOracle

/-- `TPM2_CC_PolicyPCR`, a command code of the tpm2-tss headers. -/
def tpm2CcPolicyPcr : Nat := 0x17f

/-- `TPM2_CC_PolicyAuthorize`, a command code of the tpm2-tss headers. -/
def tpm2CcPolicyAuthorize : Nat := 0x16a

/-- A `TSSOPTPOLICY` of a `TPM2_POLICY` sequence: its `CommandCode`, and its `CommandPolicy` as
the two readers unmarshal it: the digest and selection of `PolicyPCR`, if they unmarshal, and
whether the public key, policy reference and signature of `PolicyAuthorize` do. -/
structure TssOptPolicy where
  commandCode : Nat
  policyPcrParams : Option (List UInt8 × TpmlPcrSelection)
  policyAuthorizeParamsRead : Bool
  deriving DecidableEq, Repr

/-- `__pcr_policy_tpm2_policypcr`: `PolicyPCR` in the session, with the digest and selection of
the command. -/
def pcrPolicyTpm2Policypcr (sessionHandle : Nat) (policy : TssOptPolicy) : Esys Bool := do
  let some (digest, pcrs) := policy.policyPcrParams | return false
  esysCall (.policyPcr sessionHandle (.given digest) pcrs)

/-- The body of `__pcr_policy_tpm2_policyauthorize` from `Esys_PolicyGetDigest` to `cleanup:`:
the result and `pub_key_handle` there. The calls from `Esys_TR_GetName` on each
`goto cleanup` on failure. -/
def pcrPolicyTpm2PolicyauthorizeBody (sessionHandle : Nat) : Esys (Bool × Nat) := do
  let pubKeyHandle := esysTrNone
  if !(← esysCall (.policyGetDigest sessionHandle)) then return (false, pubKeyHandle)
  if !(← esysCall .hash) then return (false, pubKeyHandle)
  let some pubKeyHandle ← esysCreateObject .loadExternal | return (false, pubKeyHandle)
  let okay ← esysCalls [.trGetName pubKeyHandle, .verifySignature pubKeyHandle,
    .policyAuthorize sessionHandle]
  return (okay, pubKeyHandle)

/-- `__pcr_policy_tpm2_policyauthorize`: `PolicyAuthorize` of the session's digest, with the
signature checked by the loaded public key. It returns before any call when the parameters do
not unmarshal; at `cleanup:` the public key is flushed. -/
def pcrPolicyTpm2Policyauthorize (sessionHandle : Nat) (paramsRead : Bool) : Esys Bool := do
  if !paramsRead then return false
  let (okay, pubKeyHandle) ← pcrPolicyTpm2PolicyauthorizeBody sessionHandle
  esysFlushContexts [pubKeyHandle]
  return okay

/-- The `switch` of `__pcr_policy_unseal_policy_seq` on one command: whether it went through. An
unsupported command fails. -/
def pcrPolicyUnsealPolicyCommand (sessionHandle : Nat) (policy : TssOptPolicy) : Esys Bool :=
  if policy.commandCode = tpm2CcPolicyPcr then pcrPolicyTpm2Policypcr sessionHandle policy
  else if policy.commandCode = tpm2CcPolicyAuthorize then
    pcrPolicyTpm2Policyauthorize sessionHandle policy.policyAuthorizeParamsRead
  else pure false

/-- The loop of `__pcr_policy_unseal_policy_seq` over the commands: whether every command went
through. -/
def pcrPolicyUnsealPolicySeqLoop (sessionHandle : Nat) : List TssOptPolicy → Esys Bool
  | [] => pure true
  | policy :: policySeq => do
    if !(← pcrPolicyUnsealPolicyCommand sessionHandle policy) then return false
    pcrPolicyUnsealPolicySeqLoop sessionHandle policySeq

/-- The body of `__pcr_policy_unseal_policy_seq` up to `cleanup:`: the result and
`session_handle` there. -/
def pcrPolicyUnsealPolicySeqBody (sealedObjectHandle : Nat) (policySeq : List TssOptPolicy) :
    Esys (Bool × Nat) := do
  let (ok, sessionHandle) ← esysStartAuthSession tpm2SePolicy esysTrNone
  if !ok then return (false, sessionHandle)
  if !(← pcrPolicyUnsealPolicySeqLoop sessionHandle policySeq) then
    return (false, sessionHandle)
  let okay ← esysCall (.unseal sealedObjectHandle sessionHandle)
  return (okay, sessionHandle)

/-- `__pcr_policy_unseal_policy_seq`: replay the sequence in a policy session and unseal the
object; the session is flushed at `cleanup:`. -/
def pcrPolicyUnsealPolicySeq (sealedObjectHandle : Nat) (policySeq : List TssOptPolicy) :
    Esys Bool := do
  let (okay, sessionHandle) ← pcrPolicyUnsealPolicySeqBody sealedObjectHandle policySeq
  esysFlushContexts [sessionHandle]
  return okay

/-- A `TSSPRIVKEY` as `tpm2key_unseal_secret` reads it: whether its public and private parts
unmarshal, and its policies: `authPolicy`, the sequences to try in turn, or else `policy`. -/
structure TssPrivKey where
  keysRead : Bool
  authPolicy : Option (List (List TssOptPolicy))
  policy : Option (List TssOptPolicy)
  deriving DecidableEq, Repr

/-- The loop of `tpm2key_unseal_secret` over `authPolicy`: each sequence is tried until one
unseals. -/
def tpm2keyUnsealAuthPolicies (sealedObjectHandle : Nat) :
    List (List TssOptPolicy) → Esys Bool
  | [] => pure false
  | policySeq :: authPolicy => do
    if ← pcrPolicyUnsealPolicySeq sealedObjectHandle policySeq then return true
    tpm2keyUnsealAuthPolicies sealedObjectHandle authPolicy

/-- The body of `tpm2key_unseal_secret` once the key file was read, up to `cleanup:`: the result
and `primary_handle` and `sealed_object_handle` there. -/
def tpm2keyUnsealSecretBody (tpm2key : TssPrivKey) : Esys (Bool × Nat × Nat) := do
  let primaryHandle := esysTrNone
  let sealedObjectHandle := esysTrNone
  if !tpm2key.keysRead then return (false, primaryHandle, sealedObjectHandle)
  let (ok, primaryHandle) ← esysCreatePrimary primaryHandle
  if !ok then return (false, primaryHandle, sealedObjectHandle)
  let some sealedObjectHandle ← esysCreateObject (.load primaryHandle)
    | return (false, primaryHandle, sealedObjectHandle)
  let okay ← match tpm2key.authPolicy, tpm2key.policy with
    | some authPolicy, _ => tpm2keyUnsealAuthPolicies sealedObjectHandle authPolicy
    | none, some policy => pcrPolicyUnsealPolicySeq sealedObjectHandle policy
    | none, none => pure false
  return (okay, primaryHandle, sealedObjectHandle)

/-- `tpm2key_unseal_secret`: `none` is a key file that `tpm2key_read_file` could not read, and
the function returns at once; otherwise both handles are flushed at `cleanup:`. -/
def tpm2keyUnsealSecret (tpm2key : Option TssPrivKey) : Esys Bool := do
  let some tpm2key := tpm2key | return false
  let (okay, primaryHandle, sealedObjectHandle) ← tpm2keyUnsealSecretBody tpm2key
  esysFlushContexts [primaryHandle, sealedObjectHandle]
  return okay

/-! ## Balanced runs -/

section Balanced

variable (s : EsysState)

theorem pcrPolicyTpm2PolicyauthorizeBody_heldBy (sessionHandle : Nat) :
    Esys.wp (pcrPolicyTpm2PolicyauthorizeBody sessionHandle) (fun r t => HeldBy s t [r.2]) s := by
  simp only [pcrPolicyTpm2PolicyauthorizeBody, wp_bind, wp_esysCreateObject, wp_esysCall, wp_pure,
    wp_ite, Bool.not_true, Bool.not_false, Bool.false_eq_true, if_true, if_false]
  repeat' refine ite_prop_iff_and.mpr ⟨fun _ => ?_, fun _ => ?_⟩
  all_goals repeat' first
    | exact HeldBy.refl _
    | refine HeldBy.cons_none ?_
    | refine HeldBy.create ?_ rfl
    | refine HeldBy.addCall ?_ rfl
    | refine esysCalls_heldBy ?_ (by simp [EsysCall.releases])

theorem pcrPolicyTpm2Policyauthorize_balanced (sessionHandle : Nat) (paramsRead : Bool) :
    Balanced s (pcrPolicyTpm2Policyauthorize sessionHandle paramsRead s).2 := by
  show Esys.wp (pcrPolicyTpm2Policyauthorize sessionHandle paramsRead) (fun _ t => Balanced s t) s
  cases paramsRead
  · exact Balanced.refl s
  · simp only [pcrPolicyTpm2Policyauthorize, Bool.not_true, Bool.false_eq_true, if_false, wp_bind,
      wp_pure]
    exact Esys.wp_mono (pcrPolicyTpm2PolicyauthorizeBody_heldBy s sessionHandle) fun _ _ h =>
      esysFlushContexts_balanced _ h

variable {s} {vars : List Nat} (sessionHandle : Nat)

/-- One command of a policy sequence keeps the handles of the caller: `PolicyPCR` creates and
releases nothing, and `__pcr_policy_tpm2_policyauthorize` is balanced. -/
theorem pcrPolicyUnsealPolicyCommand_heldBy {t : EsysState} (h : HeldBy s t vars)
    (policy : TssOptPolicy) :
    Esys.wp (pcrPolicyUnsealPolicyCommand sessionHandle policy) (fun _ t' => HeldBy s t' vars)
      t := by
  unfold pcrPolicyUnsealPolicyCommand
  split_ifs
  · unfold pcrPolicyTpm2Policypcr
    split
    · exact h.addCall rfl
    · exact h
  · exact h.trans (pcrPolicyTpm2Policyauthorize_balanced t _ _)
  · exact h

/-- So does the whole sequence. -/
theorem pcrPolicyUnsealPolicySeqLoop_heldBy :
    ∀ (policySeq : List TssOptPolicy) {t : EsysState}, HeldBy s t vars →
      Esys.wp (pcrPolicyUnsealPolicySeqLoop sessionHandle policySeq)
        (fun _ t' => HeldBy s t' vars) t
  | [], _, h => h
  | policy :: policySeq, _, h => by
    simp only [pcrPolicyUnsealPolicySeqLoop, wp_bind]
    refine Esys.wp_mono (pcrPolicyUnsealPolicyCommand_heldBy sessionHandle h policy)
      fun ok _ h' => ?_
    cases ok
    · exact h'
    · exact pcrPolicyUnsealPolicySeqLoop_heldBy policySeq h'

variable (s)

theorem pcrPolicyUnsealPolicySeqBody_heldBy (sealedObjectHandle : Nat)
    (policySeq : List TssOptPolicy) :
    Esys.wp (pcrPolicyUnsealPolicySeqBody sealedObjectHandle policySeq)
      (fun r t => HeldBy s t [r.2]) s := by
  simp only [pcrPolicyUnsealPolicySeqBody, esysStartAuthSession, wp_bind, wp_esysCreateObject,
    wp_esysCall, wp_pure, wp_ite, Bool.not_true, Bool.not_false, Bool.false_eq_true, if_true,
    if_false]
  split_ifs
  · refine Esys.wp_mono (pcrPolicyUnsealPolicySeqLoop_heldBy _ policySeq
      ((HeldBy.refl s).create rfl)) fun ok _ h => ?_
    cases ok
    · exact h
    · exact h.addCall rfl
  · exact HeldBy.cons_none (HeldBy.addCall (HeldBy.refl s) rfl)

theorem pcrPolicyUnsealPolicySeq_balanced (sealedObjectHandle : Nat)
    (policySeq : List TssOptPolicy) :
    Balanced s (pcrPolicyUnsealPolicySeq sealedObjectHandle policySeq s).2 := by
  show Esys.wp (pcrPolicyUnsealPolicySeq sealedObjectHandle policySeq) (fun _ t => Balanced s t) s
  simp only [pcrPolicyUnsealPolicySeq, wp_bind, wp_pure]
  exact Esys.wp_mono (pcrPolicyUnsealPolicySeqBody_heldBy s sealedObjectHandle policySeq)
    fun _ _ h => esysFlushContexts_balanced _ h

/-- Trying the sequences of `authPolicy` in turn is balanced, whichever of them unseals. -/
theorem tpm2keyUnsealAuthPolicies_balanced (sealedObjectHandle : Nat) :
    ∀ (authPolicy : List (List TssOptPolicy)) (s : EsysState),
      Balanced s (tpm2keyUnsealAuthPolicies sealedObjectHandle authPolicy s).2
  | [], s => Balanced.refl s
  | policySeq :: authPolicy, s => by
    show Esys.wp (tpm2keyUnsealAuthPolicies sealedObjectHandle (policySeq :: authPolicy))
      (fun _ t => Balanced s t) s
    simp only [tpm2keyUnsealAuthPolicies, wp_bind]
    refine Esys.wp_mono (show Esys.wp (pcrPolicyUnsealPolicySeq sealedObjectHandle policySeq)
      (fun _ t => Balanced s t) s from pcrPolicyUnsealPolicySeq_balanced s _ _) fun ok t h => ?_
    cases ok
    · exact h.trans (tpm2keyUnsealAuthPolicies_balanced sealedObjectHandle authPolicy t)
    · exact h

theorem tpm2keyUnsealSecretBody_heldBy (tpm2key : TssPrivKey) :
    Esys.wp (tpm2keyUnsealSecretBody tpm2key) (fun r t => HeldBy s t [r.2.2, r.2.1]) s := by
  simp only [tpm2keyUnsealSecretBody, esysCreatePrimary, wp_bind, wp_esysCreateObject, wp_pure,
    wp_ite, Bool.not_true, Bool.not_false, Bool.false_eq_true, if_true, if_false]
  repeat' refine ite_prop_iff_and.mpr ⟨fun _ => ?_, fun _ => ?_⟩
  -- the policies run between the load and `cleanup:`, each balanced
  all_goals try (split <;> simp only [wp_bind, wp_pure])
  all_goals repeat' first
    | exact HeldBy.refl _
    | refine HeldBy.cons_none ?_
    | refine HeldBy.create ?_ rfl
    | refine HeldBy.addCall ?_ rfl
    | refine HeldBy.trans ?_ (tpm2keyUnsealAuthPolicies_balanced _ _ _)
    | refine HeldBy.trans ?_ (pcrPolicyUnsealPolicySeq_balanced _ _ _)

theorem tpm2keyUnsealSecret_balanced (tpm2key : Option TssPrivKey) :
    Balanced s (tpm2keyUnsealSecret tpm2key s).2 := by
  show Esys.wp (tpm2keyUnsealSecret tpm2key) (fun _ t => Balanced s t) s
  cases tpm2key with
  | none => exact Balanced.refl s
  | some tpm2key =>
    simp only [tpm2keyUnsealSecret, wp_bind, wp_pure]
    -- flushed in the order primary key, sealed object
    exact Esys.wp_mono (tpm2keyUnsealSecretBody_heldBy s tpm2key) fun _ _ h =>
      esysFlushContexts_balanced _ (h.perm (.swap _ _ _))

end Balanced

end PcrOracle
