import PcrOracle.Policy.KeyFile
import PcrOracle.Policy.Sign

/-!
# The commands of `pcr-policy.c` and the target platforms

The entry points of `pcr-policy.c` that the command line calls (`pcr_seal_secret`,
`pcr_authorized_policy_create`, `pcr_authorized_policy_seal_secret`,
`old_pcr_authorized_policy_seal_secret`, `pcr_policy_sign`, `pcr_policy_sign_systemd` and
`pcr_unseal_secret_new`) run the TPM-facing operations of the other modules one after the other,
between file operations, and dispatch on the target platform through the function pointers of
`target_platforms[]`. A file operation only decides whether the entry point goes on, so the
model takes its outcome as a `Bool`. `pcr_bank_init_from_current`, which reads the PCRs an
unsealing runs under, loads nothing into the TPM, and the bank it reads is given.

Every entry point passes each handle it created to `Esys_FlushContext` or
`Esys_SequenceComplete` once, on every path, whatever the TPM answers, the file operations
return and the platform is, and passes no other handle (`runPcrCommand_balanced`). It leaves the
TPM with the handles it found and the ones whose flush or completion the TPM rejected: the code
clears the variable of such a handle, and the handle leaks. The two conditions are
the ones the operations inside need: the registers of a bank fit the `assert` of
`__pcr_bank_hash`, and the handle variables of `esys_create_authorized_policy`, which it does not
initialise, hold `ESYS_TR_NONE`. Without the second, `pcr_authorized_policy_create` flushes
handles that are not its own (`esysCreateAuthorizedPolicy_flushes_uninitialized`).

## Main results

* `runPcrCommand_balanced`: every command, on every platform, releases each handle it created
  once and leaks exactly those whose release the TPM rejected.
-/

namespace PcrOracle

/-! ## The target platforms -/

/-- The `write_signed_policy` functions of `target_platforms[]`. -/
inductive SignedPolicyWriter
  /-- `oldgrub_write_signed_policy`: `write_signature`. -/
  | oldgrub
  /-- `tpm2key_write_signed_policy`: the `PolicyAuthorize` entry added to the key file. -/
  | tpm2key
  /-- `systemd_write_signed_policy`: not implemented. -/
  | systemd
  deriving DecidableEq, Repr

/-- What a writer returns, given whether its file operations went through:
`systemd_write_signed_policy` fails whatever it is given. -/
def SignedPolicyWriter.write : SignedPolicyWriter → Bool → Bool
  | .oldgrub, written => written
  | .tpm2key, written => written
  | .systemd, _ => false

/-- The `unseal_secret` functions of `target_platforms[]`. -/
inductive SecretUnsealer
  /-- `oldgrub_unseal_secret`. -/
  | oldgrub
  /-- `tpm2key_unseal_secret`. -/
  | tpm2key
  deriving DecidableEq, Repr

/-- `target_platform_t`, with the pointers the model dispatches on; `NULL` is `none`. -/
structure TargetPlatform where
  name : String
  writeSignedPolicy : Option SignedPolicyWriter
  unsealSecret : Option SecretUnsealer
  deriving DecidableEq, Repr

/-- `target_platforms[]`. -/
def targetPlatforms : List TargetPlatform :=
  [⟨"oldgrub", some .oldgrub, some .oldgrub⟩, ⟨"tpm2.0", some .tpm2key, some .tpm2key⟩,
    ⟨"systemd", some .systemd, none⟩]

/-- `pcr_get_target_platform`: the first platform of that name. -/
def pcrGetTargetPlatform (name : String) : Option TargetPlatform :=
  targetPlatforms.find? fun tp => tp.name = name

/-! ## The entry points -/

/-- `pcr_seal_secret`: the PCR policy of `bank`, then `esys_seal_secret` under it.
`pcr_bank_to_selection` cannot fail. `none` is the failed `assert` of `__pcr_bank_hash`. -/
def pcrSealSecret (bank : TpmPcrBank) (secretRead written : Bool) : Esys (Option Bool) := do
  match ← pcrPolicyMake bank with
  | none => return none
  | some false => return some false
  | some true => return some (← esysSealSecret secretRead written)

/-- `pcr_authorized_policy_seal_secret`: `read_digest`, then `esys_seal_secret` under the
digest. -/
def pcrAuthorizedPolicySealSecret (digestRead secretRead written : Bool) : Esys Bool :=
  if !digestRead then pure false else esysSealSecret secretRead written

/-- `__pcr_policy_create_authorized`, and `pcr_authorized_policy_create`, which returns its
result whatever `write_digest` does: the public key read, the PCR policy of the all-zero bank,
then `esys_create_authorized_policy`, whose handle variables hold `sessionHandle` and
`pubKeyHandle` on entry. -/
def pcrPolicyCreateAuthorized (zeroBank : TpmPcrBank) (keyRead : Bool)
    (sessionHandle pubKeyHandle : Nat) : Esys (Option Bool) :=
  if !keyRead then pure (some false)
  else do
    match ← pcrPolicyMake zeroBank with
    | none => return none
    | some false => return some false
    | some true => return some (← esysCreateAuthorizedPolicy sessionHandle pubKeyHandle)

/-- `pcr_policy_sign`: the platform needs a writer; the signing key is read, the policy of
`bank` made and signed by `__pcr_policy_sign` (`signed`), and the writer called. -/
def pcrPolicySign (platform : TargetPlatform) (bank : TpmPcrBank) (keyRead signed written : Bool) :
    Esys (Option Bool) :=
  match platform.writeSignedPolicy with
  | none => pure (some false)
  | some writer =>
    if !keyRead then pure (some false)
    else do
      match ← pcrPolicyMake bank with
      | none => return none
      | some false => return some false
      | some true => return some (signed && writer.write written)

/-- `pcr_unseal_secret_pcr`: `read_sealed_secret`, then `esys_unseal_pcr_policy` under the
current PCR values. -/
def pcrUnsealSecretPcr (sealedRead : Bool) (currentBank : TpmPcrBank) : Esys Bool :=
  if !sealedRead then pure false else esysUnsealPcrPolicy currentBank

/-- `pcr_authorized_policy_unseal_secret`: the public key, the sealed secret and the signature
read, then `esys_unseal_authorized` under the current PCR values. -/
def pcrAuthorizedPolicyUnsealSecret (pubKeyRead sealedRead signatureRead : Bool)
    (currentBank : TpmPcrBank) : Esys Bool :=
  if !(pubKeyRead && sealedRead && signatureRead) then pure false
  else esysUnsealAuthorized currentBank

/-- What the unsealing entry points are given and read. -/
structure UnsealInputs where
  /-- Whether a signed policy path is given. -/
  signedPolicy : Bool
  pubKeyRead : Bool
  sealedRead : Bool
  signatureRead : Bool
  /-- The PCR values `pcr_bank_init_from_current` read. -/
  currentBank : TpmPcrBank
  /-- The key file of `tpm2key_unseal_secret`, `none` if it cannot be read. -/
  tpm2key : Option TssPrivKey

/-- `oldgrub_unseal_secret`: under the PCR policy, or under the signed policy if one is
given. -/
def oldgrubUnsealSecret (inputs : UnsealInputs) : Esys Bool :=
  if !inputs.signedPolicy then pcrUnsealSecretPcr inputs.sealedRead inputs.currentBank
  else pcrAuthorizedPolicyUnsealSecret inputs.pubKeyRead inputs.sealedRead inputs.signatureRead
    inputs.currentBank

/-- `pcr_unseal_secret_new`: the platform's unsealer, if it has one. -/
def pcrUnsealSecretNew (platform : TargetPlatform) (inputs : UnsealInputs) : Esys Bool :=
  match platform.unsealSecret with
  | none => pure false
  | some .oldgrub => oldgrubUnsealSecret inputs
  | some .tpm2key => tpm2keyUnsealSecret inputs.tpm2key

/-- The TPM-facing entry points, with what their file operations give. -/
inductive PcrCommand
  | sealSecret (bank : TpmPcrBank) (secretRead written : Bool)
  | authorizedPolicyCreate (zeroBank : TpmPcrBank) (keyRead : Bool) (sessionHandle pubKeyHandle : Nat)
  | authorizedPolicySealSecret (digestRead secretRead written : Bool)
  | oldAuthorizedPolicySealSecret (secretRead digestRead written : Bool)
  | policySign (bank : TpmPcrBank) (keyRead signed written : Bool)
  | policySignSystemd (bank : TpmPcrBank) (keyRead signed : Bool)
  | unsealSecret (inputs : UnsealInputs)

/-- A command on a platform: whether it succeeded, `none` when an `assert` stopped it. -/
def runPcrCommand (platform : TargetPlatform) : PcrCommand → Esys (Option Bool)
  | .sealSecret bank secretRead written => pcrSealSecret bank secretRead written
  | .authorizedPolicyCreate zeroBank keyRead sessionHandle pubKeyHandle =>
    pcrPolicyCreateAuthorized zeroBank keyRead sessionHandle pubKeyHandle
  | .authorizedPolicySealSecret digestRead secretRead written =>
    some <$> pcrAuthorizedPolicySealSecret digestRead secretRead written
  | .oldAuthorizedPolicySealSecret secretRead digestRead written =>
    some <$> oldPcrAuthorizedPolicySealSecret secretRead digestRead written
  | .policySign bank keyRead signed written => pcrPolicySign platform bank keyRead signed written
  | .policySignSystemd bank keyRead signed =>
    (fun entry => some entry.isSome) <$> pcrPolicySignSystemd bank keyRead signed
  | .unsealSecret inputs => some <$> pcrUnsealSecretNew platform inputs

/-- What a command needs of its inputs: the banks it makes a policy of fit, and the handle
variables of `esys_create_authorized_policy` start as `ESYS_TR_NONE`. -/
def PcrCommand.Sound : PcrCommand → Prop
  | .sealSecret bank _ _ => RegistersFit bank
  | .authorizedPolicyCreate zeroBank _ sessionHandle pubKeyHandle =>
    RegistersFit zeroBank ∧ sessionHandle = esysTrNone ∧ pubKeyHandle = esysTrNone
  | .policySign bank _ _ _ => RegistersFit bank
  | .policySignSystemd bank _ _ => RegistersFit bank
  | _ => True

instance : (cmd : PcrCommand) → Decidable cmd.Sound
  | .sealSecret bank _ _ => inferInstanceAs (Decidable (RegistersFit bank))
  | .authorizedPolicyCreate zeroBank _ _ _ => inferInstanceAs (Decidable (RegistersFit zeroBank ∧ _))
  | .policySign bank _ _ _ => inferInstanceAs (Decidable (RegistersFit bank))
  | .policySignSystemd bank _ _ => inferInstanceAs (Decidable (RegistersFit bank))
  | .authorizedPolicySealSecret .. => isTrue trivial
  | .oldAuthorizedPolicySealSecret .. => isTrue trivial
  | .unsealSecret _ => isTrue trivial

/-! ## Balanced runs -/

/-- A computation whose run from every state is balanced. -/
def BalancedRun {α : Type} (m : Esys α) : Prop := ∀ s, Balanced s (m s).2

section BalancedRun

variable {α β : Type}

theorem balancedRun_pure (a : α) : BalancedRun (pure a : Esys α) := Balanced.refl

theorem BalancedRun.bind {m : Esys β} {f : β → Esys α} (hm : BalancedRun m)
    (hf : ∀ b, BalancedRun (f b)) : BalancedRun (m >>= f) :=
  fun s => (hm s).trans (hf _ _)

theorem BalancedRun.map {m : Esys β} (f : β → α) (hm : BalancedRun m) : BalancedRun (f <$> m) :=
  hm

theorem BalancedRun.ite (p : Prop) [Decidable p] {m m' : Esys α} (hm : BalancedRun m)
    (hm' : BalancedRun m') : BalancedRun (if p then m else m') := by
  split
  · exact hm
  · exact hm'

/-- A continuation on the policy `__pcr_policy_make` made, balanced on every outcome. -/
theorem BalancedRun.policyMake {bank : TpmPcrBank} (hsize : RegistersFit bank)
    {f : Option Bool → Esys α} (hf : ∀ r, BalancedRun (f r)) :
    BalancedRun (pcrPolicyMake bank >>= f) :=
  BalancedRun.bind (fun s => pcrPolicyMake_balanced s bank hsize) hf

end BalancedRun

theorem pcrSealSecret_balancedRun {bank : TpmPcrBank} (hsize : RegistersFit bank)
    (secretRead written : Bool) : BalancedRun (pcrSealSecret bank secretRead written) :=
  BalancedRun.policyMake hsize fun
    | none => balancedRun_pure _
    | some false => balancedRun_pure _
    | some true => BalancedRun.bind (esysSealSecret_balanced · _ _) fun _ => balancedRun_pure _

theorem pcrPolicyCreateAuthorized_balancedRun {zeroBank : TpmPcrBank} (hsize : RegistersFit zeroBank)
    (keyRead : Bool) : BalancedRun (pcrPolicyCreateAuthorized zeroBank keyRead esysTrNone esysTrNone) := by
  unfold pcrPolicyCreateAuthorized
  refine BalancedRun.ite _ (balancedRun_pure _) (BalancedRun.policyMake hsize fun
    | none => balancedRun_pure _
    | some false => balancedRun_pure _
    | some true => BalancedRun.bind (esysCreateAuthorizedPolicy_balanced_of_none ·)
        fun _ => balancedRun_pure _)

theorem pcrPolicySign_balancedRun (platform : TargetPlatform) {bank : TpmPcrBank}
    (hsize : RegistersFit bank) (keyRead signed written : Bool) :
    BalancedRun (pcrPolicySign platform bank keyRead signed written) := by
  unfold pcrPolicySign
  cases platform.writeSignedPolicy with
  | none => exact balancedRun_pure _
  | some writer =>
    exact BalancedRun.ite _ (balancedRun_pure _) (BalancedRun.policyMake hsize fun
      | none => balancedRun_pure _
      | some false => balancedRun_pure _
      | some true => balancedRun_pure _)

theorem pcrPolicySignSystemd_balancedRun {bank : TpmPcrBank} (hsize : RegistersFit bank)
    (keyRead signed : Bool) : BalancedRun (pcrPolicySignSystemd bank keyRead signed) := by
  unfold pcrPolicySignSystemd
  refine BalancedRun.ite _ (balancedRun_pure _) (BalancedRun.bind (balancedRun_pure _) fun _ => ?_)
  refine BalancedRun.policyMake hsize fun r => ?_
  rcases r with _ | _ | _
  · exact balancedRun_pure _
  · exact balancedRun_pure _
  · exact BalancedRun.ite _ (balancedRun_pure _) (balancedRun_pure _)

theorem pcrUnsealSecretNew_balancedRun (platform : TargetPlatform) (inputs : UnsealInputs) :
    BalancedRun (pcrUnsealSecretNew platform inputs) := by
  unfold pcrUnsealSecretNew
  rcases platform.unsealSecret with _ | _ | _
  · exact balancedRun_pure _
  · -- `oldgrub_unseal_secret`, under the PCR policy or the signed one
    unfold oldgrubUnsealSecret pcrUnsealSecretPcr pcrAuthorizedPolicyUnsealSecret
    exact BalancedRun.ite _ (BalancedRun.ite _ (balancedRun_pure _) (esysUnsealPcrPolicy_balanced · _))
      (BalancedRun.ite _ (balancedRun_pure _) (esysUnsealAuthorized_balanced · _))
  · exact (tpm2keyUnsealSecret_balanced · _)

/-- Whatever the platform, the TPM's answers and what the file operations return, every
TPM-facing entry point of `pcr-policy.c` whose inputs are sound passes exactly the handles it
created to `Esys_FlushContext` or `Esys_SequenceComplete`, each once, and leaves the TPM with the
handles it found and those whose flush or completion the TPM rejected. -/
theorem runPcrCommand_balanced (platform : TargetPlatform) (cmd : PcrCommand) (h : cmd.Sound)
    (s : EsysState) : Balanced s (runPcrCommand platform cmd s).2 := by
  cases cmd with
  | sealSecret bank secretRead written => exact pcrSealSecret_balancedRun h secretRead written s
  | authorizedPolicyCreate zeroBank keyRead sessionHandle pubKeyHandle =>
    obtain ⟨hsize, rfl, rfl⟩ := h
    exact pcrPolicyCreateAuthorized_balancedRun hsize keyRead s
  | authorizedPolicySealSecret digestRead secretRead written =>
    exact BalancedRun.map _ (BalancedRun.ite _ (balancedRun_pure _) (esysSealSecret_balanced · _ _)) s
  | oldAuthorizedPolicySealSecret secretRead digestRead written =>
    exact BalancedRun.map _ (oldPcrAuthorizedPolicySealSecret_balanced · _ _ _) s
  | policySign bank keyRead signed written =>
    exact pcrPolicySign_balancedRun platform h keyRead signed written s
  | policySignSystemd bank keyRead signed =>
    exact BalancedRun.map _ (pcrPolicySignSystemd_balancedRun h keyRead signed) s
  | unsealSecret inputs => exact BalancedRun.map _ (pcrUnsealSecretNew_balancedRun platform inputs) s

theorem runPcrCommand_balanced_tpm2key :
    (PcrCommand.sealSecret partlyExtendedBank true true).Sound ∧
      Balanced (EsysState.init fun _ => true)
        (runPcrCommand ⟨"tpm2.0", some .tpm2key, some .tpm2key⟩
          (.sealSecret partlyExtendedBank true true) (EsysState.init fun _ => true)).2 :=
  have h : (PcrCommand.sealSecret partlyExtendedBank true true).Sound := by decide
  ⟨h, runPcrCommand_balanced _ _ h _⟩

end PcrOracle
