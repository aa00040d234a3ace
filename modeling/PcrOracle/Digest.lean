import Mathlib.Data.List.Basic

/-!
# Hash algorithms and event digests

The digest registry the reader and the policy code share: `tpm_algo_info_t` (a TCG algorithm id,
its OpenSSL name and its digest size) and `tpm_evdigest_t` (one digest of an event).

`digest.c`, which holds the built-in table behind `digest_by_tpm_alg`, is not among the sources.
The reader is therefore stated over any built-in table (a function from TCG ids to algorithms),
and `digestByTpmAlg` is one such table, modelled from the spec, on which concrete runs are
evaluated.
-/

namespace PcrOracle

/-- `tpm_algo_info_t`: a hash algorithm of the TCG registry. -/
structure TpmAlgoInfo where
  /-- The TCG algorithm id (`TPM2_ALG_*`). -/
  tcgId : Nat
  /-- The name OpenSSL knows the digest by. -/
  opensslName : String
  /-- The size of one digest, in bytes. -/
  digestSize : Nat
  deriving DecidableEq, Repr, Inhabited

/-- `tpm_evdigest_t`: one digest carried by an event, with the algorithm it was made with. -/
structure TpmEvdigest where
  /-- The algorithm of the digest. -/
  algo : TpmAlgoInfo
  /-- The number of bytes of `data` in use. -/
  size : Nat
  /-- The digest bytes. -/
  data : List UInt8
  deriving DecidableEq, Repr, Inhabited

/-- `TPM2_MAX_DIGEST_SIZE` of the tpm2-tss headers (the size of `TPMU_HA`), the length of
`tpm_evdigest_t.data`; `digest.h`, which declares that structure, is not among the sources. -/
def tpm2MaxDigestSize : Nat := 64

/-- A digest whose bytes fit the `TPM2_MAX_DIGEST_SIZE` bytes of `tpm_evdigest_t.data`. The
model keeps the bytes as a list, so a longer digest is one the C code wrote past `data`. -/
def TpmEvdigest.Fits (d : TpmEvdigest) : Prop := d.data.length ≤ tpm2MaxDigestSize

instance (d : TpmEvdigest) : Decidable d.Fits := inferInstanceAs (Decidable (_ ≤ _))

/-- `TPM2_ALG_SHA1`, the one algorithm of a TCG 1.2 log. -/
def tpm2AlgSha1 : Nat := 0x0004

/-- `TPM2_ALG_SHA256`. -/
def tpm2AlgSha256 : Nat := 0x000B

/-- `TPM2_ALG_LAST`, the largest algorithm id of the tpm2-tss headers. -/
def tpm2AlgLast : Nat := 0x0044

/-- Modelled from the spec: the built-in table of `digest.c` behind `digest_by_tpm_alg`, which
is not among the sources. The spec's digest registry maps TCG ids to names and digest sizes and
names SHA-1 and SHA-256; the table lists the SHA-1 and SHA-2 algorithms of the TCG registry. -/
def tpmAlgorithms : List TpmAlgoInfo :=
  [⟨0x0004, "sha1", 20⟩, ⟨0x000B, "sha256", 32⟩, ⟨0x000C, "sha384", 48⟩, ⟨0x000D, "sha512", 64⟩]

/-- Modelled from the spec: `digest_by_tpm_alg`, the built-in algorithm of a TCG id. -/
def digestByTpmAlg (algoId : Nat) : Option TpmAlgoInfo :=
  tpmAlgorithms.find? (·.tcgId = algoId)

/-- Every algorithm of a built-in table makes digests that fit `tpm_evdigest_t.data`. -/
def BuiltinFits (builtin : Nat → Option TpmAlgoInfo) : Prop :=
  ∀ algoId algo, builtin algoId = some algo → algo.digestSize ≤ tpm2MaxDigestSize

theorem builtinFits_digestByTpmAlg : BuiltinFits digestByTpmAlg := fun _ _ h =>
  (by decide : ∀ a ∈ tpmAlgorithms, a.digestSize ≤ tpm2MaxDigestSize) _ (List.mem_of_find?_eq_some h)

end PcrOracle
