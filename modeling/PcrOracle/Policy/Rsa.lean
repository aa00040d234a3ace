import PcrOracle.Digest
import PcrOracle.EventLog.Stream

/-!
# The TPM form of an RSA public key

`tpm_rsa_key_to_tss2` of `rsa.c` turns the signing key into the `TPM2B_PUBLIC` that
`tpm2key_write_signed_policy` stores in the `PolicyAuthorize` entry of a TPM 2.0 key file, and
that `Esys_LoadExternal` later loads to check the policy's signature. `rsa_pubkey_alloc` accepts
moduli of 1024, 2048, 3072 and 4096 bits and exponents of at most four bytes, copies the modulus
into `unique.rsa` with `BN_bn2bin`, and copies the exponent the same way into the `UINT32` field
`rsaDetail.exponent`; a copy that writes no byte, as for a zero exponent, returns `NULL`.

`BN_bn2bin` writes big-endian bytes, from the start of the field. The TSS reads the field as a
host `UINT32`, little-endian on the hosts the code targets, so the exponent it sees is the value
of the bytes read the other way round.

## Main results

* `leValue_eq_beValue_iff`: a byte string read little-endian and big-endian gives the same value
  exactly when it is a palindrome.
* `tpmRsaKeyToTss2_exponent`: every admissible key with a nonzero exponent converts, with the
  modulus in `unique.rsa`, and the exponent the TPM is given is the key's exactly when its bytes
  are a palindrome; a zero exponent is refused.
-/

namespace PcrOracle

/-! ## Big numbers -/

/-- The big-endian value of a byte string. -/
def beValue (bytes : List UInt8) : Nat := bytes.foldl (fun v b => 256 * v + b.toNat) 0

/-- A `BIGNUM` that is not negative, as the bytes of its shortest big-endian form: what
`BN_bn2bin` writes and `BN_num_bytes` counts. Zero has no bytes. -/
structure Bignum where
  bytes : List UInt8
  no_leading_zero : bytes.head? ≠ some 0
  deriving DecidableEq

/-- The value of a `BIGNUM`. -/
def Bignum.value (x : Bignum) : Nat := beValue x.bytes

/-- The RSA public key of a `tpm_rsa_key_t`: modulus and exponent. -/
structure TpmRsaKey where
  n : Bignum
  e : Bignum
  deriving DecidableEq

/-! ## `TPM2B_PUBLIC` -/

/-- `TPM2_ALG_RSA`. -/
def tpm2AlgRsa : Nat := 0x0001

/-- `TPM2_ALG_NULL`. -/
def tpm2AlgNull : Nat := 0x0010

/-- `TPMA_OBJECT_DECRYPT | TPMA_OBJECT_SIGN_ENCRYPT | TPMA_OBJECT_USERWITHAUTH`. -/
def rsaPubkeyAttributes : Nat := 0x00020000 ||| 0x00040000 ||| 0x00000040

/-- The fields of a `TPM2B_PUBLIC` that `rsa_pubkey_alloc` sets. `exponent` is the four bytes of
the `UINT32` field `parameters.rsaDetail.exponent` as they lie in memory, and `unique` the bytes
of `unique.rsa`, whose `size` is their number. -/
structure Tpm2bPublic where
  type : Nat
  nameAlg : Nat
  objectAttributes : Nat
  scheme : Nat
  symmetric : Nat
  keyBits : Nat
  exponent : List UInt8
  unique : List UInt8
  deriving DecidableEq, Repr

/-- `__rsa_pubkey_alloc`: a zeroed `TPM2B_PUBLIC` of an RSA key with SHA-256 names, no scheme and
no symmetric algorithm. -/
def rsaPubkeyTemplate : Tpm2bPublic where
  type := tpm2AlgRsa
  nameAlg := tpm2AlgSha256
  objectAttributes := rsaPubkeyAttributes
  scheme := tpm2AlgNull
  symmetric := tpm2AlgNull
  keyBits := 0
  exponent := [0, 0, 0, 0]
  unique := []

/-- Why `rsa_pubkey_alloc` returns `NULL`. -/
inductive RsaError
  /-- `%s: unsupported RSA key size (%u bits)`, with `BN_num_bytes(n) * 8`. -/
  | unsupportedKeySize (keyBits : Nat)
  /-- `%s: unsupported RSA modulus size (%u bits)`, printed for an exponent longer than the
  field, with `BN_num_bytes(e) * 8`. -/
  | unsupportedExponentSize (bits : Nat)
  /-- `goto failed`: `BN_bn2bin` wrote no byte, as it does for zero; no message is printed. -/
  | bnBn2binFailed
  deriving DecidableEq, Repr

/-- `rsa_pubkey_alloc`: the key size checked, then the exponent's length against the four bytes
of the field; the modulus copied into `unique.rsa` and the exponent's bytes over the start of the
zeroed field. `BN_bn2bin` returns the number of bytes it wrote, so each copy fails on a zero
`BIGNUM`; the key size check already rules that out for the modulus, not for the exponent. -/
def rsaPubkeyAlloc (n e : Bignum) : Except RsaError Tpm2bPublic :=
  let keyBits := n.bytes.length * 8
  if keyBits ≠ 1024 ∧ keyBits ≠ 2048 ∧ keyBits ≠ 3072 ∧ keyBits ≠ 4096 then
    .error (.unsupportedKeySize keyBits)
  else if e.bytes.length > 4 then .error (.unsupportedExponentSize (e.bytes.length * 8))
  else if n.bytes.length = 0 then .error .bnBn2binFailed
  else if e.bytes.length = 0 then .error .bnBn2binFailed
  else
    .ok { rsaPubkeyTemplate with
      keyBits := keyBits
      unique := n.bytes
      exponent := e.bytes ++ rsaPubkeyTemplate.exponent.drop e.bytes.length }

/-- `tpm_rsa_key_to_tss2`. -/
def tpmRsaKeyToTss2 (key : TpmRsaKey) : Except RsaError Tpm2bPublic :=
  rsaPubkeyAlloc key.n key.e

/-! ## Both byte orders -/

theorem beValue_append_singleton (bytes : List UInt8) (b : UInt8) :
    beValue (bytes ++ [b]) = 256 * beValue bytes + b.toNat := by
  simp [beValue, List.foldl_append]

/-- Big-endian is little-endian read backwards. -/
theorem beValue_eq_leValue_reverse (bytes : List UInt8) : beValue bytes = leValue bytes.reverse := by
  induction bytes using List.reverseRecOn with
  | nil => rfl
  | append_singleton bytes b ih =>
    rw [beValue_append_singleton, List.reverse_append, List.reverse_singleton, ih,
      List.singleton_append, leValue]
    omega

/-- Little-endian strings of one length are equal when their values are. -/
theorem leValue_injective : ∀ {l₁ l₂ : List UInt8}, l₁.length = l₂.length →
    leValue l₁ = leValue l₂ → l₁ = l₂
  | [], [], _, _ => rfl
  | b₁ :: l₁, b₂ :: l₂, hlen, h => by
    have h₁ : b₁.toNat < 256 := b₁.toBitVec.isLt
    have h₂ : b₂.toNat < 256 := b₂.toBitVec.isLt
    simp only [leValue] at h
    have hb : b₁.toNat = b₂.toNat := by omega
    rw [UInt8.toNat.inj hb]
    congr 1
    exact leValue_injective (by simpa using hlen) (by omega)

/-- A byte string read little-endian and big-endian gives one value exactly when it is a
palindrome. -/
theorem leValue_eq_beValue_iff (bytes : List UInt8) :
    leValue bytes = beValue bytes ↔ bytes.reverse = bytes := by
  rw [beValue_eq_leValue_reverse]
  exact ⟨fun h => (leValue_injective (List.length_reverse _).symm h).symm,
    fun h => by rw [h]⟩

theorem leValue_zeros : ∀ {zeros : List UInt8}, (∀ z ∈ zeros, z = 0) → leValue zeros = 0
  | [], _ => rfl
  | z :: zeros, h => by
    simp only [List.mem_cons, forall_eq_or_imp] at h
    simp [leValue, h.1, leValue_zeros h.2]

/-- Zero bytes at the end add nothing to a little-endian value. -/
theorem leValue_append_zeros : ∀ (bytes : List UInt8) {zeros : List UInt8},
    (∀ z ∈ zeros, z = 0) → leValue (bytes ++ zeros) = leValue bytes
  | [], _, h => leValue_zeros h
  | b :: bytes, _, h => by simp [leValue, leValue_append_zeros bytes h]

/-! ## The exponent the TPM is given -/

/-- Every key with a modulus of 1024, 2048, 3072 or 4096 bits and an exponent of at most four
bytes is refused when the exponent is zero, as `BN_bn2bin` copies nothing, and converts
otherwise: the modulus goes into `unique.rsa`, and the exponent field, read as a little-endian
`UINT32`, holds the little-endian value of the exponent's big-endian bytes, which is the exponent
exactly when those bytes are a palindrome. -/
theorem tpmRsaKeyToTss2_exponent (key : TpmRsaKey)
    (hn : key.n.bytes.length ∈ [128, 256, 384, 512]) (he : key.e.bytes.length ≤ 4) :
    (key.e.bytes = [] → tpmRsaKeyToTss2 key = .error .bnBn2binFailed) ∧
    (key.e.bytes ≠ [] → ∃ pub, tpmRsaKeyToTss2 key = .ok pub ∧ pub.unique = key.n.bytes ∧
      pub.keyBits = 8 * key.n.bytes.length ∧ leValue pub.exponent = leValue key.e.bytes ∧
      (leValue key.e.bytes = key.e.value ↔ key.e.bytes.reverse = key.e.bytes)) := by
  simp only [List.mem_cons, List.mem_singleton, List.not_mem_nil, or_false] at hn
  have hbits : ¬(key.n.bytes.length * 8 ≠ 1024 ∧ key.n.bytes.length * 8 ≠ 2048 ∧
      key.n.bytes.length * 8 ≠ 3072 ∧ key.n.bytes.length * 8 ≠ 4096) := by omega
  have hn₀ : key.n.bytes ≠ [] := fun h => by simp [h] at hn
  simp only [tpmRsaKeyToTss2, rsaPubkeyAlloc, if_neg hbits, if_neg (not_lt.mpr he), if_neg hn₀,
    List.length_eq_zero]
  refine ⟨fun he₀ => if_pos he₀, fun he₀ => ?_⟩
  rw [if_neg he₀]
  refine ⟨_, rfl, rfl, Nat.mul_comm _ _, leValue_append_zeros _ fun z hz => ?_,
    leValue_eq_beValue_iff _⟩
  rw [show rsaPubkeyTemplate.exponent = List.replicate 4 0 from rfl, List.drop_replicate] at hz
  exact List.eq_of_mem_replicate hz

/-- A 2048-bit key whose exponent is 65539, the bytes `01 00 03`. -/
def rsaKeyExponent65539 : TpmRsaKey :=
  ⟨⟨List.replicate 256 0xFF, by decide⟩, ⟨[0x01, 0x00, 0x03], by decide⟩⟩

theorem rsaKeyExponent65539_n_length : rsaKeyExponent65539.n.bytes.length ∈ [128, 256, 384, 512] := by
  rw [show rsaKeyExponent65539.n.bytes = List.replicate 256 0xFF from rfl, List.length_replicate]
  decide

/-- The key with exponent 65539 converts, and the TPM is given the exponent 196609: the bytes
`01 00 03` read as a little-endian word. -/
theorem tpmRsaKeyToTss2_exponent_65539 :
    rsaKeyExponent65539.n.bytes.length ∈ [128, 256, 384, 512] ∧
    rsaKeyExponent65539.e.bytes.length ≤ 4 ∧
    rsaKeyExponent65539.e.value = 65539 ∧ leValue rsaKeyExponent65539.e.bytes = 196609 ∧
    rsaKeyExponent65539.e.bytes ≠ [] ∧ ∃ pub, tpmRsaKeyToTss2 rsaKeyExponent65539 = .ok pub ∧
      pub.unique = rsaKeyExponent65539.n.bytes ∧
      pub.keyBits = 8 * rsaKeyExponent65539.n.bytes.length ∧
      leValue pub.exponent = leValue rsaKeyExponent65539.e.bytes ∧
      (leValue rsaKeyExponent65539.e.bytes = rsaKeyExponent65539.e.value ↔
        rsaKeyExponent65539.e.bytes.reverse = rsaKeyExponent65539.e.bytes) :=
  ⟨rsaKeyExponent65539_n_length, by decide, by decide, by decide, by decide,
    (tpmRsaKeyToTss2_exponent rsaKeyExponent65539 rsaKeyExponent65539_n_length (by decide)).2
      (by decide)⟩

end PcrOracle
