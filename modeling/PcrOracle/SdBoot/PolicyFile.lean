import PcrOracle.Policy.Sign
import PcrOracle.SdBoot.Vercmp

/-!
# The systemd signed-policy file

`sdb_policy_file_add_entry` of `sd-boot.c` adds a signed PCR policy to the JSON file that
`systemd-stub` reads: a top-level object whose keys are bank algorithms, each an array of
entries `{"pol": <hex>, "pcrs": [...], "pfkp": <hex>, "sig": <base64>}`. An entry is looked up by
its `pol`, compared with `strcasecmp`, and created if there is none
(`sdb_policy_find_or_create_entry`); its PCRs are written by `sdb_policy_entry_set_pcr_mask`
and read back by `sdb_policy_entry_get_pcr_mask`.

The JSON values are json-c's `json_object`s as far as these functions look at them. Objects keep
their members in the order they were added, and `json_object_object_add` replaces the value of a
key that is there.

## Main results

* `sdbPolicyEntrySetPcrMaskLoop_eq`: the encoder lists index `i + 1` for every set bit `i`.
* `sdbPolicyEntryGetPcrMask_set`: reading back what was written gives the mask shifted left by
  one, and fails when bit 31 is set.
* `sdbPolicyFileAddEntry_upsert`: the algorithm's array ends up with exactly one entry for the
  policy, the other entries and algorithms are kept, and a second call changes nothing.
-/

namespace PcrOracle

/-! ## JSON values -/

/-- A json-c `json_object`. A `double` keeps the text it was parsed from, which json-c prints it
as. -/
inductive Json where
  | null
  | boolean (b : Bool)
  | int (i : Int)
  | double (text : List UInt8)
  | string (s : List UInt8)
  | array (items : List Json)
  | object (members : List (String × Json))
  deriving Repr

/-- `json_object_object_add` on the members of an object: the value of `key` replaced where it
stands, or a member added at the end. -/
def membersAdd : List (String × Json) → String → Json → List (String × Json)
  | [], key, value => [(key, value)]
  | m :: ms, key, value => if m.1 = key then (key, value) :: ms else m :: membersAdd ms key value

namespace Json

/-- `json_object_object_get`: `none` for `NULL`, that is for a key that is not there, for a key
whose value is `null`, and for a value that is not an object. -/
def objectGet : Json → String → Option Json
  | .object members, key =>
    match members.lookup key with
    | some .null => none
    | value => value
  | _, _ => none

/-- `json_object_object_add`, on an object. -/
def objectAdd : Json → String → Json → Json
  | .object members, key, value => .object (membersAdd members key value)
  | j, _, _ => j

/-- `json_object_is_type(j, json_type_object)`. -/
def isObject : Json → Bool
  | .object _ => true
  | _ => false

end Json

/-- `json_object_get_string`: the text of a string, and for other values the text json-c prints
them as. An array or an object is printed starting with `[` or `{`; the model keeps that first
byte, where a comparison with a hex string already differs. -/
def jsonObjectGetString : Json → Option (List UInt8)
  | .null => none
  | .boolean b => some (cString (if b then "true" else "false"))
  | .int i => some (cString (toString i))
  | .double text => some text
  | .string s => some s
  | .array _ => some (cString "[")
  | .object _ => some (cString "\x7b")

/-! ## Hex and base64 -/

/-- A hex digit, lower case. -/
def hexDigit (n : Nat) : UInt8 := UInt8.ofNat (if n < 10 then 48 + n else 87 + n)

/-- Modelled from the spec: `print_hex_string` (`util.c`, not among the sources), two lower-case
hex digits per byte. -/
def printHexString (data : List UInt8) : List UInt8 :=
  data.flatMap fun b => [hexDigit (b.toNat / 16), hexDigit (b.toNat % 16)]

/-- The base64 alphabet. -/
def base64Char (n : Nat) : UInt8 :=
  (cString "ABCDEFGHIJKLMNOPQRSTUVWXYZabcdefghijklmnopqrstuvwxyz0123456789+/").getD n 0

/-- Modelled from the spec: `print_base64_value` (`util.c`, not among the sources), base64 with
`=` padding. -/
def printBase64Value : List UInt8 → List UInt8
  | a :: b :: c :: rest =>
    let v := a.toNat * 65536 + b.toNat * 256 + c.toNat
    [base64Char (v / 262144), base64Char (v / 4096 % 64), base64Char (v / 64 % 64),
      base64Char (v % 64)] ++ printBase64Value rest
  | [a, b] =>
    let v := a.toNat * 65536 + b.toNat * 256
    [base64Char (v / 262144), base64Char (v / 4096 % 64), base64Char (v / 64 % 64), 61]
  | [a] =>
    let v := a.toNat * 65536
    [base64Char (v / 262144), base64Char (v / 4096 % 64), 61, 61]
  | [] => []

/-! ## The `pcrs` array -/

/-- The `for` loop of `sdb_policy_entry_set_pcr_mask`, from `pcr_index = 1`: while the mask has
bits, add the index for a set low bit, then shift the mask and count the index up. An
`unsigned int` is zero after 32 shifts, so 32 passes run it to its end. -/
def sdbPolicyEntrySetPcrMaskLoop : Nat → Nat → Nat → List Json
  | 0, _, _ => []
  | fuel + 1, pcrIndex, pcrMask =>
    if pcrMask = 0 then []
    else
      (if pcrMask % 2 = 1 then [Json.int pcrIndex] else []) ++
        sdbPolicyEntrySetPcrMaskLoop fuel (pcrIndex + 1) (pcrMask / 2)

/-- `sdb_policy_entry_set_pcr_mask`: a new `pcrs` array in the entry. -/
def sdbPolicyEntrySetPcrMask (entry : Json) (pcrMask : UInt32) : Json :=
  entry.objectAdd "pcrs" (.array (sdbPolicyEntrySetPcrMaskLoop 32 1 pcrMask.toNat))

/-- The `for` loop of `sdb_policy_entry_get_pcr_mask` over the items of `pcrs`: `false` at an
item that is not an integer in `[0, 31]`, with the bits set so far. `json_object_get_int`
saturates at the `int32_t` bounds, which keeps every value out of `[0, 31]` where it was. -/
def sdbPolicyEntryGetPcrMaskLoop : List Json → Nat → Bool × Nat
  | [], mask => (true, mask)
  | .int i :: items, mask =>
    if i < 0 ∨ 32 ≤ i then (false, mask)
    else sdbPolicyEntryGetPcrMaskLoop items (mask ||| 1 <<< i.toNat)
  | _ :: _, mask => (false, mask)

/-- `sdb_policy_entry_get_pcr_mask`: whether it returns `true`, and `*mask_ret`. -/
def sdbPolicyEntryGetPcrMask (entry : Json) : Bool × Nat :=
  match entry.objectGet "pcrs" with
  | some (.array items) => sdbPolicyEntryGetPcrMaskLoop items 0
  | _ => (false, 0)

/-! ## Finding or creating the entry of a policy -/

/-- `tolower` of the C locale. -/
def asciiToLower (c : UInt8) : UInt8 := if 65 ≤ c ∧ c ≤ 90 then c + 32 else c

/-- Whether `strcasecmp` returns `0`. -/
def strcaseEq (a b : List UInt8) : Bool := a.map asciiToLower == b.map asciiToLower

/-- Whether an item of a bank's array is the entry of a policy: it has a `pol` whose
`json_object_get_string` equals the formatted policy up to case. Items with no `pol` are
skipped. -/
def polMatches (formattedPolicy : List UInt8) (entry : Json) : Bool :=
  match entry.objectGet "pol" >>= jsonObjectGetString with
  | some entryPolicy => strcaseEq entryPolicy formattedPolicy
  | none => false

/-- The `for` loop of `sdb_policy_find_or_create_entry`: the index of the first entry of the
policy. -/
def sdbPolicyFindEntry (formattedPolicy : List UInt8) : List Json → Option Nat
  | [] => none
  | entry :: entries =>
    if polMatches formattedPolicy entry then some 0
    else (sdbPolicyFindEntry formattedPolicy entries).map (· + 1)

/-- `sdb_policy_find_or_create_entry`: the array, with a new entry `{"pol": <hex>}` added at its
end if none has the policy, and the index of the entry. -/
def sdbPolicyFindOrCreateEntry (bankObj : List Json) (policy : List UInt8) : List Json × Nat :=
  let formattedPolicy := printHexString policy
  match sdbPolicyFindEntry formattedPolicy bankObj with
  | some i => (bankObj, i)
  | none =>
    (bankObj ++ [(Json.object []).objectAdd "pol" (.string formattedPolicy)], bankObj.length)

/-- The members `sdb_policy_file_add_entry` sets in the entry: `pcrs`, then `pfkp`, the hex of
the key fingerprint, then `sig`, the base64 of the signature. -/
def sdbPolicyEntrySetMembers (entry : Json) (pcrMask : UInt32)
    (fingerprint signature : List UInt8) : Json :=
  ((sdbPolicyEntrySetPcrMask entry pcrMask).objectAdd "pfkp"
    (.string (printHexString fingerprint))).objectAdd "sig" (.string (printBase64Value signature))

/-- What `sdb_policy_file_add_entry` finds at `filename`. -/
inductive PolicyFile
  /-- `access(filename, R_OK)` fails with `ENOENT`: a new document. -/
  | missing
  /-- `access` fails otherwise: `Cannot update %s: %m`. -/
  | unreadable
  /-- A readable file, and the document `json_object_from_file` parses from it, `none` if it
  does not parse (`unable to read json file`). -/
  | contents (doc : Option Json)

/-- `sdb_policy_file_add_entry`: the document written back to the file, `none` when it returns
`false` before writing: an unreadable file, one that does not parse or is not an object (`not a
valid json file`), or a member of the algorithm that is not an array (`unexpected type`). -/
def sdbPolicyFileAddEntry (file : PolicyFile) (algoName : String) (pcrMask : UInt32)
    (fingerprint policy signature : List UInt8) : Option Json := do
  let doc ← match file with
    | .missing => some (.object [])
    | .unreadable => none
    | .contents none => none
    | .contents (some doc) => if doc.isObject then some doc else none
  let (doc, bankObj) ← match doc.objectGet algoName with
    | none => some (doc.objectAdd algoName (.array []), [])
    | some (.array items) => some (doc, items)
    | some _ => none
  let (bankObj, i) := sdbPolicyFindOrCreateEntry bankObj policy
  let entry := sdbPolicyEntrySetMembers (bankObj.getD i .null) pcrMask fingerprint signature
  some (doc.objectAdd algoName (.array (bankObj.set i entry)))

/-! ## Members of an object -/

section Members

variable {ms : List (String × Json)} {key key' : String} {value : Json}

theorem lookup_cons_of_ne {k : String} {v : Json} (h : key ≠ k) :
    ((k, v) :: ms).lookup key = ms.lookup key := by
  rw [List.lookup_cons, beq_false_of_ne h]

@[simp]
theorem lookup_membersAdd_self : ∀ {ms : List (String × Json)},
    (membersAdd ms key value).lookup key = some value
  | [] => List.lookup_cons_self
  | (k, v) :: ms => by
    by_cases h : k = key
    · simp [membersAdd, h]
    · rw [membersAdd, if_neg h, lookup_cons_of_ne (Ne.symm h), lookup_membersAdd_self]

theorem lookup_membersAdd_ne (hk : key' ≠ key) :
    ∀ {ms : List (String × Json)}, (membersAdd ms key value).lookup key' = ms.lookup key'
  | [] => by rw [membersAdd, lookup_cons_of_ne hk]
  | (k, v) :: ms => by
    by_cases h : k = key
    · subst h
      rw [membersAdd, if_pos rfl, lookup_cons_of_ne hk, lookup_cons_of_ne hk]
    · rw [membersAdd, if_neg h]
      by_cases h' : key' = k
      · subst h'
        simp
      · rw [lookup_cons_of_ne h', lookup_cons_of_ne h', lookup_membersAdd_ne hk]

/-- Adding a key with the value it already has changes nothing. -/
theorem membersAdd_of_lookup : ∀ {ms : List (String × Json)},
    ms.lookup key = some value → membersAdd ms key value = ms
  | [], h => by simp at h
  | (k, v) :: ms, h => by
    by_cases hk : k = key
    · subst hk
      rw [List.lookup_cons_self, Option.some.injEq] at h
      simp [membersAdd, h]
    · rw [lookup_cons_of_ne (Ne.symm hk)] at h
      rw [membersAdd, if_neg hk, membersAdd_of_lookup h]

end Members

theorem Json.objectGet_objectAdd_self (members : List (String × Json)) (key : String) {value : Json}
    (hv : value ≠ .null) : ((Json.object members).objectAdd key value).objectGet key = some value := by
  simp only [Json.objectAdd, Json.objectGet, lookup_membersAdd_self]
  split <;> simp_all

theorem Json.objectGet_objectAdd_ne {j : Json} {key key' : String} (value : Json) (hk : key' ≠ key) :
    (j.objectAdd key value).objectGet key' = j.objectGet key' := by
  cases j <;> simp [Json.objectAdd, Json.objectGet, lookup_membersAdd_ne hk]

/-! ## Writing and reading back the PCRs -/

/-- The encoder lists `i + pcrIndex` for every set bit `i`, in increasing order. -/
theorem sdbPolicyEntrySetPcrMaskLoop_eq : ∀ (fuel pcrIndex pcrMask : Nat), pcrMask < 2 ^ fuel →
    sdbPolicyEntrySetPcrMaskLoop fuel pcrIndex pcrMask =
      ((List.range fuel).filter pcrMask.testBit).map fun i => Json.int ((i + pcrIndex : Nat) : Int)
  | 0, _, _, _ => rfl
  | fuel + 1, pcrIndex, pcrMask, h => by
    have ih := sdbPolicyEntrySetPcrMaskLoop_eq fuel (pcrIndex + 1) (pcrMask / 2)
      (by rw [Nat.pow_succ] at h; omega)
    by_cases h0 : pcrMask = 0
    · subst h0
      simp [sdbPolicyEntrySetPcrMaskLoop]
    · have hbits : (pcrMask.testBit ∘ Nat.succ) = (pcrMask / 2).testBit :=
        funext fun i => Nat.testBit_succ pcrMask i
      have hidx : ((fun i => Json.int ((i + pcrIndex : Nat) : Int)) ∘ Nat.succ) =
          fun i => Json.int ((i + (pcrIndex + 1) : Nat) : Int) :=
        funext fun i => by
          simp only [Function.comp, Nat.succ_eq_add_one]
          congr 2
          omega
      rw [sdbPolicyEntrySetPcrMaskLoop, if_neg h0, ih, List.range_succ_eq_map, List.filter_cons,
        Nat.testBit_zero, List.filter_map, hbits]
      by_cases hb : pcrMask % 2 = 1
      · simp only [hb, decide_True, if_true, List.map_cons, List.map_map, hidx, Nat.zero_add,
          List.singleton_append]
      · simp only [hb, decide_False, if_false, Bool.false_eq_true, List.map_map, hidx,
          List.nil_append]

/-- `sdb_policy_entry_set_pcr_mask` lists the index of bit `i` as `i + 1`: the systemd JSON of
`pcr_policy_sign_systemd`, `print_pcr_mask`, lists it as `i`. -/
theorem sdbPolicyEntrySetPcrMask_pcrs (members : List (String × Json)) (pcrMask : UInt32) :
    (sdbPolicyEntrySetPcrMask (.object members) pcrMask).objectGet "pcrs" =
      some (.array ((printPcrMask pcrMask.toNat).map fun i => Json.int ((i + 1 : Nat) : Int))) := by
  rw [sdbPolicyEntrySetPcrMask, Json.objectGet_objectAdd_self _ _ Json.noConfusion,
    sdbPolicyEntrySetPcrMaskLoop_eq 32 1 _ (show pcrMask.toNat < 2 ^ 32 from pcrMask.toBitVec.isLt),
    printPcrMask]

theorem sdbPolicyEntryGetPcrMaskLoop_shifted : ∀ (is : List Nat), (∀ i ∈ is, i + 1 < 32) →
    ∀ (rest : List Json) (mask : Nat),
      sdbPolicyEntryGetPcrMaskLoop ((is.map fun i => Json.int ((i + 1 : Nat) : Int)) ++ rest) mask =
        sdbPolicyEntryGetPcrMaskLoop rest ((is.map (· + 1)).foldl (fun m i => m ||| 2 ^ i) mask)
  | [], _, _, _ => rfl
  | i :: is, h, rest, mask => by
    have hi := h i (List.mem_cons_self _ _)
    rw [List.map_cons, List.cons_append, sdbPolicyEntryGetPcrMaskLoop,
      if_neg (by omega), Int.toNat_ofNat, Nat.one_shiftLeft,
      sdbPolicyEntryGetPcrMaskLoop_shifted is (fun j hj => h j (List.mem_cons_of_mem _ hj))]
    rfl

/-- What `sdb_policy_entry_get_pcr_mask` reads back from `sdb_policy_entry_set_pcr_mask`: the
mask shifted left by one in `unsigned int`, and `false` exactly when bit 31 is set, whose index
32 is out of range. -/
theorem sdbPolicyEntryGetPcrMask_set (members : List (String × Json)) (pcrMask : UInt32) :
    sdbPolicyEntryGetPcrMask (sdbPolicyEntrySetPcrMask (.object members) pcrMask) =
      (!pcrMask.toNat.testBit 31, (pcrMask.toNat <<< 1) % 2 ^ 32) := by
  set m := pcrMask.toNat
  have hsplit : printPcrMask m = (List.range 31).filter m.testBit ++
      (if m.testBit 31 then [31] else []) := by
    rw [printPcrMask, List.range_succ, List.filter_append]
    split_ifs <;> simp_all
  have hlow : ∀ i ∈ (List.range 31).filter m.testBit, i + 1 < 32 := fun i hi => by
    simp only [List.mem_filter, List.mem_range] at hi
    omega
  rw [sdbPolicyEntryGetPcrMask, sdbPolicyEntrySetPcrMask_pcrs, hsplit, List.map_append]
  simp only
  rw [sdbPolicyEntryGetPcrMaskLoop_shifted _ hlow]
  have hmask : (((List.range 31).filter m.testBit).map (· + 1)).foldl (fun m i => m ||| 2 ^ i) 0 =
      (m <<< 1) % 2 ^ 32 := by
    apply Nat.eq_of_testBit_eq
    intro j
    rw [testBit_foldl_or_two_pow, Nat.testBit_mod_two_pow, Nat.testBit_shiftLeft]
    rcases j with _ | j
    · simp
    · simp only [Nat.zero_testBit, Bool.false_or, List.mem_map, List.mem_filter, List.mem_range]
      by_cases hj : j < 31 <;> simp [hj] <;> omega
  split_ifs with h31 <;> simp [sdbPolicyEntryGetPcrMaskLoop, hmask, h31]

/-! ## Finding the entry -/

section Find

variable {formattedPolicy : List UInt8}

theorem sdbPolicyFindEntry_eq_none : ∀ {l : List Json},
    sdbPolicyFindEntry formattedPolicy l = none ↔ ∀ x ∈ l, polMatches formattedPolicy x = false
  | [] => by simp [sdbPolicyFindEntry]
  | x :: l => by
    by_cases hx : polMatches formattedPolicy x <;>
      simp [sdbPolicyFindEntry, hx, sdbPolicyFindEntry_eq_none]

theorem sdbPolicyFindEntry_eq_some : ∀ {l : List Json} {i : Nat},
    sdbPolicyFindEntry formattedPolicy l = some i →
      ∃ pre entry post, l = pre ++ entry :: post ∧ pre.length = i ∧
        polMatches formattedPolicy entry ∧ ∀ x ∈ pre, polMatches formattedPolicy x = false
  | [], _, h => by simp [sdbPolicyFindEntry] at h
  | x :: l, i, h => by
    by_cases hx : polMatches formattedPolicy x
    · simp only [sdbPolicyFindEntry, hx, if_true, Option.some.injEq] at h
      exact ⟨[], x, l, rfl, h, hx, by simp⟩
    · simp only [sdbPolicyFindEntry, hx, Bool.false_eq_true, if_false, Option.map_eq_some'] at h
      obtain ⟨j, hj, rfl⟩ := h
      obtain ⟨pre, entry, post, rfl, rfl, he, hpre⟩ := sdbPolicyFindEntry_eq_some hj
      refine ⟨x :: pre, entry, post, rfl, rfl, he, ?_⟩
      simpa [hx] using hpre

theorem sdbPolicyFindEntry_append {pre post : List Json} {entry : Json}
    (hpre : ∀ x ∈ pre, polMatches formattedPolicy x = false)
    (he : polMatches formattedPolicy entry) :
    sdbPolicyFindEntry formattedPolicy (pre ++ entry :: post) = some pre.length := by
  induction pre with
  | nil => simp [sdbPolicyFindEntry, he]
  | cons x pre ih =>
    simp only [List.mem_cons, forall_eq_or_imp] at hpre
    simp [sdbPolicyFindEntry, hpre.1, ih hpre.2]

end Find

theorem Json.isObject_of_polMatches {formattedPolicy : List UInt8} {entry : Json}
    (h : polMatches formattedPolicy entry) : ∃ members, entry = .object members := by
  cases entry <;> simp_all [polMatches, Json.objectGet]

/-- The entry of the policy: the first one there, or a new one at the end of the array, before
which no entry has the policy. -/
theorem sdbPolicyFindOrCreateEntry_eq (bankObj : List Json) (policy : List UInt8) :
    ∃ pre members post,
      sdbPolicyFindOrCreateEntry bankObj policy = (pre ++ .object members :: post, pre.length) ∧
      polMatches (printHexString policy) (.object members) ∧
      (∀ x ∈ pre, polMatches (printHexString policy) x = false) ∧
      (bankObj = pre ++ .object members :: post ∨ bankObj = pre ∧ post = []) := by
  cases hfind : sdbPolicyFindEntry (printHexString policy) bankObj with
  | some i =>
    obtain ⟨pre, entry, post, rfl, rfl, he, hpre⟩ := sdbPolicyFindEntry_eq_some hfind
    obtain ⟨members, rfl⟩ := Json.isObject_of_polMatches he
    exact ⟨pre, members, post, by simp [sdbPolicyFindOrCreateEntry, hfind], he, hpre, .inl rfl⟩
  | none =>
    refine ⟨bankObj, [("pol", .string (printHexString policy))], [],
      by simp [sdbPolicyFindOrCreateEntry, hfind, Json.objectAdd, membersAdd], ?_,
      sdbPolicyFindEntry_eq_none.mp hfind, .inr ⟨rfl, rfl⟩⟩
    simp [polMatches, Json.objectGet, jsonObjectGetString, strcaseEq]

/-! ## The members of the entry -/

theorem objectGet_pol_sdbPolicyEntrySetMembers (entry : Json) (pcrMask : UInt32)
    (fingerprint signature : List UInt8) :
    (sdbPolicyEntrySetMembers entry pcrMask fingerprint signature).objectGet "pol" =
      entry.objectGet "pol" := by
  simp only [sdbPolicyEntrySetMembers, sdbPolicyEntrySetPcrMask]
  rw [Json.objectGet_objectAdd_ne _ (by decide), Json.objectGet_objectAdd_ne _ (by decide),
    Json.objectGet_objectAdd_ne _ (by decide)]

theorem polMatches_sdbPolicyEntrySetMembers (formattedPolicy : List UInt8) (entry : Json)
    (pcrMask : UInt32) (fingerprint signature : List UInt8) :
    polMatches formattedPolicy (sdbPolicyEntrySetMembers entry pcrMask fingerprint signature) =
      polMatches formattedPolicy entry := by
  simp only [polMatches, objectGet_pol_sdbPolicyEntrySetMembers]

/-- The entry carries the PCRs as `sdb_policy_entry_set_pcr_mask` lists them, the fingerprint and
the signature. -/
theorem objectGet_sdbPolicyEntrySetMembers (members : List (String × Json)) (pcrMask : UInt32)
    (fingerprint signature : List UInt8) :
    let entry := sdbPolicyEntrySetMembers (.object members) pcrMask fingerprint signature
    entry.objectGet "pcrs" =
        some (.array ((printPcrMask pcrMask.toNat).map fun i => Json.int ((i + 1 : Nat) : Int))) ∧
      entry.objectGet "pfkp" = some (.string (printHexString fingerprint)) ∧
      entry.objectGet "sig" = some (.string (printBase64Value signature)) := by
  simp only [sdbPolicyEntrySetMembers]
  refine ⟨?_, ?_, ?_⟩
  · rw [Json.objectGet_objectAdd_ne _ (by decide), Json.objectGet_objectAdd_ne _ (by decide),
      sdbPolicyEntrySetPcrMask_pcrs]
  · rw [Json.objectGet_objectAdd_ne _ (by decide)]
    exact Json.objectGet_objectAdd_self _ _ Json.noConfusion
  · exact Json.objectGet_objectAdd_self _ _ Json.noConfusion

/-- Setting the members a second time changes nothing. -/
theorem sdbPolicyEntrySetMembers_idem (members : List (String × Json)) (pcrMask : UInt32)
    (fingerprint signature : List UInt8) :
    sdbPolicyEntrySetMembers (sdbPolicyEntrySetMembers (.object members) pcrMask fingerprint
      signature) pcrMask fingerprint signature =
      sdbPolicyEntrySetMembers (.object members) pcrMask fingerprint signature := by
  simp only [sdbPolicyEntrySetMembers, sdbPolicyEntrySetPcrMask, Json.objectAdd]
  set pcrs := Json.array (sdbPolicyEntrySetPcrMaskLoop 32 1 pcrMask.toNat)
  set pfkp := Json.string (printHexString fingerprint)
  set sig := Json.string (printBase64Value signature)
  set filled := membersAdd (membersAdd (membersAdd members "pcrs" pcrs) "pfkp" pfkp) "sig" sig
  have hpcrs : filled.lookup "pcrs" = some pcrs := by
    rw [lookup_membersAdd_ne (by decide), lookup_membersAdd_ne (by decide), lookup_membersAdd_self]
  have hpfkp : filled.lookup "pfkp" = some pfkp := by
    rw [lookup_membersAdd_ne (by decide), lookup_membersAdd_self]
  have hsig : filled.lookup "sig" = some sig := lookup_membersAdd_self
  rw [membersAdd_of_lookup hpcrs, membersAdd_of_lookup hpfkp, membersAdd_of_lookup hsig]

/-! ## Adding an entry to the file -/

theorem getElem_length_append (pre post : List Json) (entry : Json)
    (h : pre.length < (pre ++ entry :: post).length) : (pre ++ entry :: post)[pre.length] = entry := by
  simp [List.getElem_append_right]

theorem set_length_append (pre post : List Json) (entry x : Json) :
    (pre ++ entry :: post).set pre.length x = pre ++ x :: post := by
  simp [List.set_append_right]

/-- `sdb_policy_file_add_entry` on a document whose algorithm has an array in which the lookup
finds, or adds, an entry: the entry's members are set where it stands. -/
theorem sdbPolicyFileAddEntry_of_find {members : List (String × Json)} {algoName : String}
    {items pre post : List Json} {entry : Json} {pcrMask : UInt32}
    {fingerprint policy signature : List UInt8}
    (h : (Json.object members).objectGet algoName = some (.array items))
    (hfind : sdbPolicyFindOrCreateEntry items policy = (pre ++ entry :: post, pre.length)) :
    sdbPolicyFileAddEntry (.contents (some (.object members))) algoName pcrMask fingerprint
        policy signature =
      some ((Json.object members).objectAdd algoName
        (.array (pre ++ sdbPolicyEntrySetMembers entry pcrMask fingerprint signature :: post))) := by
  simp [sdbPolicyFileAddEntry, Json.isObject, h, hfind, getElem_length_append, set_length_append]

/-- For a document whose array for the algorithm has at most one entry of the policy (or that
has no array for it): the array ends up with exactly one entry of the policy, carrying the PCRs
as `sdb_policy_entry_set_pcr_mask` lists them (bit `i` as `i + 1`), the fingerprint and the
signature; the other entries, in their order, and the other algorithms are kept; and the same
call on the document written gives that document back. -/
theorem sdbPolicyFileAddEntry_upsert (members : List (String × Json)) (algoName : String)
    (pcrMask : UInt32) (fingerprint policy signature : List UInt8) (items : List Json)
    (hbank : (Json.object members).objectGet algoName = some (.array items) ∨
      (Json.object members).objectGet algoName = none ∧ items = [])
    (hunique : (items.filter (polMatches (printHexString policy))).length ≤ 1) :
    ∃ doc items',
      sdbPolicyFileAddEntry (.contents (some (.object members))) algoName pcrMask fingerprint
          policy signature = some doc ∧
      doc.objectGet algoName = some (.array items') ∧
      (∃ entry, items'.filter (polMatches (printHexString policy)) = [entry] ∧
        entry.objectGet "pcrs" = some (.array ((printPcrMask pcrMask.toNat).map
          fun i => Json.int ((i + 1 : Nat) : Int))) ∧
        entry.objectGet "pfkp" = some (.string (printHexString fingerprint)) ∧
        entry.objectGet "sig" = some (.string (printBase64Value signature))) ∧
      items'.filter (fun x => !polMatches (printHexString policy) x) =
        items.filter (fun x => !polMatches (printHexString policy) x) ∧
      (∀ key, key ≠ algoName → doc.objectGet key = (Json.object members).objectGet key) ∧
      sdbPolicyFileAddEntry (.contents (some doc)) algoName pcrMask fingerprint policy signature =
        some doc := by
  obtain ⟨pre, ms, post, hfind, hpm, hpre, hcases⟩ := sdbPolicyFindOrCreateEntry_eq items policy
  set entry := sdbPolicyEntrySetMembers (.object ms) pcrMask fingerprint signature
  have hentry : polMatches (printHexString policy) entry := by
    rwa [polMatches_sdbPolicyEntrySetMembers]
  -- the document the array is written into
  obtain ⟨doc, hdoc, hrun⟩ : ∃ doc : List (String × Json),
      (∀ key, key ≠ algoName → (Json.object doc).objectGet key = (Json.object members).objectGet key) ∧
      sdbPolicyFileAddEntry (.contents (some (.object members))) algoName pcrMask fingerprint
          policy signature = some ((Json.object doc).objectAdd algoName (.array (pre ++ entry :: post))) := by
    rcases hbank with h | ⟨h, rfl⟩
    · exact ⟨members, fun _ _ => rfl, sdbPolicyFileAddEntry_of_find h hfind⟩
    · refine ⟨membersAdd members algoName (.array []), fun key hk =>
      @Json.objectGet_objectAdd_ne (.object members) algoName key (.array []) hk, ?_⟩
      simp [sdbPolicyFileAddEntry, Json.isObject, h, hfind, getElem_length_append, set_length_append]
      rfl
  have hpreNil : pre.filter (polMatches (printHexString policy)) = [] :=
    List.filter_eq_nil_iff.mpr fun x hx => by simp [hpre x hx]
  -- no entry after it has the policy
  have hpost : post.filter (polMatches (printHexString policy)) = [] := by
    rcases hcases with rfl | ⟨rfl, rfl⟩
    · simp only [List.filter_append, List.filter_cons, hpm, if_true, List.length_append,
        List.length_cons, hpreNil, List.length_nil] at hunique
      exact List.eq_nil_of_length_eq_zero (by omega)
    · rfl
  refine ⟨_, pre ++ entry :: post, hrun, Json.objectGet_objectAdd_self _ _ Json.noConfusion,
    ⟨entry, by simp [List.filter_append, hpreNil, hentry, hpost],
      objectGet_sdbPolicyEntrySetMembers ms pcrMask fingerprint signature⟩, ?_,
    fun key hk => (Json.objectGet_objectAdd_ne _ hk).trans (hdoc key hk), ?_⟩
  · rcases hcases with rfl | ⟨rfl, rfl⟩ <;> simp [List.filter_append, hpm, hentry]
  · -- the second call finds the entry where the first left it, and sets the same members
    have hfind' : sdbPolicyFindOrCreateEntry (pre ++ entry :: post) policy =
        (pre ++ entry :: post, pre.length) := by
      simp [sdbPolicyFindOrCreateEntry, sdbPolicyFindEntry_append hpre hentry]
    have hidem : sdbPolicyEntrySetMembers entry pcrMask fingerprint signature = entry :=
      sdbPolicyEntrySetMembers_idem ms pcrMask fingerprint signature
    have hget := Json.objectGet_objectAdd_self doc algoName
      (Json.noConfusion : Json.array (pre ++ entry :: post) ≠ .null)
    simp only [Json.objectAdd] at hget ⊢
    rw [sdbPolicyFileAddEntry_of_find hget hfind', hidem]
    simp only [Json.objectAdd, membersAdd_of_lookup lookup_membersAdd_self]

/-- A file whose `sha256` array already holds an entry of the policy, after an entry of another
policy: the entry is rewritten in place, and the other one is kept. -/
theorem sdbPolicyFileAddEntry_upsert_existing :
    let items : List Json := [.object [("pol", .string (printHexString [0xff]))],
      .object [("pol", .string (printHexString [0x01, 0xcd])), ("pcrs", .array [.int 3])]]
    ((Json.object [("sha256", .array items)]).objectGet "sha256" = some (.array items) ∨
      (Json.object [("sha256", .array items)]).objectGet "sha256" = none ∧ items = []) ∧
    (items.filter (polMatches (printHexString [0x01, 0xcd]))).length ≤ 1 ∧
    ∃ doc items',
      sdbPolicyFileAddEntry (.contents (some (.object [("sha256", .array items)]))) "sha256" 1
          [0xab] [0x01, 0xcd] [1, 2, 3] = some doc ∧
      doc.objectGet "sha256" = some (.array items') ∧
      (∃ entry, items'.filter (polMatches (printHexString [0x01, 0xcd])) = [entry] ∧
        entry.objectGet "pcrs" = some (.array ((printPcrMask (1 : UInt32).toNat).map
          fun i => Json.int ((i + 1 : Nat) : Int))) ∧
        entry.objectGet "pfkp" = some (.string (printHexString [0xab])) ∧
        entry.objectGet "sig" = some (.string (printBase64Value [1, 2, 3]))) ∧
      items'.filter (fun x => !polMatches (printHexString [0x01, 0xcd]) x) =
        items.filter (fun x => !polMatches (printHexString [0x01, 0xcd]) x) ∧
      (∀ key, key ≠ "sha256" →
        doc.objectGet key = (Json.object [("sha256", .array items)]).objectGet key) ∧
      sdbPolicyFileAddEntry (.contents (some doc)) "sha256" 1 [0xab] [0x01, 0xcd] [1, 2, 3] =
        some doc :=
  ⟨.inl rfl, by decide,
    sdbPolicyFileAddEntry_upsert _ "sha256" 1 [0xab] [0x01, 0xcd] [1, 2, 3] _ (.inl rfl)
      (by decide)⟩

end PcrOracle
