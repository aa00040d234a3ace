import Mathlib.Algebra.Group.Int
import Mathlib.Data.List.Infix

/-!
# Byte streams and little-endian reads

The primitives under the event-log reader of `eventlog.c` (`__read_exactly`, `__read_u32le`,
`__read_u16le`, `__read_u32le_or_eof`) and under the `buffer_get_*` reads of `bufparser.h` that
the Spec ID header parser uses. A stream is the list of bytes not yet read together with the
offset of the next one, which is what `lseek(fd, 0, SEEK_CUR)` returns. Every `fatal()` of the
reader is an error of `ReadError`.

Each read is a `Parser`, a state monad over the stream that can fail, and comes with one
`Decodes` lemma: on a stream that starts with the bytes `xs`, the read returns its value and
leaves the rest, and on every proper prefix of `xs` it fails with a short read. `Decodes`
composes through `bind` (`Decodes.bind`), so a record reader inherits it from its fields.

## Main results

* `leValue_leBytes`: the little-endian bytes of a value that fits read back as that value;
* `decodes_readExactly`, `decodes_readU16le`, `decodes_readU32le`: the primitive reads;
* `Decodes.bind`: reading two fields in sequence decodes their concatenation.
-/

namespace PcrOracle

/-- The little-endian value of a byte string (`le32toh`, `le16toh` of the bytes read). -/
def leValue : List UInt8 → Nat
  | [] => 0
  | b :: bs => b.toNat + 256 * leValue bs

/-- The `n` little-endian bytes of `v`, reduced modulo `256 ^ n`. -/
def leBytes : Nat → Nat → List UInt8
  | 0, _ => []
  | n + 1, v => UInt8.ofNat v :: leBytes n (v / 256)

@[simp]
theorem length_leBytes (n v : Nat) : (leBytes n v).length = n := by
  induction n generalizing v with
  | zero => rfl
  | succ n ih => simp [leBytes, ih]

@[simp]
theorem leBytes_eq_nil_iff {n v : Nat} : leBytes n v = [] ↔ n = 0 := by
  cases n <;> simp [leBytes]

/-- Little-endian bytes read back as the value they encode, when it fits in them. -/
theorem leValue_leBytes {n v : Nat} (h : v < 256 ^ n) : leValue (leBytes n v) = v := by
  induction n generalizing v with
  | zero => simp_all [leValue, leBytes]
  | succ n ih =>
    have hv : v / 256 < 256 ^ n := Nat.div_lt_of_lt_mul (by rwa [Nat.pow_succ'] at h)
    show (UInt8.ofNat v).toNat + 256 * leValue (leBytes n (v / 256)) = v
    rw [ih hv, show (UInt8.ofNat v).toNat = v % 256 from rfl]
    omega

/-- The reasons for which the reader calls `fatal()`, each with the text it prints. -/
inductive ReadError
  /-- `__read_exactly` got fewer bytes than it asked for. -/
  | shortRead
  /-- `event_log_read_digest` met an algorithm it has no size for. -/
  | unknownAlgorithm (algoId : Nat)
  /-- `event_log_resize_pcrs` was asked for more than 32 digests. -/
  | badPcrCount (count : Nat)
  /-- `event_log_read_next` met a body of more than 1 MiB. -/
  | oversizedEvent (size : Nat)
  /-- `__tpm_event_parse_tcg2_info` ran out of header bytes. -/
  | badTcg2Header
  deriving DecidableEq, Repr

/-- The message `fatal()` prints for each error. -/
def ReadError.message : ReadError → String
  | .shortRead => "short read from event log (premature EOF)"
  | .unknownAlgorithm algoId =>
    "Unable to handle event log entry for unknown hash algorithm " ++ toString algoId
  | .badPcrCount count => "Bad number of PCRs in TPM event record (" ++ toString count ++ ")"
  | .oversizedEvent size =>
    "Oversized TPM2 event log entry with " ++ toString size ++ " bytes of data"
  | .badTcg2Header => "Unable to parse TCG2 magic event header"

/-- An open byte stream: the bytes not yet read and the file offset of the next one. -/
structure ByteStream where
  /-- The bytes from the current offset to the end of the file. -/
  data : List UInt8
  /-- The current file offset. -/
  pos : Nat
  deriving DecidableEq, Repr

/-- A read from a byte stream that may stop the program. -/
abbrev Parser := StateT ByteStream (Except ReadError)

/-- `__read_exactly`: read `len` bytes, or fail with a short read. -/
def readExactly (len : Nat) : Parser (List UInt8) := fun s =>
  if len ≤ s.data.length then .ok (s.data.take len, ⟨s.data.drop len, s.pos + len⟩)
  else .error .shortRead

/-- `__read_u32le`: a four-byte little-endian word. -/
def readU32le : Parser Nat := leValue <$> readExactly 4

/-- `__read_u16le`: a two-byte little-endian word. -/
def readU16le : Parser Nat := leValue <$> readExactly 2

/-- `buffer_get_u8`: one byte. -/
def readU8 : Parser Nat := leValue <$> readExactly 1

/-- `__read_u32le_or_eof`: `none` when the stream is at its end, a word otherwise; a stream
that ends inside the word is a short read. -/
def readU32leOrEof : Parser (Option Nat) := fun s =>
  if s.data = [] then .ok (none, s) else (some <$> readU32le).run s

/-! ## Decoding a known byte string -/

/-- A proper prefix of `xs ++ ys` stops inside `xs`, or runs through `xs` and stops inside `ys`. -/
theorem prefix_append_cases {α : Type} {q xs ys : List α} (hq : q <+: xs ++ ys)
    (hne : q ≠ xs ++ ys) : (q <+: xs ∧ q ≠ xs) ∨ ∃ r, q = xs ++ r ∧ r <+: ys ∧ r ≠ ys := by
  by_cases hxq : xs <+: q
  · obtain ⟨r, rfl⟩ := hxq
    exact .inr ⟨r, rfl, (List.prefix_append_right_inj xs).mp hq, fun h => hne (h ▸ rfl)⟩
  · exact .inl ⟨(List.prefix_or_prefix_of_prefix hq (List.prefix_append xs ys)).resolve_right hxq,
      fun h => hxq (h ▸ List.prefix_refl q)⟩

section Decodes

variable {α β : Type}

/-- `p` reads exactly the bytes `xs` and returns `v`: whatever follows `xs` is left unread, and
on every proper prefix of `xs` the read fails with a short read. -/
structure Decodes (p : Parser α) (xs : List UInt8) (v : α) : Prop where
  /-- On a stream that starts with `xs`, `p` returns `v` and consumes exactly `xs`. -/
  reads : ∀ zs pos, p.run ⟨xs ++ zs, pos⟩ = .ok (v, ⟨zs, pos + xs.length⟩)
  /-- On a proper prefix of `xs`, `p` fails with a short read. -/
  cut : ∀ q pos, q <+: xs → q ≠ xs → p.run ⟨q, pos⟩ = .error .shortRead

theorem decodes_pure (v : α) : Decodes (pure v : Parser α) [] v where
  reads _ _ := rfl
  cut _ _ hq hne := absurd (List.prefix_nil.mp hq) hne

theorem Decodes.bind {p : Parser α} {f : α → Parser β} {xs ys : List UInt8} {a : α} {b : β}
    (hp : Decodes p xs a) (hf : Decodes (f a) ys b) : Decodes (p >>= f) (xs ++ ys) b where
  reads zs pos := by
    simp only [StateT.run_bind, List.append_assoc, hp.reads]
    rw [show (Except.ok (a, ⟨ys ++ zs, pos + xs.length⟩) >>= fun r => (f r.1).run r.2) =
      (f a).run ⟨ys ++ zs, pos + xs.length⟩ from rfl, hf.reads, List.length_append,
      Nat.add_assoc]
  cut q pos hq hne := by
    rcases prefix_append_cases hq hne with ⟨hqx, hqe⟩ | ⟨r, rfl, hr, hrne⟩
    · -- the cut falls inside `xs`
      simp only [StateT.run_bind, hp.cut q pos hqx hqe]
      rfl
    · -- the cut falls inside `ys`
      simp only [StateT.run_bind, hp.reads r pos]
      exact hf.cut r (pos + xs.length) hr hrne

/-- A read followed by a pure result decodes what the read decodes. -/
theorem Decodes.bind_pure {p : Parser α} {xs : List UInt8} {a : α} (g : α → β)
    (hp : Decodes p xs a) : Decodes (p >>= fun x => pure (g x)) xs (g a) := by
  simpa using @Decodes.bind _ _ p (fun x => pure (g x)) xs [] a (g a) hp (decodes_pure (g a))

/-- A check that does not fire lets the read after it decode. -/
theorem Decodes.of_not_throw {c : Prop} [Decidable c] {e : ReadError} {p : Parser α}
    {xs : List UInt8} {a : α} (hc : ¬ c) (hp : Decodes p xs a) :
    Decodes (if c then throw e else p) xs a := by
  rwa [if_neg hc]

theorem Decodes.map {p : Parser α} {xs : List UInt8} {a : α} (g : α → β)
    (hp : Decodes p xs a) : Decodes (g <$> p) xs (g a) where
  reads zs pos := by
    simp only [StateT.run_map, hp.reads]
    rfl
  cut q pos hq hne := by
    simp only [StateT.run_map, hp.cut q pos hq hne]
    rfl

end Decodes

/-! ## The primitive reads -/

theorem decodes_readExactly (xs : List UInt8) : Decodes (readExactly xs.length) xs xs where
  reads zs pos := by simp [readExactly, StateT.run]
  cut q pos hq hne := by
    have hlt : q.length < xs.length :=
      lt_of_le_of_ne hq.length_le fun h => hne (hq.eq_of_length h)
    simp [readExactly, StateT.run, Nat.not_le.mpr hlt]

/-- A little-endian word of `n` bytes, whatever its width. -/
theorem decodes_leValue (n : Nat) {v : Nat} (h : v < 256 ^ n) :
    Decodes (leValue <$> readExactly n) (leBytes n v) v := by
  have hd := (decodes_readExactly (leBytes n v)).map leValue
  rwa [leValue_leBytes h, length_leBytes] at hd

theorem decodes_readU32le {v : Nat} (h : v < 2 ^ 32) : Decodes readU32le (leBytes 4 v) v :=
  decodes_leValue 4 (by simpa using h)

theorem decodes_readU16le {v : Nat} (h : v < 2 ^ 16) : Decodes readU16le (leBytes 2 v) v :=
  decodes_leValue 2 (by simpa using h)

theorem decodes_readU8 {v : Nat} (h : v < 2 ^ 8) : Decodes readU8 (leBytes 1 v) v :=
  decodes_leValue 1 (by simpa using h)

/-- At the end of the stream `__read_u32le_or_eof` reports the end of the log. -/
@[simp]
theorem readU32leOrEof_nil (pos : Nat) : readU32leOrEof.run ⟨[], pos⟩ = .ok (none, ⟨[], pos⟩) :=
  rfl

/-- A stream that goes on past its end reads as `__read_u32le` does. -/
theorem readU32leOrEof_of_ne_nil {s : ByteStream} (h : s.data ≠ []) :
    readU32leOrEof.run s = (some <$> readU32le).run s := by
  simp [readU32leOrEof, StateT.run, h]

/-! ## Reading only forward -/

section Forward

variable {α β : Type}

/-- `p` only reads forward: the stream it leaves is no longer than the one it was given. -/
def ReadsForward (p : Parser α) : Prop :=
  ∀ s a s', p.run s = .ok (a, s') → s'.data.length ≤ s.data.length

theorem readsForward_pure (v : α) : ReadsForward (pure v : Parser α) := by
  rintro s a s' ⟨⟩
  exact le_rfl

theorem readsForward_throw (e : ReadError) : ReadsForward (throw e : Parser α) := by
  rintro s a s' ⟨⟩

theorem ReadsForward.bind {p : Parser α} {f : α → Parser β} (hp : ReadsForward p)
    (hf : ∀ a, ReadsForward (f a)) : ReadsForward (p >>= f) := by
  intro s b s' h
  rw [StateT.run_bind] at h
  match hps : p.run s, h with
  | .ok (a, s₁), h => exact (hf a _ _ _ h).trans (hp _ _ _ hps)

/-- A successful `readExactly len` consumes exactly `len` bytes. -/
theorem readExactly_length {len : Nat} {s s' : ByteStream} {a : List UInt8}
    (h : (readExactly len).run s = .ok (a, s')) : s'.data.length + len = s.data.length := by
  simp only [readExactly, StateT.run] at h
  split at h
  · cases h
    simp only [List.length_drop]
    omega
  · cases h

theorem readsForward_readExactly (len : Nat) : ReadsForward (readExactly len) :=
  fun _ _ _ h => by have := readExactly_length h; omega

theorem readsForward_readU32le : ReadsForward readU32le :=
  ReadsForward.bind (readsForward_readExactly 4) fun _ => readsForward_pure _

theorem readsForward_readU16le : ReadsForward readU16le :=
  ReadsForward.bind (readsForward_readExactly 2) fun _ => readsForward_pure _

theorem readsForward_readU8 : ReadsForward readU8 :=
  ReadsForward.bind (readsForward_readExactly 1) fun _ => readsForward_pure _

/-- A word read by `__read_u32le` takes four bytes off the stream. -/
theorem readU32le_length {s s' : ByteStream} {v : Nat} (h : readU32le.run s = .ok (v, s')) :
    s'.data.length + 4 = s.data.length := by
  simp only [readU32le, StateT.run_map] at h
  match hr : (readExactly 4).run s, h with
  | .ok (a, s₁), h =>
    cases h
    exact readExactly_length hr

/-- A word read by `__read_u32le_or_eof` takes four bytes off the stream. -/
theorem readU32leOrEof_length {s s' : ByteStream} {v : Nat}
    (h : readU32leOrEof.run s = .ok (some v, s')) : s'.data.length + 4 = s.data.length := by
  by_cases he : s.data = []
  · simp [readU32leOrEof, StateT.run, he] at h
  · rw [readU32leOrEof_of_ne_nil he, StateT.run_map] at h
    match hr : readU32le.run s, h with
    | .ok (a, s₁), h =>
      cases h
      exact readU32le_length hr

end Forward

end PcrOracle
