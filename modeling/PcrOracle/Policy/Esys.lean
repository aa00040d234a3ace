import Mathlib.Data.List.Nodup
import PcrOracle.Policy.Selection

/-!
# The ESYS layer as the policy code uses it

The TPM-facing functions of `pcr-policy.c` talk to the TPM through ESYS calls, each of which
succeeds or fails as the TPM answers. The model runs them in a state monad whose state says
which calls have been made, which handles are loaded, and, through `succeeds`, how the TPM
answers the call at each position of the run: a statement over every `succeeds` is a statement
over every combination of successes and failures.

Calls that create an object, a sequence or a session hand out a fresh handle on success, as the
ESYS layer does, and leave the caller's handle variable as it was on failure. A call that
flushes or consumes a handle gives it up only when the TPM accepts it; when the TPM rejects
`Esys_FlushContext` or `Esys_SequenceComplete` the handle stays loaded, although the code clears
its variable and never passes the handle on again.

`Balanced` is what the code guarantees of each operation: it passes exactly the handles it
created to `Esys_FlushContext` or `Esys_SequenceComplete`, each once, and leaves the TPM with the
handles it found and those whose release the TPM rejected (`rejectedIn`), which the code leaks.
`Holds` is the same ledger for a run still in progress, which holds some handles, with one lemma
per kind of call; `HeldBy` says that the handle variables at a cleanup label name exactly the
handles held.

## Main results

* `Holds.create`, `Holds.releaseOn`, `Holds.trans`: how calls and nested balanced runs change
  what a run holds.
* `esysFlushContexts_balanced`: a cleanup label that flushes every handle variable ends a
  balanced run.
* `esysCalls_spec`: a run of calls makes the first calls of its list.
-/

namespace PcrOracle

/-- `ESYS_TR_NONE`; an `ESYS_TR` handle is a number. -/
def esysTrNone : Nat := 0xfff

/-- A digest the TPM is given: the one it computed, under the sequence's algorithm, over the data
fed to a hash sequence, or bytes the caller supplies. -/
inductive TpmDigest
  | sequence (data : List UInt8)
  | given (bytes : List UInt8)
  deriving DecidableEq, Repr

/-- The ESYS calls of `pcr-policy.c`, with the arguments the model follows. -/
inductive EsysCall
  | startAuthSession (sessionType : Nat)
  | policyPcr (session : Nat) (pcrDigest : TpmDigest) (pcrs : TpmlPcrSelection)
  | policyGetDigest (session : Nat)
  | policyAuthorize (session : Nat)
  | flushContext (handle : Nat)
  | hashSequenceStart (hashAlg : Nat)
  | sequenceUpdate (sequence : Nat) (buffer : List UInt8)
  | sequenceComplete (sequence : Nat)
  | loadExternal
  | trGetName (handle : Nat)
  | createPrimary
  | create (parent : Nat)
  | load (parent : Nat)
  | unseal (object session : Nat)
  | hash
  | verifySignature (key : Nat)
  deriving DecidableEq, Repr

/-- The handle a call gives up, if it flushes or consumes one. -/
def EsysCall.releases : EsysCall → Option Nat
  | .flushContext h => some h
  | .sequenceComplete h => some h
  | _ => none

/-- The ESYS context and the TPM behind it. -/
structure EsysState where
  /-- Whether the call at each position of the run succeeds. -/
  succeeds : Nat → Bool
  /-- The calls made so far, in order. -/
  calls : List EsysCall
  /-- The transient objects, sequences and sessions loaded. -/
  loaded : List Nat
  /-- The handle the next object gets. -/
  next : Nat
  /-- What each hash sequence was fed so far. -/
  sequenceData : Nat → List UInt8
  none_lt_next : esysTrNone < next
  loaded_lt_next : ∀ h ∈ loaded, h < next

namespace EsysState

variable (s : EsysState) (c : EsysCall)

/-- The state once call `c` was made. -/
def addCall : EsysState := { s with calls := s.calls ++ [c] }

/-- The state once call `c` created an object: it gets the handle `next`, now loaded, and as a
hash sequence it has been fed nothing. -/
def create : EsysState where
  succeeds := s.succeeds
  calls := s.calls ++ [c]
  loaded := s.next :: s.loaded
  next := s.next + 1
  sequenceData := Function.update s.sequenceData s.next []
  none_lt_next := Nat.lt_succ_of_lt s.none_lt_next
  loaded_lt_next := fun h hh => by
    rcases List.mem_cons.mp hh with rfl | hh
    · exact Nat.lt_succ_self _
    · exact Nat.lt_succ_of_lt (s.loaded_lt_next h hh)

/-- The state once call `c` flushed or consumed `h`. -/
def release (h : Nat) : EsysState :=
  { s with
    calls := s.calls ++ [c]
    loaded := s.loaded.erase h
    loaded_lt_next := fun h' hh => s.loaded_lt_next h' (List.mem_of_mem_erase hh) }

@[simp] theorem addCall_calls : (s.addCall c).calls = s.calls ++ [c] := rfl
@[simp] theorem addCall_loaded : (s.addCall c).loaded = s.loaded := rfl
@[simp] theorem addCall_next : (s.addCall c).next = s.next := rfl
@[simp] theorem addCall_succeeds : (s.addCall c).succeeds = s.succeeds := rfl
@[simp] theorem create_calls : (s.create c).calls = s.calls ++ [c] := rfl
@[simp] theorem create_loaded : (s.create c).loaded = s.next :: s.loaded := rfl
@[simp] theorem create_next : (s.create c).next = s.next + 1 := rfl
@[simp] theorem create_succeeds : (s.create c).succeeds = s.succeeds := rfl
@[simp] theorem create_sequenceData_next : (s.create c).sequenceData s.next = [] := by
  simp [create]
@[simp] theorem addCall_sequenceData : (s.addCall c).sequenceData = s.sequenceData := rfl
@[simp] theorem release_sequenceData (h : Nat) :
    (s.release c h).sequenceData = s.sequenceData := rfl
@[simp] theorem release_calls (h : Nat) : (s.release c h).calls = s.calls ++ [c] := rfl
@[simp] theorem release_loaded (h : Nat) : (s.release c h).loaded = s.loaded.erase h := rfl
@[simp] theorem release_next (h : Nat) : (s.release c h).next = s.next := rfl
@[simp] theorem release_succeeds (h : Nat) : (s.release c h).succeeds = s.succeeds := rfl

/-- The state once call `c`, which flushes or consumes `h`, was made: the TPM gives `h` up when
it accepts the call, and keeps it loaded when it rejects it. -/
def releaseOn (h : Nat) : EsysState :=
  if s.succeeds s.calls.length then s.release c h else s.addCall c

@[simp] theorem releaseOn_calls (h : Nat) : (s.releaseOn c h).calls = s.calls ++ [c] := by
  unfold releaseOn; split <;> rfl
@[simp] theorem releaseOn_next (h : Nat) : (s.releaseOn c h).next = s.next := by
  unfold releaseOn; split <;> rfl
@[simp] theorem releaseOn_succeeds (h : Nat) : (s.releaseOn c h).succeeds = s.succeeds := by
  unfold releaseOn; split <;> rfl
@[simp] theorem releaseOn_sequenceData (h : Nat) :
    (s.releaseOn c h).sequenceData = s.sequenceData := by
  unfold releaseOn; split <;> rfl
theorem releaseOn_loaded (h : Nat) : (s.releaseOn c h).loaded =
    if s.succeeds s.calls.length then s.loaded.erase h else s.loaded := by
  unfold releaseOn; split <;> rfl

/-- Releasing the newest loaded handle leaves the handles under it, and the handle too when the
TPM rejects the call. -/
theorem releaseOn_loaded_cons {h : Nat} {L : List Nat} (hl : s.loaded = h :: L) :
    (s.releaseOn c h).loaded = (if s.succeeds s.calls.length then [] else [h]) ++ L := by
  rw [releaseOn_loaded, hl]
  split_ifs <;> simp

/-- The state once the calls `cs`, which create and release nothing, were made. -/
def addCalls (cs : List EsysCall) : EsysState := { s with calls := s.calls ++ cs }

@[simp] theorem addCalls_calls (cs : List EsysCall) : (s.addCalls cs).calls = s.calls ++ cs := rfl
@[simp] theorem addCalls_loaded (cs : List EsysCall) : (s.addCalls cs).loaded = s.loaded := rfl
@[simp] theorem addCalls_next (cs : List EsysCall) : (s.addCalls cs).next = s.next := rfl
@[simp] theorem addCalls_succeeds (cs : List EsysCall) :
    (s.addCalls cs).succeeds = s.succeeds := rfl
@[simp] theorem addCalls_sequenceData (cs : List EsysCall) :
    (s.addCalls cs).sequenceData = s.sequenceData := rfl

/-- The state once `data` was appended to what sequence `h` was fed. -/
def feed (h : Nat) (data : List UInt8) : EsysState :=
  { s with sequenceData := Function.update s.sequenceData h (s.sequenceData h ++ data) }

@[simp] theorem feed_calls (h : Nat) (data : List UInt8) : (s.feed h data).calls = s.calls := rfl
@[simp] theorem feed_loaded (h : Nat) (data : List UInt8) : (s.feed h data).loaded = s.loaded := rfl
@[simp] theorem feed_next (h : Nat) (data : List UInt8) : (s.feed h data).next = s.next := rfl
@[simp] theorem feed_succeeds (h : Nat) (data : List UInt8) :
    (s.feed h data).succeeds = s.succeeds := rfl
@[simp] theorem feed_sequenceData_self (h : Nat) (data : List UInt8) :
    (s.feed h data).sequenceData h = s.sequenceData h ++ data := by
  simp [feed]

@[simp] theorem addCalls_nil : s.addCalls [] = s := by
  simp [addCalls]

theorem addCall_addCalls (cs : List EsysCall) : (s.addCall c).addCalls cs = s.addCalls (c :: cs) := by
  simp [addCall, addCalls]

/-- Handles from `next` on are fresh: none is `ESYS_TR_NONE`, none is loaded. -/
@[simp] theorem next_add_ne_none (k : Nat) : s.next + k ≠ esysTrNone := by
  have := s.none_lt_next
  unfold esysTrNone at this ⊢
  omega

@[simp] theorem next_ne_none : s.next ≠ esysTrNone := by
  simpa using s.next_add_ne_none 0

@[simp] theorem next_add_not_mem_loaded (k : Nat) : s.next + k ∉ s.loaded := fun h => by
  have := s.loaded_lt_next _ h
  omega

@[simp] theorem next_not_mem_loaded : s.next ∉ s.loaded := by
  simpa using s.next_add_not_mem_loaded 0

/-- A fresh ESYS context whose TPM answers the call at position `n` with `succeeds n`. -/
def init (succeeds : Nat → Bool) : EsysState where
  succeeds := succeeds
  calls := []
  loaded := []
  next := esysTrNone + 1
  sequenceData := fun _ => []
  none_lt_next := Nat.lt_succ_self _
  loaded_lt_next := fun _ h => absurd h (List.not_mem_nil _)

end EsysState

/-- The ESYS monad. -/
abbrev Esys := StateM EsysState

/-- A call that creates and releases nothing. -/
def esysCall (c : EsysCall) : Esys Bool := fun s =>
  (s.succeeds s.calls.length, s.addCall c)

/-- A call that creates an object, a sequence or a session: on success the handle it hands out
is fresh and loaded. -/
def esysCreateObject (c : EsysCall) : Esys (Option Nat) := fun s =>
  if s.succeeds s.calls.length then (some s.next, s.create c) else (none, s.addCall c)

/-- A call that flushes or consumes `h`: the TPM gives it up if it accepts the call. -/
def esysRelease (c : EsysCall) (h : Nat) : Esys Bool := fun s =>
  (s.succeeds s.calls.length, s.releaseOn c h)

/-- `Esys_SequenceUpdate`: on success the TPM appends `buffer` to what the sequence was fed. -/
def esysSequenceUpdate (sequence : Nat) (buffer : List UInt8) : Esys Bool := fun s =>
  let ok := s.succeeds s.calls.length
  (ok, if ok then (s.addCall (.sequenceUpdate sequence buffer)).feed sequence buffer
    else s.addCall (.sequenceUpdate sequence buffer))

/-- `Esys_SequenceComplete`: on success the sequence is consumed and the TPM returns the digest
of what it was fed; on failure the sequence stays loaded. -/
def esysSequenceComplete (sequence : Nat) : Esys (Option TpmDigest) := fun s =>
  (if s.succeeds s.calls.length then some (.sequence (s.sequenceData sequence)) else none,
    s.releaseOn (.sequenceComplete sequence) sequence)

/-- `TPM2_SE_POLICY` and `TPM2_SE_TRIAL`. -/
def tpm2SePolicy : Nat := 0x01

def tpm2SeTrial : Nat := 0x03

/-- `esys_start_auth_session`: the session handle on success; the caller's variable, given as
`sessionHandle`, is left as it was otherwise. -/
def esysStartAuthSession (sessionType : Nat) (sessionHandle : Nat) : Esys (Bool × Nat) := do
  match ← esysCreateObject (.startAuthSession sessionType) with
  | some h => return (true, h)
  | none => return (false, sessionHandle)

/-- `esys_flush_context`: flush the handle unless it is `ESYS_TR_NONE`, and clear the variable. -/
def esysFlushContext (handle : Nat) : Esys Nat := do
  if handle = esysTrNone then return esysTrNone
  let _ ← esysRelease (.flushContext handle) handle
  return esysTrNone

/-- A cleanup label: `esys_flush_context` of each handle variable, in the order the code flushes
them. -/
def esysFlushContexts : List Nat → Esys Unit
  | [] => pure ()
  | handle :: handles => do
    let _ ← esysFlushContext handle
    esysFlushContexts handles

/-- Calls made one after the other while the TPM accepts them, as the C's runs of
`rc = Esys_...(...); if (!tss_check_error(rc, ...)) goto cleanup;` do: whether all went
through. -/
def esysCalls : List EsysCall → Esys Bool
  | [] => pure true
  | c :: cs => do
    if !(← esysCall c) then return false
    esysCalls cs

/-- `esys_create_primary`: the primary key's handle on success. -/
def esysCreatePrimary (handle : Nat) : Esys (Bool × Nat) := do
  match ← esysCreateObject .createPrimary with
  | some h => return (true, h)
  | none => return (false, handle)

/-! ## Balanced runs -/

/-- The handles flushed or consumed by a list of calls. -/
def releasedIn (calls : List EsysCall) : List Nat := calls.filterMap EsysCall.releases

@[simp] theorem releasedIn_nil : releasedIn [] = [] := rfl

@[simp] theorem releasedIn_cons (c : EsysCall) (cs : List EsysCall) :
    releasedIn (c :: cs) = (c.releases.toList ++ releasedIn cs) := by
  cases h : c.releases <;> simp [releasedIn, List.filterMap_cons, h]

@[simp] theorem releasedIn_append (cs cs' : List EsysCall) :
    releasedIn (cs ++ cs') = releasedIn cs ++ releasedIn cs' :=
  List.filterMap_append _ _ _

/-- The handles that the calls `cs`, made from position `n` of a run on, passed to a flush or a
completion the TPM rejected: they stay loaded. -/
def rejectedIn (succeeds : Nat → Bool) : Nat → List EsysCall → List Nat
  | _, [] => []
  | n, c :: cs => (if succeeds n then [] else c.releases.toList) ++ rejectedIn succeeds (n + 1) cs

section RejectedIn

variable (succeeds : Nat → Bool)

@[simp] theorem rejectedIn_nil (n : Nat) : rejectedIn succeeds n [] = [] := rfl

theorem rejectedIn_append : ∀ (n : Nat) (cs cs' : List EsysCall),
    rejectedIn succeeds n (cs ++ cs') =
      rejectedIn succeeds n cs ++ rejectedIn succeeds (n + cs.length) cs'
  | _, [], _ => rfl
  | n, c :: cs, cs' => by
    rw [List.cons_append, rejectedIn, rejectedIn, rejectedIn_append (n + 1) cs cs',
      List.append_assoc, List.length_cons, Nat.add_assoc, Nat.add_comm 1]

/-- Calls that release nothing leak nothing. -/
theorem rejectedIn_eq_nil : ∀ (n : Nat) {cs : List EsysCall}, (∀ c ∈ cs, c.releases = none) →
    rejectedIn succeeds n cs = []
  | _, [], _ => rfl
  | n, c :: cs, h => by
    rw [rejectedIn, h c (List.mem_cons_self _ _), rejectedIn_eq_nil (n + 1)
      fun c' hc' => h c' (List.mem_cons_of_mem _ hc')]
    simp

/-- One call that releases `x`: leaked if the TPM rejects it. -/
theorem rejectedIn_singleton {c : EsysCall} {x : Nat} (hc : c.releases = some x) (n : Nat) :
    rejectedIn succeeds n [c] = if succeeds n then [] else [x] := by
  simp [rejectedIn, hc, apply_ite]

end RejectedIn

/-- A run from `s` to `s'` is balanced: the handles it passed to `Esys_FlushContext` or
`Esys_SequenceComplete` are exactly the ones it created, each passed once, and the TPM holds the
handles it held before and those whose release it rejected. -/
structure Balanced (s s' : EsysState) : Prop where
  calls_prefix : s.calls <+: s'.calls
  next_le : s.next ≤ s'.next
  succeeds_eq : s'.succeeds = s.succeeds
  released_nodup : (releasedIn (s'.calls.drop s.calls.length)).Nodup
  mem_released : ∀ h, h ∈ releasedIn (s'.calls.drop s.calls.length) ↔ s.next ≤ h ∧ h < s'.next
  loaded_perm : s'.loaded.Perm
    (rejectedIn s.succeeds s.calls.length (s'.calls.drop s.calls.length) ++ s.loaded)

/-- A run from `s` to `s'` that still holds the handles `held`, newest first: each handle it
created it passed to one release or still holds, it passed no other, and the TPM holds `held`,
the handles whose release it rejected and the handles it held before. A balanced run holds
nothing at its end. -/
structure Holds (s s' : EsysState) (held : List Nat) : Prop where
  calls_prefix : s.calls <+: s'.calls
  next_le : s.next ≤ s'.next
  succeeds_eq : s'.succeeds = s.succeeds
  nodup : (releasedIn (s'.calls.drop s.calls.length) ++ held).Nodup
  mem : ∀ h, h ∈ releasedIn (s'.calls.drop s.calls.length) ++ held ↔ s.next ≤ h ∧ h < s'.next
  loaded_perm : s'.loaded.Perm
    (held ++ rejectedIn s.succeeds s.calls.length (s'.calls.drop s.calls.length) ++ s.loaded)

namespace Holds

variable {s t u : EsysState} {held : List Nat} {c : EsysCall}

theorem balanced (h : Holds s t []) : Balanced s t :=
  ⟨h.calls_prefix, h.next_le, h.succeeds_eq, by simpa using h.nodup, by simpa using h.mem,
    by simpa using h.loaded_perm⟩

theorem refl (s : EsysState) : Holds s s [] :=
  ⟨List.prefix_refl _, le_refl _, rfl, by simp, fun _ => by simp, by simp⟩

/-- The calls made since `s`, once `cs` were made after `t`. -/
theorem drop_append (h : Holds s t held) (cs : List EsysCall) :
    (t.calls ++ cs).drop s.calls.length = t.calls.drop s.calls.length ++ cs :=
  List.drop_append_of_le_length h.calls_prefix.length_le

/-- The position in the run from `s` of the next call after `t`. -/
theorem length_add_length_drop (h : Holds s t held) :
    s.calls.length + (t.calls.drop s.calls.length).length = t.calls.length := by
  have := h.calls_prefix.length_le
  rw [List.length_drop]
  omega

/-- What the TPM keeps of the calls `cs` made after `t`. -/
theorem rejectedIn_drop_append (h : Holds s t held) (cs : List EsysCall) :
    rejectedIn s.succeeds s.calls.length ((t.calls ++ cs).drop s.calls.length) =
      rejectedIn s.succeeds s.calls.length (t.calls.drop s.calls.length) ++
        rejectedIn s.succeeds t.calls.length cs := by
  rw [h.drop_append, rejectedIn_append, h.length_add_length_drop]

/-- Calls that release nothing keep what a run holds. -/
theorem addCalls (h : Holds s t held) {cs : List EsysCall}
    (hcs : ∀ c ∈ cs, c.releases = none) : Holds s (t.addCalls cs) held := by
  have hr : releasedIn cs = [] := List.filterMap_eq_nil_iff.mpr hcs
  refine ⟨h.calls_prefix.trans (List.prefix_append _ _), h.next_le, h.succeeds_eq, ?_, ?_, ?_⟩
  · simpa [h.drop_append, hr] using h.nodup
  · simpa [h.drop_append, hr] using h.mem
  · simpa [h.rejectedIn_drop_append, rejectedIn_eq_nil _ _ hcs] using h.loaded_perm

theorem addCall (h : Holds s t held) (hc : c.releases = none) : Holds s (t.addCall c) held :=
  show Holds s (t.addCalls [c]) held from h.addCalls (by simpa using hc)

/-- A created handle is held. -/
theorem create (h : Holds s t held) (hc : c.releases = none) :
    Holds s (t.create c) (t.next :: held) := by
  have hlt : ∀ x ∈ releasedIn (t.calls.drop s.calls.length) ++ held, x < t.next :=
    fun x hx => ((h.mem x).mp hx).2
  refine ⟨h.calls_prefix.trans (List.prefix_append _ _), Nat.le_succ_of_le h.next_le,
    h.succeeds_eq, ?_, ?_, ?_⟩
  · rw [EsysState.create_calls, h.drop_append]
    simp only [releasedIn_append, releasedIn_cons, hc, Option.toList_none, releasedIn_nil,
      List.append_nil]
    exact List.perm_middle.nodup_iff.mpr
      (List.nodup_cons.mpr ⟨fun hx => by simpa using hlt _ hx, h.nodup⟩)
  · intro x
    rw [EsysState.create_calls, h.drop_append]
    simp only [releasedIn_append, releasedIn_cons, hc, Option.toList_none, releasedIn_nil,
      List.append_nil, List.mem_append, List.mem_cons, EsysState.create_next]
    have hx := h.mem x
    simp only [List.mem_append] at hx
    have hle := h.next_le
    constructor
    · rintro (hx' | rfl | hx')
      · have := hx.mp (.inl hx'); omega
      · omega
      · have := hx.mp (.inr hx'); omega
    · intro hlt'
      by_cases hxt : x = t.next
      · exact .inr (.inl hxt)
      · rcases hx.mpr ⟨hlt'.1, by omega⟩ with hx' | hx'
        · exact .inl hx'
        · exact .inr (.inr hx')
  · have hr : rejectedIn s.succeeds t.calls.length [c] = [] := by simp [rejectedIn, hc]
    rw [EsysState.create_calls, h.rejectedIn_drop_append, hr, List.append_nil,
      EsysState.create_loaded]
    exact .cons _ h.loaded_perm

/-- Passing a held handle to a release moves it from what the run holds to what it released;
if the TPM rejects the release, the handle stays loaded, as a rejected one. -/
theorem releaseOn (h : Holds s t held) {x : Nat} (hc : c.releases = some x) (hx : x ∈ held) :
    Holds s (t.releaseOn c x) (held.erase x) := by
  have hperm : List.Perm (releasedIn ((t.releaseOn c x).calls.drop s.calls.length) ++ held.erase x)
      (releasedIn (t.calls.drop s.calls.length) ++ held) := by
    rw [EsysState.releaseOn_calls, h.drop_append]
    simp only [releasedIn_append, releasedIn_cons, hc, Option.toList_some, releasedIn_nil,
      List.append_nil, List.append_assoc, List.singleton_append]
    exact (List.perm_append_left_iff _).mpr (List.perm_cons_erase hx).symm
  refine ⟨by simpa using h.calls_prefix.trans (List.prefix_append _ [c]), by simpa using h.next_le,
    by simpa using h.succeeds_eq, hperm.nodup_iff.mpr h.nodup,
    fun y => (hperm.mem_iff).trans (by simpa using h.mem y), ?_⟩
  have hl := h.loaded_perm
  have hcount := List.perm_iff_count.mp (List.perm_cons_erase hx)
  rw [EsysState.releaseOn_calls, h.rejectedIn_drop_append, rejectedIn_singleton _ hc,
    EsysState.releaseOn_loaded, h.succeeds_eq]
  split_ifs
  · -- accepted: `x` is gone from the TPM
    refine (hl.erase x).trans ?_
    rw [List.append_nil, List.append_assoc, List.erase_append_left _ hx, List.append_assoc]
  · -- rejected: `x` stays loaded
    refine hl.trans (List.perm_iff_count.mpr fun a => ?_)
    have := hcount a
    simp only [List.count_append, List.count_cons, List.count_nil] at this ⊢
    omega

/-- A balanced run after a run that holds `held` still holds `held`. -/
theorem trans (h : Holds s t held) (h' : Balanced t u) : Holds s u held := by
  obtain ⟨a, ha⟩ := h.calls_prefix
  obtain ⟨b, hb⟩ := h'.calls_prefix
  have hdrop : u.calls.drop s.calls.length = t.calls.drop s.calls.length ++ b := by
    rw [← hb, h.drop_append]
  have hb' : u.calls.drop t.calls.length = b := by rw [← hb, List.drop_left]
  have hperm : List.Perm (releasedIn (u.calls.drop s.calls.length) ++ held)
      ((releasedIn (t.calls.drop s.calls.length) ++ held) ++ releasedIn b) := by
    rw [hdrop, releasedIn_append, List.append_assoc, List.append_assoc]
    exact (List.perm_append_left_iff _).mpr List.perm_append_comm
  have hlt := fun x hx => (h.mem x).mp hx
  have hmem' := h'.mem_released
  have hnodup' := h'.released_nodup
  have hloaded' := h'.loaded_perm
  rw [hb', h.succeeds_eq] at hloaded'
  rw [hb'] at hmem' hnodup'
  have hge := fun x hx => (hmem' x).mp hx
  refine ⟨h.calls_prefix.trans h'.calls_prefix, h.next_le.trans h'.next_le,
    h'.succeeds_eq.trans h.succeeds_eq, ?_, ?_, ?_⟩
  · refine hperm.nodup_iff.mpr (h.nodup.append hnodup' fun x hx hx' => ?_)
    have := hlt x hx
    have := hge x hx'
    omega
  · intro x
    rw [hperm.mem_iff, List.mem_append, h.mem, hmem']
    have := h.next_le
    have := h'.next_le
    omega
  · -- the handles `t` left loaded, and those the TPM kept of the releases after `t`
    rw [← hb, h.rejectedIn_drop_append]
    refine hloaded'.trans (((List.perm_append_left_iff _).mpr h.loaded_perm).trans
      (List.perm_iff_count.mpr fun a => ?_))
    simp only [List.count_append]
    omega

end Holds

theorem Balanced.refl (s : EsysState) : Balanced s s :=
  (Holds.refl s).balanced

theorem Balanced.holds {s t : EsysState} (h : Balanced s t) : Holds s t [] :=
  ⟨h.calls_prefix, h.next_le, h.succeeds_eq, by simpa using h.released_nodup,
    by simpa using h.mem_released, by simpa using h.loaded_perm⟩

/-- Balanced runs one after the other make a balanced run. -/
theorem Balanced.trans {s t u : EsysState} (h : Balanced s t) (h' : Balanced t u) :
    Balanced s u :=
  (h.holds.trans h').balanced

/-- A run whose calls release the handles it created, `s.next` to `s.next + k - 1`, once each, and
leave loaded the handles loaded before and those whose release the TPM rejected, is balanced. -/
theorem Balanced.of_released {s s' : EsysState} {cs : List EsysCall} {k : Nat}
    (hc : s'.calls = s.calls ++ cs) (hn : s'.next = s.next + k) (hs : s'.succeeds = s.succeeds)
    (hr : releasedIn cs = List.range' s.next k)
    (hl : s'.loaded.Perm (rejectedIn s.succeeds s.calls.length cs ++ s.loaded)) :
    Balanced s s' := by
  have hdrop : s'.calls.drop s.calls.length = cs := by rw [hc, List.drop_left]
  refine ⟨hc ▸ List.prefix_append _ _, by omega, hs, ?_, fun h => ?_, hdrop ▸ hl⟩
  · rw [hdrop, hr]
    exact List.nodup_range' _ _
  · rw [hdrop, hr, List.mem_range'_1, hn]

/-- A balanced run whose releases the TPM all accepted leaves it with the handles it found. -/
theorem Balanced.loaded_perm_of_accepted {s s' : EsysState} (h : Balanced s s')
    (hacc : rejectedIn s.succeeds s.calls.length (s'.calls.drop s.calls.length) = []) :
    s'.loaded.Perm s.loaded := by
  simpa [hacc] using h.loaded_perm

/-- At a cleanup label with the handle variables `vars`: the run from `s` holds exactly the
handles the variables name, each named by one of them. A variable that holds `ESYS_TR_NONE`
names nothing. -/
def HeldBy (s t : EsysState) (vars : List Nat) : Prop :=
  ∃ held, Holds s t held ∧ held.Perm (vars.filter (· != esysTrNone))

namespace HeldBy

variable {s t u : EsysState} {vars vars' : List Nat} {c : EsysCall}

theorem refl (s : EsysState) : HeldBy s s [] :=
  ⟨[], Holds.refl s, List.Perm.refl _⟩

/-- A variable that was never assigned a handle. -/
theorem cons_none (h : HeldBy s t vars) : HeldBy s t (esysTrNone :: vars) := by
  simpa [HeldBy] using h

theorem addCall (h : HeldBy s t vars) (hc : c.releases = none) : HeldBy s (t.addCall c) vars :=
  let ⟨held, hh, hp⟩ := h
  ⟨held, hh.addCall hc, hp⟩

theorem addCalls (h : HeldBy s t vars) {cs : List EsysCall}
    (hcs : ∀ c ∈ cs, c.releases = none) : HeldBy s (t.addCalls cs) vars :=
  let ⟨held, hh, hp⟩ := h
  ⟨held, hh.addCalls hcs, hp⟩

/-- The variable that receives a created handle. -/
theorem create (h : HeldBy s t vars) (hc : c.releases = none) :
    HeldBy s (t.create c) (t.next :: vars) :=
  let ⟨held, hh, hp⟩ := h
  ⟨t.next :: held, hh.create hc, by simpa [List.filter_cons] using hp.cons t.next⟩

/-- The order of the variables does not matter. -/
theorem perm (h : HeldBy s t vars) (hp : vars.Perm vars') : HeldBy s t vars' :=
  let ⟨held, hh, hp'⟩ := h
  ⟨held, hh, hp'.trans (hp.filter _)⟩

/-- A balanced run, such as a nested operation, keeps what the variables name. -/
theorem trans (h : HeldBy s t vars) (h' : Balanced t u) : HeldBy s u vars :=
  let ⟨held, hh, hp⟩ := h
  ⟨held, hh.trans h', hp⟩

theorem balanced (h : HeldBy s t []) : Balanced s t := by
  obtain ⟨held, hh, hp⟩ := h
  rw [List.filter_nil, List.perm_nil] at hp
  subst hp
  exact hh.balanced

end HeldBy

/-! ## Running a computation -/

/-- What a computation guarantees from `s`: `Q` holds of its result and of the state it leaves.
Reading a computation through `wp` runs it symbolically, one call at a time. -/
def Esys.wp {α : Type} (m : Esys α) (Q : α → EsysState → Prop) (s : EsysState) : Prop :=
  Q (m s).1 (m s).2

section Wp

variable {α β : Type} (s : EsysState) (c : EsysCall) (Q : α → EsysState → Prop)

@[simp] theorem wp_bind (x : Esys β) (f : β → Esys α) :
    Esys.wp (x >>= f) Q s = Esys.wp x (fun a s' => Esys.wp (f a) Q s') s := rfl

@[simp] theorem wp_pure (a : α) : Esys.wp (pure a) Q s = Q a s := rfl

@[simp] theorem wp_map (f : β → α) (x : Esys β) :
    Esys.wp (f <$> x) Q s = Esys.wp x (fun b => Q (f b)) s := rfl

@[simp] theorem wp_ite (p : Prop) [Decidable p] (x y : Esys α) :
    Esys.wp (if p then x else y) Q s = if p then Esys.wp x Q s else Esys.wp y Q s := by
  split <;> rfl

@[simp] theorem wp_esysCall (Q : Bool → EsysState → Prop) :
    Esys.wp (esysCall c) Q s = Q (s.succeeds s.calls.length) (s.addCall c) := rfl

@[simp] theorem wp_esysCreateObject (Q : Option Nat → EsysState → Prop) :
    Esys.wp (esysCreateObject c) Q s =
      if s.succeeds s.calls.length then Q (some s.next) (s.create c) else Q none (s.addCall c) := by
  unfold Esys.wp esysCreateObject
  split <;> rfl

@[simp] theorem wp_esysRelease (h : Nat) (Q : Bool → EsysState → Prop) :
    Esys.wp (esysRelease c h) Q s = Q (s.succeeds s.calls.length) (s.releaseOn c h) := rfl

@[simp] theorem wp_esysSequenceUpdate (sequence : Nat) (buffer : List UInt8)
    (Q : Bool → EsysState → Prop) :
    Esys.wp (esysSequenceUpdate sequence buffer) Q s =
      if s.succeeds s.calls.length then
        Q true ((s.addCall (.sequenceUpdate sequence buffer)).feed sequence buffer)
      else Q false (s.addCall (.sequenceUpdate sequence buffer)) := by
  unfold Esys.wp esysSequenceUpdate
  split <;> simp [*]

@[simp] theorem wp_esysSequenceComplete (sequence : Nat) (Q : Option TpmDigest → EsysState → Prop) :
    Esys.wp (esysSequenceComplete sequence) Q s =
      Q (if s.succeeds s.calls.length then some (.sequence (s.sequenceData sequence)) else none)
        (s.releaseOn (.sequenceComplete sequence) sequence) := rfl

end Wp

theorem Esys.wp_bind_of_eq {α β : Type} {m : Esys β} {f : β → Esys α} {Q : α → EsysState → Prop}
    {a : β} {s s' : EsysState} (h : m s = (a, s')) : Esys.wp (m >>= f) Q s = Esys.wp (f a) Q s' := by
  rw [wp_bind]
  show Esys.wp (f (m s).1) Q (m s).2 = _
  rw [h]

theorem Esys.wp_mono {α : Type} {m : Esys α} {P Q : α → EsysState → Prop} {s : EsysState}
    (h : Esys.wp m P s) (hPQ : ∀ a s', P a s' → Q a s') : Esys.wp m Q s :=
  hPQ _ _ h

/-! ## Cleanup labels -/

/-- Flushing the first handle variable at a cleanup label gives up the handle it names. -/
theorem esysFlushContext_heldBy {s t : EsysState} {x : Nat} {vars : List Nat}
    (h : HeldBy s t (x :: vars)) :
    Esys.wp (esysFlushContext x) (fun r t' => r = esysTrNone ∧ HeldBy s t' vars) t := by
  obtain ⟨held, hh, hp⟩ := h
  by_cases hx : x = esysTrNone
  · subst hx
    simp only [esysFlushContext, if_true, wp_pure]
    exact ⟨trivial, held, hh, by simpa using hp⟩
  · have hp' : held.Perm (x :: vars.filter (· != esysTrNone)) := by simpa [hx] using hp
    simp only [esysFlushContext, hx, if_false, wp_bind, wp_esysRelease, wp_pure]
    exact ⟨trivial, held.erase x, hh.releaseOn rfl (hp'.mem_iff.mpr (List.mem_cons_self _ _)),
      by simpa using hp'.erase x⟩

/-- A cleanup label that flushes every handle variable ends a balanced run. -/
theorem esysFlushContexts_balanced {s : EsysState} :
    ∀ (vars : List Nat) {t : EsysState}, HeldBy s t vars →
      Esys.wp (esysFlushContexts vars) (fun _ t' => Balanced s t') t
  | [], _, h => h.balanced
  | _ :: vars, _, h => by
    simp only [esysFlushContexts, wp_bind]
    exact Esys.wp_mono (esysFlushContext_heldBy h) fun _ _ h' =>
      esysFlushContexts_balanced vars h'.2

/-- A run of calls makes the first calls of the list, and changes nothing else. -/
theorem esysCalls_spec : ∀ (cs : List EsysCall) (s : EsysState),
    Esys.wp (esysCalls cs) (fun _ s' => ∃ pre, pre <+: cs ∧ s' = s.addCalls pre) s
  | [], s => ⟨[], List.nil_prefix, (EsysState.addCalls_nil s).symm⟩
  | c :: cs, s => by
    simp only [esysCalls, wp_bind, wp_esysCall]
    cases s.succeeds s.calls.length
    · exact ⟨[c], List.cons_prefix_cons.mpr ⟨rfl, List.nil_prefix⟩, rfl⟩
    · refine Esys.wp_mono (esysCalls_spec cs _) fun _ s' ⟨pre, hpre, hs'⟩ => ?_
      exact ⟨c :: pre, List.cons_prefix_cons.mpr ⟨rfl, hpre⟩, by
        rw [hs', EsysState.addCall_addCalls]⟩

/-- A run of calls that release nothing keeps what the handle variables name. -/
theorem esysCalls_heldBy {s t : EsysState} {vars : List Nat} {cs : List EsysCall}
    (h : HeldBy s t vars) (hcs : ∀ c ∈ cs, c.releases = none) :
    Esys.wp (esysCalls cs) (fun _ t' => HeldBy s t' vars) t :=
  Esys.wp_mono (esysCalls_spec cs t) fun _ _ ⟨_, hpre, ht'⟩ =>
    ht' ▸ h.addCalls fun c hc => hcs c (hpre.subset hc)

end PcrOracle
