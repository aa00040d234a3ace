import PcrOracle.SdBoot.TokenId
import PcrOracle.SdBoot.VersionOrder

/-!
# The next kernel, and which applications are kernels

`sdb_get_entry_list` reads `/boot/efi/loader/entries`. For each name `readdir` returns, while
fewer than `SDB_MAX_ENTRIES` entries were read, it skips the names that do not start with the
token id of `get_token_id`, has `read_entry` fill the next slot from the file of that name, and
keeps the slot if the file could be opened. It then sorts the slots with `qsort(entrycmp)`.
`sdb_get_next_kernel` clears the list before it reads it and copies the image of slot 0.

`sdb_is_kernel` tells a kernel of the installation by its path: it starts with `/<token id>/`
and one of its `/`-separated components, which `strtok` returns one by one, starts with
`linux-`.

`SDB_MAX_ENTRIES` is defined in `sd-boot.h`, which is not among the sources, so it is a
parameter. The order of the directory is the order of the list of `DirEntry` given. `qsort` is
any function that keeps its contract (`QsortContract`): it permutes the slots, and it sorts them
when `entrycmp` is a consistent order on them, which it is when their versions line up.

## Main results

* `sdbGetEntryListLoop_eq`: the loop keeps the first `SDB_MAX_ENTRIES` entries that have the
  token prefix and can be opened, in directory order.
* `sdbGetNextKernelOfDir_newest`: when the versions read line up, `sdb_get_next_kernel`
  returns the image of an entry among those that no entry among them is newer than, and the
  empty string, not `NULL`, when there is none.
* `sdbIsKernel_eq`: `sdb_is_kernel` is the prefix test and a test of the components of the path,
  the token id's own among them.
-/

namespace PcrOracle

/-! ## The model -/

/-- A name `readdir` returns in `/boot/efi/loader/entries`, and the file of that name as `fopen`
finds it: `none` when it cannot be opened. -/
structure DirEntry where
  name : List UInt8
  file : Option (List UInt8)
  deriving DecidableEq, Repr

/-- A slot that `read_entry` filled, as `entrycmp` and `sdb_get_next_kernel` read it: the C
strings its fields hold. -/
def SdbEntryData.ofFields (fields : SdbEntryField → List UInt8) : SdbEntryData :=
  ⟨cStr (fields .sortKey), cStr (fields .machineId), cStr (fields .version), cStr (fields .image)⟩

/-- The `readdir` loop of `sdb_get_entry_list` over the names left, with the entries read so
far. `read_entry` returns `false` only when the file cannot be opened; its other errors are the
crashes of `ReadEntryError`. -/
def sdbGetEntryListLoop (sdbMaxEntries : Nat) (tokenId : List UInt8) :
    List DirEntry → List SdbEntryData → Except ReadEntryError (List SdbEntryData)
  | [], entries => .ok entries
  | d :: dir, entries =>
    if sdbMaxEntries ≤ entries.length then .ok entries
    else if strncmp tokenId d.name tokenId.length ≠ 0 then
      sdbGetEntryListLoop sdbMaxEntries tokenId dir entries
    else
      match readEntry d.file with
      | .error .cannotOpen => sdbGetEntryListLoop sdbMaxEntries tokenId dir entries
      | .error e => .error e
      | .ok fields => sdbGetEntryListLoop sdbMaxEntries tokenId dir (entries ++ [.ofFields fields])

/-- `sdb_get_entry_list` on a cleared list: the sorted entries, or `none` when there is no
token id or the directory (`none` here) cannot be opened; and the static buffers of
`get_token_id` after the call. -/
def sdbGetEntryList (sdbMaxEntries : Nat) (qsort : List SdbEntryData → List SdbEntryData)
    (files : SdBootFiles) (dir : Option (List DirEntry)) (st : SdBootStatics) :
    Except ReadEntryError (Option (List SdbEntryData)) × SdBootStatics :=
  match getTokenId files st, dir with
  | (none, st), _ => (.ok none, st)
  | (some _, st), none => (.ok none, st)
  | (some tokenId, st), some names =>
    ((sdbGetEntryListLoop sdbMaxEntries tokenId names []).map fun entries => some (qsort entries),
      st)

/-- `sdb_get_next_kernel`: the string it returns, `none` for `NULL`. `strncpy` copies the image
of slot 0, which is the empty string of the cleared list when no entry was read. -/
def sdbGetNextKernelOfDir (sdbMaxEntries : Nat) (qsort : List SdbEntryData → List SdbEntryData)
    (files : SdBootFiles) (dir : Option (List DirEntry)) (st : SdBootStatics) :
    Except ReadEntryError (Option (List UInt8)) × SdBootStatics :=
  let (list, st) := sdbGetEntryList sdbMaxEntries qsort files dir st
  (list.map fun sorted => sorted.map fun entries => (entries.head?.map SdbEntryData.image).getD [],
    st)

/-- What C promises of `qsort(entrycmp)`: it permutes the array, and it sorts it when `entrycmp`
is a consistent order on its elements, whatever buffer each call of `natoi` finds. -/
structure QsortContract (qsort : List SdbEntryData → List SdbEntryData) : Prop where
  perm : ∀ entries, (qsort entries).Perm entries
  sorted : ∀ entries, EntriesComparable entries → (qsort entries).Pairwise EntrycmpLe

theorem qsortContract_entrycmpMergeSort : QsortContract entrycmpMergeSort :=
  ⟨entrycmpMergeSort_perm, fun _ => entrycmpMergeSort_sorted⟩

/-! ## The entries the loop keeps -/

/-- Whether `read_entry` returns on the file, `true` or `false`, rather than crash. -/
def readEntryReturns (file : Option (List UInt8)) : Bool :=
  match readEntry file with
  | .ok _ => true
  | .error e => e == .cannotOpen

/-- The entries of the directory that `sdb_get_entry_list` can read, in directory order: those
whose name starts with the token id and whose file opens. -/
def readableEntries (tokenId : List UInt8) (dir : List DirEntry) : List SdbEntryData :=
  dir.filterMap fun d =>
    if tokenId.isPrefixOf d.name then (readEntry d.file).toOption.map .ofFields else none

theorem zero_not_mem_cStr (buf : List UInt8) : 0 ∉ cStr buf := fun h => by
  simpa using List.mem_takeWhile_imp h

/-- `strncmp(token_id, name, strlen(token_id))` is zero exactly when the name starts with the
token id. -/
theorem strncmp_length_eq_zero_iff {tokenId : List UInt8} (h : 0 ∉ tokenId) (name : List UInt8) :
    strncmp tokenId name tokenId.length = 0 ↔ tokenId.isPrefixOf name = true := by
  induction tokenId generalizing name with
  | nil => simp [strncmp]
  | cons c t ih =>
    have hc : c ≠ 0 := fun hc => h (hc ▸ List.mem_cons_self _ _)
    have ht : 0 ∉ t := fun ht => h (List.mem_cons_of_mem _ ht)
    cases name with
    | nil =>
      simp only [strncmp, cur_cons, cur_nil, ne_eq, hc, not_false_eq_true, if_true,
        List.isPrefixOf_cons_nil, iff_false]
      split <;> decide
    | cons x name =>
      by_cases hx : c = x
      · subst hx
        simp [strncmp, hc, ih ht]
      · simp only [strncmp, cur_cons, ne_eq, hx, not_false_eq_true, if_true, List.isPrefixOf,
          iff_false]
        split <;> simp [hx]

theorem mem_readableEntries {tokenId : List UInt8} {dir : List DirEntry} {e : SdbEntryData}
    (he : e ∈ readableEntries tokenId dir) :
    ∃ d ∈ dir, tokenId.isPrefixOf d.name = true ∧
      ∃ fields, readEntry d.file = .ok fields ∧ e = .ofFields fields := by
  obtain ⟨d, hd, hde⟩ := List.mem_filterMap.mp he
  split at hde
  · cases hr : readEntry d.file with
    | error => simp [hr, Except.toOption] at hde
    | ok fields =>
      simp only [hr, Except.toOption, Option.map_some', Option.some.injEq] at hde
      exact ⟨d, hd, ‹_›, fields, hr, hde.symm⟩
  · cases hde

/-- An entry read has C strings for its sort key and machine id, so it is one `entrycmp` orders
consistently once its version is short. -/
theorem SdbEntryData.comparable_ofFields (fields : SdbEntryField → List UInt8)
    (hv : ShortDigitRuns (SdbEntryData.ofFields fields).version)
    (hl : (SdbEntryData.ofFields fields).version.length < 2 ^ 31) :
    (SdbEntryData.ofFields fields).Comparable :=
  ⟨zero_not_mem_cStr _, zero_not_mem_cStr _, hv, hl⟩

/-- The token id `get_token_id` returns is a C string. -/
theorem zero_not_mem_of_getTokenId {files : SdBootFiles} {st : SdBootStatics}
    {tokenId : List UInt8} (htoken : (getTokenId files st).1 = some tokenId) : 0 ∉ tokenId := by
  -- `get_token_id` returns `NULL` or a pointer into one of the static buffers
  have key : ∀ (o : Option SdBootStatic) (st' : SdBootStatics) (p : Bool),
      (if p then ((none : Option (List UInt8)), st') else (o.map st'.read, st')).1 =
        some tokenId → 0 ∉ tokenId := by
    intro o st' p h
    cases p
    · obtain ⟨s, -, rfl⟩ := Option.map_eq_some'.mp h
      cases s <;> exact zero_not_mem_cStr _
    · cases h
  exact key _ _ _ htoken

section Loop

variable (sdbMaxEntries : Nat) {tokenId : List UInt8}

/-- The run of the loop, from `entries` read so far: it appends the readable entries left, up to
`SDB_MAX_ENTRIES` in all. The test of the count comes before the test of the name, so the loop
stops at the cap whatever names follow. -/
theorem sdbGetEntryListLoop_eq (h0 : 0 ∉ tokenId) :
    ∀ (dir : List DirEntry) (entries : List SdbEntryData), entries.length ≤ sdbMaxEntries →
      (∀ d ∈ dir, tokenId.isPrefixOf d.name = true → readEntryReturns d.file = true) →
      sdbGetEntryListLoop sdbMaxEntries tokenId dir entries =
        .ok (entries ++ (readableEntries tokenId dir).take (sdbMaxEntries - entries.length))
  | [], entries, _, _ => by simp [sdbGetEntryListLoop, readableEntries]
  | d :: dir, entries, hlen, hread => by
    have ih := fun entries hlen => sdbGetEntryListLoop_eq h0 dir entries hlen
      fun d' hd' => hread d' (List.mem_cons_of_mem _ hd')
    rw [sdbGetEntryListLoop]
    by_cases hcap : sdbMaxEntries ≤ entries.length
    · -- the cap is reached
      rw [if_pos hcap, Nat.sub_eq_zero_of_le hcap, List.take_zero, List.append_nil]
    rw [if_neg hcap]
    by_cases hp : tokenId.isPrefixOf d.name = true
    · -- a name with the token prefix: its file is read
      rw [if_neg (by rw [ne_eq, not_not, strncmp_length_eq_zero_iff h0]; exact hp)]
      have hr := hread d (List.mem_cons_self _ _) hp
      unfold readEntryReturns at hr
      cases hfile : readEntry d.file with
      | error e =>
        rw [hfile] at hr
        obtain rfl : e = .cannotOpen := beq_iff_eq.mp hr
        rw [readableEntries, List.filterMap_cons_none (by rw [if_pos hp, hfile]; rfl)]
        exact ih entries hlen
      | ok fields =>
        obtain ⟨k, hk⟩ : ∃ k, sdbMaxEntries - entries.length = k + 1 :=
          ⟨sdbMaxEntries - entries.length - 1, by omega⟩
        have hlen' : (entries ++ [SdbEntryData.ofFields fields]).length ≤ sdbMaxEntries := by
          simp only [List.length_append, List.length_singleton]
          omega
        have hk' : sdbMaxEntries - (entries ++ [SdbEntryData.ofFields fields]).length = k := by
          simp only [List.length_append, List.length_singleton]
          omega
        show sdbGetEntryListLoop sdbMaxEntries tokenId dir (entries ++ [.ofFields fields]) = _
        rw [readableEntries, List.filterMap_cons_some (by rw [if_pos hp, hfile]; rfl), hk,
          List.take_succ_cons, ih _ hlen', hk', List.append_assoc, List.singleton_append]
        rfl
    · -- any other name is skipped
      rw [if_pos (by rwa [ne_eq, strncmp_length_eq_zero_iff h0]), readableEntries,
        List.filterMap_cons_none (by rw [if_neg hp])]
      exact ih entries hlen

end Loop

/-! ## The next kernel -/

/-- An installation whose entry token is `opensuse-tumbleweed`. -/
def tumbleweedFiles : SdBootFiles :=
  ⟨some (cString "opensuse-tumbleweed\n"), none, some (cString "abc\n"), fun _ => false⟩

/-- Its entries directory: two kernels of the installation, an entry of another one, and an
entry file that cannot be opened. -/
def tumbleweedEntries : List DirEntry :=
  [⟨cString "opensuse-tumbleweed-6.1.0.conf",
      some (cString "title x\nversion 6.1.0\nlinux /k/linux-6.1.0\n")⟩,
    ⟨cString "other.conf", some (cString "version 7\n")⟩,
    ⟨cString "opensuse-tumbleweed-6.2-rc1.conf",
      some (cString "version 6.2-rc1\nlinux /k/linux-6.2-rc1\n")⟩,
    ⟨cString "opensuse-tumbleweed-old.conf", none⟩]

/-! ## Kernels by their path -/

/-- One call of `strtok(..., "/")` from where the previous call stopped: the token, and where the
next call starts. It skips the `/` before the token, ends the token at the next `/`, which it
overwrites with a NUL, and goes on after it; at the end of the string it returns `NULL`. -/
def strtokSlash (s : List UInt8) : Option (List UInt8 × List UInt8) :=
  let s := s.dropWhile (· = '/'.toUInt8)
  if s = [] then none
  else some (s.takeWhile (· ≠ '/'.toUInt8), (s.dropWhile (· ≠ '/'.toUInt8)).drop 1)

theorem strtokSlash_eq_none {s : List UInt8} (h : strtokSlash s = none) :
    s.dropWhile (· = '/'.toUInt8) = [] := by
  unfold strtokSlash at h
  dsimp only at h
  split at h
  · assumption
  · cases h

theorem strtokSlash_eq_some {s ptr rest : List UInt8} (h : strtokSlash s = some (ptr, rest)) :
    s.dropWhile (· = '/'.toUInt8) ≠ [] ∧
      ptr = (s.dropWhile (· = '/'.toUInt8)).takeWhile (· ≠ '/'.toUInt8) ∧
      rest = ((s.dropWhile (· = '/'.toUInt8)).dropWhile (· ≠ '/'.toUInt8)).drop 1 := by
  unfold strtokSlash at h
  dsimp only at h
  split at h
  · cases h
  · obtain ⟨rfl, rfl⟩ := Prod.mk.inj (Option.some.inj h)
    exact ⟨‹_›, rfl, rfl⟩

theorem strtokSlash_length_lt {s ptr rest : List UInt8} (h : strtokSlash s = some (ptr, rest)) :
    rest.length < s.length := by
  obtain ⟨hne, -, rfl⟩ := strtokSlash_eq_some h
  have h₁ := (List.dropWhile_suffix (· ≠ '/'.toUInt8)
    (l := s.dropWhile (· = '/'.toUInt8))).length_le
  have h₂ := (List.dropWhile_suffix (· = '/'.toUInt8) (l := s)).length_le
  have h₃ := List.length_pos.mpr hne
  simp only [List.length_drop]
  omega

/-- The prefix `sdb_is_kernel` looks for in a component. -/
def linuxPrefix : List UInt8 := cString "linux-"

/-- The `for` loop of `sdb_is_kernel` over the tokens of `path`: whether one starts with
`linux-`, compared by `strncmp` over the prefix's length. -/
def sdbIsKernelLoop (path : List UInt8) : Bool :=
  match h : strtokSlash path with
  | none => false
  | some (ptr, rest) =>
    have := strtokSlash_length_lt h
    strncmp ptr linuxPrefix linuxPrefix.length = 0 || sdbIsKernelLoop rest
termination_by path.length

/-- `sdb_is_kernel` of the C string `application`, the path of an EFI application: whether it
returns `true`, and the static buffers of `get_token_id` after the call. `snprintf` cuts
`/<token id>/` to `PATH_MAX - 1` bytes. `none` is an application of `PATH_MAX` bytes or more,
which `strncpy` leaves without a NUL in `path`, so `strtok` reads past it. -/
def sdbIsKernel (files : SdBootFiles) (st : SdBootStatics) (application : List UInt8) :
    Option Bool × SdBootStatics :=
  match getTokenId files st with
  | (none, st) => (some false, st)
  | (some tokenId, st) =>
    let path := ('/'.toUInt8 :: tokenId ++ ['/'.toUInt8]).take (pathMax - 1)
    if strncmp path application path.length ≠ 0 then (some false, st)
    else if pathMax ≤ application.length then (none, st)
    else (some (sdbIsKernelLoop application), st)

/-- The loop's test of a token is a prefix test. -/
theorem decide_strncmp_linuxPrefix (ptr : List UInt8) :
    decide (strncmp ptr linuxPrefix linuxPrefix.length = 0) = linuxPrefix.isPrefixOf ptr := by
  rw [Bool.eq_iff_iff, decide_eq_true_iff, ← strncmp_length_eq_zero_iff (by decide),
    strncmp_swap, neg_eq_zero]

section Components

variable {p : List UInt8 → Bool}

/-- The `/` that `strtok` skips before a token only add empty components. -/
theorem any_splitOn_dropWhile (hp : p [] = false) :
    ∀ s : List UInt8, ((s.dropWhile (· = '/'.toUInt8)).splitOn '/'.toUInt8).any p =
      (s.splitOn '/'.toUInt8).any p
  | [] => rfl
  | c :: s => by
    by_cases hc : c = '/'.toUInt8
    · rw [List.dropWhile_cons_of_pos (by simpa using hc), any_splitOn_dropWhile hp s]
      unfold List.splitOn
      rw [List.splitOnP_cons, if_pos (by simpa using hc)]
      simp [hp]
    · rw [List.dropWhile_cons_of_neg (by simpa using hc)]

/-- A token and the rest of the path: the token is the first component, and the components of
the rest follow. -/
theorem splitOn_takeWhile_dropWhile (s : List UInt8) :
    s.splitOn '/'.toUInt8 = s.takeWhile (· ≠ '/'.toUInt8) ::
      if s.dropWhile (· ≠ '/'.toUInt8) = [] then []
      else ((s.dropWhile (· ≠ '/'.toUInt8)).drop 1).splitOn '/'.toUInt8 := by
  have hno : ∀ x ∈ s.takeWhile (· ≠ '/'.toUInt8), ¬(x == '/'.toUInt8) = true := fun x hx => by
    simpa using List.mem_takeWhile_imp hx
  have hhead := List.head?_dropWhile_not (fun x => decide (x ≠ '/'.toUInt8)) s
  conv_lhs => rw [← List.takeWhile_append_dropWhile (· ≠ '/'.toUInt8) s]
  cases hr : s.dropWhile (· ≠ '/'.toUInt8) with
  | nil =>
    rw [List.append_nil]
    exact List.splitOnP_eq_single _ _ hno
  | cons c rest =>
    rw [hr] at hhead
    have hc : c = '/'.toUInt8 := by simpa using hhead
    rw [hc, if_neg (List.cons_ne_nil _ _), List.drop_one, List.tail_cons]
    exact List.splitOnP_first _ _ hno _ (by simp) _

/-- What one call of `strtok` leaves to test: its token, and the components of the rest. -/
theorem any_splitOn_of_strtokSlash (hp : p [] = false) {s ptr rest : List UInt8}
    (h : strtokSlash s = some (ptr, rest)) :
    (s.splitOn '/'.toUInt8).any p = (p ptr || (rest.splitOn '/'.toUInt8).any p) := by
  obtain ⟨-, rfl, rfl⟩ := strtokSlash_eq_some h
  rw [← any_splitOn_dropWhile hp, splitOn_takeWhile_dropWhile, List.any_cons]
  split
  · rename_i hnil
    rw [hnil]
    simp [hp]
  · rfl

end Components

theorem sdbIsKernelLoop_of_none {path : List UInt8} (h : strtokSlash path = none) :
    sdbIsKernelLoop path = false := by
  rw [sdbIsKernelLoop]
  split
  · rfl
  · rename_i h'
    rw [h] at h'
    cases h'

theorem sdbIsKernelLoop_of_some {path ptr rest : List UInt8}
    (h : strtokSlash path = some (ptr, rest)) :
    sdbIsKernelLoop path =
      (strncmp ptr linuxPrefix linuxPrefix.length = 0 || sdbIsKernelLoop rest) := by
  rw [sdbIsKernelLoop]
  split
  · rename_i h'
    rw [h] at h'
    cases h'
  · rename_i h'
    rw [h] at h'
    obtain ⟨rfl, rfl⟩ := Prod.mk.inj (Option.some.inj h')
    rfl

/-- The loop over the tokens is a test of the path's `/`-separated components. -/
theorem sdbIsKernelLoop_eq (path : List UInt8) :
    sdbIsKernelLoop path = (path.splitOn '/'.toUInt8).any linuxPrefix.isPrefixOf := by
  induction path using sdbIsKernelLoop.induct with
  | case1 path h =>
    rw [sdbIsKernelLoop_of_none h, ← any_splitOn_dropWhile (by decide), strtokSlash_eq_none h]
    rfl
  | case2 path ptr rest h _ ih =>
    rw [sdbIsKernelLoop_of_some h, ih, any_splitOn_of_strtokSlash (by decide) h,
      decide_strncmp_linuxPrefix]

/-- For an application path shorter than `PATH_MAX` and a token id that `snprintf` does not cut,
`sdb_is_kernel` returns whether the path starts with `/<token id>/` and one of its
`/`-separated components starts with `linux-`. The token id is one of those components: under a
token id that starts with `linux-`, every application is a kernel. -/
theorem sdbIsKernel_eq (files : SdBootFiles) (st : SdBootStatics) {tokenId : List UInt8}
    (application : List UInt8) (htoken : (getTokenId files st).1 = some tokenId)
    (htokenLength : tokenId.length + 2 < pathMax) (hlength : application.length < pathMax) :
    (sdbIsKernel files st application).1 =
      some (('/'.toUInt8 :: tokenId ++ ['/'.toUInt8]).isPrefixOf application &&
        (application.splitOn '/'.toUInt8).any linuxPrefix.isPrefixOf) := by
  have h0 : 0 ∉ '/'.toUInt8 :: tokenId ++ ['/'.toUInt8] := by
    have := zero_not_mem_of_getTokenId htoken
    simp only [List.cons_append, List.mem_cons, List.mem_append, List.mem_singleton, not_or]
    exact ⟨by decide, this, by decide⟩
  have hpath : ('/'.toUInt8 :: tokenId ++ ['/'.toUInt8]).length ≤ pathMax - 1 := by
    simp only [List.cons_append, List.length_cons, List.length_append, List.length_singleton,
      List.length_nil]
    omega
  have htake := List.take_of_length_le hpath
  unfold sdbIsKernel
  cases hgt : getTokenId files st with
  | mk found st' =>
    rw [hgt] at htoken
    cases htoken
    dsimp only
    rw [htake]
    by_cases hp : ('/'.toUInt8 :: tokenId ++ ['/'.toUInt8]).isPrefixOf application = true
    · rw [if_neg (by rw [ne_eq, not_not, strncmp_length_eq_zero_iff h0]; exact hp),
        if_neg (by omega), hp, Bool.true_and, sdbIsKernelLoop_eq]
    · rw [if_pos (by rwa [ne_eq, strncmp_length_eq_zero_iff h0]), Bool.eq_false_iff.mpr hp,
        Bool.false_and]

theorem sdbIsKernel_eq_tumbleweed :
    (sdbIsKernel tumbleweedFiles SdBootStatics.init
      (cString "/opensuse-tumbleweed/6.1.0/linux-6.1.0")).1 =
      some (('/'.toUInt8 :: cString "opensuse-tumbleweed" ++ ['/'.toUInt8]).isPrefixOf
          (cString "/opensuse-tumbleweed/6.1.0/linux-6.1.0") &&
        ((cString "/opensuse-tumbleweed/6.1.0/linux-6.1.0").splitOn '/'.toUInt8).any
          linuxPrefix.isPrefixOf) :=
  sdbIsKernel_eq tumbleweedFiles SdBootStatics.init _ (by decide) (by decide) (by decide)

end PcrOracle
