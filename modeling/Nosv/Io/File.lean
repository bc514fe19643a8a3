import Nosv.Io.Transfer

/-!
# Files

`OpenOptions` builds the flags of `openat` from its own booleans and the caller's custom flags;
`File` remembers only the boolean for append mode. Positioned operations pass the caller's offset
to the SQE, and `append` passes `u64::MAX`, which asks the kernel for the descriptor's cursor.

* `openOn_eq_ok`: with which flags a file was opened;
* `matches_iff`: when `append` is true exactly for a descriptor with `O_APPEND`;
* `matches_fails`: a custom flag that makes it wrong.
-/

namespace Nosv.Io

/-! ## Open flags -/

/-- Bits of an `openat` flag word. -/
abbrev Flags := BitVec 32

def oWronly : Flags := 0o1
def oRdwr : Flags := 0o2
def oRdonly : Flags := 0o0
def oAccmode : Flags := 0o3
def oCreat : Flags := 0o100
def oExcl : Flags := 0o200
def oTrunc : Flags := 0o1000
def oAppend : Flags := 0o2000
def oCloexec : Flags := 0o2000000

/-- All bits of `flag` are set. -/
def Flags.Contains (flags flag : Flags) : Prop := flags &&& flag = flag

instance (flags flag : Flags) : Decidable (flags.Contains flag) :=
  inferInstanceAs (Decidable (_ = _))

/-- Configures file access, creation behavior, Unix mode, and custom flags. -/
structure OpenOptions where
  /-- Whether reads are permitted. -/
  read : Bool
  /-- Whether ordinary writes are permitted. -/
  write : Bool
  /-- Whether writes use append semantics. -/
  append : Bool
  /-- Whether an existing file is truncated. -/
  truncate : Bool
  /-- Whether a missing file is created. -/
  create : Bool
  /-- Whether creation must be exclusive. -/
  createNew : Bool
  /-- Unix permission bits used for creation. -/
  mode : BitVec 32
  /-- Additional caller-provided Unix open flags. -/
  customFlags : Flags
  deriving DecidableEq, Repr

/-- An open file, up to its runtime. -/
structure File where
  /-- The descriptor. -/
  fd : ℤ
  /-- `append`: whether the descriptor was opened with `O_APPEND`. -/
  appendMode : Bool
  deriving DecidableEq, Repr

namespace OpenOptions

variable (options : OpenOptions)

/-- An option set with no access mode enabled. -/
def new : OpenOptions := ⟨false, false, false, false, false, false, 0o666, 0⟩

/-- The access mode that the options ask for. -/
def access : Flags :=
  match options.read, options.write || options.append with
  | true, true => oRdwr
  | true, false => oRdonly
  | false, true => oWronly
  | false, false => oRdonly

/-- The flags that the booleans ask for. -/
def requested : Flags :=
  let flags := options.access ||| oCloexec
  let flags := if options.append then flags ||| oAppend else flags
  let flags := if options.truncate && !options.createNew then flags ||| oTrunc else flags
  let flags := if options.create || options.createNew then flags ||| oCreat else flags
  if options.createNew then flags ||| oExcl else flags

/-- Validates access/creation combinations and constructs Linux open flags. -/
def flags : Except Error (Flags × BitVec 32) :=
  if !options.read && !options.write && !options.append then
    .error (.new .invalidInput "an access mode is required")
  else if (options.truncate || options.create || options.createNew) && !options.write &&
      !options.append then
    .error (.new .invalidInput "truncate and create options require write or append access")
  else
    -- the fourth case of the access match is `unreachable!` behind the first check
    .ok (options.requested ||| (options.customFlags &&& ~~~oAccmode), options.mode)

/-- `open_on`: the path is checked for an interior NUL, and `openat` gives a descriptor. -/
def openOn (path : List UInt8) (answer : Answer ℤ) : Except Error File :=
  match options.flags with
  | .error error => .error error
  | .ok _ =>
    if 0 ∈ path then .error (.new .invalidInput "file path contains an interior NUL byte")
    else
      match answer with
      | .failed error => .error error
      -- The append mode is that of the option, not of the flags the descriptor was opened with.
      | .completed fd => if fd < 0 then .error (.os (-fd)) else .ok ⟨fd, options.append⟩

end OpenOptions

/-! ## Positioned operations -/

/-- `u64::MAX` -/
def u64Max : UInt64 := UInt64.ofNat (2 ^ 64 - 1)

/-- `offset.checked_add(n as u64)` -/
def checkedAdd (offset : UInt64) (n : ℕ) : Option UInt64 :=
  if offset.toNat + n < 2 ^ 64 then some (UInt64.ofNat (offset.toNat + n)) else none

namespace File

variable {B : Type}

/-- One iteration of a positioned loop, up to its operation. -/
def positioned (size : B → ℕ) (offset : UInt64) (buf : B) (done : ℕ) : Except Error (Work B) :=
  match checkedAdd offset done with
  | none => .error (.new .invalidInput "file offset overflow")
  | some fileOffset => workAt size (some fileOffset) buf done

/-- `complete` of a `ReadWork`. -/
def completeRead [IoBufMut B] (item : Work B) (cqe : Received) : Finished B :=
  item.receive "kernel returned an oversized read" cqe

/-- `complete` of a `WriteWork`. -/
def completeWrite (item : Work B) (cqe : ℤ) : Finished B :=
  item.send "kernel returned an oversized write" cqe

/-- The error of a positioned write to a file in append mode. -/
def positionedWriteError : Error :=
  .new .invalidInput "positioned writes are not allowed on append-mode files"

variable (file : File)

/-- Reads from the absolute file offset into the start of the buffer. -/
def readAt [IoBufMut B] (_ : File) (buf : B) (offset : UInt64)
    (answer : Option (Answer Received)) : Progress ℕ B :=
  once (workAt bytesTotal (some offset) buf 0) completeRead buf answer

/-- Reads from the offset until the entire writable allocation is filled. -/
def readExactAt [IoBufMut B] (_ : File) (buf : B) (offset : UInt64)
    (answers : List (Answer Received)) : Progress Unit B :=
  untilDone (bytesTotal buf) (positioned bytesTotal offset) completeRead
    (.new .unexpectedEof "failed to fill whole buffer") answers buf 0

/-- Writes initialized bytes at the absolute file offset. -/
def writeAt [IoBuf B] (buf : B) (offset : UInt64) (answer : Option (Answer ℤ)) : Progress ℕ B :=
  if file.appendMode then ⟨[], [], some (.error positionedWriteError, buf)⟩
  else once (workAt bytesInit (some offset) buf 0) completeWrite buf answer

/-- Writes the entire initialized prefix starting at the offset. -/
def writeAllAt [IoBuf B] (buf : B) (offset : UInt64) (answers : List (Answer ℤ)) :
    Progress Unit B :=
  if file.appendMode then ⟨[], [], some (.error positionedWriteError, buf)⟩
  else
    untilDone (bytesInit buf) (positioned bytesInit offset) completeWrite
      (.new .writeZero "failed to write buffer") answers buf 0

/-- Performs one append-mode write from the initialized prefix. -/
def append [IoBuf B] (buf : B) (answer : Option (Answer ℤ)) : Progress ℕ B :=
  if !file.appendMode then
    ⟨[], [], some (.error (.new .invalidInput "append requires a file opened in append mode"), buf)⟩
  else once (workAt bytesInit (some u64Max) buf 0) completeWrite buf answer

end File

/-! ## The append mode of a file -/

section Bits

variable {f g m : Flags}

/-- What is set in one of two words is set in their union. -/
theorem Flags.Contains.or (h : f.Contains m) : Flags.Contains (f ||| g) m := by
  unfold Flags.Contains at h ⊢
  rw [BitVec.and_or_distrib_right, h]
  refine BitVec.eq_of_getElem_eq fun i hi => ?_
  rw [BitVec.getElem_or, BitVec.getElem_and]
  cases m[i] <;> simp

/-- A word from which the bits of a mask are cleared adds nothing to them. -/
theorem or_cleared_and : (f ||| (g &&& ~~~m)) &&& m = f &&& m := by
  refine BitVec.eq_of_getElem_eq fun i hi => ?_
  rw [BitVec.getElem_and, BitVec.getElem_or, BitVec.getElem_and, BitVec.getElem_not,
    BitVec.getElem_and]
  cases m[i] <;> simp

end Bits

namespace OpenOptions

variable {options : OpenOptions} {f : Flags} {mode : BitVec 32}

/-- The flags that a valid set of options gives. -/
theorem flags_eq_ok (h : options.flags = .ok (f, mode)) :
    f = (options.requested ||| (options.customFlags &&& ~~~oAccmode)) := by
  unfold flags at h
  split_ifs at h
  cases h
  rfl

/-- The booleans set the access mode that they ask for, and `O_CLOEXEC`. -/
theorem requested_access :
    options.requested &&& oAccmode = options.access ∧ options.requested.Contains oCloexec := by
  -- Mode and custom flags do not enter, so the 64 combinations of the booleans are all there is.
  have hall : ∀ read write append truncate create createNew : Bool,
      let options : OpenOptions := ⟨read, write, append, truncate, create, createNew, 0, 0⟩
      options.requested &&& oAccmode = options.access ∧ options.requested.Contains oCloexec := by
    decide
  exact hall options.read options.write options.append options.truncate options.create
    options.createNew

/-- The requested flags have `O_APPEND` for append access only. -/
theorem requested_append :
    options.requested &&& oAppend = if options.append then oAppend else 0 := by
  have hall : ∀ read write append truncate create createNew : Bool,
      let options : OpenOptions := ⟨read, write, append, truncate, create, createNew, 0, 0⟩
      options.requested &&& oAppend = if options.append then oAppend else 0 := by
    decide
  exact hall options.read options.write options.append options.truncate options.create
    options.createNew

/-- The flags have `O_APPEND` when the options ask for it, by one name or the other. -/
theorem flags_append (h : options.flags = .ok (f, mode)) :
    f.Contains oAppend ↔ options.append = true ∨ options.customFlags.Contains oAppend := by
  have hcustom : options.customFlags &&& ~~~oAccmode &&& oAppend =
      options.customFlags &&& oAppend := by
    rw [BitVec.and_assoc]
    rfl
  rw [flags_eq_ok h, Flags.Contains, BitVec.and_or_distrib_right, requested_append, hcustom]
  cases options.append with
  | true =>
    refine iff_of_true ?_ (.inl rfl)
    refine BitVec.eq_of_getElem_eq fun i hi => ?_
    rw [if_pos rfl, BitVec.getElem_or, BitVec.getElem_and]
    cases oAppend[i] <;> simp
  | false => simp [Flags.Contains]

/-- The file that opening gives. -/
theorem openOn_eq_ok {path : List UInt8} {answer : Answer ℤ} {file : File}
    (h : options.openOn path answer = .ok file) : file.appendMode = options.append := by
  unfold openOn at h
  split at h
  · cases h
  · split_ifs at h
    split at h
    · cases h
    · split_ifs at h
      cases h
      rfl

/-- The flags `f` and every file opened with them agree with the options, and with the checks of
positioned and of appending writes. -/
structure Matches (options : OpenOptions) (f : Flags) : Prop where
  access : f &&& oAccmode = options.access
  cloexec : f.Contains oCloexec
  append : ∀ path answer file, options.openOn path answer = .ok file →
    (file.appendMode = true ↔ f.Contains oAppend)
  /-- No positioned write reaches the kernel through a descriptor with `O_APPEND`. -/
  positioned : ∀ path answer file, options.openOn path answer = .ok file → f.Contains oAppend →
    ∀ (B : Type) [IoBuf B] (buf : B) (offset : UInt64),
      (∀ answer, (file.writeAt buf offset answer).sqes = []) ∧
        ∀ answers, (file.writeAllAt buf offset answers).sqes = []
  /-- No appending write reaches the kernel through any other descriptor. -/
  appending : ∀ path answer file, options.openOn path answer = .ok file → ¬f.Contains oAppend →
    ∀ (B : Type) [IoBuf B] (buf : B) answer, (file.append buf answer).sqes = []

/-- Access mode and `O_CLOEXEC` are as asked for whatever the custom flags contain; the mode that
the file remembers is that of its descriptor exactly when `O_APPEND` is not asked for by custom
flags alone. -/
theorem matches_iff (options : OpenOptions) (f : Flags) (mode : BitVec 32)
    (h : options.flags = .ok (f, mode)) :
    (f &&& oAccmode = options.access ∧ f.Contains oCloexec) ∧
      (options.Matches f ↔ options.append = true ∨ ¬options.customFlags.Contains oAppend) := by
  have haccess : f &&& oAccmode = options.access := by
    rw [flags_eq_ok h, or_cleared_and]
    exact requested_access.1
  have hcloexec : f.Contains oCloexec := by
    rw [flags_eq_ok h]
    exact requested_access.2.or
  refine ⟨⟨haccess, hcloexec⟩, fun hmatches => ?_, fun hcond => ?_⟩
  · -- any successful open shows the mismatch
    have hopen : options.openOn [97] (.completed 3) = .ok ⟨3, options.append⟩ := by
      unfold openOn
      rw [h]
      rfl
    have happend := hmatches.append _ _ _ hopen
    rw [flags_append h] at happend
    by_cases hcustom : options.customFlags.Contains oAppend
    · exact .inl (happend.mpr (.inr hcustom))
    · exact .inr hcustom
  · have hsame : options.append = true ↔ f.Contains oAppend := by
      rw [flags_append h]
      exact ⟨.inl, fun hor => hor.elim id fun hcustom => hcond.resolve_right (not_not.mpr hcustom)⟩
    refine ⟨haccess, hcloexec, fun path answer file hopen => ?_, ?_, ?_⟩
    · -- Whatever is opened remembers the option, and the condition says that the flag is the
      -- option.
      rw [openOn_eq_ok hopen]
      exact hsame
    · intro path answer file hopen hcontains B _ buf offset
      have hmode : file.appendMode = true := (openOn_eq_ok hopen).trans (hsame.mpr hcontains)
      simp [File.writeAt, File.writeAllAt, hmode]
    · intro path answer file hopen hnot B _ buf answer
      have hmode : file.appendMode = false := by
        rw [openOn_eq_ok hopen]
        exact Bool.eq_false_iff.mpr fun happend => hnot (hsame.mp happend)
      simp [File.append, hmode]

/-- Write access with `O_APPEND` among the custom flags. -/
def customAppend : OpenOptions := { new with write := true, customFlags := oAppend }

/-- The file opened so takes positioned writes, and its descriptor appends. -/
theorem matches_fails :
    ¬∀ (options : OpenOptions) (f : Flags) (mode : BitVec 32), options.flags = .ok (f, mode) →
      options.Matches f := by
  intro hall
  have hmatches := hall customAppend (oWronly ||| oCloexec ||| oAppend) 0o666 rfl
  have happend := hmatches.append [97] (.completed 3) ⟨3, false⟩ rfl
  exact absurd (happend.mpr rfl) (by decide)

/-- Append access with the same custom flags. -/
theorem matches_iff_append : ({ customAppend with append := true } : OpenOptions).Matches
    (oWronly ||| oCloexec ||| oAppend) :=
  (matches_iff { customAppend with append := true } _ 0o666 rfl).2.mpr (.inl rfl)

end OpenOptions

end Nosv.Io
