import Mathlib.Data.Int.Notation
import Mathlib.Data.Nat.Notation

/-!
# Errors and work of owned I/O operations

`io::Error` values are kept with their kind and text. The work behind an operation converts a
terminal kernel result, or the error that prevented its submission, to the result of its future.
-/

namespace Nosv.Io

/-- The error kinds that the crate creates by itself. -/
inductive ErrorKind where
  | brokenPipe
  | unsupported
  | invalidInput
  | invalidData
  | unexpectedEof
  | writeZero
  | permissionDenied
  deriving DecidableEq, Repr

/-- An `io::Error`. -/
inductive Error where
  /-- `from_raw_os_error` -/
  | os (errno : ℤ)
  /-- `new` with a text. -/
  | new (kind : ErrorKind) (text : String)
  deriving DecidableEq, Repr

/-- Converts a Linux CQE result into a byte count or its positive errno error. -/
def result (result : ℤ) : Except Error ℕ :=
  if result < 0 then .error (.os (-result)) else .ok result.toNat

/-- The uniform runtime-closure error. -/
def runtimeClosedError : Error :=
  .new .brokenPipe "nOS-V I/O runtime is closed"

/-- Work-specific result conversion. -/
structure OpWork (T : Type) where
  /-- Handles a terminal kernel result. -/
  complete : ℤ → T
  /-- Handles a pre-submission failure. -/
  fail : Error → T

end Nosv.Io
