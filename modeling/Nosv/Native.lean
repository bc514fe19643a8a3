import Mathlib.Data.Int.Notation
import Mathlib.Data.Nat.Notation

/-!
# The native interface

Error codes and descriptors of nOS-V, as far as the Rust side looks at them.
-/

namespace Nosv

/-- A documented native error, or a code preserved without loss. -/
inductive NativeError where
  | invalidCallback
  | invalidMetadataSize
  | invalidOperation
  | invalidParameter
  | notInitialized
  | outOfMemory
  | outsideTask
  | busy
  | timeout
  | unknown (code : ℤ)
  deriving DecidableEq, Repr

/-- A native task descriptor. -/
abbrev RawTask := ℕ

/-- What `getpid` returns. -/
abbrev Pid := ℕ

/-- Status of a native call that returns no value. -/
abbrev Status := Except NativeError Unit

end Nosv
