/-!
# The workspace error type (`core/src/error.rs`)

Every fallible function of the workspace returns a `ServerResult`. The texts
are the source's own, with the numbers formatted in.
-/
namespace Apoptosis

/-- mirrors crates/core/src/error.rs:19-50 (`ServerError`) -/
inductive ServerError where
  | protocol (msg : String)
  | invalidAction (msg : String)
  | operational (msg : String)
  | corruptData (msg : String)
  | invariant (msg : String)
  | shutdown
  deriving DecidableEq, Repr

abbrev ServerResult (α : Type) := Except ServerError α

end Apoptosis
