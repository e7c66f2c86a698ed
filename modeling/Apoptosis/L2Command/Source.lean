/-!
# Who runs a command (`command/src/source.rs`)
-/
namespace Apoptosis.L2.Command

/-- mirrors crates/command/src/source.rs:35-46 (`PermissionLevel`) -/
inductive PermissionLevel
  | all
  | bypassSpawnProtection
  | operator
  | administrator
  | console
  deriving DecidableEq, Repr

namespace PermissionLevel

/-- mirrors crates/command/src/source.rs:51-59 (`PermissionLevel::level`) -/
def level : PermissionLevel → Nat
  | .all => 0
  | .bypassSpawnProtection => 1
  | .operator => 2
  | .administrator => 3
  | .console => 4

/-- mirrors crates/command/src/source.rs:63-72 (`PermissionLevel::from_level`) -/
def fromLevel : Nat → Option PermissionLevel
  | 0 => some .all
  | 1 => some .bypassSpawnProtection
  | 2 => some .operator
  | 3 => some .administrator
  | 4 => some .console
  | _ => none

theorem fromLevel_level (p : PermissionLevel) : fromLevel p.level = some p := by
  cases p <;> rfl

theorem level_le (p : PermissionLevel) : p.level ≤ 4 := by
  cases p <;> decide

end PermissionLevel

/-- mirrors crates/command/src/source.rs:95-102 (`SourceKind`) -/
inductive SourceKind
  | player
  | console
  | commandBlock
  deriving DecidableEq, Repr

/-- mirrors crates/command/src/source.rs:122-129 (`SourcePosition`), over the numbers `F` -/
structure SourcePosition (F : Type) where
  x : F
  y : F
  z : F

/-- mirrors crates/command/src/source.rs:163-180 (`CommandSource`), without the rotation and the
anchor -/
structure CommandSource (F : Type) where
  kind : SourceKind
  name : List Char
  permission : PermissionLevel
  position : SourcePosition F
  dimension : String

namespace CommandSource

variable {F : Type}

/-- mirrors crates/command/src/source.rs:217-220 (`with_permission`) -/
def withPermission (source : CommandSource F) (permission : PermissionLevel) : CommandSource F :=
  { source with permission }

/-- mirrors crates/command/src/source.rs:232-234 (`may_use`) -/
def mayUse (source : CommandSource F) (required : PermissionLevel) : Bool :=
  required.level ≤ source.permission.level

end CommandSource

end Apoptosis.L2.Command
