import Apoptosis.Core.I32
import Apoptosis.Core.Scalar
/-!
# Players (`entity/src/player.rs`)

The fields that hunger, health and experience are kept in. Fractions are exact;
`experience` is read from save files with no check and may be no finite number.
-/
namespace Apoptosis.L2.Entities
open Apoptosis.Core

/-- mirrors crates/entity/src/player.rs:193-203 (`GameMode`) -/
inductive GameMode
  | survival
  | creative
  | adventure
  | spectator
  deriving DecidableEq, Repr

/-- mirrors crates/entity/src/player.rs:334-372 (`Player`) -/
structure Player where
  gameMode : GameMode
  health : ℚ
  food : Int
  saturation : ℚ
  exhaustion : ℚ
  /-- Progress towards the next level (`XpP`). -/
  experience : Scalar
  level : I32
  totalExperience : I32
  deriving DecidableEq

end Apoptosis.L2.Entities
