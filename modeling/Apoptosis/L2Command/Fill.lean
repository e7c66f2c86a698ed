import Apoptosis.L2Command.Dispatch
import Apoptosis.L2World.Loading
/-!
# `/fill` (`server/src/commands.rs`)

The command as the source runs it: the region, its bounds, the chunks under it
and the loop that writes it. Arithmetic that leaves its type is `none`.
-/
namespace Apoptosis.L2.Commands

open Apoptosis.Core
open Apoptosis.L2.Storage (ResourceId ChunkPos)
open Apoptosis.L2.Terrain (Chunk ChunkSource Game chunkOf)

/-- mirrors crates/server/src/commands.rs:118 (`MAX_FILL_VOLUME`) -/
def MAX_FILL_VOLUME : Int := 32768

/-- mirrors crates/server/src/commands.rs:165 (`MAX_FILL_CHUNKS`) -/
def MAX_FILL_CHUNKS : Int := 64

/-- A result that has to fit its type. -/
def fits (bits : Nat) (value : Int) : Option Int :=
  if -2 ^ (bits - 1) ≤ value ∧ value < 2 ^ (bits - 1) then some value else none

/-- The `i32` extent of crates/server/src/commands.rs:130, step by step. -/
def extent (min max : Int) : Option Int := do
  let difference ← fits 32 (max - min)
  fits 32 (difference + 1)

/-- mirrors crates/server/src/commands.rs:129-131 (`fill_volume`) -/
def fillVolume (minX maxX minY maxY minZ maxZ : Int) : Option Int := do
  let width ← extent minX maxX
  let height ← extent minY maxY
  let depth ← extent minZ maxZ
  let side ← fits 64 (width * height)
  fits 64 (side * depth)

/-- mirrors crates/server/src/commands.rs:135-137 (`fill_volume_accepted`) -/
def fillVolumeAccepted (volume : Int) : Bool := volume ≤ MAX_FILL_VOLUME

/-- mirrors crates/server/src/commands.rs:148-152 (`fill_chunk_span`) -/
def fillChunkSpan (minX maxX minZ maxZ : Int) : Option Int := do
  let width ← extent (minX / 16) (maxX / 16)
  let depth ← extent (minZ / 16) (maxZ / 16)
  fits 64 (width * depth)

/-- mirrors crates/server/src/commands.rs:168-170 (`fill_chunk_span_accepted`) -/
def fillChunkSpanAccepted (chunks : Int) : Bool := chunks ≤ MAX_FILL_CHUNKS

/-! ## One cell -/

/-- mirrors crates/server/src/commands.rs:2519-2526 (`BlockWriteMode`) -/
inductive BlockWriteMode
  | replace
  | keep
  | destroy
  deriving DecidableEq, Repr

/-- Why a cell is not written: the texts of crates/server/src/commands.rs:2576-2580 and 2591. -/
inductive WriteRefusal
  | unreadable (x y z : Int) (chunk : ChunkPos)
  | failed (error : ServerError)
  deriving DecidableEq, Repr

namespace BlockWriteMode

/-- mirrors crates/server/src/commands.rs:2529-2536 (`BlockWriteMode::parse`) -/
def parse (word : List Char) : Option BlockWriteMode :=
  if word = "replace".toList then some .replace
  else if word = "keep".toList then some .keep
  else if word = "destroy".toList then some .destroy
  else none

/-- mirrors crates/server/src/commands.rs:2572-2592 (`BlockWriteMode::apply`) -/
def apply (source : ChunkSource) (mode : BlockWriteMode) (game : Game) (x y z state : Int) :
    Except WriteRefusal Bool × Game :=
  let chunk := chunkOf x z
  let game := game.loadOrCreateChunk source chunk
  if game.chunkIsUnreadable chunk then (.error (.unreadable x y z chunk), game)
  else
    let current := game.world.getBlockLoaded x y z
    if mode = .keep && current.any (· ≠ 0) then (.ok false, game)
    else
      match game.world.setBlock x y z state with
      | (.ok change, world) => (.ok change.isSome, { game with world })
      | (.error error, world) => (.error (.failed error), { game with world })

end BlockWriteMode

/-! ## The region -/

/-- What the arguments ask for: two corners, ordered on every axis, a block and a mode. -/
structure FillTarget where
  minX : I32
  minY : I32
  minZ : I32
  maxX : I32
  maxY : I32
  maxZ : I32
  block : ResourceId
  mode : BlockWriteMode
  orderedX : minX.val ≤ maxX.val
  orderedY : minY.val ≤ maxY.val
  orderedZ : minZ.val ≤ maxZ.val

/-- The replies of crates/server/src/commands.rs:2281-2375. -/
inductive FillReply
  | usage
  | unknownMode
  | tooManyBlocks (volume : Int)
  | tooManyChunks (chunks : Int)
  | unknownBlock (name : String)
  | outsideBuildRange
  | unreadableChunk (chunk : ChunkPos)
  | stopped (changed : Nat) (reason : WriteRefusal)
  | filled (changed : Nat) (volume : Int)
  deriving DecidableEq, Repr

/-- mirrors crates/command/src/argument.rs:200-205 (`as_str`) -/
def ArgumentValue.asStr {F : Type} : ArgumentValue F → Option (List Char)
  | .string text => some text
  | _ => none

/-- mirrors crates/command/src/argument.rs:236-241 (`as_resource`) -/
def ArgumentValue.asResource {F : Type} : ArgumentValue F → Option ResourceId
  | .resource id => some id
  | _ => none

/-- mirrors crates/command/src/dispatch.rs:55-57 (`ParsedCommand::argument`) -/
def ParsedCommand.argument {F : Type} (parsed : ParsedCommand F) (index : Nat) :
    Option (ArgumentValue F) :=
  parsed.arguments[index]?

/-- mirrors crates/command/src/dispatch.rs:61-63 (`ParsedCommand::string`) -/
def ParsedCommand.string {F : Type} (parsed : ParsedCommand F) (index : Nat) : Option (List Char) :=
  (parsed.argument index).bind ArgumentValue.asStr

/-- mirrors crates/server/src/commands.rs:2282-2316 (`command_fill`, the arguments); `base` is the
source's block position, or the origin -/
def fillTarget {F : Type} (base : I32 × I32 × I32) (parsed : ParsedCommand F) :
    Except FillReply FillTarget :=
  match parsed.argument 0, parsed.argument 1,
    (parsed.argument 2).bind ArgumentValue.asResource with
  | some (.blockPos x0 y0 z0), some (.blockPos x1 y1 z1), some block =>
    match BlockWriteMode.parse ((parsed.string 3).getD "replace".toList) with
    | none => .error .unknownMode
    | some mode =>
      let (ax, ay, az) := (x0.resolve base.1, y0.resolve base.2.1, z0.resolve base.2.2)
      let (bx, by', bz) := (x1.resolve base.1, y1.resolve base.2.1, z1.resolve base.2.2)
      .ok ⟨min ax bx, min ay by', min az bz, max ax bx, max ay by', max az bz, block, mode,
        min_le_max, min_le_max, min_le_max⟩
  | _, _, _ => .error .usage

namespace FillTarget

/-- `min..=max` -/
def inclusive (min max : Int) : List Int := (List.range (max - min + 1).toNat).map fun (i : Nat) => min + i

/-- The cells of the region, in the order of the loop. -/
def cells (t : FillTarget) : List (Int × Int × Int) :=
  (inclusive t.minY.val t.maxY.val).flatMap fun y => (inclusive t.minZ.val t.maxZ.val).flatMap fun z =>
    (inclusive t.minX.val t.maxX.val).map fun x => (x, y, z)

/-- The chunks under the region, in the order they are looked at. -/
def chunks (t : FillTarget) : List ChunkPos :=
  (inclusive (t.minZ.val / 16) (t.maxZ.val / 16)).flatMap fun cz =>
    (inclusive (t.minX.val / 16) (t.maxX.val / 16)).map fun cx => ⟨cx, cz⟩

end FillTarget

/-- mirrors crates/server/src/commands.rs:2250-2267 (`first_unreadable_chunk_in`) -/
def firstUnreadableChunkIn (source : ChunkSource) : List ChunkPos → Game → Option ChunkPos × Game
  | [], game => (none, game)
  | chunk :: chunks, game =>
    let game := game.loadOrCreateChunk source chunk
    if game.chunkIsUnreadable chunk then (some chunk, game)
    else firstUnreadableChunkIn source chunks game

/-- mirrors crates/server/src/commands.rs:2349-2374 (`command_fill`, the loop); the count never
exceeds the volume -/
def fillLoop (source : ChunkSource) (mode : BlockWriteMode) (state volume : Int) :
    List (Int × Int × Int) → Nat → Game → FillReply × Game
  | [], changed, game => (.filled changed volume, game)
  | (x, y, z) :: cells, changed, game =>
    match mode.apply source game x y z state with
    | (.ok true, game) => fillLoop source mode state volume cells (changed + 1) game
    | (.ok false, game) => fillLoop source mode state volume cells changed game
    | (.error reason, game) => (.stopped changed reason, game)

/-- mirrors crates/server/src/commands.rs:2317-2375 (`command_fill`, after the arguments) -/
def FillTarget.run (source : ChunkSource) (t : FillTarget) (game : Game) : Option (FillReply × Game) := do
  let volume ← fillVolume t.minX.val t.maxX.val t.minY.val t.maxY.val t.minZ.val t.maxZ.val
  if !fillVolumeAccepted volume then return (.tooManyBlocks volume, game)
  let chunks ← fillChunkSpan t.minX.val t.maxX.val t.minZ.val t.maxZ.val
  if !fillChunkSpanAccepted chunks then return (.tooManyChunks chunks, game)
  match game.world.registry.defaultState t.block.text.toList with
  | none => return (.unknownBlock t.block.text, game)
  | some state =>
    if !game.inBuildRange t.minY.val || !game.inBuildRange t.maxY.val then
      return (.outsideBuildRange, game)
    match firstUnreadableChunkIn source t.chunks game with
    | (some chunk, game) => return (.unreadableChunk chunk, game)
    | (none, game) => return fillLoop source t.mode state volume t.cells 0 game

/-- mirrors crates/server/src/commands.rs:2281-2375 (`command_fill`) -/
def commandFill {F : Type} (source : ChunkSource) (base : I32 × I32 × I32) (parsed : ParsedCommand F)
    (game : Game) : Option (FillReply × Game) :=
  match fillTarget base parsed with
  | .error reply => some (reply, game)
  | .ok t => t.run source game

end Apoptosis.L2.Commands
