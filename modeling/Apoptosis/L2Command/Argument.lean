import Apoptosis.Core.I32
import Apoptosis.Core.Words
import Apoptosis.L2Data.LootTable
/-!
# The arguments of a command (`command/src/argument.rs`)

The tokens of a command text, and what one argument makes of a token. Floating
point numbers are the parameter `F`: only their reading and their order matter.

* `isWord_of_parseAxis`: a coordinate is one word.
* `parseBlockPos_joinSpaces`: tokens that are words are a block position when each
  is a coordinate.
-/
namespace Apoptosis.L2.Commands

open Apoptosis.Core
open Apoptosis.L2.Storage (ResourceId)

/-- What the arguments use of `f64`: `FromStr`, `is_finite` and `<`. -/
class Float64 (F : Type) where
  parse : List Char → Option F
  isFinite : F → Bool
  lt : F → F → Bool

/-- `FromStr` of `i64`. -/
def parseI64 (text : List Char) : Option Int := parseInt (-2 ^ 63) (2 ^ 63 - 1) text

/-- `FromStr` of `i32`. -/
def parseI32 (text : List Char) : Option I32 := (parseInt (-2 ^ 31) (2 ^ 31 - 1) text).map I32.clamp

/-- mirrors crates/command/src/lib.rs:71 (`MAX_COMMAND_CHARS`) -/
def MAX_COMMAND_CHARS : Nat := 32500

/-- mirrors crates/command/src/argument.rs:21-64 (`ParseError`) -/
inductive ParseError
  | missingArgument (name : String)
  | invalid (name expected : String) (found : List Char)
  | outOfRange (name : String) (value min max : Int)
  | unterminatedQuote
  | tooLong (length limit : Nat)
  | empty
  deriving DecidableEq, Repr

/-- mirrors crates/command/src/argument.rs:68-73 (`ValueRange`) -/
structure ValueRange where
  min : Int
  max : Int
  deriving DecidableEq, Repr

/-- mirrors crates/command/src/argument.rs:93-95 (`ValueRange::contains`) -/
def ValueRange.contains (range : ValueRange) (value : Int) : Bool :=
  value ≥ range.min && value ≤ range.max

/-- mirrors crates/command/src/argument.rs:99-101 (`ValueRange::is_valid`) -/
def ValueRange.isValid (range : ValueRange) : Bool := range.min ≤ range.max

/-- mirrors crates/command/src/argument.rs:113-140 (`ArgumentKind`) -/
inductive ArgumentKind (F : Type)
  | word
  | greedyString
  | integer (range : ValueRange)
  | long (range : ValueRange)
  | double (min max : F)
  | bool
  | resource
  | blockPos
  | playerName

/-- mirrors crates/command/src/argument.rs:469-474 (`Coordinate`) -/
structure Coordinate where
  value : I32
  relative : Bool
  deriving DecidableEq

/-- mirrors crates/command/src/argument.rs:171-195 (`ArgumentValue`) -/
inductive ArgumentValue (F : Type)
  | string (text : List Char)
  | integer (value : Int)
  | double (value : F)
  | bool (value : Bool)
  | resource (id : ResourceId)
  | blockPos (x y z : Coordinate)

/-- mirrors crates/command/src/argument.rs:261-271 (`Argument`) -/
structure Argument (F : Type) where
  name : String
  kind : ArgumentKind F
  optional : Bool

variable {F : Type}

namespace ArgumentKind

/-- mirrors crates/command/src/argument.rs:148-150 (`ArgumentKind::is_greedy`) -/
def isGreedy : ArgumentKind F → Bool
  | .greedyString => true
  | _ => false

/-- The `matches!` of crates/command/src/dispatch.rs:251 and crates/command/src/tree.rs:133-138. -/
def isBlockPos : ArgumentKind F → Bool
  | .blockPos => true
  | _ => false

/-- mirrors crates/command/src/argument.rs:154-166 (`ArgumentKind::expected`) -/
def expected : ArgumentKind F → String
  | .word => "a word"
  | .greedyString => "text"
  | .integer _ | .long _ => "an integer"
  | .double .. => "a number"
  | .bool => "true or false"
  | .resource => "a resource id"
  | .blockPos => "block coordinates"
  | .playerName => "a player name"

end ArgumentKind

/-! ## Tokens -/

/-- mirrors crates/command/src/argument.rs:337-379 (`tokenize`, the loop and what follows it);
`none` where the text ends inside quotes. The source takes a backslash and the character after it
in one step; here they are two, with `escaped` between them, and a backslash with nothing after it
is kept at the end. -/
def scan (inQuotes escaped hasToken : Bool) (current : List Char) :
    List Char → Option (List (List Char))
  | [] =>
    if inQuotes then none
    else some (if hasToken then [if escaped then current ++ ['\\'] else current] else [])
  | c :: rest =>
    if escaped then scan inQuotes false true (current ++ [c]) rest
    else if c = '\\' then scan inQuotes true true current rest
    else if c = '"' then scan (!inQuotes) false true current rest
    else if isWhitespace c && !inQuotes then
      if hasToken then (scan inQuotes false false [] rest).map (current :: ·)
      else scan inQuotes false false current rest
    else scan inQuotes false true (current ++ [c]) rest

/-- mirrors crates/command/src/argument.rs:328-384 (`tokenize`) -/
def tokenize (input : List Char) : Except ParseError (List (List Char)) :=
  if input.length > MAX_COMMAND_CHARS then .error (.tooLong input.length MAX_COMMAND_CHARS)
  else
    match scan false false false [] input with
    | none => .error .unterminatedQuote
    | some [] => .error .empty
    | some tokens => .ok tokens

/-- mirrors crates/command/src/argument.rs:556-563 (`truncate`) -/
def truncate (text : List Char) (limit : Nat) : List Char :=
  if text.length ≤ limit then text else text.take limit ++ ['…']

/-- mirrors crates/command/src/argument.rs:571-580 (`split_root`) -/
def splitRoot (input : List Char) : List Char × List Char :=
  let trimmed :=
    match trimStart input with
    | '/' :: rest => rest
    | text => text
  match splitOnceWhitespace trimmed with
  | some (root, rest) => (root, trimStart rest)
  | none => (trimmed, [])

/-! ## Values -/

/-- mirrors crates/command/src/argument.rs:479-484 (`Coordinate::absolute`) -/
def Coordinate.absolute (value : I32) : Coordinate := ⟨value, false⟩

/-- mirrors crates/command/src/argument.rs:488-493 (`Coordinate::relative`) -/
def Coordinate.offset (value : I32) : Coordinate := ⟨value, true⟩

/-- mirrors crates/command/src/argument.rs:500-506 (`Coordinate::resolve`) -/
def Coordinate.resolve (c : Coordinate) (base : I32) : I32 :=
  if c.relative then I32.saturatingAdd base c.value else c.value

/-- mirrors crates/command/src/argument.rs:510-524 (`parse_axis`) -/
def parseAxis : List Char → Option Coordinate
  | ['~'] => some (.offset I32.zero)
  | '~' :: text => (parseI32 text).map .offset
  | text => (parseI32 text).map .absolute

/-- mirrors crates/command/src/argument.rs:531-553 (`parse_block_pos`) -/
def parseBlockPos (argument : Argument F) (token : List Char) :
    Except ParseError (ArgumentValue F) :=
  let invalid := ParseError.invalid argument.name "block coordinates" (truncate token 32)
  match splitWhitespace token with
  | [x, y, z] =>
    match parseAxis x, parseAxis y, parseAxis z with
    | some x, some y, some z => .ok (.blockPos x y z)
    | _, _, _ => .error invalid
  | _ => .error invalid

/-- mirrors crates/command/src/argument.rs:391-460 (`parse_value`) -/
def parseValue [Float64 F] (argument : Argument F) (token : List Char) :
    Except ParseError (ArgumentValue F) :=
  let invalid := ParseError.invalid argument.name argument.kind.expected (truncate token 32)
  match argument.kind with
  | .word | .greedyString | .playerName => if token = [] then .error invalid else .ok (.string token)
  | .integer range =>
    match parseI64 token with
    | none => .error invalid
    | some value =>
      if !range.contains value then .error (.outOfRange argument.name value range.min range.max)
      else if value < -2 ^ 31 ∨ value > 2 ^ 31 - 1 then
        .error (.outOfRange argument.name value (-2 ^ 31) (2 ^ 31 - 1))
      else .ok (.integer value)
  | .long range =>
    match parseI64 token with
    | none => .error invalid
    | some value =>
      if !range.contains value then .error (.outOfRange argument.name value range.min range.max)
      else .ok (.integer value)
  | .double min max =>
    match Float64.parse token with
    | none => .error invalid
    | some value =>
      if !Float64.isFinite value || Float64.lt value min || Float64.lt max value then .error invalid
      else .ok (.double value)
  | .bool =>
    if token = "true".toList then .ok (.bool true)
    else if token = "false".toList then .ok (.bool false)
    else .error invalid
  | .resource =>
    match ResourceId.parse (String.ofList token) with
    | none => .error invalid
    | some id => .ok (.resource id)
  | .blockPos => parseBlockPos argument token

/-! ## Block positions -/

theorem isWord_of_parseInt {lo hi n : Int} {text : List Char} (h : parseInt lo hi text = some n) :
    IsWord text := by
  obtain ⟨hne, hdigits, -⟩ := parseInt_eq_some_iff.mp h
  have hblank : ∀ c ∈ (signed text).2, isWhitespace c = false := fun c hc =>
    isWhitespace_of_isDigit (hdigits c hc)
  revert hne hblank
  unfold signed
  split
  · exact fun _ h => ⟨List.cons_ne_nil _ _, List.forall_mem_cons.mpr ⟨by decide, h⟩⟩
  · exact fun _ h => ⟨List.cons_ne_nil _ _, List.forall_mem_cons.mpr ⟨by decide, h⟩⟩
  · exact fun hne h => ⟨hne, h⟩

theorem isWord_of_parseI32 {text : List Char} {n : I32} (h : parseI32 text = some n) :
    IsWord text := by
  obtain ⟨m, hm, -⟩ := Option.map_eq_some_iff.mp h
  exact isWord_of_parseInt hm

/-- A coordinate is one word. -/
theorem isWord_of_parseAxis {text : List Char} {c : Coordinate} (h : parseAxis text = some c) :
    IsWord text := by
  rw [parseAxis.eq_def] at h
  split at h
  · exact ⟨List.cons_ne_nil _ _, by simpa using by decide⟩
  · obtain ⟨n, hn, -⟩ := Option.map_eq_some_iff.mp h
    exact ⟨List.cons_ne_nil _ _,
      List.forall_mem_cons.mpr ⟨by decide, (isWord_of_parseI32 hn).2⟩⟩
  · obtain ⟨n, hn, -⟩ := Option.map_eq_some_iff.mp h
    exact isWord_of_parseI32 hn

/-- The three tokens are one coordinate each. -/
def IsBlockPos (tokens : List (List Char)) (value : ArgumentValue F) : Prop :=
  ∃ x y z, tokens.map parseAxis = [some x, some y, some z] ∧ value = .blockPos x y z

theorem parseBlockPos_ok_iff {argument : Argument F} {token : List Char} {value : ArgumentValue F} :
    parseBlockPos argument token = .ok value ↔ IsBlockPos (splitWhitespace token) value := by
  simp only [parseBlockPos, IsBlockPos]
  split
  · next x y z hwords =>
    simp only [hwords, List.map_cons, List.map_nil]
    split
    · next cx cy cz hx hy hz =>
      rw [hx, hy, hz]
      constructor
      · intro h
        exact ⟨cx, cy, cz, rfl, (Except.ok.inj h).symm⟩
      · rintro ⟨x', y', z', heq, rfl⟩
        cases heq
        rfl
    · next hnone =>
      refine iff_of_false (by simp) ?_
      rintro ⟨x', y', z', heq, -⟩
      simp only [List.cons.injEq, and_true] at heq
      exact hnone x' y' z' heq.1 heq.2.1 heq.2.2
  · next hwords =>
    refine iff_of_false (by simp) ?_
    rintro ⟨x', y', z', heq, -⟩
    have hlen := congrArg List.length heq
    rw [List.length_map] at hlen
    obtain ⟨a, b, c, habc⟩ := List.length_eq_three.mp hlen
    exact hwords a b c habc

theorem IsBlockPos.isWord {tokens : List (List Char)} {value : ArgumentValue F}
    (h : IsBlockPos tokens value) : ∀ token ∈ tokens, IsWord token := by
  obtain ⟨x, y, z, heq, -⟩ := h
  intro token htoken
  have hmem : parseAxis token ∈ [some x, some y, some z] := heq ▸ List.mem_map_of_mem htoken
  have : ∃ c, parseAxis token = some c := by
    simp only [List.mem_cons, List.not_mem_nil, or_false] at hmem
    rcases hmem with h | h | h <;> exact ⟨_, h⟩
  obtain ⟨c, hc⟩ := this
  exact isWord_of_parseAxis hc

/-- Tokens that are words come apart again after the join. -/
theorem parseBlockPos_joinSpaces {argument : Argument F} {tokens : List (List Char)}
    {value : ArgumentValue F} (hwords : ∀ token ∈ tokens, IsWord token) :
    parseBlockPos argument (joinSpaces tokens) = .ok value ↔ IsBlockPos tokens value := by
  rw [parseBlockPos_ok_iff, splitWhitespace_joinSpaces hwords]

end Apoptosis.L2.Commands
