import Apoptosis.L2Command.Argument
/-!
# `execute` chains (`command/src/execute.rs`)

A chain of modifiers that ends in `run`, from its tokens. Selectors are the
parameter `S`, with their own parser. A coordinate of a chain is a number or
nothing, so an offset is the same as a number there.

* `parse_run`: a chain that begins with `run`.
* `axis_agrees_iff`: when a coordinate of a chain is the coordinate of an argument.
-/
namespace Apoptosis.L2.Commands

open Apoptosis.Core
open Apoptosis.L2.Storage (ResourceId)

/-- `selector::parse`, with the text of its error. -/
class SelectorParse (S : Type) where
  parse : List Char → Except String S

/-- mirrors crates/command/src/execute.rs:55 (`MAX_MODIFIERS`) -/
def MAX_MODIFIERS : Nat := 64

/-- mirrors crates/command/src/execute.rs:62 (`Coordinates`) -/
abbrev Coordinates := Option I32 × Option I32 × Option I32

/-- mirrors crates/command/src/execute.rs:131-137 (`Anchor`) -/
inductive Anchor
  | feet
  | eyes
  deriving DecidableEq, Repr

/-- mirrors crates/command/src/execute.rs:168-175 (`Axes`) -/
structure Axes where
  x : Bool
  y : Bool
  z : Bool
  deriving DecidableEq, Repr

/-- mirrors crates/command/src/execute.rs:96-106 (`RotationSource`) -/
inductive RotationSource (F S : Type)
  | as (selector : S)
  | fixed (yaw pitch : Option F)

/-- mirrors crates/command/src/execute.rs:110-127 (`FacingTarget`) -/
inductive FacingTarget (S : Type)
  | position (at_ : Coordinates)
  | entity (selector : S) (anchor : Anchor)

/-- mirrors crates/command/src/execute.rs:220-234 (`Condition`) -/
inductive Condition (S : Type)
  | entity (selector : S)
  | block (at_ : Coordinates) (block : ResourceId)

/-- mirrors crates/command/src/execute.rs:66-92 (`Modifier`) -/
inductive Modifier (F S : Type)
  | as (selector : S)
  | «at» (selector : S)
  | positioned (at_ : Coordinates)
  | align (axes : Axes)
  | rotated (source : RotationSource F S)
  | facing (target : FacingTarget S)
  | anchored (anchor : Anchor)
  | «if» (condition : Condition S)
  | unless (condition : Condition S)

/-- mirrors crates/command/src/execute.rs:238-246 (`ExecuteChain`) -/
structure ExecuteChain (F S : Type) where
  modifiers : List (Modifier F S)
  run : List Char

/-- The `reason` texts: what is quoted in them, and what is said of it. -/
inductive Reason
  | text (said : String)
  | quoted (before : String) (text : List Char) (after : String)
  deriving DecidableEq, Repr

/-- mirrors crates/command/src/execute.rs:291-326 (`ExecuteError`) -/
inductive ExecuteError
  | missingRun
  | emptyRun
  | unsupportedModifier (keyword : List Char)
  | unsupportedCondition (name : List Char)
  | missingArgument (modifier : List Char)
  | badValue (modifier : List Char) (reason : Reason)
  | tooLong (count limit : Nat)
  deriving DecidableEq, Repr

/-- mirrors crates/command/src/execute.rs:332 (`UNSUPPORTED_MODIFIERS`) -/
def UNSUPPORTED_MODIFIERS : List (List Char) := ["in", "on", "store", "summon"].map String.toList

/-- mirrors crates/command/src/execute.rs:335-344 (`UNSUPPORTED_CONDITIONS`) -/
def UNSUPPORTED_CONDITIONS : List (List Char) :=
  ["biome", "blocks", "data", "dimension", "function", "loaded", "predicate", "score"].map
    String.toList

variable {F S : Type} [Float64 F] [SelectorParse S]

/-- mirrors crates/command/src/execute.rs:145-151 (`Anchor::parse`) -/
def Anchor.parse (text : List Char) : Except Reason Anchor :=
  if text = "eyes".toList then .ok .eyes
  else if text = "feet".toList then .ok .feet
  else .error (.quoted "" text " is not an anchor (eyes|feet)")

/-- mirrors crates/command/src/execute.rs:190-202 (`Axes::parse`, the loop) -/
def Axes.parseFrom (axes : Axes) : List Char → Except Reason Axes
  | [] => .ok axes
  | c :: text =>
    let twice := Reason.quoted "axis " [c] " is given twice"
    match c with
    | 'x' => if axes.x then .error twice else parseFrom { axes with x := true } text
    | 'y' => if axes.y then .error twice else parseFrom { axes with y := true } text
    | 'z' => if axes.z then .error twice else parseFrom { axes with z := true } text
    | _ => .error (.quoted "" [c] " is not an axis")

/-- mirrors crates/command/src/execute.rs:185-203 (`Axes::parse`) -/
def Axes.parse (text : List Char) : Except Reason Axes :=
  if text = [] then .error (.text "align needs at least one axis")
  else Axes.parseFrom ⟨false, false, false⟩ text

/-- mirrors crates/command/src/execute.rs:537-551 (`axis`) -/
def axis (text : List Char) (bad : Reason → ExecuteError) : Except ExecuteError (Option I32) :=
  match text with
  | ['~'] => .ok none
  | '~' :: value =>
    match parseI32 value with
    | none => .error (bad (.quoted "" text " is not an offset"))
    | some n => .ok (some n)
  | _ =>
    match parseI32 text with
    | none => .error (bad (.quoted "" text " is not a coordinate"))
    | some n => .ok (some n)

/-- mirrors crates/command/src/execute.rs:473-493 (`angle`) -/
def angle (text : List Char) (bad : Reason → ExecuteError) : Except ExecuteError (Option F) :=
  match text with
  | ['~'] => .ok none
  | '~' :: value =>
    match (Float64.parse value : Option F) with
    | none => .error (bad (.quoted "" text " is not an offset"))
    | some parsed =>
      if Float64.isFinite parsed then .ok (some parsed)
      else .error (bad (.quoted "" text " is not a finite offset"))
  | _ =>
    match (Float64.parse text : Option F) with
    | none => .error (bad (.quoted "" text " is not an angle"))
    | some parsed =>
      if Float64.isFinite parsed then .ok (some parsed)
      else .error (bad (.quoted "" text " is not a finite angle"))

section
variable (keyword : List Char) (rest : List (List Char))

/-- The token at an index, or the argument is missing: `rest.get(index).ok_or_else(missing)`. -/
def token (index : Nat) : Except ExecuteError (List Char) :=
  match rest[index]? with
  | none => .error (.missingArgument keyword)
  | some text => .ok text

/-- `selector::parse` of a token, as every modifier uses it. -/
def selector (text : List Char) : Except ExecuteError S :=
  (SelectorParse.parse text).mapError fun e => .badValue keyword (.text e)

/-- mirrors crates/command/src/execute.rs:611-628 (`parse_coordinates_at`) -/
def parseCoordinatesAt (offset : Nat) : Except ExecuteError (Coordinates × Nat) := do
  let x ← token keyword rest offset
  let y ← token keyword rest (offset + 1)
  let z ← token keyword rest (offset + 2)
  let x ← axis x (.badValue keyword)
  let y ← axis y (.badValue keyword)
  let z ← axis z (.badValue keyword)
  return ((x, y, z), 3)

/-- mirrors crates/command/src/execute.rs:554-567 (`parse_coordinates`) -/
def parseCoordinates : Except ExecuteError (Coordinates × Nat) := do
  let (at_, _) ← parseCoordinatesAt keyword rest 1
  return (at_, 4)

/-- mirrors crates/command/src/execute.rs:450-470 (`parse_rotated`) -/
def parseRotated : Except ExecuteError (RotationSource F S × Nat) := do
  let first ← token keyword rest 1
  if first = "as".toList then
    let text ← token keyword rest 2
    return (.as (← selector keyword text), 3)
  else
    let pitch ← token keyword rest 2
    let yaw ← angle first (.badValue keyword)
    let pitch ← angle pitch (.badValue keyword)
    return (.fixed yaw pitch, 3)

/-- mirrors crates/command/src/execute.rs:496-530 (`parse_facing`) -/
def parseFacing : Except ExecuteError (FacingTarget S × Nat) := do
  let first ← token keyword rest 1
  if first = "entity".toList then
    let text ← token keyword rest 2
    let selector ← selector keyword text
    match rest[3]? with
    | none => return (.entity selector .eyes, 3)
    | some word =>
      if word = "eyes".toList ∨ word = "feet".toList then
        let anchor ← (Anchor.parse word).mapError (.badValue keyword)
        return (.entity selector anchor, 4)
      else return (.entity selector .eyes, 3)
  else
    let (at_, coordinateTokens) ← parseCoordinatesAt keyword rest 1
    return (.position at_, 1 + coordinateTokens)

/-- mirrors crates/command/src/execute.rs:571-608 (`parse_condition`) -/
def parseCondition : Except ExecuteError (Condition S × Nat) := do
  let name ← token keyword rest 1
  if name ∈ UNSUPPORTED_CONDITIONS then throw (.unsupportedCondition name)
  if name = "entity".toList then
    let text ← token keyword rest 2
    return (.entity (← selector keyword text), 2)
  else if name = "block".toList then
    let (at_, coordinateTokens) ← parseCoordinatesAt keyword rest 2
    match rest[2 + coordinateTokens]? with
    | none => throw (.badValue keyword (.text "`block` needs a block id"))
    | some text =>
      match ResourceId.parse (String.ofList text) with
      | none => throw (.badValue keyword (.quoted "" text " is not a block id"))
      | some block => return (.block at_ block, 1 + coordinateTokens + 1)
  else throw (.unsupportedCondition name)

/-- mirrors crates/command/src/execute.rs:393-446 (`parse_modifier`) -/
def parseModifier : Except ExecuteError (Modifier F S × Nat) := do
  if keyword = "as".toList then return (.as (← selector keyword (← token keyword rest 1)), 2)
  else if keyword = "at".toList then return (.at (← selector keyword (← token keyword rest 1)), 2)
  else if keyword = "positioned".toList then
    let (at_, consumed) ← parseCoordinates keyword rest
    return (.positioned at_, consumed)
  else if keyword = "align".toList then
    let text ← token keyword rest 1
    let axes ← (Axes.parse text).mapError (.badValue keyword)
    return (.align axes, 2)
  else if keyword = "rotated".toList then
    let (source, consumed) ← parseRotated keyword rest
    return (.rotated source, consumed)
  else if keyword = "facing".toList then
    let (target, consumed) ← parseFacing keyword rest
    return (.facing target, consumed)
  else if keyword = "anchored".toList then
    let text ← token keyword rest 1
    let anchor ← (Anchor.parse text).mapError (.badValue keyword)
    return (.anchored anchor, 2)
  else if keyword = "if".toList then
    let (condition, consumed) ← parseCondition keyword rest
    return (.if condition, consumed + 1)
  else if keyword = "unless".toList then
    let (condition, consumed) ← parseCondition keyword rest
    return (.unless condition, consumed + 1)
  else throw (.unsupportedModifier keyword)

end

/-- mirrors crates/command/src/execute.rs:359-389 (`parse`, the loop), with the tokens from the
cursor on and the modifiers there is still room for -/
def parseFrom (room : Nat) (modifiers : List (Modifier F S)) :
    List (List Char) → Except ExecuteError (ExecuteChain F S)
  | [] => .error .missingRun
  | keyword :: rest =>
    if keyword = "run".toList then
      if rest = [] then .error .emptyRun else .ok ⟨modifiers, joinSpaces rest⟩
    else if keyword ∈ UNSUPPORTED_MODIFIERS then .error (.unsupportedModifier keyword)
    else
      match room with
      | 0 => .error (.tooLong (modifiers.length + 1) MAX_MODIFIERS)
      | room + 1 =>
        match parseModifier keyword (keyword :: rest) with
        | .error e => .error e
        | .ok (modifier, consumed) =>
          parseFrom room (modifiers ++ [modifier]) ((keyword :: rest).drop consumed)

/-- mirrors crates/command/src/execute.rs:355-390 (`parse`) -/
def parse (tokens : List (List Char)) : Except ExecuteError (ExecuteChain F S) :=
  parseFrom MAX_MODIFIERS [] tokens

theorem parse_run {rest : List (List Char)} (h : rest ≠ []) :
    (parse ("run".toList :: rest) : Except ExecuteError (ExecuteChain F S)) =
      .ok ⟨[], joinSpaces rest⟩ := by
  rw [parse, MAX_MODIFIERS, parseFrom, if_pos rfl, if_neg h]

/-! ## Coordinates -/

/-- mirrors crates/command/src/execute.rs:635-646 (`resolve_coordinates`) -/
def resolveCoordinates (at_ : Coordinates) (source : I32 × I32 × I32) : I32 × I32 × I32 :=
  (at_.1.getD source.1, at_.2.1.getD source.2.1, at_.2.2.getD source.2.2)

section
variable {bad : Reason → ExecuteError} {text : List Char}

/-- What a chain makes of a coordinate is its number, without the mark of an offset. -/
theorem axis_eq (bad : Reason → ExecuteError) (text : List Char) :
    (axis text bad).toOption =
      (parseAxis text).map fun c => if text = ['~'] then none else some c.value := by
  rw [axis.eq_def, parseAxis.eq_def]
  split
  · rfl
  · next value hne =>
    have hvalue : value ≠ [] := fun h => hne (by rw [h])
    cases hparse : parseI32 value <;> simp [Except.toOption, Coordinate.offset, hvalue, hparse]
  · next hne _ =>
    have htext : text ≠ ['~'] := fun h => hne h
    cases hparse : parseI32 text <;> simp [Except.toOption, Coordinate.absolute, htext, hparse]

/-- Both accept the same texts. -/
theorem axis_accepts_iff (bad : Reason → ExecuteError) (text : List Char) :
    (∃ c, axis text bad = .ok c) ↔ ∃ c, parseAxis text = some c := by
  have h := axis_eq bad text
  cases haxis : axis text bad <;> cases hparse : parseAxis text <;>
    simp [haxis, hparse, Except.toOption] at h ⊢

/-- What is written after `~`, where that is a number. -/
def offset : List Char → Option I32
  | '~' :: value => parseI32 value
  | _ => none

theorem resolve_of_parseAxis {c : Coordinate} (h : parseAxis text = some c) (base : I32) :
    c.resolve base =
      if text = ['~'] then base
      else match offset text with
        | some n => I32.saturatingAdd base n
        | none => c.value := by
  rw [parseAxis.eq_def] at h
  split at h
  · cases h
    simp [Coordinate.resolve, Coordinate.offset]
  · next value hne =>
    obtain ⟨n, hn, rfl⟩ := Option.map_eq_some_iff.mp h
    have hvalue : value ≠ [] := fun h => hne (by rw [h])
    simp [Coordinate.resolve, Coordinate.offset, offset, hn, hvalue]
  · next hne hne' =>
    obtain ⟨n, hn, rfl⟩ := Option.map_eq_some_iff.mp h
    have hnone : offset text = none := by
      rw [offset.eq_def]
      split
      · next value => exact absurd rfl (hne' value)
      · rfl
    rw [if_neg (fun h => hne h), hnone]
    rfl

theorem value_of_offset {c : Coordinate} (h : parseAxis text = some c) {n : I32}
    (hn : offset text = some n) : c.value = n := by
  rw [parseAxis.eq_def] at h
  split at h
  · cases hn
  · obtain ⟨m, hm, rfl⟩ := Option.map_eq_some_iff.mp h
    exact Option.some.inj (hm.symm.trans hn)
  · next hne hne' =>
    rw [offset.eq_def] at hn
    split at hn
    · next value => exact absurd rfl (hne' value)
    · cases hn

theorem offset_of_parseAxis_none (h : parseAxis text = none) : offset text = none := by
  rw [parseAxis.eq_def] at h
  split at h
  · cases h
  · exact Option.map_eq_none_iff.mp h
  · next hne hne' =>
    rw [offset.eq_def]
    split
    · next value => exact absurd rfl (hne' value)
    · rfl

theorem axis_eq_ok_iff {c : Option I32} :
    axis text bad = .ok c ↔
      ∃ c', parseAxis text = some c' ∧ c = if text = ['~'] then none else some c'.value := by
  have h := axis_eq bad text
  cases haxis : axis text bad <;> cases hparse : parseAxis text <;>
    simp [haxis, hparse, Except.toOption] at h ⊢
  rw [h]
  exact eq_comm

/-- An offset counts as one for `execute` only where the base does not move it. -/
def Unmoved (text : List Char) (base : I32) : Prop :=
  ∀ n, offset text = some n → I32.saturatingAdd base n = n

theorem resolve_agrees_iff {c : Coordinate} (h : parseAxis text = some c) (base : I32) :
    (if text = ['~'] then none else some c.value : Option I32).getD base = c.resolve base ↔
      Unmoved text base := by
  rw [resolve_of_parseAxis h, Unmoved]
  by_cases htilde : text = ['~']
  · subst htilde
    simp [offset, parseI32, parseInt, signed]
  · rw [if_neg htilde, if_neg htilde, Option.getD_some]
    cases hoffset : offset text with
    | none => simp
    | some n =>
      rw [value_of_offset h hoffset]
      constructor
      · intro heq m hm
        rw [← Option.some.inj hm]
        exact heq.symm
      · intro hall
        exact (hall n rfl).symm

/-- One coordinate rule: the same texts are accepted, and the same coordinate comes of them exactly
where an offset is not moved by its base. -/
theorem axis_agrees_iff (bad : Reason → ExecuteError) (text : List Char) (base : I32) :
    (((∃ c, axis text bad = .ok c) ↔ ∃ c, parseAxis text = some c) ∧
      ∀ c c', axis text bad = .ok c → parseAxis text = some c' →
        (resolveCoordinates (c, c, c) (base, base, base)).1 = c'.resolve base) ↔
      Unmoved text base := by
  rw [and_iff_right (axis_accepts_iff bad text)]
  constructor
  · intro h
    cases hparse : parseAxis text with
    | none =>
      intro n hn
      rw [offset_of_parseAxis_none hparse] at hn
      cases hn
    | some c' =>
      rw [← resolve_agrees_iff hparse]
      exact h _ c' (axis_eq_ok_iff.mpr ⟨c', hparse, rfl⟩) hparse
  · intro h c c' hc hc'
    obtain ⟨c'', hc'', rfl⟩ := axis_eq_ok_iff.mp hc
    cases hc'.symm.trans hc''
    exact (resolve_agrees_iff hc' base).mpr h

/-- `execute positioned ~5 …` goes to 5, wherever it is run. -/
theorem offset_taken_as_absolute :
    ¬(((∃ c, axis "~5".toList (.badValue "positioned".toList) = .ok c) ↔
        ∃ c, parseAxis "~5".toList = some c) ∧
      ∀ c c', axis "~5".toList (.badValue "positioned".toList) = .ok c →
        parseAxis "~5".toList = some c' →
          (resolveCoordinates (c, c, c) (⟨100, by decide⟩, ⟨100, by decide⟩, ⟨100, by decide⟩)).1 =
            c'.resolve ⟨100, by decide⟩) := by
  intro ⟨_, h⟩
  have hfive := h (some ⟨5, by decide⟩) (.offset ⟨5, by decide⟩) (by rfl) (by rfl)
  exact absurd hfive (by decide)

end

end Apoptosis.L2.Commands
