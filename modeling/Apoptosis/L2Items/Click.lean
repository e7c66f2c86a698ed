import Apoptosis.ServerError
import Mathlib.Tactic
/-!
# Clicks (`container/src/click.rs`)

A click decoded from the wire and checked for shape. Wire integers (`i32`,
`i16`, `i8`) are `Int`; the state id wraps and is a bit vector.
-/
namespace Apoptosis.L2

def SLOT_OUTSIDE : Int := -1
def MAX_MENU_SLOTS : Nat := 46 + 54

/-- mirrors crates/container/src/click.rs:22-41 (`ClickType`) -/
inductive ClickType where
  | pickup | quickMove | swap | clone | throw | quickCraft | pickupAll
  deriving DecidableEq, Repr

namespace ClickType
/-- mirrors crates/container/src/click.rs:58-69 (`ClickType::from_id`) -/
def fromId (id : Int) : Option ClickType :=
  if id = 0 then some pickup
  else if id = 1 then some quickMove
  else if id = 2 then some swap
  else if id = 3 then some clone
  else if id = 4 then some throw
  else if id = 5 then some quickCraft
  else if id = 6 then some pickupAll
  else none

/-- mirrors crates/container/src/click.rs:87-97 (`ClickType::name`) -/
def name : ClickType → String
  | pickup => "pickup" | quickMove => "quick_move" | swap => "swap" | clone => "clone"
  | throw => "throw" | quickCraft => "quick_craft" | pickupAll => "pickup_all"
end ClickType

/-- mirrors crates/container/src/click.rs:126-133 (`DragType`) -/
inductive DragType where
  | even | one | full
  deriving DecidableEq, Repr

/-- mirrors crates/container/src/click.rs:138-145 (`DragType::from_packed`) -/
def DragType.fromPacked (packed : Int) : Option DragType :=
  if packed = 0 then some .even
  else if packed = 1 then some .one
  else if packed = 2 then some .full
  else none

/-- mirrors crates/container/src/click.rs:160-167 (`DragStage`) -/
inductive DragStage where
  | start | addSlot | finish
  deriving DecidableEq, Repr

/-- mirrors crates/container/src/click.rs:172-179 (`DragStage::from_bits`) -/
def DragStage.fromBits (bits : Int) : Option DragStage :=
  if bits = 0 then some .start
  else if bits = 1 then some .addSlot
  else if bits = 2 then some .finish
  else none

/-- mirrors crates/container/src/click.rs:194-199 (`SwapTarget`) -/
inductive SwapTarget where
  | hotbar (slot : Nat)
  | offhand
  deriving DecidableEq, Repr

/-- mirrors crates/container/src/click.rs:204-210 (`SwapTarget::from_button`) -/
def SwapTarget.fromButton (button : Int) : Option SwapTarget :=
  if 0 ≤ button ∧ button ≤ 8 then some (.hotbar button.toNat)
  else if button = 40 then some .offhand
  else none

/-- mirrors crates/container/src/click.rs:215-231 (`ClickRejection`) -/
inductive ClickRejection where
  | unknownClickType (id : Int)
  | badButton (clickType : ClickType) (button : Int)
  | slotOutOfRange (slot : Int)
  | negativeStateId (id : Int)
  | badWindowId (id : Int)
  deriving DecidableEq, Repr

/-- mirrors crates/container/src/click.rs:233-245 (`Display for ClickRejection`) -/
def ClickRejection.text : ClickRejection → String
  | unknownClickType id => s!"unknown click type {id}"
  | badButton clickType button => s!"button {button} is meaningless for {clickType.name}"
  | slotOutOfRange slot => s!"slot {slot} is out of range"
  | negativeStateId id => s!"negative state id {id}"
  | badWindowId id => s!"window id {id} does not fit in a u8"

/-- mirrors crates/container/src/click.rs:252-277 (`Click`) -/
structure Click where
  windowId : Nat
  stateId : BitVec 32
  slot : Int
  button : Int
  clickType : ClickType
  secondary : Bool
  swapTarget : Option SwapTarget
  dragType : Option DragType
  dragStage : Option DragStage
  deriving DecidableEq, Repr

namespace Click

def reject (rejection : ClickRejection) : ServerResult Click :=
  .error (.invalidAction s!"malformed click: {rejection.text}")

/-- The button rules of `Click::new`, by click type. -/
def withButton (click : Click) : ServerResult Click :=
  let bad := reject (.badButton click.clickType click.button)
  match click.clickType with
  | .pickup | .throw | .pickupAll =>
    if click.button = 0 then .ok click
    else if click.button = 1 then .ok { click with secondary := true }
    else bad
  | .quickMove => if click.button ≠ 0 then bad else .ok click
  | .swap =>
    match SwapTarget.fromButton click.button with
    | some target => .ok { click with swapTarget := some target }
    | none => bad
  | .clone => if click.button = 0 ∨ click.button = 2 then .ok click else bad
  | .quickCraft =>
    -- `packed >> 2` and `packed & 3` of a sign-extended byte
    match DragType.fromPacked (click.button / 4), DragStage.fromBits (click.button % 4) with
    | some dragType, some dragStage =>
      .ok { click with dragType := some dragType, dragStage := some dragStage }
    | _, _ => bad

/-- mirrors crates/container/src/click.rs:288-398 (`Click::new`) -/
def new (windowId : Int) (stateId : BitVec 32) (slot button clickType : Int) :
    ServerResult Click :=
  if windowId < 0 ∨ windowId > 255 then reject (.badWindowId windowId)
  else if stateId.toInt < 0 then reject (.negativeStateId stateId.toInt)
  else if slot ≠ SLOT_OUTSIDE ∧ (slot < 0 ∨ slot > MAX_MENU_SLOTS) then
    reject (.slotOutOfRange slot)
  else
    match ClickType.fromId clickType with
    | none => reject (.unknownClickType clickType)
    | some clickType =>
      withButton ⟨windowId.toNat, stateId, slot, button, clickType, false, none, none, none⟩

/-- mirrors crates/container/src/click.rs:420-425 (`Click::slot_index`) -/
def slotIndex (click : Click) : Option Nat :=
  if click.slot = SLOT_OUTSIDE then none
  else if click.slot < 0 then none
  else some click.slot.toNat

/-- mirrors crates/container/src/click.rs:429-434 (`Click::drag`) -/
def drag (click : Click) : Option (DragType × DragStage) :=
  match click.dragType, click.dragStage with
  | some kind, some stage => some (kind, stage)
  | _, _ => none

end Click
end Apoptosis.L2
