import Apoptosis.Core.I32
import Apoptosis.Core.OrdMap
import Apoptosis.L2Items.Stack
/-!
# Entities on the ground (`entity/src/entity.rs`)

The store is a map from ids to entities that is walked in id order. Positions
are left abstract: the passes over the store ask only which two are near.
-/
namespace Apoptosis.L2.Entities
open Apoptosis.Core

/-- mirrors crates/entity/src/item_entity.rs:103-135 (`ItemEntity`) -/
structure ItemEntity where
  stack : ItemStack
  pickupDelay : Nat

/-- mirrors crates/entity/src/orb.rs:30-38 (`Orb`) -/
structure Orb where
  value : I32
  age : Nat

/-- mirrors crates/entity/src/entity.rs:125-140 (`EntityBody`); players, mobs, projectiles and bolts alike -/
inductive EntityBody
  | item (item : ItemEntity)
  | orb (orb : Orb)
  | other

/-- mirrors crates/entity/src/entity.rs:160-210 (`Entity`) -/
structure Entity (P : Type) where
  body : EntityBody
  position : P
  age : Nat
  removed : Bool

/-- mirrors crates/entity/src/entity.rs:434-439 (`EntityStore`) -/
abbrev EntityStore (P : Type) := OrdMap Nat (Entity P)

variable {P : Type}

namespace Entity

def item? (e : Entity P) : Option ItemEntity :=
  match e.body with
  | .item item => some item
  | _ => none

def orb? (e : Entity P) : Option Orb :=
  match e.body with
  | .orb orb => some orb
  | _ => none

def setItem (e : Entity P) (item : ItemEntity) : Entity P := { e with body := .item item }

def setOrb (e : Entity P) (orb : Orb) : Entity P := { e with body := .orb orb }

def remove (e : Entity P) : Entity P := { e with removed := true }

@[simp] theorem item?_setItem (e : Entity P) (item : ItemEntity) : (e.setItem item).item? = some item := rfl
@[simp] theorem orb?_setOrb (e : Entity P) (orb : Orb) : (e.setOrb orb).orb? = some orb := rfl
@[simp] theorem item?_remove (e : Entity P) : e.remove.item? = e.item? := rfl
@[simp] theorem orb?_remove (e : Entity P) : e.remove.orb? = e.orb? := rfl
@[simp] theorem removed_setItem (e : Entity P) (item : ItemEntity) : (e.setItem item).removed = e.removed := rfl
@[simp] theorem removed_setOrb (e : Entity P) (orb : Orb) : (e.setOrb orb).removed = e.removed := rfl
@[simp] theorem removed_remove (e : Entity P) : e.remove.removed = true := rfl

end Entity

/-- Whether the entity of an id is marked removed. -/
def removedAt (s : EntityStore P) (id : Nat) : Bool := (s.get? id).any (·.removed)

/-- `for a in 0..len { for b in (a + 1)..len { .. } }` -/
def pairs {α : Type} : List α → List (α × α)
  | [] => []
  | a :: l => l.map (fun b => (a, b)) ++ pairs l

theorem mem_of_mem_pairs {α : Type} {l : List α} {p : α × α} (h : p ∈ pairs l) : p.1 ∈ l ∧ p.2 ∈ l := by
  induction l with
  | nil => exact nomatch h
  | cons a l ih =>
    rcases List.mem_append.mp h with h | h
    · obtain ⟨b, hb, rfl⟩ := List.mem_map.mp h
      exact ⟨.head _, .tail _ hb⟩
    · exact ⟨.tail _ (ih h).1, .tail _ (ih h).2⟩

/-- No entry is paired with itself where all are different. -/
theorem ne_of_mem_pairs {α β : Type} (f : α → β) {l : List α} (hl : l.Pairwise fun a b => f a ≠ f b) {p : α × α}
    (h : p ∈ pairs l) : f p.1 ≠ f p.2 := by
  induction l with
  | nil => exact nomatch h
  | cons a l ih =>
    obtain ⟨hhead, htail⟩ := List.pairwise_cons.mp hl
    rcases List.mem_append.mp h with h | h
    · obtain ⟨b, hb, rfl⟩ := List.mem_map.mp h
      exact hhead b hb
    · exact ih htail h

end Apoptosis.L2.Entities
