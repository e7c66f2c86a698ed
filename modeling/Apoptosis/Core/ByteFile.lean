import Apoptosis.Core.Codec
/-!
# Files of bytes

A file that is read and written at offsets, and what a crash can leave of a
list of writes.

* `Keeps S f g`: `g` is no shorter than `f` and differs from it inside `S`
  only. Writes, torn writes and crashes keep what they do not cover.
* `slice_write`: a write is read back, whole or in part.
* `Crash`: the first writes in full, then nothing, or one more write torn.
-/
namespace Apoptosis.Core
open Codec (Bytes)

/-- The first `len` bytes of `byte`. -/
structure ByteFile where
  len : Nat
  byte : Nat → UInt8
  past : ∀ i, len ≤ i → byte i = 0

/-- Bytes and the offset they are written at. -/
structure FileWrite where
  offset : Nat
  bytes : Bytes
  deriving DecidableEq, Repr

def FileWrite.covers (w : FileWrite) : Set Nat :=
  {i | w.offset ≤ i ∧ i < w.offset + w.bytes.length}

namespace ByteFile

def empty : ByteFile := ⟨0, fun _ => 0, fun _ _ => rfl⟩

def slice (f : ByteFile) (offset n : Nat) : Bytes := (List.range n).map fun i => f.byte (offset + i)

/-- A gap between the end of the file and the offset reads as zeros. -/
def write (f : ByteFile) (w : FileWrite) : ByteFile where
  len := max f.len (w.offset + w.bytes.length)
  byte i := if w.offset ≤ i ∧ i < w.offset + w.bytes.length then w.bytes.getD (i - w.offset) 0
    else f.byte i
  past i h := by
    rw [if_neg (by omega)]
    exact f.past i (by omega)

def writes (f : ByteFile) (ws : List FileWrite) : ByteFile := ws.foldl write f

@[simp] theorem writes_nil (f : ByteFile) : f.writes [] = f := rfl

@[simp] theorem writes_cons (f : ByteFile) (w : FileWrite) (ws : List FileWrite) :
    f.writes (w :: ws) = (f.write w).writes ws := rfl

theorem writes_append (f : ByteFile) (ws ws' : List FileWrite) :
    f.writes (ws ++ ws') = (f.writes ws).writes ws' := List.foldl_append

theorem write_len (f : ByteFile) (w : FileWrite) :
    (f.write w).len = max f.len (w.offset + w.bytes.length) := rfl

@[simp] theorem slice_length (f : ByteFile) (a n : Nat) : (f.slice a n).length = n := by simp [slice]

theorem slice_getElem? (f : ByteFile) (a n i : Nat) :
    (f.slice a n)[i]? = if i < n then some (f.byte (a + i)) else none := by
  by_cases h : i < n <;> simp [slice, h]

theorem slice_congr {f g : ByteFile} {a n : Nat} (h : ∀ i, a ≤ i → i < a + n → g.byte i = f.byte i) :
    g.slice a n = f.slice a n := by
  refine List.map_congr_left fun i hi => ?_
  have hlt := List.mem_range.mp hi
  exact h (a + i) (by omega) (by omega)

theorem slice_add (f : ByteFile) (a n m : Nat) :
    f.slice a (n + m) = f.slice a n ++ f.slice (a + n) m := by
  simp only [slice, List.range_add, List.map_append, List.map_map]
  congr 1
  refine List.map_congr_left fun i _ => ?_
  simp only [Function.comp_apply, Nat.add_assoc]

theorem take_slice (f : ByteFile) (a n m : Nat) (h : m ≤ n) : (f.slice a n).take m = f.slice a m := by
  obtain ⟨k, rfl⟩ := Nat.exists_eq_add_of_le h
  rw [slice_add, List.take_left' (f.slice_length a m)]

theorem drop_slice (f : ByteFile) (a n m : Nat) (h : m ≤ n) :
    (f.slice a n).drop m = f.slice (a + m) (n - m) := by
  obtain ⟨k, rfl⟩ := Nat.exists_eq_add_of_le h
  rw [slice_add, List.drop_left' (f.slice_length a m), Nat.add_sub_cancel_left]

/-- A write is read back. -/
theorem slice_write (f : ByteFile) (w : FileWrite) (a n : Nat) (ha : w.offset ≤ a)
    (hn : a + n ≤ w.offset + w.bytes.length) :
    (f.write w).slice a n = (w.bytes.drop (a - w.offset)).take n := by
  refine List.ext_getElem? fun i => ?_
  rw [slice_getElem?, List.getElem?_take, List.getElem?_drop]
  by_cases h : i < n
  · have hat : a + i - w.offset = a - w.offset + i := by omega
    have hlt : a - w.offset + i < w.bytes.length := by omega
    rw [if_pos h, if_pos h]
    simp only [write]
    rw [if_pos (by omega), hat, List.getD_eq_getElem?_getD, List.getElem?_eq_getElem hlt]
    rfl
  · rw [if_neg h, if_neg h]

theorem slice_write_self (f : ByteFile) (w : FileWrite) :
    (f.write w).slice w.offset w.bytes.length = w.bytes := by
  rw [slice_write f w _ _ le_rfl le_rfl, Nat.sub_self, List.drop_zero, List.take_length]

/-! ## What stays -/

/-- `g` is no shorter than `f` and differs from it inside `S` only. -/
structure Keeps (S : Set Nat) (f g : ByteFile) : Prop where
  len_le : f.len ≤ g.len
  same : ∀ i, i < f.len → i ∉ S → g.byte i = f.byte i

theorem Keeps.refl (S : Set Nat) (f : ByteFile) : Keeps S f f := ⟨le_rfl, fun _ _ _ => rfl⟩

theorem Keeps.trans {S : Set Nat} {f g h : ByteFile} (hfg : Keeps S f g) (hgh : Keeps S g h) :
    Keeps S f h :=
  ⟨hfg.len_le.trans hgh.len_le, fun i hi hS =>
    (hgh.same i (Nat.lt_of_lt_of_le hi hfg.len_le) hS).trans (hfg.same i hi hS)⟩

theorem Keeps.mono {S T : Set Nat} {f g : ByteFile} (h : Keeps S f g) (hST : S ⊆ T) : Keeps T f g :=
  ⟨h.len_le, fun i hi hT => h.same i hi fun hS => hT (hST hS)⟩

theorem Keeps.slice {S : Set Nat} {f g : ByteFile} (h : Keeps S f g) {a n : Nat} (hn : a + n ≤ f.len)
    (hS : ∀ i, a ≤ i → i < a + n → i ∉ S) : g.slice a n = f.slice a n :=
  slice_congr fun i hlo hhi => h.same i (by omega) (hS i hlo hhi)

theorem write_keeps (f : ByteFile) (w : FileWrite) : Keeps w.covers f (f.write w) := by
  refine ⟨le_max_left _ _, fun i _ hS => ?_⟩
  exact if_neg hS

theorem writes_keeps {S : Set Nat} (ws : List FileWrite) (hws : ∀ w ∈ ws, w.covers ⊆ S) (f : ByteFile) :
    Keeps S f (f.writes ws) := by
  induction ws generalizing f with
  | nil => exact .refl S f
  | cons w ws ih =>
    have hhead := (f.write_keeps w).mono (hws w List.mem_cons_self)
    exact hhead.trans (ih (fun v hv => hws v (List.mem_cons_of_mem w hv)) (f.write w))

/-! ## Crashes -/

/-- What an interrupted write can leave: anything where it writes, the rest as it was. -/
structure Torn (f : ByteFile) (w : FileWrite) (g : ByteFile) : Prop where
  keeps : Keeps w.covers f g
  len_le : g.len ≤ max f.len (w.offset + w.bytes.length)
  gap : ∀ i, f.len ≤ i → i < w.offset → g.byte i = 0

/-- A whole write is one of them. -/
theorem torn_write (f : ByteFile) (w : FileWrite) : Torn f w (f.write w) := by
  refine ⟨f.write_keeps w, le_rfl, fun i hi hlt => ?_⟩
  exact (if_neg (by omega)).trans (f.past i hi)

/-- What a crash during `ws` can leave; only the writes that `tears` holds of can be torn. -/
inductive Crash (tears : FileWrite → Prop) : ByteFile → List FileWrite → ByteFile → Prop
  | stop (f ws) : Crash tears f ws f
  | torn {f w ws g} (hw : tears w) (h : Torn f w g) : Crash tears f (w :: ws) g
  | step {f w ws g} (h : Crash tears (f.write w) ws g) : Crash tears f (w :: ws) g

theorem Crash.nil {tears : FileWrite → Prop} {f g : ByteFile} (h : Crash tears f [] g) : g = f := by
  cases h
  rfl

end ByteFile
end Apoptosis.Core
