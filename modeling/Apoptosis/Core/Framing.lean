import Apoptosis.Core.Codec
/-!
# Self-delimiting parsers

A parser over a byte slice returns a value and the unread rest. It is
`Delimited` when what it reads is a prefix of its input and reading the same
prefix in front of anything else gives the same value: it decides where its
value ends without looking past it. A list of `Delimited` values needs no
length fields.

`Reads p c a` is one instance: `p` reads exactly `c` as `a`, whatever follows.

The rules follow the shape of a parser written with `do`: `delimited_pure`,
`delimited_error`, `Delimited.bind`, `Delimited.ite`, `delimited_takeBytes`
and `Delimited.many`.
-/
namespace Apoptosis.Core.Framing
open Apoptosis.Core.Codec

abbrev Get (ε α : Type) := Bytes → Except ε (α × Bytes)

variable {ε α β : Type}

/-- `p` reads exactly the bytes `c` as `a`, whatever follows them. -/
def Reads (p : Get ε α) (c : Bytes) (a : α) : Prop := ∀ r, p (c ++ r) = .ok (a, r)

def Delimited (p : Get ε α) : Prop :=
  ∀ b a r, p b = .ok (a, r) → ∃ c, b = c ++ r ∧ Reads p c a

theorem bind_ok {x : Except ε α} {f : α → Except ε β} {b : β} (h : (x >>= f) = .ok b) :
    ∃ a, x = .ok a ∧ f a = .ok b := by
  cases x with
  | error e => cases h
  | ok a => exact ⟨a, rfl, h⟩

theorem reads_pure (a : α) : Reads (fun b => (.ok (a, b) : Except ε _)) [] a := fun _ => rfl

theorem Reads.bind {p : Get ε α} {f : α → Get ε β} {c c' : Bytes} {a : α} {b : β}
    (h : Reads p c a) (h' : Reads (f a) c' b) :
    Reads (fun s => do
      let (a, s) ← p s
      f a s) (c ++ c') b := by
  intro r
  have h₁ := h (c' ++ r)
  have h₂ := h' r
  rw [← List.append_assoc] at h₁
  simp only [Bind.bind, Except.bind, h₁, h₂]

theorem delimited_pure (a : α) : Delimited fun b => (.ok (a, b) : Except ε _) := by
  intro b a' r h
  cases h
  exact ⟨[], rfl, reads_pure a⟩

theorem delimited_error (e : Bytes → ε) : Delimited fun b => (.error (e b) : Except ε (α × Bytes)) := by
  intro b a r h
  cases h

theorem Delimited.bind {p : Get ε α} {f : α → Get ε β} (hp : Delimited p)
    (hf : ∀ a, Delimited (f a)) : Delimited (fun s => do
      let (a, s) ← p s
      f a s) := by
  intro s b r h
  obtain ⟨⟨a, s'⟩, h₁, h₂⟩ := bind_ok h
  obtain ⟨c, rfl, hc⟩ := hp s a s' h₁
  obtain ⟨c', rfl, hc'⟩ := hf a s' b r h₂
  exact ⟨c ++ c', (List.append_assoc ..).symm, hc.bind hc'⟩

theorem Delimited.ite {P : Prop} [Decidable P] {p q : Get ε α} (hp : Delimited p)
    (hq : Delimited q) : Delimited fun s => if P then p s else q s := by
  split
  · exact hp
  · exact hq

/-- Split `n` bytes off the front; `short` is the error on a shorter input. -/
def takeBytes (short : Bytes → ε) (n : Nat) : Get ε Bytes := fun b =>
  if b.length < n then .error (short b) else .ok (b.take n, b.drop n)

theorem reads_takeBytes (short : Bytes → ε) (c : Bytes) : Reads (takeBytes short c.length) c c := by
  intro r
  have : ¬(c ++ r).length < c.length := by simp
  simp only [takeBytes, if_neg this, List.take_left, List.drop_left]

theorem delimited_takeBytes (short : Bytes → ε) (n : Nat) : Delimited (takeBytes short n) := by
  intro b a r h
  unfold takeBytes at h
  split at h
  · cases h
  · cases h
    have hlen : (b.take n).length = n := by rw [List.length_take]; omega
    refine ⟨b.take n, (List.take_append_drop n b).symm, ?_⟩
    have := reads_takeBytes short (b.take n)
    rwa [hlen] at this

theorem takeBytes_length {short : Bytes → ε} {n : Nat} {b a r : Bytes}
    (h : takeBytes short n b = .ok (a, r)) : a.length = n := by
  unfold takeBytes at h
  split at h
  · cases h
  · cases h; rw [List.length_take]; omega

/-- `n` values in a row. -/
def many (p : Get ε α) : Nat → Get ε (List α)
  | 0, b => .ok ([], b)
  | n + 1, b => do
    let (a, b) ← p b
    let (as, b) ← many p n b
    return (a :: as, b)

theorem Delimited.many {p : Get ε α} (hp : Delimited p) : ∀ n, Delimited (many p n)
  | 0 => delimited_pure []
  | n + 1 => hp.bind fun a => (Delimited.many hp n).bind fun as => delimited_pure (a :: as)

theorem reads_many {p : Get ε α} {enc : α → Bytes} : ∀ {as : List α},
    (∀ a ∈ as, Reads p (enc a) a) → Reads (Framing.many p as.length) (as.flatMap enc) as
  | [], _ => fun _ => rfl
  | a :: as, h => by
    have ih : Reads (Framing.many p as.length) (as.flatMap enc) as :=
      reads_many fun x hx => h x (by simp [hx])
    rw [List.flatMap_cons]
    have hrest : Reads (fun b => do
        let (as, b) ← Framing.many p as.length b
        .ok (a :: as, b)) (as.flatMap enc) (a :: as) := by
      intro r
      simp only [Bind.bind, Except.bind, ih r]
    exact (h a (by simp)).bind (f := fun a b => do
      let (as, b) ← Framing.many p as.length b
      .ok (a :: as, b)) hrest

end Apoptosis.Core.Framing
