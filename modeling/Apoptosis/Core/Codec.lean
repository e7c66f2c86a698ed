import Mathlib.Tactic
/-!
# Byte codecs

Big-endian integers and append-only writers, with nothing of any one format
in them.

* `toBe k v` / `ofBe`: the `k`-byte big-endian image of a natural number and
  its reading; `ofBe_toBe` is the round trip below `256 ^ k`.
* `Put ε`: a writer over a growable buffer whose buffer survives an error, as
  a `&mut Vec<u8>` does. `Puts w r` says what a writer does in one line: on
  success it appends exactly the bytes of `r`, on failure it fails as `r` does
  and has appended only. `Puts.bind` composes two writers.
* `restoring w`: run `w`, truncate back to the starting length if it fails;
  `Puts.restoring` says that a failed `restoring w` leaves the buffer as it was.
-/
namespace Apoptosis.Core.Codec

abbrev Bytes := List UInt8

/-! ## Big-endian integers -/

/-- The low `k` bytes of `v`, most significant first. -/
def toBe : Nat → Nat → Bytes
  | 0, _ => []
  | k + 1, v => toBe k (v / 256) ++ [UInt8.ofNat (v % 256)]

def ofBe (bs : Bytes) : Nat := bs.foldl (fun acc b => acc * 256 + b.toNat) 0

@[simp] theorem toBe_length (k v : Nat) : (toBe k v).length = k := by
  induction k generalizing v with
  | zero => rfl
  | succ k ih => simp [toBe, ih]

theorem ofBe_append_singleton (bs : Bytes) (b : UInt8) :
    ofBe (bs ++ [b]) = ofBe bs * 256 + b.toNat := by simp [ofBe]

theorem ofBe_toBe_mod (k v : Nat) : ofBe (toBe k v) = v % 256 ^ k := by
  induction k generalizing v with
  | zero => simp [toBe, ofBe, Nat.mod_one]
  | succ k ih =>
    rw [toBe, ofBe_append_singleton, ih, UInt8.toNat_ofNat', pow_succ' 256 k, Nat.mod_mul]
    omega

theorem ofBe_toBe (k v : Nat) (h : v < 256 ^ k) : ofBe (toBe k v) = v := by
  rw [ofBe_toBe_mod, Nat.mod_eq_of_lt h]

theorem ofBe_lt (bs : Bytes) : ofBe bs < 256 ^ bs.length := by
  induction bs using List.reverseRecOn with
  | nil => simp [ofBe]
  | append_singleton bs b ih =>
    have := b.toNat_lt
    rw [ofBe_append_singleton, List.length_append, List.length_singleton, pow_succ]
    omega

/-! ## Writers -/

/-- A writer over a growable buffer; the buffer outlives an error. -/
abbrev Put (ε : Type) := ExceptT ε (StateM Bytes)

variable {ε : Type}

/-- Append `b`. -/
def emit (b : Bytes) : Put ε Unit := fun out => (.ok (), out ++ b)

/-- Run `w`; if it fails, truncate the buffer back to where it was. -/
def restoring (w : Put ε Unit) : Put ε Unit := fun out =>
  match w out with
  | (.ok (), out') => (.ok (), out')
  | (.error e, out') => (.error e, out'.take out.length)

/-- Two images in a row; the first failure wins. -/
def joined (r r' : Except ε Bytes) : Except ε Bytes := do return (← r) ++ (← r')

@[simp] theorem joined_ok (b b' : Bytes) :
    (joined (.ok b) (.ok b') : Except ε Bytes) = .ok (b ++ b') := rfl

theorem joined_eq_ok {r r' : Except ε Bytes} {b : Bytes} :
    joined r r' = .ok b ↔ ∃ b₁ b₂, r = .ok b₁ ∧ r' = .ok b₂ ∧ b = b₁ ++ b₂ := by
  cases r with
  | error e => exact ⟨nofun, fun ⟨_, _, h, _⟩ => nomatch h⟩
  | ok b₁ =>
    cases r' with
    | error e => exact ⟨nofun, fun ⟨_, _, _, h, _⟩ => nomatch h⟩
    | ok b₂ => simp [eq_comm]

/-- `w` appends the bytes of `r`, or fails as `r` does after appending something. -/
def Puts (w : Put ε Unit) (r : Except ε Bytes) : Prop :=
  ∀ out, ∃ junk, w out = match r with
    | .ok b => (.ok (), out ++ b)
    | .error e => (.error e, out ++ junk)

theorem Puts.run_ok {w : Put ε Unit} {b : Bytes} (h : Puts w (.ok b)) (out : Bytes) :
    w out = (.ok (), out ++ b) := (h out).choose_spec

theorem Puts.run_error {w : Put ε Unit} {e : ε} (h : Puts w (.error e)) (out : Bytes) :
    ∃ junk, w out = (.error e, out ++ junk) := h out

theorem puts_emit (b : Bytes) : Puts (emit b : Put ε Unit) (.ok b) := fun _ => ⟨[], rfl⟩

theorem puts_throw (e : ε) : Puts (throw e) (.error e) := fun out => ⟨[], by simp; rfl⟩

theorem puts_pure : Puts (pure () : Put ε Unit) (.ok []) := fun out => ⟨[], by simp; rfl⟩

theorem put_bind {α β : Type} (w : Put ε α) (f : α → Put ε β) (out : Bytes) :
    (w >>= f) out = match w out with
      | (.ok a, out') => f a out'
      | (.error e, out') => (.error e, out') := by
  show (match w out with | (a, s) => ExceptT.bindCont f a s) = _
  rcases w out with ⟨_ | _, _⟩ <;> rfl

/-- Two writers in a row append one image after the other. -/
theorem Puts.bind {w w' : Put ε Unit} {r r' : Except ε Bytes} (h : Puts w r)
    (h' : ∀ b, r = .ok b → Puts w' r') :
    Puts (w >>= fun _ => w') (joined r r') := by
  intro out
  rw [put_bind]
  cases r with
  | error e => obtain ⟨junk, hw⟩ := h.run_error out; exact ⟨junk, by rw [hw]; rfl⟩
  | ok b =>
    rw [h.run_ok out]
    cases r' with
    | error e =>
      obtain ⟨junk, hw⟩ := (h' b rfl).run_error (out ++ b)
      exact ⟨b ++ junk, by simp only [hw, List.append_assoc]; rfl⟩
    | ok b' => exact ⟨[], by simp only [(h' b rfl).run_ok, List.append_assoc]; rfl⟩

/-- All of the image or none of it. -/
def landed (out : Bytes) : Except ε Bytes → Except ε Unit × Bytes
  | .ok b => (.ok (), out ++ b)
  | .error e => (.error e, out)

theorem Puts.restoring {w : Put ε Unit} {r : Except ε Bytes} (h : Puts w r) (out : Bytes) :
    restoring w out = landed out r := by
  unfold Codec.restoring
  cases r with
  | ok b => rw [h.run_ok out]; rfl
  | error e => obtain ⟨junk, hw⟩ := h.run_error out; rw [hw]; simp [landed]

end Apoptosis.Core.Codec
