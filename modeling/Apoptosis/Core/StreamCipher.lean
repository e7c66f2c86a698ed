import Apoptosis.Core.Codec
/-!
# Ciphers that feed on what they put out

A register gives the pad of the next byte and takes in the byte that went over
the line. Both ends see the same line, so one register follows the other.

* `uncover_cover`: what was covered is read back.
* `cover_append`, `uncover_append`: pieces of a stream are covered and read one
  after the other.
-/
namespace Apoptosis.Core.StreamCipher
open Apoptosis.Core.Codec

variable {σ : Type*} (pad : σ → UInt8) (feed : σ → UInt8 → σ)

def cover : σ → Bytes → Bytes
  | _, [] => []
  | s, b :: bs => (pad s ^^^ b) :: cover (feed s (pad s ^^^ b)) bs

def uncover : σ → Bytes → Bytes
  | _, [] => []
  | s, c :: cs => (pad s ^^^ c) :: uncover (feed s c) cs

/-- The register once `line` went over the line. -/
def fed (s : σ) (line : Bytes) : σ := line.foldl feed s

@[simp] theorem fed_append (s : σ) (line more : Bytes) : fed feed s (line ++ more) = fed feed (fed feed s line) more :=
  List.foldl_append

theorem xor_xor_cancel (x y : UInt8) : x ^^^ (x ^^^ y) = y := by
  rw [← UInt8.xor_assoc, UInt8.xor_self, UInt8.zero_xor]

@[simp] theorem uncover_length (s : σ) (cs : Bytes) : (uncover pad feed s cs).length = cs.length := by
  induction cs generalizing s with
  | nil => rfl
  | cons c cs ih => rw [uncover, List.length_cons, ih, List.length_cons]

theorem uncover_cover (s : σ) (bs : Bytes) : uncover pad feed s (cover pad feed s bs) = bs := by
  induction bs generalizing s with
  | nil => rfl
  | cons b bs ih => rw [cover, uncover, xor_xor_cancel, ih]

theorem cover_append (s : σ) (bs more : Bytes) : cover pad feed s (bs ++ more) =
    cover pad feed s bs ++ cover pad feed (fed feed s (cover pad feed s bs)) more := by
  induction bs generalizing s with
  | nil => rfl
  | cons b bs ih => rw [List.cons_append, cover, cover, ih, List.cons_append, fed, fed, List.foldl_cons]

theorem uncover_append (s : σ) (cs more : Bytes) : uncover pad feed s (cs ++ more) =
    uncover pad feed s cs ++ uncover pad feed (fed feed s cs) more := by
  induction cs generalizing s with
  | nil => rfl
  | cons c cs ih => rw [List.cons_append, uncover, uncover, ih, List.cons_append, fed, fed, List.foldl_cons]

end Apoptosis.Core.StreamCipher
