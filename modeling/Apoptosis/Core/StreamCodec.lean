import Apoptosis.Core.Codec
/-!
# Stream compressors

A compressor and the decompressor that reads its output as a stream, up to a
number of bytes. Errors are texts.
-/
namespace Apoptosis.Core

/-- `inflate packed limit` is what a read of at most `limit` bytes gives. -/
structure StreamCodec where
  compress : Codec.Bytes → Except String Codec.Bytes
  inflate : Codec.Bytes → Nat → Except String Codec.Bytes

/-- What was compressed is read back, up to any limit. -/
def StreamCodec.Inverse (z : StreamCodec) : Prop :=
  ∀ data packed, z.compress data = .ok packed →
    ∀ limit, z.inflate packed limit = .ok (data.take limit)

/-- A compressor that compresses nothing. -/
def StreamCodec.plain : StreamCodec := ⟨.ok, fun packed limit => .ok (packed.take limit)⟩

theorem StreamCodec.plain_inverse : plain.Inverse := by
  intro data packed h limit
  cases h
  rfl

end Apoptosis.Core
