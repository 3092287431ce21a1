import Mathlib.Algebra.Group.Nat.Defs
import Mathlib.Tactic.Common

/-!
# `CoreRaT.Lib.LittleEndian`: 32-bit words as little-endian bytes

`le32` writes a word as four bytes, the lowest byte first. `ofLe32` reads a word from the
first four bytes of a list. `ofLe32_le32_append` is the round trip, with any bytes behind
the word. `drop_le32_append` passes over a word, to read the next.
-/

set_option autoImplicit false

namespace CoreRaT.Lib

/-- The four bytes of a word, the lowest byte first. -/
def le32 (x : UInt32) : List UInt8 :=
  [UInt8.ofNat x.toNat, UInt8.ofNat (x.toNat / 2 ^ 8),
   UInt8.ofNat (x.toNat / 2 ^ 16), UInt8.ofNat (x.toNat / 2 ^ 24)]

/-- The word in the first four bytes. A shorter list reads as zero; no caller gives one. -/
def ofLe32 : List UInt8 → UInt32
  | b₀ :: b₁ :: b₂ :: b₃ :: _ =>
      UInt32.ofNat (b₀.toNat + 2 ^ 8 * b₁.toNat + 2 ^ 16 * b₂.toNat + 2 ^ 24 * b₃.toNat)
  | _ => 0

/-- Reading back a written word, with any bytes behind it. -/
@[simp] theorem ofLe32_le32_append (x : UInt32) (bs : List UInt8) :
    ofLe32 (le32 x ++ bs) = x := by
  have hx : x.toNat < 2 ^ 32 := x.toNat_lt
  apply UInt32.toNat_inj.mp
  simp only [le32, ofLe32, List.cons_append, UInt8.toNat_ofNat', UInt32.toNat_ofNat']
  omega

/-- Reading back a written word. -/
@[simp] theorem ofLe32_le32 (x : UInt32) : ofLe32 (le32 x) = x := by
  simpa using ofLe32_le32_append x []

/-- What stands behind a written word. -/
theorem drop_le32_append (x : UInt32) (n : Nat) (bs : List UInt8) :
    (le32 x ++ bs).drop (n + 4) = bs.drop n := rfl

end CoreRaT.Lib
