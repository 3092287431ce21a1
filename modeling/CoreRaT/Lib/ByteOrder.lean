import CoreRaT.Lib.LittleEndian

/-!
# `CoreRaT.Lib.ByteOrder`: words and records of the other byte order

`be32` writes a word with the highest byte first. A reader that takes these bytes for a
little-endian word reads `byteSwap` of it (`ofLe32_be32_append`).

`reverseFields` reverses the bytes of each field of a record. On the fields of one byte order it
gives those of the other (`reverseFields_flatten`).
-/

set_option autoImplicit false

namespace CoreRaT.Lib

/-- The four bytes of a word, the highest byte first. -/
def be32 (x : UInt32) : List UInt8 := (le32 x).reverse

/-- The word with its bytes in the other order. -/
def byteSwap (x : UInt32) : UInt32 := ofLe32 (be32 x)

/-- Reading a word in the wrong order, with any bytes behind it. -/
theorem ofLe32_be32_append (x : UInt32) (bs : List UInt8) : ofLe32 (be32 x ++ bs) = byteSwap x :=
  rfl

/-- Each field of a record, of `widths` bytes, with its bytes in reverse order. -/
def reverseFields {α : Type} : (widths : List Nat) → List α → List α
  | [], bytes => bytes
  | w :: ws, bytes => (bytes.take w).reverse ++ reverseFields ws (bytes.drop w)

@[simp] theorem length_reverseFields {α : Type} (widths : List Nat) (bytes : List α) :
    (reverseFields widths bytes).length = bytes.length := by
  induction widths generalizing bytes with
  | nil => rfl
  | cons w ws ih =>
    rw [reverseFields, List.length_append, List.length_reverse, ih, ← List.length_append,
      List.take_append_drop]

/-- The fields one by one. -/
theorem reverseFields_flatten {α : Type} (fields : List (List α)) :
    reverseFields (fields.map List.length) fields.flatten = (fields.map List.reverse).flatten := by
  induction fields with
  | nil => rfl
  | cons field fields ih =>
    rw [List.map_cons, List.flatten_cons, reverseFields, List.take_left, List.drop_left, ih]
    rfl

end CoreRaT.Lib
