import Mathlib.Tactic.Common

/-!
# `CoreRaT.Lib.ByteMemory`: a flat memory of bytes

A memory is a function from addresses to bytes. `write` is `memcpy` into the memory and `read`
is `memcpy` out of it. What has been written is what is read (`read_write_self`), a write leaves
the bytes outside its range alone (`write_of_not_mem`), and a read from a range that the write
does not meet gives what it gave before (`read_write_of_disjoint`). `read_write_eq_iff` is the
exact condition under which a read does not notice a write.
-/

set_option autoImplicit false

namespace CoreRaT.Lib

/-- A flat memory. -/
abbrev ByteMemory := Nat → UInt8

namespace ByteMemory

/-- `memcpy` of `data` to the address `addr`. -/
def write (mem : ByteMemory) (addr : Nat) (data : List UInt8) : ByteMemory :=
  fun a => if addr ≤ a ∧ a < addr + data.length then data.getD (a - addr) 0 else mem a

/-- `memcpy` of `n` bytes from the address `addr`. -/
def read (mem : ByteMemory) (addr n : Nat) : List UInt8 :=
  (List.range n).map fun k => mem (addr + k)

@[simp] theorem length_read (mem : ByteMemory) (addr n : Nat) : (mem.read addr n).length = n := by
  simp [read]

theorem getElem?_read (mem : ByteMemory) (addr n : Nat) {k : Nat} (hk : k < n) :
    (mem.read addr n)[k]? = some (mem (addr + k)) := by
  simp [read, hk]

/-- Two ranges with the same bytes. -/
theorem read_eq_read_iff {mem mem' : ByteMemory} {addr n : Nat} :
    mem'.read addr n = mem.read addr n ↔ ∀ k, k < n → mem' (addr + k) = mem (addr + k) := by
  constructor
  · intro h k hk
    have hget := congrArg (·[k]?) h
    simpa only [getElem?_read _ _ _ hk, Option.some.injEq] using hget
  · intro h
    refine List.map_congr_left ?_
    intro k hk
    exact h k (List.mem_range.mp hk)

theorem write_of_mem (mem : ByteMemory) (addr : Nat) {data : List UInt8} {k : Nat} {b : UInt8}
    (hk : data[k]? = some b) : mem.write addr data (addr + k) = b := by
  have hlt : k < data.length := (List.getElem?_eq_some_iff.mp hk).1
  unfold write
  rw [if_pos ⟨by omega, by omega⟩, Nat.add_sub_cancel_left, List.getD_eq_getElem?_getD, hk]
  rfl

/-- A write leaves the bytes outside its range alone. -/
theorem write_of_not_mem (mem : ByteMemory) {addr a : Nat} {data : List UInt8}
    (ha : a < addr ∨ addr + data.length ≤ a) : mem.write addr data a = mem a := by
  unfold write
  exact if_neg (by omega)

/-- A read inside the range of a write. -/
theorem read_write_slice (mem : ByteMemory) (addr : Nat) {data : List UInt8} {k n : Nat}
    (h : k + n ≤ data.length) :
    (mem.write addr data).read (addr + k) n = (data.drop k).take n := by
  apply List.ext_getElem?
  intro j
  by_cases hj : j < n
  · have hget : data[k + j]? = some data[k + j] := List.getElem?_eq_getElem (by omega)
    rw [getElem?_read _ _ _ hj, List.getElem?_take_of_lt hj, List.getElem?_drop, hget,
      Nat.add_assoc, mem.write_of_mem addr hget]
  · rw [List.getElem?_eq_none (by simpa using hj),
      List.getElem?_eq_none (by simp only [List.length_take]; omega)]

/-- What has been written is what is read. -/
theorem read_write_self (mem : ByteMemory) (addr : Nat) (data : List UInt8) :
    (mem.write addr data).read addr data.length = data := by
  have hle : 0 + data.length ≤ data.length := by omega
  simpa using mem.read_write_slice addr hle

/-- A read does not notice a write exactly when each byte of the write that falls into the range of
the read was there before. -/
theorem read_write_eq_iff {mem : ByteMemory} {addr addr' n : Nat} {data : List UInt8} :
    (mem.write addr data).read addr' n = mem.read addr' n ↔
      ∀ k b, data[k]? = some b → addr' ≤ addr + k → addr + k < addr' + n → mem (addr + k) = b := by
  rw [read_eq_read_iff]
  constructor
  · intro h k b hk hge hlt
    have hsame := h (addr + k - addr') (by omega)
    rw [Nat.add_sub_cancel' hge, mem.write_of_mem addr hk] at hsame
    exact hsame.symm
  · intro h j hj
    by_cases hin : addr ≤ addr' + j ∧ addr' + j < addr + data.length
    · obtain ⟨k, hk⟩ := Nat.exists_eq_add_of_le hin.1
      have hlt : k < data.length := by omega
      have hget := List.getElem?_eq_getElem hlt
      rw [hk, mem.write_of_mem addr hget]
      exact (h k _ hget (by omega) (by omega)).symm
    · exact mem.write_of_not_mem (by omega)

/-- A write, counted from the address `base` on. -/
theorem write_add (mem : ByteMemory) (base addr : Nat) (data : List UInt8) :
    (fun a => mem.write (base + addr) data (base + a))
      = write (fun a => mem (base + a)) addr data := by
  funext a
  have hiff : base + addr ≤ base + a ∧ base + a < base + addr + data.length ↔
      addr ≤ a ∧ a < addr + data.length := by omega
  simp only [write, hiff, Nat.add_sub_add_left]

/-- Two ranges that do not meet. -/
theorem read_write_of_disjoint (mem : ByteMemory) {addr addr' n : Nat} {data : List UInt8}
    (h : addr + data.length ≤ addr' ∨ addr' + n ≤ addr) :
    (mem.write addr data).read addr' n = mem.read addr' n := by
  rw [read_write_eq_iff]
  intro k b hk
  have hlt : k < data.length := (List.getElem?_eq_some_iff.mp hk).1
  omega

end ByteMemory

end CoreRaT.Lib
