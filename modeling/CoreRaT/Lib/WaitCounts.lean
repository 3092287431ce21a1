import Mathlib.Tactic.Common

/-!
# `CoreRaT.Lib.WaitCounts`: items and the threads that wait for them

A buffer of items, and threads that wait for one on a condition variable: how many items there are,
how many threads are blocked, and how many have been woken and have not looked at the buffer since.
A signal wakes one blocked thread. It is not counted, so without one it has no effect.

`Covered` says that there is a woken thread for each item while a thread is blocked. What a put, a
thread that takes an item and a thread that blocks do to the counts keeps it, whichever threads are
the faster ones. A woken thread that leaves an item behind keeps it only if there are fewer items
than woken threads (`covered_leave`). Otherwise it is lost, and the woken threads do not bring it
back (`not_covered_leave`, `not_covered_leave_take`): in the end no thread is woken, and a thread is
blocked while there is an item (`stuck_of_not_covered`).
-/

set_option autoImplicit false

namespace CoreRaT.Lib

/-- The items of a buffer, and the threads that wait for one. -/
@[ext]
structure WaitCounts where
  items : Nat
  blocked : Nat
  woken : Nat

namespace WaitCounts

/-- A signal. -/
def signal (c : WaitCounts) : WaitCounts :=
  if c.blocked = 0 then c else { c with blocked := c.blocked - 1, woken := c.woken + 1 }

/-- A put with its signal. An item that takes the place of another one is not one more. -/
def put (c : WaitCounts) (more : Nat) : WaitCounts :=
  { c.signal with items := c.items + more }

/-- A thread takes an item. -/
def take (c : WaitCounts) : WaitCounts := { c with items := c.items - 1 }

/-- A thread blocks. -/
def block (c : WaitCounts) : WaitCounts := { c with blocked := c.blocked + 1 }

/-- A woken thread has looked at the buffer. -/
def leave (c : WaitCounts) : WaitCounts := { c with woken := c.woken - 1 }

/-- While a thread is blocked, there is a woken thread for each item. -/
def Covered (c : WaitCounts) : Prop := 0 < c.blocked → c.items ≤ c.woken

/-- A thread is blocked while there is an item, and none will look. -/
def Stuck (c : WaitCounts) : Prop := 0 < c.items ∧ 0 < c.blocked ∧ c.woken = 0

variable {c : WaitCounts}

/-- The signal comes after the item. -/
theorem signal_add (c : WaitCounts) (more : Nat) :
    { c with items := c.items + more }.signal = c.put more := by
  simp only [put, signal]
  split
  · rfl
  · rfl

theorem Covered.not_stuck (h : c.Covered) : ¬ c.Stuck := by
  rintro ⟨hitems, hblocked, hwoken⟩
  have := h hblocked
  omega

theorem Covered.put (h : c.Covered) {more : Nat} (hmore : more ≤ 1) : (c.put more).Covered := by
  unfold Covered at h ⊢
  simp only [WaitCounts.put, signal]
  split
  · omega
  · simp only
    omega

theorem Covered.take (h : c.Covered) : c.take.Covered := by
  intro hblocked
  have := h hblocked
  simp only [WaitCounts.take]
  omega

/-- A thread blocks only if there is no item. -/
theorem covered_block (h : c.items = 0) : c.block.Covered := by
  intro _
  simp only [block, h]
  omega

/-- A woken thread takes an item. -/
theorem Covered.leave_take (h : c.Covered) : c.take.leave.Covered := by
  intro hblocked
  have := h hblocked
  simp only [WaitCounts.take, WaitCounts.leave]
  omega

/-- A woken thread leaves the items to others. -/
theorem covered_leave (h : 0 < c.blocked → c.items < c.woken) : c.leave.Covered := by
  intro hblocked
  have := h hblocked
  simp only [WaitCounts.leave]
  omega

theorem not_covered_leave (h : ¬ c.Covered) : ¬ c.leave.Covered := by
  simp only [Covered, WaitCounts.leave] at h ⊢
  omega

theorem not_covered_leave_take (h : ¬ c.Covered) (hwoken : 0 < c.woken) :
    ¬ c.take.leave.Covered := by
  simp only [Covered, WaitCounts.take, WaitCounts.leave] at h ⊢
  omega

theorem stuck_of_not_covered (h : ¬ c.Covered) (hwoken : c.woken = 0) : c.Stuck := by
  simp only [Covered, Stuck] at h ⊢
  omega

end WaitCounts

end CoreRaT.Lib
