import Mathlib.Logic.Function.Basic

/-!
# `CoreRaT.Lib.HandleTable`: a table of handles

The handles from 0 to `limit - 1`, and what those refer to that are in use. `acquire` takes the
lowest handle that is free, as the kernel does with file descriptors. To release the handle that has
been acquired last gives the table back (`release_acquire`).
-/

set_option autoImplicit false

namespace CoreRaT.Lib

/-- A table of handles. -/
@[ext]
structure HandleTable (α : Type) where
  limit : Nat
  entries : Nat → Option α

namespace HandleTable

variable {α : Type}

/-- A table without handles in use. -/
def empty (limit : Nat) : HandleTable α := ⟨limit, fun _ => none⟩

/-- The lowest free handle. -/
def lowestFree (t : HandleTable α) : Option Nat :=
  (List.range t.limit).find? fun n => (t.entries n).isNone

/-- The handle `n` refers to `a`. -/
def set (t : HandleTable α) (n : Nat) (a : Option α) : HandleTable α :=
  { t with entries := Function.update t.entries n a }

/-- A new handle for `a`, if there is a free one. -/
def acquire (t : HandleTable α) (a : α) : Option (Nat × HandleTable α) :=
  match t.lowestFree with
  | none => none
  | some n => some (n, t.set n (some a))

def release (t : HandleTable α) (n : Nat) : HandleTable α := t.set n none

variable {t t' : HandleTable α} {a : α} {n : Nat}

theorem entries_of_lowestFree (h : t.lowestFree = some n) : t.entries n = none := by
  simpa using List.find?_some h

theorem acquire_eq_none : t.acquire a = none ↔ t.lowestFree = none := by
  unfold acquire
  cases t.lowestFree with
  | none => simp
  | some n => simp

theorem acquire_eq_some :
    t.acquire a = some (n, t') ↔ t.lowestFree = some n ∧ t' = t.set n (some a) := by
  unfold acquire
  cases t.lowestFree with
  | none => simp
  | some m =>
    simp only [Option.some.injEq, Prod.mk.injEq]
    constructor
    · rintro ⟨rfl, rfl⟩
      exact ⟨rfl, rfl⟩
    · rintro ⟨rfl, rfl⟩
      exact ⟨rfl, rfl⟩

/-- The handle has been free, and refers to `a` now. -/
theorem entries_acquire (h : t.acquire a = some (n, t')) :
    t.entries n = none ∧ t'.entries n = some a := by
  obtain ⟨hfree, rfl⟩ := acquire_eq_some.mp h
  exact ⟨entries_of_lowestFree hfree, Function.update_self ..⟩

theorem ne_of_acquire (h : t.acquire a = some (n, t')) : t' ≠ t := by
  obtain ⟨hbefore, hafter⟩ := entries_acquire h
  rintro rfl
  rw [hbefore] at hafter
  cases hafter

theorem release_acquire (h : t.acquire a = some (n, t')) : t'.release n = t := by
  obtain ⟨hfree, rfl⟩ := acquire_eq_some.mp h
  have hentries : Function.update t.entries n none = t.entries :=
    Function.update_eq_self_iff.mpr (entries_of_lowestFree hfree).symm
  simp only [release, set, Function.update_idem, hentries]

end HandleTable

end CoreRaT.Lib
