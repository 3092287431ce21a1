import Mathlib.Logic.Equiv.Defs
import Mathlib.Logic.Function.Basic

/-!
# `CoreRaT.Lib.Ownership`: resources with one owner

Resources come into being and go again. Each place holds one of them, or none. `Owned outside held
live` says that the live resources are those of the outside and those that a place holds, that no
place holds one of the outside, and that no two places hold the same.

`acquire`, `release` and `adopt` change what one place holds. `comp` lets places exchange what they
hold. The rest is about the outside.
-/

set_option autoImplicit false

namespace CoreRaT.Lib

variable {ι ρ : Type}

/-- Each live resource belongs to the outside or to exactly one place. -/
structure Owned (outside : ρ → Prop) (held : ι → Option ρ) (live : ρ → Prop) : Prop where
  live_iff : ∀ r, live r ↔ outside r ∨ ∃ i, held i = some r
  apart : ∀ i r, held i = some r → ¬ outside r
  single : ∀ i j r, held i = some r → held j = some r → i = j

namespace Owned

variable {outside : ρ → Prop} {held : ι → Option ρ} {live : ρ → Prop}

/-- A resource that a place holds is live. -/
theorem live_of_held (h : Owned outside held live) {i : ι} {r : ρ} (hi : held i = some r) :
    live r :=
  (h.live_iff r).mpr (.inr ⟨i, hi⟩)

/-- A live resource that is not of the outside has exactly one owner. -/
theorem existsUnique (h : Owned outside held live) {r : ρ} (hr : live r) (hout : ¬ outside r) :
    ∃! i, held i = some r := by
  rcases (h.live_iff r).mp hr with ho | ⟨i, hi⟩
  · exact absurd ho hout
  · exact ⟨i, hi, fun j hj => h.single j i r hj hi⟩

/-- At first all live resources are of the outside. -/
theorem initial (outside : ρ → Prop) : Owned outside (fun _ : ι => none) outside where
  live_iff r := by simp
  apart i r hi := by cases hi
  single i j r hi := by cases hi

/-- The places exchange what they hold. -/
theorem comp (h : Owned outside held live) (e : Equiv.Perm ι) :
    Owned outside (fun i => held (e i)) live where
  live_iff r := by
    rw [h.live_iff r, e.surjective.exists]
  apart i r hi := h.apart (e i) r hi
  single i j r hi hj := e.injective (h.single (e i) (e j) r hi hj)

/-- The outside gets a new resource. -/
theorem insert_outside (h : Owned outside held live) {r : ρ} (hr : ¬ live r) :
    Owned (fun x => x = r ∨ outside x) held (fun x => x = r ∨ live x) where
  live_iff x := by
    rw [h.live_iff x, or_assoc]
  apart i x hi := by
    rintro (rfl | hx)
    · exact hr (h.live_of_held hi)
    · exact h.apart i x hi hx
  single := h.single

/-- The outside gives up a resource of its own. -/
theorem erase_outside (h : Owned outside held live) {r : ρ} (hr : outside r) :
    Owned (fun x => outside x ∧ x ≠ r) held (fun x => live x ∧ x ≠ r) where
  live_iff x := by
    rw [h.live_iff x]
    constructor
    · rintro ⟨hx | hx, hne⟩
      · exact .inl ⟨hx, hne⟩
      · exact .inr hx
    · rintro (⟨hx, hne⟩ | ⟨i, hi⟩)
      · exact ⟨.inl hx, hne⟩
      · exact ⟨.inr ⟨i, hi⟩, fun hxr => h.apart i x hi (hxr ▸ hr)⟩
  apart i x hi hx := h.apart i x hi hx.1
  single := h.single

variable [DecidableEq ι]

/-- A place that holds nothing acquires a new resource. -/
theorem acquire (h : Owned outside held live) {i : ι} {r : ρ} (hi : held i = none)
    (hr : ¬ live r) :
    Owned outside (Function.update held i (some r)) (fun x => x = r ∨ live x) where
  live_iff x := by
    rw [h.live_iff x]
    constructor
    · rintro (rfl | hx | ⟨j, hj⟩)
      · exact .inr ⟨i, by simp⟩
      · exact .inl hx
      · refine .inr ⟨j, ?_⟩
        rw [Function.update_of_ne]
        · exact hj
        · rintro rfl
          simp [hi] at hj
    · rintro (hx | ⟨j, hj⟩)
      · exact .inr (.inl hx)
      · rw [Function.update_apply] at hj
        split at hj
        · exact .inl (Option.some.inj hj).symm
        · exact .inr (.inr ⟨j, hj⟩)
  apart j x hj hx := by
    rw [Function.update_apply] at hj
    split at hj
    · cases hj
      exact hr ((h.live_iff r).mpr (.inl hx))
    · exact h.apart j x hj hx
  single j k x hj hk := by
    -- The new resource is not live before, so no other place holds it.
    have hnew : ∀ l, held l ≠ some r := fun l hl => hr (h.live_of_held hl)
    rw [Function.update_apply] at hj hk
    split at hj <;> split at hk
    · simp_all
    · cases hj
      exact absurd hk (hnew k)
    · cases hk
      exact absurd hj (hnew j)
    · exact h.single j k x hj hk

/-- A place gives up what it holds. -/
theorem release (h : Owned outside held live) {i : ι} {r : ρ} (hi : held i = some r) :
    Owned outside (Function.update held i none) (fun x => live x ∧ x ≠ r) where
  live_iff x := by
    rw [h.live_iff x]
    constructor
    · rintro ⟨hx | ⟨j, hj⟩, hne⟩
      · exact .inl hx
      · refine .inr ⟨j, ?_⟩
        rw [Function.update_of_ne]
        · exact hj
        · rintro rfl
          exact hne (Option.some.inj (hj.symm.trans hi))
    · rintro (hx | ⟨j, hj⟩)
      · exact ⟨.inl hx, fun hxr => h.apart i r hi (hxr ▸ hx)⟩
      · rw [Function.update_apply] at hj
        split at hj
        · cases hj
        · case isFalse hne =>
          refine ⟨.inr ⟨j, hj⟩, ?_⟩
          rintro rfl
          exact hne (h.single j i x hj hi)
  apart j x hj := by
    rw [Function.update_apply] at hj
    split at hj
    · cases hj
    · exact h.apart j x hj
  single j k x hj hk := by
    rw [Function.update_apply] at hj hk
    split at hj
    · cases hj
    · split at hk
      · cases hk
      · exact h.single j k x hj hk

/-- A place that holds nothing takes over a resource of the outside. -/
theorem adopt (h : Owned outside held live) {i : ι} {r : ρ} (hi : held i = none)
    (hr : outside r) :
    Owned (fun x => outside x ∧ x ≠ r) (Function.update held i (some r)) live := by
  -- It goes from the outside, and comes back as a new one.
  have hkept := (h.erase_outside hr).acquire hi (r := r) (fun hlive => hlive.2 rfl)
  have hlive : (fun x => x = r ∨ live x ∧ x ≠ r) = live := by
    funext x
    by_cases hx : x = r
    · subst hx
      simp [(h.live_iff x).mpr (.inl hr)]
    · simp [hx]
  rwa [hlive] at hkept

end Owned

end CoreRaT.Lib
