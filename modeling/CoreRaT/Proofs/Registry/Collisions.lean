import Mathlib.Data.List.Nodup
import CoreRaT.Spec.MessageRegistry

/-!
# `CoreRaT.Proofs.Registry.Collisions`: the pairwise check

`check_all_pairs` compares the first two definitions and goes on with the others behind one of the
two, and behind the other. `nodup_cons_cons` is why this reaches every pair: a pair in a list is the
first two, or it is in one of the two lists that leave one of them out.

`check_eq` says what comes out for a list of any length, and `Instantiates.length_eq` that each
instantiation is on a list with one definition less.
-/

set_option autoImplicit false

namespace CoreRaT.Spec

namespace CheckCollisions

open MessageDefinition

variable {τ : Type}

/-- The entries of a list differ when the first two do, and those of the two lists without one of
these. -/
theorem nodup_cons_cons {α : Type} (a b : α) (l : List α) :
    (a :: b :: l).Nodup ↔ a ≠ b ∧ (a :: l).Nodup ∧ (b :: l).Nodup := by
  simp only [List.nodup_cons, List.mem_cons, not_or]
  constructor
  · intro h
    exact ⟨h.1.1, ⟨h.1.2, h.2.2⟩, h.2⟩
  · intro h
    exact ⟨⟨h.1, h.2.1.1⟩, h.2.2⟩

theorem assertDistinct_of_ne {first second : MessageDefinition τ}
    (h : first.messageId ≠ second.messageId) : assertDistinct first second = .ok () := by
  rw [assertDistinct, if_pos h]

theorem assertDistinct_of_eq {first second : MessageDefinition τ}
    (h : first.messageId = second.messageId) :
    assertDistinct first second = .error collisionDetected := by
  rw [assertDistinct, if_neg (fun hne => hne h)]

/-- The induction is on the definitions behind the first two. Both calls are on the same rest, so
the hypothesis is for any first two. -/
theorem checkAllPairs_eq (first second : MessageDefinition τ) (rest : List (MessageDefinition τ)) :
    checkAllPairs first second rest =
      if ((first :: second :: rest).map messageId).Nodup then .ok true
      else .error collisionDetected := by
  induction rest generalizing first second with
  | nil =>
    rw [checkAllPairs]
    by_cases hid : first.messageId = second.messageId
    · rw [assertDistinct_of_eq hid, if_neg (by simp [hid])]
      rfl
    · rw [assertDistinct_of_ne hid, if_pos (by simp [hid])]
      rfl
  | cons next rest ih =>
    rw [checkAllPairs, ih first next, ih second next]
    simp only [List.map_cons, nodup_cons_cons first.messageId second.messageId]
    by_cases hid : first.messageId = second.messageId
    · rw [assertDistinct_of_eq hid]
      simp only [hid, ne_eq, not_true_eq_false, false_and, if_false]
      rfl
    · rw [assertDistinct_of_ne hid]
      by_cases hfirst : (first.messageId :: next.messageId :: rest.map messageId).Nodup
      · by_cases hsecond : (second.messageId :: next.messageId :: rest.map messageId).Nodup
        · rw [if_pos hfirst, if_pos hsecond, if_pos ⟨hid, hfirst, hsecond⟩]
          rfl
        · rw [if_pos hfirst, if_neg hsecond, if_neg (fun h => hsecond h.2.2)]
          rfl
      · -- The second call is instantiated all the same, but the first has failed already.
        simp only [hfirst, false_and, and_false, if_false]
        rfl

/-- `check` returns `true`, or one of its assertions fails. -/
theorem check_eq (defs : List (MessageDefinition τ)) :
    check defs =
      if (defs.map messageId).Nodup then .ok true else .error collisionDetected := by
  cases defs with
  | nil => rfl
  | cons first rest =>
    cases rest with
    | nil => exact (if_pos (List.nodup_singleton _)).symm
    | cons second rest => exact checkAllPairs_eq first second rest

/-! ### Termination -/

/-- Each instantiation leaves one definition out. -/
theorem Instantiates.length_eq {defs defs' : List (MessageDefinition τ)}
    (h : Instantiates defs defs') : defs'.length + 1 = defs.length := by
  cases h with
  | withFirst => rfl
  | withSecond => rfl

/-- No chain of instantiations is infinite. -/
theorem acc_instantiates (defs : List (MessageDefinition τ)) :
    Acc (fun b a : List (MessageDefinition τ) => Instantiates a b) defs := by
  refine Subrelation.accessible ?_ (InvImage.accessible List.length (Nat.lt_wfRel.wf.apply _))
  intro a b h
  show a.length < b.length
  have hlen := h.length_eq
  omega

/-- **The check is complete.** For a list of definitions of any length, all assertions of `check`
hold and it returns `true` exactly when the ids differ two by two, and the recursion comes to an
end. -/
theorem check_ok_iff (defs : List (MessageDefinition τ)) :
    (check defs = .ok true ↔ (defs.map messageId).Nodup) ∧
      Acc (fun b a : List (MessageDefinition τ) => Instantiates a b) defs := by
  constructor
  · rw [check_eq]
    by_cases hnodup : (defs.map messageId).Nodup
    · simp [hnodup]
    · simp [hnodup]
  · exact acc_instantiates defs

end CheckCollisions

end CoreRaT.Spec
