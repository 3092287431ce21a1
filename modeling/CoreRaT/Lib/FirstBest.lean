import Mathlib.Tactic.Common

/-!
# `CoreRaT.Lib.FirstBest`: one pass for the best entry

A loop over a list that keeps the best entry so far: the position, and the key to beat. An entry
takes the lead when it is a candidate and its key is strictly better. The key to beat at the start
need not be the key of an entry, so a candidate that is not better than it is never found.

`scan_cases` says what the loop comes to. It ends as it began, and then no candidate is better than
the key that it began with, or it has found the first of the best candidates.

`better` is a strict order in which keys may tie: `Strict`.
-/

set_option autoImplicit false

namespace CoreRaT.Lib

/-- A strict order whose ties are transitive. -/
structure Strict {β : Type} (better : β → β → Prop) : Prop where
  asymm : ∀ {x y}, better x y → ¬ better y x
  cotrans : ∀ {x y z}, better x z → better x y ∨ better y z

/-- The other direction. -/
theorem Strict.swap {β : Type} {better : β → β → Prop} (h : Strict better) :
    Strict fun x y => better y x where
  asymm hxy := h.asymm hxy
  cotrans hxz := (h.cotrans hxz).symm

/-- The order of a linearly ordered type. -/
theorem strict_lt {β : Type} [LE β] [LT β] [Std.IsLinearOrder β] [Std.LawfulOrderLT β] :
    Strict fun x y : β => x < y := by
  refine ⟨fun hxy => Std.not_lt.mpr (Std.le_of_lt hxy), ?_⟩
  intro x y z hxz
  by_cases hxy : x < y
  · exact Or.inl hxy
  · exact Or.inr (Std.lt_of_le_of_lt (Std.not_lt.mp hxy) hxz)

/-- The entry `a` at position `j` is the first of the best candidates. -/
structure IsFirstBest {α β : Type} (candidate : α → Bool) (key : α → β) (better : β → β → Prop)
    (l : List α) (j : Nat) (a : α) : Prop where
  at_pos : l[j]? = some a
  is_candidate : candidate a = true
  best : ∀ b ∈ l, candidate b = true → ¬ better (key b) (key a)
  first : ∀ n b, n < j → l[n]? = some b → candidate b = true → better (key a) (key b)

section
variable {α β : Type} {candidate : α → Bool} {key : α → β} {better : β → β → Prop}

/-- A candidate at the head, when none behind it is better. -/
theorem IsFirstBest.head (h : Strict better) {c : α} {l : List α} (hc : candidate c = true)
    (hno : ∀ b ∈ l, candidate b = true → ¬ better (key b) (key c)) :
    IsFirstBest candidate key better (c :: l) 0 c where
  at_pos := rfl
  is_candidate := hc
  best b hb hcand := by
    rcases List.mem_cons.mp hb with rfl | hb
    · exact fun hself => h.asymm hself hself
    · exact hno b hb hcand
  first n b hn := absurd hn (Nat.not_lt_zero n)

/-- One behind the head, when it is better than the head. -/
theorem IsFirstBest.cons (h : Strict better) {c a : α} {l : List α} {j : Nat}
    (ha : IsFirstBest candidate key better l j a)
    (hac : candidate c = true → better (key a) (key c)) :
    IsFirstBest candidate key better (c :: l) (j + 1) a where
  at_pos := ha.at_pos
  is_candidate := ha.is_candidate
  best b hb hcand := by
    rcases List.mem_cons.mp hb with rfl | hb
    · exact h.asymm (hac hcand)
    · exact ha.best b hb hcand
  first n b hn hb hcand := by
    cases n with
    | zero =>
      obtain rfl : c = b := Option.some.inj hb
      exact hac hcand
    | succ n => exact ha.first n b (Nat.lt_of_succ_lt_succ hn) hb hcand

end

section
variable {α β : Type} (candidate : α → Bool) (better : β → β → Prop) [DecidableRel better]
  (key : α → β)

/-- The loop from position `i` on: where the best entry is, and the key to beat. -/
def scan : (i : Nat) → (best : Option Nat) → (k : β) → List α → Option Nat × β
  | _, best, k, [] => (best, k)
  | i, best, k, a :: l =>
    if candidate a ∧ better (key a) k then scan (i + 1) (some i) (key a) l
    else scan (i + 1) best k l

variable {better}

/-- What the loop comes to: what it began with, or the first of the best candidates. -/
theorem scan_cases (h : Strict better) (l : List α) (i : Nat) (best : Option Nat) (k : β) :
    (scan candidate better key i best k l = (best, k) ∧
      ∀ a ∈ l, candidate a = true → ¬ better (key a) k) ∨
    ∃ j a, scan candidate better key i best k l = (some (i + j), key a) ∧ better (key a) k ∧
      IsFirstBest candidate key better l j a := by
  induction l generalizing i best k with
  | nil => exact Or.inl ⟨rfl, by simp⟩
  | cons c l ih =>
    have hnext : ∀ j, i + 1 + j = i + (j + 1) := fun j => by omega
    by_cases hc : candidate c = true ∧ better (key c) k
    · -- The entry takes the lead, and the rest of the loop starts from its key.
      rw [scan, if_pos hc]
      right
      rcases ih (i + 1) (some i) (key c) with ⟨heq, hno⟩ | ⟨j, a, heq, hlt, ha⟩
      · exact ⟨0, c, heq, hc.2, .head h hc.1 hno⟩
      · have hak : better (key a) k := by
          rcases h.cotrans (y := k) hlt with hak | hkc
          · exact hak
          · exact absurd hkc (h.asymm hc.2)
        exact ⟨j + 1, a, by rw [heq, hnext], hak, ha.cons h fun _ => hlt⟩
    · -- The entry is not better than the best one so far.
      rw [scan, if_neg hc]
      have hskip : candidate c = true → ¬ better (key c) k := fun hcand hlt => hc ⟨hcand, hlt⟩
      rcases ih (i + 1) best k with ⟨heq, hno⟩ | ⟨j, a, heq, hlt, ha⟩
      · refine Or.inl ⟨heq, ?_⟩
        intro b hb hcand
        rcases List.mem_cons.mp hb with rfl | hb
        · exact hskip hcand
        · exact hno b hb hcand
      · have hac : candidate c = true → better (key a) (key c) := by
          intro hcand
          rcases h.cotrans (y := key c) hlt with hac | hck
          · exact hac
          · exact absurd hck (hskip hcand)
        exact Or.inr ⟨j + 1, a, by rw [heq, hnext], hlt, ha.cons h hac⟩

end

end CoreRaT.Lib
