import Mathlib.Algebra.Order.Group.Multiset
import Mathlib.Data.List.Pairwise

/-!
# `CoreRaT.Lib.PriorityBag`: a bounded bag with priorities

An abstract queue: a multiset of at most `capacity` elements, each with a rank. `put` adds an
element while there is room. In a full bag it takes the place of one with the lowest rank, or it is
refused. `take` gives an element of the highest rank. Which one of several with the same rank is
left open.

`Step` is one call with its result, `Run` a list of calls. The rules:

* `Run.card_le`: there are never more than `capacity` elements.
* `Run.conserved`: what has been put and accepted is in the bag, has been taken, or has been lost,
  once for each time it was put.
* `Run.keeps_best`: a burst of puts leaves the elements with the highest ranks.
* `Run.drains`: a row of takes gives the elements in the order of their ranks.
-/

set_option autoImplicit false

namespace CoreRaT.Lib

/-- A call on a bag, with its result. -/
inductive BagOp (α : Type)
  | put (x : α) (ok : Bool)
  | take (result : Option α)
deriving DecidableEq

namespace PriorityBag

variable {α κ : Type} [LinearOrder κ] (rank : α → κ) (capacity : ℕ)

/-- One call. -/
inductive Step : Multiset α → BagOp α → Multiset α → Prop
  | insert {s : Multiset α} {x : α} : s.card < capacity → Step s (.put x true) (x ::ₘ s)
  /-- `y` has the lowest rank and gives way. -/
  | replace {s : Multiset α} {x y : α} :
      (y ::ₘ s).card = capacity → (∀ z ∈ s, rank y ≤ rank z) → rank y ≤ rank x →
        Step (y ::ₘ s) (.put x true) (x ::ₘ s)
  | refuse {s : Multiset α} {x : α} :
      s.card = capacity → (∀ z ∈ s, rank x ≤ rank z) → Step s (.put x false) s
  | take {s : Multiset α} {x : α} :
      (∀ z ∈ s, rank z ≤ rank x) → Step (x ::ₘ s) (.take (some x)) s
  | empty : Step 0 (.take none) 0

/-- Some calls, one after the other. -/
inductive Run : Multiset α → List (BagOp α) → Multiset α → Prop
  | nil (s : Multiset α) : Run s [] s
  | cons {s t u : Multiset α} {op : BagOp α} {ops : List (BagOp α)} :
      Step rank capacity s op t → Run t ops u → Run s (op :: ops) u

/-- What has been put. -/
def offered (ops : List (BagOp α)) : List α :=
  ops.filterMap fun
    | .put x _ => some x
    | .take _ => none

/-- What has been put and was not refused. -/
def accepted (ops : List (BagOp α)) : List α :=
  ops.filterMap fun
    | .put x true => some x
    | _ => none

/-- What has been taken. -/
def taken (ops : List (BagOp α)) : List α :=
  ops.filterMap fun
    | .take result => result
    | .put _ _ => none

variable {rank capacity}

theorem Run.append {s t u : Multiset α} {ops ops' : List (BagOp α)}
    (h : Run rank capacity s ops t) (h' : Run rank capacity t ops' u) :
    Run rank capacity s (ops ++ ops') u := by
  induction h with
  | nil => exact h'
  | cons hstep _ ih => exact .cons hstep (ih h')

/-- A run in two parts. -/
theorem Run.split {s u : Multiset α} {ops ops' : List (BagOp α)}
    (h : Run rank capacity s (ops ++ ops') u) :
    ∃ t, Run rank capacity s ops t ∧ Run rank capacity t ops' u := by
  induction ops generalizing s with
  | nil => exact ⟨s, .nil s, h⟩
  | cons op ops ih =>
    cases h with
    | cons hstep hrest =>
      obtain ⟨t, hfirst, hsecond⟩ := ih hrest
      exact ⟨t, .cons hstep hfirst, hsecond⟩

/-- One call is a run. -/
theorem Step.run {s t : Multiset α} {op : BagOp α} (h : Step rank capacity s op t) :
    Run rank capacity s [op] t :=
  .cons h (.nil t)

/-! ### Invariants -/

theorem Step.card_le {s t : Multiset α} {op : BagOp α} (h : Step rank capacity s op t)
    (hs : s.card ≤ capacity) : t.card ≤ capacity := by
  cases h with
  | insert hroom =>
    rw [Multiset.card_cons]
    omega
  | replace hfull _ _ =>
    rw [Multiset.card_cons] at hfull ⊢
    omega
  | refuse _ _ => exact hs
  | take _ =>
    rw [Multiset.card_cons] at hs
    omega
  | empty => exact hs

theorem Run.card_le {s t : Multiset α} {ops : List (BagOp α)} (h : Run rank capacity s ops t)
    (hs : s.card ≤ capacity) : t.card ≤ capacity := by
  induction h with
  | nil => exact hs
  | cons hstep _ ih => exact ih (hstep.card_le hs)

/-- Nothing comes twice, and nothing comes from nowhere: what there was and what has been accepted
is what has been taken, what is left, and what has been lost. -/
theorem Run.conserved {s t : Multiset α} {ops : List (BagOp α)} (h : Run rank capacity s ops t) :
    ∃ lost : Multiset α, s + accepted ops = taken ops + t + lost := by
  induction h with
  | nil s => exact ⟨0, by simp [accepted, taken]⟩
  | @cons s t u op ops hstep _ ih =>
    obtain ⟨lost, ih⟩ := ih
    cases hstep with
    | @insert _ x _ =>
      refine ⟨lost, ?_⟩
      show s + ↑(x :: accepted ops) = ↑(taken ops) + u + lost
      rw [← ih, ← Multiset.cons_coe, Multiset.add_cons, Multiset.cons_add]
    | @replace s x y _ _ _ =>
      refine ⟨y ::ₘ lost, ?_⟩
      show y ::ₘ s + ↑(x :: accepted ops) = ↑(taken ops) + u + y ::ₘ lost
      rw [Multiset.add_cons, ← ih, ← Multiset.cons_coe, Multiset.add_cons, Multiset.cons_add,
        Multiset.cons_add, Multiset.cons_swap]
    | refuse _ _ => exact ⟨lost, ih⟩
    | @take _ x _ =>
      refine ⟨lost, ?_⟩
      show x ::ₘ t + ↑(accepted ops) = ↑(x :: taken ops) + u + lost
      rw [Multiset.cons_add, ih, ← Multiset.cons_coe, Multiset.cons_add, Multiset.cons_add]
    | empty => exact ⟨lost, ih⟩

/-! ### A burst of puts -/

/-- Of the elements `all`, the bag keeps those with the highest ranks. It loses some only when it is
full. -/
def KeepsBest (rank : α → κ) (capacity : ℕ) (all t : Multiset α) : Prop :=
  ∃ lost, all = t + lost ∧ (∀ w ∈ lost, ∀ z ∈ t, rank w ≤ rank z) ∧
    (lost = 0 ∨ t.card = capacity)

theorem keepsBest_self (s : Multiset α) : KeepsBest rank capacity s s :=
  ⟨0, by simp, by simp, Or.inl rfl⟩

theorem KeepsBest.put {all s t : Multiset α} (h : KeepsBest rank capacity all s) {x : α}
    {ok : Bool} (hstep : Step rank capacity s (.put x ok) t) :
    KeepsBest rank capacity (x ::ₘ all) t := by
  obtain ⟨lost, rfl, hranks, hlost⟩ := h
  cases hstep with
  | insert hroom =>
    -- There was room, so nothing has been lost yet.
    obtain rfl : lost = 0 := hlost.resolve_right (by omega)
    exact ⟨0, by simp, by simp, Or.inl rfl⟩
  | @replace s _ y hfull hleast hle =>
    refine ⟨y ::ₘ lost, ?_, ?_, Or.inr ?_⟩
    · rw [Multiset.add_cons, Multiset.cons_add, Multiset.cons_add, Multiset.cons_swap]
    · intro w hw z hz
      -- What was lost before is not above `y`, which was in the bag then.
      have hwy : rank w ≤ rank y := by
        rcases Multiset.mem_cons.mp hw with rfl | hw
        · exact le_refl _
        · exact hranks w hw y (Multiset.mem_cons_self y s)
      rcases Multiset.mem_cons.mp hz with rfl | hz
      · exact hwy.trans hle
      · exact hwy.trans (hleast z hz)
    · rwa [Multiset.card_cons] at hfull ⊢
  | refuse hfull hle =>
    refine ⟨x ::ₘ lost, (Multiset.add_cons ..).symm, ?_, Or.inr hfull⟩
    intro w hw z hz
    rcases Multiset.mem_cons.mp hw with rfl | hw
    · exact hle z hz
    · exact hranks w hw z hz

/-- After a burst of puts, the bag holds the best of what it held and what was put. -/
theorem Run.keeps_best {s t : Multiset α} {ops : List (BagOp α)} (h : Run rank capacity s ops t)
    (hputs : ∀ op ∈ ops, ∃ x ok, op = .put x ok) {all : Multiset α}
    (hs : KeepsBest rank capacity all s) : KeepsBest rank capacity (all + offered ops) t := by
  induction h generalizing all with
  | nil => simpa [offered] using hs
  | @cons s t u op ops hstep _ ih =>
    obtain ⟨x, ok, rfl⟩ := hputs op List.mem_cons_self
    have hrest := ih (fun op hop => hputs op (List.mem_cons_of_mem _ hop)) (hs.put hstep)
    have hall : all + ↑(offered (.put x ok :: ops)) = x ::ₘ all + ↑(offered ops) := by
      show all + ↑(x :: offered ops) = _
      rw [← Multiset.cons_coe, Multiset.add_cons, Multiset.cons_add]
    rwa [hall]

/-! ### A row of takes -/

/-- A row of takes gives elements in the order of their ranks, the highest first, and nothing once
the bag is empty. What is left has no higher rank. -/
theorem Run.drains {s t : Multiset α} {results : List (Option α)}
    (h : Run rank capacity s (results.map .take) t) :
    ∃ xs : List α, results = xs.map some ++ List.replicate (results.length - xs.length) none ∧
      xs.Pairwise (fun x y => rank y ≤ rank x) ∧ s = ↑xs + t ∧
      (∀ x ∈ xs, ∀ z ∈ t, rank z ≤ rank x) ∧ xs.length = min results.length s.card := by
  induction results generalizing s with
  | nil =>
    cases h with
    | nil => exact ⟨[], by simp⟩
  | cons result results ih =>
    cases h with
    | @cons _ s' _ _ _ hstep hrest =>
      obtain ⟨xs, hresults, hsorted, hs', hleft, hlen⟩ := ih hrest
      cases hstep with
      | @take _ x hle =>
        refine ⟨x :: xs, ?_, ?_, ?_, ?_, ?_⟩
        · rw [List.length_cons, List.length_cons, Nat.add_sub_add_right, List.map_cons,
            List.cons_append, ← hresults]
        · refine List.pairwise_cons.mpr ⟨fun y hy => hle y ?_, hsorted⟩
          rw [hs']
          exact Multiset.mem_add.mpr (Or.inl hy)
        · rw [hs', ← Multiset.cons_coe, Multiset.cons_add]
        · intro y hy z hz
          rcases List.mem_cons.mp hy with rfl | hy
          · refine hle z ?_
            rw [hs']
            exact Multiset.mem_add.mpr (Or.inr hz)
          · exact hleft y hy z hz
        · rw [List.length_cons, List.length_cons, Multiset.card_cons, hlen]
          omega
      | empty =>
        rw [Multiset.card_zero, Nat.min_zero] at hlen
        obtain rfl : xs = [] := List.length_eq_zero_iff.mp hlen
        refine ⟨[], ?_, hsorted, hs', hleft, by simp⟩
        show none :: results = List.replicate (results.length + 1) none
        rw [List.replicate_succ]
        exact congrArg (none :: ·) hresults

end PriorityBag

end CoreRaT.Lib
