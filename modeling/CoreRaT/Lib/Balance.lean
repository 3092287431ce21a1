import Mathlib.Algebra.BigOperators.Group.Finset.Piecewise
import CoreRaT.Lib.Run

/-!
# `CoreRaT.Lib.Balance`: what a run puts in, keeps and loses

Things that a system of steps passes on: a step puts some in, and some leave. `total` adds up over
a run what single steps do, and `balance` says that a law for one step is a law for every run.
The number of things is often a sum over places of which a step changes one;
`sum_add_of_eq_off` is about such a step.
-/

set_option autoImplicit false

namespace CoreRaT.Lib

section
variable {σ ε : Type}

/-- The sum of `c` over the steps of a run. -/
def total (step : σ → ε → σ) (c : σ → ε → Nat) : σ → List ε → Nat
  | _, [] => 0
  | s, e :: es => c s e + total step c (step s e) es

variable {step : σ → ε → σ}

@[simp] theorem total_nil (c : σ → ε → Nat) (s : σ) : total step c s [] = 0 := rfl

@[simp] theorem total_cons (c : σ → ε → Nat) (s : σ) (e : ε) (es : List ε) :
    total step c s (e :: es) = c s e + total step c (step s e) es := rfl

/-- If each step accounts for what it puts in and what it loses, then so does a run. `J` is an
invariant that the steps need. -/
theorem balance {J : σ → Prop} (kept : σ → Nat) (gain loss : σ → ε → Nat)
    (hJ : ∀ s e, J s → J (step s e))
    (hstep : ∀ s e, J s → kept (step s e) + loss s e = kept s + gain s e) {s : σ} (hs : J s)
    (es : List ε) :
    kept (runFrom step s es) + total step loss s es = kept s + total step gain s es := by
  induction es generalizing s with
  | nil => simp
  | cons e es ih =>
    have hfirst := hstep s e hs
    have hrest := ih (hJ s e hs)
    simp only [runFrom_cons, total_cons]
    omega

end

/-- Two sums that differ in one place. -/
theorem sum_add_of_eq_off {α : Type} [DecidableEq α] {s : Finset α} (g h : α → Nat) {a : α}
    (ha : a ∈ s) (hoff : ∀ b ∈ s, b ≠ a → h b = g b) :
    ∑ b ∈ s, h b + g a = ∑ b ∈ s, g b + h a := by
  have hh := Finset.add_sum_erase s h ha
  have hg := Finset.add_sum_erase s g ha
  have hrest : ∑ b ∈ s.erase a, h b = ∑ b ∈ s.erase a, g b :=
    Finset.sum_congr rfl fun b hb => hoff b (Finset.mem_of_mem_erase hb) (Finset.ne_of_mem_erase hb)
  omega

end CoreRaT.Lib
