import CoreRaT.Lib.Run

/-!
# `CoreRaT.Lib.Trace`: what the steps of a run give, in order

`trace` puts together the lists that the single steps of a run give. A system that passes things on
in order is a line: a step puts some in at its end and takes some out at its front. `line` says
that a law for one step is a law for every run: what was put in is what was taken out and then what
is still in the line.
-/

set_option autoImplicit false

namespace CoreRaT.Lib

variable {σ ε α : Type}

/-- What the steps of a run give, one after the other. -/
def trace (step : σ → ε → σ) (emit : σ → ε → List α) : σ → List ε → List α
  | _, [] => []
  | s, e :: es => emit s e ++ trace step emit (step s e) es

variable {step : σ → ε → σ}

@[simp] theorem trace_nil (emit : σ → ε → List α) (s : σ) : trace step emit s [] = [] := rfl

@[simp] theorem trace_cons (emit : σ → ε → List α) (s : σ) (e : ε) (es : List ε) :
    trace step emit s (e :: es) = emit s e ++ trace step emit (step s e) es := rfl

/-- The rule for a line. The guard `Q` keeps the invariant `J`. -/
theorem line {J : σ → Prop} {Q : σ → ε → Prop} (contents : σ → List α)
    (putIn takeOut : σ → ε → List α) (hJ : ∀ s e, J s → Q s e → J (step s e))
    (hstep : ∀ s e, J s → Q s e →
      contents s ++ putIn s e = takeOut s e ++ contents (step s e))
    {s : σ} {es : List ε} (hs : J s) (hQ : AllSteps step Q s es) :
    contents s ++ trace step putIn s es =
      trace step takeOut s es ++ contents (runFrom step s es) := by
  induction es generalizing s with
  | nil => simp
  | cons e es ih =>
    calc contents s ++ trace step putIn s (e :: es)
      _ = (contents s ++ putIn s e) ++ trace step putIn (step s e) es := by simp
      _ = takeOut s e ++ (contents (step s e) ++ trace step putIn (step s e) es) := by
        rw [hstep s e hs hQ.1, List.append_assoc]
      _ = trace step takeOut s (e :: es) ++ contents (runFrom step s (e :: es)) := by
        rw [ih (hJ s e hs hQ.1) hQ.2]
        simp

end CoreRaT.Lib
