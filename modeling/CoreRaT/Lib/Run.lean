import Mathlib.Tactic.Common

/-!
# `CoreRaT.Lib.Run`: runs of an event machine

An event machine is a total function `step : σ → ε → σ`. An event that is not enabled in a
state leaves the state unchanged, so every list of events is a run, and a statement over all
lists covers every order of the events.

`AllStates step P s es` says that `P` holds in every state of the run `es` from `s`, the
first and the last one included. `AllSteps step Q s es` says that each event of the run meets
the guard `Q` in the state it is taken from. The rules:

* `allStates_of_allSteps`: an invariant that every guarded step keeps holds along every
  guarded run.
* `allStates_iff_allSteps`: when the guard is exact for one step, it is exact for runs.
* `allStates_of_step`: an invariant that every step keeps holds along every run.
* `related_of_allSteps`: a relation between two machines that every guarded event keeps holds after
  every part of a guarded run.

Nothing here depends on what the states and the events are.
-/

set_option autoImplicit false

namespace CoreRaT.Lib

variable {σ ε : Type} (step : σ → ε → σ)

/-- The state after the events `es` from `s`. -/
def runFrom (s : σ) (es : List ε) : σ := es.foldl step s

/-- `P` holds in `s` and in every state that the run `es` from `s` reaches. -/
def AllStates (P : σ → Prop) : σ → List ε → Prop
  | s, [] => P s
  | s, e :: es => P s ∧ AllStates P (step s e) es

/-- Every event of the run `es` from `s` meets the guard `Q` in the state before it. -/
def AllSteps (Q : σ → ε → Prop) : σ → List ε → Prop
  | _, [] => True
  | s, e :: es => Q s e ∧ AllSteps Q (step s e) es

instance AllSteps.decidable (Q : σ → ε → Prop) [∀ s e, Decidable (Q s e)] :
    (s : σ) → (es : List ε) → Decidable (AllSteps step Q s es)
  | _, [] => isTrue trivial
  | s, e :: es =>
    have := AllSteps.decidable Q (step s e) es
    inferInstanceAs (Decidable (Q s e ∧ AllSteps step Q (step s e) es))

@[simp] theorem runFrom_nil (s : σ) : runFrom step s [] = s := rfl

@[simp] theorem runFrom_cons (s : σ) (e : ε) (es : List ε) :
    runFrom step s (e :: es) = runFrom step (step s e) es := rfl

theorem runFrom_append (s : σ) (es fs : List ε) :
    runFrom step s (es ++ fs) = runFrom step (runFrom step s es) fs :=
  List.foldl_append

variable {step}

/-- The first state of a run is one of its states. -/
theorem AllStates.head {P : σ → Prop} {s : σ} {es : List ε} (h : AllStates step P s es) :
    P s := by
  cases es with
  | nil => exact h
  | cons e es => exact h.1

/-- The last state of a run is one of its states. -/
theorem AllStates.last {P : σ → Prop} {s : σ} {es : List ε} (h : AllStates step P s es) :
    P (runFrom step s es) := by
  induction es generalizing s with
  | nil => exact h
  | cons e es ih => exact ih h.2

/-- A weaker property holds along the same run. -/
theorem AllStates.mono {P P' : σ → Prop} (hPP' : ∀ s, P s → P' s) {s : σ} {es : List ε}
    (h : AllStates step P s es) : AllStates step P' s es := by
  induction es generalizing s with
  | nil => exact hPP' s h
  | cons e es ih => exact ⟨hPP' s h.1, ih h.2⟩

/-- A property of all events of a run can be added to the guard. -/
theorem AllSteps.and_forall {Q : σ → ε → Prop} {E : ε → Prop} {s : σ} {es : List ε}
    (h : AllSteps step Q s es) (hE : ∀ e ∈ es, E e) :
    AllSteps step (fun s e => Q s e ∧ E e) s es := by
  induction es generalizing s with
  | nil => trivial
  | cons e es ih =>
    exact ⟨⟨h.1, hE e (by simp)⟩, ih h.2 fun e he => hE e (by simp [he])⟩

/-- A guard that does not look at the state. -/
theorem allSteps_of_forall {E : ε → Prop} {s : σ} {es : List ε} (hE : ∀ e ∈ es, E e) :
    AllSteps step (fun _ e => E e) s es := by
  induction es generalizing s with
  | nil => trivial
  | cons e es ih => exact ⟨hE e (by simp), ih fun e he => hE e (by simp [he])⟩

/-- A run in two parts. -/
theorem allSteps_append {Q : σ → ε → Prop} {s : σ} {es fs : List ε} :
    AllSteps step Q s (es ++ fs) ↔
      AllSteps step Q s es ∧ AllSteps step Q (runFrom step s es) fs := by
  induction es generalizing s with
  | nil => simp [AllSteps]
  | cons e es ih => simp only [List.cons_append, AllSteps, ih, runFrom_cons, and_assoc]

/-- The last step of a guarded run. -/
theorem AllSteps.last {Q : σ → ε → Prop} {s : σ} {es : List ε} {e : ε}
    (h : AllSteps step Q s (es ++ [e])) : Q (runFrom step s es) e :=
  (allSteps_append.mp h).2.1

/-- A guard that keeps the invariant `J`, and implies another one in the states with it, does so
along a run. -/
theorem AllSteps.imp {J : σ → Prop} {Q Q' : σ → ε → Prop} (hJ : ∀ s e, J s → Q s e → J (step s e))
    (hQQ' : ∀ s e, J s → Q s e → Q' s e) {s : σ} {es : List ε} (hs : J s)
    (h : AllSteps step Q s es) : AllSteps step Q' s es := by
  induction es generalizing s with
  | nil => trivial
  | cons e es ih => exact ⟨hQQ' s e hs h.1, ih (hJ s e hs h.1) h.2⟩

/-- An invariant that every guarded step keeps holds along every guarded run. -/
theorem allStates_of_allSteps {P : σ → Prop} {Q : σ → ε → Prop}
    (hstep : ∀ s e, P s → Q s e → P (step s e)) {s : σ} {es : List ε}
    (hs : P s) (hQ : AllSteps step Q s es) : AllStates step P s es := by
  induction es generalizing s with
  | nil => exact hs
  | cons e es ih => exact ⟨hs, ih (hstep s e hs hQ.1) hQ.2⟩

/-- The unguarded rule: an invariant that every step keeps holds along every run. -/
theorem allStates_of_step {P : σ → Prop} (hstep : ∀ s e, P s → P (step s e)) {s : σ}
    (es : List ε) (hs : P s) : AllStates step P s es := by
  induction es generalizing s with
  | nil => exact hs
  | cons e es ih => exact ⟨hs, ih (hstep s e hs)⟩

/-- The exact rule, for runs whose events satisfy `E`. Suppose the step from a state with `P`
keeps `P` exactly when the guard `Q` holds. Then a run from a state with `P` keeps `P`
throughout exactly when each of its steps meets `Q`. The invariant `J` holds along every such
run and may be used at each step. -/
theorem allStates_iff_allSteps_of_guard {J P : σ → Prop} {Q E : σ → ε → Prop}
    (hJ : ∀ s e, E s e → J s → J (step s e))
    (hstep : ∀ s e, E s e → J s → P s → (P (step s e) ↔ Q s e)) {s : σ} {es : List ε}
    (hE : AllSteps step E s es) (hJs : J s) (hs : P s) :
    AllStates step P s es ↔ AllSteps step Q s es := by
  -- Induction on the run. `hiff` is exact for the first step only from a state with `P`, which the
  -- rest of the run has in either direction: as its first state, or by the guard.
  induction es generalizing s with
  | nil => simp [AllStates, AllSteps, hs]
  | cons e es ih =>
    obtain ⟨he, hE'⟩ := hE
    have hiff := hstep s e he hJs hs
    have hJs' := hJ s e he hJs
    simp only [AllStates, AllSteps, hs, true_and]
    constructor
    · intro h
      exact ⟨hiff.mp h.head, (ih hE' hJs' h.head).mp h⟩
    · rintro ⟨hQ, hrest⟩
      exact (ih hE' hJs' (hiff.mpr hQ)).mpr hrest

/-- The exact rule, when `E` does not look at the state. -/
theorem allStates_iff_allSteps {J P : σ → Prop} {Q : σ → ε → Prop} {E : ε → Prop}
    (hJ : ∀ s e, E e → J s → J (step s e))
    (hstep : ∀ s e, E e → J s → P s → (P (step s e) ↔ Q s e)) {s : σ} {es : List ε}
    (hE : ∀ e ∈ es, E e) (hJs : J s) (hs : P s) :
    AllStates step P s es ↔ AllSteps step Q s es :=
  allStates_iff_allSteps_of_guard hJ hstep (allSteps_of_forall hE) hJs hs

/-- The rule for two machines that take the same events. A relation that every guarded event keeps
relates the states after the first `n` events of a guarded run, for every `n`. -/
theorem related_of_allSteps {τ : Type} {step' : τ → ε → τ} {R : σ → τ → Prop} {Q : σ → ε → Prop}
    (hstep : ∀ s t e, R s t → Q s e → R (step s e) (step' t e)) {s : σ} {t : τ} {es : List ε}
    (hst : R s t) (hQ : AllSteps step Q s es) (n : Nat) :
    R (runFrom step s (es.take n)) (runFrom step' t (es.take n)) := by
  induction es generalizing s t n with
  | nil => simpa using hst
  | cons e es ih =>
    cases n with
    | zero => exact hst
    | succ n => exact ih (hstep s t e hst hQ.1) hQ.2 n

end CoreRaT.Lib
