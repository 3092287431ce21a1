import CoreRaT.Lib.Run

/-!
# `CoreRaT.Lib.FrameStream`: a stream of frames with writes that can fail

Each call of a writer appends a frame to a stream. When it fails it may have appended a part of the
frame, and the frame is torn. `TornIsLast` says of a run that nothing is appended after a torn
frame. Then the stream is made of whole frames, with one part of a frame at most, and that at the
end (`TornIsLast.endsInPart`).

Nothing here depends on what the writer and its frames are.
-/

set_option autoImplicit false

namespace CoreRaT.Lib

/-- A writer with the states `σ` and the calls `ε`. -/
structure FrameWriter (σ ε α : Type) where
  step : σ → ε → σ
  /-- The stream. -/
  written : σ → List α
  /-- The frame that a call is to append. -/
  frame : σ → ε → List α

namespace FrameWriter

variable {σ ε α : Type} (w : FrameWriter σ ε α)

/-- What a call appends. -/
def appended (s : σ) (e : ε) : List α := (w.written (w.step s e)).drop (w.written s).length

/-- The call appends a part of its frame. -/
def Tears (s : σ) (e : ε) : Prop := w.appended s e ≠ [] ∧ w.appended s e ≠ w.frame s e

/-- After a call that tears its frame, all calls meet the guard `Q`. -/
def AfterTorn (Q : σ → ε → Prop) : σ → List ε → Prop
  | _, [] => True
  | s, e :: es => (w.Tears s e → AllSteps w.step Q (w.step s e) es) ∧ AfterTorn Q (w.step s e) es

/-- After a call that tears its frame, no call appends anything. -/
def TornIsLast (s : σ) (es : List ε) : Prop := w.AfterTorn (fun s e => w.appended s e = []) s es

/-- The frames of the calls of a run. -/
def frames : σ → List ε → List (List α)
  | _, [] => []
  | s, e :: es => w.frame s e :: frames (w.step s e) es

/-- The stream after a run is made of whole frames of the run, with at most one part of a frame,
which is at the end. -/
def EndsInPart (s : σ) (es : List ε) : Prop :=
  ∃ (whole : List (List α)) (tail : List α), whole.Sublist (w.frames s es) ∧
    w.written (runFrom w.step s es) = w.written s ++ whole.flatten ++ tail ∧
    (tail = [] ∨ ∃ pre e post, es = pre ++ e :: post ∧ w.Tears (runFrom w.step s pre) e ∧
      tail = w.appended (runFrom w.step s pre) e)

variable {w}

/-- Guards that say the same of each call. -/
theorem afterTorn_congr {Q Q' : σ → ε → Prop} (hQ : ∀ s e, Q s e ↔ Q' s e) {s : σ} {es : List ε} :
    w.AfterTorn Q s es ↔ w.AfterTorn Q' s es := by
  have hguard : Q = Q' := by
    funext s e
    exact propext (hQ s e)
  rw [hguard]

theorem written_step {s : σ} {e : ε} (hgrows : w.written s <+: w.written (w.step s e)) :
    w.written (w.step s e) = w.written s ++ w.appended s e := by
  obtain ⟨part, hpart⟩ := hgrows
  rw [appended, ← hpart, List.drop_left]

theorem appended_eq_nil_iff {s : σ} {e : ε} (hgrows : w.written s <+: w.written (w.step s e)) :
    w.appended s e = [] ↔ w.written (w.step s e) = w.written s := by
  rw [written_step hgrows]
  exact List.append_right_eq_self.symm

/-- A stream to which nothing is appended. -/
theorem written_of_silent (hgrows : ∀ s e, w.written s <+: w.written (w.step s e)) {s : σ}
    {es : List ε} (h : AllSteps w.step (fun s e => w.appended s e = []) s es) :
    w.written (runFrom w.step s es) = w.written s := by
  induction es generalizing s with
  | nil => rfl
  | cons e es ih =>
    have hnone : w.appended s e = [] := h.1
    rw [runFrom_cons, ih h.2, written_step (hgrows s e), hnone, List.append_nil]

theorem TornIsLast.endsInPart (hgrows : ∀ s e, w.written s <+: w.written (w.step s e)) {s : σ}
    {es : List ε} (h : w.TornIsLast s es) : w.EndsInPart s es := by
  induction es generalizing s with
  | nil => exact ⟨[], [], List.Sublist.refl [], by simp, Or.inl rfl⟩
  | cons e es ih =>
    obtain ⟨hlast, hrest⟩ := h
    have hstep := written_step (hgrows s e)
    by_cases htears : w.Tears s e
    · -- Nothing comes after the part.
      refine ⟨[], w.appended s e, List.nil_sublist _, ?_, Or.inr ⟨[], e, es, rfl, htears, rfl⟩⟩
      rw [runFrom_cons, written_of_silent hgrows (hlast htears), hstep]
      simp
    · obtain ⟨whole, tail, hsub, hwritten, htail⟩ := ih hrest
      -- The call appends its frame, or nothing.
      have hframe : ∃ first : List (List α), first.Sublist [w.frame s e] ∧
          w.appended s e = first.flatten := by
        by_cases hnone : w.appended s e = []
        · exact ⟨[], List.nil_sublist _, hnone⟩
        · refine ⟨[w.frame s e], List.Sublist.refl _, ?_⟩
          rw [Tears, not_and_not_right] at htears
          rw [htears hnone]
          simp
      obtain ⟨first, hfirst, heq⟩ := hframe
      refine ⟨first ++ whole, tail, hfirst.append hsub, ?_, ?_⟩
      · rw [runFrom_cons, hwritten, hstep, heq]
        simp
      · rcases htail with hnil | ⟨pre, e', post, hes, htears', heq'⟩
        · exact Or.inl hnil
        · exact Or.inr ⟨e :: pre, e', post, by rw [hes, List.cons_append], htears', heq'⟩

end FrameWriter

end CoreRaT.Lib
