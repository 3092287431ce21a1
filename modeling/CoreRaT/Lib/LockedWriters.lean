import Mathlib.Logic.Function.Basic
import CoreRaT.Lib.Run

/-!
# `CoreRaT.Lib.LockedWriters`: several writers, one stream, one lock

Writers `ι` put messages `μ` on one stream of elements `α`. Each writer has a list of messages
to write, in order. To write a message it takes the lock, writes the buffers of the message one
after the other, and gives the lock back. A buffer goes out in pieces of any size, and the
other writers can run between two of them.

`Merged` is the invariant. The stream, with what the holder of the lock still owes, is the
concatenation of whole messages, and each writer's messages are among them in the writer's own
order. Every step keeps it (`merged_step`). So whenever nobody holds the lock the stream is a
merge of whole messages, in whatever order the writers ran (`Merged.out_of_free`).

Nothing here depends on what the messages are.
-/

set_option autoImplicit false

namespace CoreRaT.Lib

/-- The writer that holds the lock, its message, and the buffers that are still to be written. -/
structure LockHolder (ι μ α : Type) where
  writer : ι
  message : μ
  left : List (List α)

/-- A stream with a lock, and the messages that the writers still have to write. -/
structure LockedWriters (ι μ α : Type) where
  todo : ι → List μ
  holder : Option (LockHolder ι μ α)
  out : List α

namespace LockedWriters

variable {ι μ α : Type} [DecidableEq ι] (buffers : μ → List (List α))

/-- Nobody holds the lock, and nothing has been written. -/
def init (todo : ι → List μ) : LockedWriters ι μ α := ⟨todo, none, []⟩

/-- What the writers do. -/
inductive Event (ι : Type)
  /-- Writer `i` takes the lock for its next message. -/
  | acquire (i : ι)
  /-- Writer `i` sends: the stream takes `n` elements of the buffer, or all of it if it is
  shorter. Behind a buffer that is used up, the writer goes to the next one. -/
  | send (i : ι) (n : Nat)
  /-- Writer `i` has written all buffers and gives the lock back. -/
  | release (i : ι)

/-- One step. An event that is not enabled changes nothing. -/
def step (s : LockedWriters ι μ α) : Event ι → LockedWriters ι μ α
  | .acquire i =>
    match s.holder, s.todo i with
    | none, m :: ms =>
      { s with todo := Function.update s.todo i ms, holder := some ⟨i, m, buffers m⟩ }
    -- Another writer holds the lock, or `i` has nothing to write.
    | _, _ => s
  | .send i n =>
    match s.holder with
    | some ⟨j, m, [] :: rest⟩ => if j = i then { s with holder := some ⟨j, m, rest⟩ } else s
    | some ⟨j, m, (b :: bs) :: rest⟩ =>
      if j = i then
        { s with
            holder := some ⟨j, m, (b :: bs).drop n :: rest⟩
            out := s.out ++ (b :: bs).take n }
      else s
    | _ => s
  | .release i =>
    match s.holder with
    | some ⟨j, _, []⟩ => if j = i then { s with holder := none } else s
    | _ => s

/-- What the holder of the lock still has to write. -/
def owed (s : LockedWriters ι μ α) : List α :=
  match s.holder with
  | none => []
  | some h => h.left.flatten

/-- The messages of writer `i` in a log. -/
def messagesOf (i : ι) (log : List (ι × μ)) : List μ :=
  (log.filter (·.1 = i)).map (·.2)

/-- The stream and what is owed are the messages of the log, whole and in order. The log and
`todo` together are what the writers were to write. -/
structure Merged (todo : ι → List μ) (log : List (ι × μ)) (s : LockedWriters ι μ α) : Prop where
  out : s.out ++ s.owed = log.flatMap fun w => (buffers w.2).flatten
  order : ∀ i, messagesOf i log ++ s.todo i = todo i

variable {buffers}

theorem merged_init (todo : ι → List μ) :
    Merged buffers todo [] (init todo : LockedWriters ι μ α) :=
  ⟨rfl, fun _ => rfl⟩

/-- While nobody holds the lock, the stream is the messages of the log. -/
theorem Merged.out_of_free {todo : ι → List μ} {log : List (ι × μ)} {s : LockedWriters ι μ α}
    (h : Merged buffers todo log s) (hfree : s.holder = none) :
    s.out = log.flatMap fun w => (buffers w.2).flatten := by
  have hout := h.out
  simpa only [owed, hfree, List.append_nil] using hout

@[simp] theorem messagesOf_append (i : ι) (log log' : List (ι × μ)) :
    messagesOf i (log ++ log') = messagesOf i log ++ messagesOf i log' := by
  simp [messagesOf]

/-- Taking the lock adds the message to the log. -/
theorem Merged.acquire {todo : ι → List μ} {log : List (ι × μ)} {s : LockedWriters ι μ α}
    (h : Merged buffers todo log s) (hfree : s.holder = none) {i : ι} {m : μ} {ms : List μ}
    (hnext : s.todo i = m :: ms) :
    Merged buffers todo (log ++ [(i, m)])
      { s with todo := Function.update s.todo i ms, holder := some ⟨i, m, buffers m⟩ } where
  -- Nobody held the lock, so nothing was owed. Now the whole message is.
  out := by
    simp [owed, h.out_of_free hfree]
  order := by
    intro j
    rw [messagesOf_append, ← h.order j]
    by_cases hj : i = j
    · subst hj
      simp [messagesOf, hnext]
    · simp [messagesOf, hj, Function.update_of_ne (Ne.symm hj)]

/-- A step that moves elements from what is owed to the stream keeps the log. -/
theorem Merged.move {todo : ι → List μ} {log : List (ι × μ)} {s t : LockedWriters ι μ α}
    (h : Merged buffers todo log s) (hout : t.out ++ t.owed = s.out ++ s.owed)
    (htodo : t.todo = s.todo) : Merged buffers todo log t :=
  ⟨hout.trans h.out, fun i => htodo ▸ h.order i⟩

/-- One step keeps the invariant, for the same log or for a longer one. -/
theorem merged_step {todo : ι → List μ} {log : List (ι × μ)} {s : LockedWriters ι μ α}
    (h : Merged buffers todo log s) (e : Event ι) :
    ∃ log', Merged buffers todo log' (s.step buffers e) := by
  cases e with
  | acquire i =>
    simp only [step]
    split
    · rename_i m ms hfree hnext
      exact ⟨_, h.acquire hfree hnext⟩
    · exact ⟨log, h⟩
  | send i n =>
    refine ⟨log, ?_⟩
    simp only [step]
    split
    · rename_i j m rest hholder
      split
      · -- The buffer is used up: the next one is owed as before.
        exact h.move (by simp [owed, hholder]) rfl
      · exact h
    · rename_i j m b bs rest hholder
      split
      -- What the stream takes is what the writer no longer owes.
      · refine h.move ?_ rfl
        simp only [owed, hholder, List.flatten_cons, List.append_assoc]
        rw [← List.append_assoc (List.take n (b :: bs)), List.take_append_drop]
      · exact h
    · exact h
  | release i =>
    refine ⟨log, ?_⟩
    simp only [step]
    split
    · rename_i j m hholder
      split
      · exact h.move (by simp [owed, hholder]) rfl
      · exact h
    · exact h

end LockedWriters

end CoreRaT.Lib
