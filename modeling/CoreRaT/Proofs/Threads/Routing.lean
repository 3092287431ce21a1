import CoreRaT.Proofs.Threads.Publish

/-!
# `CoreRaT.Proofs.Threads.Routing`: how a thread routes a data frame

The way of a data frame through the thread that has read it: `find`, then `forward` to the
connection of the registry, or `upstream`, or the error reply. `Entry` says from where each of
these sections is reached, and `entered` proves it. `sends_data` says which sections write a data
frame.
-/

set_option autoImplicit false

namespace CoreRaT.Spec

open CoreRaT.Lib

/-- A data frame is forwarded, or it is an answer on the thread's own connection. -/
theorem Pc.sends_data {p : Pc} {k d : ConnId} {f : Frame} (h : p.sends k = some (d, f))
    (hdata : f.header.kind = .data) :
    p = .forward d f ∨
      (d = k ∧ ((∃ id hd ok, p = .initReply id hd ok) ∨ ∃ hd, p = .replyError hd)) := by
  cases p with
  | hello =>
    obtain ⟨-, rfl⟩ := Prod.mk.inj (Option.some.inj h)
    cases hdata
  | advertise ids =>
    cases ids with
    | nil => cases h
    | cons id ids =>
      obtain ⟨-, rfl⟩ := Prod.mk.inj (Option.some.inj h)
      cases hdata
  | broadcast a id ps =>
    cases ps with
    | nil => cases h
    | cons q ps =>
      obtain ⟨-, rfl⟩ := Prod.mk.inj (Option.some.inj h)
      cases a <;> cases hdata
  | initReply id hd ok =>
    obtain ⟨rfl, -⟩ := Prod.mk.inj (Option.some.inj h)
    exact Or.inr ⟨rfl, Or.inl ⟨id, hd, ok, rfl⟩⟩
  | forward d' g =>
    obtain ⟨rfl, rfl⟩ := Prod.mk.inj (Option.some.inj h)
    exact Or.inl rfl
  | replyError hd =>
    obtain ⟨rfl, -⟩ := Prod.mk.inj (Option.some.inj h)
    exact Or.inr ⟨rfl, Or.inr ⟨hd, rfl⟩⟩
  | _ => cases h

namespace RouterThreads

/-- How thread `k` comes to a section of a registration or of data routing. -/
def Entry (s : RouterThreads) (e : Event) (k : ConnId) : Pc → Prop
  | .initAdd id _ => ∃ f, e = .recv k f ∧ f.header.kind = .mbxInit ∧ f.mbx = some id
  | .find f => e = .recv k f ∧ f.header.kind = .data
  | .forward d f => e = .tick k ∧ s.pc k = .find f ∧ s.registry.find f.header.dest = some d
  | .upstream f => e = .tick k ∧ s.pc k = .find f ∧ s.isPeer k = false
  | .replyError _ => ∃ f, e = .tick k ∧ s.pc k = .upstream f
  | _ => True

/-- A thread stands where it stood, or it has come there in the way of the section. -/
theorem entered {s : RouterThreads} {e : Event} {k : ConnId} {p : Pc}
    (h : (s.step e).pc k = p) : s.pc k = p ∨ s.Entry e k p := by
  have hm := moves s e k
  rw [h] at hm
  cases hm with
  | stay => exact Or.inl rfl
  | start b => cases b <;> exact Or.inr trivial
  | read f he =>
    refine Or.inr ?_
    unfold readPc
    split <;> (try split) <;> try exact trivial
    · rename_i hkind hmbx
      exact ⟨f, he, hkind, hmbx⟩
    · rename_i hkind
      exact ⟨he, hkind⟩
  | tick q he hpc =>
    refine Or.inr ?_
    unfold nextPc
    split <;> (try split) <;> (try split) <;> try exact trivial
    · rename_i hfind
      exact ⟨he, hpc, hfind⟩
    · rename_i hpeer
      exact ⟨he, hpc, Bool.not_eq_true _ ▸ hpeer⟩
    · exact ⟨_, he, hpc⟩
  | snapshot ids => exact Or.inr trivial
  | eof => exact Or.inr trivial

/-- The writer of a new frame is the thread that executes its section. -/
theorem writer_of_mem_writes {s : RouterThreads} {e : Event} {d : ConnId} {w : Written}
    (h : w ∈ s.writes e d) {k : ConnId} (he : e = .tick k) : w.writer = k := by
  subst he
  simp only [writes] at h
  split at h
  · split at h
    · rw [List.mem_singleton.mp h]
    · cases h
  · cases h

end RouterThreads

end CoreRaT.Spec
