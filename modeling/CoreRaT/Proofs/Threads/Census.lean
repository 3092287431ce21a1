import CoreRaT.Lib.Balance
import CoreRaT.Proofs.Threads.Routing

/-!
# `CoreRaT.Proofs.Threads.Census`: a router keeps every data frame or says what became of it

How many threads of a router handle a given frame (`handling`), and what a step does to this
number. A thread takes the frame up when it reads it. It lays it down in one of three ways: it
writes the frame to the connection of the registry, it hands it upstream, or it gives the frame up
(`dropped`). `census_step` says that there is no fourth way, and that each of them happens once.

The router itself makes data frames too, the answers `MSG_OK` and `MSG_ERROR`. They have no body.
A `Payload` is a data frame with a body.
-/

set_option autoImplicit false

namespace CoreRaT.Spec

open CoreRaT.Lib

/-- A data frame with a body, and so not an answer of a router. -/
def Frame.Payload (f : Frame) : Prop := f.header.kind = .data ∧ f.body ≠ []

instance (f : Frame) : Decidable f.Payload := inferInstanceAs (Decidable (_ ∧ _))

/-- Does the thread handle the data frame `f`? -/
def Pc.carries (f : Frame) (p : Pc) : Nat := if p.carried = some f then 1 else 0

/-- A thread writes a payload in one way only: it forwards it. -/
theorem Pc.sends_payload {f : Frame} (hf : f.Payload) {p : Pc} {k d : ConnId}
    (h : p.sends k = some (d, f)) : p = .forward d f := by
  rcases Pc.sends_data h hf.1 with hpc | ⟨-, ⟨id, hd, ok, rfl⟩ | ⟨hd, rfl⟩⟩
  · exact hpc
  · obtain ⟨-, rfl⟩ := Prod.mk.inj (Option.some.inj h)
    exact absurd rfl hf.2
  · obtain ⟨-, rfl⟩ := Prod.mk.inj (Option.some.inj h)
    exact absurd rfl hf.2

namespace RouterThreads

/-- Every thread that forwards a frame forwards it to a connection that exists. -/
def Aimed (s : RouterThreads) : Prop := ∀ t d f, s.pc t = .forward d f → d < s.started

theorem aimed_init (up : MailboxId → Bool) : (init up).Aimed := by
  intro t d f h
  cases h

theorem aimed_step {s : RouterThreads} (hwf : s.Wf) (h : s.Aimed) (e : Event) :
    (s.step e).Aimed := by
  intro t d f hpc
  refine Nat.lt_of_lt_of_le ?_ (started_le_step s e)
  rcases entered hpc with hold | ⟨-, -, hroute⟩
  · exact h t d f hold
  · exact hwf.routes _ d hroute

/-- The number of threads that handle `f`. -/
def handling (s : RouterThreads) (f : Frame) : Nat :=
  ∑ k ∈ Finset.range s.started, (s.pc k).carries f

/-- The number of times that the step writes `f` to connection `d`. -/
def written (s : RouterThreads) (e : Event) (d : ConnId) (f : Frame) : Nat :=
  ((s.writes e d).map (·.frame)).count f

/-- 1 if a thread reads `f` in this step. -/
def taken (s : RouterThreads) (f : Frame) : Event → Nat
  | .recv k g => if k < s.started ∧ s.pc k = .loop ∧ g = f then 1 else 0
  | _ => 0

/-- 1 if a thread hands `f` upstream in this step. -/
def climbed (s : RouterThreads) (f : Frame) : Event → Nat
  | .tick k => if s.pc k = .upstream f ∧ s.upstreamOpen f.header.dest = true then 1 else 0
  | _ => 0

/-- 1 if a thread gives `f` up in this step: it has come from a peer and there is no route, or the
way upstream is closed and the sender gets `MSG_ERROR`. -/
def dropped (s : RouterThreads) (f : Frame) : Event → Nat
  | .tick k =>
    if (s.pc k = .find f ∧ s.registry.find f.header.dest = none ∧ s.isPeer k = true) ∨
        (s.pc k = .upstream f ∧ s.upstreamOpen f.header.dest = false) then 1 else 0
  | _ => 0

/-- One thread moves, and the number of connections stays. -/
theorem handling_of_move {s t : RouterThreads} {f : Frame} {k : ConnId} (hk : k < s.started)
    (hstarted : t.started = s.started) (hoff : ∀ j, j ≠ k → t.pc j = s.pc j) :
    t.handling f + (s.pc k).carries f = s.handling f + (t.pc k).carries f := by
  unfold handling
  rw [hstarted]
  exact sum_add_of_eq_off (fun j => (s.pc j).carries f) (fun j => (t.pc j).carries f)
    (Finset.mem_range.mpr hk) fun j _ hj => by rw [hoff j hj]

/-- A section that does not forward `f` does not write it. -/
theorem written_eq_zero {s : RouterThreads} {f : Frame} (hf : f.Payload) {k : ConnId}
    (h : ∀ d, s.pc k ≠ .forward d f) (d : ConnId) : s.written (.tick k) d f = 0 := by
  refine List.count_eq_zero.mpr ?_
  intro hmem
  obtain ⟨w, hw, rfl⟩ := List.mem_map.mp hmem
  obtain ⟨t, ht, hsends⟩ := mem_writes hw
  cases ht
  exact h d (Pc.sends_payload hf hsends)

/-- A section that forwards writes one frame to one connection. -/
theorem sum_written_forward {s : RouterThreads} {f g : Frame} {k d : ConnId}
    (hpc : s.pc k = .forward d g) (hd : d < s.started) :
    ∑ c ∈ Finset.range s.started, s.written (.tick k) c f = (Pc.forward d g).carries f := by
  have hone : ∀ c, s.written (.tick k) c f = if c = d then (Pc.forward d g).carries f else 0 := by
    intro c
    simp only [written, writes, hpc, Pc.sends]
    split <;> simp [Pc.carries, Pc.carried, List.count_cons]
  simp only [hone, Finset.sum_ite_eq', Finset.mem_range, hd, if_true]

/-- The way of a payload through one section. -/
theorem carries_nextPc {s : RouterThreads} {f : Frame} (hf : f.Payload) (h : s.Aimed) {k : ConnId}
    {p : Pc} (hpc : s.pc k = p) :
    (s.nextPc k p).carries f + ∑ d ∈ Finset.range s.started, s.written (.tick k) d f +
        s.climbed f (.tick k) + s.dropped f (.tick k) = p.carries f := by
  -- Only `forward` writes a payload.
  have hnone : (∀ d, p ≠ .forward d f) →
      ∑ d ∈ Finset.range s.started, s.written (.tick k) d f = 0 := by
    intro hp
    exact Finset.sum_eq_zero fun d _ => written_eq_zero hf (fun d => by rw [hpc]; exact hp d) d
  cases p with
  | find g =>
    rw [hnone (by simp)]
    cases hfind : s.registry.find g.header.dest with
    | some d =>
      have hroute : g = f → s.registry.find f.header.dest ≠ none := by
        rintro rfl
        simp [hfind]
      simp +contextual [nextPc, hfind, Pc.carries, Pc.carried, climbed, dropped, hpc, hroute]
    | none =>
      cases hpeer : s.isPeer k
      · simp [nextPc, hfind, hpeer, Pc.carries, Pc.carried, climbed, dropped, hpc]
      · by_cases hgf : g = f
        · subst hgf
          simp [nextPc, hfind, hpeer, Pc.carries, Pc.carried, climbed, dropped, hpc]
        · simp [nextPc, hfind, hpeer, Pc.carries, Pc.carried, climbed, dropped, hpc, hgf]
  | forward d g =>
    rw [sum_written_forward hpc (h k d g hpc)]
    simp [nextPc, Pc.carries, Pc.carried, climbed, dropped, hpc]
  | upstream g =>
    rw [hnone (by simp)]
    by_cases hgf : g = f
    · subst hgf
      cases hopen : s.upstreamOpen g.header.dest <;>
        simp [nextPc, hopen, Pc.carries, Pc.carried, climbed, dropped, hpc]
    · cases hopen : s.upstreamOpen g.header.dest <;>
        simp [nextPc, hopen, Pc.carries, Pc.carried, climbed, dropped, hpc, hgf]
  | initReply id hd ok =>
    rw [hnone (by simp)]
    cases ok <;> simp [nextPc, Pc.carries, Pc.carried, climbed, dropped, hpc]
  | advertise ids =>
    rw [hnone (by simp)]
    cases ids <;> simp [nextPc, Pc.carries, Pc.carried, climbed, dropped, hpc]
  | broadcast a id ps =>
    rw [hnone (by simp)]
    cases ps <;> simp [nextPc, Pc.carries, Pc.carried, climbed, dropped, hpc]
  | _ =>
    rw [hnone (by simp)]
    simp [nextPc, Pc.carries, Pc.carried, climbed, dropped, hpc]

/-- What a thread handles after it has read `g`. -/
theorem carries_readPc {f : Frame} (hf : f.Payload) (isPeer : Bool) (g : Frame) :
    (readPc isPeer g).carries f = if g = f then 1 else 0 := by
  unfold readPc
  split
  case h_6 hkind => simp [Pc.carries, Pc.carried]
  -- Of the other kinds none is `f`.
  all_goals
    have hgf : g ≠ f := by
      rintro rfl
      simp_all [Frame.Payload]
    rw [if_neg hgf]
    try split
  all_goals simp [Pc.carries, Pc.carried]

/-- Only sections write. -/
theorem written_of_not_tick {s : RouterThreads} {e : Event} (he : ∀ k, e ≠ .tick k) (d : ConnId)
    (f : Frame) : s.written e d f = 0 := by
  cases e with
  | tick k => exact absurd rfl (he k)
  | _ => rfl

theorem census_step {s : RouterThreads} (hwf : s.Wf) (h : s.Aimed) {f : Frame} (hf : f.Payload)
    (e : Event) :
    (s.step e).handling f + ∑ d ∈ Finset.range s.started, s.written e d f + s.climbed f e +
        s.dropped f e = s.handling f + s.taken f e := by
  cases e with
  | start b =>
    simp only [written_of_not_tick (e := .start b) (by simp), Finset.sum_const_zero, climbed,
      dropped, taken, Nat.add_zero, step]
    split
    -- The new thread handles nothing.
    · simp only [startConnection, handling, Finset.sum_range_succ, Function.update_self]
      rw [Finset.sum_congr rfl fun k hk => by
        rw [Function.update_of_ne (Nat.ne_of_lt (Finset.mem_range.mp hk))]]
      cases b <;> simp [Pc.carries, Pc.carried]
    · rfl
  | insert =>
    simp only [written_of_not_tick (e := .insert) (by simp), Finset.sum_const_zero, climbed,
      dropped, taken, Nat.add_zero, step]
    split <;> rfl
  | recv k g =>
    simp only [written_of_not_tick (e := .recv k g) (by simp), Finset.sum_const_zero, climbed,
      dropped, taken, Nat.add_zero, step]
    split
    · rename_i hen
      have hmove := handling_of_move (t := s.dispatch k g) (f := f) hen.1
        (dispatch_frame s k g).2.2.1 fun j hj => pc_dispatch_of_ne s k g hj
      rw [pc_dispatch g hen.2, carries_readPc hf, hen.2] at hmove
      simpa [Pc.carries, Pc.carried, hen.1, hen.2] using hmove
    · rename_i hen
      rw [if_neg fun hc => hen ⟨hc.1, hc.2.1⟩, Nat.add_zero]
  | tick k =>
    have hnext := carries_nextPc hf h (k := k) rfl
    rw [← pc_tick rfl] at hnext
    simp only [taken, Nat.add_zero]
    by_cases hk : k < s.started
    · have hmove := handling_of_move (t := s.step (.tick k)) (f := f) hk
        (by rw [step_tick rfl]; exact (execute_frame s k _).2.1)
        fun j hj => by rw [step_tick rfl]; exact pc_execute_of_ne s k _ hj
      omega
    -- A connection that does not exist has no thread.
    · have hloop : s.pc k = .loop := hwf.fresh k (Nat.le_of_not_lt hk)
      have hsame : s.step (.tick k) = s := by rw [step_tick hloop]; rfl
      rw [hsame] at hnext ⊢
      omega
  | snapshot k ids =>
    simp only [written_of_not_tick (e := .snapshot k ids) (by simp), Finset.sum_const_zero, climbed,
      dropped, taken, Nat.add_zero, step]
    split
    · rename_i hen
      have hk : k < s.started := hwf.lt_of_pc (by simp [hen.1])
      have hmove := handling_of_move (t := s.goto k (.advertise ids)) (f := f) hk rfl
        fun j hj => by simp [goto, Function.update_of_ne hj]
      simpa [hen.1, goto, Pc.carries, Pc.carried] using hmove
    · rfl
  | eof k =>
    simp only [written_of_not_tick (e := .eof k) (by simp), Finset.sum_const_zero, climbed,
      dropped, taken, Nat.add_zero, step]
    split
    · rename_i hen
      have hmove := handling_of_move
        (t := { s with registry := s.registry.removeAll k }.goto k .ended) (f := f) hen.1 rfl
        fun j hj => by simp [goto, Function.update_of_ne hj]
      simpa [hen.2, goto, Pc.carries, Pc.carried] using hmove
    · rfl

/-- The frames that have been handed upstream. -/
theorem count_upstreamOut_step (s : RouterThreads) (e : Event) (f : Frame) :
    ((s.step e).upstreamOut.map (·.frame)).count f =
      (s.upstreamOut.map (·.frame)).count f + s.climbed f e := by
  cases e with
  | start b =>
    simp only [step]
    split <;> rfl
  | insert =>
    simp only [step]
    split <;> rfl
  | recv k g =>
    simp only [step]
    split
    · unfold dispatch
      split <;> (try split) <;> rfl
    · rfl
  | snapshot k ids =>
    simp only [step]
    split <;> rfl
  | eof k =>
    simp only [step]
    split <;> rfl
  | tick k =>
    cases hpc : s.pc k with
    | upstream g =>
      cases hopen : s.upstreamOpen g.header.dest with
      | false =>
        have hclosed : g = f → s.upstreamOpen f.header.dest = false := by
          rintro rfl
          exact hopen
        simp +contextual [step_tick hpc, execute, hopen, goto, climbed, hpc, hclosed]
      | true =>
        by_cases hgf : g = f
        · subst hgf
          simp [step_tick hpc, execute, hopen, goto, climbed, hpc]
        · simp [step_tick hpc, execute, hopen, goto, climbed, hpc, hgf]
    | find g =>
      rw [step_tick hpc]
      simp only [execute]
      split <;> simp [goto, climbed, hpc]
    | advertise ids => cases ids <;> simp [step_tick hpc, execute, goto, write, climbed, hpc]
    | broadcast a id ps => cases ps <;> simp [step_tick hpc, execute, goto, write, climbed, hpc]
    | _ => simp [step_tick hpc, execute, goto, write, climbed, hpc]

end RouterThreads

end CoreRaT.Spec
