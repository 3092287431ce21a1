import CoreRaT.Proofs.Threads.Census

/-!
# `CoreRaT.Proofs.Threads.Flow`: what one step does to some messages

`P` picks out messages with a body, such as those from one mailbox to another. A thread has one of
them in its `hand` from reading it until it forwards it or finds no route. `FlowStep` lists what a
step can do to the hands and to the connections, and `flowStep` says that the list is complete.
-/

set_option autoImplicit false

namespace CoreRaT.Spec

open CoreRaT.Lib

/-- The message that a thread has read and not passed on. -/
def Pc.hand (P : Frame → Prop) [DecidablePred P] : Pc → List Frame
  | .find f => if P f then [f] else []
  | .forward _ f => if P f then [f] else []
  | _ => []

namespace RouterThreads

variable (P : Frame → Prop) [DecidablePred P]

/-- The messages that the step writes to connection `d`. -/
def flowTo (s : RouterThreads) (e : Event) (d : ConnId) : List Frame :=
  ((s.writes e d).map (·.frame)).filter fun f => P f

/-- What the step `e` does to the messages. -/
inductive FlowStep (s : RouterThreads) (e : Event) : Prop
  | idle (hands : ∀ k, ((s.step e).pc k).hand P = (s.pc k).hand P)
    (writes : ∀ d, s.flowTo P e d = [])
    (notRead : ∀ k f, e = .recv k f → P f → ¬ (k < s.started ∧ s.pc k = .loop))
    (notLost : ∀ k f, e = .tick k → s.pc k = .find f → P f →
      s.registry.find f.header.dest ≠ none)
  /-- A thread reads a message. -/
  | read (k : ConnId) (f : Frame) (he : e = .recv k f) (hf : P f) (hk : k < s.started)
    (hpc : s.pc k = .loop) (hpc' : (s.step e).pc k = .find f)
    (others : ∀ j, j ≠ k → ((s.step e).pc j).hand P = (s.pc j).hand P)
    (writes : ∀ d, s.flowTo P e d = [])
  /-- A thread finds no route. -/
  | lost (k : ConnId) (f : Frame) (he : e = .tick k) (hf : P f) (hpc : s.pc k = .find f)
    (hfind : s.registry.find f.header.dest = none) (hpc' : ((s.step e).pc k).hand P = [])
    (others : ∀ j, j ≠ k → ((s.step e).pc j).hand P = (s.pc j).hand P)
    (writes : ∀ d, s.flowTo P e d = [])
  /-- A thread forwards a message. -/
  | passed (k x : ConnId) (f : Frame) (he : e = .tick k) (hf : P f) (hpc : s.pc k = .forward x f)
    (hpc' : (s.step e).pc k = .loop)
    (others : ∀ j, j ≠ k → ((s.step e).pc j).hand P = (s.pc j).hand P)
    (writes : ∀ d, s.flowTo P e d = if d = x then [f] else [])

variable {P} {s : RouterThreads}

/-- Only a section of a thread writes. -/
theorem flowTo_of_not_tick {e : Event} (he : ∀ k, e ≠ .tick k) (d : ConnId) :
    s.flowTo P e d = [] := by
  cases e with
  | tick k => exact absurd rfl (he k)
  | _ => rfl

/-- Only a thread that forwards a message writes one. -/
theorem forward_of_flowTo (hP : ∀ f, P f → f.Payload) {e : Event} {d : ConnId}
    (h : s.flowTo P e d ≠ []) : ∃ k f, e = .tick k ∧ P f ∧ s.pc k = .forward d f := by
  obtain ⟨f, hf⟩ := List.exists_mem_of_ne_nil _ h
  obtain ⟨hmem, hPf⟩ := List.mem_filter.mp hf
  rw [decide_eq_true_eq] at hPf
  obtain ⟨w, hw, rfl⟩ := List.mem_map.mp hmem
  obtain ⟨k, he, hsends⟩ := mem_writes hw
  exact ⟨k, w.frame, he, hPf, Pc.sends_payload (hP _ hPf) hsends⟩

/-- A section that does not forward a message writes none. -/
theorem flowTo_tick_eq_nil (hP : ∀ f, P f → f.Payload) {k : ConnId}
    (h : ∀ x f, P f → s.pc k ≠ .forward x f) (d : ConnId) : s.flowTo P (.tick k) d = [] := by
  by_contra hne
  obtain ⟨t, f, ht, hf, hpc⟩ := forward_of_flowTo hP hne
  cases ht
  exact h d f hf hpc

theorem flowTo_forward {k x : ConnId} {f : Frame} (hf : P f) (hpc : s.pc k = .forward x f)
    (d : ConnId) : s.flowTo P (.tick k) d = if d = x then [f] else [] := by
  simp only [flowTo, writes, hpc, Pc.sends]
  split <;> simp [hf]

/-- What a thread has in its hand after it has read `f`. -/
theorem hand_readPc (hP : ∀ f, P f → f.Payload) (isPeer : Bool) (f : Frame) :
    (readPc isPeer f).hand P = if P f then [f] else [] := by
  unfold readPc
  split
  case h_6 hkind => rfl
  -- Frames of the other kinds are no payloads.
  all_goals
    have hno : ¬ P f := by
      intro hf
      have hdata := (hP f hf).1
      simp_all
    rw [if_neg hno]
    try split
  all_goals rfl

/-- A thread that does not route a message has none in its hand after its section. -/
theorem hand_nextPc {k : ConnId} {p : Pc} (hp : ∀ f, P f → p ≠ .find f) :
    (s.nextPc k p).hand P = [] := by
  cases p with
  | find f =>
    simp only [nextPc]
    split
    · exact if_neg fun hf => hp f hf rfl
    · split <;> rfl
  | advertise ids => cases ids <;> rfl
  | initReply i hd ok => cases ok <;> rfl
  | broadcast a i ps => cases ps <;> rfl
  | upstream f =>
    simp only [nextPc]
    split <;> rfl
  | _ => rfl

theorem hand_eq_nil {p : Pc} (hfind : ∀ f, P f → p ≠ .find f)
    (hforward : ∀ x f, P f → p ≠ .forward x f) : p.hand P = [] := by
  cases p with
  | find f => exact if_neg fun hf => hfind f hf rfl
  | forward x f => exact if_neg fun hf => hforward x f hf rfl
  | _ => rfl

/-- Another thread keeps what it has in its hand. -/
theorem hand_tick_of_ne {k j : ConnId} (hj : j ≠ k) :
    ((s.step (.tick k)).pc j).hand P = (s.pc j).hand P := by
  rw [step_tick rfl, pc_execute_of_ne s k _ hj]

theorem flowStep_tick (hP : ∀ f, P f → f.Payload) (k : ConnId) : s.FlowStep P (.tick k) := by
  have hothers : ∀ j, j ≠ k → ((s.step (.tick k)).pc j).hand P = (s.pc j).hand P :=
    fun j hj => hand_tick_of_ne hj
  by_cases hforward : ∃ x f, P f ∧ s.pc k = .forward x f
  · obtain ⟨x, f, hf, hpc⟩ := hforward
    exact .passed k x f rfl hf hpc (pc_tick hpc) hothers (flowTo_forward hf hpc)
  · have hno : ∀ x f, P f → s.pc k ≠ .forward x f := fun x f hf hpc => hforward ⟨x, f, hf, hpc⟩
    have hwrites := flowTo_tick_eq_nil hP hno
    by_cases hfind : ∃ f, P f ∧ s.pc k = .find f
    · obtain ⟨f, hf, hpc⟩ := hfind
      cases hroute : s.registry.find f.header.dest with
      | none =>
        have hnext : ((s.step (.tick k)).pc k).hand P = [] := by
          rw [pc_tick hpc]
          simp only [nextPc, hroute]
          split <;> rfl
        exact .lost k f rfl hf hpc hroute hnext hothers hwrites
      | some d =>
        -- The message stays in the hand of the thread.
        have hnext : ((s.step (.tick k)).pc k).hand P = (s.pc k).hand P := by
          rw [pc_tick hpc, hpc]
          simp only [nextPc, hroute, Pc.hand]
        refine .idle (fun j => ?_) hwrites (fun _ _ h => by cases h) ?_
        · by_cases hj : j = k
          · subst hj
            exact hnext
          · exact hothers j hj
        · intro j g hj hg _
          cases hj
          cases hpc.symm.trans hg
          simp [hroute]
    · have hnoFind : ∀ f, P f → s.pc k ≠ .find f := fun f hf hpc => hfind ⟨f, hf, hpc⟩
      refine .idle (fun j => ?_) hwrites (fun _ _ h => by cases h) ?_
      · by_cases hj : j = k
        · subst hj
          rw [pc_tick rfl, hand_nextPc hnoFind, hand_eq_nil hnoFind hno]
        · exact hothers j hj
      · intro j g hj hg hPg
        cases hj
        exact absurd hg (hnoFind g hPg)

theorem flowStep_recv (hP : ∀ f, P f → f.Payload) (k : ConnId) (f : Frame) :
    s.FlowStep P (.recv k f) := by
  have hwrites := flowTo_of_not_tick (P := P) (s := s) (e := .recv k f) (by simp)
  by_cases hen : k < s.started ∧ s.pc k = .loop
  · have hstep : s.step (.recv k f) = s.dispatch k f := if_pos hen
    have hothers : ∀ j, j ≠ k → ((s.step (.recv k f)).pc j).hand P = (s.pc j).hand P := by
      intro j hj
      rw [hstep, pc_dispatch_of_ne s k f hj]
    have hpc : (s.step (.recv k f)).pc k = readPc (s.isPeer k) f := by
      rw [hstep, pc_dispatch f hen.2]
    by_cases hf : P f
    · have hfind : readPc (s.isPeer k) f = .find f := by
        have hdata := (hP f hf).1
        simp [readPc, hdata]
      exact .read k f rfl hf hen.1 hen.2 (hpc.trans hfind) hothers hwrites
    · refine .idle (fun j => ?_) hwrites ?_ (fun _ _ h => by cases h)
      · by_cases hj : j = k
        · subst hj
          rw [hpc, hand_readPc hP, if_neg hf, hen.2]
          rfl
        · exact hothers j hj
      · intro j g hj hg
        cases hj
        exact absurd hg hf
  · have hstep : s.step (.recv k f) = s := if_neg hen
    refine .idle (fun j => by rw [hstep]) hwrites ?_ (fun _ _ h => by cases h)
    intro j g hj hg
    cases hj
    exact hen

/-- The list is complete. -/
theorem flowStep (hwf : s.Wf) (hP : ∀ f, P f → f.Payload) (e : Event) : s.FlowStep P e := by
  -- The other steps leave the hands as they are.
  have hidle : (∀ k, e ≠ .tick k) → (∀ k f, e ≠ .recv k f) → s.FlowStep P e := by
    intro htick hrecv
    refine .idle (fun k => ?_) (flowTo_of_not_tick htick) (fun k f he => absurd he (hrecv k f))
      (fun k f he => absurd he (htick k))
    have hm := moves s e k
    generalize (s.step e).pc k = q at hm
    cases hm with
    | stay => rfl
    | start b he hk =>
      rw [hwf.fresh k (Nat.le_of_eq hk.symm)]
      cases b <;> rfl
    | read f he => exact absurd he (hrecv k f)
    | tick p he => exact absurd he (htick k)
    | snapshot ids he hpc =>
      rw [hpc]
      rfl
    | eof he hk hpc =>
      rw [hpc]
      rfl
  cases e with
  | tick k => exact flowStep_tick hP k
  | recv k f => exact flowStep_recv hP k f
  | _ => exact hidle (by simp) (by simp)

/-- A thread comes to a message by reading it. -/
theorem FlowStep.hand_cases {e : Event} (h : s.FlowStep P e) {k : ConnId}
    (hk : ((s.step e).pc k).hand P ≠ []) :
    (s.pc k).hand P ≠ [] ∨ ∃ f, e = .recv k f ∧ P f := by
  -- Of the thread that acts, the constructor says what it has in its hand.
  cases h with
  | idle hands => exact Or.inl (hands k ▸ hk)
  | read j f he hf _ _ _ others =>
    by_cases hj : k = j
    · subst hj
      exact Or.inr ⟨f, he, hf⟩
    · exact Or.inl (others k hj ▸ hk)
  | lost j f _ _ _ _ hnil others =>
    by_cases hj : k = j
    · subst hj
      exact absurd hnil hk
    · exact Or.inl (others k hj ▸ hk)
  | passed j x f _ _ _ hloop others =>
    by_cases hj : k = j
    · subst hj
      rw [hloop] at hk
      exact absurd rfl hk
    · exact Or.inl (others k hj ▸ hk)

end RouterThreads

end CoreRaT.Spec
