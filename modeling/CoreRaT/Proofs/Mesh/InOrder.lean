import CoreRaT.Proofs.Mesh.OneHop

/-!
# `CoreRaT.Proofs.Mesh.InOrder`: links that are read in order

A TCP stream delivers what is unread from its first frame on. `Advances` says what a step does to
what is unread, for runs in which the links are read in this order and do not end, and in which no
client deletes the mailbox `id` (`InOrder`). In such a run a route for `id` stays, unless it
leads to a client whose thread ends (`Advances.find_stays`). The invariant is `Kept`.
-/

set_option autoImplicit false

namespace CoreRaT.Spec

open CoreRaT.Lib
open RouterThreads (clientEvent)

/-- The thread is inside a delete of `id`, of a client or of a peer. -/
def Pc.deletes (id : MailboxId) : Pc → Prop
  | .deleteRemove i => i = id
  | .localErase i => i = id
  | .peersSnapshot .delete i => i = id
  | .broadcast .delete i _ => i = id
  | .peerRemove i => i = id
  | _ => False

/-- A thread comes to a delete of `id` by reading one. -/
theorem RouterThreads.deletes_step {s : RouterThreads} {e : RouterThreads.Event} {k : ConnId}
    {id : MailboxId} (h : ((s.step e).pc k).deletes id) :
    (s.pc k).deletes id ∨
      ∃ f, e = .recv k f ∧ (f.header.kind = .mbxDelete ∨ f.header.kind = .peerDelete) ∧
        f.mbx = some id := by
  have hm := moves s e k
  generalize (s.step e).pc k = q at hm h
  cases hm with
  | stay => exact Or.inl h
  | start b => cases b <;> cases h
  | read f he =>
    unfold readPc at h
    split at h <;> (try split at h) <;> cases h
    · rename_i hkind hid _
      exact Or.inr ⟨f, he, Or.inr ‹_›, ‹_›⟩
    · rename_i hkind hid
      exact Or.inr ⟨f, he, Or.inl hkind, hid⟩
  | snapshot ids => cases h
  | eof => cases h
  | tick p he hpc =>
    rw [hpc]
    cases p with
    | deleteRemove i => exact Or.inl h
    | localErase i => exact Or.inl h
    | peersSnapshot a i =>
      cases a with
      | register => cases h
      | delete => exact Or.inl h
    | broadcast a i ps =>
      cases ps with
      | nil => cases h
      | cons q ps =>
        cases a with
        | register => cases h
        | delete => exact Or.inl h
    | initReply i hd ok => cases ok <;> cases h
    | advertise ids => cases ids <;> cases h
    | find f =>
      simp only [nextPc] at h
      split at h <;> (try split at h) <;> cases h
    | upstream f =>
      simp only [nextPc] at h
      split at h <;> cases h
    | _ => cases h

namespace RouterMesh

variable {ι : Type} [DecidableEq ι]

/-! ### The steps -/

/-- In the state `p`, the event reads a link in order and does not end one, and no client deletes
`id` with it. -/
def InOrder (id : MailboxId) (p : RouterMesh ι) : Event ι → Prop
  | .deliver _ _ n => n = 0
  | .router i (.eof k) => p.link i k = none
  | .router _ (.recv _ f) => f.header.kind = .mbxDelete → f.mbx ≠ some id
  | _ => True

instance (id : MailboxId) (p : RouterMesh ι) : DecidablePred (p.InOrder id)
  | .deliver _ _ n => inferInstanceAs (Decidable (n = 0))
  | .router i (.eof k) => inferInstanceAs (Decidable (p.link i k = none))
  | .router _ (.recv _ f) =>
    inferInstanceAs (Decidable (f.header.kind = .mbxDelete → f.mbx ≠ some id))
  | .router _ (.start _) => isTrue trivial
  | .router _ .insert => isTrue trivial
  | .router _ (.tick _) => isTrue trivial
  | .router _ (.snapshot _ _) => isTrue trivial
  | .connect _ _ => isTrue trivial
  | .acceptLink _ _ _ => isTrue trivial

/-- The event is the step `re` of router `i`. -/
inductive Event.Acts : Event ι → ι → RouterThreads.Event → Prop
  | connect (i j : ι) : Acts (.connect i j) i (.start true)
  | acceptLink (j i : ι) (k : ConnId) : Acts (.acceptLink j i k) j (.start false)
  | router (i : ι) (re : RouterThreads.Event) : Acts (.router i re) i re
  | deliver (i : ι) (k : ConnId) (f : Frame) : Acts (.deliver i k 0) i (.recv k f)

/-- A step of router `i` under the guard. What is unread grows at its end, except that a link
thread takes the first frame. -/
structure Advances (id : MailboxId) (p q : RouterMesh ι) (e : Event ι) (i : ι)
    (re : RouterThreads.Event) : Prop extends Takes p q e i re where
  acts : e.Acts i re
  queue : ∀ j l,
    q.unread j l =
        p.unread j l ++ (if j = i ∧ (p.link i l).isSome then (p.router i).sent re l else []) ∨
      ∃ k f, re = .recv k f ∧ (p.router i).pc k = .loop ∧ p.link i k = some ⟨j, some l⟩ ∧
        p.unread j l = f :: q.unread j l
  consumes : ∀ k f j l, re = .recv k f → p.link i k = some ⟨j, some l⟩ →
    p.unread j l = f :: q.unread j l
  noEof : ∀ k, re = .eof k → p.link i k = none
  noDelete : ∀ k f, re = .recv k f → f.header.kind = .mbxDelete → f.mbx ≠ some id

theorem unread_advance (p : RouterMesh ι) (i : ι) (re : RouterThreads.Event) (j : ι) (l : ConnId) :
    (p.advance i re).unread j l =
      p.unread j l ++ (if j = i ∧ (p.link i l).isSome then (p.router i).sent re l else []) := by
  by_cases hj : j = i
  · subst hj
    by_cases hl : (p.link j l).isSome <;> simp [advance, hl]
  · simp [advance, hj]

section
variable {id : MailboxId} {p : RouterMesh ι} {i j : ι} {k l : ConnId}

theorem advances_connect (id : MailboxId) (hij : i ≠ j) (hacc : (p.router i).accepting = none) :
    Advances id p ((p.advance i (.start true)).setLink i (p.router i).started ⟨j, none⟩)
      (.connect i j) i (.start true) where
  toTakes := takes_connect hij hacc
  acts := .connect i j
  queue m l := Or.inl (unread_advance p i _ m l)
  consumes k f m l hre := by cases hre
  noEof k hre := by cases hre
  noDelete k f hre := by cases hre

theorem advances_acceptLink (id : MailboxId) (hij : i ≠ j) (hlink : p.link i k = some ⟨j, none⟩)
    (hacc : (p.router j).accepting = none) :
    Advances id p
      (((p.advance j (.start false)).setLink j (p.router j).started ⟨i, some k⟩).setLink i k
        ⟨j, some (p.router j).started⟩)
      (.acceptLink j i k) j (.start false) where
  toTakes := takes_acceptLink hij hlink hacc
  acts := .acceptLink j i k
  queue m l := Or.inl (unread_advance p j _ m l)
  consumes k f m l hre := by cases hre
  noEof k hre := by cases hre
  noDelete k f hre := by cases hre

theorem advances_advance {re : RouterThreads.Event} (hguard : p.InOrder id (.router i re))
    (hclient : clientEvent (p.isLink i) re = true) :
    Advances id p (p.advance i re) (.router i re) i re where
  toTakes := takes_advance p i re hclient
  acts := .router i re
  queue m l := Or.inl (unread_advance p i re m l)
  consumes k f m l hre hlink := by
    -- A client's thread does not read a link.
    subst hre
    simp [isLink, hlink] at hclient
  noEof k hre := by
    subst hre
    exact hguard
  noDelete k f hre := by
    subst hre
    exact hguard

/-- The mesh without the first frame that is unread on connection `l` of router `j`. -/
def readFirst (p : RouterMesh ι) (j : ι) (l : ConnId) : RouterMesh ι :=
  { p with
      unread := Function.update p.unread j
        (Function.update (p.unread j) l ((p.unread j l).eraseIdx 0)) }

/-- Nothing else is read. -/
theorem unread_readFirst_of_ne (p : RouterMesh ι) {m : ι} {o : ConnId} (h : ¬ (m = j ∧ o = l)) :
    (p.readFirst j l).unread m o = p.unread m o := by
  by_cases hm : m = j
  · subst hm
    have ho : o ≠ l := fun ho => h ⟨rfl, ho⟩
    simp [readFirst, Function.update_of_ne ho]
  · simp [readFirst, Function.update_of_ne hm]

theorem unread_readFirst (p : RouterMesh ι) {f : Frame} (hf : (p.unread j l)[0]? = some f) :
    p.unread j l = f :: (p.readFirst j l).unread j l := by
  cases hu : p.unread j l with
  | nil =>
    rw [hu] at hf
    cases hf
  | cons g rest =>
    rw [hu] at hf
    cases hf
    simp [readFirst, hu]

theorem advances_deliver (id : MailboxId) (hp : p.Wf) {f : Frame}
    (hlink : p.link i k = some ⟨j, some l⟩) (hf : (p.unread j l)[0]? = some f)
    (hpc : (p.router i).pc k = .loop) :
    Advances id p ((p.readFirst j l).advance i (.recv k f)) (.deliver i k 0) i (.recv k f) := by
  have hunread : ∀ m o, ((p.readFirst j l).advance i (.recv k f)).unread m o =
      (p.readFirst j l).unread m o := by
    intro m o
    rw [unread_advance, RouterThreads.sent_recv, ite_self, List.append_nil]
  have hread : p.unread j l = f :: ((p.readFirst j l).advance i (.recv k f)).unread j l := by
    rw [hunread, ← unread_readFirst p hf]
  constructor
  · exact takes_deliver hlink hf
  · exact .deliver i k f
  · intro m o
    by_cases hmo : m = j ∧ o = l
    · obtain ⟨rfl, rfl⟩ := hmo
      exact Or.inr ⟨k, f, rfl, hpc, hlink, hread⟩
    · refine Or.inl ?_
      rw [hunread, unread_readFirst_of_ne p hmo, RouterThreads.sent_recv, ite_self,
        List.append_nil]
  · intro k' g m o hre hlink'
    cases hre
    rw [hlink] at hlink'
    cases hlink'
    exact hread
  · intro k hre
    cases hre
  · intro k' g hre hkind
    cases hre
    exact absurd hkind (hp.unread j l f (List.mem_of_getElem? hf)).2

end

/-- Every guarded event is such a step, or is not enabled and changes nothing. -/
theorem advances_cases {id : MailboxId} {p : RouterMesh ι} (hp : p.Wf) {e : Event ι}
    (hguard : p.InOrder id e) :
    (p.step e = p ∧ ∀ i re, e = .router i re → clientEvent (p.isLink i) re = false) ∨
      ∃ i re, Advances id p (p.step e) e i re := by
  cases e with
  | connect i j =>
    simp only [step]
    split
    · rename_i hen
      exact Or.inr ⟨i, _, advances_connect id hen.1 hen.2⟩
    · exact Or.inl ⟨rfl, fun _ _ h => by cases h⟩
  | acceptLink j i k =>
    simp only [step]
    split
    · rename_i hen
      exact Or.inr ⟨j, _, advances_acceptLink id hen.1 hen.2.1 hen.2.2⟩
    · exact Or.inl ⟨rfl, fun _ _ h => by cases h⟩
  | router i re =>
    simp only [step]
    split
    · rename_i hen
      exact Or.inr ⟨i, re, advances_advance hguard hen⟩
    · rename_i hblocked
      refine Or.inl ⟨rfl, fun _ _ h => ?_⟩
      cases h
      exact Bool.not_eq_true _ ▸ hblocked
  | deliver i k n =>
    obtain rfl : n = 0 := hguard
    simp only [step]
    split
    · rename_i j l hlink
      split
      · rename_i f hf
        split
        · rename_i hpc
          exact Or.inr ⟨i, _, advances_deliver id hp hlink hf hpc⟩
        · exact Or.inl ⟨rfl, fun _ _ h => by cases h⟩
      · exact Or.inl ⟨rfl, fun _ _ h => by cases h⟩
    · exact Or.inl ⟨rfl, fun _ _ h => by cases h⟩

section
variable {home : MailboxId → ι} {id : MailboxId} {p q : RouterMesh ι} {e : Event ι} {i : ι}
  {re : RouterThreads.Event}

/-- The thread of `t` writes `f` to a link, and `f` is the last unread frame there. -/
theorem Advances.unread_of_sends (ht : Advances id p q e i re) (hp : p.Wf) {k t : ConnId}
    {x : FarEnd ι} (hx : p.link i k = some x) (hre : re = .tick t) {f : Frame}
    (hsends : ((p.router i).pc t).sends t = some (k, f)) :
    q.unread i k = p.unread i k ++ [f] := by
  subst hre
  rcases ht.queue i k with hgrow | ⟨k', g, hrecv, -⟩
  · rw [hgrow, RouterThreads.sent_eq (hp.links i k x hx).1]
    simp [hx, RouterThreads.writes, hsends]
  · cases hrecv

/-- A frame that is unread stays so, or the thread at the other end reads it as the first. -/
theorem Advances.unread_cases (ht : Advances id p q e i re) (hp : p.Wf) (j : ι) (k : ConnId) :
    (∃ new, q.unread j k = p.unread j k ++ new) ∨
      ∃ l f, re = .recv l f ∧ (p.router i).pc l = .loop ∧ p.link j k = some ⟨i, some l⟩ ∧
        l < (p.router i).started ∧ p.unread j k = f :: q.unread j k := by
  rcases ht.queue j k with hgrow | ⟨l, f, hre, hpc, hlink, hread⟩
  · exact Or.inl ⟨_, hgrow⟩
  · exact Or.inr ⟨l, f, hre, hpc, hp.mates i l j k hlink, (hp.links i l _ hlink).1, hread⟩

end

/-! ### Routes that stay -/

/-- Only the home has a route for `id` to a client, and nobody deletes `id`. -/
structure Kept (home : MailboxId → ι) (id : MailboxId) (p : RouterMesh ι) : Prop where
  oneHop : p.OneHop home
  own : ∀ i k, (p.router i).registry.find id = some k → p.link i k = none → home id = i
  keeps : ∀ i k, ¬ ((p.router i).pc k).deletes id
  noDelete : ∀ i k, ∀ f ∈ p.unread i k, f.header.kind = .peerDelete → f.mbx ≠ some id

section
variable {home : MailboxId → ι} {id : MailboxId} {p q : RouterMesh ι} {e : Event ι} {i : ι}
  {re : RouterThreads.Event}

/-- A route stays, unless it leads to a client of the home whose thread ends. -/
theorem Advances.find_stays (ht : Advances id p q e i re) (h : p.Kept home id) {j : ι}
    {k : ConnId} (hfind : (p.router j).registry.find id = some k)
    (hstays : j = i → i = home id → re ≠ .eof k) : (q.router j).registry.find id = some k := by
  by_cases hj : j = i
  · subst hj
    rw [ht.self]
    rcases RouterThreads.find_kept_or (e := re) hfind with hkept | ⟨t, -, hpc⟩ | hre
    · exact hkept
    · exact absurd (by rcases hpc with hpc | hpc <;> rw [hpc] <;> rfl) (h.keeps j t)
    · exact absurd hre (hstays rfl (h.own j k hfind (ht.noEof k hre)).symm)
  · rwa [ht.other j hj]

/-- A new route is added by the thread of its connection, for a peer or for a client of the
home. -/
theorem Takes.find_new (ht : Takes p q e i re) (h : p.OneHop home) {j : ι} {k : ConnId}
    (hfind : (q.router j).registry.find id = some k) :
    (p.router j).registry.find id = some k ∨
      (j = i ∧ re = .tick k ∧ (p.router j).registry.find id = none ∧
        ((p.router j).pc k = .peerAdd id ∨
          (home id = j ∧ ∃ hd, (p.router j).pc k = .initAdd id hd))) := by
  by_cases hj : j = i
  · subst hj
    rw [ht.self] at hfind
    rcases RouterThreads.find_step hfind with hold | ⟨hre, hnone, hpc | ⟨hd, hpc⟩⟩
    · exact Or.inl hold
    · exact Or.inr ⟨rfl, hre, hnone, Or.inl hpc⟩
    · exact Or.inr ⟨rfl, hre, hnone, Or.inr ⟨h.inits j k id hd hpc, hd, hpc⟩⟩
  · rw [ht.other j hj] at hfind
    exact Or.inl hfind

theorem Advances.own (ht : Advances id p q e i re) (h : p.Kept home id) {j : ι} {k : ConnId}
    (hfind : (q.router j).registry.find id = some k) (hlink : q.link j k = none) :
    home id = j := by
  have hp := h.oneHop.wf
  have hnone : p.link j k = none := by
    cases hx : p.link j k with
    | none => rfl
    | some x =>
      obtain ⟨c, hc, -⟩ := ht.link_kept hp hx
      rw [hlink] at hc
      cases hc
  rcases ht.find_new h.oneHop hfind with hold | ⟨-, -, -, hpc | ⟨hhome, -⟩⟩
  · exact h.own j k hold hnone
  -- A peer route is added by the thread of a link.
  · obtain ⟨x, hx⟩ := hp.peers j k ((hp.routers j).peerAdds k id hpc)
    rw [hnone] at hx
    cases hx
  · exact hhome

theorem Advances.keeps (ht : Advances id p q e i re) (h : p.Kept home id) (j : ι)
    (k : ConnId) : ¬ ((q.router j).pc k).deletes id := by
  intro hpc
  by_cases hj : j = i
  · subst hj
    rw [ht.self] at hpc
    rcases RouterThreads.deletes_step hpc with hold | ⟨f, hre, hkind | hkind, hid⟩
    · exact h.keeps j k hold
    · exact ht.noDelete k f hre hkind hid
    -- A `MSG_ROUTER_PEER_DELETE` comes over a link.
    · rcases ht.reads k f hre with ⟨m, l, -, hf⟩ | ⟨-, hclient, -⟩
      · exact h.noDelete m l f hf hkind hid
      · rw [hkind] at hclient
        cases hclient
  · rw [ht.other j hj] at hpc
    exact h.keeps j k hpc

theorem Advances.noDelete_unread (ht : Advances id p q e i re) (h : p.Kept home id) {j : ι}
    {k : ConnId} {f : Frame} (hf : f ∈ q.unread j k) (hkind : f.header.kind = .peerDelete) :
    f.mbx ≠ some id := by
  have hp := h.oneHop.wf
  rcases ht.unread j k f hf with hold | ⟨rfl, ⟨x, hx⟩, hnew⟩
  · exact h.noDelete j k f hold hkind
  · intro hid
    obtain ⟨t, -, hsends⟩ := hp.sent hx hnew
    -- Only the broadcast of a delete writes one.
    rcases Pc.sends_cases hsends with ⟨-, hf⟩ | ⟨a, ids, -, -, rfl⟩ | ⟨a, a', ps, hpc, rfl⟩ | hf |
      hf
    · rw [hkind] at hf
      cases hf
    · cases hkind
    · rw [mbx_announcement, Option.some.injEq] at hid
      cases a with
      | register => cases hkind
      | delete => exact h.keeps j t (by rw [hpc]; exact hid)
    · rw [hkind] at hf
      cases hf
    · rw [(hp.routers j).carried t f hf] at hkind
      cases hkind

theorem Advances.kept (ht : Advances id p q e i re) (h : p.Kept home id)
    (he : HomeEvent home e) : q.Kept home id where
  oneHop := ht.oneHop h.oneHop he
  own _ _ := ht.own h
  keeps := ht.keeps h
  noDelete _ _ _ := ht.noDelete_unread h

end

omit [DecidableEq ι] in
theorem kept_init (home : MailboxId → ι) (id : MailboxId) (up : ι → MailboxId → Bool) :
    (init up).Kept home id where
  oneHop := oneHop_init home up
  own i k h := by cases h
  keeps i k h := by cases h
  noDelete i k f h := by cases h

end RouterMesh

end CoreRaT.Spec
