import CoreRaT.Proofs.Pair.Mesh

/-!
# `CoreRaT.Proofs.Pair.Loop`: no mailbox routes both ways

Two routers must not route the same mailbox to each other: a data frame for it would go back
and forth. A side originates a mailbox when it publishes it, when a
`MSG_ROUTER_PEER_REGISTER` of it is in flight, or when the other side is about to add the
route (`Originates`).

The routers do not look at each other before they accept a registration, and a router goes on
originating a mailbox whose client has disconnected. So a mailbox can move from one router to
the other while its old router still originates it. `forwarding_loop` is such a run: both
sides originate mailbox 7, and both clients are gone when the two announcements arrive.

`MoveGuard` excludes this move: a registration succeeds only at a time when the other side
does not originate the mailbox. Under the guard, in every order of delivery, at most one side
originates a mailbox, a side that routes it to the link does not originate it, and
`no_forwarding_loop` follows.
-/

set_option autoImplicit false

namespace CoreRaT.Spec.RouterPair

open CoreRaT.Lib

/-- Side `s` makes the other side route `id` to the link, now or later. -/
def Originates (p : RouterPair) (s : Side) (id : MailboxId) : Prop :=
  (p.router s).Publishing id ∨
    (∃ f ∈ p.inflight s.other, f.header.kind = .peerRegister ∧ f.mbx = some id) ∨
    ∃ l, p.link s.other = some l ∧ (p.router s.other).pc l = .peerAdd id

/-- In the state `p`, the event is not the successful registration of a mailbox that the other
side still originates. -/
def MoveGuard (p : RouterPair) : Event → Prop
  | .router s (.tick k) =>
    ∀ id h, (p.router s).pc k = .initAdd id h → (p.router s).registry.find id = none →
      ¬ p.Originates s.other id
  | _ => True

/-- The invariant behind the absence of loops. -/
structure LoopFree (p : RouterPair) : Prop where
  wf : p.Wf
  exclusive : ∀ s id, p.Originates s id → ¬ p.Originates s.other id
  routed : ∀ s id, p.RoutesToPeer s id → ¬ p.Originates s id
  noLoop : ∀ s id, p.RoutesToPeer s id → ¬ p.RoutesToPeer s.other id

/-! ### One step -/

section
variable {p q : RouterPair} {e : Event} {s : Side} {re : RouterThreads.Event}

/-- The acting side originates `id` after a step only if it did before, or if the step is a
successful registration. -/
theorem Takes.originates_self (ht : Takes p q e s re) (hwf : p.Wf) {id : MailboxId}
    (h : q.Originates s id) :
    p.Originates s id ∨
      ∃ k hd, re = .tick k ∧ (p.router s).pc k = .initAdd id hd ∧
        (p.router s).registry.find id = none := by
  rcases h with hpub | ⟨f, hf, hkind, hid⟩ | ⟨l, hl, hpc⟩
  · rw [ht.self] at hpub
    rcases RouterThreads.publishing_step hpub with hold | hnew
    · exact Or.inl (Or.inl hold)
    · exact Or.inr hnew
  · rw [ht.sends] at hf
    rcases List.mem_append.mp hf with hold | hnew
    · exact Or.inl (Or.inr (Or.inl ⟨f, hold, hkind, hid⟩))
    · -- A written announcement comes from a thread that publishes the mailbox.
      obtain ⟨l, k, -, -, hsends⟩ := hwf.sent hnew
      refine Or.inl (Or.inl (Or.inr ⟨k, ?_⟩))
      rcases RouterThreads.sends_register (hwf.routers s) hsends hkind hid with
        ⟨ids, hpc, -⟩ | ⟨ps, hpc⟩
      · exact Or.inr ⟨id :: ids, hpc, List.mem_cons_self⟩
      · exact Or.inl (by rw [hpc]; rfl)
  · rw [ht.linkOther] at hl
    rw [ht.other] at hpc
    exact Or.inl (Or.inr (Or.inr ⟨l, hl, hpc⟩))

/-- The side that does not act originates nothing new: an announcement that its peer reads was
in flight. -/
theorem Takes.originates_other (ht : Takes p q e s re) (hwf : p.Wf) {id : MailboxId}
    (h : q.Originates s.other id) : p.Originates s.other id := by
  rcases h with hpub | ⟨f, hf, hkind, hid⟩ | ⟨l, hl, hpc⟩
  · rw [ht.other] at hpub
    exact Or.inl hpub
  · rw [Side.other_other] at hf
    exact Or.inr (Or.inl ⟨f, by rw [Side.other_other]; exact ht.mem_inflight hf, hkind, hid⟩)
  · rw [Side.other_other] at hl hpc
    rw [ht.self] at hpc
    rcases RouterThreads.peerAdd_step hpc with hold | ⟨-, f, hre, hkind, hid⟩
    · have hpeer := (hwf.routers s).peerAdds l id hold
      refine Or.inr (Or.inr ⟨l, ?_, ?_⟩) <;> rw [Side.other_other]
      · exact hwf.peers s l hpeer
      · exact hold
    -- The link thread of the acting side has read the announcement, which was in flight before.
    · rcases ht.link_cases hl with hlink | ⟨-, -, -, b, hstart⟩
      · have hf := ht.mem_of_recv hlink hre
        exact Or.inr (Or.inl ⟨f, by rw [Side.other_other]; exact hf, hkind, hid⟩)
      · rw [hre] at hstart
        cases hstart

/-- A new route to the link is the link thread's `add` of an announced mailbox. -/
theorem Takes.routesToPeer_self (ht : Takes p q e s re) (hwf : p.Wf) {id : MailboxId}
    (h : q.RoutesToPeer s id) :
    p.RoutesToPeer s id ∨
      ∃ l, p.link s = some l ∧ re = .tick l ∧ (p.router s).pc l = .peerAdd id := by
  obtain ⟨l, hl, hfind⟩ := h
  rw [ht.self] at hfind
  rcases RouterThreads.find_step hfind with hold | ⟨hre, -, hpc⟩
  · rcases ht.link_cases hl with hlink | ⟨-, rfl, -, -⟩
    · exact Or.inl ⟨l, hlink, hold⟩
    -- A connection that has just been made has no routes.
    · exact absurd ((hwf.routers s).routes id _ hold) (Nat.lt_irrefl _)
  · rcases ht.link_cases hl with hlink | ⟨-, -, -, b, hstart⟩
    · rcases hpc with hpc | ⟨hd, hpc⟩
      · exact Or.inr ⟨l, hlink, hre, hpc⟩
      -- The link thread handles no registration of a client.
      · exact absurd (by rw [hpc]; rfl) (hwf.control s l id hlink)
    · rw [hre] at hstart
      cases hstart

theorem Takes.routesToPeer_other (ht : Takes p q e s re) {id : MailboxId} :
    q.RoutesToPeer s.other id ↔ p.RoutesToPeer s.other id := by
  simp only [RoutesToPeer, ht.linkOther, ht.other]

/-- The `add` of the link thread means that the other side originates the mailbox. -/
theorem originates_of_peerAdd {l : ConnId} {id : MailboxId} (hl : p.link s = some l)
    (hpc : (p.router s).pc l = .peerAdd id) : p.Originates s.other id := by
  refine Or.inr (Or.inr ⟨l, ?_, ?_⟩) <;> rw [Side.other_other]
  · exact hl
  · exact hpc

/-- Each guarded step keeps the invariant. -/
theorem Takes.loopFree (ht : Takes p q e s re) (h : p.LoopFree) (hwf : q.Wf)
    (hguard : ∀ k id hd, re = .tick k → (p.router s).pc k = .initAdd id hd →
      (p.router s).registry.find id = none → ¬ p.Originates s.other id) : q.LoopFree := by
  -- Each pair of facts concerns the acting side and the other one.
  have hexcl : ∀ id, q.Originates s id → ¬ q.Originates s.other id := by
    intro id hself hother
    have hother := ht.originates_other h.wf hother
    rcases ht.originates_self h.wf hself with hold | ⟨k, hd, hre, hpc, hfree⟩
    · exact h.exclusive s id hold hother
    · exact hguard k id hd hre hpc hfree hother
  have hloop : ∀ id, q.RoutesToPeer s id → ¬ q.RoutesToPeer s.other id := by
    intro id hself hother
    have hother := ht.routesToPeer_other.mp hother
    rcases ht.routesToPeer_self h.wf hself with hold | ⟨l, hl, -, hpc⟩
    · exact h.noLoop s id hold hother
    · exact h.routed s.other id hother (originates_of_peerAdd hl hpc)
  refine ⟨hwf, ?_, ?_, ?_⟩
  · intro t id
    rcases Side.eq_or_other s t with rfl | rfl
    · exact hexcl id
    · intro hother hself
      rw [Side.other_other] at hself
      exact hexcl id hself hother
  · intro t id hroute horig
    rcases Side.eq_or_other s t with rfl | rfl
    · rcases ht.routesToPeer_self h.wf hroute with hold | ⟨l, hl, hre, hpc⟩ <;>
        rcases ht.originates_self h.wf horig with horig | ⟨k, hd, hre', hpc', hfree⟩
      · exact h.routed t id hold horig
      -- A registration only succeeds where there is no route.
      · obtain ⟨l, -, hfind⟩ := hold
        rw [hfree] at hfind
        cases hfind
      · exact h.exclusive t id horig (originates_of_peerAdd hl hpc)
      · -- One thread cannot stand at both sections.
        rw [hre] at hre'
        cases hre'
        rw [hpc] at hpc'
        cases hpc'
    · exact h.routed s.other id (ht.routesToPeer_other.mp hroute)
        (ht.originates_other h.wf horig)
  · intro t id
    rcases Side.eq_or_other s t with rfl | rfl
    · exact hloop id
    · intro hother hself
      rw [Side.other_other] at hself
      exact hloop id hself hother

end

theorem loopFree_step (p : RouterPair) (e : Event) (h : p.LoopFree) (hguard : p.MoveGuard e) :
    (p.step e).LoopFree := by
  rcases step_cases p e with hs | ⟨s, re, ht⟩
  · rw [hs]
    exact h
  · refine ht.loopFree h (wf_step p e h.wf) ?_
    rintro k id hd rfl hpc hfree
    rcases ht.own with rfl | ⟨b, hre⟩ | ⟨l, f, hre, -⟩
    · exact hguard id hd hpc hfree
    · cases hre
    · cases hre

theorem loopFree_init (up : Side → MailboxId → Bool) : (init up).LoopFree where
  wf := wf_init up
  exclusive s id h := by
    rcases h with (hmem | ⟨k, hpc | ⟨ids, hpc, -⟩⟩) | ⟨f, hf, -⟩ | ⟨l, hl, -⟩
    · cases hmem
    · cases hpc
    · cases hpc
    · cases hf
    · cases hl
  routed s id h := by
    obtain ⟨l, hl, -⟩ := h
    cases hl
  noLoop s id h := by
    obtain ⟨l, hl, -⟩ := h
    cases hl

/-! ### Runs -/

/-- **No forwarding loop.** Take any run of two routers in which no registration succeeds at
one side while the other side still originates the mailbox. In no state of the run is there a
mailbox that both sides route to each other. Clients come and go, the link is set up at any
time, and frames in flight are handled in any order. -/
theorem no_forwarding_loop (up : Side → MailboxId → Bool) (es : List Event)
    (hguard : AllSteps step MoveGuard (init up) es) :
    AllStates step (fun p => ∀ id, ¬ (p.RoutesToPeer .a id ∧ p.RoutesToPeer .b id))
      (init up) es := by
  refine (allStates_of_allSteps loopFree_step (loopFree_init up) hguard).mono ?_
  rintro p h id ⟨ha, hb⟩
  exact h.noLoop .a id ha hb

/-- A client of side `b` registers mailbox 7 and disconnects; side `b` goes on publishing 7.
Then side `a` opens the link, and side `b` answers with its snapshot. Before side `a` has read
it, a client of side `a` registers mailbox 7, is announced, and disconnects. -/
def crossingRun : List Event :=
  [.router .b (.start false), .router .b .insert,
    .router .b (.recv 0 (.ofMbx MSG_ROUTER_MBX_INIT_WITH_REPLY 7)),
    .router .b (.tick 0), .router .b (.tick 0), .router .b (.tick 0), .router .b (.tick 0),
    .router .b (.tick 0), .router .b (.eof 0),
    .connect .a, .router .a .insert, .router .a (.tick 0), .router .a (.snapshot 0 []),
    .router .a (.tick 0),
    .acceptLink .b, .router .b .insert, .deliver .b 0, .router .b (.tick 1),
    .router .b (.snapshot 1 [7]), .router .b (.tick 1), .router .b (.tick 1),
    .router .a (.start false), .router .a .insert,
    .router .a (.recv 1 (.ofMbx MSG_ROUTER_MBX_INIT_WITH_REPLY 7)),
    .router .a (.tick 1), .router .a (.tick 1), .router .a (.tick 1), .router .a (.tick 1),
    .router .a (.tick 1), .router .a (.tick 1), .router .a (.eof 1),
    .deliver .b 0, .router .b (.tick 1),
    .deliver .a 0, .deliver .a 0, .router .a (.tick 0)]

/-- Both routers route mailbox 7 to each other. -/
theorem forwarding_loop :
    (runFrom step (init fun _ _ => false) crossingRun).RoutesToPeer .a 7 ∧
      (runFrom step (init fun _ _ => false) crossingRun).RoutesToPeer .b 7 :=
  ⟨⟨0, by decide, by decide⟩, ⟨1, by decide, by decide⟩⟩

/-- A client of side `a` registers mailbox 7, then side `b` opens the link and learns 7. -/
def learningRun : List Event :=
  [.router .a (.start false), .router .a .insert,
    .router .a (.recv 0 (.ofMbx MSG_ROUTER_MBX_INIT_WITH_REPLY 7)),
    .router .a (.tick 0), .router .a (.tick 0), .router .a (.tick 0), .router .a (.tick 0),
    .router .a (.tick 0),
    .connect .b, .router .b .insert, .router .b (.tick 0),
    .acceptLink .a, .router .a .insert, .deliver .a 0, .router .a (.tick 1),
    .router .a (.snapshot 1 [7]), .router .a (.tick 1),
    .deliver .b 0, .router .b (.snapshot 0 []), .router .b (.tick 0),
    .deliver .b 0, .deliver .b 0, .router .b (.tick 0)]

theorem no_loop_when_learned :
    (runFrom step (init fun _ _ => false) learningRun).RoutesToPeer .b 7 ∧
      AllStates step (fun p => ∀ id, ¬ (p.RoutesToPeer .a id ∧ p.RoutesToPeer .b id))
        (init fun _ _ => false) learningRun := by
  refine ⟨⟨0, by decide, by decide⟩, no_forwarding_loop _ _ ?_⟩
  refine ⟨trivial, trivial, trivial, ?_, ?_, ?_, ?_, ?_, trivial, trivial, ?_, trivial, trivial,
    trivial, ?_, trivial, ?_, trivial, trivial, ?_, trivial, trivial, ?_, trivial⟩
  · -- The registration: side `b` has done nothing yet.
    rintro id h - - ((hmem | ⟨k, hpc | ⟨ids, hpc, -⟩⟩) | ⟨f, hf, -⟩ | ⟨l, hl, -⟩)
    · cases hmem
    · cases hpc
    · cases hpc
    · cases hf
    · cases hl
  all_goals
    intro id h hpc
    cases hpc

end CoreRaT.Spec.RouterPair
