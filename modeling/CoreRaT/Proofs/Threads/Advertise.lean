import CoreRaT.Proofs.Threads.Publish

/-!
# `CoreRaT.Proofs.Threads.Advertise`: does every peer learn every mailbox?

A peer hears of a mailbox from one of two threads. Its own thread sends the snapshot that
`advertise_as_peer` takes of `local_mailboxes_`. The thread of the registering client inserts
the mailbox into `local_mailboxes_` and then broadcasts to the peers that it finds in
`connections_`. `Covered` describes the first way, `Announcing` the second.

The router's own thread starts the thread of a connection before it inserts the connection
into `connections_`. So a peer can take its snapshot while no broadcast reaches it. A mailbox
that is registered in this window is lost for the peer: `advertisement_lost`. The window is
the only way to lose an advertisement that was not taken back. `AdvertiseGuard` excludes it
step by step, and `advertised_of_quiescent` proves that every run under this guard has told
every peer about every local mailbox once no thread is inside a handler.

The guard has a second part. `registry_` and `local_mailboxes_` are under different locks, so
the erase of a delete can hit a mailbox that another client has registered in between.
-/

set_option autoImplicit false

namespace CoreRaT.Spec.RouterThreads

open CoreRaT.Lib

/-- The thread of `p` still has to take its snapshot, or still has to send `id`, or `p` has
been told. -/
def Covered (s : RouterThreads) (p : ConnId) (id : MailboxId) : Prop :=
  s.pc p = .hello ∨ s.pc p = .snapshot ∨ s.Pending p id ∨ s.Told p id

/-- The thread of `c` is in `on_local_registered` of `id` and has not yet sent to `p`. -/
def Announcing (s : RouterThreads) (c p : ConnId) (id : MailboxId) : Prop :=
  s.pc c = .peersSnapshot .register id ∨ ∃ ps, s.pc c = .broadcast .register id ps ∧ p ∈ ps

/-- The thread of `c` has added `id` to the registry, and not yet to `local_mailboxes_`. -/
def Registering (s : RouterThreads) (c : ConnId) (id : MailboxId) : Prop :=
  (∃ h, s.pc c = .initReply id h true) ∨ s.pc c = .localInsert id

/-- In the state `s`, the event loses no advertisement:

* a client that takes the snapshot of the peers to announce `id` misses only peers that learn
  `id` from their own thread;
* the erase of a delete does not hit the mailbox of a client that has registered it again. -/
def AdvertiseGuard (s : RouterThreads) : Event → Prop
  | .tick k =>
    match s.pc k with
    | .peersSnapshot .register id =>
      ∀ p, s.isPeer p = true → p ∉ s.connections → s.Covered p id
    | .localErase id =>
      ∀ c, s.registry.find id = some c → s.isPeer c = false → s.Registering c id
    | _ => True
  | _ => True

/-- The invariant: a mailbox of a client is published or about to be, and every peer has been
told about every published mailbox or is about to be. -/
structure Advertised (s : RouterThreads) : Prop where
  published : ∀ id c, s.registry.find id = some c → s.isPeer c = false →
    id ∈ s.localMailboxes ∨ s.Registering c id
  announced : ∀ id p, id ∈ s.localMailboxes → s.isPeer p = true →
    s.Covered p id ∨ ∃ c, s.Announcing c p id

/-! ### One step -/

/-- A peer that has been told, or will be by its own thread, stays so. Here `id` is in
`local_mailboxes_` when the snapshot is taken. -/
theorem covered_step {s : RouterThreads} (e : Event) {p : ConnId} {id : MailboxId}
    (hp : p < s.started) (hid : id ∈ s.localMailboxes) (h : s.Covered p id) :
    (s.step e).Covered p id := by
  rcases h with hpc | hpc | ⟨ids, hpc, hmem⟩ | htold
  · rcases pc_eq_or_tick e hp (by simp [hpc]) (by simp [hpc]) with hs | rfl
    · exact Or.inl (hs.trans hpc)
    · exact Or.inr (Or.inl (by simp [step_tick hpc, execute, goto]))
  -- The snapshot is taken now, in some order, and has `id` in it.
  · rcases pc_snapshot_step e hp hpc with hs | ⟨ids, -, hperm, hs⟩
    · exact Or.inr (Or.inl hs)
    · exact Or.inr (Or.inr (Or.inl ⟨ids, hs, hperm.mem_iff.mpr hid⟩))
  · rcases pc_eq_or_tick e hp (by simp [hpc]) (by simp [hpc]) with hs | rfl
    · exact Or.inr (Or.inr (Or.inl ⟨ids, hs.trans hpc, hmem⟩))
    · cases ids with
      | nil => cases hmem
      | cons i rest =>
        -- `id` is the next to be sent, or it is further down the list.
        rcases List.mem_cons.mp hmem with rfl | hrest
        · exact Or.inr (Or.inr (Or.inr (told_of_sends hp (by simp [hpc, Pc.sends]))))
        · exact Or.inr (Or.inr (Or.inl ⟨rest, by simp [step_tick hpc, execute, goto], hrest⟩))
  · exact Or.inr (Or.inr (Or.inr (told_step e hp htold)))

/-- A client that is announcing `id` goes on, and has told `p` when it has passed `p`. When it
takes its snapshot of the peers, the guard covers the peers it misses. -/
theorem announcing_step {s : RouterThreads} (hwf : s.Wf) {e : Event} {c p : ConnId}
    {id : MailboxId} (hpeer : s.isPeer p = true) (hid : id ∈ s.localMailboxes)
    (hguard : s.AdvertiseGuard e) (h : s.Announcing c p id) :
    (s.step e).Covered p id ∨ ∃ c, (s.step e).Announcing c p id := by
  have hp : p < s.started := hwf.peers p hpeer
  rcases h with hpc | ⟨ps, hpc, hmem⟩
  · have hc : c < s.started := hwf.lt_of_pc (by simp [hpc])
    rcases pc_eq_or_tick e hc (by simp [hpc]) (by simp [hpc]) with hs | rfl
    · exact Or.inr ⟨c, Or.inl (hs.trans hpc)⟩
    -- The snapshot of the peers. A peer that is not yet in `connections_` is missed, and the guard
    -- says that its own thread covers it.
    · by_cases hlisted : p ∈ s.connections
      · refine Or.inr ⟨c, Or.inr ⟨s.connections.filter (s.isPeer ·), ?_, ?_⟩⟩
        · simp [step_tick hpc, execute, goto]
        · exact List.mem_filter.mpr ⟨hlisted, hpeer⟩
      · simp only [AdvertiseGuard, hpc] at hguard
        exact Or.inl (covered_step _ hp hid (hguard p hpeer hlisted))
  · have hc : c < s.started := hwf.lt_of_pc (by simp [hpc])
    rcases pc_eq_or_tick e hc (by simp [hpc]) (by simp [hpc]) with hs | rfl
    · exact Or.inr ⟨c, Or.inr ⟨ps, hs.trans hpc, hmem⟩⟩
    · cases ps with
      | nil => cases hmem
      | cons q rest =>
        rcases List.mem_cons.mp hmem with rfl | hrest
        · exact Or.inl (Or.inr (Or.inr (Or.inr (told_of_sends hp (by simp [hpc, Pc.sends])))))
        · refine Or.inr ⟨c, Or.inr ⟨rest, ?_, hrest⟩⟩
          simp [step_tick hpc, execute, goto]

/-- A client that is registering `id` goes on, and `id` is published when it is done. -/
theorem registering_step {s : RouterThreads} (hwf : s.Wf) (e : Event) {c : ConnId}
    {id : MailboxId} (h : s.Registering c id) :
    id ∈ (s.step e).localMailboxes ∨ (s.step e).Registering c id := by
  rcases h with ⟨hd, hpc⟩ | hpc
  · have hc : c < s.started := hwf.lt_of_pc (by simp [hpc])
    rcases pc_eq_or_tick e hc (by simp [hpc]) (by simp [hpc]) with hs | rfl
    · exact Or.inr (Or.inl ⟨hd, hs.trans hpc⟩)
    · exact Or.inr (Or.inr (by simp [step_tick hpc, execute, goto]))
  · have hc : c < s.started := hwf.lt_of_pc (by simp [hpc])
    rcases pc_eq_or_tick e hc (by simp [hpc]) (by simp [hpc]) with hs | rfl
    · exact Or.inr (Or.inr (hs.trans hpc))
    · exact Or.inl (by simp [step_tick hpc, execute, goto])

theorem published_step {s : RouterThreads} (hwf : s.Wf) (h : s.Advertised) {e : Event}
    (hguard : s.AdvertiseGuard e) (id : MailboxId) (c : ConnId)
    (hfind : (s.step e).registry.find id = some c) (hpeer : (s.step e).isPeer c = false) :
    id ∈ (s.step e).localMailboxes ∨ (s.step e).Registering c id := by
  rcases find_step hfind with hold | ⟨rfl, hfree, hpc | ⟨hd, hpc⟩⟩
  · have hclient : s.isPeer c = false := isPeer_eq_false_of_step (hwf.routes id c hold) hpeer
    rcases h.published id c hold hclient with hmem | hreg
    · rcases mem_localMailboxes_step (e := e) hmem with hkept | ⟨k, rfl, hpc⟩
      · exact Or.inl hkept
      -- The erase of a delete hits `id`: the second part of the guard.
      · simp only [AdvertiseGuard, hpc] at hguard
        exact registering_step hwf _ (hguard c hold hclient)
    · exact registering_step hwf e hreg
  · -- A new route of a peer is not the route of a client.
    have hc := hwf.peerAdds c id hpc
    rw [isPeer_step (hwf.peers c hc) hc] at hpeer
    cases hpeer
  · have hok : (s.registry.add id c).1 = true :=
      (s.registry.add_eq_true_iff id c).mpr hfree
    exact Or.inr (Or.inl ⟨hd, by simp [step_tick hpc, execute, goto, hok]⟩)

theorem announced_step {s : RouterThreads} (hwf : s.Wf) (h : s.Advertised) {e : Event}
    (hguard : s.AdvertiseGuard e) (id : MailboxId) (p : ConnId)
    (hid : id ∈ (s.step e).localMailboxes) (hpeer : (s.step e).isPeer p = true) :
    (s.step e).Covered p id ∨ ∃ c, (s.step e).Announcing c p id := by
  rcases isPeer_of_isPeer_step hpeer with hold | ⟨hhello, -⟩
  · rcases mem_of_mem_localMailboxes_step hid with hmem | ⟨k, rfl, hpc⟩
    · rcases h.announced id p hmem hold with hcov | ⟨c, hann⟩
      · exact Or.inl (covered_step e (hwf.peers p hold) hmem hcov)
      · exact announcing_step hwf hold hmem hguard hann
    -- `id` has just been inserted, and its client goes on to the snapshot of the peers.
    · exact Or.inr ⟨k, Or.inl (by simp [step_tick hpc, execute, goto])⟩
  -- A new peer begins with its own `advertise_as_peer`.
  · exact Or.inl (Or.inl hhello)

/-- Each guarded step keeps the invariant. -/
theorem advertised_step (s : RouterThreads) (e : Event) (h : s.Wf ∧ s.Advertised)
    (hguard : s.AdvertiseGuard e) : (s.step e).Wf ∧ (s.step e).Advertised :=
  ⟨wf_step s e h.1, published_step h.1 h.2 hguard, announced_step h.1 h.2 hguard⟩

/-! ### Runs -/

theorem advertised_init (up : MailboxId → Bool) : (init up).Wf ∧ (init up).Advertised := by
  refine ⟨wf_init up, ?_, ?_⟩
  · intro id c h
    cases h
  · intro id p h
    cases h

/-- **Completeness of the advertisement.** Take any run of the router's threads that loses no
advertisement. Once every started operation has finished, `MSG_ROUTER_PEER_REGISTER` has been
written to every connection in peer mode, for every mailbox in `local_mailboxes_` and for
every mailbox that routes to a client connection. -/
theorem advertised_of_quiescent (up : MailboxId → Bool) (es : List Event)
    (hguard : AllSteps step AdvertiseGuard (init up) es)
    (hquiet : (runFrom step (init up) es).Quiescent) (id : MailboxId) (p : ConnId)
    (hid : id ∈ (runFrom step (init up) es).localMailboxes ∨
      ∃ c, (runFrom step (init up) es).registry.find id = some c ∧
        (runFrom step (init up) es).isPeer c = false)
    (hpeer : (runFrom step (init up) es).isPeer p = true) :
    ∃ w ∈ (runFrom step (init up) es).out p,
      w.frame = .ofMbx MSG_ROUTER_PEER_REGISTER id := by
  obtain ⟨-, hinv⟩ :=
    (allStates_of_allSteps advertised_step (advertised_init up) hguard).last
  generalize runFrom step (init up) es = s at *
  have hpublished : id ∈ s.localMailboxes := by
    rcases hid with hmem | ⟨c, hfind, hclient⟩
    · exact hmem
    · rcases hinv.published id c hfind hclient with hmem | ⟨h, hpc⟩ | hpc
      · exact hmem
      all_goals exact absurd hpc (hquiet.pc_ne c (by simp) (by simp))
  rcases hinv.announced id p hpublished hpeer with (hpc | hpc | ⟨ids, hpc, -⟩ | htold) |
    ⟨c, hpc | ⟨ps, hpc, -⟩⟩
  · exact absurd hpc (hquiet.pc_ne p (by simp) (by simp))
  · exact absurd hpc (hquiet.pc_ne p (by simp) (by simp))
  · exact absurd hpc (hquiet.pc_ne p (by simp) (by simp))
  · exact htold
  · exact absurd hpc (hquiet.pc_ne c (by simp) (by simp))
  · exact absurd hpc (hquiet.pc_ne c (by simp) (by simp))

/-- Connection 0 is a client and connection 1 another router. The thread of connection 1 reads
`MSG_ROUTER_PEER_HELLO`, advertises nothing, and only then the accept loop goes on. In between
the client registers mailbox 7. -/
def lateInsertRun : List Event :=
  [.start false, .insert,
    .start false, .recv 1 (.bare MSG_ROUTER_PEER_HELLO 0 0), .tick 1, .snapshot 1 [], .tick 1,
    .recv 0 (.ofMbx MSG_ROUTER_MBX_INIT_WITH_REPLY 7), .tick 0, .tick 0, .tick 0, .tick 0,
    .tick 0, .insert]

/-- The run ends with no operation under way. The client owns mailbox 7, and all that has been
written to the peer is `MSG_ROUTER_PEER_HELLO`. -/
theorem advertisement_lost :
    (runFrom step (init fun _ => false) lateInsertRun).Quiescent ∧
      (runFrom step (init fun _ => false) lateInsertRun).registry.find 7 = some 0 ∧
      (runFrom step (init fun _ => false) lateInsertRun).isPeer 0 = false ∧
      (runFrom step (init fun _ => false) lateInsertRun).isPeer 1 = true ∧
      ¬ ∃ w ∈ (runFrom step (init fun _ => false) lateInsertRun).out 1,
        w.frame = .ofMbx MSG_ROUTER_PEER_REGISTER 7 := by
  refine ⟨(wf_run _ _).quiescent (by decide) (by decide), by decide, by decide, by decide, ?_⟩
  decide

/-- The same two connections. The peer takes its snapshot in the window too, but after the
client has inserted mailbox 7: the broadcast misses the peer, and the snapshot does not. -/
def windowRun : List Event :=
  [.start false, .insert,
    .recv 0 (.ofMbx MSG_ROUTER_MBX_INIT_WITH_REPLY 7), .tick 0, .tick 0, .tick 0,
    .start false, .recv 1 (.bare MSG_ROUTER_PEER_HELLO 0 0), .tick 1, .snapshot 1 [7],
    .tick 0, .tick 0, .tick 1, .tick 1, .insert]

theorem advertised_in_window :
    AllSteps step AdvertiseGuard (init fun _ => false) windowRun ∧
      ∃ w ∈ (runFrom step (init fun _ => false) windowRun).out 1,
        w.frame = .ofMbx MSG_ROUTER_PEER_REGISTER 7 := by
  have hguard : AllSteps step AdvertiseGuard (init fun _ => false) windowRun := by
    refine ⟨trivial, trivial, trivial, trivial, trivial, trivial, trivial, trivial, trivial,
      trivial, ?_, trivial, trivial, trivial, trivial, trivial⟩
    -- Only the snapshot of the peers has a condition: connection 1 has 7 in its snapshot.
    intro p hpeer _
    match p, hpeer with
    | 1, _ => exact Or.inr (Or.inr (Or.inl ⟨[7], by decide, by decide⟩))
  exact ⟨hguard, advertised_of_quiescent _ _ hguard
    ((wf_run _ _).quiescent (by decide) (by decide)) 7 1 (Or.inl (by decide)) (by decide)⟩

end CoreRaT.Spec.RouterThreads
