import CoreRaT.Proofs.Mesh.InOrder
import CoreRaT.Proofs.Threads.Advertise

/-!
# `CoreRaT.Proofs.Mesh.Learned`: every neighbour learns the way to a mailbox

The other half of `one_hop`. A router that registers a mailbox announces it on every link, with
the snapshot of the link's own thread or with the broadcast of the client's thread
(`Proofs/Threads/Advertise.lean`). The announcement is not enough. The router at the other end
drops a `MSG_ROUTER_PEER_REGISTER` that it reads before the link's `MSG_ROUTER_PEER_HELLO`, and
a broadcast can write the one before the thread of the link has written the other.

This loses nothing, because the thread that has not yet said hello has not taken its snapshot
either: the mailbox is announced a second time (`Soon`). After the hello, an announcement is on
its way behind it until the other router has a route (`OnWay`). So once nothing is under way,
every neighbour of the home has a route to it: `learned`.
-/

set_option autoImplicit false

namespace CoreRaT.Spec

open CoreRaT.Lib

/-- The thread is about to announce `id` to the peers in `connections_`. -/
def Pc.announces (id : MailboxId) : Pc → Prop
  | .peersSnapshot .register i => i = id
  | .broadcast .register i _ => i = id
  | _ => False

namespace RouterThreads

/-- A client's thread announces `id` after it has inserted it into `local_mailboxes_`. -/
theorem announces_step {s : RouterThreads} {e : Event} {k : ConnId} {id : MailboxId}
    (h : ((s.step e).pc k).announces id) :
    (s.pc k).announces id ∨ (e = .tick k ∧ s.pc k = .localInsert id) := by
  have hm := moves s e k
  generalize (s.step e).pc k = q at hm h
  cases hm with
  | stay => exact Or.inl h
  | start b => cases b <;> cases h
  | read f he =>
    unfold readPc at h
    split at h <;> (try split at h) <;> cases h
  | snapshot ids => cases h
  | eof => cases h
  | tick p he hpc =>
    rw [hpc]
    cases p with
    | localInsert i =>
      obtain rfl : i = id := h
      exact Or.inr ⟨he, rfl⟩
    | localErase i => cases h
    | peersSnapshot a i =>
      cases a with
      | register => exact Or.inl h
      | delete => cases h
    | broadcast a i ps =>
      cases ps with
      | nil => cases h
      | cons q ps =>
        cases a with
        | register => exact Or.inl h
        | delete => cases h
    | initReply i hd ok => cases ok <;> cases h
    | advertise ids => cases ids <;> cases h
    | find f =>
      simp only [nextPc] at h
      split at h <;> (try split at h) <;> cases h
    | upstream f =>
      simp only [nextPc] at h
      split at h <;> cases h
    | _ => cases h

end RouterThreads

namespace RouterMesh

variable {ι : Type} [DecidableEq ι]

/-! ### The guard -/

/-- In the state `p`, the event does not lose an announcement of `id`: links are read in order and
do not end, no client deletes `id`, and each router advertises what it registers. -/
def LearnGuard (id : MailboxId) (p : RouterMesh ι) : Event ι → Prop
  | .deliver _ _ n => n = 0
  | .router i (.eof k) => p.link i k = none
  | .router i re =>
    (p.router i).AdvertiseGuard re ∧
      ∀ k f, re = .recv k f → f.header.kind = .mbxDelete → f.mbx ≠ some id
  | _ => True

omit [DecidableEq ι] in
theorem LearnGuard.inOrder {id : MailboxId} {p : RouterMesh ι} {e : Event ι}
    (h : p.LearnGuard id e) : p.InOrder id e := by
  cases e with
  | router i re =>
    cases re with
    | eof k => exact h
    | recv k f => exact h.2 k f rfl
    | _ => trivial
  | deliver i k n => exact h
  | _ => trivial

/-! ### The invariant -/

/-- The router at the other end knows, or will learn from what it has not read, that this end is
in peer mode. -/
def Greeting (p : RouterMesh ι) (i : ι) (k : ConnId) : Prop :=
  (p.router i).pc k = .hello ∨ (∃ f ∈ p.unread i k, f.header.kind = .peerHello) ∨ p.Upgraded i k

/-- The thread of connection `k` still has to send `id`. -/
def Soon (p : RouterMesh ι) (i : ι) (k : ConnId) (id : MailboxId) : Prop :=
  (id ∈ (p.router i).localMailboxes ∧
      ((p.router i).pc k = .hello ∨ (p.router i).pc k = .snapshot)) ∨
    (p.router i).Pending k id

/-- An announcement of `id` is unread behind the hello, or the other router handles it, or it has a
route. -/
def OnWay (p : RouterMesh ι) (i : ι) (k : ConnId) (id : MailboxId) : Prop :=
  (∃ pre post, p.unread i k = pre ++ Announcement.frame .register id :: post ∧
      ((∃ f ∈ pre, f.header.kind = .peerHello) ∨ p.Upgraded i k)) ∨
    ∃ j l, p.link i k = some ⟨j, some l⟩ ∧
      ((p.router j).pc l = .peerAdd id ∨ (p.router j).registry.find id ≠ none)

/-- The invariant behind `learned`. -/
structure Learning (home : MailboxId → ι) (id : MailboxId) (p : RouterMesh ι) : Prop
    extends Kept home id p where
  advertised : ∀ i, (p.router i).Advertised
  announces : ∀ i k, ((p.router i).pc k).announces id → id ∈ (p.router i).localMailboxes
  /-- One end of a link is in peer mode from the start. -/
  ends : ∀ i k x, p.link i k = some x → (p.router i).isPeer k = true ∨ p.Upgraded i k
  greeted : ∀ i k x, p.link i k = some x → (p.router i).isPeer k = true → p.Greeting i k
  told : ∀ k x, p.link (home id) k = some x → (p.router (home id)).Told k id →
    p.Soon (home id) k id ∨ p.OnWay (home id) k id

/-! ### One step -/

section
variable {home : MailboxId → ι} {id : MailboxId} {p q : RouterMesh ι} {e : Event ι} {i : ι}
  {re : RouterThreads.Event}

/-- A thread inside a handler stays at its section until it executes it. -/
theorem Advances.pc_eq_or_tick (ht : Advances id p q e i re) (hp : p.Wf) {j : ι} {k : ConnId}
    {at' : Pc} (hpc : (p.router j).pc k = at') (hloop : at' ≠ .loop) (hsnap : at' ≠ .snapshot) :
    (q.router j).pc k = at' ∨ (j = i ∧ re = .tick k) := by
  subst hpc
  by_cases hj : j = i
  · subst hj
    rw [ht.self]
    exact (RouterThreads.pc_eq_or_tick re ((hp.routers j).lt_of_pc hloop) hloop hsnap).imp_right
      fun hre => ⟨rfl, hre⟩
  · exact Or.inl (by rw [ht.other j hj])

/-- The hello arrives: the other end knows that it is a peer. -/
theorem Advances.upgraded_of_hello (ht : Advances id p q e i re) (hp : p.Wf) {j : ι}
    {k l : ConnId} {f : Frame} (hre : re = .recv l f) (hpc : (p.router i).pc l = .loop)
    (hlink : p.link j k = some ⟨i, some l⟩) (hlt : l < (p.router i).started)
    (hkind : f.header.kind = .peerHello) : q.Upgraded j k := by
  obtain ⟨c, hc, hknown⟩ := ht.link_kept hp hlink
  refine ⟨i, l, by rw [hc, hknown l rfl], ?_⟩
  rw [ht.self, hre]
  cases hpeer : (p.router i).isPeer l with
  | true => exact RouterThreads.isPeer_step hlt hpeer
  | false =>
    simp [RouterThreads.step, hlt, hpc, RouterThreads.dispatch, hkind, hpeer, RouterThreads.goto]

/-- A link thread that is a peer reads an announcement and goes on to add the route. -/
theorem Advances.peerAdd_of_read (ht : Advances id p q e i re) {l : ConnId}
    (hre : re = .recv l (Announcement.frame .register id)) (hpc : (p.router i).pc l = .loop)
    (hlt : l < (p.router i).started) (hpeer : (p.router i).isPeer l = true) :
    (q.router i).pc l = .peerAdd id := by
  rw [ht.self, hre]
  simp [RouterThreads.step, hlt, hpc, RouterThreads.dispatch, hpeer, RouterThreads.goto]

theorem Advances.greeting (ht : Advances id p q e i re) (hp : p.Wf) {j : ι} {k : ConnId}
    {x : FarEnd ι} (hx : p.link j k = some x) (h : p.Greeting j k) : q.Greeting j k := by
  rcases h with hpc | ⟨f, hf, hkind⟩ | hup
  · rcases ht.pc_eq_or_tick hp hpc (by simp) (by simp) with hs | ⟨rfl, hre⟩
    · exact Or.inl hs
    -- The hello is written now.
    · have hunread := ht.unread_of_sends hp hx hre (by rw [hpc]; rfl)
      exact Or.inr (Or.inl ⟨.bare MSG_ROUTER_PEER_HELLO 0 0, by rw [hunread]; simp, rfl⟩)
  · rcases ht.unread_cases hp j k with ⟨new, hgrow⟩ | ⟨l, g, hre, hpc, hlink, hlt, hread⟩
    · exact Or.inr (Or.inl ⟨f, by rw [hgrow]; exact List.mem_append_left _ hf, hkind⟩)
    · rw [hread] at hf
      rcases List.mem_cons.mp hf with rfl | hrest
      · exact Or.inr (Or.inr (ht.upgraded_of_hello hp hre hpc hlink hlt hkind))
      · exact Or.inr (Or.inl ⟨f, hrest, hkind⟩)
  · exact Or.inr (Or.inr (ht.upgraded hp hup))

/-- An announcement that is written after the hello is on its way. -/
theorem Advances.onWay_of_sends (ht : Advances id p q e i re) (hp : p.Wf) {k t : ConnId}
    {x : FarEnd ι} (hx : p.link i k = some x) (hgreet : p.Greeting i k)
    (hhello : (p.router i).pc k ≠ .hello) (hre : re = .tick t)
    (hsends : ((p.router i).pc t).sends t = some (k, Announcement.frame .register id)) :
    q.OnWay i k id := by
  refine Or.inl ⟨p.unread i k, [], ht.unread_of_sends hp hx hre hsends, ?_⟩
  rcases hgreet with hpc | hunread | hup
  · exact absurd hpc hhello
  · exact Or.inl hunread
  · exact Or.inr (ht.upgraded hp hup)

/-- The mailbox stays in `local_mailboxes_`: nobody deletes it. -/
theorem Advances.mem_localMailboxes (ht : Advances id p q e i re) (h : p.Learning home id) {j : ι}
    (hid : id ∈ (p.router j).localMailboxes) : id ∈ (q.router j).localMailboxes := by
  by_cases hj : j = i
  · subst hj
    rw [ht.self]
    rcases RouterThreads.mem_localMailboxes_step (e := re) hid with hkept | ⟨k, -, hpc⟩
    · exact hkept
    · exact absurd (by rw [hpc]; rfl) (h.keeps j k)
  · rwa [ht.other j hj]

/-- A route at a neighbour of the home stays: it leads over a link, and links do not end. -/
theorem Advances.find_kept (ht : Advances id p q e i re) (h : p.Learning home id) {j : ι}
    (hj : j ≠ home id) (hfind : (p.router j).registry.find id ≠ none) :
    (q.router j).registry.find id ≠ none := by
  obtain ⟨c, hc⟩ := Option.ne_none_iff_exists'.mp hfind
  rw [ht.find_stays h.toKept hc fun hji hi => absurd (hji.trans hi) hj]
  simp

theorem Advances.onWay (ht : Advances id p q e i re) (h : p.Learning home id) {k : ConnId}
    (hw : p.OnWay (home id) k id) : q.OnWay (home id) k id := by
  have hp := h.oneHop.wf
  rcases hw with ⟨pre, post, hunread, hgreet⟩ | ⟨j, l, hlink, hroute⟩
  · rcases ht.unread_cases hp (home id) k with ⟨new, hgrow⟩ | ⟨l, f, hre, hpc, hlink, hlt, hread⟩
    · refine Or.inl ⟨pre, post ++ new, by rw [hgrow, hunread]; simp, ?_⟩
      exact hgreet.imp_right fun hup => ht.upgraded hp hup
    · rw [hread] at hunread
      cases pre with
      | nil =>
        -- The announcement is read. Nothing is unread before it, so the reader is a peer.
        obtain ⟨rfl, -⟩ := List.cons.inj hunread
        obtain ⟨j, l', hlink', hpeer⟩ : p.Upgraded (home id) k := by simpa using hgreet
        rw [hlink] at hlink'
        cases hlink'
        obtain ⟨c, hc, hknown⟩ := ht.link_kept hp hlink
        exact Or.inr ⟨i, l, by rw [hc, hknown l rfl],
          Or.inl (ht.peerAdd_of_read hre hpc hlt hpeer)⟩
      | cons g pre =>
        obtain ⟨rfl, hrest⟩ := List.cons.inj hunread
        refine Or.inl ⟨pre, post, hrest, ?_⟩
        rcases hgreet with ⟨a, ha, hkind⟩ | hup
        · rcases List.mem_cons.mp ha with rfl | ha
          · exact Or.inr (ht.upgraded_of_hello hp hre hpc hlink hlt hkind)
          · exact Or.inl ⟨a, ha, hkind⟩
        · exact Or.inr (ht.upgraded hp hup)
  · obtain ⟨c, hc, hknown⟩ := ht.link_kept hp hlink
    refine Or.inr ⟨j, l, by rw [hc, hknown l rfl], ?_⟩
    rcases hroute with hpc | hfind
    · rcases ht.pc_eq_or_tick hp hpc (by simp) (by simp) with hs | ⟨rfl, hre⟩
      · exact Or.inl hs
      -- The route is added, or there is one already.
      · refine Or.inr ?_
        rw [ht.self, hre, RouterThreads.step_tick hpc]
        simp only [RouterThreads.execute, RouterThreads.goto, MailboxRegistry.find_add]
        cases (p.router j).registry.find id <;> simp
    · exact Or.inr (ht.find_kept h (hp.links _ _ _ hlink).2 hfind)

theorem Advances.soon (ht : Advances id p q e i re) (h : p.Learning home id) {k : ConnId}
    {x : FarEnd ι} (hx : p.link (home id) k = some x)
    (hs : p.Soon (home id) k id) : q.Soon (home id) k id ∨ q.OnWay (home id) k id := by
  have hp := h.oneHop.wf
  rcases hs with ⟨hid, hpc | hpc⟩ | ⟨ids, hpc, hmem⟩
  · have hlocal := ht.mem_localMailboxes h hid
    rcases ht.pc_eq_or_tick hp hpc (by simp) (by simp) with hsame | ⟨rfl, hre⟩
    · exact Or.inl (Or.inl ⟨hlocal, Or.inl hsame⟩)
    · exact Or.inl (Or.inl ⟨hlocal, Or.inr (by rw [ht.self, hre]; exact RouterThreads.pc_tick hpc)⟩)
  · have hlocal := ht.mem_localMailboxes h hid
    by_cases hi : home id = i
    · subst hi
      have hlt := (hp.routers (home id)).lt_of_pc (k := k) (by simp [hpc])
      rcases RouterThreads.pc_snapshot_step re hlt hpc with hsame | ⟨ids, -, hperm, hnew⟩
      · exact Or.inl (Or.inl ⟨hlocal, Or.inr (by rw [ht.self]; exact hsame)⟩)
      · exact Or.inl (Or.inr ⟨ids, by rw [ht.self]; exact hnew, hperm.mem_iff.mpr hid⟩)
    · exact Or.inl (Or.inl ⟨hlocal, Or.inr (by rw [ht.other _ hi]; exact hpc)⟩)
  · rcases ht.pc_eq_or_tick hp hpc (by simp) (by simp) with hsame | ⟨rfl, hre⟩
    · exact Or.inl (Or.inr ⟨ids, hsame, hmem⟩)
    · cases ids with
      | nil => cases hmem
      | cons a rest =>
        rcases List.mem_cons.mp hmem with rfl | hrest
        -- `id` is sent now, and the thread has sent its hello before.
        · have hpeer := (hp.peersOnly (home id)).advertisers k (by rw [hpc]; trivial)
          exact Or.inr (ht.onWay_of_sends hp hx (h.greeted _ k x hx hpeer) (by simp [hpc]) hre
            (by rw [hpc]; rfl))
        · refine Or.inl (Or.inr ⟨rest, ?_, hrest⟩)
          rw [ht.self, hre]
          exact RouterThreads.pc_tick hpc

theorem Advances.told (ht : Advances id p q e i re) (h : p.Learning home id) {k : ConnId}
    {x : FarEnd ι} (hx : q.link (home id) k = some x) (htold : (q.router (home id)).Told k id) :
    q.Soon (home id) k id ∨ q.OnWay (home id) k id := by
  have hp := h.oneHop.wf
  -- What has been told before goes on.
  have hkept : ∀ c, p.link (home id) k = some ⟨x.router, c⟩ →
      (p.router (home id)).Told k id → q.Soon (home id) k id ∨ q.OnWay (home id) k id := by
    intro c hold htold
    rcases h.told k _ hold htold with hs | hw
    · exact ht.soon h hold hs
    · exact Or.inr (ht.onWay h hw)
  by_cases hi : home id = i
  · subst hi
    rw [ht.self] at htold
    obtain ⟨w, hw, hframe⟩ := htold
    rcases ht.link_cases hx with ⟨c, hold⟩ | ⟨-, rfl, hacc, ⟨b, rfl⟩, -⟩
    · rw [RouterThreads.out_step (hp.links _ k _ hold).1] at hw
      rcases List.mem_append.mp hw with hw | hw
      · exact hkept c hold ⟨w, hw, hframe⟩
      · obtain ⟨t, hre, hsends⟩ := RouterThreads.mem_writes hw
        rw [hframe] at hsends
        by_cases hhello : (p.router (home id)).pc k = .hello
        · -- The broadcast has overtaken the hello, so the snapshot is still to come.
          rcases RouterThreads.sends_register (hp.routers _) hsends rfl (mbx_announcement _ id) with
            ⟨ids, hpc, rfl⟩ | ⟨ps, hpc⟩
          · rw [hhello] at hpc
            cases hpc
          · have hid := h.announces _ t (by rw [hpc]; rfl)
            exact ht.soon h hold (Or.inl ⟨hid, Or.inl hhello⟩)
        · have hpeer : (p.router (home id)).isPeer k = true := by
            rcases RouterThreads.sends_register (hp.routers _) hsends rfl
              (mbx_announcement _ id) with ⟨ids, hpc, rfl⟩ | ⟨ps, hpc⟩
            · exact (hp.peersOnly _).advertisers k (by rw [hpc]; trivial)
            · exact (hp.peersOnly _).targets t _ id _ hpc k List.mem_cons_self
          exact Or.inr (ht.onWay_of_sends hp hold (h.greeted _ k _ hold hpeer) hhello hre hsends)
    -- Nothing has been written to a connection that has just been made.
    · simp [RouterThreads.step, hacc, RouterThreads.startConnection] at hw
  · rw [ht.other _ hi] at htold
    rcases ht.link_cases hx with ⟨c, hold⟩ | ⟨hji, -⟩
    · exact hkept c hold htold
    · exact absurd hji hi

theorem Advances.announces (ht : Advances id p q e i re) (h : p.Learning home id) {j : ι}
    {k : ConnId} (hpc : ((q.router j).pc k).announces id) :
    id ∈ (q.router j).localMailboxes := by
  by_cases hj : j = i
  · subst hj
    rw [ht.self] at hpc
    rcases RouterThreads.announces_step hpc with hold | ⟨hre, hinsert⟩
    · exact ht.mem_localMailboxes h (h.announces j k hold)
    · rw [ht.self, hre]
      simp [RouterThreads.step_tick hinsert, RouterThreads.execute, RouterThreads.goto]
  · rw [ht.other j hj] at hpc ⊢
    exact h.announces j k hpc

theorem Advances.ends (ht : Advances id p q e i re) (h : p.Learning home id) {j : ι}
    {k : ConnId} {x : FarEnd ι} (hx : q.link j k = some x) :
    (q.router j).isPeer k = true ∨ q.Upgraded j k := by
  have hp := h.oneHop.wf
  rcases ht.link_cases hx with ⟨c, hold⟩ | ⟨rfl, rfl, hacc, -, -⟩
  · exact (h.ends j k _ hold).imp (ht.isPeer hp) (ht.upgraded hp)
  · rcases ht.links with hsame | ⟨j', -, rfl, -, -⟩ | ⟨j', k', hj', rfl, -, hlink, hnew⟩
    · -- The links are as before, so this is none.
      rw [hsame] at hx
      exact absurd (hp.links j _ x hx).1 (Nat.lt_irrefl _)
    -- The opening end is in peer mode from its first step.
    · refine Or.inl ?_
      rw [ht.self]
      simp [RouterThreads.step, hacc, RouterThreads.startConnection]
    · -- The accepting end: the other one has opened the link.
      refine Or.inr ⟨j', k', ?_, ?_⟩
      · rw [hnew, link_setLink, link_setLink, if_neg (fun hc => hj' hc.1.symm), if_pos ⟨rfl, rfl⟩]
      · rcases h.ends j' k' _ hlink with hpeer | ⟨m, l, hfar, -⟩
        · exact ht.isPeer hp hpeer
        · rw [hlink] at hfar
          cases hfar

theorem Advances.greeted (ht : Advances id p q e i re) (h : p.Learning home id) {j : ι}
    {k : ConnId} (hpeer : (q.router j).isPeer k = true) : q.Greeting j k := by
  have hp := h.oneHop.wf
  have hcases : (p.router j).isPeer k = true ∨ (q.router j).pc k = .hello := by
    by_cases hj : j = i
    · subst hj
      rw [ht.self] at hpeer ⊢
      exact (RouterThreads.isPeer_of_isPeer_step hpeer).imp_right fun hnew => hnew.1
    · rw [ht.other j hj] at hpeer
      exact Or.inl hpeer
  rcases hcases with hold | hpc
  · obtain ⟨y, hy⟩ := hp.peers j k hold
    exact ht.greeting hp hy (h.greeted j k y hy hold)
  -- A new peer begins with its hello.
  · exact Or.inl hpc

/-- Each router advertises what it registers. -/
theorem Advances.guard (ht : Advances id p q e i re) (hguard : p.LearnGuard id e) :
    (p.router i).AdvertiseGuard re := by
  cases ht.acts with
  | router =>
    cases re with
    | eof k => trivial
    | _ => exact hguard.1
  | _ => trivial

theorem Advances.learning (ht : Advances id p q e i re) (h : p.Learning home id)
    (hguard : p.LearnGuard id e) (he : HomeEvent home e) : q.Learning home id where
  toKept := ht.kept h.toKept he
  advertised j := by
    by_cases hj : j = i
    · subst hj
      rw [ht.self]
      exact (RouterThreads.advertised_step _ re ⟨h.oneHop.wf.routers j, h.advertised j⟩
        (ht.guard hguard)).2
    · rw [ht.other j hj]
      exact h.advertised j
  announces _ _ := ht.announces h
  ends _ _ _ := ht.ends h
  greeted _ _ _ _ := ht.greeted h
  told _ _ := ht.told h

end

theorem learning_step (home : MailboxId → ι) (id : MailboxId) (p : RouterMesh ι) (e : Event ι)
    (h : p.Learning home id) (he : p.LearnGuard id e ∧ HomeEvent home e) :
    (p.step e).Learning home id := by
  rcases advances_cases h.oneHop.wf he.1.inOrder with ⟨hs, -⟩ | ⟨i, re, ht⟩
  · rw [hs]
    exact h
  · exact ht.learning h he.1 he.2

omit [DecidableEq ι] in
theorem learning_init (home : MailboxId → ι) (id : MailboxId) (up : ι → MailboxId → Bool) :
    (init up).Learning home id where
  toKept := kept_init home id up
  advertised i := (RouterThreads.advertised_init (up i)).2
  announces i k h := by cases h
  ends i k x h := by cases h
  greeted i k x h := by cases h
  told k x h := by cases h

/-! ### Runs -/

/-- Nothing is under way: no thread is inside a handler and no frame is unread. -/
def Settled (p : RouterMesh ι) : Prop :=
  (∀ i, (p.router i).Quiescent) ∧ ∀ i k, p.unread i k = []

omit [DecidableEq ι] in
/-- Whether nothing is under way can be read off the connections that exist. -/
theorem Wf.settled {p : RouterMesh ι} (hp : p.Wf) (hacc : ∀ i, (p.router i).accepting = none)
    (hpc : ∀ i, ∀ k < (p.router i).started,
      ((p.router i).pc k = .loop ∨ (p.router i).pc k = .ended) ∧ p.unread i k = []) :
    p.Settled := by
  constructor
  · intro i
    exact (hp.routers i).quiescent (hacc i) fun k hk => (hpc i k hk).1
  · intro i k
    by_cases hk : k < (p.router i).started
    · exact (hpc i k hk).2
    · by_contra hne
      obtain ⟨f, hf⟩ := List.exists_mem_of_ne_nil _ hne
      obtain ⟨x, hx⟩ := hp.linked i k f hf
      exact hk (hp.links i k x hx).1

omit [DecidableEq ι] in
/-- Where nothing is under way, both ends of an accepted link are in peer mode. -/
theorem Learning.isPeer_of_settled {home : MailboxId → ι} {id : MailboxId} {p : RouterMesh ι}
    (h : p.Learning home id) (hsettled : p.Settled) {i j : ι} {k l : ConnId}
    (hlink : p.link i k = some ⟨j, some l⟩) : (p.router i).isPeer k = true := by
  rcases h.ends i k _ hlink with hpeer | ⟨j', l', hfar, hpeer⟩
  · exact hpeer
  · rw [hlink] at hfar
    cases hfar
    -- The other end has said hello, and this end has read it.
    have hmate := h.oneHop.wf.mates i k j l hlink
    rcases h.greeted j l _ hmate hpeer with hpc | ⟨f, hf, -⟩ | ⟨i', k', hback, hup⟩
    · exact absurd hpc ((hsettled.1 j).pc_ne l (by simp) (by simp))
    · rw [hsettled.2 j l] at hf
      cases hf
    · rw [hmate] at hback
      cases hback
      exact hup

/-- **Every neighbour learns.** Take a run of any number of routers in which a mailbox is
registered only by clients of its home, and in which no event loses an announcement of `id`. Once
nothing is under way and `id` is registered at its home, each router that has a link with the home
has a route for `id`, and the route is a link to the home. -/
theorem learned (home : MailboxId → ι) (up : ι → MailboxId → Bool) (id : MailboxId)
    (es : List (Event ι)) (hhome : ∀ e ∈ es, HomeEvent home e)
    (hguard : AllSteps step (LearnGuard id) (init up) es)
    (hsettled : (runFrom step (init up) es).Settled)
    (hid : ((runFrom step (init up) es).router (home id)).registry.find id ≠ none)
    {k : ConnId} {j : ι} {l : ConnId}
    (hlink : (runFrom step (init up) es).link (home id) k = some ⟨j, some l⟩) :
    ∃ k' x, ((runFrom step (init up) es).router j).registry.find id = some k' ∧
      (runFrom step (init up) es).link j k' = some x ∧ x.router = home id := by
  have hinv := (allStates_of_allSteps (fun p e => learning_step home id p e)
    (learning_init home id up) (hguard.and_forall hhome)).last
  generalize runFrom step (init up) es = p at *
  have hquiet := hsettled.1
  -- The home has registered `id` for a client, and so has published it.
  have hlocal : id ∈ (p.router (home id)).localMailboxes := by
    obtain ⟨c, hc⟩ := Option.ne_none_iff_exists'.mp hid
    have hclient : (p.router (home id)).isPeer c = false := by
      cases hpeer : (p.router (home id)).isPeer c with
      | false => rfl
      | true =>
        obtain ⟨x, hx⟩ := hinv.oneHop.wf.peers _ c hpeer
        have hback := (hinv.oneHop.routes _ c id hc x hx).1
        exact absurd hback.symm (hinv.oneHop.wf.links _ c x hx).2
    rcases (hinv.advertised (home id)).published id c hc hclient with hmem | ⟨hd, hpc⟩ | hpc
    · exact hmem
    all_goals exact absurd hpc ((hquiet _).pc_ne c (by simp) (by simp))
  have htold : (p.router (home id)).Told k id := by
    rcases (hinv.advertised (home id)).announced id k hlocal
      (hinv.isPeer_of_settled hsettled hlink) with (hpc | hpc | ⟨ids, hpc, -⟩ | htold) |
      ⟨c, hpc | ⟨ps, hpc, -⟩⟩
    · exact absurd hpc ((hquiet _).pc_ne k (by simp) (by simp))
    · exact absurd hpc ((hquiet _).pc_ne k (by simp) (by simp))
    · exact absurd hpc ((hquiet _).pc_ne k (by simp) (by simp))
    · exact htold
    · exact absurd hpc ((hquiet _).pc_ne c (by simp) (by simp))
    · exact absurd hpc ((hquiet _).pc_ne c (by simp) (by simp))
  have hroute : (p.router j).registry.find id ≠ none := by
    rcases hinv.told k _ hlink htold with (⟨-, hpc | hpc⟩ | ⟨ids, hpc, -⟩) |
      ⟨pre, post, hunread, -⟩ | ⟨j', l', hfar, hpc | hfind⟩
    · exact absurd hpc ((hquiet _).pc_ne k (by simp) (by simp))
    · exact absurd hpc ((hquiet _).pc_ne k (by simp) (by simp))
    · exact absurd hpc ((hquiet _).pc_ne k (by simp) (by simp))
    · rw [hsettled.2] at hunread
      cases pre <;> cases hunread
    · exact absurd hpc ((hquiet _).pc_ne l' (by simp) (by simp))
    · rw [hlink] at hfar
      cases hfar
      exact hfind
  -- The route is a link, because `j` is not the home, and so it leads home.
  obtain ⟨k', hk'⟩ := Option.ne_none_iff_exists'.mp hroute
  have hj : home id ≠ j := (hinv.oneHop.wf.links _ k _ hlink).2.symm
  cases hx : p.link j k' with
  | none => exact absurd (hinv.own j k' hk' hx) hj
  | some x => exact ⟨k', x, hk', hx, ((hinv.oneHop.routes j k' id hk' x hx).1).symm⟩

/-- A client of router `a` registers mailbox 7 while a link to router `b` is being set up, and its
broadcast overtakes the hello. Router `b` drops this announcement and learns from the next one. -/
def overtakenHello {ι : Type} (a b : ι) : List (Event ι) :=
  [.router a (.start false), .router a .insert, .connect a b, .router a .insert,
    .acceptLink b a 1, .router b .insert,
    .router a (.recv 0 (.ofMbx MSG_ROUTER_MBX_INIT_WITH_REPLY 7)),
    .router a (.tick 0), .router a (.tick 0), .router a (.tick 0), .router a (.tick 0),
    .router a (.tick 0), .router a (.tick 0), .deliver b 0 0,
    .router a (.tick 1), .router a (.snapshot 1 [7]), .router a (.tick 1), .router a (.tick 1),
    .deliver b 0 0, .router b (.tick 0), .router b (.snapshot 0 []), .router b (.tick 0),
    .deliver b 0 0, .router b (.tick 0), .deliver a 1 0]

theorem learnGuard_overtakenHello :
    AllSteps step (LearnGuard 7) (init fun _ => fun _ => false) (overtakenHello (0 : Fin 2) 1) := by
  refine ⟨?_, ?_, trivial, ?_, trivial, ?_, ?_, ?_, ?_, ?_, ?_, ?_, ?_, rfl, ?_, ?_, ?_, ?_, rfl,
    ?_, ?_, ?_, rfl, ?_, rfl, trivial⟩
  all_goals refine ⟨?_, by rintro k f ⟨⟩ <;> decide⟩
  case refine_9 =>
    -- The snapshot of the peers: the link is in `connections_`.
    intro p hpeer hmiss
    rcases p with _ | _ | p
    · cases hpeer
    · exact absurd (by decide) hmiss
    · cases hpeer
  all_goals trivial

/-- Router 1 has a route to mailbox 7, over its link. -/
theorem learned_overtakenHello :
    ∃ k' x, ((runFrom step (init fun _ => fun _ => false) (overtakenHello (0 : Fin 2) 1)).router
        1).registry.find 7 = some k' ∧
      (runFrom step (init fun _ => fun _ => false) (overtakenHello (0 : Fin 2) 1)).link 1 k' =
        some x ∧
      x.router = 0 := by
  have hinv := (allStates_of_allSteps (learning_step (fun _ => 0) 7)
    (learning_init (fun _ : MailboxId => (0 : Fin 2)) 7 fun _ _ => false)
    (learnGuard_overtakenHello.and_forall (by decide +kernel))).last
  exact learned (fun _ => 0) (fun _ _ => false) 7 (overtakenHello 0 1) (by decide +kernel)
    learnGuard_overtakenHello (hinv.oneHop.wf.settled (by decide +kernel) (by decide +kernel))
    (by decide +kernel) (k := 1) (l := 0) (by decide +kernel)

end RouterMesh

end CoreRaT.Spec
