import CoreRaT.Proofs.Mesh.Steps
import CoreRaT.Proofs.Threads.Routing

/-!
# `CoreRaT.Proofs.Mesh.OneHop`: a data frame crosses at most one link

Routers tell their peers about the mailboxes of their own clients, and about no others. So if the
clients of one router alone register a mailbox, its *home*, then every route to a link leads to
the home, and the home itself has no route to a link. A frame that arrives over a link has
arrived at the home of its destination and is not passed on to another link: `one_hop`.

The theorem is about any number of routers joined by any links, also in cycles and with several
links between two routers. Clients come and go, links are set up at any time and may end, and
frames are read in any order.

That a mailbox has one home is a condition on the clients and not something that the routers
enforce. Two routers accept registrations of the same mailbox, and then a frame can go back and
forth between them (`RouterPair.forwarding_loop`).
-/

set_option autoImplicit false

namespace CoreRaT.Spec.RouterMesh

open CoreRaT.Lib

variable {ι : Type}

/-- The connection at the other end of the link is in peer mode. -/
def Upgraded (p : RouterMesh ι) (i : ι) (k : ConnId) : Prop :=
  ∃ j l, p.link i k = some ⟨j, some l⟩ ∧ (p.router j).isPeer l = true

/-- If the connection is a link, then it leads to the home of `id`, and the router there knows
that it is a peer. -/
def Leads (home : MailboxId → ι) (p : RouterMesh ι) (i : ι) (k : ConnId) (id : MailboxId) : Prop :=
  ∀ x, p.link i k = some x → home id = x.router ∧ p.Upgraded i k

/-- The event is not the registration of a mailbox at a router that is not its home. -/
def HomeEvent (home : MailboxId → ι) : Event ι → Prop
  | .router i (.recv _ f) => f.header.kind = .mbxInit → ∀ id ∈ f.mbx, home id = i
  | _ => True

instance [DecidableEq ι] (home : MailboxId → ι) : DecidablePred (HomeEvent home)
  | .router i (.recv _ f) =>
    -- One mailbox at most is looked at, not every id.
    haveI : Decidable (∀ id ∈ f.mbx, home id = i) := Option.decidableForallMem f.mbx
    inferInstanceAs (Decidable (f.header.kind = .mbxInit → ∀ id ∈ f.mbx, home id = i))
  | .router _ (.start _) => isTrue trivial
  | .router _ .insert => isTrue trivial
  | .router _ (.tick _) => isTrue trivial
  | .router _ (.snapshot _ _) => isTrue trivial
  | .router _ (.eof _) => isTrue trivial
  | .connect _ _ => isTrue trivial
  | .acceptLink _ _ _ => isTrue trivial
  | .deliver _ _ _ => isTrue trivial

/-- The invariant behind `one_hop`. A router registers and announces the mailboxes it is the home
of, routes lead home, and a link carries data only to the home of its destination. -/
structure OneHop (home : MailboxId → ι) (p : RouterMesh ι) : Prop where
  wf : p.Wf
  inits : ∀ i k id hd, (p.router i).pc k = .initAdd id hd → home id = i
  publishes : ∀ i id, (p.router i).Publishing id → home id = i
  registers : ∀ i k, ∀ f ∈ p.unread i k, f.header.kind = .peerRegister →
    (∀ id, f.mbx = some id → home id = i) ∧ (p.router i).isPeer k = true
  peerAdds : ∀ i k id, (p.router i).pc k = .peerAdd id → p.Leads home i k id
  routes : ∀ i k id, (p.router i).registry.find id = some k → p.Leads home i k id
  finds : ∀ i k f, (p.router i).pc k = .find f → ∀ x, p.link i k = some x →
    home f.header.dest = i ∧ (p.router i).isPeer k = true
  forwards : ∀ i t d f, (p.router i).pc t = .forward d f → d < (p.router i).started ∧
    p.Leads home i d f.header.dest ∧ ∀ x, p.link i d = some x → p.link i t = none
  data : ∀ i k, ∀ f ∈ p.unread i k, f.header.kind = .data → p.Leads home i k f.header.dest
  /-- A link thread answers nothing with an error. -/
  silent : ∀ i k x, p.link i k = some x →
    (∀ f, (p.router i).pc k ≠ .upstream f) ∧ ∀ hd, (p.router i).pc k ≠ .replyError hd
  written : ∀ i k x, p.link i k = some x → ∀ w ∈ (p.router i).out k, w.frame.header.kind = .data →
    home w.frame.header.dest = x.router ∧ w.writer < (p.router i).started ∧
      p.link i w.writer = none

/-! ### One step -/

/-- The data that a step writes to a link is forwarded for a client. -/
theorem OneHop.sent_data {home : MailboxId → ι} {p : RouterMesh ι} (h : p.OneHop home) {j : ι}
    {k : ConnId} {x : FarEnd ι} (hx : p.link j k = some x) {t : ConnId} {f : Frame}
    (hsends : ((p.router j).pc t).sends t = some (k, f)) (hkind : f.header.kind = .data) :
    p.Leads home j k f.header.dest ∧ t < (p.router j).started ∧ p.link j t = none := by
  rcases Pc.sends_data hsends hkind with hpc | ⟨rfl, ⟨id, hd, ok, hpc⟩ | ⟨hd, hpc⟩⟩
  · obtain ⟨-, hleads, hclient⟩ := h.forwards j t k f hpc
    exact ⟨hleads, (h.wf.routers j).lt_of_pc (by simp [hpc]), hclient x hx⟩
  · exact absurd (by rw [hpc]; rfl) (h.wf.control j k x id hx)
  · exact absurd hpc ((h.silent j k x hx).2 hd)

section
variable [DecidableEq ι] {home : MailboxId → ι} {p q : RouterMesh ι} {e : Event ι} {i : ι}
  {re : RouterThreads.Event}

theorem Takes.pc_cases (ht : Takes p q e i re) {j : ι} {k : ConnId} {at' : Pc}
    (h : (q.router j).pc k = at') :
    (p.router j).pc k = at' ∨ (j = i ∧ (p.router j).Entry re k at') := by
  by_cases hj : j = i
  · subst hj
    rw [ht.self] at h
    exact (RouterThreads.entered h).imp_right fun hentry => ⟨rfl, hentry⟩
  · rw [ht.other j hj] at h
    exact Or.inl h

theorem Takes.isPeer (ht : Takes p q e i re) (hp : p.Wf) {j : ι} {k : ConnId}
    (h : (p.router j).isPeer k = true) : (q.router j).isPeer k = true := by
  by_cases hj : j = i
  · subst hj
    rw [ht.self]
    exact RouterThreads.isPeer_step ((hp.routers j).peers k h) h
  · rwa [ht.other j hj]

theorem Takes.started_le (ht : Takes p q e i re) (j : ι) :
    (p.router j).started ≤ (q.router j).started := by
  by_cases hj : j = i
  · subst hj
    rw [ht.self]
    exact RouterThreads.started_le_step _ re
  · exact Nat.le_of_eq (by rw [ht.other j hj])

/-- A connection that existed is a link only if it was one. -/
theorem Takes.link_of_lt (ht : Takes p q e i re) {j : ι} {k : ConnId} {x : FarEnd ι}
    (hk : k < (p.router j).started) (hx : q.link j k = some x) :
    ∃ c, p.link j k = some ⟨x.router, c⟩ := by
  rcases ht.link_cases hx with hold | ⟨rfl, rfl, -⟩
  · exact hold
  · exact absurd hk (Nat.lt_irrefl _)

/-- The thread of a link that has just been made has read nothing yet. -/
theorem Takes.link_of_pc (ht : Takes p q e i re) {j : ι} {k : ConnId} {x : FarEnd ι} {at' : Pc}
    (hx : q.link j k = some x) (hpc : (q.router j).pc k = at') (hloop : at' ≠ .loop)
    (hhello : at' ≠ .hello) : ∃ c, p.link j k = some ⟨x.router, c⟩ := by
  rcases ht.link_cases hx with hold | ⟨rfl, rfl, hacc, ⟨b, rfl⟩, -⟩
  · exact hold
  · rw [ht.self] at hpc
    simp only [RouterThreads.step, hacc, RouterThreads.startConnection,
      Function.update_self] at hpc
    cases b
    · exact absurd hpc.symm hloop
    · exact absurd hpc.symm hhello

theorem Takes.upgraded (ht : Takes p q e i re) (hp : p.Wf) {j : ι} {k : ConnId}
    (h : p.Upgraded j k) : q.Upgraded j k := by
  obtain ⟨m, l, hlink, hpeer⟩ := h
  obtain ⟨c, hc, hknown⟩ := ht.link_kept hp hlink
  exact ⟨m, l, by rw [hc, hknown l rfl], ht.isPeer hp hpeer⟩

theorem Takes.leads (ht : Takes p q e i re) (hp : p.Wf) {j : ι} {k : ConnId} {id : MailboxId}
    (hk : k < (p.router j).started) (h : p.Leads home j k id) : q.Leads home j k id := by
  intro x hx
  obtain ⟨c, hold⟩ := ht.link_of_lt hk hx
  obtain ⟨hhome, hup⟩ := h _ hold
  exact ⟨hhome, ht.upgraded hp hup⟩

/-- The link thread of `i` reads a frame that the router at the other end has written. -/
theorem Takes.read_of_link (ht : Takes p q e i re) (hp : p.Wf) {k : ConnId} {x : FarEnd ι}
    (hx : p.link i k = some x) {f : Frame} (hre : re = .recv k f) :
    ∃ l, x.con = some l ∧ f ∈ p.unread x.router l ∧ p.link x.router l = some ⟨i, some k⟩ := by
  rcases ht.reads k f hre with ⟨j, l, hlink, hf⟩ | ⟨hnone, -⟩
  · obtain rfl := Option.some.inj (hlink.symm.trans hx)
    exact ⟨l, rfl, hf, hp.mates i k j l hlink⟩
  · rw [hx] at hnone
    cases hnone

theorem Takes.inits (ht : Takes p q e i re) (h : p.OneHop home) (he : HomeEvent home e) {j : ι}
    {k : ConnId} {id : MailboxId} {hd : FrameHeader}
    (hpc : (q.router j).pc k = .initAdd id hd) : home id = j := by
  rcases ht.pc_cases hpc with hold | ⟨rfl, f, hre, hkind, hid⟩
  · exact h.inits j k id hd hold
  · -- A registration is a client frame: none is unread on a link.
    rcases ht.reads k f hre with ⟨m, l, -, hf⟩ | ⟨-, -, hown⟩
    · exact absurd hkind (h.wf.unread m l f hf).1
    · rw [hown, hre] at he
      exact he hkind id hid

theorem Takes.publishes (ht : Takes p q e i re) (h : p.OneHop home) {j : ι} {id : MailboxId}
    (hpub : (q.router j).Publishing id) : home id = j := by
  by_cases hj : j = i
  · subst hj
    rw [ht.self] at hpub
    rcases RouterThreads.publishing_step hpub with hold | ⟨k, hd, -, hpc, -⟩
    · exact h.publishes j id hold
    · exact h.inits j k id hd hpc
  · rw [ht.other j hj] at hpub
    exact h.publishes j id hpub

theorem Takes.registers (ht : Takes p q e i re) (h : p.OneHop home) {j : ι} {k : ConnId}
    {f : Frame} (hf : f ∈ q.unread j k) (hkind : f.header.kind = .peerRegister) :
    (∀ id, f.mbx = some id → home id = j) ∧ (q.router j).isPeer k = true := by
  rcases ht.unread j k f hf with hold | ⟨rfl, ⟨x, hx⟩, hnew⟩
  · obtain ⟨hhome, hpeer⟩ := h.registers j k f hold hkind
    exact ⟨hhome, ht.isPeer h.wf hpeer⟩
  · obtain ⟨t, -, hsends⟩ := h.wf.sent hx hnew
    -- Whoever announces a mailbox publishes it, and announces to peers.
    have hfrom : ∀ id, f.mbx = some id →
        (p.router j).Publishing id ∧ (p.router j).isPeer k = true := by
      intro id hid
      rcases RouterThreads.sends_register (h.wf.routers j) hsends hkind hid with
        ⟨ids, hpc, rfl⟩ | ⟨ps, hpc⟩
      · exact ⟨Or.inr ⟨k, Or.inr ⟨_, hpc, List.mem_cons_self⟩⟩,
          (h.wf.peersOnly j).advertisers k (by rw [hpc]; trivial)⟩
      · exact ⟨Or.inr ⟨t, Or.inl (by rw [hpc]; rfl)⟩,
          (h.wf.peersOnly j).targets t _ id _ hpc k List.mem_cons_self⟩
    obtain ⟨id, hid⟩ : ∃ id, f.mbx = some id := by
      rcases Pc.sends_cases hsends with ⟨-, hk⟩ | ⟨id, ids, -, -, rfl⟩ | ⟨a, id, ps, -, rfl⟩ |
        hk | hk
      · rw [hkind] at hk
        cases hk
      · exact ⟨id, mbx_announcement _ id⟩
      · exact ⟨id, mbx_announcement _ id⟩
      · rw [hkind] at hk
        cases hk
      · rw [(h.wf.routers j).carried t f hk] at hkind
        cases hkind
    exact ⟨fun id hid => h.publishes j id (hfrom id hid).1, ht.isPeer h.wf (hfrom id hid).2⟩

theorem Takes.peerAdds (ht : Takes p q e i re) (h : p.OneHop home) {j : ι} {k : ConnId}
    {id : MailboxId} (hpc : (q.router j).pc k = .peerAdd id) : q.Leads home j k id := by
  -- The thread stood there, or it has just read the announcement.
  have hcases : (p.router j).pc k = .peerAdd id ∨ (j = i ∧ ∃ f, re = .recv k f ∧
      f.header.kind = .peerRegister ∧ f.mbx = some id ∧ (p.router j).isPeer k = true) := by
    by_cases hj : j = i
    · subst hj
      rw [ht.self] at hpc
      rcases RouterThreads.peerAdd_step hpc with hold | ⟨hpeer, f, hre, hkind, hid⟩
      · exact Or.inl hold
      · exact Or.inr ⟨rfl, f, hre, hkind, hid, hpeer⟩
    · rw [ht.other j hj] at hpc
      exact Or.inl hpc
  rcases hcases with hold | ⟨rfl, f, hre, hkind, hid, hpeer⟩
  · exact ht.leads h.wf ((h.wf.routers j).lt_of_pc (by simp [hold])) (h.peerAdds j k id hold)
  · refine ht.leads h.wf ((h.wf.routers j).peers k hpeer) ?_
    intro x hx
    obtain ⟨l, hl, hf, hmate⟩ := ht.read_of_link h.wf hx hre
    obtain ⟨hhome, hfar⟩ := h.registers x.router l f hf hkind
    exact ⟨hhome id hid, x.router, l, by rw [hx, ← hl], hfar⟩

theorem Takes.routes (ht : Takes p q e i re) (h : p.OneHop home) {j : ι} {k : ConnId}
    {id : MailboxId} (hfind : (q.router j).registry.find id = some k) : q.Leads home j k id := by
  by_cases hj : j = i
  · subst hj
    rw [ht.self] at hfind
    rcases RouterThreads.find_step hfind with hold | ⟨-, -, hpc | ⟨hd, hpc⟩⟩
    · exact ht.leads h.wf ((h.wf.routers j).routes id k hold) (h.routes j k id hold)
    · exact ht.leads h.wf ((h.wf.routers j).lt_of_pc (by simp [hpc])) (h.peerAdds j k id hpc)
    -- A link thread handles no registration of a client.
    · refine ht.leads h.wf ((h.wf.routers j).lt_of_pc (by simp [hpc])) ?_
      intro x hx
      exact absurd (by rw [hpc]; rfl) (h.wf.control j k x id hx)
  · rw [ht.other j hj] at hfind
    exact ht.leads h.wf ((h.wf.routers j).routes id k hfind) (h.routes j k id hfind)

theorem Takes.finds (ht : Takes p q e i re) (h : p.OneHop home) {j : ι} {k : ConnId} {f : Frame}
    (hpc : (q.router j).pc k = .find f) {x : FarEnd ι} (hx : q.link j k = some x) :
    home f.header.dest = j ∧ (q.router j).isPeer k = true := by
  obtain ⟨c, hlink⟩ := ht.link_of_pc hx hpc (by simp) (by simp)
  rcases ht.pc_cases hpc with hold | ⟨rfl, hre, hkind⟩
  · obtain ⟨hhome, hpeer⟩ := h.finds j k f hold _ hlink
    exact ⟨hhome, ht.isPeer h.wf hpeer⟩
  · -- The frame was written to the other end, so it leads here, and this end is in peer mode.
    obtain ⟨l, -, hf, hmate⟩ := ht.read_of_link h.wf hlink hre
    obtain ⟨hhome, m, l', hmate', hpeer⟩ := h.data _ l f hf hkind _ hmate
    rw [hmate] at hmate'
    cases hmate'
    exact ⟨hhome, ht.isPeer h.wf hpeer⟩

theorem Takes.forwards (ht : Takes p q e i re) (h : p.OneHop home) {j : ι} {t d : ConnId}
    {f : Frame} (hpc : (q.router j).pc t = .forward d f) :
    d < (q.router j).started ∧ q.Leads home j d f.header.dest ∧
      ∀ x, q.link j d = some x → q.link j t = none := by
  have hbefore : d < (p.router j).started ∧ p.Leads home j d f.header.dest ∧
      ∀ x, p.link j d = some x → p.link j t = none := by
    rcases ht.pc_cases hpc with hold | ⟨rfl, -, hfind, hroute⟩
    · exact h.forwards j t d f hold
    · refine ⟨(h.wf.routers j).routes _ d hroute, h.routes j d _ hroute, ?_⟩
      intro x hx
      -- A frame from a link is at home here, and the route leads somewhere else.
      cases hlink : p.link j t with
      | none => rfl
      | some y =>
        have hhere := (h.finds j t f hfind y hlink).1
        have hthere := (h.routes j d _ hroute x hx).1
        exact absurd (hthere.symm.trans hhere) (h.wf.links j d x hx).2
  obtain ⟨hd, hleads, hclient⟩ := hbefore
  refine ⟨Nat.lt_of_lt_of_le hd (ht.started_le j), ht.leads h.wf hd hleads, ?_⟩
  intro x hx
  obtain ⟨c, hold⟩ := ht.link_of_lt hd hx
  have hnone := hclient _ hold
  cases hlink : q.link j t with
  | none => rfl
  | some y =>
    obtain ⟨c', hc'⟩ := ht.link_of_pc hlink hpc (by simp) (by simp)
    rw [hnone] at hc'
    cases hc'

theorem Takes.data (ht : Takes p q e i re) (h : p.OneHop home) {j : ι} {k : ConnId} {f : Frame}
    (hf : f ∈ q.unread j k) (hkind : f.header.kind = .data) : q.Leads home j k f.header.dest := by
  rcases ht.unread j k f hf with hold | ⟨rfl, ⟨x, hx⟩, hnew⟩
  · obtain ⟨x, hx⟩ := h.wf.linked j k f hold
    exact ht.leads h.wf (h.wf.links j k x hx).1 (h.data j k f hold hkind)
  · obtain ⟨t, -, hsends⟩ := h.wf.sent hx hnew
    exact ht.leads h.wf (h.wf.links j k x hx).1 (h.sent_data hx hsends hkind).1

theorem Takes.silent (ht : Takes p q e i re) (h : p.OneHop home) {j : ι} {k : ConnId}
    {x : FarEnd ι} (hx : q.link j k = some x) :
    (∀ f, (q.router j).pc k ≠ .upstream f) ∧ ∀ hd, (q.router j).pc k ≠ .replyError hd := by
  constructor
  · intro f hpc
    obtain ⟨c, hlink⟩ := ht.link_of_pc hx hpc (by simp) (by simp)
    rcases ht.pc_cases hpc with hold | ⟨rfl, -, hfind, hpeer⟩
    · exact (h.silent j k _ hlink).1 f hold
    · rw [(h.finds j k f hfind _ hlink).2] at hpeer
      cases hpeer
  · intro hd hpc
    obtain ⟨c, hlink⟩ := ht.link_of_pc hx hpc (by simp) (by simp)
    rcases ht.pc_cases hpc with hold | ⟨rfl, f, -, hup⟩
    · exact (h.silent j k _ hlink).2 hd hold
    · exact (h.silent j k _ hlink).1 f hup

theorem Takes.written (ht : Takes p q e i re) (h : p.OneHop home) {j : ι} {k : ConnId}
    {x : FarEnd ι} (hx : q.link j k = some x) {w : Written} (hw : w ∈ (q.router j).out k)
    (hkind : w.frame.header.kind = .data) :
    home w.frame.header.dest = x.router ∧ w.writer < (q.router j).started ∧
      q.link j w.writer = none := by
  -- What is a client's connection stays one.
  have hclient : w.writer < (p.router j).started → p.link j w.writer = none →
      w.writer < (q.router j).started ∧ q.link j w.writer = none := by
    intro hlt hnone
    refine ⟨Nat.lt_of_lt_of_le hlt (ht.started_le j), ?_⟩
    cases hlink : q.link j w.writer with
    | none => rfl
    | some y =>
      obtain ⟨c, hc⟩ := ht.link_of_lt hlt hlink
      rw [hnone] at hc
      cases hc
  by_cases hj : j = i
  · subst hj
    rw [ht.self] at hw
    rcases ht.link_cases hx with ⟨c, hold⟩ | ⟨-, rfl, hacc, ⟨b, rfl⟩, -⟩
    · rw [RouterThreads.out_step (h.wf.links j k _ hold).1] at hw
      rcases List.mem_append.mp hw with hw | hw
      · obtain ⟨hhome, hlt, hnone⟩ := h.written j k _ hold w hw hkind
        exact ⟨hhome, hclient hlt hnone⟩
      · obtain ⟨t, hre, hsends⟩ := RouterThreads.mem_writes hw
        obtain rfl := RouterThreads.writer_of_mem_writes hw hre
        obtain ⟨hleads, hlt, hnone⟩ := h.sent_data hold hsends hkind
        exact ⟨(hleads _ hold).1, hclient hlt hnone⟩
    -- Nothing has been written to a connection that has just been made.
    · simp [RouterThreads.step, hacc, RouterThreads.startConnection] at hw
  · rw [ht.other j hj] at hw
    rcases ht.link_cases hx with ⟨c, hold⟩ | ⟨hji, -⟩
    · obtain ⟨hhome, hlt, hnone⟩ := h.written j k _ hold w hw hkind
      exact ⟨hhome, hclient hlt hnone⟩
    · exact absurd hji hj

theorem Takes.oneHop (ht : Takes p q e i re) (h : p.OneHop home) (he : HomeEvent home e) :
    q.OneHop home where
  wf := ht.wf h.wf
  inits _ _ _ _ := ht.inits h he
  publishes _ _ := ht.publishes h
  registers _ _ _ := ht.registers h
  peerAdds _ _ _ := ht.peerAdds h
  routes _ _ _ := ht.routes h
  finds _ _ _ hpc _ := ht.finds h hpc
  forwards _ _ _ _ := ht.forwards h
  data _ _ _ := ht.data h
  silent _ _ _ := ht.silent h
  written _ _ _ hx _ := ht.written h hx

end

theorem oneHop_step [DecidableEq ι] {home : MailboxId → ι} (p : RouterMesh ι) (e : Event ι)
    (h : p.OneHop home) (he : HomeEvent home e) : (p.step e).OneHop home := by
  rcases step_cases p e with hs | ⟨i, re, ht⟩
  · rw [hs]
    exact h
  · exact ht.oneHop h he

theorem oneHop_init (home : MailboxId → ι) (up : ι → MailboxId → Bool) :
    (init up).OneHop home where
  wf := wf_init up
  inits i k id hd h := by cases h
  publishes i id h := by
    rcases h with hmem | ⟨k, hpc | ⟨ids, hpc, -⟩⟩
    · cases hmem
    · cases hpc
    · cases hpc
  registers i k f h := by cases h
  peerAdds i k id h := by cases h
  routes i k id h := by cases h
  finds i k f h := by cases h
  forwards i t d f h := by cases h
  data i k f h := by cases h
  silent i k x h := by cases h
  written i k x h := by cases h

/-! ### Runs -/

/-- **One hop.** Take any run of any number of routers in which a mailbox is registered only by
clients of its home. In every state of the run, each data frame that a router has written to a
link comes from the thread of a client, and the link leads to the home of its destination. No
frame that a link thread has read is written to a link. -/
theorem one_hop [DecidableEq ι] (home : MailboxId → ι) (up : ι → MailboxId → Bool)
    (es : List (Event ι)) (hhome : ∀ e ∈ es, HomeEvent home e) :
    AllStates step
      (fun p => ∀ i k x, p.link i k = some x → ∀ w ∈ (p.router i).out k,
        w.frame.header.kind = .data →
          p.link i w.writer = none ∧ home w.frame.header.dest = x.router)
      (init up) es := by
  have hall := allStates_of_allSteps (Q := fun _ e => HomeEvent home e)
    (fun p e h he => oneHop_step p e h he) (oneHop_init home up) (allSteps_of_forall hhome)
  refine hall.mono ?_
  intro p h i k x hx w hw hkind
  obtain ⟨hhere, -, hclient⟩ := h.written i k x hx w hw hkind
  exact ⟨hclient, hhere⟩

/-- Data for mailbox 7 from mailbox 9. -/
def dataForSeven : Frame := ⟨makeFrame 0 7 9 0 0 1, [4], by decide⟩

/-- Routers 0 and 1 are linked to router 2. A client of router 2 registers mailbox 7, both links
learn it, and a client of router 0 sends a message to mailbox 7. -/
def threeRouters : List (Event (Fin 3)) :=
  [.router 2 (.start false), .router 2 .insert,
    .router 2 (.recv 0 (.ofMbx MSG_ROUTER_MBX_INIT_WITH_REPLY 7)),
    .router 2 (.tick 0), .router 2 (.tick 0), .router 2 (.tick 0), .router 2 (.tick 0),
    .router 2 (.tick 0),
    .connect 0 2, .router 0 .insert, .router 0 (.tick 0), .router 0 (.snapshot 0 []),
    .router 0 (.tick 0),
    .acceptLink 2 0 0, .router 2 .insert, .deliver 2 1 0, .router 2 (.tick 1),
    .router 2 (.snapshot 1 [7]), .router 2 (.tick 1), .router 2 (.tick 1),
    .deliver 0 0 0, .deliver 0 0 0, .router 0 (.tick 0),
    .connect 2 1, .router 2 .insert, .router 2 (.tick 2), .router 2 (.snapshot 2 [7]),
    .router 2 (.tick 2), .router 2 (.tick 2),
    .acceptLink 1 2 2, .router 1 .insert, .deliver 1 0 0, .router 1 (.tick 0),
    .router 1 (.snapshot 0 []), .router 1 (.tick 0), .deliver 1 0 0, .router 1 (.tick 0),
    .router 0 (.start false), .router 0 .insert, .router 0 (.recv 1 dataForSeven),
    .router 0 (.tick 1), .router 0 (.tick 1),
    .deliver 2 1 0, .router 2 (.tick 1), .router 2 (.tick 1)]

/-- The message crosses the link from router 0 to router 2 and reaches the client there. -/
theorem one_hop_threeRouters :
    AllStates step
      (fun p => ∀ i k x, p.link i k = some x → ∀ w ∈ (p.router i).out k,
        w.frame.header.kind = .data →
          p.link i w.writer = none ∧
            (fun _ => 2 : MailboxId → Fin 3) w.frame.header.dest = x.router)
      (init fun _ _ => false) threeRouters ∧
    (∃ w ∈ ((runFrom step (init fun _ _ => false) threeRouters).router 0).out 0,
      w.frame = dataForSeven) ∧
    (∃ w ∈ ((runFrom step (init fun _ _ => false) threeRouters).router 2).out 0,
      w.frame = dataForSeven) ∧
    ((runFrom step (init fun _ _ => false) threeRouters).router 1).registry.find 7 = some 0 :=
  ⟨one_hop (fun _ => 2) _ _ (by decide +kernel), by decide +kernel, by decide +kernel,
    by decide +kernel⟩

end CoreRaT.Spec.RouterMesh
