import CoreRaT.Proofs.Pair.Loop
import CoreRaT.Proofs.Threads.Delete

/-!
# `CoreRaT.Proofs.Pair.Delete`: a deleted mailbox leaves no route at the peer

Clients of side `a` register and delete mailboxes, each mailbox one client, and side `b`
learns of it over the link, which is first in, first out. `WillRoute p id` is what side `b`
will route to the link when it has handled all that is in flight: the table and the link
thread of side `b`, and then the announcements in flight in their order.

`advertise_as_peer` sends its snapshot outside of any lock. So the thread of the link can send
`MSG_ROUTER_PEER_REGISTER` for a mailbox after the owner's thread has sent
`MSG_ROUTER_PEER_DELETE` for it, and side `b` keeps the route: `route_left_after_delete`.
`DeleteGuard` excludes this order (`Proofs/Threads/Delete.lean`). Under the guard a mailbox
that side `b` will route to the link is registered at side `a`, or its delete is still on its
way to the link. Once all is settled the delete has arrived: `no_route_after_delete`.
-/

set_option autoImplicit false

namespace CoreRaT.Spec.RouterPair

open CoreRaT.Lib
open RouterThreads (Owned OwnerEvent)

/-! ### What the peer will route -/

/-- What a frame in flight makes of "`id` routes to the link". -/
def after (id : MailboxId) (now : Prop) (f : Frame) : Prop :=
  (f.header.kind = .peerRegister ∧ f.mbx = some id) ∨
    (now ∧ ¬ (f.header.kind = .peerDelete ∧ f.mbx = some id))

/-- Side `b` routes `id` to the link, when its link thread has finished the frame at hand. -/
def Arriving (p : RouterPair) (id : MailboxId) : Prop :=
  ∃ l, p.link .b = some l ∧
    ((p.router .b).pc l = .peerAdd id ∨
      ((p.router .b).registry.find id = some l ∧ (p.router .b).pc l ≠ .peerRemove id))

/-- Side `b` will route `id` to the link when it has handled all frames in flight. -/
def WillRoute (p : RouterPair) (id : MailboxId) : Prop :=
  (p.inflight .b).foldl (after id) (p.Arriving id)

theorem foldl_after_mono {id : MailboxId} {now now' : Prop} (h : now → now') (fs : List Frame) :
    fs.foldl (after id) now → fs.foldl (after id) now' := by
  induction fs generalizing now now' with
  | nil => exact h
  | cons f fs ih => exact ih (Or.imp_right (And.imp_left h))

theorem foldl_after_cases {id : MailboxId} {now : Prop} {fs : List Frame}
    (h : fs.foldl (after id) now) :
    now ∨ ∃ f ∈ fs, f.header.kind = .peerRegister ∧ f.mbx = some id := by
  induction fs generalizing now with
  | nil => exact Or.inl h
  | cons f fs ih =>
    rcases ih h with (hf | ⟨hnow, -⟩) | ⟨g, hg, hreg⟩
    · exact Or.inr ⟨f, List.mem_cons_self, hf⟩
    · exact Or.inl hnow
    · exact Or.inr ⟨g, List.mem_cons_of_mem f hg, hreg⟩

/-! ### The runs in question -/

section
variable (owner : MailboxId → ConnId)

/-- Each mailbox is registered and deleted by one client of side `a`, and by no client of side
`b`; no connection ends; the link is first in, first out. -/
def OneOwner : Event → Prop
  | .router .a (.recv k f) =>
    f.header.kind = .mbxInit ∨ f.header.kind = .mbxDelete → ∀ id, f.mbx = some id → k = owner id
  | .router .b (.recv _ f) => f.header.kind ≠ .mbxInit ∧ f.header.kind ≠ .mbxDelete
  | .router _ (.eof _) => False
  | .deliver _ i => i = 0
  | _ => True

/-- In the state `p`, the event does not let an announcement of side `a` outlive a delete. -/
def DeleteGuard (p : RouterPair) : Event → Prop
  | .router .a e => (p.router .a).DeleteGuard e
  | _ => True

/-- The invariant. Side `b` has no mailboxes of its own. A mailbox that side `b` will route to
the link, or that the link thread of side `a` is still going to announce, is registered at
side `a` or being deleted there. -/
structure Followed (p : RouterPair) : Prop where
  wf : p.Wf
  peersOnly : (p.router .a).PeersOnly
  owned : (p.router .a).Owned owner
  silent : ∀ k id, ¬ ((p.router .b).pc k).handles id
  noOrigin : ∀ id, ¬ p.Originates .b id
  inbound : ∀ id, ¬ p.RoutesToPeer .a id
  noDelete : ∀ f ∈ p.inflight .a, f.header.kind ≠ .peerDelete
  peerRoutes : ∀ l id, p.link .b = some l → (p.router .b).registry.find id = some l →
    (p.router .b).isPeer l = true
  told : ∀ id, p.WillRoute id → ∃ l, p.link .a = some l ∧ (p.router .a).Told l id
  live : ∀ id l, p.link .a = some l → p.WillRoute id ∨ (p.router .a).Pending l id →
    (p.router .a).registry.find id = some (owner id) ∨ (p.router .a).Deleting owner l id

end

variable {owner : MailboxId → ConnId} {p q : RouterPair} {e : Event}
  {re : RouterThreads.Event}

/-! ### A step of side `b` -/

/-- When the link thread of side `b` reads the first frame in flight, what will be routed stays
the same or shrinks. -/
theorem arriving_deliver (h : p.Followed owner) {l : ConnId} {f : Frame}
    (ht : Takes p q e .b (.recv l f)) (hl : p.link .b = some l)
    (hpc : (p.router .b).pc l = .loop) {id : MailboxId} (harr : q.Arriving id) :
    after id (p.Arriving id) f := by
  obtain ⟨l', hl', harr⟩ := harr
  obtain rfl : l = l' := Option.some.inj ((ht.link_kept hl).symm.trans hl')
  rw [ht.self] at harr
  rcases harr with hadd | ⟨hfind, hremove⟩
  · rcases RouterThreads.peerAdd_step hadd with hold | ⟨-, g, hre, hreg⟩
    · rw [hpc] at hold
      cases hold
    · cases hre
      exact Or.inl hreg
  · rcases RouterThreads.find_step hfind with hold | ⟨hre, -⟩
    · refine Or.inr ⟨⟨l, hl, Or.inr ⟨hold, by simp [hpc]⟩⟩, ?_⟩
      -- The link is in peer mode, so it goes on to remove what a delete names.
      rintro ⟨hkind, hid⟩
      have hpeer := h.peerRoutes l id hl hold
      have hlt := h.wf.links .b l hl
      refine hremove ?_
      simp [RouterThreads.step, hlt, hpc, RouterThreads.dispatch, hkind, hid, hpeer,
        RouterThreads.goto]
    · cases hre

/-- Any other step of side `b` makes it route no new mailbox to the link. -/
theorem arriving_other (h : p.Followed owner) (ht : Takes p q e .b re)
    (hre : ∀ l f, re = .recv l f → p.link .b ≠ some l) {id : MailboxId}
    (harr : q.Arriving id) : p.Arriving id := by
  obtain ⟨l, hl, harr⟩ := harr
  rw [ht.self] at harr
  rcases ht.link_cases hl with hlink | ⟨-, rfl, -, b, rfl⟩
  · refine ⟨l, hlink, ?_⟩
    rcases harr with hadd | ⟨hfind, hremove⟩
    · rcases RouterThreads.peerAdd_step hadd with hold | ⟨-, g, hrecv, -⟩
      · exact Or.inl hold
      · exact absurd hlink (hre l g hrecv)
    · rcases RouterThreads.find_step hfind with hold | ⟨-, -, hadd | ⟨hd, hadd⟩⟩
      · refine Or.inr ⟨hold, ?_⟩
        intro hpc
        rcases RouterThreads.pc_eq_or_tick re (h.wf.links .b l hlink) (by simp [hpc])
          (by simp [hpc]) with hs | rfl
        · exact hremove (hs.trans hpc)
        -- The removal has been made, so the route is gone.
        · simp [RouterThreads.step_tick hpc, RouterThreads.execute, RouterThreads.goto,
            MailboxRegistry.find_remove] at hfind
      · exact Or.inl hadd
      · exact absurd (by rw [hadd]; rfl) (h.silent l id)
  · -- A connection that has just been made has no routes.
    have hfresh := (h.wf.routers .b).fresh _ (Nat.le_refl _)
    rcases harr with hadd | ⟨hfind, -⟩
    · rcases RouterThreads.peerAdd_step hadd with hold | ⟨-, g, hrecv, -⟩
      · rw [hfresh] at hold
        cases hold
      · cases hrecv
    · rcases RouterThreads.find_step hfind with hold | ⟨hrecv, -⟩
      · exact absurd ((h.wf.routers .b).routes id _ hold) (Nat.lt_irrefl _)
      · cases hrecv

/-- A step of side `b` adds nothing to what it will route to the link. -/
theorem willRoute_b (h : p.Followed owner) (hdom : OneOwner owner e) (ht : Takes p q e .b re)
    {id : MailboxId} (hwill : q.WillRoute id) : p.WillRoute id := by
  rcases ht.reads with ⟨hsame, hclient⟩ | ⟨i, l, f, rfl, rfl, hl, hpc, hf, herase⟩
  · rw [WillRoute, hsame] at hwill
    refine foldl_after_mono (arriving_other h ht ?_) _ hwill
    intro l f hre
    exact (hclient l f hre).1
  -- First in, first out: the frame that is read is the first one in flight.
  · obtain rfl : i = 0 := hdom
    rw [WillRoute, herase] at hwill
    unfold WillRoute
    cases hin : p.inflight .b with
    | nil => simp [hin] at hf
    | cons g rest =>
      rw [hin] at hf hwill
      obtain rfl : g = f := by simpa using hf
      exact foldl_after_mono (arriving_deliver h ht hl hpc) rest hwill

theorem followed_b (h : p.Followed owner) (hdom : OneOwner owner e) (ht : Takes p q e .b re)
    (hwf : q.Wf) : q.Followed owner := by
  have ha : q.router .a = p.router .a := ht.other
  have hlink : q.link .a = p.link .a := ht.linkOther
  have hsilent : ∀ k id, ¬ ((q.router .b).pc k).handles id := by
    intro k id hk
    rw [ht.self] at hk
    rcases RouterThreads.handles_step hk with hold | ⟨f, hre, hkind, -⟩
    · exact h.silent k id hold
    · rcases ht.recv_cases hre with ⟨-, hf⟩ | ⟨rfl, -⟩
      · have hclient := h.wf.inflight .b f hf
        exact hkind.elim hclient.1 hclient.2
      · exact hkind.elim hdom.1 hdom.2
  refine ⟨hwf, ha ▸ h.peersOnly, ha ▸ h.owned, hsilent, ?_, ?_, ?_, ?_, ?_, ?_⟩
  · intro id horig
    -- Side `b` has no registrations of its own.
    rcases ht.originates_self h.wf horig with hold | ⟨k, hd, -, hpc, -⟩
    · exact h.noOrigin id hold
    · exact h.silent k id (by rw [hpc]; rfl)
  · intro id hroute
    exact h.inbound id (ht.routesToPeer_other.mp hroute)
  · intro f hf
    have hsends : q.inflight .a = p.inflight .a ++ p.sent .b re := ht.sends
    rw [hsends] at hf
    rcases List.mem_append.mp hf with hold | hnew
    · exact h.noDelete f hold
    · intro hkind
      obtain ⟨l, k, -, -, hsends⟩ := h.wf.sent hnew
      obtain ⟨id, ps, hpc⟩ := RouterThreads.sends_delete (h.wf.routers .b) hsends hkind
      exact h.silent k id (by rw [hpc]; rfl)
  · intro l id hl hfind
    rw [ht.self]
    have hpeer : (p.router .b).isPeer l = true := by
      rcases ht.routesToPeer_self h.wf ⟨l, hl, hfind⟩ with ⟨l', hl', hold⟩ | ⟨l', hl', -, hpc⟩
      · obtain rfl : l' = l := Option.some.inj ((ht.link_kept hl').symm.trans hl)
        exact h.peerRoutes l' id hl' hold
      · obtain rfl : l' = l := Option.some.inj ((ht.link_kept hl').symm.trans hl)
        exact (h.wf.routers .b).peerAdds l' id hpc
    exact RouterThreads.isPeer_step ((h.wf.routers .b).peers l hpeer) hpeer
  · intro id hwill
    rw [ha, hlink]
    exact h.told id (willRoute_b h hdom ht hwill)
  · intro id l hl hlive
    rw [hlink] at hl
    rw [ha] at hlive ⊢
    exact h.live id l hl (hlive.imp_left (willRoute_b h hdom ht))

/-! ### A step of side `a` -/

theorem ownerEvent_a (h : p.Followed owner) (hdom : OneOwner owner e) (ht : Takes p q e .a re) :
    OwnerEvent owner re := by
  cases re with
  | recv k f =>
    rcases ht.recv_cases rfl with ⟨-, hf⟩ | ⟨rfl, hclient⟩
    · have hkinds := h.wf.inflight .a f hf
      exact ⟨h.noDelete f hf, fun hkind => hkind.elim (absurd · hkinds.1) (absurd · hkinds.2)⟩
    · refine ⟨?_, hdom⟩
      intro hkind
      rw [hkind] at hclient
      cases hclient
  | eof k =>
    rcases ht.own with rfl | ⟨b, hre⟩ | ⟨l, f, hre, -⟩
    · exact hdom
    · cases hre
    · cases hre
  | _ => trivial

theorem deleteGuard_a (hguard : p.DeleteGuard e) (ht : Takes p q e .a re) :
    (p.router .a).DeleteGuard re := by
  rcases ht.own with rfl | ⟨b, rfl⟩ | ⟨l, f, rfl, -⟩
  · exact hguard
  · trivial
  · trivial

/-- What side `b` will route after a step of side `a`: what it would have routed, or a mailbox
that the step has announced. The second comes from the snapshot of the link thread or from the
owner's broadcast. -/
theorem willRoute_a (h : p.Followed owner) (ht : Takes p q e .a re) {id : MailboxId}
    (hwill : q.WillRoute id) :
    p.WillRoute id ∨
      ∃ l k, p.link .a = some l ∧ re = .tick k ∧
        ((p.router .a).pc k).sends k = some (l, Announcement.frame .register id) ∧
        ((p.router .a).Pending l id ∨ ((p.router .a).pc k).registers id) := by
  have hsends : q.inflight .b = p.inflight .b ++ p.sent .a re := ht.sends
  have hb : q.router .b = p.router .b := ht.other
  have hlink : q.link .b = p.link .b := ht.linkOther
  rw [WillRoute, hsends, List.foldl_append, Arriving, hlink, hb] at hwill
  -- The step adds to the end of what is in flight. A mailbox that was not to be routed before it is
  -- announced by one of these frames.
  rcases foldl_after_cases hwill with hold | ⟨f, hf, hkind, hid⟩
  · exact Or.inl hold
  · obtain ⟨l, k, hl, hre, hsends⟩ := h.wf.sent hf
    refine Or.inr ⟨l, k, hl, hre, ?_⟩
    rcases RouterThreads.sends_register (h.wf.routers .a) hsends hkind hid with
      ⟨ids, hpc, rfl⟩ | ⟨ps, hpc⟩
    · exact ⟨by simp [hpc, Pc.sends], Or.inl ⟨id :: ids, hpc, List.mem_cons_self⟩⟩
    · exact ⟨by simp [hpc, Pc.sends], Or.inr (by rw [hpc]; rfl)⟩

/-- A step that writes a delete to the link ends what side `b` will route. -/
theorem not_willRoute_of_delete (h : p.Followed owner) (ht : Takes p q e .a re) {l k : ConnId}
    {id : MailboxId} {ps : List ConnId} (hl : p.link .a = some l) (hre : re = .tick k)
    (hpc : (p.router .a).pc k = .broadcast .delete id (l :: ps)) : ¬ q.WillRoute id := by
  have hsends : q.inflight .b = p.inflight .b ++ p.sent .a re := ht.sends
  have hsent : p.sent .a re = [Announcement.frame .delete id] := by
    rw [h.wf.sent_eq re hl, hre]
    simp [RouterThreads.writes, hpc, Pc.sends]
  rw [WillRoute, hsends, hsent, List.foldl_append]
  -- The delete is the last frame in flight.
  rintro (⟨hkind, -⟩ | ⟨-, hnot⟩)
  · cases hkind
  · exact hnot ⟨rfl, mbx_announcement _ id⟩

theorem told_a (h : p.Followed owner) (ht : Takes p q e .a re) (id : MailboxId)
    (hwill : q.WillRoute id) : ∃ l, q.link .a = some l ∧ (q.router .a).Told l id := by
  rw [ht.self]
  rcases willRoute_a h ht hwill with hold | ⟨l, k, hl, rfl, hsends, -⟩
  · obtain ⟨l, hl, htold⟩ := h.told id hold
    exact ⟨l, ht.link_kept hl, RouterThreads.told_step re (h.wf.links .a l hl) htold⟩
  · exact ⟨l, ht.link_kept hl, RouterThreads.told_of_sends (h.wf.links .a l hl) hsends⟩

/-- Before the step, the mailbox was registered, or its delete was about to begin, or its delete
was on its way to a link that has heard of it. -/
theorem live_before (h : p.Followed owner) (ht : Takes p q e .a re) {id : MailboxId}
    {l : ConnId} (hl : q.link .a = some l)
    (hlive : q.WillRoute id ∨ (q.router .a).Pending l id) :
    p.link .a = some l ∧
      ((p.router .a).registry.find id = some (owner id) ∨
        (p.router .a).pc (owner id) = .localErase id ∨
        ((p.router .a).Deleting owner l id ∧
          ((p.router .a).Told l id ∨ (p.router .a).Pending l id))) := by
  have hwas : ∀ l', p.link .a = some l' → l' = l := fun l' hl' =>
    Option.some.inj ((ht.link_kept hl').symm.trans hl)
  rcases hlive with hwill | hpend
  · rcases willRoute_a h ht hwill with hold | ⟨l', k, hl', -, -, hpend | hreg⟩
    · obtain ⟨l', hl', htold⟩ := h.told id hold
      obtain rfl := hwas l' hl'
      refine ⟨hl', ?_⟩
      rcases h.live id l' hl' (Or.inl hold) with hfind | hdel
      · exact Or.inl hfind
      · exact Or.inr (Or.inr ⟨hdel, Or.inl htold⟩)
    · obtain rfl := hwas l' hl'
      refine ⟨hl', ?_⟩
      rcases h.live id l' hl' (Or.inr hpend) with hfind | hdel
      · exact Or.inl hfind
      · exact Or.inr (Or.inr ⟨hdel, Or.inr hpend⟩)
    · obtain rfl := hwas l' hl'
      exact ⟨hl', Or.inl (h.owned.registered k id hreg)⟩
  · rw [ht.self] at hpend
    rcases ht.link_cases hl with hl' | ⟨-, rfl, -, b, rfl⟩
    · refine ⟨hl', ?_⟩
      rcases RouterThreads.pending_step hpend with hold | ⟨hmem, -⟩
      · rcases h.live id l hl' (Or.inr hold) with hfind | hdel
        · exact Or.inl hfind
        · exact Or.inr (Or.inr ⟨hdel, Or.inr hold⟩)
      · exact (h.owned.published id hmem).imp_right Or.inl
    · -- The thread of a new connection has no snapshot yet.
      rcases RouterThreads.pending_step hpend with ⟨ids, hpc, -⟩ | ⟨-, ids, hre⟩
      · rw [(h.wf.routers .a).fresh _ (Nat.le_refl _)] at hpc
        cases hpc
      · cases hre

theorem live_a (h : p.Followed owner) (hdom : OneOwner owner e) (hguard : p.DeleteGuard e)
    (ht : Takes p q e .a re) (id : MailboxId) (l : ConnId) (hl : q.link .a = some l)
    (hlive : q.WillRoute id ∨ (q.router .a).Pending l id) :
    (q.router .a).registry.find id = some (owner id) ∨ (q.router .a).Deleting owner l id := by
  have hwf := h.wf.routers .a
  obtain ⟨hlink, hbefore⟩ := live_before h ht hl hlive
  rw [ht.self]
  rcases hbefore with hfind | hpc | ⟨hdel, hheard⟩
  -- Registered before the step: it still is, or its delete has begun.
  · rcases RouterThreads.route_owned_step h.owned (ownerEvent_a h hdom ht) hfind with
      hkept | ⟨rfl, hpc⟩
    · exact Or.inl hkept
    · exact Or.inr (Or.inl (RouterThreads.pc_tick hpc))
  · have hlt := hwf.lt_of_pc (k := owner id) (by simp [hpc])
    rcases RouterThreads.pc_eq_or_tick re hlt (by simp [hpc]) (by simp [hpc]) with hs | rfl
    · exact Or.inr (Or.inl (hs.trans hpc))
    · exact Or.inr (Or.inr (Or.inl (RouterThreads.pc_tick hpc)))
  · have hpeer : (p.router .a).isPeer l = true := by
      rcases hheard with htold | ⟨ids, hpc, -⟩
      · exact h.peersOnly.told l id (h.wf.links .a l hlink) htold
      · exact h.peersOnly.advertisers l (by rw [hpc]; trivial)
    have hg := deleteGuard_a hguard ht
    rcases RouterThreads.deleting_step hwf hg hpeer hheard hdel with hgoes | ⟨ps, rfl, hpc⟩
    · exact Or.inr hgoes
    · -- The step writes the delete to the link: nothing is left that is live.
      simp only [RouterThreads.DeleteGuard, hpc] at hg
      rcases hlive with hwill | hpend
      · exact absurd hwill (not_willRoute_of_delete h ht hlink rfl hpc)
      · rw [ht.self] at hpend
        rcases RouterThreads.pending_step hpend with hold | ⟨-, ids, hre⟩
        · exact absurd hold hg
        · cases hre

theorem followed_a (h : p.Followed owner) (hdom : OneOwner owner e) (hguard : p.DeleteGuard e)
    (ht : Takes p q e .a re) (hwf : q.Wf) : q.Followed owner := by
  have hb : q.router .b = p.router .b := ht.other
  have hlink : q.link .b = p.link .b := ht.linkOther
  refine ⟨hwf, ?_, ?_, hb ▸ h.silent, ?_, ?_, ?_, ?_, told_a h ht,
    live_a h hdom hguard ht⟩
  · rw [ht.self]
    exact RouterThreads.peersOnly_step (h.wf.routers .a) h.peersOnly re
  · rw [ht.self]
    exact RouterThreads.owned_step (h.wf.routers .a) h.owned (ownerEvent_a h hdom ht)
  · exact fun id horig => h.noOrigin id (ht.originates_other h.wf horig)
  · intro id hroute
    rcases ht.routesToPeer_self h.wf hroute with hold | ⟨l, hl, -, hpc⟩
    · exact h.inbound id hold
    · exact h.noOrigin id (originates_of_peerAdd hl hpc)
  · exact fun f hf => h.noDelete f (ht.mem_inflight hf)
  · intro l id
    rw [hlink, hb]
    exact h.peerRoutes l id

/-! ### Runs -/

theorem followed_init (up : Side → MailboxId → Bool) : (init up).Followed owner where
  wf := wf_init up
  peersOnly := RouterThreads.peersOnly_init _
  owned := RouterThreads.owned_init _
  silent k id h := by cases h
  noOrigin id := by
    rintro ((hmem | ⟨k, hpc | ⟨ids, hpc, -⟩⟩) | ⟨f, hf, -⟩ | ⟨l, hl, -⟩)
    · cases hmem
    · cases hpc
    · cases hpc
    · cases hf
    · cases hl
  inbound id h := by
    obtain ⟨l, hl, -⟩ := h
    cases hl
  noDelete f h := by cases h
  peerRoutes l id h := by cases h
  told id h := by
    obtain ⟨l, hl, -⟩ := h
    cases hl
  live id l h := by cases h

theorem followed_step (p : RouterPair) (e : Event) (h : p.Followed owner)
    (he : p.DeleteGuard e ∧ OneOwner owner e) : (p.step e).Followed owner := by
  rcases step_cases p e with hs | ⟨s, re, ht⟩
  · rw [hs]
    exact h
  · cases s with
    | a => exact followed_a h he.2 he.1 ht (wf_step p e h.wf)
    | b => exact followed_b h he.2 ht (wf_step p e h.wf)

/-- **Deletes win.** Two routers, one link, each mailbox registered and deleted by one client of
side `a` only, no disconnects. Take any run that meets the guard and has settled. A mailbox
that side `b` routes to the link is registered at side `a`, by its client. -/
theorem no_route_after_delete (up : Side → MailboxId → Bool) (owner : MailboxId → ConnId)
    (es : List Event) (hdom : ∀ e ∈ es, OneOwner owner e)
    (hguard : AllSteps step DeleteGuard (init up) es)
    (hsettled : (runFrom step (init up) es).Settled) (id : MailboxId)
    (hroute : (runFrom step (init up) es).RoutesToPeer .b id) :
    ((runFrom step (init up) es).router .a).registry.find id = some (owner id) ∧
      (runFrom step (init up) es).link .a ≠ some (owner id) := by
  have h := (allStates_of_allSteps followed_step (followed_init up : (init up).Followed owner)
    (hguard.and_forall hdom)).last
  generalize runFrom step (init up) es = p at *
  obtain ⟨l, hl, hfind⟩ := hroute
  -- Nothing is in flight, so what side `b` will route is what it routes.
  have hwill : p.WillRoute id := by
    rw [WillRoute, (hsettled .b).2]
    refine ⟨l, hl, Or.inr ⟨hfind, ?_⟩⟩
    intro hpc
    exact absurd hpc ((hsettled .b).1.pc_ne l (by simp) (by simp))
  obtain ⟨l', hl', -⟩ := h.told id hwill
  -- No thread is inside a handler, so no delete is on its way.
  have hregistered : (p.router .a).registry.find id = some (owner id) := by
    rcases h.live id l' hl' (Or.inl hwill) with hreg | hpc | hpc | ⟨ps, hpc, -⟩
    · exact hreg
    all_goals exact absurd hpc ((hsettled .a).1.pc_ne (owner id) (by simp) (by simp))
  exact ⟨hregistered, fun hlink => h.inbound id ⟨owner id, hlink, hregistered⟩⟩

/-- A client of side `a` registers mailbox 7, and side `b` opens the link. The link thread of
side `a` takes its snapshot with 7 in it. Before it sends it, the client deletes 7 and the
delete is written to the link. Then the link thread announces 7. -/
def overtakenRun : List Event :=
  [.router .a (.start false), .router .a .insert,
    .router .a (.recv 0 (.ofMbx MSG_ROUTER_MBX_INIT_WITH_REPLY 7)),
    .router .a (.tick 0), .router .a (.tick 0), .router .a (.tick 0), .router .a (.tick 0),
    .router .a (.tick 0),
    .connect .b, .router .b .insert, .router .b (.tick 0), .router .b (.snapshot 0 []),
    .router .b (.tick 0),
    .acceptLink .a, .router .a .insert, .deliver .a 0, .router .a (.tick 1),
    .router .a (.snapshot 1 [7]),
    .router .a (.recv 0 (.ofMbx MSG_ROUTER_MBX_DELETE 7)),
    .router .a (.tick 0), .router .a (.tick 0), .router .a (.tick 0), .router .a (.tick 0),
    .router .a (.tick 0),
    .router .a (.tick 1), .router .a (.tick 1),
    .deliver .b 0, .deliver .b 0, .router .b (.tick 0), .deliver .b 0, .router .b (.tick 0)]

/-- Everything has settled, mailbox 7 is deleted at side `a`, and side `b` routes it to
side `a`. -/
theorem route_left_after_delete :
    (∀ e ∈ overtakenRun, OneOwner (fun _ => 0) e) ∧
      (runFrom step (init fun _ _ => false) overtakenRun).Settled ∧
      (runFrom step (init fun _ _ => false) overtakenRun).RoutesToPeer .b 7 ∧
      ((runFrom step (init fun _ _ => false) overtakenRun).router .a).registry.find 7 = none := by
  have hwf := wf_run (fun _ _ => false) overtakenRun
  refine ⟨by simp [overtakenRun, OneOwner], fun s => ?_, ⟨0, by decide, by decide⟩, by decide⟩
  cases s with
  | a => exact ⟨(hwf.routers .a).quiescent (by decide) (by decide), by decide⟩
  | b => exact ⟨(hwf.routers .b).quiescent (by decide) (by decide), by decide⟩

/-- A client registers mailboxes 7 and 8 and deletes 8 after the link thread has sent its
snapshot. -/
def orderedRun : List Event :=
  [.router .a (.start false), .router .a .insert,
    .router .a (.recv 0 (.ofMbx MSG_ROUTER_MBX_INIT_WITH_REPLY 7)),
    .router .a (.tick 0), .router .a (.tick 0), .router .a (.tick 0), .router .a (.tick 0),
    .router .a (.tick 0),
    .router .a (.recv 0 (.ofMbx MSG_ROUTER_MBX_INIT_WITH_REPLY 8)),
    .router .a (.tick 0), .router .a (.tick 0), .router .a (.tick 0), .router .a (.tick 0),
    .router .a (.tick 0),
    .connect .b, .router .b .insert, .router .b (.tick 0), .router .b (.snapshot 0 []),
    .router .b (.tick 0),
    .acceptLink .a, .router .a .insert, .deliver .a 0, .router .a (.tick 1),
    .router .a (.snapshot 1 [7, 8]), .router .a (.tick 1), .router .a (.tick 1),
    .router .a (.tick 1),
    .router .a (.recv 0 (.ofMbx MSG_ROUTER_MBX_DELETE 8)),
    .router .a (.tick 0), .router .a (.tick 0), .router .a (.tick 0), .router .a (.tick 0),
    .router .a (.tick 0),
    .deliver .b 0, .deliver .b 0, .router .b (.tick 0), .deliver .b 0, .router .b (.tick 0),
    .deliver .b 0, .router .b (.tick 0)]

/-- Side `b` routes 7, which is registered, and has forgotten 8. -/
theorem route_of_registered :
    ((runFrom step (init fun _ _ => false) orderedRun).router .b).registry.find 8 = none ∧
      ((runFrom step (init fun _ _ => false) orderedRun).router .a).registry.find 7 = some 0 ∧
      (runFrom step (init fun _ _ => false) orderedRun).link .a ≠ some 0 := by
  refine ⟨by decide, no_route_after_delete _ (fun _ => 0) orderedRun
    (by simp [orderedRun, OneOwner]) ?_ ?_ 7 ⟨0, by decide, by decide⟩⟩
  · refine ⟨trivial, trivial, trivial, trivial, trivial, trivial, trivial, trivial, trivial,
      trivial, trivial, trivial, trivial, trivial, trivial, trivial, trivial, trivial, trivial,
      trivial, trivial, trivial, trivial, trivial, trivial, trivial, trivial, trivial, trivial,
      trivial, ?_, ?_, trivial, trivial, trivial, trivial, trivial, trivial, trivial, trivial,
      trivial⟩
    · -- The snapshot of the peers: the link is in `connections_`.
      intro p hpeer hmiss
      match p, hpeer with
      | 1, _ => exact absurd (by decide) hmiss
    · -- The delete is written: the link thread is back in its loop.
      rintro ⟨ids, hpc, -⟩
      cases hpc
  · intro s
    have hwf := wf_run (fun _ _ => false) orderedRun
    cases s with
    | a => exact ⟨(hwf.routers .a).quiescent (by decide) (by decide), by decide⟩
    | b => exact ⟨(hwf.routers .b).quiescent (by decide) (by decide), by decide⟩

end CoreRaT.Spec.RouterPair
