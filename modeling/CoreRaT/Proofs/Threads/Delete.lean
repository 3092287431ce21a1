import CoreRaT.Proofs.Threads.Publish

/-!
# `CoreRaT.Proofs.Threads.Delete`: one router on the way of a delete

The side of a delete that happens inside the deleting router. The owner's thread removes the
route, erases the mailbox from `local_mailboxes_` and broadcasts `MSG_ROUTER_PEER_DELETE`
(`Deleting`). Meanwhile a peer thread may still have the mailbox in its snapshot (`Pending`).

`Owned` is the invariant of a router in which each mailbox has one client that registers and
deletes it. `DeleteGuard` is what can go wrong: the broadcast of a delete misses a peer that
has heard of the mailbox, or it writes to a peer whose thread is still going to announce the
mailbox. A delete that meets the guard goes on until it has been written to the peer
(`deleting_step`).
-/

set_option autoImplicit false

namespace CoreRaT.Spec

open CoreRaT.Lib

/-- The thread is inside `advertise_as_peer`. -/
def Pc.advertises : Pc → Prop
  | .hello => True
  | .snapshot => True
  | .advertise _ => True
  | _ => False

namespace RouterThreads

/-! ### Announcements go to peers -/

/-- Only connections in peer mode advertise, are broadcast to, and have been told. -/
structure PeersOnly (s : RouterThreads) : Prop where
  advertisers : ∀ p, (s.pc p).advertises → s.isPeer p = true
  targets : ∀ k a id ps, s.pc k = .broadcast a id ps → ∀ p ∈ ps, s.isPeer p = true
  told : ∀ p id, p < s.started → s.Told p id → s.isPeer p = true

theorem peersOnly_init (up : MailboxId → Bool) : (init up).PeersOnly where
  advertisers p h := by cases h
  targets k a id ps h := by cases h
  told p id h := by cases h

theorem advertisers_step {s : RouterThreads} (hwf : s.Wf) (h : s.PeersOnly) (e : Event)
    (p : ConnId) (hp : ((s.step e).pc p).advertises) : (s.step e).isPeer p = true := by
  have hkept : (s.pc p).advertises → (s.step e).isPeer p = true := fun hold =>
    isPeer_step (hwf.peers p (h.advertisers p hold)) (h.advertisers p hold)
  have hm := moves s e p
  generalize hq : (s.step e).pc p = q at hm hp
  cases hm with
  | stay => exact hkept hp
  | start b he hk hacc =>
    cases b with
    | true => simp [he, hk, step, hacc, startConnection]
    | false => cases hp
  | read f he hk hpc =>
    -- `MSG_ROUTER_PEER_HELLO` on a connection that was no peer: the flag is set with the move.
    have hhello : readPc (s.isPeer p) f = .hello ∧ f.header.kind = .peerHello ∧
        s.isPeer p = false := by
      unfold readPc at hp ⊢
      split at hp <;> (try split at hp) <;> simp_all [Pc.advertises]
    simp [he, step, hk, hpc, dispatch, hhello, goto]
  | tick r he hpc =>
    refine hkept ?_
    rw [hpc]
    unfold nextPc at hp
    split at hp <;> (try split at hp) <;> (try split at hp) <;> trivial
  | snapshot ids he hpc => exact hkept (by rw [hpc]; trivial)
  | eof => cases hp

theorem targets_step {s : RouterThreads} (hwf : s.Wf) (h : s.PeersOnly) (e : Event)
    (k : ConnId) (a : Announcement) (id : MailboxId) (ps : List ConnId)
    (hpc : (s.step e).pc k = .broadcast a id ps) (p : ConnId) (hp : p ∈ ps) :
    (s.step e).isPeer p = true := by
  have hkept : s.isPeer p = true → (s.step e).isPeer p = true := fun hold =>
    isPeer_step (hwf.peers p hold) hold
  refine hkept ?_
  have hm := moves s e k
  generalize (s.step e).pc k = q at hm hpc
  cases hm with
  | stay => exact h.targets k a id ps hpc p hp
  | start b => cases b <;> cases hpc
  | read f he =>
    unfold readPc at hpc
    split at hpc <;> (try split at hpc) <;> cases hpc
  | snapshot ids => cases hpc
  | eof => cases hpc
  | tick r he hr =>
    unfold nextPc at hpc
    split at hpc <;> (try split at hpc) <;> (try split at hpc) <;> cases hpc
    -- The snapshot takes the connections in peer mode, and the broadcast works its list off.
    · exact (List.mem_filter.mp hp).2
    · exact h.targets k a id _ hr p (List.mem_cons_of_mem _ hp)

theorem told_step_peer {s : RouterThreads} (hwf : s.Wf) (h : s.PeersOnly) (e : Event)
    (p : ConnId) (id : MailboxId) (hp : p < (s.step e).started) (htold : (s.step e).Told p id) :
    (s.step e).isPeer p = true := by
  have hkept : s.isPeer p = true → (s.step e).isPeer p = true := fun hold =>
    isPeer_step (hwf.peers p hold) hold
  obtain ⟨w, hw, hframe⟩ := htold
  by_cases hlt : p < s.started
  · rw [out_step hlt] at hw
    rcases List.mem_append.mp hw with hold | hnew
    · exact hkept (h.told p id hlt ⟨w, hold, hframe⟩)
    · obtain ⟨k, -, hsends⟩ := mem_writes hnew
      rcases sends_register hwf hsends (by rw [hframe]; rfl)
        (by rw [hframe]; exact mbx_announcement _ id) with ⟨ids, hpc, rfl⟩ | ⟨ps, hpc⟩
      · exact hkept (h.advertisers p (by rw [hpc]; trivial))
      · exact hkept (h.targets k _ id _ hpc p List.mem_cons_self)
  · -- Nothing has been written yet to a connection that the step creates.
    rcases started_step s e with hsame | ⟨hacc, b, rfl, hnew⟩
    · rw [hsame] at hp
      exact absurd hp hlt
    · obtain rfl : p = s.started := by
        rw [hnew] at hp
        exact Nat.le_antisymm (Nat.le_of_lt_succ hp) (Nat.le_of_not_lt hlt)
      simp [step, hacc, startConnection] at hw

theorem peersOnly_step {s : RouterThreads} (hwf : s.Wf) (h : s.PeersOnly) (e : Event) :
    (s.step e).PeersOnly :=
  ⟨advertisers_step hwf h e, targets_step hwf h e, told_step_peer hwf h e⟩

/-! ### One client for each mailbox -/

section
variable (owner : MailboxId → ConnId)

/-- The event is possible where `owner id` is the only client that registers and deletes `id`,
no connection ends, and no peer sends `MSG_ROUTER_PEER_DELETE`. -/
def OwnerEvent : Event → Prop
  | .recv k f =>
    f.header.kind ≠ .peerDelete ∧
      (f.header.kind = .mbxInit ∨ f.header.kind = .mbxDelete →
        ∀ id, f.mbx = some id → k = owner id)
  | .eof _ => False
  | _ => True

/-- The invariant of such a router. -/
structure Owned (s : RouterThreads) : Prop where
  handles : ∀ k id, (s.pc k).handles id → k = owner id
  registered : ∀ k id, (s.pc k).registers id → s.registry.find id = some (owner id)
  published : ∀ id, id ∈ s.localMailboxes →
    s.registry.find id = some (owner id) ∨ s.pc (owner id) = .localErase id
  noPeerRemove : ∀ k id, s.pc k ≠ .peerRemove id

/-- The owner's thread is on its way to write `MSG_ROUTER_PEER_DELETE` for `id` to `p`. -/
def Deleting (s : RouterThreads) (p : ConnId) (id : MailboxId) : Prop :=
  s.pc (owner id) = .localErase id ∨ s.pc (owner id) = .peersSnapshot .delete id ∨
    ∃ ps, s.pc (owner id) = .broadcast .delete id ps ∧ p ∈ ps

end

/-- In the state `s`, the event does not let an announcement outlive a delete:

* the broadcast of a delete misses only peers that have not heard of the mailbox and are not
  about to;
* when the delete is written to a peer, the thread of this peer does not still have the
  mailbox in its snapshot. -/
def DeleteGuard (s : RouterThreads) : Event → Prop
  | .tick k =>
    match s.pc k with
    | .peersSnapshot .delete id =>
      ∀ p, s.isPeer p = true → p ∉ s.connections → ¬ s.Told p id ∧ ¬ s.Pending p id
    | .broadcast .delete id (p :: _) => ¬ s.Pending p id
    | _ => True
  | _ => True

variable {owner : MailboxId → ConnId}

theorem owned_init (up : MailboxId → Bool) : (init up).Owned owner where
  handles k id h := by cases h
  registered k id h := by cases h
  published id h := by cases h
  noPeerRemove k id h := by cases h

/-- A route to the owner stays until the owner's thread removes it. -/
theorem route_owned_step {s : RouterThreads} (h : s.Owned owner) {e : Event}
    (he : OwnerEvent owner e) {id : MailboxId} (hfind : s.registry.find id = some (owner id)) :
    (s.step e).registry.find id = some (owner id) ∨
      (e = .tick (owner id) ∧ s.pc (owner id) = .deleteRemove id) := by
  rcases find_kept_or (e := e) hfind with hkept | ⟨k, rfl, hpc | hpc⟩ | rfl
  · exact Or.inl hkept
  · obtain rfl := h.handles k id (by rw [hpc]; rfl)
    exact Or.inr ⟨rfl, hpc⟩
  · exact absurd hpc (h.noPeerRemove k id)
  -- No connection ends in these runs.
  · cases he

theorem handles_owned_step {s : RouterThreads} (h : s.Owned owner) {e : Event}
    (he : OwnerEvent owner e) (k : ConnId) (id : MailboxId)
    (hk : ((s.step e).pc k).handles id) : k = owner id := by
  rcases handles_step hk with hold | ⟨f, rfl, hkind, hid⟩
  · exact h.handles k id hold
  · exact he.2 hkind id hid

theorem registered_owned_step {s : RouterThreads} (h : s.Owned owner) {e : Event}
    (he : OwnerEvent owner e) (k : ConnId) (id : MailboxId)
    (hk : ((s.step e).pc k).registers id) :
    (s.step e).registry.find id = some (owner id) := by
  rcases registers_step hk with hold | ⟨hd, rfl, hpc, hfree⟩
  · rcases route_owned_step h he (h.registered k id hold) with hkept | ⟨-, hpc⟩
    · exact hkept
    -- The owner's thread is registering the mailbox, so it is not deleting it.
    · obtain rfl := h.handles k id hold.handles
      rw [hpc] at hold
      cases hold
  · obtain rfl := h.handles k id (by rw [hpc]; rfl)
    rw [step_tick hpc]
    simp [execute, goto, MailboxRegistry.find_add, hfree]

theorem published_owned_step {s : RouterThreads} (hwf : s.Wf) (h : s.Owned owner) {e : Event}
    (he : OwnerEvent owner e) (id : MailboxId) (hid : id ∈ (s.step e).localMailboxes) :
    (s.step e).registry.find id = some (owner id) ∨
      (s.step e).pc (owner id) = .localErase id := by
  -- A route to the owner is left alone, or the owner goes on to the erase.
  have hroute : s.registry.find id = some (owner id) →
      (s.step e).registry.find id = some (owner id) ∨
        (s.step e).pc (owner id) = .localErase id := by
    intro hfind
    rcases route_owned_step h he hfind with hkept | ⟨rfl, hpc⟩
    · exact Or.inl hkept
    · exact Or.inr (pc_tick hpc)
  rcases mem_of_mem_localMailboxes_step hid with hold | ⟨k, -, hpc⟩
  · rcases h.published id hold with hfind | hpc
    · exact hroute hfind
    · have hlt : owner id < s.started := hwf.lt_of_pc (by simp [hpc])
      rcases pc_eq_or_tick e hlt (by simp [hpc]) (by simp [hpc]) with hs | rfl
      · exact Or.inr (hs.trans hpc)
      -- The erase takes `id` out of the set.
      · simp [step_tick hpc, execute, goto] at hid
  · exact hroute (h.registered k id (by rw [hpc]; rfl))

/-- A thread removes a peer route after it has read `MSG_ROUTER_PEER_DELETE`. -/
theorem peerRemove_step {s : RouterThreads} {e : Event} {k : ConnId} {id : MailboxId}
    (h : (s.step e).pc k = .peerRemove id) :
    s.pc k = .peerRemove id ∨ ∃ f, e = .recv k f ∧ f.header.kind = .peerDelete := by
  have hm := moves s e k
  generalize (s.step e).pc k = q at hm h
  cases hm with
  | stay => exact Or.inl h
  | start b => cases b <;> cases h
  | read f he =>
    unfold readPc at h
    split at h <;> (try split at h) <;> cases h
    rename_i hkind _ _
    exact Or.inr ⟨f, he, hkind⟩
  | tick p he hpc =>
    unfold nextPc at h
    split at h <;> (try split at h) <;> (try split at h) <;> cases h
  | snapshot ids => cases h
  | eof => cases h

theorem owned_step {s : RouterThreads} (hwf : s.Wf) (h : s.Owned owner) {e : Event}
    (he : OwnerEvent owner e) : (s.step e).Owned owner where
  handles := handles_owned_step h he
  registered := registered_owned_step h he
  published := published_owned_step hwf h he
  noPeerRemove k id hk := by
    rcases peerRemove_step hk with hold | ⟨f, rfl, hkind⟩
    · exact h.noPeerRemove k id hold
    · exact he.1 hkind

/-! ### The way of a delete -/

/-- A delete that meets the guard goes on until it has been written to a peer that has heard
of the mailbox. -/
theorem deleting_step {s : RouterThreads} (hwf : s.Wf) {e : Event} (hguard : s.DeleteGuard e)
    {p : ConnId} {id : MailboxId} (hpeer : s.isPeer p = true)
    (hheard : s.Told p id ∨ s.Pending p id) (h : s.Deleting owner p id) :
    (s.step e).Deleting owner p id ∨
      ∃ ps, e = .tick (owner id) ∧ s.pc (owner id) = .broadcast .delete id (p :: ps) := by
  rcases h with hpc | hpc | ⟨ps, hpc, hmem⟩
  all_goals have hlt : owner id < s.started := hwf.lt_of_pc (by simp [hpc])
  all_goals rcases pc_eq_or_tick e hlt (by simp [hpc]) (by simp [hpc]) with hs | rfl
  · exact Or.inl (Or.inl (hs.trans hpc))
  · exact Or.inl (Or.inr (Or.inl (pc_tick hpc)))
  · exact Or.inl (Or.inr (Or.inl (hs.trans hpc)))
  -- The snapshot of the peers: by the guard it does not miss a peer that has heard of `id`.
  · simp only [DeleteGuard, hpc] at hguard
    have hlisted : p ∈ s.connections := by
      by_contra hmiss
      exact hheard.elim (hguard p hpeer hmiss).1 (hguard p hpeer hmiss).2
    exact Or.inl (Or.inr (Or.inr ⟨_, pc_tick hpc, List.mem_filter.mpr ⟨hlisted, hpeer⟩⟩))
  · exact Or.inl (Or.inr (Or.inr ⟨ps, hs.trans hpc, hmem⟩))
  · cases ps with
    | nil => cases hmem
    | cons q ps =>
      -- The delete is written to `p` now, or `p` is further down the list.
      by_cases hq : q = p
      · exact Or.inr ⟨ps, rfl, hq ▸ hpc⟩
      · have hrest : p ∈ ps := (List.mem_cons.mp hmem).resolve_left (Ne.symm hq)
        exact Or.inl (Or.inr (Or.inr ⟨ps, pc_tick hpc, hrest⟩))

end RouterThreads

end CoreRaT.Spec
