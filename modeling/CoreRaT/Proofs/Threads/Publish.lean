import CoreRaT.Proofs.Threads.Steps

/-!
# `CoreRaT.Proofs.Threads.Publish`: who writes which peer message

`sends_cases` lists the sections that write to a connection and what they write. From it:
`MSG_ROUTER_PEER_REGISTER` for a mailbox comes from a thread that publishes the mailbox
(`sends_register`), `MSG_ROUTER_PEER_DELETE` from the broadcast of a delete (`sends_delete`),
and no thread writes a registration or a delete of the client protocol (`sends_client`).

`Publishing s id` says that the router still holds `id` as a mailbox of its own: in
`local_mailboxes_`, or in a thread that is going to announce it. A router starts to publish a
mailbox only with a successful `add` of a client (`publishing_step`).
-/

set_option autoImplicit false

namespace CoreRaT.Spec

open CoreRaT.Lib

@[simp] theorem kind_register (id : MailboxId) :
    (Announcement.frame .register id).header.kind = .peerRegister := rfl

@[simp] theorem kind_delete (id : MailboxId) :
    (Announcement.frame .delete id).header.kind = .peerDelete := rfl

@[simp] theorem mbx_announcement (a : Announcement) (id : MailboxId) :
    (a.frame id).mbx = some id := by
  cases a <;> exact Frame.mbx_ofMbx _ id

@[simp] theorem kind_initReply (ok : Bool) (h : FrameHeader) :
    (TcpRouter.initReply ok h).header.kind = .data := by
  cases ok <;> rfl

@[simp] theorem kind_errorReply (h : FrameHeader) :
    (TcpRouter.errorReply h).header.kind = .data := rfl

/-- The thread has registered `id` and is on its way to announce it to the peers. -/
def Pc.registers (id : MailboxId) : Pc → Prop
  | .initReply i _ true => i = id
  | .localInsert i => i = id
  | .peersSnapshot .register i => i = id
  | .broadcast .register i _ => i = id
  | _ => False

/-- The thread is inside the registration or the delete of `id`. -/
def Pc.handles (id : MailboxId) : Pc → Prop
  | .initAdd i _ => i = id
  | .initReply i _ _ => i = id
  | .localInsert i => i = id
  | .deleteRemove i => i = id
  | .localErase i => i = id
  | .peersSnapshot _ i => i = id
  | .broadcast _ i _ => i = id
  | _ => False

theorem Pc.registers.handles {id : MailboxId} {p : Pc} (h : p.registers id) : p.handles id := by
  cases p with
  | initReply i hd ok =>
    cases ok with
    | true => exact h
    | false => cases h
  | localInsert i => exact h
  | peersSnapshot a i =>
    cases a with
    | register => exact h
    | delete => cases h
  | broadcast a i ps =>
    cases a with
    | register => exact h
    | delete => cases h
  | _ => cases h

/-- The sections that write, and what they write. -/
theorem Pc.sends_cases {p : Pc} {k d : ConnId} {f : Frame} (h : p.sends k = some (d, f)) :
    (p = .hello ∧ f.header.kind = .peerHello) ∨
      (∃ id ids, p = .advertise (id :: ids) ∧ d = k ∧ f = Announcement.frame .register id) ∨
      (∃ a id ps, p = .broadcast a id (d :: ps) ∧ f = a.frame id) ∨
      f.header.kind = .data ∨ p.carried = some f := by
  cases p with
  | hello =>
    obtain ⟨rfl, rfl⟩ := Prod.mk.inj (Option.some.inj h)
    exact Or.inl ⟨rfl, rfl⟩
  | advertise ids =>
    cases ids with
    | nil => cases h
    | cons id ids =>
      obtain ⟨rfl, rfl⟩ := Prod.mk.inj (Option.some.inj h)
      exact Or.inr (Or.inl ⟨id, ids, rfl, rfl, rfl⟩)
  | initReply id hd ok =>
    obtain ⟨rfl, rfl⟩ := Prod.mk.inj (Option.some.inj h)
    exact Or.inr (Or.inr (Or.inr (Or.inl (kind_initReply ok hd))))
  | broadcast a id ps =>
    cases ps with
    | nil => cases h
    | cons q ps =>
      obtain ⟨rfl, rfl⟩ := Prod.mk.inj (Option.some.inj h)
      exact Or.inr (Or.inr (Or.inl ⟨a, id, ps, rfl, rfl⟩))
  | forward d' g =>
    obtain ⟨rfl, rfl⟩ := Prod.mk.inj (Option.some.inj h)
    exact Or.inr (Or.inr (Or.inr (Or.inr rfl)))
  | replyError hd =>
    obtain ⟨rfl, rfl⟩ := Prod.mk.inj (Option.some.inj h)
    exact Or.inr (Or.inr (Or.inr (Or.inl rfl)))
  | _ => cases h

namespace RouterThreads

/-! ### The origin of a written frame -/

/-- A `MSG_ROUTER_PEER_REGISTER` is the next id of a snapshot, or part of a broadcast. -/
theorem sends_register {s : RouterThreads} (hwf : s.Wf) {k d : ConnId} {f : Frame}
    {id : MailboxId} (h : (s.pc k).sends k = some (d, f))
    (hkind : f.header.kind = .peerRegister) (hid : f.mbx = some id) :
    (∃ ids, s.pc k = .advertise (id :: ids) ∧ d = k) ∨
      ∃ ps, s.pc k = .broadcast .register id (d :: ps) := by
  rcases Pc.sends_cases h with ⟨-, hf⟩ | ⟨i, ids, hpc, hd, rfl⟩ | ⟨a, i, ps, hpc, rfl⟩ | hf | hf
  · rw [hkind] at hf
    cases hf
  · rw [mbx_announcement, Option.some.injEq] at hid
    exact Or.inl ⟨ids, hid ▸ hpc, hd⟩
  · cases a with
    | register =>
      rw [mbx_announcement, Option.some.injEq] at hid
      exact Or.inr ⟨ps, hid ▸ hpc⟩
    | delete => cases hkind
  · rw [hkind] at hf
    cases hf
  -- A frame that is forwarded is data, and no announcement.
  · rw [hwf.carried k f hf] at hkind
    cases hkind

/-- A `MSG_ROUTER_PEER_DELETE` is part of a broadcast. -/
theorem sends_delete {s : RouterThreads} (hwf : s.Wf) {k d : ConnId} {f : Frame}
    (h : (s.pc k).sends k = some (d, f)) (hkind : f.header.kind = .peerDelete) :
    ∃ id ps, s.pc k = .broadcast .delete id (d :: ps) := by
  rcases Pc.sends_cases h with ⟨-, hf⟩ | ⟨i, ids, hpc, hd, rfl⟩ | ⟨a, i, ps, hpc, rfl⟩ | hf | hf
  · rw [hkind] at hf
    cases hf
  · cases hkind
  · cases a with
    | register => cases hkind
    | delete => exact ⟨i, ps, hpc⟩
  · rw [hkind] at hf
    cases hf
  · rw [hwf.carried k f hf] at hkind
    cases hkind

/-- No thread writes a registration or a delete of the client protocol. -/
theorem sends_client {s : RouterThreads} (hwf : s.Wf) {k d : ConnId} {f : Frame}
    (h : (s.pc k).sends k = some (d, f)) :
    f.header.kind ≠ .mbxInit ∧ f.header.kind ≠ .mbxDelete := by
  rcases Pc.sends_cases h with ⟨-, hf⟩ | ⟨i, ids, -, -, rfl⟩ | ⟨a, i, ps, -, rfl⟩ | hf | hf
  · simp [hf]
  · simp
  · cases a <;> simp
  · simp [hf]
  · simp [hwf.carried k f hf]

/-! ### The mailboxes that a router publishes -/

/-- `MSG_ROUTER_PEER_REGISTER` for `id` has been written to connection `p`. -/
def Told (s : RouterThreads) (p : ConnId) (id : MailboxId) : Prop :=
  ∃ w ∈ s.out p, w.frame = Announcement.frame .register id

/-- The thread of `p` has `id` in its snapshot and still has to send it. -/
def Pending (s : RouterThreads) (p : ConnId) (id : MailboxId) : Prop :=
  ∃ ids, s.pc p = .advertise ids ∧ id ∈ ids

/-- The router holds `id` as a mailbox of its own: in `local_mailboxes_`, in the registration
of a client, or in the snapshot of a peer thread. -/
def Publishing (s : RouterThreads) (id : MailboxId) : Prop :=
  id ∈ s.localMailboxes ∨ ∃ k, (s.pc k).registers id ∨ s.Pending k id

/-- What a `tick` writes is told. -/
theorem told_of_sends {s : RouterThreads} {k p : ConnId} {id : MailboxId} (hp : p < s.started)
    (h : (s.pc k).sends k = some (p, Announcement.frame .register id)) :
    (s.step (.tick k)).Told p id := by
  refine ⟨⟨k, Announcement.frame .register id⟩, ?_, rfl⟩
  rw [out_step hp]
  simp [writes, h]

/-- What has been told stays told. -/
theorem told_step {s : RouterThreads} (e : Event) {p : ConnId} {id : MailboxId}
    (hp : p < s.started) (h : s.Told p id) : (s.step e).Told p id := by
  obtain ⟨w, hw, hframe⟩ := h
  exact ⟨w, mem_out_step hp hw, hframe⟩

/-- The ids that a peer thread still has to send come from its snapshot. -/
theorem pending_step {s : RouterThreads} {e : Event} {k : ConnId} {id : MailboxId}
    (h : (s.step e).Pending k id) :
    s.Pending k id ∨ (id ∈ s.localMailboxes ∧ ∃ ids, e = .snapshot k ids) := by
  obtain ⟨ids, hpc, hmem⟩ := h
  have hm := moves s e k
  generalize (s.step e).pc k = q at hm hpc
  cases hm with
  | stay => exact Or.inl ⟨ids, hpc, hmem⟩
  | start b => cases b <;> cases hpc
  | read f he =>
    unfold readPc at hpc
    split at hpc <;> (try split at hpc) <;> cases hpc
  | snapshot ids' he hpc' hperm =>
    cases hpc
    exact Or.inr ⟨hperm.mem_iff.mp hmem, ids, he⟩
  | eof => cases hpc
  | tick p he hp =>
    unfold nextPc at hpc
    split at hpc <;> (try split at hpc) <;> (try split at hpc) <;> cases hpc
    -- Only `advertise` itself leads on to `advertise`, with one id less.
    exact Or.inl ⟨_, hp, List.mem_cons_of_mem _ hmem⟩

/-- A registration that has an entry began with a successful `add`. -/
theorem registers_step {s : RouterThreads} {e : Event} {k : ConnId} {id : MailboxId}
    (h : ((s.step e).pc k).registers id) :
    (s.pc k).registers id ∨
      ∃ hd, e = .tick k ∧ s.pc k = .initAdd id hd ∧ s.registry.find id = none := by
  have hm := moves s e k
  generalize (s.step e).pc k = q at hm h
  cases hm with
  | stay => exact Or.inl h
  | start b => cases b <;> cases h
  | read f he =>
    unfold readPc at h
    split at h <;> (try split at h) <;> cases h
  | snapshot ids => cases h
  | eof => cases h
  | tick p he hpc =>
    rw [hpc]
    cases p with
    | initAdd i hd =>
      -- A refused registration replies with `MSG_ERROR` and goes back to the loop.
      cases hok : (s.registry.add i k).1 with
      | true =>
        simp only [nextPc, hok] at h
        obtain rfl : i = id := h
        exact Or.inr ⟨hd, he, rfl, (s.registry.add_eq_true_iff i k).mp hok⟩
      | false =>
        simp only [nextPc, hok] at h
        cases h
    | initReply i hd ok =>
      cases ok with
      | true => exact Or.inl h
      | false => cases h
    | localInsert i => exact Or.inl h
    | peersSnapshot a i =>
      cases a with
      | register => exact Or.inl h
      | delete => cases h
    | broadcast a i ps =>
      cases ps with
      | nil => cases h
      | cons q ps =>
        cases a with
        | register => exact Or.inl h
        | delete => cases h
    | advertise ids => cases ids <;> cases h
    | find f =>
      simp only [nextPc] at h
      split at h <;> (try split at h) <;> cases h
    | upstream f =>
      simp only [nextPc] at h
      split at h <;> cases h
    | _ => cases h

/-- A router comes to publish `id` through the successful `add` of a registration. -/
theorem publishing_step {s : RouterThreads} {e : Event} {id : MailboxId}
    (h : (s.step e).Publishing id) :
    s.Publishing id ∨
      ∃ k hd, e = .tick k ∧ s.pc k = .initAdd id hd ∧ s.registry.find id = none := by
  rcases h with hmem | ⟨k, hreg | hpend⟩
  · rcases mem_of_mem_localMailboxes_step hmem with hold | ⟨k, rfl, hpc⟩
    · exact Or.inl (Or.inl hold)
    · exact Or.inl (Or.inr ⟨k, Or.inl (by rw [hpc]; rfl)⟩)
  · rcases registers_step hreg with hold | ⟨hd, he, hpc, hfree⟩
    · exact Or.inl (Or.inr ⟨k, Or.inl hold⟩)
    · exact Or.inr ⟨k, hd, he, hpc, hfree⟩
  · rcases pending_step hpend with hold | ⟨hmem, -⟩
    · exact Or.inl (Or.inr ⟨k, Or.inr hold⟩)
    -- What is in a new snapshot was in `local_mailboxes_`.
    · exact Or.inl (Or.inl hmem)

/-- A thread enters the handling of `id` by reading a registration or a delete of `id`. -/
theorem handles_step {s : RouterThreads} {e : Event} {k : ConnId} {id : MailboxId}
    (h : ((s.step e).pc k).handles id) :
    (s.pc k).handles id ∨
      ∃ f, e = .recv k f ∧ (f.header.kind = .mbxInit ∨ f.header.kind = .mbxDelete) ∧
        f.mbx = some id := by
  have hm := moves s e k
  generalize (s.step e).pc k = q at hm h
  cases hm with
  | stay => exact Or.inl h
  | start b => cases b <;> cases h
  | read f he =>
    unfold readPc at h
    split at h <;> (try split at h) <;> cases h
    · rename_i hkind hid
      exact Or.inr ⟨f, he, Or.inl hkind, hid⟩
    · rename_i hkind hid
      exact Or.inr ⟨f, he, Or.inr hkind, hid⟩
  | snapshot ids => cases h
  | eof => cases h
  | tick p he hpc =>
    rw [hpc]
    unfold nextPc at h
    split at h <;> (try split at h) <;> (try split at h) <;> first | exact Or.inl h | cases h

end RouterThreads

end CoreRaT.Spec
