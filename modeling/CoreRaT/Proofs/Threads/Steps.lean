import CoreRaT.Lib.Run
import CoreRaT.Proofs.Router.Registry
import CoreRaT.Spec.RouterThreads

/-!
# `CoreRaT.Proofs.Threads.Steps`: what one step of the router's threads can do

One lemma for each part of the state of `RouterThreads`: where a thread goes (`moves`), where
a new route comes from (`find_step`) and how a route goes away (`find_kept_or`), how the peer
flags, the local mailboxes and `connections_` change, and what is written to a connection
(`out_step`). The invariants of the thread model are derived from these lemmas, without
unfolding `step`.

A thread inside a handler is moved by its own `tick` only (`pc_eq_or_tick`). The section it
executes is then an equation: `step_tick`.
-/

set_option autoImplicit false

namespace CoreRaT.Spec

open CoreRaT.Lib

/-- The frame that a section writes, and the connection it is written to. -/
def Pc.sends (k : ConnId) : Pc → Option (ConnId × Frame)
  | .hello => some (k, .bare MSG_ROUTER_PEER_HELLO 0 0)
  | .advertise (id :: _) => some (k, Announcement.frame .register id)
  | .initReply _ h ok => some (k, TcpRouter.initReply ok h)
  | .broadcast a id (p :: _) => some (p, a.frame id)
  | .forward d f => some (d, f)
  | .replyError h => some (k, TcpRouter.errorReply h)
  | _ => none

/-- The data frame that a thread is about to route. -/
def Pc.carried : Pc → Option Frame
  | .find f => some f
  | .forward _ f => some f
  | .upstream f => some f
  | _ => none

namespace RouterThreads

/-! ### Where a thread goes -/

theorem step_tick {s : RouterThreads} {k : ConnId} {p : Pc} (hp : s.pc k = p) :
    s.step (.tick k) = s.execute k p := by
  rw [step, hp]

theorem pc_execute_of_ne (s : RouterThreads) (k : ConnId) (p : Pc) {j : ConnId} (hj : j ≠ k) :
    (s.execute k p).pc j = s.pc j := by
  cases p with
  | advertise ids => cases ids <;> simp [execute, goto, write, Function.update_of_ne hj]
  | broadcast a id ps => cases ps <;> simp [execute, goto, write, Function.update_of_ne hj]
  | find f =>
    simp only [execute]
    split <;> simp [goto, Function.update_of_ne hj]
  | upstream f =>
    simp only [execute]
    split <;> simp [goto, Function.update_of_ne hj]
  | _ => simp [execute, goto, write, Function.update_of_ne hj]

/-- A section of a handler leaves the peer flags and the list of connections alone. -/
theorem execute_frame (s : RouterThreads) (k : ConnId) (p : Pc) :
    (s.execute k p).isPeer = s.isPeer ∧ (s.execute k p).started = s.started ∧
      (s.execute k p).connections = s.connections ∧
      (s.execute k p).accepting = s.accepting := by
  cases p with
  | advertise ids => cases ids <;> exact ⟨rfl, rfl, rfl, rfl⟩
  | broadcast a id ps => cases ps <;> exact ⟨rfl, rfl, rfl, rfl⟩
  | find f =>
    simp only [execute]
    split <;> exact ⟨rfl, rfl, rfl, rfl⟩
  | upstream f =>
    simp only [execute]
    split <;> exact ⟨rfl, rfl, rfl, rfl⟩
  | _ => exact ⟨rfl, rfl, rfl, rfl⟩

/-- Reading a frame leaves the shared tables and the written frames alone. -/
theorem dispatch_frame (s : RouterThreads) (k : ConnId) (f : Frame) :
    (s.dispatch k f).registry = s.registry ∧
      (s.dispatch k f).localMailboxes = s.localMailboxes ∧
      (s.dispatch k f).started = s.started ∧ (s.dispatch k f).connections = s.connections ∧
      (s.dispatch k f).out = s.out := by
  unfold dispatch
  split <;> (try split) <;> exact ⟨rfl, rfl, rfl, rfl, rfl⟩

/-- Reading a frame moves only the reading thread. -/
theorem pc_dispatch_of_ne (s : RouterThreads) (k : ConnId) (f : Frame) {j : ConnId}
    (hj : j ≠ k) : (s.dispatch k f).pc j = s.pc j := by
  unfold dispatch
  split <;> (try split) <;> simp [goto, Function.update_of_ne hj]

/-- Where a thread stands after it has read `f` in `run()`. -/
def readPc (isPeer : Bool) (f : Frame) : Pc :=
  match f.header.kind, f.mbx with
  | .peerHello, _ => if isPeer then .loop else .hello
  | .peerRegister, some id => if isPeer then .peerAdd id else .loop
  | .peerDelete, some id => if isPeer then .peerRemove id else .loop
  | .mbxInit, some id => .initAdd id f.header
  | .mbxDelete, some id => .deleteRemove id
  | .data, _ => .find f
  | _, _ => .loop

/-- Where a thread stands after it has executed a section. -/
def nextPc (s : RouterThreads) (k : ConnId) : Pc → Pc
  | .hello => .snapshot
  | .advertise (_ :: ids) => .advertise ids
  | .advertise [] => .loop
  | .peerAdd _ => .loop
  | .peerRemove _ => .loop
  | .initAdd id h => .initReply id h (s.registry.add id k).1
  | .initReply id _ ok => if ok then .localInsert id else .loop
  | .localInsert id => .peersSnapshot .register id
  | .deleteRemove id => .localErase id
  | .localErase id => .peersSnapshot .delete id
  | .peersSnapshot a id => .broadcast a id (s.connections.filter (s.isPeer ·))
  | .broadcast a id (_ :: ps) => .broadcast a id ps
  | .broadcast _ _ [] => .loop
  | .find f =>
    match s.registry.find f.header.dest with
    | some d => .forward d f
    | none => if s.isPeer k then .loop else .upstream f
  | .forward _ _ => .loop
  | .upstream f => if s.upstreamOpen f.header.dest then .loop else .replyError f.header
  | .replyError _ => .loop
  | .loop => .loop
  | .snapshot => .snapshot
  | .ended => .ended

theorem pc_dispatch {s : RouterThreads} {k : ConnId} (f : Frame) (hloop : s.pc k = .loop) :
    (s.dispatch k f).pc k = readPc (s.isPeer k) f := by
  -- Every case of the `switch`, on a client and on a peer connection.
  cases hkind : f.header.kind <;> cases hid : f.mbx <;> cases hpeer : s.isPeer k <;>
    simp [dispatch, readPc, goto, hkind, hid, hpeer, hloop]

theorem pc_tick {s : RouterThreads} {k : ConnId} {p : Pc} (hp : s.pc k = p) :
    (s.step (.tick k)).pc k = s.nextPc k p := by
  rw [step_tick hp]
  cases p with
  | advertise ids => cases ids <;> simp [execute, goto, nextPc]
  | broadcast a id ps => cases ps <;> simp [execute, goto, nextPc]
  | initReply id h ok => cases ok <;> simp [execute, goto, nextPc]
  | find f => cases hfind : s.registry.find f.header.dest <;> simp [execute, goto, nextPc, hfind]
  | upstream f =>
    simp only [execute, nextPc]
    split <;> simp [goto]
  | _ => simp [execute, goto, nextPc, hp]

/-- What an event can do to the position of thread `k`. -/
inductive Moves (s : RouterThreads) (e : Event) (k : ConnId) : Pc → Prop
  | stay : Moves s e k (s.pc k)
  | start (b : Bool) (he : e = .start b) (hk : k = s.started) (hacc : s.accepting = none) :
    Moves s e k (if b then .hello else .loop)
  | read (f : Frame) (he : e = .recv k f) (hk : k < s.started) (hpc : s.pc k = .loop) :
    Moves s e k (readPc (s.isPeer k) f)
  | tick (p : Pc) (he : e = .tick k) (hpc : s.pc k = p) : Moves s e k (s.nextPc k p)
  | snapshot (ids : List MailboxId) (he : e = .snapshot k ids) (hpc : s.pc k = .snapshot)
    (hperm : ids.Perm s.localMailboxes) : Moves s e k (.advertise ids)
  | eof (he : e = .eof k) (hk : k < s.started) (hpc : s.pc k = .loop) : Moves s e k .ended

theorem moves (s : RouterThreads) (e : Event) (k : ConnId) : s.Moves e k ((s.step e).pc k) := by
  -- A step that leaves `pc k` alone, whatever else it does.
  have hstay : ∀ p, p = s.pc k → s.Moves e k p := by
    rintro p rfl
    exact .stay
  cases e with
  | start b =>
    simp only [step]
    split
    · rename_i hacc
      by_cases hk : k = s.started
      · simp only [startConnection, hk, Function.update_self]
        exact .start b rfl rfl hacc
      · exact hstay _ (by simp [startConnection, Function.update_of_ne hk])
    · exact .stay
  | insert =>
    simp only [step]
    split <;> exact .stay
  | recv j f =>
    simp only [step]
    split
    · rename_i hen
      by_cases hk : k = j
      · subst hk
        rw [pc_dispatch f hen.2]
        exact .read f rfl hen.1 hen.2
      · exact hstay _ (pc_dispatch_of_ne s j f hk)
    · exact .stay
  | tick j =>
    by_cases hk : k = j
    · subst hk
      rw [pc_tick rfl]
      exact .tick _ rfl rfl
    · exact hstay _ (pc_execute_of_ne s j _ hk)
  | snapshot j ids =>
    simp only [step]
    split
    · rename_i hen
      by_cases hk : k = j
      · subst hk
        simp only [goto, Function.update_self]
        exact .snapshot ids rfl hen.1 hen.2
      · exact hstay _ (by simp [goto, Function.update_of_ne hk])
    · exact .stay
  | eof j =>
    simp only [step]
    split
    · rename_i hen
      by_cases hk : k = j
      · subst hk
        simp only [goto, Function.update_self]
        exact .eof rfl hen.1 hen.2
      · exact hstay _ (by simp [goto, Function.update_of_ne hk])
    · exact .stay

/-- A thread inside a handler stays where it is, or executes its section. -/
theorem pc_eq_or_tick {s : RouterThreads} (e : Event) {k : ConnId} (hk : k < s.started)
    (hloop : s.pc k ≠ .loop) (hsnap : s.pc k ≠ .snapshot) :
    (s.step e).pc k = s.pc k ∨ e = .tick k := by
  have hm := moves s e k
  generalize (s.step e).pc k = q at hm
  cases hm with
  | stay => exact Or.inl rfl
  | start b he hk' => exact absurd hk' (Nat.ne_of_lt hk)
  | read f he hk' hpc => exact absurd hpc hloop
  | tick p he hpc => exact Or.inr he
  | snapshot ids he hpc => exact absurd hpc hsnap
  | eof he hk' hpc => exact absurd hpc hloop

/-- A thread that is about to take the snapshot waits, or takes it. -/
theorem pc_snapshot_step {s : RouterThreads} (e : Event) {k : ConnId} (hk : k < s.started)
    (hpc : s.pc k = .snapshot) :
    (s.step e).pc k = .snapshot ∨
      ∃ ids, e = .snapshot k ids ∧ ids.Perm s.localMailboxes ∧
        (s.step e).pc k = .advertise ids := by
  have hm := moves s e k
  generalize (s.step e).pc k = q at hm
  cases hm with
  | stay => exact Or.inl hpc
  | start b he hk' => exact absurd hk' (Nat.ne_of_lt hk)
  | read f he hk' hpc' => simp [hpc] at hpc'
  | tick p he hpc' =>
    obtain rfl : .snapshot = p := hpc.symm.trans hpc'
    exact Or.inl rfl
  | snapshot ids he hpc' hperm => exact Or.inr ⟨ids, he, hperm, rfl⟩
  | eof he hk' hpc' => simp [hpc] at hpc'

/-! ### Routes -/

/-- What a step can do to the registry. -/
inductive RegistryChange (s : RouterThreads) (e : Event) (registry : MailboxRegistry) : Prop
  | kept (h : registry = s.registry)
  | added (k : ConnId) (id : MailboxId) (he : e = .tick k)
      (hpc : s.pc k = .peerAdd id ∨ ∃ hd, s.pc k = .initAdd id hd)
      (h : registry = (s.registry.add id k).2)
  | removed (k : ConnId) (id : MailboxId) (he : e = .tick k)
      (hpc : s.pc k = .deleteRemove id ∨ s.pc k = .peerRemove id)
      (h : registry = s.registry.remove id)
  | ended (k : ConnId) (he : e = .eof k) (h : registry = s.registry.removeAll k)

/-- A section of a handler. -/
theorem registryChange_tick (s : RouterThreads) (k : ConnId) :
    s.RegistryChange (.tick k) (s.step (.tick k)).registry := by
  cases hpc : s.pc k with
  | peerAdd id => exact .added k id rfl (Or.inl hpc) (by rw [step_tick hpc]; rfl)
  | initAdd id hd => exact .added k id rfl (Or.inr ⟨hd, hpc⟩) (by rw [step_tick hpc]; rfl)
  | peerRemove id => exact .removed k id rfl (Or.inr hpc) (by rw [step_tick hpc]; rfl)
  | deleteRemove id => exact .removed k id rfl (Or.inl hpc) (by rw [step_tick hpc]; rfl)
  | advertise ids =>
    rw [step_tick hpc]
    cases ids <;> exact .kept rfl
  | broadcast a id ps =>
    rw [step_tick hpc]
    cases ps <;> exact .kept rfl
  | find f =>
    rw [step_tick hpc]
    simp only [execute]
    split <;> exact .kept rfl
  | upstream f =>
    rw [step_tick hpc]
    simp only [execute]
    split <;> exact .kept rfl
  | _ =>
    rw [step_tick hpc]
    exact .kept rfl

theorem registryChange (s : RouterThreads) (e : Event) :
    s.RegistryChange e (s.step e).registry := by
  cases e with
  | start b =>
    simp only [step]
    split <;> exact .kept rfl
  | insert =>
    simp only [step]
    split <;> exact .kept rfl
  | recv k f =>
    simp only [step]
    split
    · exact .kept (dispatch_frame s k f).1
    · exact .kept rfl
  | snapshot k ids =>
    simp only [step]
    split <;> exact .kept rfl
  | eof k =>
    simp only [step]
    split
    · exact .ended k rfl rfl
    · exact .kept rfl
  | tick k => exact s.registryChange_tick k

/-- A route after a step was there before, or the step is the `add` of its connection. -/
theorem find_step {s : RouterThreads} {e : Event} {id : MailboxId} {c : ConnId}
    (h : (s.step e).registry.find id = some c) :
    s.registry.find id = some c ∨
      (e = .tick c ∧ s.registry.find id = none ∧
        (s.pc c = .peerAdd id ∨ ∃ hd, s.pc c = .initAdd id hd)) := by
  rcases s.registryChange e with hreg | ⟨k, j, he, hpc, hreg⟩ | ⟨k, j, he, hpc, hreg⟩ |
    ⟨k, he, hreg⟩
  · rw [hreg] at h
    exact Or.inl h
  · rw [hreg, MailboxRegistry.find_add] at h
    split at h
    · rename_i hfree
      obtain ⟨hnone, rfl⟩ := hfree
      obtain rfl := Option.some.inj h
      exact Or.inr ⟨he, hnone, hpc⟩
    · exact Or.inl h
  · rw [hreg, MailboxRegistry.find_remove] at h
    split at h
    · cases h
    · exact Or.inl h
  · rw [hreg, MailboxRegistry.find_removeAll] at h
    split at h
    · cases h
    · exact Or.inl h

/-- A route stays, unless the step removes the mailbox or ends the connection. -/
theorem find_kept_or {s : RouterThreads} {e : Event} {id : MailboxId} {c : ConnId}
    (h : s.registry.find id = some c) :
    (s.step e).registry.find id = some c ∨
      (∃ k, e = .tick k ∧ (s.pc k = .deleteRemove id ∨ s.pc k = .peerRemove id)) ∨
      e = .eof c := by
  rcases s.registryChange e with hreg | ⟨k, j, he, hpc, hreg⟩ | ⟨k, j, he, hpc, hreg⟩ |
    ⟨k, he, hreg⟩
  · rw [hreg]
    exact Or.inl h
  · -- `emplace` does not replace an entry, whichever thread calls it.
    have htaken : ¬ (s.registry.find j = none ∧ id = j) := by
      rintro ⟨hfree, rfl⟩
      rw [hfree] at h
      cases h
    rw [hreg, MailboxRegistry.find_add, if_neg htaken]
    exact Or.inl h
  · by_cases hj : id = j
    · subst hj
      exact Or.inr (Or.inl ⟨k, he, hpc⟩)
    · rw [hreg, MailboxRegistry.find_remove, if_neg hj]
      exact Or.inl h
  · by_cases hk : c = k
    · subst hk
      exact Or.inr (Or.inr he)
    · rw [hreg, MailboxRegistry.find_removeAll, h, if_neg (by simpa using hk)]
      exact Or.inl rfl

/-! ### Peer flags -/

/-- A connection that is a peer after reading a frame was one before, or has just read
`MSG_ROUTER_PEER_HELLO`. -/
theorem isPeer_dispatch {s : RouterThreads} {k p : ConnId} {f : Frame}
    (h : (s.dispatch k f).isPeer p = true) :
    s.isPeer p = true ∨
      (p = k ∧ f.header.kind = .peerHello ∧ (s.dispatch k f).pc p = .hello) := by
  unfold dispatch at h ⊢
  split at h
  · rename_i hkind
    split at h
    · exact Or.inl h
    · rename_i hpeer
      simp only [goto, Function.update_apply] at h
      split at h
      · rename_i hp
        exact Or.inr ⟨hp, hkind, by simp [hpeer, goto, hp]⟩
      · exact Or.inl h
  -- No other frame sets the flag.
  all_goals (try split at h) <;> exact Or.inl h

/-- Where a peer flag comes from: `connect_to_peers`, or `MSG_ROUTER_PEER_HELLO`. -/
theorem isPeer_of_isPeer_step {s : RouterThreads} {e : Event} {p : ConnId}
    (h : (s.step e).isPeer p = true) :
    s.isPeer p = true ∨
      ((s.step e).pc p = .hello ∧
        ((e = .start true ∧ p = s.started) ∨
          ∃ f, e = .recv p f ∧ f.header.kind = .peerHello)) := by
  cases e with
  | start b =>
    simp only [step] at h ⊢
    split at h
    · simp only [startConnection, Function.update_apply] at h ⊢
      split at h
      -- The new connection: its flag is the argument of `start`.
      · rename_i hp
        simp [hp, h]
      · exact Or.inl h
    · exact Or.inl h
  | insert =>
    simp only [step] at h
    split at h <;> exact Or.inl h
  | recv k f =>
    simp only [step] at h ⊢
    split at h
    · rename_i hen
      rcases isPeer_dispatch h with hold | ⟨rfl, hkind, hpc⟩
      · exact Or.inl hold
      · rw [if_pos hen]
        exact Or.inr ⟨hpc, Or.inr ⟨f, rfl, hkind⟩⟩
    · exact Or.inl h
  | tick k => exact Or.inl (by rwa [step, (execute_frame s k _).1] at h)
  | snapshot k ids =>
    simp only [step] at h
    split at h <;> exact Or.inl h
  | eof k =>
    simp only [step] at h
    split at h <;> exact Or.inl h

/-- A peer flag is never taken back. -/
theorem isPeer_step {s : RouterThreads} {e : Event} {p : ConnId} (hp : p < s.started)
    (h : s.isPeer p = true) : (s.step e).isPeer p = true := by
  cases e with
  | start b =>
    simp only [step]
    split
    · simp [startConnection, Function.update_of_ne (Nat.ne_of_lt hp), h]
    · exact h
  | insert => simp only [step]; split <;> exact h
  | recv k f =>
    simp only [step]
    split
    · unfold dispatch
      split
      · split
        · exact h
        · simp only [goto, Function.update_apply]
          split
          · rfl
          · exact h
      all_goals (try split) <;> exact h
    · exact h
  | tick k => rw [step, (execute_frame s k _).1]; exact h
  | snapshot k ids => simp only [step]; split <;> exact h
  | eof k => simp only [step]; split <;> exact h

/-! ### The number of connections and `connections_` -/

/-- Only `start` makes a connection. -/
theorem started_step (s : RouterThreads) (e : Event) :
    (s.step e).started = s.started ∨
      (s.accepting = none ∧ ∃ b, e = .start b ∧ (s.step e).started = s.started + 1) := by
  cases e with
  | start b =>
    cases hacc : s.accepting with
    | none => exact Or.inr ⟨rfl, b, rfl, by simp [step, hacc, startConnection]⟩
    | some k => exact Or.inl (by simp [step, hacc])
  | insert => simp only [step]; split <;> exact Or.inl rfl
  | recv k f =>
    simp only [step]
    split
    · exact Or.inl (dispatch_frame s k f).2.2.1
    · exact Or.inl rfl
  | tick k => exact Or.inl (execute_frame s k _).2.1
  | snapshot k ids => simp only [step]; split <;> exact Or.inl rfl
  | eof k => simp only [step]; split <;> exact Or.inl rfl

/-- Connections are only added. -/
theorem started_le_step (s : RouterThreads) (e : Event) : s.started ≤ (s.step e).started := by
  rcases started_step s e with h | ⟨-, b, -, h⟩ <;> omega

/-! ### Local mailboxes -/

/-- The set changes in two sections: one puts a mailbox in, the other takes one out. -/
theorem localMailboxes_tick (s : RouterThreads) (k : ConnId) :
    (s.step (.tick k)).localMailboxes = s.localMailboxes ∨
      (∃ id, s.pc k = .localInsert id ∧
        (s.step (.tick k)).localMailboxes = s.localMailboxes.insert id) ∨
      ∃ id, s.pc k = .localErase id ∧
        (s.step (.tick k)).localMailboxes = s.localMailboxes.filter (· ≠ id) := by
  cases hpc : s.pc k with
  | localInsert id =>
    rw [step_tick hpc]
    exact Or.inr (Or.inl ⟨id, rfl, rfl⟩)
  | localErase id =>
    rw [step_tick hpc]
    exact Or.inr (Or.inr ⟨id, rfl, rfl⟩)
  | advertise ids =>
    rw [step_tick hpc]
    cases ids <;> exact Or.inl rfl
  | broadcast a id ps =>
    rw [step_tick hpc]
    cases ps <;> exact Or.inl rfl
  | find f =>
    rw [step_tick hpc]
    simp only [execute]
    split <;> exact Or.inl rfl
  | upstream f =>
    rw [step_tick hpc]
    simp only [execute]
    split <;> exact Or.inl rfl
  | _ =>
    rw [step_tick hpc]
    exact Or.inl rfl

theorem localMailboxes_step (s : RouterThreads) (e : Event) :
    (s.step e).localMailboxes = s.localMailboxes ∨
      (∃ k id, e = .tick k ∧ s.pc k = .localInsert id ∧
        (s.step e).localMailboxes = s.localMailboxes.insert id) ∨
      ∃ k id, e = .tick k ∧ s.pc k = .localErase id ∧
        (s.step e).localMailboxes = s.localMailboxes.filter (· ≠ id) := by
  cases e with
  | start b =>
    simp only [step]
    split <;> exact Or.inl rfl
  | insert =>
    simp only [step]
    split <;> exact Or.inl rfl
  | recv k f =>
    simp only [step]
    split
    · exact Or.inl (dispatch_frame s k f).2.1
    · exact Or.inl rfl
  | snapshot k ids =>
    simp only [step]
    split <;> exact Or.inl rfl
  | eof k =>
    simp only [step]
    split <;> exact Or.inl rfl
  | tick k =>
    rcases s.localMailboxes_tick k with hsame | ⟨id, hpc, hset⟩ | ⟨id, hpc, hset⟩
    · exact Or.inl hsame
    · exact Or.inr (Or.inl ⟨k, id, rfl, hpc, hset⟩)
    · exact Or.inr (Or.inr ⟨k, id, rfl, hpc, hset⟩)

/-- A published mailbox stays published, unless the step erases it. -/
theorem mem_localMailboxes_step {s : RouterThreads} {e : Event} {id : MailboxId}
    (h : id ∈ s.localMailboxes) :
    id ∈ (s.step e).localMailboxes ∨ ∃ k, e = .tick k ∧ s.pc k = .localErase id := by
  rcases s.localMailboxes_step e with hsame | ⟨k, j, he, hpc, hset⟩ | ⟨k, j, he, hpc, hset⟩
  · rw [hsame]
    exact Or.inl h
  · rw [hset]
    exact Or.inl (List.mem_insert_of_mem h)
  · by_cases hj : id = j
    · subst hj
      exact Or.inr ⟨k, he, hpc⟩
    · rw [hset]
      exact Or.inl (by simp [h, hj])

/-- A mailbox that is published after a step was published before, or the step inserts it. -/
theorem mem_of_mem_localMailboxes_step {s : RouterThreads} {e : Event} {id : MailboxId}
    (h : id ∈ (s.step e).localMailboxes) :
    id ∈ s.localMailboxes ∨ ∃ k, e = .tick k ∧ s.pc k = .localInsert id := by
  rcases s.localMailboxes_step e with hsame | ⟨k, j, he, hpc, hset⟩ | ⟨k, j, he, hpc, hset⟩
  · rw [hsame] at h
    exact Or.inl h
  · rw [hset] at h
    rcases List.mem_insert_iff.mp h with rfl | hold
    · exact Or.inr ⟨k, he, hpc⟩
    · exact Or.inl hold
  · rw [hset] at h
    exact Or.inl (List.mem_filter.mp h).1

/-! ### Written frames -/

/-- What the event writes to connection `d`. -/
def writes (s : RouterThreads) (e : Event) (d : ConnId) : List Written :=
  match e with
  | .tick k =>
    match (s.pc k).sends k with
    | some (d', f) => if d = d' then [⟨k, f⟩] else []
    | none => []
  | _ => []

/-- A section writes what it sends. -/
theorem out_tick (s : RouterThreads) (k d : ConnId) :
    (s.step (.tick k)).out d = s.out d ++ s.writes (.tick k) d := by
  have hwrite : ∀ (j d' : ConnId) (f : Frame), ((s.write j d' f).out d)
      = s.out d ++ if d = d' then [⟨j, f⟩] else [] := by
    intro j d' f
    simp only [write, Function.update_apply]
    split
    · rename_i hdd
      rw [hdd]
    · simp
  -- Six sections send, the others write nothing.
  cases hpc : s.pc k with
  | hello => rw [step_tick hpc]; simpa [writes, Pc.sends, hpc, execute, goto] using hwrite k k _
  | advertise ids =>
    rw [step_tick hpc]
    cases ids with
    | nil => simp [writes, Pc.sends, hpc, execute, goto]
    | cons id ids => simpa [writes, Pc.sends, hpc, execute, goto] using hwrite k k _
  | initReply id h ok =>
    rw [step_tick hpc]
    simpa [writes, Pc.sends, hpc, execute, goto] using hwrite k k _
  | broadcast a id ps =>
    rw [step_tick hpc]
    cases ps with
    | nil => simp [writes, Pc.sends, hpc, execute, goto]
    | cons p ps => simpa [writes, Pc.sends, hpc, execute, goto] using hwrite k p _
  | forward d' f =>
    rw [step_tick hpc]
    simpa [writes, Pc.sends, hpc, execute, goto] using hwrite k d' _
  | replyError h =>
    rw [step_tick hpc]
    simpa [writes, Pc.sends, hpc, execute, goto] using hwrite k k _
  | find f =>
    rw [step_tick hpc]
    simp only [execute, writes, Pc.sends, hpc, List.append_nil]
    split <;> rfl
  | upstream f =>
    rw [step_tick hpc]
    simp only [execute, writes, Pc.sends, hpc, List.append_nil]
    split <;> rfl
  | _ => rw [step_tick hpc]; simp [writes, Pc.sends, hpc, execute, goto]

/-- What is written to a connection only grows, by what the section writes. A new connection
starts with nothing. -/
theorem out_step_or (s : RouterThreads) (e : Event) (d : ConnId) :
    (s.step e).out d = s.out d ++ s.writes e d ∨
      (s.writes e d = [] ∧ (s.step e).out d = [] ∧ d = s.started) := by
  cases e with
  | start b =>
    simp only [step, writes, List.append_nil]
    split
    · by_cases hd : d = s.started
      · exact Or.inr ⟨trivial, by simp [startConnection, hd], hd⟩
      · exact Or.inl (by simp [startConnection, Function.update_of_ne hd])
    · exact Or.inl rfl
  | insert => simp only [step, writes, List.append_nil]; split <;> exact Or.inl rfl
  | recv k f =>
    simp only [step, writes, List.append_nil]
    split
    · rw [(dispatch_frame s k f).2.2.2.2]
      exact Or.inl rfl
    · exact Or.inl rfl
  | snapshot k ids => simp only [step, writes, List.append_nil]; split <;> exact Or.inl rfl
  | eof k => simp only [step, writes, List.append_nil]; split <;> exact Or.inl rfl
  | tick k => exact Or.inl (out_tick s k d)

theorem out_step {s : RouterThreads} {e : Event} {d : ConnId} (hd : d < s.started) :
    (s.step e).out d = s.out d ++ s.writes e d := by
  rcases out_step_or s e d with h | ⟨-, -, hnew⟩
  · exact h
  · exact absurd hnew (Nat.ne_of_lt hd)

/-- A new frame on a connection is what the section of some thread sends. -/
theorem mem_writes {s : RouterThreads} {e : Event} {d : ConnId} {w : Written}
    (h : w ∈ s.writes e d) : ∃ k, e = .tick k ∧ (s.pc k).sends k = some (d, w.frame) := by
  unfold writes at h
  split at h
  · rename_i k
    split at h
    · rename_i d' f hsends
      split at h
      · rename_i hd
        obtain rfl := List.mem_singleton.mp h
        exact ⟨k, rfl, hd ▸ hsends⟩
      · cases h
    · cases h
  · cases h

theorem sent_eq {s : RouterThreads} {e : Event} {d : ConnId} (hd : d < s.started) :
    s.sent e d = (s.writes e d).map (·.frame) := by
  rw [sent, out_step hd, List.drop_left]

theorem mem_sent {s : RouterThreads} {e : Event} {d : ConnId} {f : Frame} (hd : d < s.started)
    (h : f ∈ s.sent e d) : ∃ k, e = .tick k ∧ (s.pc k).sends k = some (d, f) := by
  rw [sent_eq hd] at h
  obtain ⟨w, hw, rfl⟩ := List.mem_map.mp h
  exact mem_writes hw

/-- Reading a frame writes nothing. -/
theorem sent_recv (s : RouterThreads) (k : ConnId) (f : Frame) (d : ConnId) :
    s.sent (.recv k f) d = [] := by
  have hout : (s.step (.recv k f)).out d = s.out d := by
    simp only [step]
    split
    · rw [(dispatch_frame s k f).2.2.2.2]
    · rfl
  simp [sent, hout]

@[simp] theorem clientEvent_recv {isLink : ConnId → Bool} {k : ConnId} {f : Frame} :
    clientEvent isLink (.recv k f) = true ↔
      isLink k = false ∧ f.header.kind.isPeerProtocol = false := by
  simp [clientEvent]

/-- A written frame stays written. -/
theorem mem_out_step {s : RouterThreads} {e : Event} {d : ConnId} {w : Written}
    (hd : d < s.started) (h : w ∈ s.out d) : w ∈ (s.step e).out d := by
  rw [out_step hd]
  exact List.mem_append_left _ h

/-! ### What holds of every reachable state -/

/-- The threads and the routes of a router belong to connections that exist. Only a
connection in peer mode is about to add a peer route, and only data frames are routed. -/
structure Wf (s : RouterThreads) : Prop where
  fresh : ∀ k, s.started ≤ k → s.pc k = .loop
  routes : ∀ id k, s.registry.find id = some k → k < s.started
  peers : ∀ k, s.isPeer k = true → k < s.started
  peerAdds : ∀ k id, s.pc k = .peerAdd id → s.isPeer k = true
  carried : ∀ k f, (s.pc k).carried = some f → f.header.kind = .data

theorem wf_init (up : MailboxId → Bool) : (init up).Wf where
  fresh _ _ := rfl
  routes id k h := by cases h
  peers k h := by cases h
  peerAdds k id h := by cases h
  carried k f h := by cases h

theorem Wf.lt_of_pc {s : RouterThreads} (h : s.Wf) {k : ConnId} (hpc : s.pc k ≠ .loop) :
    k < s.started := by
  by_contra hk
  exact hpc (h.fresh k (Nat.le_of_not_lt hk))

/-- A thread beyond the started connections does nothing. -/
theorem fresh_step {s : RouterThreads} (h : s.Wf) (e : Event) (k : ConnId)
    (hk : (s.step e).started ≤ k) : (s.step e).pc k = .loop := by
  have hk' : s.started ≤ k := Nat.le_trans (started_le_step s e) hk
  have hloop : s.pc k = .loop := h.fresh k hk'
  have hm := moves s e k
  generalize (s.step e).pc k = q at hm
  cases hm with
  | stay => exact hloop
  -- The connection that `start` makes is not beyond the started ones any more.
  | start b he hstarted hacc =>
    subst he
    simp only [step, hacc, startConnection, hstarted] at hk
    exact absurd hk (Nat.not_succ_le_self _)
  | read f he hlt => exact absurd hlt (Nat.not_lt.mpr hk')
  | tick p he hpc =>
    obtain rfl : .loop = p := hloop.symm.trans hpc
    rfl
  | snapshot ids he hpc => simp [hloop] at hpc
  | eof he hlt => exact absurd hlt (Nat.not_lt.mpr hk')

/-- Where `registry_.add` of a peer route is reached from: the thread has just read
`MSG_ROUTER_PEER_REGISTER` in peer mode, or stood there already. -/
theorem peerAdd_step {s : RouterThreads} {e : Event} {k : ConnId} {id : MailboxId}
    (h : (s.step e).pc k = .peerAdd id) :
    s.pc k = .peerAdd id ∨
      (s.isPeer k = true ∧ ∃ f, e = .recv k f ∧ f.header.kind = .peerRegister ∧
        f.mbx = some id) := by
  have hm := moves s e k
  generalize (s.step e).pc k = q at hm h
  cases hm with
  | stay => exact Or.inl h
  | start b => cases b <;> cases h
  | read f he =>
    unfold readPc at h
    split at h <;> (try split at h) <;> cases h
    -- Of all the frames only one leads here, and only in peer mode.
    rename_i hkind hpeer hmbx
    exact Or.inr ⟨hpeer, f, he, hkind, hmbx⟩
  | tick p he hpc =>
    unfold nextPc at h
    split at h <;> (try split at h) <;> (try split at h) <;> cases h
  | snapshot ids => cases h
  | eof => cases h

/-- The frame that a thread routes is a data frame it has read. -/
theorem carried_step {s : RouterThreads} {e : Event} {k : ConnId} {f : Frame}
    (h : ((s.step e).pc k).carried = some f) :
    (s.pc k).carried = some f ∨ f.header.kind = .data := by
  have hm := moves s e k
  generalize (s.step e).pc k = q at hm h
  cases hm with
  | stay => exact Or.inl h
  | start b => cases b <;> cases h
  | read g he =>
    unfold readPc at h
    split at h <;> (try split at h) <;> cases h
    rename_i hkind
    exact Or.inr hkind
  | tick p he hpc =>
    rw [hpc]
    unfold nextPc at h
    -- `find` hands its frame on to `forward` or to `upstream`.
    split at h <;> (try split at h) <;> (try split at h) <;> first | exact Or.inl h | cases h
  | snapshot ids => cases h
  | eof => cases h

theorem wf_step (s : RouterThreads) (e : Event) (h : s.Wf) : (s.step e).Wf where
  fresh := fresh_step h e
  routes id k hk := by
    refine Nat.lt_of_lt_of_le ?_ (started_le_step s e)
    -- A new route belongs to the thread that has just added it.
    rcases find_step hk with hold | ⟨-, -, hpc | ⟨hd, hpc⟩⟩
    · exact h.routes id k hold
    · exact h.lt_of_pc (by simp [hpc])
    · exact h.lt_of_pc (by simp [hpc])
  peers k hk := by
    rcases isPeer_of_isPeer_step hk with hold | ⟨hpc, -⟩
    · exact Nat.lt_of_lt_of_le (h.peers k hold) (started_le_step s e)
    · by_contra hlt
      simp [fresh_step h e k (Nat.le_of_not_lt hlt)] at hpc
  peerAdds k id hk := by
    rcases peerAdd_step hk with hold | ⟨hpeer, -⟩
    · have hpeer := h.peerAdds k id hold
      exact isPeer_step (h.peers k hpeer) hpeer
    · exact isPeer_step (h.peers k hpeer) hpeer
  carried k f hk := by
    rcases carried_step hk with hold | hdata
    · exact h.carried k f hold
    · exact hdata

/-- Every reachable state is well formed. -/
theorem wf_run (up : MailboxId → Bool) (es : List Event) : (runFrom step (init up) es).Wf :=
  (allStates_of_step wf_step es (wf_init up)).last

/-- Whether a router is quiescent can be read off the connections it has started. -/
theorem Wf.quiescent {s : RouterThreads} (h : s.Wf) (hacc : s.accepting = none)
    (hpc : ∀ k < s.started, s.pc k = .loop ∨ s.pc k = .ended) : s.Quiescent := by
  refine ⟨hacc, ?_⟩
  intro k
  by_cases hk : k < s.started
  · exact hpc k hk
  · exact Or.inl (h.fresh k (Nat.le_of_not_lt hk))

/-- In a quiescent router no thread stands inside a handler. -/
theorem Quiescent.pc_ne {s : RouterThreads} (h : s.Quiescent) (k : ConnId) {p : Pc}
    (hloop : p ≠ .loop) (hended : p ≠ .ended) : s.pc k ≠ p := by
  intro hpc
  rcases h.2 k with hat | hat
  · exact hloop (hpc.symm.trans hat)
  · exact hended (hpc.symm.trans hat)

/-- The peer flag of an existing connection was off before a step that leaves it off. -/
theorem isPeer_eq_false_of_step {s : RouterThreads} {e : Event} {k : ConnId}
    (hk : k < s.started) (h : (s.step e).isPeer k = false) : s.isPeer k = false := by
  cases hpeer : s.isPeer k with
  | false => rfl
  | true => rw [isPeer_step hk hpeer] at h; cases h

end RouterThreads

end CoreRaT.Spec
