import CoreRaT.Lib.Trace
import CoreRaT.Proofs.Mesh.Learned
import CoreRaT.Proofs.Threads.Flow

/-!
# `CoreRaT.Proofs.Mesh.Order`: messages arrive once and in order

A client sends messages from the mailbox `src` to the mailbox `dst`. They are read by the thread of
its connection, cross the link that its router has a route over, and are read by the thread of the
other end, which writes them to the client that has registered `dst`. At any time the messages that
have been sent are the ones that were given up, then the ones that have arrived, then the ones
under way, each of them once and in the order of sending: `in_order`.

So only messages from the beginning of the stream are given up: the router of the sender has no
route yet, and hands them upstream or answers with `MSG_ERROR`. After the first one that arrives
none is lost, and none overtakes another. Everything else may happen at the same time: routers
are linked, other mailboxes are registered and deleted, other clients come, send and go.

The invariant is `Delivers`. Its core is that the sender's router learns a route for `dst` only
after the home has one (`early`), so that the home never gives up what has crossed the link.
-/

set_option autoImplicit false

namespace CoreRaT.Spec

open CoreRaT.Lib
open RouterThreads (clientEvent)

/-- A client with connection `con` of `router` that sends messages from `src` to `dst`. -/
structure Sender (ι : Type) where
  router : ι
  con : ConnId
  src : MailboxId
  dst : MailboxId

variable {ι : Type}

/-- `f` is one of the messages. -/
def Sender.Sends (w : Sender ι) (f : Frame) : Prop :=
  f.Payload ∧ f.header.src = w.src ∧ f.header.dest = w.dst

instance (w : Sender ι) : DecidablePred w.Sends := fun _ => inferInstanceAs (Decidable (_ ∧ _))

theorem Sender.payload (w : Sender ι) (f : Frame) (hf : w.Sends f) : f.Payload := hf.1

namespace RouterMesh

/-! ### Where the messages are -/

/-- The message that the thread of connection `k` has in its hand. -/
def hand (w : Sender ι) (p : RouterMesh ι) (i : ι) (k : ConnId) : List Frame :=
  ((p.router i).pc k).hand w.Sends

/-- The messages that the other end of the link has not read. -/
def unreadOf (w : Sender ι) (p : RouterMesh ι) (i : ι) (k : ConnId) : List Frame :=
  (p.unread i k).filter fun f => w.Sends f

/-- The messages that have been written to connection `k`. -/
def writtenOf (w : Sender ι) (p : RouterMesh ι) (i : ι) (k : ConnId) : List Frame :=
  (((p.router i).out k).map (·.frame)).filter fun f => w.Sends f

/-- The messages that have been written to the client that has registered `dst` at its home. -/
def arrived (home : MailboxId → ι) (w : Sender ι) (p : RouterMesh ι) : List Frame :=
  match (p.router (home w.dst)).registry.find w.dst with
  | some k => p.writtenOf w (home w.dst) k
  | none => []

/-- The messages on the link of the sender's route, with the one that the thread at its other end
has read. -/
def underWay (w : Sender ι) (p : RouterMesh ι) : List Frame :=
  match (p.router w.router).registry.find w.dst with
  | some k =>
    match p.link w.router k with
    | some ⟨j, some l⟩ => p.hand w j l ++ p.unreadOf w w.router k
    | _ => []
  | none => []

/-- The messages that have not been given up, the first one first: they have arrived, or are under
way, or the sender's thread has them. -/
def inLine (home : MailboxId → ι) (w : Sender ι) (p : RouterMesh ι) : List Frame :=
  p.arrived home w ++ p.underWay w ++ p.hand w w.router w.con

/-- The message that a client's thread reads in this step. -/
def sentBy (w : Sender ι) (p : RouterMesh ι) : Event ι → List Frame
  | .router i (.recv k f) =>
    if clientEvent (p.isLink i) (.recv k f) ∧ k < (p.router i).started ∧
        (p.router i).pc k = .loop ∧ w.Sends f then [f] else []
  | _ => []

/-- The message for which a thread finds no route in this step. -/
def gaveUpBy (w : Sender ι) (p : RouterMesh ι) : Event ι → List Frame
  | .router i (.tick k) =>
    match (p.router i).pc k with
    | .find f =>
      if w.Sends f ∧ (p.router i).registry.find f.header.dest = none then [f] else []
    | _ => []
  | _ => []

/-- In the state `p`, the event does not end the connection that `dst` is registered for, and no
other client sends one of the messages. -/
def OrderGuard (home : MailboxId → ι) (w : Sender ι) (p : RouterMesh ι) : Event ι → Prop
  | .router i (.eof k) => i = home w.dst → (p.router i).registry.find w.dst ≠ some k
  | .router i (.recv k f) => w.Sends f → i = w.router ∧ k = w.con
  | _ => True

instance [DecidableEq ι] (home : MailboxId → ι) (w : Sender ι) (p : RouterMesh ι) :
    DecidablePred (p.OrderGuard home w)
  | .router i (.eof k) =>
    inferInstanceAs (Decidable (i = home w.dst → (p.router i).registry.find w.dst ≠ some k))
  | .router i (.recv k f) =>
    inferInstanceAs (Decidable (w.Sends f → i = w.router ∧ k = w.con))
  | .router _ (.start _) => isTrue trivial
  | .router _ .insert => isTrue trivial
  | .router _ (.tick _) => isTrue trivial
  | .router _ (.snapshot _ _) => isTrue trivial
  | .connect _ _ => isTrue trivial
  | .acceptLink _ _ _ => isTrue trivial
  | .deliver _ _ _ => isTrue trivial

/-! ### The invariant -/

/-- A router has a mailbox `id` to announce, or has announced it, or knows of it. -/
inductive Announced (id : MailboxId) (p : RouterMesh ι) : Prop
  | publishing (i : ι) (h : (p.router i).Publishing id)
  | unread (i : ι) (k : ConnId) (f : Frame) (hf : f ∈ p.unread i k)
      (hkind : f.header.kind = .peerRegister) (hid : f.mbx = some id)
  | peerAdd (i : ι) (k : ConnId) (h : (p.router i).pc k = .peerAdd id)
  | route (i : ι) (h : (p.router i).registry.find id ≠ none)

/-- Connection `k` of the home is the other end of the sender's route. -/
def Receives (home : MailboxId → ι) (w : Sender ι) (p : RouterMesh ι) (k : ConnId) : Prop :=
  ∃ l, (p.router w.router).registry.find w.dst = some l ∧
    p.link w.router l = some ⟨home w.dst, some k⟩

/-- The messages are only where `arrived`, `underWay` and the sender's thread have them. -/
structure Delivers (home : MailboxId → ι) (w : Sender ι) (p : RouterMesh ι) : Prop where
  kept : p.Kept home w.dst
  early : p.Announced w.dst → (p.router (home w.dst)).registry.find w.dst ≠ none
  hands : ∀ i k, p.hand w i k ≠ [] →
    (i = w.router ∧ k = w.con) ∨ (i = home w.dst ∧ p.Receives home w k)
  /-- A route does not change while a message is in hand. -/
  aims : ∀ i k d f, (p.router i).pc k = .forward d f → w.Sends f →
    (p.router i).registry.find w.dst = some d
  unread : ∀ i k, p.unreadOf w i k ≠ [] →
    i = w.router ∧ (p.router i).registry.find w.dst = some k
  written : ∀ k, p.writtenOf w (home w.dst) k ≠ [] →
    (p.router (home w.dst)).registry.find w.dst = some k ∧
      (p.router w.router).registry.find w.dst ≠ none

/-- A route leads over a link to the home, or is the home's own. -/
theorem Kept.route_cases {home : MailboxId → ι} {id : MailboxId} {p : RouterMesh ι}
    (h : p.Kept home id) {i : ι} {k : ConnId}
    (hfind : (p.router i).registry.find id = some k) :
    (p.link i k = none ∧ home id = i) ∨
      ∃ l, p.link i k = some ⟨home id, some l⟩ ∧ home id ≠ i := by
  cases hlink : p.link i k with
  | none => exact Or.inl ⟨rfl, h.own i k hfind hlink⟩
  | some x =>
    obtain ⟨hhome, j, l, hup, -⟩ := h.oneHop.routes i k id hfind x hlink
    rw [hlink] at hup
    cases hup
    exact Or.inr ⟨l, by rw [hhome], hhome ▸ (h.oneHop.wf.links i k _ hlink).2⟩

theorem Receives.ne {home : MailboxId → ι} {w : Sender ι} {p : RouterMesh ι} {k : ConnId}
    (h : p.Receives home w k) (hp : p.Wf) : home w.dst ≠ w.router := by
  obtain ⟨l, -, hlink⟩ := h
  exact (hp.links _ l _ hlink).2

/-! ### One step -/

section
variable [DecidableEq ι] {home : MailboxId → ι} {w : Sender ι} {p q : RouterMesh ι} {e : Event ι}
  {i : ι} {re : RouterThreads.Event}

theorem Takes.hand_self (ht : Takes p q e i re) (k : ConnId) :
    q.hand w i k = (((p.router i).step re).pc k).hand w.Sends := by
  rw [hand, ht.self]

theorem Takes.hand_other (ht : Takes p q e i re) {j : ι} (hj : j ≠ i) (k : ConnId) :
    q.hand w j k = p.hand w j k := by
  rw [hand, hand, ht.other j hj]

omit [DecidableEq ι] in
/-- What a step does to the messages. -/
theorem Wf.flowStep (hp : p.Wf) (w : Sender ι) (i : ι) (re : RouterThreads.Event) :
    (p.router i).FlowStep w.Sends re :=
  RouterThreads.flowStep (hp.routers i) w.payload re

theorem Takes.hand_cases (ht : Takes p q e i re) (hp : p.Wf) {j : ι} {k : ConnId}
    (h : q.hand w j k ≠ []) :
    p.hand w j k ≠ [] ∨ (j = i ∧ ∃ f, re = .recv k f ∧ w.Sends f) := by
  by_cases hj : j = i
  · subst hj
    rw [ht.hand_self] at h
    exact ((hp.flowStep w j re).hand_cases h).imp_right fun hread => ⟨rfl, hread⟩
  · rw [ht.hand_other hj] at h
    exact Or.inl h

omit [DecidableEq ι] in
theorem Wf.filter_sent (hp : p.Wf) (w : Sender ι) {l : ConnId} (hlink : (p.link i l).isSome) :
    ((p.router i).sent re l).filter (fun f => w.Sends f) = (p.router i).flowTo w.Sends re l := by
  obtain ⟨x, hx⟩ := Option.isSome_iff_exists.mp hlink
  rw [RouterThreads.sent_eq (hp.links i l x hx).1, RouterThreads.flowTo]

/-- What is unread grows at its end, or the other end reads the first message. -/
theorem Advances.unreadOf_cases {id : MailboxId} (ht : Advances id p q e i re) (hp : p.Wf)
    (w : Sender ι) (j : ι) (l : ConnId) :
    q.unreadOf w j l = p.unreadOf w j l ++
        (if j = i ∧ (p.link i l).isSome then (p.router i).flowTo w.Sends re l else []) ∨
      ∃ k f, re = .recv k f ∧ w.Sends f ∧ (p.router i).pc k = .loop ∧
        p.link i k = some ⟨j, some l⟩ ∧ p.unreadOf w j l = f :: q.unreadOf w j l := by
  rcases ht.queue j l with hgrow | ⟨k, f, hre, hpc, hlink, hread⟩
  · refine Or.inl ?_
    rw [unreadOf, hgrow, List.filter_append]
    split
    · rename_i hi
      rw [hp.filter_sent w hi.2, unreadOf]
    · rfl
  · by_cases hf : w.Sends f
    · exact Or.inr ⟨k, f, hre, hf, hpc, hlink, by simp [unreadOf, hread, hf]⟩
    -- Another frame is read, and nothing is written.
    · refine Or.inl ?_
      have hwrites : (p.router i).flowTo w.Sends re l = [] :=
        RouterThreads.flowTo_of_not_tick (by simp [hre]) l
      simp [unreadOf, hread, hf, hwrites]

theorem Takes.writtenOf (ht : Takes p q e i re) {j : ι} {k : ConnId}
    (hk : k < (p.router j).started) :
    q.writtenOf w j k = p.writtenOf w j k ++
      (if j = i then (p.router i).flowTo w.Sends re k else []) := by
  by_cases hj : j = i
  · subst hj
    simp [RouterMesh.writtenOf, ht.self, RouterThreads.out_step hk, RouterThreads.flowTo]
  · simp [RouterMesh.writtenOf, ht.other j hj, hj]

theorem Takes.writtenOf_cases (ht : Takes p q e i re) {j : ι} {k : ConnId}
    (h : q.writtenOf w j k ≠ []) :
    p.writtenOf w j k ≠ [] ∨ (j = i ∧ (p.router i).flowTo w.Sends re k ≠ []) := by
  by_cases hj : j = i
  · subst hj
    rw [RouterMesh.writtenOf, ht.self] at h
    rcases RouterThreads.out_step_or (p.router j) re k with hout | ⟨-, hout, -⟩
    · rw [hout, List.map_append, List.filter_append] at h
      by_cases hold : p.writtenOf w j k = []
      · refine Or.inr ⟨rfl, fun hnil => h ?_⟩
        rw [RouterMesh.writtenOf] at hold
        rw [RouterThreads.flowTo] at hnil
        rw [hold, hnil]
        rfl
      · exact Or.inl hold
    · rw [hout] at h
      exact absurd rfl h
  · rw [RouterMesh.writtenOf, ht.other j hj] at h
    exact Or.inl h

/-- A route for `dst` stays. -/
theorem Advances.route_stays (ht : Advances w.dst p q e i re) (h : p.Kept home w.dst)
    (hguard : p.OrderGuard home w e) {j : ι} {k : ConnId}
    (hfind : (p.router j).registry.find w.dst = some k) :
    (q.router j).registry.find w.dst = some k := by
  refine ht.find_stays h hfind ?_
  rintro rfl hhome rfl
  have hacts := ht.acts
  cases hacts with
  | router => exact hguard hhome hfind

theorem Advances.route_ne_none (ht : Advances w.dst p q e i re) (h : p.Kept home w.dst)
    (hguard : p.OrderGuard home w e) {j : ι}
    (hfind : (p.router j).registry.find w.dst ≠ none) :
    (q.router j).registry.find w.dst ≠ none := by
  obtain ⟨k, hk⟩ := Option.ne_none_iff_exists'.mp hfind
  rw [ht.route_stays h hguard hk]
  simp

/-- A router that announces or learns `dst` does so after its home has registered it. -/
theorem Advances.announced (ht : Advances w.dst p q e i re) (h : p.Delivers home w)
    (hq : q.Announced w.dst) :
    p.Announced w.dst ∨ (q.router (home w.dst)).registry.find w.dst ≠ none := by
  have hp := h.kept.oneHop.wf
  cases hq with
  | publishing j hpub =>
    by_cases hj : j = i
    · subst hj
      rw [ht.self] at hpub
      rcases RouterThreads.publishing_step hpub with hold | ⟨k, hd, rfl, hpc, hnone⟩
      · exact Or.inl (.publishing j hold)
      -- The home registers `dst` now.
      · refine Or.inr ?_
        rw [h.kept.oneHop.inits j k w.dst hd hpc, ht.self, RouterThreads.step_tick hpc]
        simp [RouterThreads.execute, RouterThreads.goto, MailboxRegistry.find_add, hnone]
    · rw [ht.other j hj] at hpub
      exact Or.inl (.publishing j hpub)
  | unread j k f hf hkind hid =>
    rcases ht.unread j k f hf with hold | ⟨rfl, ⟨x, hx⟩, hnew⟩
    · exact Or.inl (.unread j k f hold hkind hid)
    · obtain ⟨t, -, hsends⟩ := hp.sent hx hnew
      refine Or.inl (.publishing j ?_)
      rcases RouterThreads.sends_register (hp.routers j) hsends hkind hid with
        ⟨ids, hpc, rfl⟩ | ⟨ps, hpc⟩
      · exact Or.inr ⟨k, Or.inr ⟨_, hpc, List.mem_cons_self⟩⟩
      · exact Or.inr ⟨t, Or.inl (by rw [hpc]; rfl)⟩
  | peerAdd j k hpc =>
    by_cases hj : j = i
    · subst hj
      rw [ht.self] at hpc
      rcases RouterThreads.peerAdd_step hpc with hold | ⟨-, f, hre, hkind, hid⟩
      · exact Or.inl (.peerAdd j k hold)
      -- An announcement comes over a link.
      · rcases ht.reads k f hre with ⟨m, l, -, hf⟩ | ⟨-, hclient, -⟩
        · exact Or.inl (.unread m l f hf hkind hid)
        · rw [hkind] at hclient
          cases hclient
    · rw [ht.other j hj] at hpc
      exact Or.inl (.peerAdd j k hpc)
  | route j hfind =>
    obtain ⟨k, hk⟩ := Option.ne_none_iff_exists'.mp hfind
    rcases ht.find_new h.kept.oneHop hk with hold | ⟨-, -, -, hpc | ⟨hhome, -⟩⟩
    · exact Or.inl (.route j (by rw [hold]; simp))
    · exact Or.inl (.peerAdd j k hpc)
    · exact Or.inr (hhome ▸ hfind)

theorem Advances.receives (ht : Advances w.dst p q e i re) (h : p.Kept home w.dst)
    (hguard : p.OrderGuard home w e) {k : ConnId} (hk : p.Receives home w k) :
    q.Receives home w k := by
  obtain ⟨l, hfind, hlink⟩ := hk
  obtain ⟨c, hc, hknown⟩ := ht.link_kept h.oneHop.wf hlink
  exact ⟨l, ht.route_stays h hguard hfind, by rw [hc, hknown k rfl]⟩

/-- Who reads a message: the sender's thread, or the one at the other end of the route. -/
theorem Advances.reader (ht : Advances w.dst p q e i re) (h : p.Delivers home w)
    (hguard : p.OrderGuard home w e) {k : ConnId} {f : Frame} (hre : re = .recv k f)
    (hf : w.Sends f) :
    (i = w.router ∧ k = w.con ∧ p.link i k = none ∧ e = .router i re) ∨
      (i = home w.dst ∧ ∃ l, (p.router w.router).registry.find w.dst = some l ∧
        p.link w.router l = some ⟨home w.dst, some k⟩ ∧ p.link i k = some ⟨w.router, some l⟩ ∧
        p.unreadOf w w.router l = f :: q.unreadOf w w.router l) := by
  rcases ht.reads k f hre with ⟨j, l, hlink, hmem⟩ | ⟨hlink, -, he⟩
  · have hread : p.unreadOf w j l = f :: q.unreadOf w j l := by
      simp [unreadOf, ht.consumes k f j l hre hlink, hf]
    obtain ⟨rfl, hfind⟩ := h.unread j l (by rw [hread]; simp)
    have hmate := h.kept.oneHop.wf.mates i k w.router l hlink
    obtain ⟨hhome, -⟩ := h.kept.oneHop.routes _ l _ hfind _ hmate
    obtain rfl : home w.dst = i := hhome
    exact Or.inr ⟨rfl, l, hfind, hmate, hlink, hread⟩
  · rw [he, hre] at hguard
    obtain ⟨rfl, rfl⟩ := hguard hf
    exact Or.inl ⟨rfl, rfl, hlink, he⟩

omit [DecidableEq ι] in
/-- A thread forwards a message to the connection of its router's route. -/
theorem Delivers.aim (h : p.Delivers home w) {d : ConnId}
    (hwrites : (p.router i).flowTo w.Sends re d ≠ []) :
    (p.router i).registry.find w.dst = some d ∧
      ∃ t, re = .tick t ∧ p.hand w i t ≠ [] := by
  obtain ⟨t, f, hre, hf, hpc⟩ := RouterThreads.forward_of_flowTo w.payload hwrites
  exact ⟨h.aims i t d f hpc hf, t, hre, by simp [hand, hpc, Pc.hand, hf]⟩

theorem Advances.delivers (ht : Advances w.dst p q e i re) (h : p.Delivers home w)
    (hguard : p.OrderGuard home w e) (he : HomeEvent home e) : q.Delivers home w where
  kept := ht.kept h.kept he
  early hq := by
    rcases ht.announced h hq with hold | hnew
    · exact ht.route_ne_none h.kept hguard (h.early hold)
    · exact hnew
  hands j k hne := by
    rcases ht.hand_cases h.kept.oneHop.wf hne with hold | ⟨rfl, f, hre, hf⟩
    · exact (h.hands j k hold).imp_right fun hk => ⟨hk.1, ht.receives h.kept hguard hk.2⟩
    · rcases ht.reader h hguard hre hf with ⟨hj, hk, -⟩ | ⟨hj, l, hfind, hlink, -⟩
      · exact Or.inl ⟨hj, hk⟩
      · exact Or.inr ⟨hj, ht.receives h.kept hguard ⟨l, hfind, hlink⟩⟩
  aims j k d f hpc hf := by
    rcases ht.pc_cases hpc with hold | ⟨rfl, -, -, hfind⟩
    · exact ht.route_stays h.kept hguard (h.aims j k d f hold hf)
    · rw [hf.2.2] at hfind
      exact ht.route_stays h.kept hguard hfind
  unread j l hne := by
    have hp := h.kept.oneHop.wf
    have hold : p.unreadOf w j l ≠ [] → j = w.router ∧ (q.router j).registry.find w.dst = some l :=
      fun hold => (h.unread j l hold).imp_right (ht.route_stays h.kept hguard)
    rcases ht.unreadOf_cases hp w j l with hgrow | ⟨k, f, -, -, -, -, hread⟩
    · by_cases hnil : p.unreadOf w j l = []
      · rw [hgrow, hnil, List.nil_append] at hne
        split at hne
        · rename_i hji
          obtain ⟨rfl, hlink⟩ := hji
          obtain ⟨hfind, t, -, hhand⟩ := h.aim hne
          refine ⟨?_, ht.route_stays h.kept hguard hfind⟩
          -- The home forwards nothing over a link: its route is its own.
          rcases h.hands j t hhand with ⟨hj, -⟩ | ⟨hj, -⟩
          · exact hj
          · rcases h.kept.route_cases hfind with ⟨hnone, -⟩ | ⟨m, -, hne'⟩
            · rw [hnone] at hlink
              cases hlink
            · exact absurd hj.symm hne'
        · exact absurd rfl hne
      · exact hold hnil
    · exact hold (by rw [hread]; simp)
  written k hne := by
    rcases ht.writtenOf_cases hne with hold | ⟨hi, hwrites⟩
    · obtain ⟨hfind, hroute⟩ := h.written k hold
      exact ⟨ht.route_stays h.kept hguard hfind, ht.route_ne_none h.kept hguard hroute⟩
    · subst hi
      obtain ⟨hfind, t, -, hhand⟩ := h.aim hwrites
      refine ⟨ht.route_stays h.kept hguard hfind, ht.route_ne_none h.kept hguard ?_⟩
      rcases h.hands _ t hhand with ⟨hi, -⟩ | ⟨-, l, hroute, -⟩
      · rw [← hi, hfind]
        simp
      · rw [hroute]
        simp

/-! ### The line of messages -/

omit [DecidableEq ι] in
theorem arrived_of_route {k : ConnId}
    (hfind : (p.router (home w.dst)).registry.find w.dst = some k) :
    p.arrived home w = p.writtenOf w (home w.dst) k := by
  simp only [arrived, hfind]

omit [DecidableEq ι] in
theorem arrived_of_none (hfind : (p.router (home w.dst)).registry.find w.dst = none) :
    p.arrived home w = [] := by
  simp only [arrived, hfind]

omit [DecidableEq ι] in
theorem underWay_of_link {k l : ConnId} {j : ι}
    (hfind : (p.router w.router).registry.find w.dst = some k)
    (hlink : p.link w.router k = some ⟨j, some l⟩) :
    p.underWay w = p.hand w j l ++ p.unreadOf w w.router k := by
  simp only [underWay, hfind, hlink]

omit [DecidableEq ι] in
theorem underWay_of_none (hfind : (p.router w.router).registry.find w.dst = none) :
    p.underWay w = [] := by
  simp only [underWay, hfind]

omit [DecidableEq ι] in
theorem underWay_of_own {k : ConnId} (hfind : (p.router w.router).registry.find w.dst = some k)
    (hlink : p.link w.router k = none) : p.underWay w = [] := by
  simp only [underWay, hfind, hlink]

omit [DecidableEq ι] in
/-- Nothing has arrived before the sender's router has a route. -/
theorem Delivers.arrived_eq_nil (h : p.Delivers home w)
    (hfind : (p.router w.router).registry.find w.dst = none) : p.arrived home w = [] := by
  cases hroute : (p.router (home w.dst)).registry.find w.dst with
  | none => exact arrived_of_none hroute
  | some k =>
    rw [arrived_of_route hroute]
    by_contra hne
    exact (h.written k hne).2 hfind

/-- What arrives in a step is what the home writes to its own route. -/
theorem Advances.arrived (ht : Advances w.dst p q e i re) (h : p.Delivers home w)
    (hguard : p.OrderGuard home w e) {k : ConnId}
    (hfind : (p.router (home w.dst)).registry.find w.dst = some k) :
    q.arrived home w = p.arrived home w ++
      (if home w.dst = i then (p.router i).flowTo w.Sends re k else []) := by
  have hlt := (h.kept.oneHop.wf.routers _).routes _ k hfind
  rw [arrived_of_route (ht.route_stays h.kept hguard hfind), arrived_of_route hfind,
    ht.writtenOf hlt]

/-- Nothing arrives if the home forwards nothing. -/
theorem Advances.arrived_same (ht : Advances w.dst p q e i re) (h : p.Delivers home w)
    (hguard : p.OrderGuard home w e)
    (hwrites : home w.dst = i → ∀ d, (p.router i).flowTo w.Sends re d = []) :
    q.arrived home w = p.arrived home w := by
  cases hfind : (p.router (home w.dst)).registry.find w.dst with
  | some k =>
    rw [ht.arrived h hguard hfind]
    split
    · rename_i hi
      rw [hwrites hi k, List.append_nil]
    · rw [List.append_nil]
  | none =>
    rw [arrived_of_none hfind]
    cases hnew : (q.router (home w.dst)).registry.find w.dst with
    | none => exact arrived_of_none hnew
    -- Nothing has been written to the connection that is registered now.
    | some k =>
      rw [arrived_of_route hnew]
      by_contra hne
      have hold : (p.router (home w.dst)).registry.find w.dst = some k := by
        rcases ht.writtenOf_cases hne with hold | ⟨rfl, hflow⟩
        · exact (h.written k hold).1
        · exact (h.aim hflow).1
      rw [hfind] at hold
      cases hold

/-- A route that the sender's router learns in this step has nothing on its link yet. -/
theorem Advances.underWay_eq_nil (ht : Advances w.dst p q e i re) (h : p.Delivers home w)
    (hfind : (p.router w.router).registry.find w.dst = none) : q.underWay w = [] := by
  have hp := h.kept.oneHop.wf
  cases hnew : (q.router w.router).registry.find w.dst with
  | none => exact underWay_of_none hnew
  | some k =>
    cases hlink : q.link w.router k with
    | none => exact underWay_of_own hnew hlink
    | some x =>
      obtain ⟨j, c⟩ := x
      cases c with
      | none => simp only [underWay, hnew, hlink]
      | some l =>
        rw [underWay_of_link hnew hlink]
        have hhand : q.hand w j l = [] := by
          by_contra hne
          rcases ht.hand_cases hp hne with hold | ⟨-, f, hre, -⟩
          · rcases h.hands j l hold with ⟨rfl, -⟩ | ⟨-, m, hroute, -⟩
            · exact ((ht.wf hp).links _ k _ hlink).2 rfl
            · rw [hfind] at hroute
              cases hroute
          · rcases ht.find_new h.kept.oneHop hnew with hold | ⟨-, htick, -⟩
            · rw [hfind] at hold
              cases hold
            · rw [hre] at htick
              cases htick
        have hunread : q.unreadOf w w.router k = [] := by
          have hold : p.unreadOf w w.router k = [] := by
            by_contra hne
            have hroute := (h.unread _ k hne).2
            rw [hfind] at hroute
            cases hroute
          rcases ht.unreadOf_cases hp w w.router k with hgrow | ⟨_, _, _, _, _, _, hread⟩
          · rw [hgrow, hold, List.nil_append]
            split
            · rename_i hi
              by_contra hne
              have hroute := (h.aim hne).1
              rw [← hi.1, hfind] at hroute
              cases hroute
            · rfl
          · rw [hold] at hread
            cases hread
        rw [hhand, hunread, List.append_nil]

/-- The link of the route stays what it is. -/
theorem Advances.underWay_link (ht : Advances w.dst p q e i re) (h : p.Delivers home w)
    (hguard : p.OrderGuard home w e) {k l : ConnId}
    (hfind : (p.router w.router).registry.find w.dst = some k)
    (hlink : p.link w.router k = some ⟨home w.dst, some l⟩) :
    q.underWay w = q.hand w (home w.dst) l ++ q.unreadOf w w.router k := by
  obtain ⟨c, hc, hknown⟩ := ht.link_kept h.kept.oneHop.wf hlink
  exact underWay_of_link (ht.route_stays h.kept hguard hfind) (by rw [hc, hknown l rfl])

theorem Advances.underWay_own (ht : Advances w.dst p q e i re) (h : p.Delivers home w)
    (hguard : p.OrderGuard home w e) {k : ConnId}
    (hfind : (p.router w.router).registry.find w.dst = some k)
    (hlink : p.link w.router k = none) : q.underWay w = [] := by
  refine underWay_of_own (ht.route_stays h.kept hguard hfind) ?_
  cases hx : q.link w.router k with
  | none => rfl
  | some x =>
    obtain ⟨c, hc⟩ := ht.link_of_lt ((h.kept.oneHop.wf.routers _).routes _ k hfind) hx
    rw [hlink] at hc
    cases hc

/-- Nothing changes under way, if no message is read from the link or written to it and the thread
at its other end keeps what it has. -/
theorem Advances.underWay_same (ht : Advances w.dst p q e i re) (h : p.Delivers home w)
    (hguard : p.OrderGuard home w e)
    (hhand : ∀ k, p.Receives home w k → q.hand w (home w.dst) k = p.hand w (home w.dst) k)
    (hread : ∀ k f, re = .recv k f → w.Sends f → (p.router i).pc k = .loop →
      ∀ x, p.link i k ≠ some x)
    (hwrites : w.router = i → ∀ d, (p.link i d).isSome →
      (p.router i).flowTo w.Sends re d = []) :
    q.underWay w = p.underWay w := by
  cases hfind : (p.router w.router).registry.find w.dst with
  | none => rw [underWay_of_none hfind, ht.underWay_eq_nil h hfind]
  | some k =>
    rcases h.kept.route_cases hfind with ⟨hlink, -⟩ | ⟨l, hlink, -⟩
    · rw [underWay_of_own hfind hlink, ht.underWay_own h hguard hfind hlink]
    · rw [underWay_of_link hfind hlink, ht.underWay_link h hguard hfind hlink,
        hhand l ⟨k, hfind, hlink⟩]
      rcases ht.unreadOf_cases h.kept.oneHop.wf w w.router k with
        hgrow | ⟨t, f, hre, hf, hpc, hx, -⟩
      · rw [hgrow]
        split
        · rename_i hi
          rw [hwrites hi.1 k hi.2, List.append_nil]
        · rw [List.append_nil]
      · exact absurd hx (hread t f hre hf hpc _)

omit [DecidableEq ι] in
theorem sentBy_eq_nil (hacts : e.Acts i re)
    (h : ∀ k f, re = .recv k f → w.Sends f → p.link i k = none →
      ¬ (k < (p.router i).started ∧ (p.router i).pc k = .loop)) : p.sentBy w e = [] := by
  cases hacts with
  | router =>
    cases re with
    | recv k f =>
      refine if_neg ?_
      rintro ⟨hclient, hlt, hpc, hf⟩
      have hlink : p.link i k = none := by
        rw [RouterThreads.clientEvent_recv] at hclient
        simpa [isLink] using hclient.1
      exact h k f rfl hf hlink ⟨hlt, hpc⟩
    | _ => rfl
  | _ => rfl

omit [DecidableEq ι] in
theorem gaveUpBy_eq_nil (hacts : e.Acts i re)
    (h : ∀ k f, re = .tick k → (p.router i).pc k = .find f → w.Sends f →
      (p.router i).registry.find f.header.dest ≠ none) : p.gaveUpBy w e = [] := by
  cases hacts with
  | router =>
    cases re with
    | tick k =>
      simp only [gaveUpBy]
      split
      · rename_i f hpc
        exact if_neg fun hc => h k f rfl hpc hc.1 hc.2
      · rfl
    | _ => rfl
  | _ => rfl

/-- A message is read: from the client into the sender's line, or from the link. -/
theorem Advances.inLine_read (ht : Advances w.dst p q e i re) (h : p.Delivers home w)
    (hguard : p.OrderGuard home w e) {k : ConnId} {f : Frame} (hre : re = .recv k f)
    (hf : w.Sends f) (hk : k < (p.router i).started) (hpc : (p.router i).pc k = .loop)
    (hpc' : ((p.router i).step re).pc k = .find f)
    (hothers : ∀ j, j ≠ k →
      (((p.router i).step re).pc j).hand w.Sends = ((p.router i).pc j).hand w.Sends)
    (hwrites : ∀ d, (p.router i).flowTo w.Sends re d = []) :
    p.inLine home w ++ p.sentBy w e = q.inLine home w := by
  have harrived := ht.arrived_same h hguard fun _ => hwrites
  have hbefore : p.hand w i k = [] := by rw [hand, hpc]; rfl
  have hafter : q.hand w i k = [f] := by rw [ht.hand_self, hpc']; exact if_pos hf
  rcases ht.reader h hguard hre hf with ⟨rfl, rfl, hlink, rfl⟩ | ⟨rfl, l, hfind, hl, hlink, hread⟩
  · have hunder : q.underWay w = p.underWay w := by
      refine ht.underWay_same h hguard (fun j hj => ?_) (fun j g hj hg _ x hx => ?_)
        fun _ d _ => hwrites d
      · exact ht.hand_other (hj.ne h.kept.oneHop.wf) j
      · obtain ⟨rfl, -⟩ := RouterThreads.Event.recv.inj (hre.symm.trans hj)
        rw [hlink] at hx
        cases hx
    have hsent : p.sentBy w (.router w.router re) = [f] := by
      have hclient : clientEvent (p.isLink w.router) (.recv w.con f) = true := by
        have hdata := hf.1.1
        simp [isLink, hlink, hdata, MsgKind.isPeerProtocol]
      rw [hre]
      exact if_pos ⟨hclient, hk, hpc, hf⟩
    simp only [inLine, harrived, hunder, hsent, hbefore, hafter, List.append_nil]
  · have hne := (h.kept.oneHop.wf.links _ k _ hlink).2
    have hunder : q.underWay w = p.underWay w := by
      rw [underWay_of_link hfind hl, ht.underWay_link h hguard hfind hl, hread, hbefore, hafter]
      rfl
    have hsent : p.sentBy w e = [] := by
      refine sentBy_eq_nil ht.acts fun j g hj _ hnone => ?_
      obtain ⟨rfl, -⟩ := RouterThreads.Event.recv.inj (hre.symm.trans hj)
      rw [hlink] at hnone
      cases hnone
    simp only [inLine, harrived, hunder, hsent, ht.hand_other hne, List.append_nil]

/-- A message is given up. It is the first one in the line, because nothing has come through yet. -/
theorem Advances.inLine_lost (ht : Advances w.dst p q e i re) (h : p.Delivers home w)
    (hguard : p.OrderGuard home w e) {k : ConnId} {f : Frame} (hre : re = .tick k)
    (hf : w.Sends f) (hpc : (p.router i).pc k = .find f)
    (hfind : (p.router i).registry.find f.header.dest = none)
    (hpc' : (((p.router i).step re).pc k).hand w.Sends = [])
    (hwrites : ∀ d, (p.router i).flowTo w.Sends re d = []) :
    p.inLine home w = p.gaveUpBy w e ++ q.inLine home w := by
  have hbefore : p.hand w i k = [f] := by rw [hand, hpc]; exact if_pos hf
  have hafter : q.hand w i k = [] := by rw [ht.hand_self, hpc']
  have hgave : p.gaveUpBy w e = [f] := by
    have hacts := ht.acts
    subst hre
    cases hacts with
    | router => simp only [gaveUpBy, hpc, if_pos (And.intro hf hfind)]
  rw [hf.2.2] at hfind
  rcases h.hands i k (by rw [hbefore]; simp) with ⟨rfl, rfl⟩ | ⟨rfl, l, hroute, -⟩
  · have harrived := ht.arrived_same h hguard fun _ => hwrites
    simp only [inLine, harrived, h.arrived_eq_nil hfind, underWay_of_none hfind,
      ht.underWay_eq_nil h hfind, hbefore, hafter, hgave, List.append_nil, List.nil_append]
  -- The home has a route, because the sender's router has one.
  · exact absurd hfind (h.early (.route w.router (by rw [hroute]; simp)))

/-- A message is forwarded: to the link, or to the client at the home. -/
theorem Advances.inLine_passed (ht : Advances w.dst p q e i re) (h : p.Delivers home w)
    (hguard : p.OrderGuard home w e) {k x : ConnId} {f : Frame}
    (hf : w.Sends f) (hpc : (p.router i).pc k = .forward x f)
    (hpc' : ((p.router i).step re).pc k = .loop)
    (hwrites : ∀ d, (p.router i).flowTo w.Sends re d = if d = x then [f] else []) :
    q.inLine home w = p.inLine home w := by
  have hp := h.kept.oneHop.wf
  have hbefore : p.hand w i k = [f] := by rw [hand, hpc]; exact if_pos hf
  have hafter : q.hand w i k = [] := by rw [ht.hand_self, hpc']; rfl
  have hself : (p.router i).flowTo w.Sends re x = [f] := by rw [hwrites, if_pos rfl]
  have hroute := h.aims i k x f hpc hf
  rcases h.hands i k (by rw [hbefore]; simp) with ⟨rfl, rfl⟩ | ⟨rfl, l, hfind, hlink⟩
  · rcases h.kept.route_cases hroute with ⟨hlink, hhome⟩ | ⟨l, hlink, hhome⟩
    -- The sender's router is the home.
    · have harrived := ht.arrived h hguard (k := x) (by rw [hhome, hroute])
      rw [if_pos hhome, hself] at harrived
      simp only [inLine, harrived, underWay_of_own hroute hlink,
        ht.underWay_own h hguard hroute hlink, hbefore, hafter, List.append_nil]
    · have harrived := ht.arrived_same h hguard fun hi => absurd hi hhome
      have hunread : q.unreadOf w w.router x = p.unreadOf w w.router x ++ [f] := by
        rcases ht.unreadOf_cases hp w w.router x with hgrow | ⟨t, g, -, -, -, hx, -⟩
        · rw [hgrow, if_pos ⟨rfl, by rw [hlink]; rfl⟩, hself]
        -- No thread of this router reads the end of a link that is here.
        · exact absurd rfl (hp.links _ t _ hx).2
      simp only [inLine, harrived, underWay_of_link hroute hlink,
        ht.underWay_link h hguard hroute hlink, ht.hand_other hhome, hunread, hbefore, hafter,
        List.append_assoc, List.append_nil]
  · have hne : w.router ≠ home w.dst := (hp.links _ l _ hlink).2.symm
    have harrived := ht.arrived h hguard hroute
    rw [if_pos rfl, hself] at harrived
    have hunread : q.unreadOf w w.router l = p.unreadOf w w.router l := by
      rcases ht.unreadOf_cases hp w w.router l with hgrow | ⟨t, g, hre, -, -, -, -⟩
      · rw [hgrow, if_neg fun hi => hne hi.1, List.append_nil]
      -- The step is the one that forwards.
      · have hnone := RouterThreads.flowTo_of_not_tick (P := w.Sends)
          (s := p.router (home w.dst)) (e := re) (by simp [hre]) x
        rw [hself] at hnone
        cases hnone
    simp only [inLine, harrived, underWay_of_link hfind hlink,
      ht.underWay_link h hguard hfind hlink, ht.hand_other hne, hunread, hbefore, hafter,
      List.append_assoc, List.nil_append]

/-- The law of one step. -/
theorem Advances.inLine (ht : Advances w.dst p q e i re) (h : p.Delivers home w)
    (hguard : p.OrderGuard home w e) :
    p.inLine home w ++ p.sentBy w e = p.gaveUpBy w e ++ q.inLine home w := by
  have hp := h.kept.oneHop.wf
  cases hp.flowStep w i re with
  | idle hands hwrites hnotRead hnotLost =>
    have hsame : ∀ j k, q.hand w j k = p.hand w j k := by
      intro j k
      by_cases hj : j = i
      · subst hj
        exact (ht.hand_self k).trans (hands k)
      · exact ht.hand_other hj k
    have hunder : q.underWay w = p.underWay w := by
      refine ht.underWay_same h hguard (fun k _ => hsame _ k) (fun k f hre hf hpc x hx => ?_)
        fun _ d _ => hwrites d
      exact hnotRead k f hre hf ⟨(hp.links i k x hx).1, hpc⟩
    rw [sentBy_eq_nil ht.acts fun k f hre hf _ => hnotRead k f hre hf,
      gaveUpBy_eq_nil ht.acts hnotLost, List.append_nil, List.nil_append]
    simp only [RouterMesh.inLine, ht.arrived_same h hguard fun _ => hwrites, hunder, hsame]
  | read k f hre hf hk hpc hpc' hothers hwrites =>
    rw [gaveUpBy_eq_nil ht.acts (by simp [hre]), List.nil_append]
    exact ht.inLine_read h hguard hre hf hk hpc hpc' hothers hwrites
  | lost k f hre hf hpc hfind hpc' _ hwrites =>
    rw [sentBy_eq_nil ht.acts (by simp [hre]), List.append_nil]
    exact ht.inLine_lost h hguard hre hf hpc hfind hpc' hwrites
  | passed k x f hre hf hpc hpc' _ hwrites =>
    have hgave : p.gaveUpBy w e = [] := by
      refine gaveUpBy_eq_nil ht.acts fun j g hj hg _ => ?_
      obtain rfl := RouterThreads.Event.tick.inj (hre.symm.trans hj)
      rw [hpc] at hg
      cases hg
    rw [sentBy_eq_nil ht.acts (by simp [hre]), hgave, List.append_nil, List.nil_append]
    exact (ht.inLine_passed h hguard hf hpc hpc' hwrites).symm

end

section
variable [DecidableEq ι]

theorem delivers_step (home : MailboxId → ι) (w : Sender ι) (p : RouterMesh ι) (e : Event ι)
    (h : p.Delivers home w)
    (he : (p.InOrder w.dst e ∧ p.OrderGuard home w e) ∧ HomeEvent home e) :
    (p.step e).Delivers home w := by
  rcases advances_cases h.kept.oneHop.wf he.1.1 with ⟨hs, -⟩ | ⟨i, re, ht⟩
  · rw [hs]
    exact h
  · exact ht.delivers h he.1.2 he.2

/-- The law of one step. -/
theorem inLine_step (home : MailboxId → ι) (w : Sender ι) (p : RouterMesh ι) (e : Event ι)
    (h : p.Delivers home w)
    (he : (p.InOrder w.dst e ∧ p.OrderGuard home w e) ∧ HomeEvent home e) :
    p.inLine home w ++ p.sentBy w e = p.gaveUpBy w e ++ (p.step e).inLine home w := by
  rcases advances_cases h.kept.oneHop.wf he.1.1 with ⟨hs, hblocked⟩ | ⟨i, re, ht⟩
  -- What is not enabled reads nothing and gives nothing up.
  · have hsent : p.sentBy w e = [] := by
      unfold sentBy
      split
      · rename_i i k f
        refine if_neg fun hc => ?_
        rw [hblocked i _ rfl] at hc
        cases hc.1
      · rfl
    have hgave : p.gaveUpBy w e = [] := by
      unfold gaveUpBy
      split
      · rename_i i k
        cases hblocked i _ rfl
      · rfl
    rw [hsent, hgave, hs, List.append_nil, List.nil_append]
  · exact ht.inLine h he.1.2

omit [DecidableEq ι] in
theorem delivers_init (home : MailboxId → ι) (w : Sender ι) (up : ι → MailboxId → Bool) :
    (init up).Delivers home w where
  kept := kept_init home w.dst up
  early h := by
    rcases h with ⟨i, hmem | ⟨k, hpc | ⟨ids, hpc, -⟩⟩⟩ | ⟨i, k, f, hf⟩ | ⟨i, k, hpc⟩ | ⟨i, hfind⟩
    · cases hmem
    · cases hpc
    · cases hpc
    · cases hf
    · cases hpc
    · exact absurd rfl hfind
  hands i k h := absurd rfl h
  aims i k d f h := by cases h
  unread i k h := absurd rfl h
  written k h := absurd rfl h

/-! ### Runs -/

/-- **In order, and once.** Take a run of any number of routers in which a mailbox is registered
only by clients of its home, the links are read in order and do not end, `dst` is not deleted and
the connection it is registered for does not end. The messages that the client of `con` has sent
from `src` to `dst` are the ones that were given up, then the ones that have arrived, then the ones
under way, then the one that the client's thread has in its hand. Once nothing is under way, the
messages that were not given up have arrived. -/
theorem in_order (home : MailboxId → ι) (up : ι → MailboxId → Bool) (w : Sender ι)
    (es : List (Event ι)) (hhome : ∀ e ∈ es, HomeEvent home e)
    (hguard : AllSteps step (fun p e => p.InOrder w.dst e ∧ p.OrderGuard home w e) (init up) es) :
    trace step (sentBy w) (init up) es =
        trace step (gaveUpBy w) (init up) es ++
          ((runFrom step (init up) es).arrived home w ++ (runFrom step (init up) es).underWay w ++
            (runFrom step (init up) es).hand w w.router w.con) ∧
      ((runFrom step (init up) es).Settled →
        trace step (sentBy w) (init up) es =
          trace step (gaveUpBy w) (init up) es ++ (runFrom step (init up) es).arrived home w) := by
  have hall := hguard.and_forall hhome
  have hrun := line (inLine home w) (sentBy w) (gaveUpBy w) (delivers_step home w)
    (inLine_step home w) (delivers_init home w up) hall
  have hinv := (allStates_of_allSteps (delivers_step home w) (delivers_init home w up) hall).last
  have hempty : (init up).inLine home w = [] := rfl
  rw [hempty, List.nil_append] at hrun
  refine ⟨hrun, fun hsettled => ?_⟩
  generalize runFrom step (init up) es = p at *
  have hhand : ∀ i k, p.hand w i k = [] := by
    intro i k
    rcases hsettled.1 i with ⟨-, hpc⟩
    rcases hpc k with hpc | hpc <;> simp [hand, hpc, Pc.hand]
  have hunder : p.underWay w = [] := by
    cases hfind : (p.router w.router).registry.find w.dst with
    | none => exact underWay_of_none hfind
    | some k =>
      rcases hinv.kept.route_cases hfind with ⟨hlink, -⟩ | ⟨l, hlink, -⟩
      · exact underWay_of_own hfind hlink
      · rw [underWay_of_link hfind hlink, hhand, unreadOf, hsettled.2]
        rfl
  rw [hrun, inLine, hunder, hhand, List.append_nil, List.append_nil]

/-- The `n`-th message for mailbox 7 from mailbox 9. -/
def numbered (n : UInt8) : Frame := ⟨makeFrame 0 7 9 0 0 1, [n], rfl⟩

/-- A client of router `a` registers mailbox 7, and a client of router `b` sends three messages to
it. When the first one comes, router `b` has no route. The other two cross the link. -/
def threeMessages {ι : Type} (a b : ι) : List (Event ι) :=
  [.router a (.start false), .router a .insert,
    .router a (.recv 0 (.ofMbx MSG_ROUTER_MBX_INIT_WITH_REPLY 7)),
    .router a (.tick 0), .router a (.tick 0), .router a (.tick 0), .router a (.tick 0),
    .router a (.tick 0),
    .router b (.start false), .router b .insert, .router b (.recv 0 (numbered 1)),
    .router b (.tick 0), .router b (.tick 0), .router b (.tick 0),
    .connect a b, .router a .insert, .router a (.tick 1), .router a (.snapshot 1 [7]),
    .router a (.tick 1), .router a (.tick 1),
    .acceptLink b a 1, .router b .insert, .deliver b 1 0, .router b (.tick 1),
    .router b (.snapshot 1 []), .router b (.tick 1), .deliver b 1 0, .router b (.tick 1),
    .router b (.recv 0 (numbered 2)), .router b (.tick 0), .router b (.tick 0),
    .router b (.recv 0 (numbered 3)), .router b (.tick 0), .router b (.tick 0),
    .deliver a 1 0, .deliver a 1 0, .router a (.tick 1), .router a (.tick 1),
    .deliver a 1 0, .router a (.tick 1), .router a (.tick 1)]

/-- The first message is given up, and the second and the third one arrive. -/
theorem in_order_threeMessages :
    trace step (sentBy ⟨1, 0, 9, 7⟩) (init fun _ _ => false) (threeMessages (0 : Fin 2) 1) =
        trace step (gaveUpBy ⟨1, 0, 9, 7⟩) (init fun _ _ => false) (threeMessages (0 : Fin 2) 1) ++
          (runFrom step (init fun _ _ => false) (threeMessages (0 : Fin 2) 1)).arrived (fun _ => 0)
            ⟨1, 0, 9, 7⟩ ∧
      trace step (gaveUpBy ⟨1, 0, 9, 7⟩) (init fun _ _ => false) (threeMessages (0 : Fin 2) 1) =
        [numbered 1] ∧
      (runFrom step (init fun _ _ => false) (threeMessages (0 : Fin 2) 1)).arrived (fun _ => 0)
        ⟨1, 0, 9, 7⟩ = [numbered 2, numbered 3] := by
  have hhome : ∀ e ∈ threeMessages (0 : Fin 2) 1, HomeEvent (fun _ => 0) e := by decide +kernel
  have hguard : AllSteps step (fun p e => p.InOrder 7 e ∧
      p.OrderGuard (fun _ => 0) ⟨1, 0, 9, 7⟩ e) (init fun _ _ => false)
      (threeMessages (0 : Fin 2) 1) := by
    decide +kernel
  have hinv := (allStates_of_allSteps (delivers_step (fun _ => 0) ⟨1, 0, 9, 7⟩)
    (delivers_init _ _ fun _ _ => false) (hguard.and_forall hhome)).last
  have hsettled := hinv.kept.oneHop.wf.settled (by decide +kernel) (by decide +kernel)
  exact ⟨(in_order (fun _ => 0) (fun _ _ => false) ⟨1, 0, 9, 7⟩ (threeMessages 0 1) hhome hguard).2
    hsettled, by decide +kernel, by decide +kernel⟩

end

end RouterMesh

end CoreRaT.Spec
