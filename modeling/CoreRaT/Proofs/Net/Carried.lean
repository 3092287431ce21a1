import CoreRaT.Proofs.Net.Hops

/-!
# `CoreRaT.Proofs.Net.Carried`: a frame on its way through a network

The reply is at one place. Either it is unread at one endpoint that is still read (`Carries`), or it
has been delivered and no frame has the mark (`Unmarked`), or it will not be read any more (`Lost`).
`outcome_handleReply` is the router that handles it, `Carries.fate` is any step of the network, and
`Carries.run` is a run: the reply is delivered or still on its way exactly when every step `Passes`.
-/

set_option autoImplicit false

namespace CoreRaT.Spec

open CoreRaT.Lib

/-! ### The reply among the unread frames -/

namespace RouterNet

open TcpRouter (Endpoint arrival)

variable {ι : Type}

/-- The unread frames with the mark. -/
def marked (s : RouterNet ι) (j : ι) (q : Endpoint) : List Unread :=
  (s.unread j q).filter (·.isReply)

/-- The reply has not been sent, or has left the network. -/
def Unmarked (s : RouterNet ι) : Prop := ∀ j q, s.marked j q = []

/-- The reply will not be read any more. -/
def Lost (s : RouterNet ι) : Prop :=
  ∀ j q, s.marked j q ≠ [] → (s.router j).hasEnded q = true

/-- The reply is on its way to one endpoint, which is still read. -/
structure Carries (reply : Frame) (s : RouterNet ι) (j : ι) (q : Endpoint) : Prop where
  here : s.marked j q = [⟨reply, true⟩]
  elsewhere : ∀ j' q', (j', q') ≠ (j, q) → s.marked j' q' = []
  notEnded : (s.router j).hasEnded q = false

theorem Unmarked.lost {s : RouterNet ι} (h : s.Unmarked) : s.Lost :=
  fun j q hmarked => absurd (h j q) hmarked

theorem Carries.inFlight {reply : Frame} {s : RouterNet ι} {j : ι} {q : Endpoint}
    (h : s.Carries reply j q) : s.InFlight := by
  have hmem : ⟨reply, true⟩ ∈ s.marked j q := by simp [h.here]
  exact ⟨j, q, _, (List.mem_filter.mp hmem).1, rfl, h.notEnded⟩

theorem Lost.not_inFlight {s : RouterNet ι} (h : s.Lost) : ¬ s.InFlight := by
  rintro ⟨j, q, m, hm, hreply, hopen⟩
  have hmem : m ∈ s.marked j q := List.mem_filter.mpr ⟨hm, hreply⟩
  rw [h j q (List.ne_nil_of_mem hmem)] at hopen
  cases hopen

/-- The connections between two routers work: what is written to an open one arrives. -/
def LinksWork (s : RouterNet ι) : Prop :=
  ∀ i p, (s.far i p).isSome = true → ∀ socket, (s.router i).socketAt p = some socket →
    socket.Steady

variable [DecidableEq ι]

theorem hasEnded_advance (s : RouterNet ι) (i : ι) (e : TcpRouter.Event) (way : Option Endpoint)
    (j : ι) (q : Endpoint) :
    ((s.advance i e way).router j).hasEnded q = true ↔ (s.router j).hasEnded q = true ∨
      ∃ ev, some (i, e) = some (j, ev) ∧ (s.router j).endedBy ev = some q := by
  rw [router_advance]
  split
  · rename_i hj
    subst hj
    simpa using (s.router j).hasEnded_step e q
  · rename_i hj
    simp [Ne.symm hj]

/-- A step that does not handle the reply marks nothing. -/
theorem marked_advance_none (s : RouterNet ι) (i : ι) (e : TcpRouter.Event) (j : ι) (q : Endpoint) :
    (s.advance i e none).marked j q = s.marked j q := by
  simp only [marked, advance, List.filter_append]
  cases s.far j q with
  | none => simp
  | some x =>
    simp only
    split <;> simp

/-- The reply is marked where it arrives. -/
theorem marked_handleReply {s : RouterNet ι} {i : ι} {q : Endpoint} {f : Frame}
    (hreads : (s.router i).reads q = true) (hkind : f.header.kind = .data)
    {j : ι} {q' p : Endpoint} (hfar : s.far j q' = some (i, p))
    (hway : (s.router i).wayOn q f = some p) {socket : TcpSocket}
    (hsocket : (s.router i).socketAt p = some socket) (htakes : socket.TakesFrame f) :
    (s.handleReply i q f).marked j q' = s.marked j q' ++ [⟨f, true⟩] := by
  have hwritten := (TcpRouter.writtenAt_arrival_iff hreads hkind hway).mpr ⟨socket, hsocket, htakes⟩
  simp [marked, handleReply, advance, hfar, hway, hwritten, framesSince_encode]

/-- Elsewhere nothing is marked. -/
theorem marked_handleReply_of_not {s : RouterNet ι} (hlinks : s.LinksWork) {i : ι} {q : Endpoint}
    {f : Frame} (hreads : (s.router i).reads q = true) (hkind : f.header.kind = .data)
    {j : ι} {q' : Endpoint}
    (hnot : ∀ p socket, s.far j q' = some (i, p) → (s.router i).wayOn q f = some p →
      (s.router i).socketAt p = some socket → ¬ socket.TakesFrame f) :
    (s.handleReply i q f).marked j q' = s.marked j q' := by
  simp only [marked, handleReply, advance, List.filter_append]
  cases hfar : s.far j q' with
  | none => simp
  | some x =>
    obtain ⟨i', p⟩ := x
    simp only
    split
    · rename_i hi
      subst hi
      by_cases hway : (s.router i').wayOn q f = some p
      · -- The way leads here, but the socket does not take the frame. It works, so it is closed.
        have hsame : ((s.router i').step (arrival q f)).writtenAt p =
            (s.router i').writtenAt p := by
          simp only [TcpRouter.writtenAt, TcpRouter.socketAt_arrival hreads hkind hway]
          cases hsocket : (s.router i').socketAt p with
          | none => rfl
          | some socket =>
            have hsteady := hlinks i' p (by simp [s.far_symm hfar]) socket hsocket
            have hclosed := (hsteady.takesFrame_or_closed f).resolve_left
              (hnot p socket hfar hway hsocket)
            simp [TcpSocket.sendFrame_of_closed hclosed]
        simp [hsame, framesSince_self]
      · have hmark : ((s.router i').wayOn q f == some p) = false := by simpa using hway
        simp [hmark]
    · simp

/-! ### What becomes of the reply in one step -/

/-- What is sent on at the endpoint `p` of router `i` does not get lost: it arrives at an endpoint
of another router that is still read, or it goes to connection `k` of router `l`. -/
def LeadsOn (l : ι) (k : ConnId) (s : RouterNet ι) (i : ι) (p : Endpoint) : Prop :=
  match s.far i p with
  | some (j, q) => (s.router j).hasEnded q = false
  | none => i = l ∧ p = .connection k

/-- Router `i` has a way for a frame from its endpoint `q`: the frame is sent on, the socket takes
it, and from there it goes on. -/
def HasWay (l : ι) (k : ConnId) (s : RouterNet ι) (i : ι) (q : Endpoint) (f : Frame) : Prop :=
  ∃ p socket, (s.router i).wayOn q f = some p ∧ (s.router i).socketAt p = some socket ∧
    socket.TakesFrame f ∧ s.LeadsOn l k i p

/-- Client `a` has registered on connection `k` of router `l`. -/
structure ClientAt (a : MailboxId) (l : ι) (k : ConnId) (s : RouterNet ι) : Prop where
  find : (s.router l).find a = some k
  live : (s.router l).isLive k = true
  /-- The connection leads to no other router. -/
  far : s.far l (.connection k) = none

/-- The three outcomes when router `i` handles the reply, from `s` to `t`. -/
inductive Outcome (l : ι) (k : ConnId) (reply : Frame) (s : RouterNet ι) (i : ι) (q : Endpoint)
    (t : RouterNet ι) : Prop
  /-- It is on its way to another router. -/
  | carried {j : ι} {q' : Endpoint} (hway : s.HasWay l k i q reply) (hi : i ≠ l)
      (hcarries : t.Carries reply j q')
  /-- It has been delivered. -/
  | delivered (hway : s.HasWay l k i q reply) (hi : i = l) (hwritten : WritesReply l k reply s t)
      (hnone : t.Unmarked)
  /-- It is lost. -/
  | lost (hway : ¬ s.HasWay l k i q reply) (hwritten : ¬ (i = l ∧ WritesReply l k reply s t))
      (hlost : t.Lost)

section

variable {s : RouterNet ι} {l : ι} {k : ConnId} {reply : Frame} {i : ι} {q : Endpoint}

/-- Without a way to another router, no frame is marked. -/
theorem unmarked_handleReply (hlinks : s.LinksWork) (hunmarked : s.Unmarked)
    (hkind : reply.header.kind = .data) (hreads : (s.router i).reads q = true)
    (hnot : ∀ p socket, (s.router i).wayOn q reply = some p →
      (s.router i).socketAt p = some socket → socket.TakesFrame reply → s.far i p = none) :
    (s.handleReply i q reply).Unmarked := by
  intro j q'
  rw [marked_handleReply_of_not hlinks hreads hkind, hunmarked j q']
  intro p socket hfar hway hsocket htakes
  have hnone := hnot p socket hway hsocket htakes
  rw [s.far_symm hfar] at hnone
  cases hnone

/-- At the router of the client, the reply is delivered or lost. -/
theorem outcome_at_client (hlinks : s.LinksWork) (hunmarked : s.Unmarked)
    (hkind : reply.header.kind = .data) (hclient : s.ClientAt reply.header.dest l k)
    (hreads : (s.router l).reads q = true) :
    s.Outcome l k reply l q (s.handleReply l q reply) := by
  have hrouter : ((s.handleReply l q reply).router l) = (s.router l).step (arrival q reply) := by
    simp [handleReply, router_advance]
  by_cases hsize : (s.router l).maxMsgSize < reply.header.bodyLen.toNat
  · have hway : (s.router l).wayOn q reply = none := by simp [TcpRouter.wayOn, hsize]
    refine .lost ?_ ?_ (unmarked_handleReply hlinks hunmarked hkind hreads ?_).lost
    · rintro ⟨p, socket, hp, -⟩
      rw [hway] at hp
      cases hp
    · rintro ⟨-, hwritten⟩
      rw [WritesReply, hrouter, TcpRouter.writtenAt_oversized _ q hsize,
        List.self_eq_append_right] at hwritten
      exact reply.encode_ne_nil hwritten
    · intro p socket hp
      rw [hway] at hp
      cases hp
  · have hway : (s.router l).wayOn q reply = some (.connection k) := by
      simp [TcpRouter.wayOn, hsize, hclient.find]
    have hnone : (s.handleReply l q reply).Unmarked := by
      refine unmarked_handleReply hlinks hunmarked hkind hreads ?_
      intro p socket hp _ _
      rw [hway, Option.some.injEq] at hp
      rw [← hp]
      exact hclient.far
    have hwritten : WritesReply l k reply s (s.handleReply l q reply) ↔
        ∃ socket, (s.router l).socketAt (.connection k) = some socket ∧
          socket.TakesFrame reply := by
      rw [WritesReply, hrouter]
      exact TcpRouter.writtenAt_arrival_iff hreads hkind hway
    by_cases htakes : ∃ socket, (s.router l).socketAt (.connection k) = some socket ∧
        socket.TakesFrame reply
    · obtain ⟨socket, hsocket, htake⟩ := htakes
      refine .delivered ⟨_, socket, hway, hsocket, htake, ?_⟩ rfl (hwritten.mpr ⟨_, hsocket, htake⟩)
        hnone
      simp [LeadsOn, hclient.far]
    · refine .lost ?_ (fun h => htakes (hwritten.mp h.2)) hnone.lost
      rintro ⟨p, socket, hp, hsocket, htake, -⟩
      rw [hway, Option.some.injEq] at hp
      subst hp
      exact htakes ⟨socket, hsocket, htake⟩

/-- A reply that another router does not write to a connection between routers is lost. -/
theorem outcome_of_not_written (hlinks : s.LinksWork) (hunmarked : s.Unmarked)
    (hkind : reply.header.kind = .data) (hreads : (s.router i).reads q = true) (hil : i ≠ l)
    (hnot : ∀ p socket, (s.router i).wayOn q reply = some p →
      (s.router i).socketAt p = some socket → socket.TakesFrame reply → s.far i p = none) :
    s.Outcome l k reply i q (s.handleReply i q reply) := by
  refine .lost ?_ (fun h => hil h.1)
    (unmarked_handleReply hlinks hunmarked hkind hreads hnot).lost
  rintro ⟨p, socket, hp, hsocket, htakes, hleads⟩
  simp only [LeadsOn, hnot p socket hp hsocket htakes] at hleads
  exact hil hleads.1

/-- A reply that is written to a connection between routers is at the other end of it, and nowhere
else. It is lost if nobody reads there. -/
theorem outcome_of_written (hlinks : s.LinksWork) (hunmarked : s.Unmarked)
    (hkind : reply.header.kind = .data) (hreads : (s.router i).reads q = true) (hil : i ≠ l)
    {p q' : Endpoint} {j : ι} {socket : TcpSocket} (hp : (s.router i).wayOn q reply = some p)
    (hsocket : (s.router i).socketAt p = some socket) (htakes : socket.TakesFrame reply)
    (hfar : s.far i p = some (j, q')) :
    s.Outcome l k reply i q (s.handleReply i q reply) := by
  have hhere : (s.handleReply i q reply).marked j q' = [⟨reply, true⟩] := by
    rw [marked_handleReply hreads hkind (s.far_symm hfar) hp hsocket htakes, hunmarked,
      List.nil_append]
  have helse : ∀ j₁ q₁, (j₁, q₁) ≠ (j, q') → (s.handleReply i q reply).marked j₁ q₁ = [] := by
    intro j₁ q₁ hne
    rw [marked_handleReply_of_not hlinks hreads hkind, hunmarked]
    intro p₁ _ hfar₁ hp₁ _ _
    rw [hp, Option.some.injEq] at hp₁
    subst hp₁
    rw [s.far_symm hfar₁, Option.some.injEq] at hfar
    exact hne hfar
  have hended : ((s.handleReply i q reply).router j).hasEnded q' = (s.router j).hasEnded q' := by
    refine Bool.eq_iff_iff.mpr ((hasEnded_advance s i _ _ j q').trans (or_iff_left ?_))
    rintro ⟨ev, heq, hends⟩
    cases heq
    rw [TcpRouter.endedBy_arrival hp] at hends
    cases hends
  cases hopen : (s.router j).hasEnded q' with
  | false =>
    refine .carried ⟨p, socket, hp, hsocket, htakes, ?_⟩ hil ⟨hhere, helse, hended.trans hopen⟩
    simpa only [LeadsOn, hfar] using hopen
  | true =>
    refine .lost ?_ (fun h => hil h.1) ?_
    · rintro ⟨p₁, _, hp₁, -, -, hleads⟩
      rw [hp, Option.some.injEq] at hp₁
      subst hp₁
      simp only [LeadsOn, hfar, hopen] at hleads
      cases hleads
    · intro j₁ q₁ hmarked
      by_cases heq : (j₁, q₁) = (j, q')
      · cases heq
        exact hended.trans hopen
      · exact absurd (helse j₁ q₁ heq) hmarked

/-- At another router, the reply is sent on or lost. -/
theorem outcome_elsewhere (hlinks : s.LinksWork) (hunmarked : s.Unmarked)
    (hkind : reply.header.kind = .data) (hreads : (s.router i).reads q = true) (hil : i ≠ l) :
    s.Outcome l k reply i q (s.handleReply i q reply) := by
  by_cases hwritten : ∃ p socket x, (s.router i).wayOn q reply = some p ∧
      (s.router i).socketAt p = some socket ∧ socket.TakesFrame reply ∧ s.far i p = some x
  · obtain ⟨p, socket, ⟨j, q'⟩, hp, hsocket, htakes, hfar⟩ := hwritten
    exact outcome_of_written hlinks hunmarked hkind hreads hil hp hsocket htakes hfar
  · refine outcome_of_not_written hlinks hunmarked hkind hreads hil ?_
    intro p socket hp hsocket htakes
    refine Option.eq_none_iff_forall_ne_some.mpr fun x hfar => ?_
    exact hwritten ⟨p, socket, x, hp, hsocket, htakes, hfar⟩

/-- **One router.** The reply is delivered, on its way to another router, or lost. It is lost
exactly when there is no way for it. -/
theorem outcome_handleReply (hlinks : s.LinksWork) (hunmarked : s.Unmarked)
    (hkind : reply.header.kind = .data) (hclient : s.ClientAt reply.header.dest l k)
    (hreads : (s.router i).reads q = true) :
    s.Outcome l k reply i q (s.handleReply i q reply) := by
  by_cases hil : i = l
  · subst hil
    exact outcome_at_client hlinks hunmarked hkind hclient hreads
  · exact outcome_elsewhere hlinks hunmarked hkind hreads hil

end

/-! ### One step -/

/-- The step of a router that the event is, if it is enabled. -/
def routerEvent (s : RouterNet ι) : Event ι → Option (ι × TcpRouter.Event)
  | .own i e => if s.readsRouter i e then none else some (i, e)
  | .read j q =>
    match s.unread j q with
    | [] => none
    | m :: _ => if (s.router j).reads q then some (j, arrival q m.frame) else none

/-- No endpoint at which the reply is unread stops being read. -/
def KeepsReply (s : RouterNet ι) (e : Event ι) : Prop :=
  ∀ i ev q, s.routerEvent e = some (i, ev) → (s.router i).endedBy ev = some q →
    ∀ m ∈ s.unread i q, m.isReply = false

/-- The guard of a step. If a router handles the reply, it has a way for it; otherwise the reply
stays where it is. -/
def Passes (l : ι) (k : ConnId) (s : RouterNet ι) (e : Event ι) : Prop :=
  (∀ i q f, s.replyHandled e = some (i, q, f) → s.HasWay l k i q f) ∧ s.KeepsReply e

section

variable {s : RouterNet ι} {e : Event ι} {i j : ι} {q q' : Endpoint} {f : Frame}

theorem marked_dequeue_of_ne (h : (j, q') ≠ (i, q)) :
    (s.dequeue i q).marked j q' = s.marked j q' := by
  have hne : ¬ (j = i ∧ q' = q) := fun heq => h (by rw [heq.1, heq.2])
  simp only [marked, dequeue, if_neg hne]

/-- A step that handles the reply. -/
theorem step_of_replyHandled (h : s.replyHandled e = some (i, q, f)) :
    (s.router i).reads q = true ∧
      s.marked i q = ⟨f, true⟩ :: (s.dequeue i q).marked i q ∧
      s.routerEvent e = some (i, arrival q f) ∧
      s.step e = (s.dequeue i q).handleReply i q f := by
  cases e with
  | own i e => cases h
  | read j q' =>
    cases hunread : s.unread j q' with
    | nil => simp [replyHandled, hunread] at h
    | cons m rest =>
      simp only [replyHandled, hunread, Option.ite_none_right_eq_some, Option.some.injEq,
        Prod.mk.injEq] at h
      obtain ⟨⟨hreads, hreply⟩, rfl, rfl, rfl⟩ := h
      refine ⟨hreads, ?_, ?_, ?_⟩
      · obtain ⟨frame, isReply⟩ := m
        obtain rfl : isReply = true := hreply
        simp [marked, dequeue, hunread]
      · simp [routerEvent, hunread, hreads]
      · simp [step, hunread, hreads, hreply]

/-- Any other step leaves the marks where they are. -/
theorem marked_step_of_none (h : s.replyHandled e = none) (j : ι) (q : Endpoint) :
    (s.step e).marked j q = s.marked j q := by
  cases e with
  | own i e =>
    simp only [step]
    split
    · rfl
    · exact s.marked_advance_none i e j q
  | read j' q' =>
    cases hunread : s.unread j' q' with
    | nil => simp [step, hunread]
    | cons m rest =>
      simp only [step, hunread]
      split
      · rename_i hreads
        cases hreply : m.isReply with
        | true => simp [replyHandled, hunread, hreads, hreply] at h
        | false =>
          -- The frame that has been read had no mark.
          rw [if_neg (by simp), marked_advance_none]
          by_cases heq : (j, q) = (j', q')
          · cases heq
            simp [marked, dequeue, hunread, hreply]
          · exact marked_dequeue_of_ne heq
      · rfl

/-- What is no longer read after a step. -/
theorem hasEnded_step (s : RouterNet ι) (e : Event ι) (j : ι) (q : Endpoint) :
    ((s.step e).router j).hasEnded q = true ↔ (s.router j).hasEnded q = true ∨
      ∃ ev, s.routerEvent e = some (j, ev) ∧ (s.router j).endedBy ev = some q := by
  cases e with
  | own i e =>
    simp only [step, routerEvent]
    split
    · simp
    · exact s.hasEnded_advance i e none j q
  | read j' q' =>
    cases hunread : s.unread j' q' with
    | nil => simp [step, routerEvent, hunread]
    | cons m rest =>
      simp only [step, routerEvent, hunread]
      split
      · split <;> exact (s.dequeue j' q').hasEnded_advance j' (arrival q' m.frame) _ j q
      · simp

end

section

variable {s : RouterNet ι} {l : ι} {k : ConnId} {reply : Frame}

theorem not_hasEnded_of_reads {r : TcpRouter} {q : Endpoint} (h : r.reads q = true) :
    r.hasEnded q = false := by
  cases q with
  | connection k =>
    simp only [TcpRouter.reads, TcpRouter.isLive, TcpRouter.hasEnded] at h ⊢
    cases hc : r.connections[k]? with
    | none => rfl
    | some c => simpa [hc] using h
  | system i => simpa [TcpRouter.reads, TcpRouter.hasEnded] using h
  | upstream => simpa [TcpRouter.reads, TcpRouter.hasEnded] using h

/-- A reply that is lost stays lost. -/
theorem lost_step (l : ι) (k : ConnId) (reply : Frame) (h : s.Lost) (e : Event ι) :
    ¬ s.Delivers l k reply e ∧ (s.step e).Lost := by
  have hhandled : s.replyHandled e = none := by
    rw [Option.eq_none_iff_forall_not_mem]
    rintro ⟨i, q, f⟩ hmem
    obtain ⟨hreads, hmarked, -, -⟩ := step_of_replyHandled hmem
    have hended := h i q (by simp [hmarked])
    rw [not_hasEnded_of_reads hreads] at hended
    cases hended
  constructor
  · rintro ⟨⟨q, hq⟩, -⟩
    rw [hhandled] at hq
    cases hq
  · intro j q hmarked
    rw [marked_step_of_none hhandled] at hmarked
    exact (s.hasEnded_step e j q).mpr (Or.inl (h j q hmarked))

/-- Once it is delivered, no step handles it. -/
theorem unmarked_step (l : ι) (k : ConnId) (h : s.Unmarked) (e : Event ι) :
    s.Passes l k e ∧ (s.step e).Unmarked := by
  have hhandled : s.replyHandled e = none := by
    rw [Option.eq_none_iff_forall_not_mem]
    rintro ⟨i, q, f⟩ hmem
    have hmarked := (step_of_replyHandled hmem).2.1
    rw [h i q] at hmarked
    cases hmarked
  refine ⟨⟨?_, ?_⟩, ?_⟩
  · intro i q f hsome
    rw [hhandled] at hsome
    cases hsome
  · intro i ev q _ _ m hm
    exact Bool.eq_false_iff.mpr fun hreply =>
      List.ne_nil_of_mem (List.mem_filter.mpr ⟨hm, hreply⟩) (h i q)
  · intro j q
    rw [marked_step_of_none hhandled, h j q]

/-- What a step does with a reply that is on its way. -/
inductive Fate (l : ι) (k : ConnId) (reply : Frame) (s : RouterNet ι) (e : Event ι) : Prop
  | carried (j : ι) (q : Endpoint) (hpasses : s.Passes l k e) (hnot : ¬ s.Delivers l k reply e)
      (hcarries : (s.step e).Carries reply j q)
  | delivered (hpasses : s.Passes l k e) (hdelivers : s.Delivers l k reply e)
      (hnone : (s.step e).Unmarked)
  | lost (hpasses : ¬ s.Passes l k e) (hnot : ¬ s.Delivers l k reply e) (hlost : (s.step e).Lost)

/-- The step handles the reply. -/
theorem Carries.fate_of_replyHandled {j : ι} {q : Endpoint} (h : s.Carries reply j q)
    (hkind : reply.header.kind = .data) (hlinks : s.LinksWork)
    (hclient : s.ClientAt reply.header.dest l k) {e : Event ι} {i : ι} {q' : Endpoint} {f : Frame}
    (hhandled : s.replyHandled e = some (i, q', f)) : s.Fate l k reply e := by
  obtain ⟨hreads, hmarked, hevent, hstep⟩ := step_of_replyHandled hhandled
  -- It is the reply, and none is left.
  have hat : (i, q') = (j, q) := by
    by_contra hne
    rw [h.elsewhere i q' hne] at hmarked
    cases hmarked
  obtain ⟨rfl, rfl⟩ := Prod.mk.inj hat
  rw [h.here, List.cons.injEq] at hmarked
  obtain ⟨hreply, hrest⟩ := hmarked
  cases hreply
  have hunmarked : (s.dequeue i q').Unmarked := by
    intro j₁ q₁
    by_cases heq : (j₁, q₁) = (i, q')
    · cases heq
      exact hrest.symm
    · rw [marked_dequeue_of_ne heq, h.elsewhere j₁ q₁ heq]
  have hpasses : s.Passes l k e ↔ s.HasWay l k i q' reply := by
    constructor
    · exact fun hp => hp.1 i q' reply hhandled
    · intro hway
      refine ⟨?_, ?_⟩
      · intro i₁ q₁ f₁ hhandled₁
        rw [hhandled] at hhandled₁
        cases hhandled₁
        exact hway
      · intro i₁ ev q₁ hevent₁ hends
        rw [hevent] at hevent₁
        cases hevent₁
        obtain ⟨p, -, hp, -⟩ := hway
        rw [TcpRouter.endedBy_arrival hp] at hends
        cases hends
  have hdelivers : s.Delivers l k reply e ↔ i = l ∧ WritesReply l k reply s (s.step e) := by
    simp only [Delivers, hhandled, Option.some.injEq, Prod.mk.injEq]
    constructor
    · rintro ⟨⟨_, hi, -⟩, hwritten⟩
      exact ⟨hi, hwritten⟩
    · rintro ⟨hi, hwritten⟩
      exact ⟨⟨q', hi, rfl, trivial⟩, hwritten⟩
  have houtcome := outcome_handleReply (s := s.dequeue i q') hlinks hunmarked hkind
    ⟨hclient.find, hclient.live, hclient.far⟩ hreads
  rw [← hstep] at houtcome
  cases houtcome with
  | carried hway hi hcarries =>
    exact .carried _ _ (hpasses.mpr hway) (fun hd => hi (hdelivers.mp hd).1) hcarries
  | delivered hway hi hwritten hnone =>
    exact .delivered (hpasses.mpr hway) (hdelivers.mpr ⟨hi, hwritten⟩) hnone
  | lost hway hwritten hlost =>
    exact .lost (fun hp => hway (hpasses.mp hp)) (fun hd => hwritten (hdelivers.mp hd)) hlost

/-- The step does something else. -/
theorem Carries.fate_of_none {j : ι} {q : Endpoint} (h : s.Carries reply j q) {e : Event ι}
    (hhandled : s.replyHandled e = none) : s.Fate l k reply e := by
  have hnot : ¬ s.Delivers l k reply e := by
    rintro ⟨⟨q, hq⟩, -⟩
    rw [hhandled] at hq
    cases hq
  have hmem : ⟨reply, true⟩ ∈ s.unread j q := by
    have hmarked : ⟨reply, true⟩ ∈ s.marked j q := by simp [h.here]
    exact (List.mem_filter.mp hmarked).1
  have hkeeps : s.KeepsReply e ↔ ((s.step e).router j).hasEnded q = false := by
    rw [← Bool.not_eq_true, hasEnded_step, h.notEnded]
    constructor
    · rintro hkeeps (hfalse | ⟨ev, hev, hends⟩)
      · cases hfalse
      · cases hkeeps j ev q hev hends _ hmem
    · intro hopen i ev q' hev hends m hm
      by_contra hreply
      have hmarked : s.marked i q' ≠ [] :=
        List.ne_nil_of_mem (List.mem_filter.mpr ⟨hm, by simpa using hreply⟩)
      by_cases heq : (i, q') = (j, q)
      · cases heq
        exact hopen (Or.inr ⟨ev, hev, hends⟩)
      · exact hmarked (h.elsewhere i q' heq)
  have hpasses : s.Passes l k e ↔ ((s.step e).router j).hasEnded q = false := by
    rw [← hkeeps]
    refine and_iff_right ?_
    intro i q' f hsome
    rw [hhandled] at hsome
    cases hsome
  cases hopen : ((s.step e).router j).hasEnded q with
  | false =>
    refine .carried j q (hpasses.mpr hopen) hnot ⟨?_, ?_, hopen⟩
    · rw [marked_step_of_none hhandled, h.here]
    · intro j' q' hne
      rw [marked_step_of_none hhandled, h.elsewhere j' q' hne]
  | true =>
    refine .lost (fun hp => ?_) hnot ?_
    · rw [hpasses.mp hp] at hopen
      cases hopen
    · intro j' q' hmarked
      rw [marked_step_of_none hhandled] at hmarked
      by_cases heq : (j', q') = (j, q)
      · cases heq
        exact hopen
      · exact absurd (h.elsewhere j' q' heq) hmarked

theorem Carries.fate {j : ι} {q : Endpoint} (h : s.Carries reply j q)
    (hkind : reply.header.kind = .data) (hlinks : s.LinksWork)
    (hclient : s.ClientAt reply.header.dest l k) (e : Event ι) : s.Fate l k reply e := by
  cases hhandled : s.replyHandled e with
  | none => exact h.fate_of_none hhandled
  | some x => exact h.fate_of_replyHandled hkind hlinks hclient hhandled

end

/-! ### Runs -/

theorem deliveredIn_cons {l : ι} {k : ConnId} {reply : Frame} {s : RouterNet ι} {e : Event ι}
    {es : List (Event ι)} :
    s.DeliveredIn l k reply (e :: es) ↔
      s.Delivers l k reply e ∨ (s.step e).DeliveredIn l k reply es := by
  constructor
  · rintro ⟨es₁, e', es₂, heq, hdelivers⟩
    cases es₁ with
    | nil =>
      cases heq
      exact Or.inl hdelivers
    | cons e₁ es₁ =>
      cases heq
      exact Or.inr ⟨es₁, e', es₂, rfl, hdelivers⟩
  · rintro (hdelivers | ⟨es₁, e', es₂, rfl, hdelivers⟩)
    · exact ⟨[], e, es, rfl, hdelivers⟩
    · exact ⟨e :: es₁, e', es₂, rfl, hdelivers⟩

theorem not_deliveredIn_nil {l : ι} {k : ConnId} {reply : Frame} {s : RouterNet ι} :
    ¬ s.DeliveredIn l k reply [] := by
  rintro ⟨es₁, e, es₂, heq, -⟩
  cases es₁ <;> cases heq

theorem Lost.run {s : RouterNet ι} (h : s.Lost) (l : ι) (k : ConnId) (reply : Frame)
    (es : List (Event ι)) :
    ¬ s.DeliveredIn l k reply es ∧ ¬ (runFrom step s es).InFlight := by
  induction es generalizing s with
  | nil => exact ⟨not_deliveredIn_nil, h.not_inFlight⟩
  | cons e es ih =>
    obtain ⟨hnot, hlost⟩ := lost_step l k reply h e
    rw [deliveredIn_cons]
    exact ⟨not_or.mpr ⟨hnot, (ih hlost).1⟩, (ih hlost).2⟩

theorem Unmarked.run {s : RouterNet ι} (h : s.Unmarked) (l : ι) (k : ConnId)
    (es : List (Event ι)) : AllSteps step (Passes l k) s es := by
  induction es generalizing s with
  | nil => trivial
  | cons e es ih =>
    obtain ⟨hpasses, hnone⟩ := unmarked_step l k h e
    exact ⟨hpasses, ih hnone⟩

/-- A reply that is on its way is delivered, or stays on its way, exactly when every step passes
it on. -/
theorem Carries.run {reply : Frame} {s : RouterNet ι} {j : ι} {q : Endpoint}
    (h : s.Carries reply j q) (hkind : reply.header.kind = .data) {l : ι} {k : ConnId}
    {es : List (Event ι)}
    (hsetting : AllStates step (fun t => t.LinksWork ∧ t.ClientAt reply.header.dest l k) s es) :
    s.DeliveredIn l k reply es ∨ (runFrom step s es).InFlight ↔
      AllSteps step (Passes l k) s es := by
  induction es generalizing s j q with
  | nil => exact iff_of_true (Or.inr h.inFlight) trivial
  | cons e es ih =>
    rw [deliveredIn_cons]
    cases h.fate hkind hsetting.1.1 hsetting.1.2 e with
    | carried j' q' hpasses hnot hcarries =>
      simpa [AllSteps, hnot, hpasses] using ih hcarries hsetting.2
    | delivered hpasses hdelivers hnone =>
      exact iff_of_true (Or.inl (Or.inl hdelivers)) ⟨hpasses, hnone.run l k es⟩
    | lost hpasses hnot hlost =>
      obtain ⟨hnever, hgone⟩ := hlost.run l k reply es
      exact iff_of_false (by simp [hnot, hnever, hgone]) fun hall => hpasses hall.1

end RouterNet

end CoreRaT.Spec
