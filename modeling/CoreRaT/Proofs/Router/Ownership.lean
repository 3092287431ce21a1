import CoreRaT.Proofs.Router.Directory

/-!
# `CoreRaT.Proofs.Router.Ownership`: who can take a mailbox away

A client that has been answered `MSG_OK` owns its mailbox: `add` never replaces an entry, so a
second registration and a `MSG_ROUTER_PEER_REGISTER` cannot redirect it. But `remove` is keyed
by the mailbox id alone. `MSG_ROUTER_MBX_DELETE` of another connection removes the entry, and
so does `MSG_ROUTER_PEER_DELETE` of any connection in peer mode (`DeletedElsewhere`).

`route_kept_iff` is exact: along every run, until the owner releases the mailbox itself, the
route stays where it was exactly when no step is such a delete. `route_lost_to_other_client`
is a run of two clients in which the second one deletes the mailbox of the first.

The published set has its own theorem, `localMailboxes_eq_iff`: `local_mailboxes_` equals the
set of mailboxes that route to a client connection exactly as long as every step meets
`AdvertisementKept`. The run in `localMailboxes_stale_after_eof` breaks it: the client ends
without `MSG_ROUTER_MBX_DELETE`, which is what `TimsMailbox::shutdown` does.
-/

set_option autoImplicit false

namespace CoreRaT.Spec.TcpRouter

open CoreRaT.Lib

/-! ### The route of a registered mailbox -/

/-- The router answers the frame `f` of connection `c`, a registration of `id`, with
`MSG_OK`. -/
def AnsweredOk (r : TcpRouter) (c : ConnId) (f : Frame) (id : MailboxId) : Prop :=
  r.isLive c = true ∧ f.header.bodyLen.toNat ≤ r.maxMsgSize ∧ f.header.kind = .mbxInit ∧
    f.mbx = some id ∧ (initReply (r.registry.add id c).1 f.header).header.type = MSG_OK

/-- Connection `c` sends `MSG_ROUTER_MBX_DELETE` for `id`, or its `run()` ends. -/
def ReleasedBy (c : ConnId) (id : MailboxId) : Event → Prop
  | .frame k (.whole f) => k = c ∧ f.header.kind = .mbxDelete ∧ f.mbx = some id
  | .eof k => k = c
  | _ => False

/-- In the state `r`, the event deletes `id` although connection `c` did not ask for it:
`MSG_ROUTER_MBX_DELETE` of another connection, or `MSG_ROUTER_PEER_DELETE` of a connection in
peer mode. -/
def DeletedElsewhere (r : TcpRouter) (c : ConnId) (id : MailboxId) : Event → Prop
  | .frame k (.whole f) =>
    r.isLive k = true ∧ f.header.bodyLen.toNat ≤ r.maxMsgSize ∧ f.mbx = some id ∧
      ((f.header.kind = .mbxDelete ∧ k ≠ c) ∨
        (f.header.kind = .peerDelete ∧ r.isPeer k = true))
  | _ => False

/-- After the answer the mailbox routes to the connection. -/
theorem find_of_answeredOk {r : TcpRouter} {c : ConnId} {f : Frame} {id : MailboxId}
    (h : r.AnsweredOk c f id) : (r.step (.frame c (.whole f))).find id = some c := by
  obtain ⟨hlive, hsize, hkind, hid, hreply⟩ := h
  have hfree : r.directory.owner id = none := by
    refine (r.registry.add_eq_true_iff id c).mp ?_
    cases hok : (r.registry.add id c).1 with
    | true => rfl
    | false =>
      rw [hok] at hreply
      exact absurd hreply (show MSG_ERROR ≠ MSG_OK by decide)
  -- `MSG_OK` says that `add` has taken the entry, so the frame is a claim.
  have heffect : r.effect (.frame c (.whole f)) = .claimLocal id c := by
    simp [effect, hlive, hsize, frameEffect, hkind, hid]
  have hdir := directory_step r (.frame c (.whole f))
  rw [heffect, Directory.apply, if_pos hfree] at hdir
  show (r.step (.frame c (.whole f))).directory.owner id = some c
  rw [hdir]
  exact Function.update_self ..

/-- An event that the owner did not make takes the route away exactly when it is a delete
from elsewhere. -/
theorem takes_effect_iff {r : TcpRouter} {c : ConnId} {id : MailboxId} {e : Event}
    (hown : ¬ ReleasedBy c id e) :
    (r.effect e).Takes id c ↔ r.DeletedElsewhere c id e := by
  cases e with
  | accept socket => simp [effect, Directory.Op.Takes, DeletedElsewhere]
  | connectPeer socket => simp [effect, Directory.Op.Takes, DeletedElsewhere]
  | uplinkFrame u i => simp [effect, Directory.Op.Takes, DeletedElsewhere]
  | uplinkEnd u => simp [effect, Directory.Op.Takes, DeletedElsewhere]
  | eof k =>
    have hk : k ≠ c := hown
    simp only [effect, DeletedElsewhere, iff_false]
    split <;> simp [Directory.Op.Takes, hk]
  | frame k i =>
    cases i with
    | torn h hpos => simp [effect, Directory.Op.Takes, DeletedElsewhere]
    | whole f =>
      simp only [ReleasedBy, not_and] at hown
      simp only [effect, DeletedElsewhere]
      by_cases hlive : r.isLive k = true ∧ f.header.bodyLen.toNat ≤ r.maxMsgSize
      · rw [if_pos hlive]
        simp only [hlive, true_and, frameEffect]
        cases hkind : f.header.kind <;> cases hid : f.mbx <;>
          cases hpeer : r.isPeer k <;> simp_all [Directory.Op.Takes]
        -- Left are the deletes by mailbox id. A delete by `c` itself is excluded.
        all_goals
          intro hj hk
          exact hown hk hj
      · rw [if_neg hlive]
        simp only [Directory.Op.Takes, false_iff]
        exact fun h => hlive ⟨h.1, h.2.1⟩

/-- **The route of a registered mailbox.** After connection `c` has been answered `MSG_OK`
for `id`, take any run in which `c` neither deletes `id` nor ends. The mailbox routes to `c`
in every state of the run exactly when no step of it is a delete from elsewhere. -/
theorem route_kept_iff (maxMsgSize : Nat) (up : TcpSocket) (sys : List SystemConnection)
    (es₁ es₂ : List Event) (c : ConnId) (f : Frame) (id : MailboxId)
    (hok : (runFrom step (init maxMsgSize up sys) es₁).AnsweredOk c f id)
    (hown : ∀ e ∈ es₂, ¬ ReleasedBy c id e) :
    AllStates step (fun r => r.find id = some c)
        (runFrom step (init maxMsgSize up sys) (es₁ ++ [.frame c (.whole f)])) es₂ ↔
      AllSteps step (fun r e => ¬ r.DeletedElsewhere c id e)
        (runFrom step (init maxMsgSize up sys) (es₁ ++ [.frame c (.whole f)])) es₂ := by
  -- One step is exact by the directory; the rule for runs does the rest.
  have hstep : ∀ (r : TcpRouter) (e : Event), ¬ ReleasedBy c id e → True →
      r.find id = some c → ((r.step e).find id = some c ↔ ¬ r.DeletedElsewhere c id e) := by
    intro r e he _ hr
    rw [← takes_effect_iff he, ← Directory.owner_apply_iff (d := r.directory) hr,
      ← directory_step]
    rfl
  refine allStates_iff_allSteps (fun _ _ _ _ => trivial) hstep hown trivial ?_
  rw [runFrom_append]
  exact find_of_answeredOk hok

/-- A socket that takes 64 bytes a call. The runs below use it for every connection. -/
def idleSocket : TcpSocket := ⟨true, fun _ => 64, [], []⟩

/-- Two clients; the first one registers mailbox 7 and the second one deletes it. The first
one neither deletes it nor ends, and has lost its route. -/
theorem route_lost_to_other_client :
    (runFrom step (init 1024 idleSocket.close [])
        [.accept idleSocket, .accept idleSocket]).AnsweredOk
        0 (.ofMbx MSG_ROUTER_MBX_INIT_WITH_REPLY 7) 7 ∧
      ¬ ReleasedBy 0 7 (.frame 1 (.whole (.ofMbx MSG_ROUTER_MBX_DELETE 7))) ∧
      (runFrom step (init 1024 idleSocket.close [])
        [.accept idleSocket, .accept idleSocket,
          .frame 0 (.whole (.ofMbx MSG_ROUTER_MBX_INIT_WITH_REPLY 7)),
          .frame 1 (.whole (.ofMbx MSG_ROUTER_MBX_DELETE 7))]).find 7 = none := by
  refine ⟨⟨by decide, by decide, by decide, by decide, by decide⟩, ?_, by decide⟩
  simp [ReleasedBy]

/-- The second client may try to register the mailbox of the first: the route stays. -/
theorem route_kept_on_second_registration :
    (runFrom step (init 1024 idleSocket.close [])
        [.accept idleSocket, .accept idleSocket]).AnsweredOk
        0 (.ofMbx MSG_ROUTER_MBX_INIT_WITH_REPLY 7) 7 ∧
      AllStates step (fun r => r.find 7 = some 0)
        (runFrom step (init 1024 idleSocket.close [])
          ([.accept idleSocket, .accept idleSocket] ++
            [.frame 0 (.whole (.ofMbx MSG_ROUTER_MBX_INIT_WITH_REPLY 7))]))
        [.frame 1 (.whole (.ofMbx MSG_ROUTER_MBX_INIT_WITH_REPLY 7))] := by
  have hok : (runFrom step (init 1024 idleSocket.close [])
      [.accept idleSocket, .accept idleSocket]).AnsweredOk
        0 (.ofMbx MSG_ROUTER_MBX_INIT_WITH_REPLY 7) 7 :=
    ⟨by decide, by decide, by decide, by decide, by decide⟩
  refine ⟨hok, (route_kept_iff _ _ _ _ _ _ _ _ hok ?_).mpr ⟨?_, trivial⟩⟩
  · simp [ReleasedBy]
  · rintro ⟨-, -, -, ⟨hkind, -⟩ | ⟨hkind, -⟩⟩ <;> exact absurd hkind (by decide)

/-! ### The published mailboxes -/

/-- In the state `r`, the event keeps `local_mailboxes_` in step with the routes:

* a connection that turns into a peer owns no mailbox;
* `MSG_ROUTER_PEER_DELETE` does not name the mailbox of a client connection;
* a connection in peer mode does not register a free mailbox as a client;
* a client connection that ends owns no mailbox. -/
def AdvertisementKept (r : TcpRouter) : Event → Prop
  | .frame k (.whole f) =>
    r.isLive k = true → f.header.bodyLen.toNat ≤ r.maxMsgSize →
      match f.header.kind, f.mbx with
      | .peerHello, _ => r.isPeer k = true ∨ ∀ id, r.find id ≠ some k
      | .peerDelete, some id =>
        r.isPeer k = true → ∀ d, r.find id = some d → r.isPeer d = true
      | .mbxInit, some id => r.find id = none → r.isPeer k = false
      | _, _ => True
  | .eof k => r.isLive k = true → r.isPeer k = true ∨ ∀ id, r.find id ≠ some k
  | _ => True

/-- `AdvertisementKept` is the directory's condition, read off the event. -/
theorem keeps_effect_iff {r : TcpRouter} (hwf : r.Wf) (e : Event) :
    r.directory.Keeps (r.effect e) ↔ r.AdvertisementKept e := by
  cases e with
  | accept socket => simp [effect, Directory.Keeps, AdvertisementKept]
  | connectPeer socket =>
    simp only [effect, Directory.Keeps, AdvertisementKept, iff_true]
    -- The connection is new, and routes lead to connections that exist.
    exact Or.inr fun id hid => Nat.lt_irrefl _ (hwf id _ hid)
  | uplinkFrame u i => simp [effect, Directory.Keeps, AdvertisementKept]
  | uplinkEnd u => simp [effect, Directory.Keeps, AdvertisementKept]
  | eof k =>
    simp only [effect, AdvertisementKept]
    split
    · rename_i hlive
      simp only [hlive, true_implies]
      rfl
    · rename_i hlive
      simp [Directory.Keeps, hlive]
  | frame k i =>
    cases i with
    | torn h hpos => simp [effect, Directory.Keeps, AdvertisementKept]
    | whole f =>
      simp only [effect, AdvertisementKept]
      by_cases hlive : r.isLive k = true ∧ f.header.bodyLen.toNat ≤ r.maxMsgSize
      · rw [if_pos hlive]
        simp only [hlive, true_implies, frameEffect]
        have hgate : (k ∈ r.directory.gateways) = (r.isPeer k = true) := rfl
        -- Every kind of frame, with and without a mailbox id, from a client and from a peer.
        cases hkind : f.header.kind <;> cases hid : f.mbx <;>
          cases hpeer : r.isPeer k <;>
          simp only [Directory.Keeps, hgate, hpeer, if_true, if_false, Bool.false_eq_true,
            false_or, true_or, not_false_eq_true, implies_true, true_implies, not_true_eq_false,
            Bool.true_eq_false, false_implies] <;>
          rfl
      · rw [if_neg hlive]
        simp only [Directory.Keeps, true_iff]
        exact fun h1 h2 => absurd ⟨h1, h2⟩ hlive

/-- **The published mailboxes.** In every state of a run, `local_mailboxes_` is the set of
mailboxes that route to a connection that is not in peer mode, exactly when every step of the
run meets `AdvertisementKept`. -/
theorem localMailboxes_eq_iff (maxMsgSize : Nat) (up : TcpSocket)
    (sys : List SystemConnection) (es : List Event) :
    AllStates step
        (fun r => ∀ id, id ∈ r.localMailboxes ↔ ∃ k, r.find id = some k ∧ r.isPeer k = false)
        (init maxMsgSize up sys) es ↔
      AllSteps step AdvertisementKept (init maxMsgSize up sys) es := by
  have hcons : ∀ r : TcpRouter, r.directory.Consistent ↔
      ∀ id, id ∈ r.localMailboxes ↔ ∃ k, r.find id = some k ∧ r.isPeer k = false := by
    intro r
    refine forall_congr' ?_
    intro id
    simp [Directory.IsLocal, directory]
  have hstep : ∀ (r : TcpRouter) (e : Event), True → r.Wf → r.directory.Consistent →
      ((r.step e).directory.Consistent ↔ r.AdvertisementKept e) := by
    intro r e _ hwf hr
    rw [directory_step, Directory.consistent_apply_iff hr, keeps_effect_iff hwf]
  simp only [← hcons]
  refine allStates_iff_allSteps (fun r e _ => wf_step r e) hstep (fun _ _ => trivial)
    (wf_init maxMsgSize up sys) ?_
  rw [hcons]
  intro id
  constructor
  · intro h
    cases h
  · rintro ⟨k, hk, -⟩
    cases hk

/-- A client registers mailbox 7 and its connection ends. The mailbox has no route any more,
and is still published. -/
theorem localMailboxes_stale_after_eof :
    7 ∈ (runFrom step (init 1024 idleSocket.close [])
        [.accept idleSocket, .frame 0 (.whole (.ofMbx MSG_ROUTER_MBX_INIT_WITH_REPLY 7)),
          .eof 0]).localMailboxes ∧
      ¬ ∃ k, (runFrom step (init 1024 idleSocket.close [])
          [.accept idleSocket, .frame 0 (.whole (.ofMbx MSG_ROUTER_MBX_INIT_WITH_REPLY 7)),
            .eof 0]).find 7 = some k ∧
        (runFrom step (init 1024 idleSocket.close [])
          [.accept idleSocket, .frame 0 (.whole (.ofMbx MSG_ROUTER_MBX_INIT_WITH_REPLY 7)),
            .eof 0]).isPeer k = false := by
  refine ⟨by decide, ?_⟩
  rintro ⟨k, hk, -⟩
  have hnone : (runFrom step (init 1024 idleSocket.close [])
      [.accept idleSocket, .frame 0 (.whole (.ofMbx MSG_ROUTER_MBX_INIT_WITH_REPLY 7)),
        .eof 0]).find 7 = none := by decide
  rw [hnone] at hk
  cases hk

end CoreRaT.Spec.TcpRouter
