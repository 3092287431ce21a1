import CoreRaT.Lib.Run
import CoreRaT.Proofs.Evl.Tables

/-!
# `CoreRaT.Proofs.Evl.Disconnect`: what a disconnect releases

The cleanup of `run()` is `remove_all_for_con(this)`. It takes the `Kind::Tcp` and `Kind::Peer`
entries of the connection, as its comment says. An xbuf entry does not name a connection. It
stays in the registry until a delete frame names its mailbox, whether or not the node that
registered it is still there.

So a node that reconnects gets its mailboxes back if they were `Kind::Tcp` or `Kind::Peer`, and
`MSG_ERROR` for a mailbox behind an xbuf that it has not deleted. `disconnect_releases` states both,
for every run.
-/

set_option autoImplicit false

namespace CoreRaT.Spec.EvlRouter

open CoreRaT.Lib

/-- The router is in a state of one of its runs. -/
def Reached (r : EvlRouter) : Prop :=
  ∃ maxMsgSize up sys es, r = runFrom step (init maxMsgSize up sys) es

/-- `run()` of connection `c` has ended. -/
def HasEnded (r : EvlRouter) (c : ConnId) : Prop := r.finishedFlags[c]? = some true

/-- Is the mailbox registered behind an xbuf? -/
def hasXbuf (r : EvlRouter) (id : MailboxId) : Bool :=
  match r.find id with
  | some (.xbuf _) => true
  | _ => false

/-- A `MSG_ROUTER_MBX_INIT_WITH_REPLY` for `id` on the live connection `k` is answered by a reply of
this type, the last thing that its handler does. -/
def AnswersInit (r : EvlRouter) (k : ConnId) (id : MailboxId) (device : Option XbufFd)
    (type : Int8) : Prop :=
  ∀ f, f.header.kind = .mbxInit → f.mbx = some id → f.header.bodyLen.toNat ≤ r.maxMsgSize →
    r.isLive k = true →
      r.step (.frame k (.whole f) device)
        = (r.registerMbx k id device).2.modify k fun c =>
            (c.sendAll (Frame.bare type f.header.src f.header.seqNr).encode).2

/-! ### Ended connections own nothing -/

theorem not_hasEnded_of_isLive {r : EvlRouter} {k : ConnId} (h : r.isLive k = true) :
    ¬ r.HasEnded k := by
  simp only [isLive, HasEnded, finishedFlags, List.getElem?_map] at h ⊢
  cases hc : r.connections[k]? with
  | none => simp
  | some c => simp_all

/-- No entry belongs to a connection that has ended. -/
def EndedOwnNothing (r : EvlRouter) : Prop :=
  ∀ c, r.HasEnded c → ∀ id, r.owners id ≠ some (.connection c)

theorem endedOwnNothing_step (r : EvlRouter) (e : Event) (h : r.EndedOwnNothing) :
    (r.step e).EndedOwnNothing := by
  intro c hc id hid
  rw [HasEnded] at hc
  cases r.change_step e with
  | kept howners hfin =>
    rw [howners] at hid
    rw [hfin] at hc
    exact h c hc id hid
  | opened howners hfin =>
    rw [howners] at hid
    rw [hfin, List.getElem?_append] at hc
    split at hc
    · exact h c hc id hid
    -- The new connection has not ended.
    · rw [List.getElem?_singleton] at hc
      split at hc <;> simp at hc
  | claimed j o hlive hfree howners hfin =>
    rw [howners, Function.update_apply] at hid
    rw [hfin] at hc
    split at hid
    -- Only a live connection claims a mailbox.
    · rw [Option.some.injEq] at hid
      rw [hid] at hlive
      exact not_hasEnded_of_isLive hlive hc
    · exact h c hc id hid
  | released j hdel howners hfin =>
    rw [howners, Function.update_apply] at hid
    rw [hfin] at hc
    split at hid
    · cases hid
    · exact h c hc id hid
  | ended d hend howners hfin =>
    simp only [howners] at hid
    rw [hfin, List.getElem?_set] at hc
    split at hid
    · cases hid
    · rename_i hne
      split at hc
      -- `remove_all_for_con` has taken the entries of the connection that ends here.
      · rename_i hd
        exact hne (hd ▸ hid)
      · exact h c hc id hid

theorem Reached.endedOwnNothing {r : EvlRouter} (hr : r.Reached) : r.EndedOwnNothing := by
  obtain ⟨maxMsgSize, up, sys, es, rfl⟩ := hr
  refine (allStates_of_step endedOwnNothing_step es ?_).last
  intro c hc id hid
  cases hid

/-! ### Xbuf entries stay -/

theorem owners_eq_xbuf_iff (r : EvlRouter) (id : MailboxId) (c : ConnId) :
    r.owners id = some (.xbuf c) ↔ ∃ x, r.find id = some (.xbuf x) ∧ x.openedBy = c := by
  simp only [owners, Option.map_eq_some_iff]
  constructor
  · rintro ⟨e, he, howner⟩
    cases e with
    | tcp d => cases howner
    | peer d => cases howner
    | xbuf x => exact ⟨x, he, by simpa [MailboxEntry.owner] using howner⟩
  · rintro ⟨x, hx, rfl⟩
    exact ⟨.xbuf x, hx, rfl⟩

/-- Only a delete frame for the mailbox takes an xbuf entry away. -/
theorem xbuf_step (r : EvlRouter) (e : Event) {id : MailboxId} {c : ConnId}
    (hid : r.owners id = some (.xbuf c)) (hdel : ¬ e.Deletes id) :
    (r.step e).owners id = some (.xbuf c) := by
  cases r.change_step e with
  | kept howners hfin => rw [howners, hid]
  | opened howners hfin => rw [howners, hid]
  | claimed j o hlive hfree howners hfin =>
    have hne : id ≠ j := by
      rintro rfl
      rw [hid] at hfree
      cases hfree
    rw [howners, Function.update_of_ne hne, hid]
  | released j hdel' howners hfin =>
    have hne : id ≠ j := by
      rintro rfl
      exact hdel hdel'
    rw [howners, Function.update_of_ne hne, hid]
  | ended d hend howners hfin => simp [howners, hid]

theorem xbuf_run (r : EvlRouter) (later : List Event) {id : MailboxId} {c : ConnId}
    (hid : r.owners id = some (.xbuf c)) (hdel : ∀ e ∈ later, ¬ e.Deletes id) :
    (runFrom step r later).owners id = some (.xbuf c) :=
  (allStates_of_allSteps (P := fun r : EvlRouter => r.owners id = some (.xbuf c))
    (fun r e => r.xbuf_step e) hid (allSteps_of_forall hdel)).last

/-! ### Registering again -/

/-- A registration is answered `MSG_OK` exactly when the mailbox has no entry. -/
theorem answersInit (r : EvlRouter) (k : ConnId) (id : MailboxId) (device : Option XbufFd) :
    r.AnswersInit k id device (if r.find id = none then MSG_OK else MSG_ERROR) := by
  intro f hkind hid hsize hlive
  have hok : (r.registerMbx k id device).1 = (r.find id).isNone := by
    rw [registerMbx_eq]
    exact r.registry.emplace_fst id _
  simp only [step, hlive, if_true, handleFrame, Inbound.header, Nat.not_lt.mpr hsize, if_false,
    dispatch, hkind, handleMbxInit, hid, hok, TcpRouter.initReply]
  cases r.find id <;> rfl

/-- In every state of every run, for a connection `c` that has ended: the entries that its frames
created and that are left are xbuf entries. A mailbox that nobody else has registered is answered
`MSG_OK` when it is registered again, on whichever connection, except behind an xbuf, where the
answer is `MSG_ERROR`. An xbuf entry stays through every further run without a delete frame for its
mailbox. -/
theorem disconnect_releases {r : EvlRouter} (hr : r.Reached) {c : ConnId} (hended : r.HasEnded c) :
    (∀ id e, r.find id = some e → e.creator = c → ∃ x, e = .xbuf x) ∧
    (∀ id, (∀ e, r.find id = some e → e.creator = c) → ∀ k device,
      r.AnswersInit k id device (if r.hasXbuf id then MSG_ERROR else MSG_OK)) ∧
    (∀ id x later, r.find id = some (.xbuf x) → (∀ e ∈ later, ¬ Event.Deletes e id) →
      ∃ x', (runFrom step r later).find id = some (.xbuf x') ∧ x'.openedBy = x.openedBy) := by
  have hleft : ∀ id e, r.find id = some e → e.creator = c → ∃ x, e = .xbuf x := by
    intro id e he hc
    have hno := hr.endedOwnNothing c hended id
    simp only [owners, he, Option.map_some, ne_eq, Option.some.injEq] at hno
    cases e with
    | xbuf x => exact ⟨x, rfl⟩
    | tcp d => exact absurd (congrArg Owner.connection hc) hno
    | peer d => exact absurd (congrArg Owner.connection hc) hno
  refine ⟨hleft, ?_, ?_⟩
  · intro id hnobody k device
    have hanswer := r.answersInit k id device
    cases hfind : r.find id with
    | none =>
      rw [if_pos hfind] at hanswer
      simpa [hasXbuf, hfind] using hanswer
    | some e =>
      -- What is left for the mailbox is of `c`, so it is an xbuf entry.
      obtain ⟨x, rfl⟩ := hleft id e hfind (hnobody e hfind)
      rw [if_neg (by rw [hfind]; simp)] at hanswer
      simpa [hasXbuf, hfind] using hanswer
  · intro id x later hx hdel
    have hid : r.owners id = some (.xbuf x.openedBy) :=
      (r.owners_eq_xbuf_iff id _).mpr ⟨x, hx, rfl⟩
    exact (owners_eq_xbuf_iff _ id _).mp (r.xbuf_run later hid hdel)

/-! ### A node that comes back -/

/-- A socket that takes all that it is given. -/
def takingSocket : TcpSocket := ⟨true, fun _ => 64, [], []⟩

/-- The registration of mailbox 7, as its `TimsMailbox` sends it. -/
def registration : Frame :=
  ⟨makeFrame MSG_ROUTER_MBX_INIT_WITH_REPLY 0 7 0 0 4, [7, 0, 0, 0], by decide⟩

/-- A node registers mailbox 7, disconnects and connects again. -/
def restarted (device : Option XbufFd) : EvlRouter :=
  runFrom step (init 64 takingSocket.close [])
    [.accept takingSocket, .frame 0 (.whole registration) device, .eof 0, .accept takingSocket]

/-- Mailbox 7 was `Kind::Tcp`. It is free when the node comes back, and the answer is `MSG_OK`. -/
theorem disconnect_releases_tcp :
    (restarted none).HasEnded 0 ∧ (restarted none).AnswersInit 1 7 none MSG_OK := by
  have hended : (restarted none).HasEnded 0 := rfl
  refine ⟨hended, ?_⟩
  refine (disconnect_releases ⟨_, _, _, _, rfl⟩ hended).2.1 7 ?_ 1 none
  intro e he
  cases he

/-- Mailbox 7 is behind an xbuf. Its entry is left when the node comes back, and the answer is
`MSG_ERROR`. -/
theorem xbuf_registration_left :
    (restarted (some ⟨takingSocket, rfl⟩)).HasEnded 0 ∧
    (∃ e, (restarted (some ⟨takingSocket, rfl⟩)).find 7 = some e ∧ e.creator = 0) ∧
    ((restarted (some ⟨takingSocket, rfl⟩)).step
        (.frame 1 (.whole registration) none)).connections[1]?.map (·.socket.written)
      = some (Frame.bare MSG_ERROR 7 0).encode := by
  refine ⟨rfl, ⟨_, rfl, rfl⟩, ?_⟩
  decide

end CoreRaT.Spec.EvlRouter
