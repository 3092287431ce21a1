import CoreRaT.Proofs.Router.Directory
import CoreRaT.Spec.EvlRouter

/-!
# `CoreRaT.Proofs.Evl.Tables`: what an event does to the registry of the EVL router

An entry of the registry belongs to a connection (`Kind::Tcp`, `Kind::Peer`) or to an xbuf that a
frame of some connection had opened. `owners` is the registry seen that way; the bytes that go
through a descriptor do not change it. `change_step` says once what an event can do to the owners
and to the set of finished connections: nothing, open a connection, claim a free mailbox, release
one, or end a connection.
-/

set_option autoImplicit false

namespace CoreRaT.Spec

open CoreRaT.Lib

/-! ### Lookups after a registry operation -/

namespace EvlRegistry

/-- A lookup after `emplace`. -/
theorem find_emplace (reg : EvlRegistry) (id j : MailboxId) (e : MailboxEntry) :
    (reg.emplace id e).2.find j
      = if reg.find id = none ∧ j = id then some e else reg.find j := by
  unfold emplace
  split
  · rename_i hfree
    have hfree' : reg.find id = none := hfree
    simp only [find, Function.update_apply] at hfree' ⊢
    simp [hfree']
  · rename_i e' htaken
    have htaken' : reg.find id = some e' := htaken
    simp [htaken']

/-- `emplace` succeeds exactly on a free mailbox. -/
theorem emplace_fst (reg : EvlRegistry) (id : MailboxId) (e : MailboxEntry) :
    (reg.emplace id e).1 = (reg.find id).isNone := by
  simp only [emplace, find]
  cases h : reg.table id <;> rfl

/-- A lookup after `remove`. -/
theorem find_remove (reg : EvlRegistry) (id j : MailboxId) :
    (reg.remove id).find j = if j = id then none else reg.find j := by
  simp only [remove, find, Function.update_apply]

/-- A lookup after `remove_all_for_con`. -/
theorem find_removeAllForCon (reg : EvlRegistry) (c : ConnId) (j : MailboxId) :
    (reg.removeAllForCon c).find j = (reg.find j).filter fun e => !isOfCon c e := rfl

end EvlRegistry

/-! ### Owners -/

/-- What a registry entry belongs to. -/
inductive Owner
  /-- A connection: the entry is `Kind::Tcp` or `Kind::Peer`. -/
  | connection (c : ConnId)
  /-- An xbuf, which a frame of connection `c` had opened. -/
  | xbuf (c : ConnId)
deriving DecidableEq

/-- The connection whose frame created the entry. -/
def Owner.creator : Owner → ConnId
  | .connection c => c
  | .xbuf c => c

/-- The owner of an entry. -/
def MailboxEntry.owner : MailboxEntry → Owner
  | .tcp c => .connection c
  | .xbuf x => .xbuf x.openedBy
  | .peer c => .connection c

/-- `remove_all_for_con` takes the entries of the connection, and no others. -/
theorem isOfCon_iff (c : ConnId) (e : MailboxEntry) :
    EvlRegistry.isOfCon c e = true ↔ e.owner = .connection c := by
  cases e <;> simp [EvlRegistry.isOfCon, MailboxEntry.owner]

/-- The owner of what `remove_all_for_con` leaves of an entry. -/
theorem owner_filter (c : ConnId) (x : Option MailboxEntry) :
    (x.filter fun e => !EvlRegistry.isOfCon c e).map MailboxEntry.owner
      = if x.map MailboxEntry.owner = some (.connection c) then none
        else x.map MailboxEntry.owner := by
  cases x with
  | none => rfl
  | some e =>
    simp only [Option.map_some, Option.some.injEq, ← isOfCon_iff]
    cases hc : EvlRegistry.isOfCon c e <;> simp [Option.filter, hc]

namespace EvlRouter

/-- The registry, without the descriptors. -/
def owners (r : EvlRouter) (id : MailboxId) : Option Owner := (r.find id).map MailboxEntry.owner

/-- Which threads of the connections have ended. -/
def finishedFlags (r : EvlRouter) : List Bool := r.connections.map (·.finished)

theorem owners_eq_none_iff (r : EvlRouter) (id : MailboxId) :
    r.owners id = none ↔ r.find id = none := by
  simp [owners]

/-- The event is a frame that deletes the mailbox: `MSG_ROUTER_MBX_DELETE`, or
`MSG_ROUTER_PEER_DELETE` from a peer. -/
def Event.Deletes (e : Event) (id : MailboxId) : Prop :=
  ∃ k f device, e = .frame k (.whole f) device ∧ f.mbx = some id ∧
    (f.header.kind = .mbxDelete ∨ f.header.kind = .peerDelete)

/-- What an event can do to the owners and to the finished connections. -/
inductive Change (r : EvlRouter) (e : Event) (r' : EvlRouter) : Prop
  | kept (howners : r'.owners = r.owners) (hfin : r'.finishedFlags = r.finishedFlags)
  | opened (howners : r'.owners = r.owners) (hfin : r'.finishedFlags = r.finishedFlags ++ [false])
  | claimed (id : MailboxId) (o : Owner) (hlive : r.isLive o.creator = true)
      (hfree : r.owners id = none) (howners : r'.owners = Function.update r.owners id (some o))
      (hfin : r'.finishedFlags = r.finishedFlags)
  | released (id : MailboxId) (hdel : e.Deletes id)
      (howners : r'.owners = Function.update r.owners id none)
      (hfin : r'.finishedFlags = r.finishedFlags)
  | ended (c : ConnId) (hend : e = .eof c ∨ e = .stop c)
      (howners : r'.owners = fun id =>
        if r.owners id = some (.connection c) then none else r.owners id)
      (hfin : r'.finishedFlags = r.finishedFlags.set c true)

/-! ### Sends -/

theorem finishedFlags_modify (r : EvlRouter) (k : ConnId) {g : Connection → Connection}
    (hg : ∀ c, (g c).finished = c.finished) :
    (r.modify k g).finishedFlags = r.finishedFlags := by
  refine List.ext_getElem? fun j => ?_
  simp only [finishedFlags, modify, List.getElem?_map, List.getElem?_modify]
  split
  · cases r.connections[j]? <;> simp [hg]
  · simp

theorem finishedFlags_broadcastToPeers (r : EvlRouter) {g : Connection → Connection}
    (hg : ∀ c, (g c).finished = c.finished) :
    (r.broadcastToPeers g).finishedFlags = r.finishedFlags := by
  simp only [finishedFlags, broadcastToPeers, List.map_map]
  refine List.map_congr_left fun c _ => ?_
  simp only [Function.comp_apply]
  split
  · exact hg c
  · rfl

theorem finishedFlags_advertiseAsPeer (r : EvlRouter) (k : ConnId) :
    (r.advertiseAsPeer k).finishedFlags = r.finishedFlags :=
  r.finishedFlags_modify k fun c => (c.sentOn_advertiseAsPeer _).finished

theorem finishedFlags_onLocalRegistered (r : EvlRouter) (id : MailboxId) :
    (r.onLocalRegistered id).finishedFlags = r.finishedFlags :=
  finishedFlags_broadcastToPeers _ fun c => (c.sentOn_sendMbx _ id).finished

theorem finishedFlags_onLocalDeleted (r : EvlRouter) (id : MailboxId) :
    (r.onLocalDeleted id).finishedFlags = r.finishedFlags :=
  finishedFlags_broadcastToPeers _ fun c => (c.sentOn_sendMbx _ id).finished

/-- The sends upstream touch neither the registry nor the connections. -/
theorem tables_forwardToUpstream (r : EvlRouter) (f : Frame) :
    (r.forwardToUpstream f).2.owners = r.owners ∧
      (r.forwardToUpstream f).2.finishedFlags = r.finishedFlags := by
  unfold forwardToUpstream
  split
  · split <;> exact ⟨rfl, rfl⟩
  · exact ⟨rfl, rfl⟩

theorem tables_closeUplink (r : EvlRouter) (u : Uplink) :
    (r.closeUplink u).owners = r.owners ∧
      (r.closeUplink u).finishedFlags = r.finishedFlags := by
  cases u <;> exact ⟨rfl, rfl⟩

/-- Bytes that go through a descriptor leave the owner of its entry alone. -/
theorem tables_writeBody (r : EvlRouter) (id : MailboxId) (body : List UInt8) :
    (r.writeBody id body).2.owners = r.owners ∧
      (r.writeBody id body).2.finishedFlags = r.finishedFlags := by
  unfold writeBody
  split
  · rename_i x hx
    refine ⟨funext fun j => ?_, rfl⟩
    have howner : (MailboxEntry.xbuf (x.writeBody body).2).owner = (MailboxEntry.xbuf x).owner := by
      simp only [MailboxEntry.owner, XbufEntry.writeBody]
      split <;> rfl
    simp only [owners, find, EvlRegistry.find, Function.update_apply]
    split
    · rename_i hj
      subst hj
      simp only [find, EvlRegistry.find] at hx
      simp only [hx, Option.map_some, howner]
    · rfl
  · exact ⟨rfl, rfl⟩

/-- The call of a hop only moves bytes. -/
theorem tables_perform (r : EvlRouter) (h : Hop) :
    (r.perform h).2.owners = r.owners ∧ (r.perform h).2.finishedFlags = r.finishedFlags := by
  cases h with
  | forward d f =>
    exact ⟨rfl, r.finishedFlags_modify d fun c => (c.sentOn_forward f).finished⟩
  | writeBody id body => exact r.tables_writeBody id body
  | upstream f => exact r.tables_forwardToUpstream f
  | drop => exact ⟨rfl, rfl⟩

/-! ### The handlers -/

/-- The owners after a successful `emplace`. -/
theorem owners_emplace {r : EvlRouter} {id : MailboxId} (hfree : r.owners id = none)
    (e : MailboxEntry) :
    { r with registry := (r.registry.emplace id e).2 }.owners
      = Function.update r.owners id (some e.owner) := by
  have hfree' : r.registry.find id = none := (r.owners_eq_none_iff id).mp hfree
  funext j
  simp only [owners, find, EvlRegistry.find_emplace, hfree', true_and, Function.update_apply]
  split <;> rfl

/-- An `emplace` that fails leaves the registry as it was. -/
theorem emplace_of_taken {r : EvlRouter} {id : MailboxId} (htaken : r.owners id ≠ none)
    (e : MailboxEntry) : r.registry.emplace id e = (false, r.registry) := by
  have htaken' : r.registry.table id ≠ none := fun h => htaken ((r.owners_eq_none_iff id).mpr h)
  unfold EvlRegistry.emplace
  split
  · contradiction
  · rfl

theorem owners_remove (r : EvlRouter) (id : MailboxId) :
    { r with registry := r.registry.remove id }.owners = Function.update r.owners id none := by
  funext j
  simp only [owners, find, EvlRegistry.find_remove, Function.update_apply]
  split <;> rfl

/-- The entry that a registration makes. -/
def newEntry (k : ConnId) (id : MailboxId) : Option XbufFd → MailboxEntry
  | some fd => .xbuf ⟨id, fd, k⟩
  | none => .tcp k

@[simp] theorem creator_newEntry (k : ConnId) (id : MailboxId) (device : Option XbufFd) :
    (newEntry k id device).owner.creator = k := by
  cases device <;> rfl

/-- A registration is one `emplace`, and the peers are told when it succeeds. -/
theorem registerMbx_eq (r : EvlRouter) (k : ConnId) (id : MailboxId) (device : Option XbufFd) :
    r.registerMbx k id device =
      ((r.registry.emplace id (newEntry k id device)).1,
        if (r.registry.emplace id (newEntry k id device)).1 then
          { r with registry := (r.registry.emplace id (newEntry k id device)).2 }.onLocalRegistered
            id
        else { r with registry := (r.registry.emplace id (newEntry k id device)).2 }) := by
  cases device <;> rfl

/-- The registry and the flags after a registration. -/
theorem change_registerMbx (r : EvlRouter) (e : Event) {k : ConnId} (hlive : r.isLive k = true)
    (id : MailboxId) (device : Option XbufFd) : Change r e (r.registerMbx k id device).2 := by
  rw [registerMbx_eq]
  by_cases hfree : r.owners id = none
  · have hok : (r.registry.emplace id (newEntry k id device)).1 = true := by
      have hfind : r.registry.find id = none := (r.owners_eq_none_iff id).mp hfree
      rw [EvlRegistry.emplace_fst, hfind]
      rfl
    simp only [hok, if_true]
    refine .claimed id (newEntry k id device).owner ?_ hfree ?_ ?_
    · rwa [creator_newEntry]
    · exact owners_emplace hfree _
    · exact finishedFlags_onLocalRegistered _ id
  · rw [emplace_of_taken hfree]
    exact .kept rfl rfl

/-- A change, and sends behind it. -/
theorem Change.congr {r r' r'' : EvlRouter} {e : Event} (h : Change r e r')
    (howners : r''.owners = r'.owners) (hfin : r''.finishedFlags = r'.finishedFlags) :
    Change r e r'' := by
  cases h with
  | kept h1 h2 => exact .kept (howners.trans h1) (hfin.trans h2)
  | opened h1 h2 => exact .opened (howners.trans h1) (hfin.trans h2)
  | claimed id o hlive hfree h1 h2 =>
    exact .claimed id o hlive hfree (howners.trans h1) (hfin.trans h2)
  | released id hdel h1 h2 => exact .released id hdel (howners.trans h1) (hfin.trans h2)
  | ended c hend h1 h2 => exact .ended c hend (howners.trans h1) (hfin.trans h2)

/-- The change that a whole frame makes. -/
theorem change_dispatch (r : EvlRouter) {k : ConnId} (hlive : r.isLive k = true) (f : Frame)
    (device : Option XbufFd) :
    Change r (.frame k (.whole f) device) (r.dispatch k f device) := by
  unfold dispatch
  cases hkind : f.header.kind with
  | peerHello =>
    simp only [handlePeerHello]
    split
    · exact .kept rfl rfl
    · exact .kept rfl ((finishedFlags_advertiseAsPeer _ k).trans
        (r.finishedFlags_modify k fun _ => rfl))
  | peerRegister =>
    simp only [handlePeerRegister]
    split
    · split
      · rename_i id hid
        by_cases hfree : r.owners id = none
        · exact .claimed id (.connection k) hlive hfree (owners_emplace hfree (.peer k)) rfl
        · simp only [EvlRegistry.addPeer, emplace_of_taken hfree]
          exact .kept rfl rfl
      · exact .kept rfl rfl
    · exact .kept rfl rfl
  | peerDelete =>
    simp only [handlePeerDelete]
    split
    · split
      · rename_i id hid
        exact .released id ⟨k, f, device, rfl, hid, Or.inr hkind⟩ (r.owners_remove id) rfl
      · exact .kept rfl rfl
    · exact .kept rfl rfl
  | disableWatchdog => exact .kept rfl rfl
  | mbxInit =>
    simp only [handleMbxInit]
    split
    · rename_i id hid
      -- The reply behind the registration is one send.
      exact (r.change_registerMbx _ hlive id device).congr rfl
        (finishedFlags_modify _ k fun _ => rfl)
    · exact .kept rfl rfl
  | mbxDelete =>
    simp only [handleMbxDelete]
    split
    · rename_i id hid
      exact .released id ⟨k, f, device, rfl, hid, Or.inl hkind⟩ (r.owners_remove id)
        (finishedFlags_onLocalDeleted _ id)
    · exact .kept rfl rfl
  | data =>
    obtain ⟨howners, hfin⟩ := r.tables_perform (r.connectionHop k f)
    simp only [handleData]
    generalize r.perform (r.connectionHop k f) = res at howners hfin
    obtain ⟨ok, r'⟩ := res
    cases ok with
    | true => exact .kept howners hfin
    | false =>
      have herror : (r'.sendError k f.header).finishedFlags = r'.finishedFlags :=
        r'.finishedFlags_modify k fun _ => rfl
      exact .kept howners (herror.trans hfin)

/-- The owners and the flags after `run()` has ended. -/
theorem change_endRun (r : EvlRouter) {e : Event} {c : ConnId} (hend : e = .eof c ∨ e = .stop c) :
    Change r e (r.endRun c) := by
  refine .ended c hend (funext fun id => ?_) ?_
  · show ((r.registry.removeAllForCon c).find id).map MailboxEntry.owner = _
    rw [EvlRegistry.find_removeAllForCon]
    exact owner_filter c (r.find id)
  · refine List.ext_getElem? fun j => ?_
    simp only [finishedFlags, endRun, modify, List.getElem?_map, List.getElem?_modify,
      List.getElem?_set]
    split
    · rename_i hj
      subst hj
      cases hc : r.connections[c]? with
      | none => simp [List.getElem?_eq_none_iff.mp hc]
      | some con => simp [(List.getElem?_eq_some_iff.mp hc).1]
    · simp

/-- What one event does. -/
theorem change_step (r : EvlRouter) (e : Event) : Change r e (r.step e) := by
  cases e with
  | accept socket => exact .opened rfl (by simp [step, finishedFlags, Connection.start])
  | connectPeer socket =>
    refine .opened rfl ((finishedFlags_advertiseAsPeer _ _).trans ?_)
    simp [finishedFlags, Connection.start]
  | frame k i device =>
    simp only [step]
    split
    · rename_i hlive
      unfold handleFrame
      split
      · exact .kept rfl (r.finishedFlags_modify k fun _ => rfl)
      · cases i with
        | whole f => exact r.change_dispatch hlive f device
        | torn h hpos => exact .kept rfl rfl
    · exact .kept rfl rfl
  | eof k =>
    simp only [step]
    split
    · exact r.change_endRun (Or.inl rfl)
    · exact .kept rfl rfl
  | stop k =>
    simp only [step]
    split
    · exact r.change_endRun (Or.inr rfl)
    · exact .kept rfl rfl
  | uplinkFrame u i =>
    obtain ⟨hclose, hclose'⟩ := r.tables_closeUplink u
    simp only [step]
    split
    · unfold routeFromUplink
      split
      · exact .kept hclose hclose'
      · cases i with
        | whole f =>
          obtain ⟨howners, hfin⟩ := r.tables_perform (r.uplinkHop f)
          exact .kept howners hfin
        | torn h hpos => exact .kept hclose hclose'
    · exact .kept rfl rfl
  | uplinkEnd u =>
    obtain ⟨howners, hfin⟩ := r.tables_closeUplink u
    exact .kept howners hfin
  | xbufRead id d =>
    obtain ⟨howners, hfin⟩ := r.tables_perform (r.xbufHop d)
    simp only [step]
    split
    · split
      · exact .kept howners hfin
      · exact .kept rfl rfl
    · exact .kept rfl rfl

end EvlRouter

end CoreRaT.Spec
