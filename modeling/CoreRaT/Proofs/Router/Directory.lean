import CoreRaT.Lib.Directory
import CoreRaT.Lib.Run
import CoreRaT.Proofs.Router.Registry
import CoreRaT.Proofs.TcpSocket

/-!
# `CoreRaT.Proofs.Router.Directory`: the router's tables as a directory

The routes, the list of local mailboxes and the peer flags of a router form a
`Lib.Directory`: a mailbox is owned by the connection it routes to, the local mailboxes are
the published names, and the connections in peer mode are the gateways. `effect` reads off an
event and the state before it which directory operation the event is.

`directory_step` is the simulation: one event of the router is that one operation. The socket
calls inside the handlers, whether they succeed or not, do not touch the tables. The results
on the tables are then results on directories.

`wf_step` keeps every route pointing at a connection that exists.
-/

set_option autoImplicit false

namespace CoreRaT.Spec

open CoreRaT.Lib

/-! ### What a send leaves alone -/

namespace Connection

/-- `c'` is `c` after sends: the socket is not closed, and nothing is read from it. -/
structure SentOn (c c' : Connection) : Prop where
  isPeer : c'.isPeer = c.isPeer
  finished : c'.finished = c.finished
  isOpen : c'.socket.isOpen = c.socket.isOpen
  inbound : c'.socket.inbound = c.socket.inbound

theorem SentOn.refl (c : Connection) : SentOn c c := ⟨rfl, rfl, rfl, rfl⟩

theorem SentOn.trans {c c' c'' : Connection} (h : SentOn c c') (h' : SentOn c' c'') :
    SentOn c c'' :=
  ⟨h'.isPeer.trans h.isPeer, h'.finished.trans h.finished, h'.isOpen.trans h.isOpen,
    h'.inbound.trans h.inbound⟩

theorem sentOn_sendAll (c : Connection) (buf : List UInt8) : SentOn c (c.sendAll buf).2 := by
  obtain ⟨n, -, -, hopen, hin, -⟩ := c.socket.sendAll_spec buf
  exact ⟨rfl, rfl, hopen, hin⟩

theorem sentOn_forward (c : Connection) (f : Frame) : SentOn c (c.forward f).2 := by
  have h := sentOn_sendAll c f.header.encode
  unfold forward
  generalize c.sendAll f.header.encode = r at h
  obtain ⟨ok, c'⟩ := r
  cases ok with
  | true => exact h.trans (sentOn_sendAll c' f.body)
  | false => exact h

theorem sentOn_sendMbx (c : Connection) (type : Int8) (id : MailboxId) :
    SentOn c (c.sendMbx type id) :=
  (sentOn_sendAll _ _).trans (sentOn_sendAll _ _)

theorem sentOn_advertiseAsPeer (c : Connection) (ids : List MailboxId) :
    SentOn c (c.advertiseAsPeer ids) := by
  have h : ∀ (ids : List MailboxId) (c : Connection),
      SentOn c (ids.foldl sendPeerRegister c) := by
    intro ids
    induction ids with
    | nil => exact SentOn.refl
    | cons id ids ih => exact fun c => (sentOn_sendMbx c _ id).trans (ih _)
  exact (sentOn_sendAll _ _).trans (h _ _)

end Connection

namespace TcpRouter

theorem getElem?_modify (r : TcpRouter) (k j : ConnId) (g : Connection → Connection) :
    (r.modify k g).connections[j]?
      = if k = j then (r.connections[j]?).map g else r.connections[j]? := by
  simp only [modify, List.getElem?_modify]
  split <;> simp

/-- A change of connection `k` that keeps its peer flag keeps all peer flags. -/
theorem isPeer_modify (r : TcpRouter) (k j : ConnId) (g : Connection → Connection)
    (hg : ∀ c, (g c).isPeer = c.isPeer) : (r.modify k g).isPeer j = r.isPeer j := by
  simp only [isPeer, getElem?_modify]
  split
  · simp [Function.comp_def, hg]
  · rfl

theorem isPeer_broadcastToPeers (r : TcpRouter) (j : ConnId) (g : Connection → Connection)
    (hg : ∀ c, (g c).isPeer = c.isPeer) : (r.broadcastToPeers g).isPeer j = r.isPeer j := by
  simp only [isPeer, broadcastToPeers, List.getElem?_map, Option.map_map]
  congr 2
  funext c
  simp only [Function.comp_apply]
  split
  · exact hg c
  · rfl

/-- The peer flags and the routes are all that the sends upstream leave behind, and they
leave them as they were. -/
theorem tables_forwardToUpstream (r : TcpRouter) (f : Frame) :
    (r.forwardToUpstream f).2.registry = r.registry ∧
    (r.forwardToUpstream f).2.localMailboxes = r.localMailboxes ∧
    (r.forwardToUpstream f).2.connections = r.connections ∧
    (r.forwardToUpstream f).2.maxMsgSize = r.maxMsgSize := by
  unfold forwardToUpstream
  split
  · split <;> exact ⟨rfl, rfl, rfl, rfl⟩
  · exact ⟨rfl, rfl, rfl, rfl⟩

theorem tables_closeUplink (r : TcpRouter) (u : Uplink) :
    (r.closeUplink u).registry = r.registry ∧
    (r.closeUplink u).localMailboxes = r.localMailboxes ∧
    (r.closeUplink u).connections = r.connections ∧
    (r.closeUplink u).maxMsgSize = r.maxMsgSize := by
  cases u <;> exact ⟨rfl, rfl, rfl, rfl⟩

/-- The reader of an uplink forwards a frame, drops it, or closes its socket. -/
theorem step_uplinkFrame (r : TcpRouter) (u : Uplink) (i : Inbound) :
    (∃ d f, r.find f.header.dest = some d ∧
      r.step (.uplinkFrame u i) = r.modify d fun c => (c.forward f).2) ∨
      r.step (.uplinkFrame u i) = r ∨ r.step (.uplinkFrame u i) = r.closeUplink u := by
  simp only [step]
  split
  · unfold routeFromUplink
    split
    · exact Or.inr (Or.inr rfl)
    · cases i with
      | torn h hpos => exact Or.inr (Or.inr rfl)
      | whole f =>
        cases hfind : r.find f.header.dest with
        | some d => exact Or.inl ⟨d, f, hfind, by simp only [hfind]⟩
        | none => exact Or.inr (Or.inl (by simp only [hfind]))
  · exact Or.inr (Or.inl rfl)

/-! ### The directory of a router -/

/-- The routes, the local mailboxes and the peer flags. -/
def directory (r : TcpRouter) : Directory MailboxId ConnId where
  owner := r.find
  published := { id | id ∈ r.localMailboxes }
  gateways := { k | r.isPeer k = true }

/-- What a whole frame on connection `k` does to the tables. -/
def frameEffect (r : TcpRouter) (k : ConnId) (f : Frame) : Directory.Op MailboxId ConnId :=
  match f.header.kind, f.mbx with
  | .peerHello, _ => if r.isPeer k then .idle else .upgrade k
  | .peerRegister, some id => if r.isPeer k then .claim id k else .idle
  | .peerDelete, some id => if r.isPeer k then .release id else .idle
  | .mbxInit, some id => .claimLocal id k
  | .mbxDelete, some id => .releaseLocal id
  | _, _ => .idle

/-- What an event does to the tables. Frames that are oversized, torn, or on a connection
that is not live do nothing to them. -/
def effect (r : TcpRouter) : Event → Directory.Op MailboxId ConnId
  | .accept _ => .idle
  | .connectPeer _ => .upgrade r.connections.length
  | .frame k (.whole f) =>
    if r.isLive k ∧ f.header.bodyLen.toNat ≤ r.maxMsgSize then r.frameEffect k f else .idle
  | .frame _ (.torn _ _) => .idle
  | .eof k => if r.isLive k then .leave k else .idle
  | .uplinkFrame _ _ => .idle
  | .uplinkEnd _ => .idle

/-- The directory of a router, read off its three tables. -/
theorem directory_eq {r : TcpRouter} {d : Directory MailboxId ConnId}
    (hown : r.registry.find = d.owner) (hpub : ∀ id, id ∈ r.localMailboxes ↔ id ∈ d.published)
    (hgate : ∀ k, r.isPeer k = true ↔ k ∈ d.gateways) : r.directory = d := by
  cases d
  simp only [directory, Directory.mk.injEq]
  exact ⟨hown, Set.ext hpub, Set.ext hgate⟩

/-- Two routers with the same tables have the same directory. -/
theorem directory_congr {r r' : TcpRouter} (hreg : r'.registry = r.registry)
    (hloc : r'.localMailboxes = r.localMailboxes) (hpeer : ∀ j, r'.isPeer j = r.isPeer j) :
    r'.directory = r.directory :=
  directory_eq (congrArg MailboxRegistry.find hreg) (fun id => by rw [hloc]; rfl)
    (fun k => by rw [hpeer]; rfl)

/-- Sends on connection `k` leave the directory alone. -/
theorem directory_modify (r : TcpRouter) (k : ConnId) (g : Connection → Connection)
    (hg : ∀ c, (g c).isPeer = c.isPeer) : (r.modify k g).directory = r.directory :=
  directory_congr rfl rfl fun j => isPeer_modify r k j g hg

/-- Sends to the peers leave the directory alone. -/
theorem directory_broadcastToPeers (r : TcpRouter) (g : Connection → Connection)
    (hg : ∀ c, (g c).isPeer = c.isPeer) : (r.broadcastToPeers g).directory = r.directory :=
  directory_congr rfl rfl fun j => isPeer_broadcastToPeers r j g hg

theorem directory_advertiseAsPeer (r : TcpRouter) (k : ConnId) :
    (r.advertiseAsPeer k).directory = r.directory :=
  directory_modify r k _ fun c => (c.sentOn_advertiseAsPeer _).isPeer

/-! ### The handlers -/

theorem directory_handlePeerHello (r : TcpRouter) (k : ConnId) (hk : k < r.connections.length) :
    (r.handlePeerHello k).directory
      = r.directory.apply (if r.isPeer k then .idle else .upgrade k) := by
  unfold handlePeerHello
  split
  · rfl
  · rw [directory_advertiseAsPeer]
    refine directory_eq rfl (fun _ => Iff.rfl) ?_
    intro j
    simp only [directory, Directory.apply, Set.mem_ofPred_eq, Set.mem_insert_iff, isPeer,
      getElem?_modify]
    -- The flag of `k` is the only one that changes; `hk` says that there is one to set.
    by_cases hj : k = j
    · subst hj
      simp [List.getElem?_eq_getElem hk]
    · simp [hj, Ne.symm hj]

theorem directory_handlePeerRegister (r : TcpRouter) (k : ConnId) (f : Frame)
    (id : MailboxId) (hid : f.mbx = some id) :
    (r.handlePeerRegister k f).directory
      = r.directory.apply (if r.isPeer k then .claim id k else .idle) := by
  unfold handlePeerRegister
  split
  · simp only [hid, Directory.apply]
    have hadd := fun j => r.registry.find_add id j k
    -- `emplace` fails when the mailbox has a route: the claim does nothing.
    by_cases hfree : r.directory.owner id = none
    · rw [if_pos hfree]
      refine directory_eq (funext fun j => ?_) (fun _ => Iff.rfl) (fun _ => Iff.rfl)
      simp only [hadd, Function.update_apply, show r.registry.find id = none from hfree,
        true_and]
      rfl
    · rw [if_neg hfree]
      refine directory_eq (funext fun j => ?_) (fun _ => Iff.rfl) (fun _ => Iff.rfl)
      rw [hadd, if_neg fun h => hfree h.1]
      rfl
  · rfl

theorem directory_handlePeerDelete (r : TcpRouter) (k : ConnId) (f : Frame)
    (id : MailboxId) (hid : f.mbx = some id) :
    (r.handlePeerDelete k f).directory
      = r.directory.apply (if r.isPeer k then .release id else .idle) := by
  unfold handlePeerDelete
  split
  · simp only [hid]
    rfl
  · rfl

/-- The tables after `on_local_registered`. -/
theorem directory_onLocalRegistered (r : TcpRouter) (id : MailboxId) :
    (r.onLocalRegistered id).directory
      = { r.directory with published := insert id r.directory.published } := by
  rw [onLocalRegistered, directory_broadcastToPeers _ (·.sendPeerRegister id) fun c =>
    (c.sentOn_sendMbx _ id).isPeer]
  exact directory_eq rfl (fun j => by simp [directory]) (fun _ => Iff.rfl)

/-- The tables after `on_local_deleted`. -/
theorem directory_onLocalDeleted (r : TcpRouter) (id : MailboxId) :
    (r.onLocalDeleted id).directory
      = { r.directory with published := r.directory.published \ {id} } := by
  rw [onLocalDeleted, directory_broadcastToPeers _ (·.sendPeerDelete id) fun c =>
    (c.sentOn_sendMbx _ id).isPeer]
  exact directory_eq rfl (fun j => by simp [directory]) (fun _ => Iff.rfl)

theorem directory_handleMbxInit (r : TcpRouter) (k : ConnId) (f : Frame)
    (id : MailboxId) (hid : f.mbx = some id) :
    (r.handleMbxInit k f).directory = r.directory.apply (.claimLocal id k) := by
  have hreply : ∀ (r : TcpRouter) (ok : Bool), (r.modify k fun c =>
      (c.sendAll (initReply ok f.header).encode).2).directory = r.directory := fun r _ =>
    directory_modify r k _ fun _ => rfl
  simp only [handleMbxInit, hid, Directory.apply]
  -- The reply is sent in both cases, and published is only what `add` has taken.
  cases hfree : r.registry.table id with
  | none =>
    rw [if_pos (show r.directory.owner id = none from hfree)]
    simp only [MailboxRegistry.add, hfree, if_true]
    rw [directory_onLocalRegistered, hreply]
    rfl
  | some j =>
    have htaken : ¬ r.directory.owner id = none := by
      rw [show r.directory.owner id = some j from hfree]
      simp
    simp only [MailboxRegistry.add, hfree, htaken, if_false, Bool.false_eq_true]
    exact hreply r false

theorem directory_handleMbxDelete (r : TcpRouter) (f : Frame)
    (id : MailboxId) (hid : f.mbx = some id) :
    (r.handleMbxDelete f).directory = r.directory.apply (.releaseLocal id) := by
  simp only [handleMbxDelete, hid]
  rw [directory_onLocalDeleted]
  rfl

theorem directory_handleData (r : TcpRouter) (k : ConnId) (f : Frame) :
    (r.handleData k f).directory = r.directory := by
  obtain ⟨hreg, hloc, hcon, -⟩ := r.tables_forwardToUpstream f
  have hup : (r.forwardToUpstream f).2.directory = r.directory :=
    directory_congr hreg hloc fun j => by simp [isPeer, hcon]
  unfold handleData
  -- A route, a peer without one, or a client without one. All three only send.
  split
  · exact directory_modify r _ _ fun c => (c.sentOn_forward f).isPeer
  · split
    · rfl
    · generalize r.forwardToUpstream f = res at hup
      obtain ⟨ok, r'⟩ := res
      cases ok with
      | true => exact hup
      | false =>
        exact (directory_modify r' k (fun c => (c.sendAll (errorReply f.header).encode).2)
          fun _ => rfl).trans hup

theorem directory_closeUplink (r : TcpRouter) (u : Uplink) :
    (r.closeUplink u).directory = r.directory := by
  obtain ⟨hreg, hloc, hcon, -⟩ := r.tables_closeUplink u
  exact directory_congr hreg hloc fun j => by simp [isPeer, hcon]

theorem directory_dispatch (r : TcpRouter) (k : ConnId) (f : Frame)
    (hk : k < r.connections.length) :
    (r.dispatch k f).directory = r.directory.apply (r.frameEffect k f) := by
  unfold dispatch frameEffect
  cases hkind : f.header.kind <;> cases hid : f.mbx <;> simp only
  case peerHello.none => exact directory_handlePeerHello r k hk
  case peerHello.some id => exact directory_handlePeerHello r k hk
  case peerRegister.none => simp [handlePeerRegister, hid, Directory.apply]
  case peerRegister.some id => exact directory_handlePeerRegister r k f id hid
  case peerDelete.none => simp [handlePeerDelete, hid, Directory.apply]
  case peerDelete.some id => exact directory_handlePeerDelete r k f id hid
  case disableWatchdog.none => exact directory_modify r k _ fun _ => rfl
  case disableWatchdog.some id => exact directory_modify r k _ fun _ => rfl
  case mbxInit.none => simp [handleMbxInit, hid, Directory.apply]
  case mbxInit.some id => exact directory_handleMbxInit r k f id hid
  case mbxDelete.none => simp [handleMbxDelete, hid, Directory.apply]
  case mbxDelete.some id => exact directory_handleMbxDelete r f id hid
  case data.none => exact directory_handleData r k f
  case data.some id => exact directory_handleData r k f

theorem lt_of_isLive {r : TcpRouter} {k : ConnId} (h : r.isLive k = true) :
    k < r.connections.length := by
  by_contra hk
  simp [isLive, List.getElem?_eq_none (Nat.le_of_not_lt hk)] at h

/-- The simulation: one event of the router is one operation on its directory. -/
theorem directory_step (r : TcpRouter) (e : Event) :
    (r.step e).directory = r.directory.apply (r.effect e) := by
  cases e with
  | accept socket =>
    refine directory_congr rfl rfl ?_
    intro j
    simp only [step, isPeer, List.getElem?_append, List.getElem?_singleton]
    split
    · rfl
    · rename_i hj
      rw [List.getElem?_eq_none (Nat.le_of_not_lt hj)]
      split <;> rfl
  | connectPeer socket =>
    rw [step, directory_advertiseAsPeer]
    refine directory_eq rfl (fun _ => Iff.rfl) ?_
    intro j
    simp only [effect, Directory.apply, directory, isPeer, List.getElem?_append,
      List.getElem?_singleton, Set.mem_ofPred_eq, Set.mem_insert_iff]
    by_cases hj : j < r.connections.length
    · simp [hj, Nat.ne_of_lt hj]
    · rw [if_neg hj, List.getElem?_eq_none (Nat.le_of_not_lt hj)]
      -- `j` is the new connection, or there is no connection `j`.
      by_cases hj' : j = r.connections.length
      · simp [hj', Connection.start]
      · have : j - r.connections.length ≠ 0 :=
          Nat.sub_ne_zero_of_lt (Nat.lt_of_le_of_ne (Nat.le_of_not_lt hj) (Ne.symm hj'))
        simp [this, hj']
  | frame k i =>
    simp only [step]
    cases i with
    | whole f =>
      by_cases hlive : r.isLive k = true
      · by_cases hsize : f.header.bodyLen.toNat ≤ r.maxMsgSize
        · simp only [hlive, if_true, effect, hsize, and_self, handleFrame, Inbound.header,
            Nat.not_lt.mpr hsize, if_false]
          exact directory_dispatch r k f (lt_of_isLive hlive)
        -- Oversized: the socket is closed, and the tables stay.
        · simp only [hlive, if_true, effect, hsize, and_false, if_false, handleFrame,
            Inbound.header, Nat.not_le.mp hsize]
          exact directory_modify r k _ fun _ => rfl
      · simp [effect, hlive, Directory.apply]
    | torn h hpos =>
      simp only [effect, Directory.apply, handleFrame]
      split
      · split
        · exact directory_modify r k _ fun _ => rfl
        · rfl
      · rfl
  | eof k =>
    simp only [step, effect]
    split
    · exact directory_modify _ k (fun c => { c with finished := true }) fun _ => rfl
    · rfl
  | uplinkFrame u i =>
    rcases r.step_uplinkFrame u i with ⟨d, f, -, h⟩ | h | h
    · rw [h]
      exact directory_modify r d _ fun c => (c.sentOn_forward f).isPeer
    · rw [h]
      rfl
    · rw [h]
      exact directory_closeUplink r u
  | uplinkEnd u => exact directory_closeUplink r u

/-! ### Routes point at connections that exist -/

/-- Every route leads to a connection that exists. -/
def Wf (r : TcpRouter) : Prop := ∀ id k, r.find id = some k → k < r.connections.length

@[simp] theorem length_modify (r : TcpRouter) (k : ConnId) (g : Connection → Connection) :
    (r.modify k g).connections.length = r.connections.length :=
  List.length_modify ..

@[simp] theorem length_broadcastToPeers (r : TcpRouter) (g : Connection → Connection) :
    (r.broadcastToPeers g).connections.length = r.connections.length :=
  List.length_map ..

theorem length_handleFrame (r : TcpRouter) (k : ConnId) (i : Inbound) :
    (r.handleFrame k i).connections.length = r.connections.length := by
  have hdata : ∀ f, (r.handleData k f).connections.length = r.connections.length := by
    intro f
    have hcon := (r.tables_forwardToUpstream f).2.2.1
    unfold handleData
    split
    · exact length_modify ..
    · split
      · rfl
      · generalize r.forwardToUpstream f = res at hcon
        obtain ⟨ok, r'⟩ := res
        cases ok with
        | true => exact congrArg List.length hcon
        | false => exact (length_modify ..).trans (congrArg List.length hcon)
  unfold handleFrame
  split
  · exact length_modify ..
  · cases i with
    | torn h hpos => rfl
    | whole f =>
      simp only [dispatch]
      split
      · simp only [handlePeerHello, advertiseAsPeer]
        split <;> simp
      · simp only [handlePeerRegister]
        split <;> [split <;> rfl; rfl]
      · simp only [handlePeerDelete]
        split <;> [split <;> rfl; rfl]
      · exact length_modify ..
      · simp only [handleMbxInit]
        split
        · split <;> simp [onLocalRegistered]
        · rfl
      · simp only [handleMbxDelete]
        split
        · simp [onLocalDeleted]
        · rfl
      · exact hdata f

/-- Connections are never taken out of `connections_`. -/
theorem length_le_step (r : TcpRouter) (e : Event) :
    r.connections.length ≤ (r.step e).connections.length := by
  cases e with
  | accept socket => simp [step]
  | connectPeer socket => simp [step, advertiseAsPeer]
  | frame k i =>
    simp only [step]
    split
    · exact Nat.le_of_eq (length_handleFrame r k i).symm
    · exact Nat.le_refl _
  | eof k =>
    simp only [step, endRun]
    split
    · simp
    · exact Nat.le_refl _
  | uplinkFrame u i =>
    rcases r.step_uplinkFrame u i with ⟨d, f, -, h⟩ | h | h
    · rw [h, length_modify]
    · rw [h]
    · rw [h, (r.tables_closeUplink u).2.2.1]
  | uplinkEnd u =>
    rw [step, (r.tables_closeUplink u).2.2.1]

/-- Only a live connection claims a mailbox. -/
theorem isLive_of_effect_claim {r : TcpRouter} {e : Event} {id : MailboxId} {k : ConnId}
    (h : r.effect e = .claim id k ∨ r.effect e = .claimLocal id k) : r.isLive k = true := by
  cases e with
  | accept socket => simp [effect] at h
  | connectPeer socket => simp [effect] at h
  | uplinkFrame u i => simp [effect] at h
  | uplinkEnd u => simp [effect] at h
  | eof j =>
    simp only [effect] at h
    split at h <;> simp at h
  | frame j i =>
    cases i with
    | torn hd hpos => simp [effect] at h
    | whole f =>
      simp only [effect] at h
      split at h
      · rename_i hlive
        -- Both claims are made for the connection that the frame came on.
        have hjk : j = k := by
          simp only [frameEffect] at h
          split at h <;> (try split at h) <;> simp_all
        exact hjk ▸ hlive.1
      · simp at h

theorem wf_init (maxMsgSize : Nat) (up : TcpSocket) (sys : List SystemConnection) :
    (init maxMsgSize up sys).Wf := by
  intro id k h
  cases h

theorem wf_step (r : TcpRouter) (e : Event) (h : r.Wf) : (r.step e).Wf := by
  intro id k hk
  have howner : (r.directory.apply (r.effect e)).owner id = some k := by
    rw [← directory_step]
    exact hk
  -- The route is an old one, or its connection has just sent a frame.
  refine Nat.lt_of_lt_of_le ?_ (length_le_step r e)
  rcases Directory.owner_of_owner_apply howner with hold | hclaim
  · exact h id k hold
  · exact lt_of_isLive (isLive_of_effect_claim hclaim)

end TcpRouter

end CoreRaT.Spec
