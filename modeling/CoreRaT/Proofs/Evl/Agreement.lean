import CoreRaT.Lib.Run
import CoreRaT.Proofs.Evl.Tables

/-!
# `CoreRaT.Proofs.Evl.Agreement`: the two routers speak one protocol

Where no xbuf device can be opened, the EVL router is a second implementation of the TCP router.
`routers_agree` compares the two on the same events: the same bytes go out on every connection and
every uplink, the routes are the same up to the tag, and so are the local mailboxes and the peer
flags. The sockets carry the results of their coming sends, so the n-th send on a connection does
the same on both sides.

`Similar` is the relation that each event keeps. The connections are the same except for
`watchdog_enabled_`, which the EVL router does not have. The routers differ in one order: the EVL
router tells the peers about a new mailbox before it replies, the TCP router after. The reply and
the broadcast go to different connections, as long as the registration came from a client
(`modify_broadcastToPeers`).
-/

set_option autoImplicit false

namespace CoreRaT.Spec

open CoreRaT.Lib

/-! ### Connections without a watchdog -/

namespace Connection

/-- The connection as the EVL router has it: `watchdog_enabled_` never changes. -/
def core (c : Connection) : Connection := { c with watchdogEnabled := true }

@[simp] theorem socket_core (c : Connection) : c.core.socket = c.socket := rfl

@[simp] theorem isPeer_core (c : Connection) : c.core.isPeer = c.isPeer := rfl

@[simp] theorem core_start (socket : TcpSocket) (isPeer : Bool) :
    (start socket isPeer).core = start socket isPeer := rfl

/-- The operation does not look at the watchdog. -/
def IgnoresWatchdog (g : Connection → Connection) : Prop := ∀ c, (g c).core = g c.core

theorem ignoresWatchdog_sendAll (buf : List UInt8) :
    IgnoresWatchdog fun c => (c.sendAll buf).2 := fun _ => rfl

theorem ignoresWatchdog_forward (f : Frame) : IgnoresWatchdog fun c => (c.forward f).2 := by
  intro c
  simp only [forward, sendAll, socket_core]
  cases (c.socket.sendAll f.header.encode).1 <;> rfl

theorem ignoresWatchdog_sendMbx (type : Int8) (id : MailboxId) :
    IgnoresWatchdog fun c => c.sendMbx type id := fun _ => rfl

theorem ignoresWatchdog_advertiseAsPeer (ids : List MailboxId) :
    IgnoresWatchdog fun c => c.advertiseAsPeer ids := by
  have hfold : ∀ (ids : List MailboxId) (c : Connection),
      (ids.foldl sendPeerRegister c).core = ids.foldl sendPeerRegister c.core := by
    intro ids
    induction ids with
    | nil => exact fun c => rfl
    | cons id ids ih => exact fun c => ih (c.sendPeerRegister id)
  exact fun c => hfold ids _

end Connection

/-! ### The relation -/

/-- The EVL router `e` is in the state of the TCP router `t`. -/
structure Similar (t : TcpRouter) (e : EvlRouter) : Prop where
  maxMsgSize : e.maxMsgSize = t.maxMsgSize
  routes : ∀ id, (e.find id).map MailboxEntry.con = (t.find id).map some
  connections : e.connections = t.connections.map Connection.core
  localMailboxes : e.localMailboxes = t.localMailboxes
  systemConnections : e.systemConnections = t.systemConnections
  upstreamSocket : e.upstreamSocket = t.upstreamSocket

namespace Similar

variable {t : TcpRouter} {e : EvlRouter}

theorem init (maxMsgSize : Nat) (up : TcpSocket) (sys : List SystemConnection) :
    Similar (.init maxMsgSize up sys) (.init maxMsgSize up sys) :=
  ⟨rfl, fun _ => rfl, rfl, rfl, rfl, rfl⟩

theorem isPeer (h : Similar t e) (k : ConnId) : e.isPeer k = t.isPeer k := by
  simp only [EvlRouter.isPeer, TcpRouter.isPeer, h.connections, List.getElem?_map]
  cases t.connections[k]? <;> rfl

theorem isLive (h : Similar t e) (k : ConnId) : e.isLive k = t.isLive k := by
  simp only [EvlRouter.isLive, TcpRouter.isLive, h.connections, List.getElem?_map]
  cases t.connections[k]? <;> rfl

theorem uplinkIsOpen (h : Similar t e) (u : Uplink) : e.uplinkIsOpen u = t.uplinkIsOpen u := by
  cases u with
  | system i => simp only [EvlRouter.uplinkIsOpen, TcpRouter.uplinkIsOpen, h.systemConnections]
  | upstream => simp only [EvlRouter.uplinkIsOpen, TcpRouter.uplinkIsOpen, h.upstreamSocket]

/-- A mailbox without a route has no entry. -/
theorem find_none (h : Similar t e) {id : MailboxId} (hid : t.find id = none) :
    e.find id = none := by
  have hroute := h.routes id
  rw [hid] at hroute
  simpa using hroute

/-- The entry of a mailbox that is routed to `d`. -/
theorem find_some (h : Similar t e) {id : MailboxId} {d : ConnId} (hid : t.find id = some d) :
    e.find id = some (.tcp d) ∨ e.find id = some (.peer d) := by
  have hroute := h.routes id
  rw [hid, Option.map_some, Option.map_eq_some_iff] at hroute
  obtain ⟨x, hx, hcon⟩ := hroute
  cases x with
  | tcp c =>
    left
    rw [hx, Option.some.inj hcon]
  | peer c =>
    right
    rw [hx, Option.some.inj hcon]
  | xbuf y => cases hcon

/-! ### Operations that keep it -/

theorem modify (h : Similar t e) (k : ConnId) {g : Connection → Connection}
    (hg : Connection.IgnoresWatchdog g) : Similar (t.modify k g) (e.modify k g) := by
  refine { h with connections := ?_ }
  show e.connections.modify k g = (t.connections.modify k g).map Connection.core
  rw [h.connections]
  refine List.ext_getElem? fun j => ?_
  simp only [List.getElem?_map, List.getElem?_modify]
  cases t.connections[j]? with
  | none => rfl
  | some c =>
    simp only [Option.map_some, Option.map_eq_map]
    split
    · rw [hg c]
    · rfl

theorem broadcastToPeers (h : Similar t e) {g : Connection → Connection}
    (hg : Connection.IgnoresWatchdog g) :
    Similar (t.broadcastToPeers g) (e.broadcastToPeers g) := by
  refine { h with connections := ?_ }
  simp only [EvlRouter.broadcastToPeers, TcpRouter.broadcastToPeers, h.connections, List.map_map]
  refine List.map_congr_left fun c _ => ?_
  simp only [Function.comp_apply]
  by_cases hpeer : c.isPeer = true
  · rw [if_pos hpeer, if_pos (c.isPeer_core.trans hpeer), hg c]
  · rw [if_neg hpeer, if_neg (c.isPeer_core ▸ hpeer)]

theorem onLocalRegistered (h : Similar t e) (id : MailboxId) :
    Similar (t.onLocalRegistered id) (e.onLocalRegistered id) := by
  refine broadcastToPeers ?_ (Connection.ignoresWatchdog_sendMbx _ id)
  exact { h with localMailboxes := by rw [h.localMailboxes] }

theorem onLocalDeleted (h : Similar t e) (id : MailboxId) :
    Similar (t.onLocalDeleted id) (e.onLocalDeleted id) := by
  refine broadcastToPeers ?_ (Connection.ignoresWatchdog_sendMbx _ id)
  exact { h with localMailboxes := by rw [h.localMailboxes] }

theorem advertiseAsPeer (h : Similar t e) (k : ConnId) :
    Similar (t.advertiseAsPeer k) (e.advertiseAsPeer k) := by
  simp only [TcpRouter.advertiseAsPeer, EvlRouter.advertiseAsPeer, h.localMailboxes]
  exact h.modify k (Connection.ignoresWatchdog_advertiseAsPeer _)

theorem closeUplink (h : Similar t e) (u : Uplink) :
    Similar (t.closeUplink u) (e.closeUplink u) := by
  cases u with
  | system i =>
    exact { h with
      systemConnections := by
        simp only [EvlRouter.closeUplink, TcpRouter.closeUplink, h.systemConnections] }
  | upstream =>
    exact { h with
      upstreamSocket := by
        simp only [EvlRouter.closeUplink, TcpRouter.closeUplink, h.upstreamSocket] }

/-- Both routers choose the same uplink, and its socket answers both alike. -/
theorem forwardToUpstream (h : Similar t e) (f : Frame) :
    (e.forwardToUpstream f).1 = (t.forwardToUpstream f).1 ∧
      Similar (t.forwardToUpstream f).2 (e.forwardToUpstream f).2 := by
  have hroute : e.systemRoute f.header.dest = t.systemRoute f.header.dest := by
    simp only [EvlRouter.systemRoute, TcpRouter.systemRoute, h.systemConnections]
  simp only [EvlRouter.forwardToUpstream, TcpRouter.forwardToUpstream, hroute,
    h.systemConnections, h.upstreamSocket]
  cases t.systemRoute f.header.dest with
  | none => exact ⟨rfl, { h with systemConnections := rfl, upstreamSocket := rfl }⟩
  | some i =>
    cases hsc : t.systemConnections[i]? with
    | none => simpa only [hsc, true_and] using h
    | some sc =>
      simp only [hsc, true_and]
      exact { h with systemConnections := rfl, upstreamSocket := rfl }

/-! ### The registry -/

/-- `add` and `emplace` of an entry for the same connection. -/
theorem emplace (h : Similar t e) (id : MailboxId) {k : ConnId} {x : MailboxEntry}
    (hx : x.con = some k) :
    (e.registry.emplace id x).1 = (t.registry.add id k).1 ∧
      Similar { t with registry := (t.registry.add id k).2 }
        { e with registry := (e.registry.emplace id x).2 } := by
  have hnone : e.registry.find id = none ↔ t.registry.find id = none := by
    have hroute := congrArg (· = none) (h.routes id)
    simpa [EvlRouter.find, TcpRouter.find] using hroute
  constructor
  · rw [EvlRegistry.emplace_fst, Bool.eq_iff_iff, MailboxRegistry.add_eq_true_iff, ← hnone,
      Option.isNone_iff_eq_none]
  · refine { h with routes := ?_ }
    intro j
    simp only [EvlRouter.find, TcpRouter.find, EvlRegistry.find_emplace, MailboxRegistry.find_add,
      hnone]
    split
    · simp [hx]
    · exact h.routes j

theorem remove (h : Similar t e) (id : MailboxId) :
    Similar { t with registry := t.registry.remove id }
      { e with registry := e.registry.remove id } := by
  refine { h with routes := ?_ }
  intro j
  simp only [EvlRouter.find, TcpRouter.find, EvlRegistry.find_remove, MailboxRegistry.find_remove]
  split
  · rfl
  · exact h.routes j

/-- `remove_all` and `remove_all_for_con`. Without xbuf entries the kind makes no difference. -/
theorem removeAll (h : Similar t e) (k : ConnId) :
    Similar { t with registry := t.registry.removeAll k }
      { e with registry := e.registry.removeAllForCon k } := by
  refine { h with routes := ?_ }
  intro j
  simp only [EvlRouter.find, TcpRouter.find, EvlRegistry.find_removeAllForCon,
    MailboxRegistry.find_removeAll]
  cases hj : t.find j with
  | none =>
    have ht : t.registry.find j = none := hj
    have he : e.registry.find j = none := h.find_none hj
    simp [ht, he]
  | some d =>
    have ht : t.registry.find j = some d := hj
    have hentry : ∃ x, e.registry.find j = some x ∧ x.con = some d ∧
        EvlRegistry.isOfCon k x = (d == k) := by
      rcases h.find_some hj with he | he
      · exact ⟨_, he, rfl, rfl⟩
      · exact ⟨_, he, rfl, rfl⟩
    obtain ⟨x, hx, hcon, hof⟩ := hentry
    by_cases hd : d = k
    · simp [ht, hx, hof, hd, Option.filter]
    · simp [ht, hx, hof, hd, hcon, Option.filter]

theorem endRun (h : Similar t e) (k : ConnId) : Similar (t.endRun k) (e.endRun k) :=
  (h.removeAll k).modify k fun _ => rfl

/-! ### The handlers -/

theorem handlePeerHello (h : Similar t e) (k : ConnId) :
    Similar (t.handlePeerHello k) (e.handlePeerHello k) := by
  have hupgrade : Connection.IgnoresWatchdog ({ · with isPeer := true }) := fun _ => rfl
  simp only [TcpRouter.handlePeerHello, EvlRouter.handlePeerHello, h.isPeer]
  split
  · exact h
  · exact (h.modify k hupgrade).advertiseAsPeer k

theorem handlePeerRegister (h : Similar t e) (k : ConnId) (f : Frame) :
    Similar (t.handlePeerRegister k f) (e.handlePeerRegister k f) := by
  simp only [TcpRouter.handlePeerRegister, EvlRouter.handlePeerRegister, h.isPeer]
  split
  · cases f.mbx with
    | none => exact h
    | some id => exact (h.emplace id rfl).2
  · exact h

theorem handlePeerDelete (h : Similar t e) (k : ConnId) (f : Frame) :
    Similar (t.handlePeerDelete k f) (e.handlePeerDelete k f) := by
  simp only [TcpRouter.handlePeerDelete, EvlRouter.handlePeerDelete, h.isPeer]
  split
  · cases f.mbx with
    | none => exact h
    | some id => exact h.remove id
  · exact h

theorem handleMbxDelete (h : Similar t e) (f : Frame) :
    Similar (t.handleMbxDelete f) (e.handleMbxDelete f) := by
  simp only [TcpRouter.handleMbxDelete, EvlRouter.handleMbxDelete]
  cases f.mbx with
  | none => exact h
  | some id => exact (h.remove id).onLocalDeleted id

theorem handleData (h : Similar t e) (k : ConnId) (f : Frame) :
    Similar (t.handleData k f) (e.handleData k f) := by
  simp only [TcpRouter.handleData, EvlRouter.handleData]
  cases hdest : t.find f.header.dest with
  | some d =>
    rw [EvlRouter.connectionHop_of_con (h.find_some hdest)]
    exact h.modify d (Connection.ignoresWatchdog_forward f)
  | none =>
    simp only [EvlRouter.connectionHop, h.find_none hdest, h.isPeer]
    split
    · exact h
    · obtain ⟨hok, hup⟩ := h.forwardToUpstream f
      simp only [EvlRouter.perform]
      generalize t.forwardToUpstream f = rt at hok hup
      generalize e.forwardToUpstream f = re at hok hup
      obtain ⟨ok, t'⟩ := rt
      obtain ⟨ok', e'⟩ := re
      simp only at hok
      subst hok
      cases ok' with
      | true => exact hup
      | false => exact hup.modify k (Connection.ignoresWatchdog_sendAll _)

/-- A send to a client and a broadcast to the peers can be exchanged. -/
theorem modify_broadcastToPeers {e : EvlRouter} {k : ConnId} (hk : e.isPeer k = false)
    (g g' : Connection → Connection) (hg : ∀ c, (g c).isPeer = c.isPeer) :
    (e.broadcastToPeers g').modify k g = (e.modify k g).broadcastToPeers g' := by
  simp only [EvlRouter.modify, EvlRouter.broadcastToPeers, EvlRouter.mk.injEq, true_and, and_true]
  refine List.ext_getElem? fun j => ?_
  simp only [List.getElem?_map, List.getElem?_modify]
  by_cases hj : k = j
  · subst hj
    cases hc : e.connections[k]? with
    | none => rfl
    | some c =>
      have hclient : c.isPeer = false := by simpa [EvlRouter.isPeer, hc] using hk
      simp [hclient, hg]
  · simp [hj]

/-- A reply to a client before the peers are told, and after. -/
theorem reply_onLocalRegistered (h : Similar t e) {k : ConnId} (hk : t.isPeer k = false)
    (buf : List UInt8) (id : MailboxId) :
    Similar ((t.modify k fun c => (c.sendAll buf).2).onLocalRegistered id)
      ((e.onLocalRegistered id).modify k fun c => (c.sendAll buf).2) := by
  have hclient : { e with localMailboxes := e.localMailboxes.insert id }.isPeer k = false :=
    (h.isPeer k).trans hk
  have hsend : ∀ c : Connection, (c.sendAll buf).2.isPeer = c.isPeer := fun _ => rfl
  rw [EvlRouter.onLocalRegistered, modify_broadcastToPeers hclient _ _ hsend]
  exact (h.modify k (Connection.ignoresWatchdog_sendAll buf)).onLocalRegistered id

/-- The registrations agree when they come from a client. -/
theorem handleMbxInit (h : Similar t e) {k : ConnId} (hk : t.isPeer k = false) (f : Frame) :
    Similar (t.handleMbxInit k f) (e.handleMbxInit k f none) := by
  simp only [TcpRouter.handleMbxInit, EvlRouter.handleMbxInit]
  cases f.mbx with
  | none => exact h
  | some id =>
    obtain ⟨hok, hadd⟩ := h.emplace id (k := k) (x := .tcp k) rfl
    simp only [EvlRouter.registerMbx_eq, EvlRouter.newEntry, hok]
    cases (t.registry.add id k).1 with
    | false => exact hadd.modify k (Connection.ignoresWatchdog_sendAll _)
    | true => exact hadd.reply_onLocalRegistered hk _ id

end Similar

/-! ### The events of both routers -/

/-- An event of the protocol that both routers speak: one of the TCP router's, or a connection
thread that sees a stop request. -/
inductive SharedEvent
  | router (e : TcpRouter.Event)
  | stop (k : ConnId)

namespace SharedEvent

/-- The TCP router takes the event. The loop of a connection that was asked to stop ends like any
other. -/
def tcpStep (t : TcpRouter) : SharedEvent → TcpRouter
  | .router e => t.step e
  | .stop k => if (t.connections[k]?.map fun c => !c.finished).getD false then t.endRun k else t

/-- The event for the EVL router, on a host where no xbuf device can be opened. -/
def toEvl : SharedEvent → EvlRouter.Event
  | .router (.accept socket) => .accept socket
  | .router (.connectPeer socket) => .connectPeer socket
  | .router (.frame k i) => .frame k i none
  | .router (.eof k) => .eof k
  | .router (.uplinkFrame u i) => .uplinkFrame u i
  | .router (.uplinkEnd u) => .uplinkEnd u
  | .stop k => .stop k

/-- The EVL router takes the event. -/
def evlStep (e : EvlRouter) (ev : SharedEvent) : EvlRouter := e.step ev.toEvl

/-- A `MSG_ROUTER_MBX_INIT_WITH_REPLY` comes on a connection that is not a peer. -/
def InitOnClient (t : TcpRouter) : SharedEvent → Prop
  | .router (.frame k (.whole f)) => f.header.kind = .mbxInit → t.isPeer k = false
  | _ => True

end SharedEvent

/-! ### One event, then runs -/

namespace Similar

open SharedEvent

variable {t : TcpRouter} {e : EvlRouter}

theorem dispatch (h : Similar t e) {k : ConnId} {f : Frame}
    (hinit : f.header.kind = .mbxInit → t.isPeer k = false) :
    Similar (t.dispatch k f) (e.dispatch k f none) := by
  unfold TcpRouter.dispatch EvlRouter.dispatch
  cases hkind : f.header.kind with
  | peerHello => exact h.handlePeerHello k
  | peerRegister => exact h.handlePeerRegister k f
  | peerDelete => exact h.handlePeerDelete k f
  | disableWatchdog =>
    -- The TCP router clears a flag that `core` sets.
    refine { h with connections := h.connections.trans ?_ }
    refine List.ext_getElem? fun j => ?_
    simp only [TcpRouter.modify, List.getElem?_map, List.getElem?_modify]
    split
    · cases t.connections[j]? <;> rfl
    · cases t.connections[j]? <;> rfl
  | mbxInit => exact h.handleMbxInit (hinit hkind) f
  | mbxDelete => exact h.handleMbxDelete f
  | data => exact h.handleData k f

theorem handleFrame (h : Similar t e) {k : ConnId} {i : Inbound}
    (hinit : InitOnClient t (.router (.frame k i))) :
    Similar (t.handleFrame k i) (e.handleFrame k i none) := by
  have hclose : Connection.IgnoresWatchdog fun c => { c with socket := c.socket.close } :=
    fun _ => rfl
  simp only [TcpRouter.handleFrame, EvlRouter.handleFrame, h.maxMsgSize]
  split
  · exact h.modify k hclose
  · cases i with
    | whole f => exact h.dispatch hinit
    | torn hd hpos => exact h

theorem routeFromUplink (h : Similar t e) (u : Uplink) (i : Inbound) :
    Similar (t.routeFromUplink u i) (e.routeFromUplink u i) := by
  simp only [TcpRouter.routeFromUplink, EvlRouter.routeFromUplink, h.maxMsgSize]
  split
  · exact h.closeUplink u
  · cases i with
    | torn hd hpos => exact h.closeUplink u
    | whole f =>
      cases hdest : t.find f.header.dest with
      | none =>
        simpa only [hdest, EvlRouter.uplinkHop, h.find_none hdest, EvlRouter.perform] using h
      | some d =>
        simp only [hdest, EvlRouter.uplinkHop_of_con (h.find_some hdest)]
        exact h.modify d (Connection.ignoresWatchdog_forward f)

/-- A connection that both routers open. -/
theorem open_connection (h : Similar t e) (socket : TcpSocket) (isPeer : Bool) :
    Similar { t with connections := t.connections ++ [Connection.start socket isPeer] }
      { e with connections := e.connections ++ [Connection.start socket isPeer] } := by
  refine { h with connections := ?_ }
  simp only [h.connections, List.map_append, List.map_cons, List.map_nil, Connection.core_start]

/-- One event keeps the relation. -/
theorem step (h : Similar t e) {ev : SharedEvent} (hinit : InitOnClient t ev) :
    Similar (tcpStep t ev) (evlStep e ev) := by
  cases ev with
  | stop k =>
    have hrunning : e.isRunning k = (t.connections[k]?.map fun c => !c.finished).getD false := by
      simp only [EvlRouter.isRunning, h.connections, List.getElem?_map]
      cases t.connections[k]? <;> rfl
    simp only [tcpStep, evlStep, toEvl, EvlRouter.step, hrunning]
    split
    · exact h.endRun k
    · exact h
  | router ev =>
    cases ev with
    | accept socket => exact h.open_connection socket false
    | connectPeer socket =>
      have hlen : e.connections.length = t.connections.length := by
        rw [h.connections, List.length_map]
      simp only [tcpStep, evlStep, toEvl, TcpRouter.step, EvlRouter.step, hlen]
      exact (h.open_connection socket true).advertiseAsPeer _
    | frame k i =>
      simp only [tcpStep, evlStep, toEvl, TcpRouter.step, EvlRouter.step, h.isLive]
      split
      · exact h.handleFrame hinit
      · exact h
    | eof k =>
      simp only [tcpStep, evlStep, toEvl, TcpRouter.step, EvlRouter.step, h.isLive]
      split
      · exact h.endRun k
      · exact h
    | uplinkFrame u i =>
      simp only [tcpStep, evlStep, toEvl, TcpRouter.step, EvlRouter.step, h.uplinkIsOpen]
      split
      · exact h.routeFromUplink u i
      · exact h
    | uplinkEnd u => exact h.closeUplink u

end Similar

/-- What an observer can compare of the two routers: the bytes written on every connection and every
uplink, the routes without the tag, the local mailboxes and the peer flags. -/
structure Agree (t : TcpRouter) (e : EvlRouter) : Prop where
  written : ∀ k : ConnId, e.connections[k]?.map (·.socket.written)
    = t.connections[k]?.map (·.socket.written)
  writtenToSystems : ∀ i : Nat, e.systemConnections[i]?.map (·.socket.written)
    = t.systemConnections[i]?.map (·.socket.written)
  writtenUpstream : e.upstreamSocket.written = t.upstreamSocket.written
  routes : ∀ id, (e.find id).map MailboxEntry.con = (t.find id).map some
  localMailboxes : e.localMailboxes = t.localMailboxes
  isPeer : ∀ k, e.isPeer k = t.isPeer k

theorem Similar.agree {t : TcpRouter} {e : EvlRouter} (h : Similar t e) : Agree t e where
  written k := by
    simp only [h.connections, List.getElem?_map]
    cases t.connections[k]? <;> rfl
  writtenToSystems i := by rw [h.systemConnections]
  writtenUpstream := by rw [h.upstreamSocket]
  routes := h.routes
  localMailboxes := h.localMailboxes
  isPeer := h.isPeer

/-- The two routers agree after every event of every run in which registrations come from
clients. -/
theorem SharedEvent.routers_agree (maxMsgSize : Nat) (up : TcpSocket) (sys : List SystemConnection)
    (es : List SharedEvent)
    (hinit : AllSteps tcpStep InitOnClient (TcpRouter.init maxMsgSize up sys) es) (n : Nat) :
    Agree (runFrom tcpStep (TcpRouter.init maxMsgSize up sys) (es.take n))
      (runFrom evlStep (EvlRouter.init maxMsgSize up sys) (es.take n)) := by
  have hstep : ∀ (t : TcpRouter) (e : EvlRouter) (ev : SharedEvent), Similar t e →
      InitOnClient t ev → Similar (tcpStep t ev) (evlStep e ev) := fun _ _ _ h hev => h.step hev
  exact (related_of_allSteps hstep (Similar.init maxMsgSize up sys) hinit n).agree

/-- A peer is connected, and a client connects and registers mailbox 7. -/
def SharedEvent.clientRegisters : List SharedEvent :=
  [.router (.connectPeer ⟨true, fun _ => 64, [], []⟩),
    .router (.accept ⟨true, fun _ => 64, [], []⟩),
    .router (.frame 1 (.whole
      ⟨makeFrame MSG_ROUTER_MBX_INIT_WITH_REPLY 0 5 0 1 4, [7, 0, 0, 0], by decide⟩))]

/-- Both routers tell the peer and reply to the client. -/
theorem SharedEvent.routers_agree_clientRegisters :
    AllSteps tcpStep InitOnClient (TcpRouter.init 64 ⟨false, fun _ => 0, [], []⟩ [])
      clientRegisters ∧
    Agree
      (runFrom tcpStep (TcpRouter.init 64 ⟨false, fun _ => 0, [], []⟩ []) (clientRegisters.take 3))
      (runFrom evlStep (EvlRouter.init 64 ⟨false, fun _ => 0, [], []⟩ [])
        (clientRegisters.take 3)) := by
  have hinit : AllSteps tcpStep InitOnClient (TcpRouter.init 64 ⟨false, fun _ => 0, [], []⟩ [])
      clientRegisters := ⟨trivial, trivial, fun _ => rfl, trivial⟩
  exact ⟨hinit, routers_agree 64 _ [] clientRegisters hinit 3⟩

end CoreRaT.Spec
