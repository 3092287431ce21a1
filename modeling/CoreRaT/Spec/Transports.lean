import Mathlib.Logic.Function.Basic
import CoreRaT.Spec.Mailbox

/-!
# `CoreRaT.Spec.Transports`: the ways from one mailbox to another

What the other modules leave out of the paths of a message. `send_raw` in `Mode::Local` looks for
the destination in the registry of the process. In `Mode::Network` it sends a datagram to an
endpoint that it computes from the destination, and `receive_oob_udp` has nothing but the datagram.

The kernel's part in `Mode::Network` is a table of the sockets that are bound. The text of an IP
address is not looked at: a route has the address that `inet_pton` makes of it.
-/

set_option autoImplicit false

namespace CoreRaT.Spec

open CoreRaT.Lib

/-- The transports of a message from one mailbox to another. -/
inductive Transport
  | tims
  | localRing
  | publicRing
  | oobUdp
  /-- `send_raw` writes into the xbuf, and `run_reader` forwards. -/
  | xbuf
deriving DecidableEq

/-! ### Rings -/

/-- A mailbox with a ring, as a sender finds it. -/
structure RingOwner where
  mailboxId : MailboxId
  created : Bool
  ring : EvlRing

/-- What `send_raw` does with the mailbox that it has found for `dest`. In another process it is the
mailbox that has created the ring with the name of `dest`. -/
def RingOwner.put (path : RingPath) (dest : MailboxId) (m : RingOwner) (data : List UInt8)
    (priority : Int8) (src : MailboxId) : Bool × RingOwner :=
  match path with
  | .sameProcess =>
    if m.mailboxId = dest ∧ m.created = true then
      let (ok, ring) := m.ring.post data priority src
      (ok, { m with ring })
    else (false, m)
  | .otherProcess =>
    let (ok, ring) := m.ring.postToRemote data priority src
    (ok, { m with ring })

/-! ### `Mode::Network` -/

namespace EvlNetworkConfig

def kOobBasePort : UInt16 := 42000

def kMaxRoutes : Nat := 8

/-- `port_for`. The sum is a `uint32_t`, and the cast keeps its lower half. -/
def portFor (id : MailboxId) : UInt16 := (kOobBasePort.toUInt32 + (id &&& 0x7FFF)).toUInt16

/-- `system_id_of`. -/
def systemIdOf (id : MailboxId) : UInt8 := ((id >>> 24) &&& 0xFF).toUInt8

end EvlNetworkConfig

open EvlNetworkConfig

/-- An IPv4 address and a port. -/
structure Endpoint where
  ip : UInt32
  port : UInt16
deriving DecidableEq

/-- `NetworkRouteEntry`. -/
structure NetworkRouteEntry where
  systemId : UInt8
  ipAddr : UInt32
  valid : Bool

/-- `net_routes_` after `create_oob_socket`, for the routes of the configuration. An address is
`none` if `inet_pton` has failed. -/
def netRoutes (routes : List (UInt8 × Option UInt32)) (routeCount : Nat) :
    List NetworkRouteEntry :=
  (routes.take (min routeCount kMaxRoutes)).map fun r =>
    match r.2 with
    | some ip => ⟨r.1, ip, true⟩
    | none => ⟨0, 0, false⟩

/-- `send_oob_udp`: the result, and the datagram with the endpoint to which it is sent.
`oobSendmsg` is whether the kernel takes it. -/
def sendOobUdp (routes : List NetworkRouteEntry) (oobSendmsg : Bool) (data : List UInt8)
    (dest : MailboxId) : TimsResult × Option (Endpoint × List UInt8) :=
  match routes.find? fun r => r.valid && r.systemId == systemIdOf dest with
  | none => (.ERROR_SEND, none)
  | some route =>
    if oobSendmsg then (.SUCCESS, some (⟨route.ipAddr, portFor dest⟩, data))
    else (.ERROR_SEND, none)

/-- The sockets of a host: which mailbox is bound to a port. -/
structure OobHost where
  ip : UInt32
  bound : UInt16 → Option MailboxId

namespace OobHost

/-- `::bind` to `INADDR_ANY`, which fails if the port is taken. The port 0 stands for any port, and
the kernel takes `kernelPort`. -/
def bind (h : OobHost) (port kernelPort : UInt16) (id : MailboxId) : Option OobHost :=
  let port := if port = 0 then kernelPort else port
  match h.bound port with
  | some _ => none
  | none => some { h with bound := Function.update h.bound port (some id) }

/-- The socket of `create_oob_socket`: the host with it, or `none` if the function fails. `socket`
is whether `::socket` returns one. -/
def createOobSocket (h : OobHost) (socket : Bool) (kernelPort : UInt16) (id : MailboxId) :
    Option OobHost :=
  if !socket then none else h.bind (portFor id) kernelPort id

/-- The mailboxes are initialized one after another. -/
def bindAll (h : OobHost) (kernelPort : UInt16) : List MailboxId → Option OobHost
  | [] => some h
  | id :: ids =>
    match h.createOobSocket true kernelPort id with
    | none => none
    | some h => bindAll h kernelPort ids

/-- The mailbox that gets a datagram. -/
def receiver (h : OobHost) (e : Endpoint) : Option MailboxId :=
  if e.ip = h.ip then h.bound e.port else none

end OobHost

/-- `send_raw` in `Mode::Network`. -/
def sendRawNetwork (config : TimsConfig) (routes : List NetworkRouteEntry) (oobSendmsg : Bool)
    (data : List UInt8) (dest : MailboxId) : TimsResult × Option (Endpoint × List UInt8) :=
  if data.length = 0 ∨ config.maxMsgSize < data.length then (.ERROR_INVALID_MSG, none)
  else sendOobUdp routes oobSendmsg data dest

/-- `receive_oob_udp`, for the datagram that `oob_recvmsg` takes. The kernel cuts off what does not
fit into the buffer. -/
def receiveOobUdp (bufferSize : Nat) (datagram : List UInt8) : Mailbox.RawReceived :=
  let bytes := datagram.take bufferSize
  if bytes.length = 0 then .failed 0
  else
    let hdr := if sizeofWireHeader ≤ bytes.length then WireHeader.decode bytes else .zero
    .message bytes
      { src := hdr.src
        dest := hdr.dest
        seqNr := hdr.seqNumber
        priority := 0
        flags := hdr.flags.toUInt8 }

end CoreRaT.Spec
