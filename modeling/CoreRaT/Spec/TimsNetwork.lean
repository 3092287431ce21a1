import CoreRaT.Spec.TimsMailbox
import CoreRaT.Spec.RouterNet

/-!
# `CoreRaT.Spec.TimsNetwork`: mailboxes on one router

The two ends of the TiMS transport together: `TimsMailbox` of `tims_backend.cpp` in each of `n`
client processes, and the router of `router/tcp_router.cpp` between them. Mailbox `k` is connected
to the router by connection `k`. What one end writes to its socket is on the way until the other
end reads it, as bytes: frames are cut out of the byte stream again by the reader.

`receive` calls `receive_raw` with the chunks in which the bytes on the way arrive. The answers of
`::poll` are free, so the call can also find nothing where bytes are on the way.

`sent` and `received` are not in the code. They record what `send_raw` has accepted and what
`receive_raw` has delivered.
-/

set_option autoImplicit false

namespace CoreRaT.Spec

/-- What a call of `receive_raw` delivers. -/
def ReceiveResult.delivered : ReceiveResult → List (TimsMetadata × List UInt8)
  | .received body metadata => [(metadata, body)]
  | _ => []

/-- `n` mailboxes, the router, and the bytes between them. -/
structure TimsNetwork (n : Nat) where
  mailbox : Fin n → TimsMailbox
  router : TcpRouter
  /-- The bytes from mailbox `k` that its thread at the router has not read. -/
  toRouter : Fin n → List UInt8
  /-- The bytes for mailbox `k` that it has not read. -/
  toMailbox : Fin n → List UInt8
  sent : Fin n → List (MailboxId × List UInt8)
  received : Fin n → List (TimsMetadata × List UInt8)

namespace TimsNetwork

/-- The steps of the mailboxes and of the router. -/
inductive Event (n : Nat)
  /-- Mailbox `k` calls `send_raw`. -/
  | send (k : Fin n) (data : List UInt8) (dest : MailboxId)
  /-- The thread of connection `k` reads the next frame and handles it. -/
  | route (k : Fin n)
  /-- Mailbox `k` calls `receive_raw`. The bytes on the way arrive as `chunks`. -/
  | receive (k : Fin n) (bufferSize : Nat) (polls : Nat → Int) (chunks : List (List UInt8))

variable (swapEndiannessFrom : (littleEndian : Bool) → List UInt8 → List UInt8) {n : Nat}

/-- Mailbox `k` has become `m`. What it has written is on the way to the router. -/
def setMailbox (s : TimsNetwork n) (k : Fin n) (m : TimsMailbox) : TimsNetwork n :=
  { s with
      mailbox := Function.update s.mailbox k m
      toRouter := Function.update s.toRouter k
        (s.toRouter k ++ m.socket.written.drop (s.mailbox k).socket.written.length) }

/-- The router has become `r`. What it has written is on the way to the mailboxes. -/
def setRouter (s : TimsNetwork n) (r : TcpRouter) : TimsNetwork n :=
  { s with
      router := r
      toMailbox := fun k =>
        s.toMailbox k ++ (r.writtenTo k).drop (s.router.writtenTo k).length }

/-- One step. An event that is not enabled changes nothing. -/
def step (s : TimsNetwork n) : Event n → TimsNetwork n
  | .send k data dest =>
    let (result, m) := (s.mailbox k).sendRaw data dest
    { s.setMailbox k m with
        sent := Function.update s.sent k
          (s.sent k ++ if result = .SUCCESS then [(dest, data)] else []) }
  | .route k =>
    match splitFrame (s.toRouter k) with
    | some (f, rest) =>
      { s with toRouter := Function.update s.toRouter k rest }.setRouter
        (s.router.step (.frame k (.whole f)))
    -- The frame has not arrived in full: the thread waits in `recv_all`.
    | none => s
  | .receive k bufferSize polls chunks =>
    if chunks.flatten = s.toMailbox k ∧ [] ∉ chunks then
      let m := { s.mailbox k with socket := { (s.mailbox k).socket with inbound := chunks } }
      let (result, m) := m.receiveRaw swapEndiannessFrom bufferSize polls
      { s.setMailbox k m with
          toMailbox := Function.update s.toMailbox k m.socket.inbound.flatten
          received := Function.update s.received k (s.received k ++ result.delivered) }
    else s

/-- The bodies that mailbox `k` has sent to `dest`, in order. -/
def sentTo (s : TimsNetwork n) (k : Fin n) (dest : MailboxId) : List (List UInt8) :=
  (s.sent k).filterMap fun x => if x.1 = dest then some x.2 else none

/-- The bodies that mailbox `d` has received from `src`, in order. -/
def receivedFrom (s : TimsNetwork n) (d : Fin n) (src : MailboxId) : List (List UInt8) :=
  (s.received d).filterMap fun x => if x.1.src = src then some x.2 else none

end TimsNetwork

end CoreRaT.Spec
