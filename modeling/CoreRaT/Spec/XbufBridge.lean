import CoreRaT.Spec.EvlRouter

/-!
# `CoreRaT.Spec.XbufBridge`: from an EVL mailbox to the router

The way of a message from an EVL node to a mailbox elsewhere. `EvlMailbox::send_raw` writes it into
the node's xbuf with `oob_write`, and the reader of the xbuf in the router (`run_reader`) takes what
one `::read` gives for one message.

The xbuf is an ordered ring of bytes. It does not know where a message ends. A write puts the whole
message into the ring, or nothing when there is no room. A read takes a non-empty part from the
front of what is there, and `n`, the number of bytes, is the kernel's answer.
-/

set_option autoImplicit false

namespace CoreRaT.Spec

/-- A serialized message: a `WireHeader`, whose `msg_size` is the length of the whole. -/
structure WireBytes where
  bytes : List UInt8
  header_le : sizeofWireHeader ≤ bytes.length
  msgSize_eq : (WireHeader.decode bytes).msgSize.toNat = bytes.length

/-- The destination in the `WireHeader` of the message. -/
def WireBytes.dest (m : WireBytes) : MailboxId := (WireHeader.decode m.bytes).dest

/-- The outbound ring of an xbuf. -/
structure XbufRing where
  size : Nat
  bytes : List UInt8

namespace XbufRing

/-- The outbound ring that `create_xbuf` makes, for a mailbox with this many slots. -/
def create (config : TimsConfig) (capacity : Nat) : XbufRing := ⟨config.maxMsgSize * capacity, []⟩

/-- `oob_write`, and whether it took the message. -/
def oobWrite (ring : XbufRing) (data : List UInt8) : Bool × XbufRing :=
  if ring.bytes.length + data.length ≤ ring.size then
    (true, { ring with bytes := ring.bytes ++ data })
  else (false, ring)

end XbufRing

/-- An EVL mailbox, its xbuf, and the router behind it. -/
structure XbufBridge where
  config : TimsConfig
  ring : XbufRing
  router : EvlRouter
  /-- The messages that `send_raw` has written. -/
  sent : List WireBytes
  /-- The frames that `run_reader` has forwarded, with their connections. -/
  forwarded : List (ConnId × Frame)

namespace XbufBridge

/-- Nothing has been sent. -/
def init (config : TimsConfig) (capacity : Nat) (router : EvlRouter) : XbufBridge where
  config := config
  ring := .create config capacity
  router := router
  sent := []
  forwarded := []

/-- What the two ends of the xbuf do. -/
inductive Event
  /-- The mailbox sends a message for a destination that it cannot reach itself. -/
  | send (m : WireBytes)
  /-- The reader's `::read` gives `n` bytes. -/
  | read (n : Nat)

/-- `::read` can give `n` bytes: they are there, and they fit into the reader's buffer. -/
def CanRead (s : XbufBridge) (n : Nat) : Prop :=
  0 < n ∧ n ≤ s.ring.bytes.length ∧ n ≤ s.router.maxMsgSize ∧ n ≤ 0x7ffff000

instance (s : XbufBridge) (n : Nat) : Decidable (s.CanRead n) :=
  inferInstanceAs (Decidable (_ ∧ _))

/-- The bytes of the read. -/
def readBytes (s : XbufBridge) (n : Nat) (h : s.CanRead n) : XbufRead where
  bytes := s.ring.bytes.take n
  length_le := Nat.le_trans (List.length_take_le ..) h.2.2.2

/-- The frame that a hop forwards. -/
def forwardedBy : EvlRouter.Hop → List (ConnId × Frame)
  | .forward c f => [(c, f)]
  | _ => []

/-- One event. -/
def step (s : XbufBridge) : Event → XbufBridge
  | .send m =>
    -- `oob_write` looks at neither the priority nor the sender.
    match evlSendRaw s.config (fun ring data _ _ => ring.oobWrite data) s.ring m.bytes 0 with
    | (.SUCCESS, ring) => { s with ring, sent := s.sent ++ [m] }
    | (_, ring) => { s with ring }
  | .read n =>
    if h : s.CanRead n then
      let d := s.readBytes n h
      { s with
          ring := { s.ring with bytes := s.ring.bytes.drop n }
          router := s.router.routeFromXbuf d
          forwarded := s.forwarded ++ forwardedBy (s.router.xbufHop d) }
    else s

end XbufBridge

end CoreRaT.Spec
