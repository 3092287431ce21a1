import Mathlib.Tactic.Common

/-!
# `CoreRaT.Spec.TcpSocket`: the socket helper

`TcpSocket` of `ipc/tims/tcp_socket.hpp`, with the kernel's answers made explicit. A socket
carries the results that its coming `::send` calls give, the bytes the kernel has taken, and
the chunks in which the bytes from the other end arrive.

* `send` gives the next result. A result of at most 0 is an error and takes nothing. A
  positive result takes that many bytes, and never more than were offered.
* `recv` gives what it can of the first chunk. An exhausted stream, and an empty chunk, are
  the results `n ≤ 0` of `::recv`: end of stream or an error.
* Both fail at once on a closed socket, whose `fd_` is -1.

`sendAll` and `recvAll` are the loops of the source. Each round moves at least one byte, so
`len` rounds are enough; the fuel of the loops is that bound.
-/

set_option autoImplicit false

namespace CoreRaT.Spec

/-- One end of a TCP connection. -/
structure TcpSocket where
  /-- `fd_ >= 0`. -/
  isOpen : Bool
  /-- The result of the next `::send` calls on this socket. -/
  sendResults : Nat → Int
  /-- The bytes that the kernel has taken from this end. -/
  written : List UInt8
  /-- The bytes that arrive at this end, as the chunks that `::recv` finds. -/
  inbound : List (List UInt8)

namespace TcpSocket

/-- `TcpSocket::close`. -/
def close (s : TcpSocket) : TcpSocket := { s with isOpen := false }

/-- `::send(fd_, buf, len, MSG_NOSIGNAL)`. -/
def send (s : TcpSocket) (buf : List UInt8) : Int × TcpSocket :=
  if s.isOpen then
    let taken := min (s.sendResults 0).toNat buf.length
    (if s.sendResults 0 ≤ 0 then s.sendResults 0 else taken,
      -- An error takes nothing: `toNat` of it is 0.
      { s with
          sendResults := fun i => s.sendResults (i + 1)
          written := s.written ++ buf.take taken })
  else (-1, s)

/-- The loop of `send_all`, on the bytes that are still to be sent. -/
def sendAllLoop : (fuel : Nat) → TcpSocket → List UInt8 → Bool × TcpSocket
  | _, s, [] => (true, s)
  | 0, s, _ :: _ => (false, s)
  | fuel + 1, s, b :: bs =>
    match s.send (b :: bs) with
    | (n, s') => if n ≤ 0 then (false, s') else sendAllLoop fuel s' ((b :: bs).drop n.toNat)

/-- `TcpSocket::send_all`. -/
def sendAll (s : TcpSocket) (buf : List UInt8) : Bool × TcpSocket :=
  sendAllLoop buf.length s buf

/-- Sending does not close the descriptor. -/
theorem isOpen_sendAllLoop (fuel : Nat) (s : TcpSocket) (buf : List UInt8) :
    (sendAllLoop fuel s buf).2.isOpen = s.isOpen := by
  induction fuel generalizing s buf with
  | zero => cases buf <;> rfl
  | succ fuel ih =>
    cases buf with
    | nil => rfl
    | cons b bs =>
      have hsend : (s.send (b :: bs)).2.isOpen = s.isOpen := by
        simp only [send]
        split <;> rfl
      simp only [sendAllLoop]
      split
      · exact hsend
      · rw [ih, hsend]

theorem isOpen_sendAll (s : TcpSocket) (buf : List UInt8) :
    (s.sendAll buf).2.isOpen = s.isOpen :=
  isOpen_sendAllLoop ..

/-- `::recv(fd_, buf, len, 0)`: the bytes read, none for a result `n ≤ 0`. -/
def recv (s : TcpSocket) (len : Nat) : List UInt8 × TcpSocket :=
  if s.isOpen then
    match s.inbound with
    | [] => ([], s)
    | c :: cs => (c.take len, { s with inbound := if c.length ≤ len then cs else c.drop len :: cs })
  else ([], s)

/-- The loop of `recv_all`: `len` bytes are still to come, `got` are there. -/
def recvAllLoop : (fuel : Nat) → TcpSocket → (len : Nat) → (got : List UInt8) →
    Option (List UInt8) × TcpSocket
  | _, s, 0, got => (some got, s)
  | 0, s, _ + 1, _ => (none, s)
  | fuel + 1, s, len + 1, got =>
    match s.recv (len + 1) with
    | ([], s') => (none, s')
    | (b :: bs, s') => recvAllLoop fuel s' (len + 1 - (b :: bs).length) (got ++ b :: bs)

/-- `TcpSocket::recv_all`: `none` for a return of `false`. -/
def recvAll (s : TcpSocket) (len : Nat) : Option (List UInt8) × TcpSocket :=
  recvAllLoop len s len []

/-- `TcpSocket::poll_in`, where `ready` is what `::poll` answers for the descriptor.
`::poll` ignores a negative descriptor and returns 0. -/
def pollIn (s : TcpSocket) (ready : Int) : Int := if s.isOpen then ready else 0

end TcpSocket

end CoreRaT.Spec
