import CoreRaT.Spec.RouterThreads

/-!
# `CoreRaT.Spec.RouterPair`: two routers joined by a peer connection

Two routers with their clients, and at most one connection between them, the link. One side
opens it in `connect_to_peers`, the other side accepts it like any connection. What a side
writes to its end of the link is in flight until the thread at the other end reads it.

`deliver s i` reads the frame at position `i` of what is in flight to side `s`. A TCP stream
delivers position 0 only; the other positions are for statements that hold in any order.

The clients speak the client protocol: they register, delete, send data and disconnect, and
do not send the three `MSG_ROUTER_PEER_*` messages.

`Spec/RouterMesh.lean` has any number of routers and links. A pair is a mesh with one link
(`Proofs/Pair/Mesh.lean`).
-/

set_option autoImplicit false

namespace CoreRaT.Spec

open CoreRaT.Lib

/-- The two routers. -/
inductive Side
  | a
  | b
deriving DecidableEq

/-- The router at the other end of the link. -/
def Side.other : Side → Side
  | .a => .b
  | .b => .a

/-- Two routers, their ends of the link, and the frames in flight to each side. -/
structure RouterPair where
  router : Side → RouterThreads
  link : Side → Option ConnId
  inflight : Side → List Frame

namespace RouterPair

open RouterThreads (clientEvent)

/-- Two routers that have just started. -/
def init (upstreamOpen : Side → MailboxId → Bool) : RouterPair where
  router := fun s => .init (upstreamOpen s)
  link := fun _ => none
  inflight := fun _ => []

/-- The steps of the two routers. -/
inductive Event
  /-- `connect_to_peers` of this side opens the link. -/
  | connect (s : Side)
  /-- The accept loop of this side takes the link that the other side has opened. -/
  | acceptLink (s : Side)
  /-- Any other step of this side's router. -/
  | router (s : Side) (e : RouterThreads.Event)
  /-- The link thread of this side reads the frame at position `i` of what is in flight. -/
  | deliver (s : Side) (i : Nat)

/-- Connection `k` of side `s` is its end of the link. -/
def isLink (p : RouterPair) (s : Side) (k : ConnId) : Bool := p.link s = some k

/-- The frames that step `e` of side `s` writes to the link. -/
def sent (p : RouterPair) (s : Side) (e : RouterThreads.Event) : List Frame :=
  match p.link s with
  | some l => (p.router s).sent e l
  | none => []

/-- Side `s` takes the step `e`. -/
def advance (p : RouterPair) (s : Side) (e : RouterThreads.Event) : RouterPair :=
  { p with
      router := Function.update p.router s ((p.router s).step e)
      inflight := Function.update p.inflight s.other (p.inflight s.other ++ p.sent s e) }

/-- Side `s` opens its end of the link. -/
def openLink (p : RouterPair) (s : Side) (isPeer : Bool) : RouterPair :=
  { p.advance s (.start isPeer) with
      link := Function.update p.link s (some (p.router s).started) }

/-- One step. An event that is not enabled changes nothing. -/
def step (p : RouterPair) : Event → RouterPair
  | .connect s =>
    if p.link s = none ∧ p.link s.other = none ∧ (p.router s).accepting = none then
      p.openLink s true
    else p
  | .acceptLink s =>
    if p.link s = none ∧ p.link s.other ≠ none ∧ (p.router s).accepting = none then
      p.openLink s false
    else p
  | .router s e => if clientEvent (p.isLink s) e then p.advance s e else p
  | .deliver s i =>
    match p.link s, (p.inflight s)[i]? with
    | some l, some f =>
      if (p.router s).pc l = .loop then
        { p with inflight := Function.update p.inflight s ((p.inflight s).eraseIdx i) }.advance s
          (.recv l f)
      else p
    | _, _ => p

/-- The registry of side `s` maps `id` to the link. -/
def RoutesToPeer (p : RouterPair) (s : Side) (id : MailboxId) : Prop :=
  ∃ l, p.link s = some l ∧ (p.router s).registry.find id = some l

/-- All operations have finished and all frames in flight have been handled. -/
def Settled (p : RouterPair) : Prop :=
  ∀ s, (p.router s).Quiescent ∧ p.inflight s = []

end RouterPair

end CoreRaT.Spec
