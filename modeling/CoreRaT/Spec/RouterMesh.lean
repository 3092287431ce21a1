import CoreRaT.Spec.RouterThreads

/-!
# `CoreRaT.Spec.RouterMesh`: any number of routers joined by peer connections

Routers of `router/tcp_router.cpp`, each started with any number of `--peer` options. A link is a
connection between two of them: one router opens it in `connect_to_peers`, and the other one
accepts it like any connection. Two routers can be joined by several links. What a router writes
to its end of a link is unread until the thread at the other end reads it, and the opening router
can write before the other one has accepted.

`deliver i k n` reads the frame at position `n` of what is unread for connection `k` of router
`i`. A TCP stream delivers position 0 only; the other positions are for statements that hold in
any order.

The clients speak the client protocol: they register, delete, send data and disconnect, and do
not send the three `MSG_ROUTER_PEER_*` messages. No router is a peer of itself. Nothing comes in
over the connections upstream and the system routes: their readers, which hand data on, are in
`Spec/TcpRouter.lean`, and a network with them in `Spec/RouterNet.lean`.
-/

set_option autoImplicit false

namespace CoreRaT.Spec

/-- What is at the other end of a link. -/
structure FarEnd (ι : Type) where
  router : ι
  /-- The connection there, once that router has accepted it. -/
  con : Option ConnId
deriving DecidableEq

/-- Routers `ι`, their links, and the frames that are unread on each link. -/
@[ext]
structure RouterMesh (ι : Type) where
  router : ι → RouterThreads
  /-- The connections that lead to another router. -/
  link : ι → ConnId → Option (FarEnd ι)
  /-- The frames written to this end of a link that the other end has not read. -/
  unread : ι → ConnId → List Frame

namespace RouterMesh

open RouterThreads (clientEvent)

variable {ι : Type} [DecidableEq ι]

/-- Routers that have just started. -/
def init (upstreamOpen : ι → MailboxId → Bool) : RouterMesh ι where
  router := fun i => .init (upstreamOpen i)
  link := fun _ _ => none
  unread := fun _ _ => []

/-- The steps of the routers. -/
inductive Event (ι : Type)
  /-- `connect_to_peers` of router `i` opens a connection to router `j`. -/
  | connect (i j : ι)
  /-- The accept loop of router `j` takes the connection that router `i` has opened as its
  connection `k`. -/
  | acceptLink (j i : ι) (k : ConnId)
  /-- Any other step of router `i`. -/
  | router (i : ι) (e : RouterThreads.Event)
  /-- The thread of connection `k` of router `i` reads an unread frame of its link. -/
  | deliver (i : ι) (k : ConnId) (n : Nat)

/-- Connection `k` of router `i` is an end of a link. -/
def isLink (p : RouterMesh ι) (i : ι) (k : ConnId) : Bool := (p.link i k).isSome

/-- Router `i` takes the step `e`. -/
def advance (p : RouterMesh ι) (i : ι) (e : RouterThreads.Event) : RouterMesh ι :=
  { p with
      router := Function.update p.router i ((p.router i).step e)
      unread := Function.update p.unread i fun k =>
        if (p.link i k).isSome then p.unread i k ++ (p.router i).sent e k else p.unread i k }

/-- Connection `k` of router `i` becomes an end of a link. -/
def setLink (p : RouterMesh ι) (i : ι) (k : ConnId) (far : FarEnd ι) : RouterMesh ι :=
  { p with link := Function.update p.link i (Function.update (p.link i) k (some far)) }

/-- One step. An event that is not enabled changes nothing. -/
def step (p : RouterMesh ι) : Event ι → RouterMesh ι
  | .connect i j =>
    if i ≠ j ∧ (p.router i).accepting = none then
      (p.advance i (.start true)).setLink i (p.router i).started ⟨j, none⟩
    else p
  | .acceptLink j i k =>
    if i ≠ j ∧ p.link i k = some ⟨j, none⟩ ∧ (p.router j).accepting = none then
      ((p.advance j (.start false)).setLink j (p.router j).started ⟨i, some k⟩).setLink i k
        ⟨j, some (p.router j).started⟩
    else p
  | .router i e => if clientEvent (p.isLink i) e then p.advance i e else p
  | .deliver i k n =>
    match p.link i k with
    | some ⟨j, some l⟩ =>
      match (p.unread j l)[n]? with
      | some f =>
        if (p.router i).pc k = .loop then
          { p with
              unread := Function.update p.unread j
                (Function.update (p.unread j) l ((p.unread j l).eraseIdx n)) }.advance i
            (.recv k f)
        else p
      | none => p
    | _ => p

end RouterMesh

end CoreRaT.Spec
