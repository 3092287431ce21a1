import Mathlib.Logic.Function.Basic
import CoreRaT.Spec.TcpRouter

/-!
# `CoreRaT.Spec.RegistryLock`: the threads of the EVL router at its registry

`MailboxRegistry` of `router/evl_router.cpp` with its `std::shared_mutex`, and the threads that use
it: the connection threads, and one reader thread for each `XbufEntry`. Every lock, table access,
unlock and every line of `run_reader` that another thread can see is a step of its own, so a list of
events is one interleaving of the threads.

An `XbufEntry` lives as long as a `shared_ptr` to it does. `refs` is the `use_count`: one for the
table, one for each copy that a thread has from `find` or from `make_shared`. The thread that gives
up the last one runs `~XbufEntry`: it closes the descriptor, then the destructor of `reader_thread_`
requests a stop and joins the reader. `table_.erase` in `remove()` can be what gives up the last
one, and then all of this happens under the lock.

What a message says beyond its destination, and what is sent to connections, does not matter here.
-/

set_option autoImplicit false

namespace CoreRaT.Spec

/-- An `XbufEntry*`: the entries are numbered as they are made. -/
abbrev XbufId := Nat

/-- A registry entry: a connection, or the `shared_ptr` to an `XbufEntry`. -/
inductive SharedEntry
  | con (c : ConnId)
  | xbuf (x : XbufId)
deriving DecidableEq

/-- The calls of a connection thread that take the registry's mutex. -/
inductive RegistryCall
  | remove (id : MailboxId)
  | find (id : MailboxId)
  /-- `add_xbuf` of an entry made for it. -/
  | addXbuf (id : MailboxId) (x : XbufId)
  /-- `add_tcp` and `add_peer`. -/
  | addCon (id : MailboxId)
  | removeAllForCon
deriving DecidableEq

/-- `find` takes the mutex shared, the others take it exclusively. -/
def RegistryCall.isExclusive : RegistryCall → Bool
  | .find _ => false
  | _ => true

/-- How far `~XbufEntry` has come: before `::close`, before `request_stop`, in `join`. -/
inductive DestroyPhase
  | close
  | requestStop
  | join
deriving DecidableEq

/-- Where a connection thread stands. -/
inductive ConnectionPc
  | idle
  /-- Before the lock of the call. -/
  | wait (call : RegistryCall)
  /-- It has the lock, and has not touched the table. -/
  | held (call : RegistryCall)
  /-- In `~XbufEntry` of `x`. Under the lock when `remove` runs it. -/
  | destroying (locked : Bool) (phase : DestroyPhase) (x : XbufId)
  /-- Before the unlock. `copy` is the `shared_ptr` that the thread takes along, and `start` says
  that it goes on to `start_reader`. -/
  | unlock (exclusive : Bool) (copy : Option XbufId) (start : Bool)
  /-- Behind the call. -/
  | returned (copy : Option XbufId) (start : Bool)
deriving DecidableEq

/-- Where the reader thread of an `XbufEntry` stands in `run_reader`. -/
inductive ReaderPc
  | notStarted
  | loopCondition
  | poll
  | read
  /-- Before the lock of `registry_.find(dest)`. -/
  | findWait (dest : MailboxId)
  /-- It has the lock. -/
  | findHeld (dest : MailboxId)
  /-- Before the unlock, with its copy of an xbuf entry. -/
  | findUnlock (copy : Option XbufId)
  /-- Behind `find`: the message is forwarded or dropped, and `entry` goes out of scope. -/
  | forward (copy : Option XbufId)
  /-- In `~XbufEntry` of `y`, whose last `shared_ptr` was `entry`. -/
  | destroying (phase : DestroyPhase) (y : XbufId)
  | ended
deriving DecidableEq

/-- The registry, its mutex, and the threads. -/
structure RegistryLock where
  table : MailboxId → Option SharedEntry
  /-- The thread that holds the mutex exclusively. -/
  writer : Option ConnId
  /-- The number of threads that hold it shared. -/
  shared : Nat
  connection : ConnId → ConnectionPc
  reader : XbufId → ReaderPc
  /-- The number of entries that were made. -/
  made : Nat
  /-- `use_count`. -/
  refs : XbufId → Nat
  /-- `fd_ >= 0`. -/
  fdOpen : XbufId → Bool
  stopRequested : XbufId → Bool

namespace RegistryLock

/-- A router that has just started. -/
def init : RegistryLock where
  table := fun _ => none
  writer := none
  shared := 0
  connection := fun _ => .idle
  reader := fun _ => .notStarted
  made := 0
  refs := fun _ => 0
  fdOpen := fun _ => true
  stopRequested := fun _ => false

/-- What a connection thread does. -/
inductive ConnectionAction
  /-- It calls, other than `add_xbuf`. -/
  | call (call : RegistryCall)
  /-- It registers a mailbox whose xbuf it has opened: `make_shared`, and the call of `add_xbuf`. -/
  | register (id : MailboxId)
  | lock
  /-- The table access of the call. -/
  | access
  | unlock
  /-- `start_reader`, where a registration succeeded. -/
  | startReader
  /-- Its copy of an entry goes out of scope. -/
  | drop
  /-- The next line of `~XbufEntry`. -/
  | destroy

/-- What the reader thread of an entry does. -/
inductive ReaderAction
  | checkStop
  | poll (ready : Bool)
  /-- `::read` gives a message for `dest`, or nothing that holds a header. -/
  | read (dest : Option MailboxId)
  | lockFind
  | lookup
  | unlockFind
  /-- The message is forwarded or dropped. -/
  | forward
  /-- The next line of `~XbufEntry`, of an entry whose last copy it had. -/
  | destroy

/-- One thread takes one step. -/
inductive Event
  | connection (c : ConnId) (a : ConnectionAction)
  | reader (x : XbufId) (a : ReaderAction)

/-- Connection thread `c` goes on at `pc`. -/
def goto (s : RegistryLock) (c : ConnId) (pc : ConnectionPc) : RegistryLock :=
  { s with connection := Function.update s.connection c pc }

/-- The reader of `x` goes on at `pc`. -/
def readerGoto (s : RegistryLock) (x : XbufId) (pc : ReaderPc) : RegistryLock :=
  { s with reader := Function.update s.reader x pc }

/-- One more `shared_ptr` to `x`. -/
def addRef (s : RegistryLock) (x : XbufId) : RegistryLock :=
  { s with refs := Function.update s.refs x (s.refs x + 1) }

/-- One `shared_ptr` to `x` less. -/
def release (s : RegistryLock) (x : XbufId) : RegistryLock :=
  { s with refs := Function.update s.refs x (s.refs x - 1) }

/-- The entry that a lookup copies, if it is one of an xbuf. -/
def xbufAt (s : RegistryLock) (id : MailboxId) : Option XbufId :=
  match s.table id with
  | some (.xbuf x) => some x
  | _ => none

/-- A lookup copies the entry, and with it the `shared_ptr`. -/
def copyRef (s : RegistryLock) (id : MailboxId) : RegistryLock :=
  match s.xbufAt id with
  | some x => s.addRef x
  | none => s

/-! ### The connection threads -/

/-- The lock of the call of thread `c`. -/
def lockCall (s : RegistryLock) (c : ConnId) (call : RegistryCall) : RegistryLock :=
  if call.isExclusive then
    if s.writer = none ∧ s.shared = 0 then { s with writer := some c }.goto c (.held call) else s
  else if s.writer = none then { s with shared := s.shared + 1 }.goto c (.held call)
  else s

/-- `table_.erase` in `remove`. It destroys an `XbufEntry` whose last `shared_ptr` it erases. -/
def erase (s : RegistryLock) (c : ConnId) (id : MailboxId) : RegistryLock :=
  let erased := { s with table := Function.update s.table id none }
  match s.table id with
  | some (.xbuf x) =>
    if s.refs x = 1 then (erased.release x).goto c (.destroying true .close x)
    else (erased.release x).goto c (.unlock true none false)
  | _ => erased.goto c (.unlock true none false)

/-- `table_.emplace` in `add_xbuf`. The thread keeps its own `shared_ptr`. -/
def emplaceXbuf (s : RegistryLock) (c : ConnId) (id : MailboxId) (x : XbufId) : RegistryLock :=
  match s.table id with
  | none =>
    ({ s with table := Function.update s.table id (some (.xbuf x)) }.addRef x).goto c
      (.unlock true (some x) true)
  | some _ => s.goto c (.unlock true (some x) false)

/-- `table_.emplace` in `add_tcp` and `add_peer`. -/
def emplaceCon (s : RegistryLock) (c : ConnId) (id : MailboxId) : RegistryLock :=
  match s.table id with
  | none =>
    { s with table := Function.update s.table id (some (.con c)) }.goto c (.unlock true none false)
  | some _ => s.goto c (.unlock true none false)

/-- The table access of the call of thread `c`. -/
def accessTable (s : RegistryLock) (c : ConnId) : RegistryCall → RegistryLock
  | .remove id => s.erase c id
  | .find id => (s.copyRef id).goto c (.unlock false (s.xbufAt id) false)
  | .addXbuf id x => s.emplaceXbuf c id x
  | .addCon id => s.emplaceCon c id
  | .removeAllForCon =>
    { s with
      table := fun id => if s.table id = some (SharedEntry.con c) then none else s.table id }.goto
      c (.unlock true none false)

/-- The reader of `x` is not running: `join` returns, and there is nothing to join without
`start_reader`. -/
def isJoined (s : RegistryLock) (x : XbufId) : Bool :=
  s.reader x = .ended ∨ s.reader x = .notStarted

/-- The next line of `~XbufEntry` in thread `c`. -/
def destroyNext (s : RegistryLock) (c : ConnId) (locked : Bool) (x : XbufId) :
    DestroyPhase → RegistryLock
  | .close =>
    { s with fdOpen := Function.update s.fdOpen x false }.goto c (.destroying locked .requestStop x)
  | .requestStop =>
    { s with stopRequested := Function.update s.stopRequested x true }.goto c
      (.destroying locked .join x)
  | .join =>
    if s.isJoined x then s.goto c (if locked then .unlock true none false else .idle) else s

/-- The copy of thread `c` goes out of scope. -/
def dropCopy (s : RegistryLock) (c : ConnId) : Option XbufId → RegistryLock
  | none => s.goto c .idle
  | some x =>
    if s.refs x = 1 then (s.release x).goto c (.destroying false .close x)
    else (s.release x).goto c .idle

/-! ### The readers -/

/-- The copy of the reader of `x` goes out of scope, at the end of a round. -/
def readerDrop (s : RegistryLock) (x : XbufId) : Option XbufId → RegistryLock
  | none => s.readerGoto x .loopCondition
  | some y =>
    if s.refs y = 1 then (s.release y).readerGoto x (.destroying .close y)
    else (s.release y).readerGoto x .loopCondition

/-- The next line of `~XbufEntry` of `y` in the reader of `x`. -/
def readerDestroyNext (s : RegistryLock) (x y : XbufId) : DestroyPhase → RegistryLock
  | .close =>
    { s with fdOpen := Function.update s.fdOpen y false }.readerGoto x (.destroying .requestStop y)
  | .requestStop =>
    { s with stopRequested := Function.update s.stopRequested y true }.readerGoto x
      (.destroying .join y)
  | .join => if s.isJoined y then s.readerGoto x .loopCondition else s

/-- What `::read` leads to. On a closed descriptor it fails. -/
def afterRead (s : RegistryLock) (x : XbufId) (dest : Option MailboxId) : ReaderPc :=
  match s.fdOpen x, dest with
  | true, some d => .findWait d
  | _, _ => .loopCondition

/-! ### Steps -/

/-- A step of connection thread `c`. An action that is not enabled changes nothing. -/
def connectionStep (s : RegistryLock) (c : ConnId) : ConnectionAction → RegistryLock
  | .call (.addXbuf _ _) => s
  | .call call => if s.connection c = .idle then s.goto c (.wait call) else s
  | .register id =>
    if s.connection c = .idle then
      ({ s with made := s.made + 1 }.addRef s.made).goto c (.wait (.addXbuf id s.made))
    else s
  | .lock =>
    match s.connection c with
    | .wait call => s.lockCall c call
    | _ => s
  | .access =>
    match s.connection c with
    | .held call => s.accessTable c call
    | _ => s
  | .unlock =>
    match s.connection c with
    | .unlock true copy start => { s with writer := none }.goto c (.returned copy start)
    | .unlock false copy start =>
      { s with shared := s.shared - 1 }.goto c (.returned copy start)
    | _ => s
  | .startReader =>
    match s.connection c with
    | .returned (some x) true =>
      -- An entry is registered once, so its reader starts once.
      if s.reader x = .notStarted then
        (s.readerGoto x .loopCondition).goto c (.returned (some x) false)
      else s
    | _ => s
  | .drop =>
    match s.connection c with
    | .returned copy false => s.dropCopy c copy
    | _ => s
  | .destroy =>
    match s.connection c with
    | .destroying locked phase x => s.destroyNext c locked x phase
    | _ => s

/-- A step of the reader of `x`. -/
def readerStep (s : RegistryLock) (x : XbufId) : ReaderAction → RegistryLock
  | .checkStop =>
    if s.reader x = .loopCondition then
      s.readerGoto x (if s.stopRequested x then .ended else .poll)
    else s
  | .poll ready =>
    if s.reader x = .poll then s.readerGoto x (if ready then .read else .loopCondition) else s
  | .read dest => if s.reader x = .read then s.readerGoto x (s.afterRead x dest) else s
  | .lockFind =>
    match s.reader x with
    | .findWait dest =>
      if s.writer = none then { s with shared := s.shared + 1 }.readerGoto x (.findHeld dest)
      else s
    | _ => s
  | .lookup =>
    match s.reader x with
    | .findHeld dest => (s.copyRef dest).readerGoto x (.findUnlock (s.xbufAt dest))
    | _ => s
  | .unlockFind =>
    match s.reader x with
    | .findUnlock copy => { s with shared := s.shared - 1 }.readerGoto x (.forward copy)
    | _ => s
  | .forward =>
    match s.reader x with
    | .forward copy => s.readerDrop x copy
    | _ => s
  | .destroy =>
    match s.reader x with
    | .destroying phase y => s.readerDestroyNext x y phase
    | _ => s

/-- One step of one thread. -/
def step (s : RegistryLock) : Event → RegistryLock
  | .connection c a => s.connectionStep c a
  | .reader x a => s.readerStep x a

end RegistryLock

end CoreRaT.Spec
