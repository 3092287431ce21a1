import CoreRaT.Lib.HandleTable
import CoreRaT.Spec.MailboxTable
import CoreRaT.Spec.PublicMailbox
import CoreRaT.Spec.Transports

/-!
# `CoreRaT.Spec.MailboxResources`: what a mailbox takes from the system

`initialize` and `shutdown` of `EvlMailbox` in all modes, for the mailboxes of one process, with
what they take and give back: names and mappings of SHM objects, file descriptors, EVL elements, and
the entry in the registry of the process. Each call can fail (`InitCalls`), and one that needs a
descriptor or a mapping fails when there is none left.

An EVL element lives as long as a descriptor refers to it. A public one has a name in the file
system, and its creation fails while there is one with this name.

What comes after a failure is written out here as it is there. That of a mutex leaves the ring, that
of an event closes the mutex, and that of the poll group closes the xbuf. The handles that a mailbox
has to the rings of others are left out, as are the routes in `Mode::Network`.
-/

set_option autoImplicit false

namespace CoreRaT.Spec

open CoreRaT.Lib

/-- `EvlMailbox::Mode`. -/
inductive Mode
  | Local
  | Public
  | Network
deriving DecidableEq

/-- The kinds of EVL elements with names. -/
inductive EvlKind
  | mutex
  | event
  | xbuf
deriving DecidableEq

/-- What a file descriptor refers to. -/
inductive OpenFile
  | shm (object : Nat)
  /-- An EVL element. A public one has the id of its mailbox in its name. -/
  | evl (kind : EvlKind) (name : Option MailboxId)
  | poll
  /-- A datagram socket, and the port it is bound to. -/
  | socket (port : Option UInt16)
deriving DecidableEq

/-! ### The system -/

/-- What the processes of a host take from the system. The names are those of the host. The rest
belongs to the process of the mailboxes. -/
@[ext]
structure Resources where
  shmNames : MailboxId → Option Nat
  /-- How many descriptors keep the public element with this name alive. -/
  evlNames : EvlKind × MailboxId → Nat
  fds : HandleTable OpenFile
  mappings : HandleTable Nat
  /-- `registry_table`. -/
  table : RegistryTable Nat

/-- What the calls of `initialize` return, in all modes. -/
structure InitCalls extends InitAnswers where
  socket : Bool
  bind : Bool
deriving DecidableEq

/-- All calls succeed. -/
def InitCalls.good : InitCalls := ⟨.good, true, true⟩

namespace Resources

/-- The name of a public element keeps its count of descriptors. -/
def setEvlName (r : Resources) (kind : EvlKind) (id : MailboxId) (count : Nat) : Resources :=
  { r with evlNames := Function.update r.evlNames (kind, id) count }

/-- A new descriptor. `ok` is whether the call finds no other reason to fail. -/
def openFile (r : Resources) (file : OpenFile) (ok : Bool) : Option (Nat × Resources) :=
  if !ok then none
  else
    match r.fds.acquire file with
    | none => none
    | some (fd, fds) => some (fd, { r with fds })

/-- `::close`. -/
def closeFile (r : Resources) (fd : Nat) : Resources :=
  let closed := { r with fds := r.fds.release fd }
  match r.fds.entries fd with
  | some (.evl kind (some id)) => closed.setEvlName kind id (r.evlNames (kind, id) - 1)
  | _ => closed

/-- `evl_create_mutex`, `evl_create_event` and `evl_create_xbuf`. -/
def createElement (r : Resources) (kind : EvlKind) (name : Option MailboxId) (ok : Bool) :
    Option (Nat × Resources) :=
  match name with
  | none => r.openFile (.evl kind none) ok
  | some id =>
    if r.evlNames (kind, id) ≠ 0 then none
    else
      match r.openFile (.evl kind (some id)) ok with
      | none => none
      | some (fd, r) => some (fd, r.setEvlName kind id 1)

/-- `::mmap` of an SHM object. -/
def mmap (r : Resources) (object : Nat) (ok : Bool) : Option (Nat × Resources) :=
  if !ok then none
  else
    match r.mappings.acquire object with
    | none => none
    | some (base, mappings) => some (base, { r with mappings })

/-- `::munmap`. -/
def munmap (r : Resources) (base : Nat) : Resources :=
  { r with mappings := r.mappings.release base }

/-- `::bind` of a socket. -/
def bindSocket (r : Resources) (fd : Nat) (port : UInt16) : Resources :=
  { r with fds := r.fds.set fd (some (.socket (some port))) }

end Resources

/-! ### Mailboxes -/

/-- An `EvlMailbox`, with what it holds. A descriptor of -1 and a null pointer are `none`. -/
structure EvlMailbox where
  config : TimsConfig
  mode : Mode
  created : Bool
  shmFd : Option Nat
  /-- The mapping at `shm_base_`. -/
  shmBase : Option Nat
  /-- `slot_meta_` and `heap_data_` are not null. -/
  heap : Bool
  capacity : UInt32
  slotSize : UInt32
  ringMutex : Option Nat
  ringEvent : Option Nat
  xbufFd : Option Nat
  pollFd : Option Nat
  oobSock : Option Nat

/-- A mailbox before its first `initialize`. -/
def EvlMailbox.ofConfig (config : TimsConfig) (mode : Mode) : EvlMailbox where
  config := config
  mode := mode
  created := false
  shmFd := none
  shmBase := none
  heap := false
  capacity := 0
  slotSize := 0
  ringMutex := none
  ringEvent := none
  xbufFd := none
  pollFd := none
  oobSock := none

/-- The mailboxes of a process, and the system. -/
structure EvlHost where
  resources : Resources
  objects : List ShmObject
  mailboxes : List EvlMailbox

namespace EvlHost

/-- `kSlots`. -/
def kSlots : UInt32 := 10

def setMailbox (w : EvlHost) (i : Nat) (m : EvlMailbox) : EvlHost :=
  { w with mailboxes := w.mailboxes.set i m }

def closeFile (w : EvlHost) (fd : Nat) : EvlHost :=
  { w with resources := w.resources.closeFile fd }

/-- `shm_open` with `O_CREAT`: the descriptor and the object, which is a new one of size 0 if the
name is not bound. -/
def shmOpen (w : EvlHost) (id : MailboxId) (ok : Bool) : Option (Nat × Nat × EvlHost) :=
  let o := (w.resources.shmNames id).getD w.objects.length
  match w.resources.openFile (.shm o) ok with
  | none => none
  | some (fd, r) =>
    some (fd, o,
      { w with
          resources := { r with shmNames := Function.update r.shmNames id (some o) }
          objects := if (w.resources.shmNames id).isNone then w.objects ++ [⟨0, fun _ => 0⟩]
            else w.objects })

/-- `allocate_ring`. -/
def allocateRing (w : EvlHost) (m : EvlMailbox) (slots slotSize : UInt32) (a : InitCalls) :
    Bool × EvlMailbox × EvlHost :=
  if m.mode = .Public then
    match w.shmOpen m.config.mailboxId a.shmOpen with
    | none => (false, { m with shmFd := none }, w)
    | some (fd, o, w) =>
      if !a.ftruncate then (false, { m with shmFd := none }, w.closeFile fd)
      else
        let w := { w with objects := w.objects.modify o (·.ftruncate (shmTotal slots slotSize)) }
        match w.resources.mmap o a.mmap with
        | none => (false, { m with shmFd := none }, w.closeFile fd)
        | some (base, r) =>
          (true, { m with shmFd := some fd, shmBase := some base, capacity := slots, slotSize },
            { w with
                resources := r
                objects := w.objects.modify o fun obj =>
                  { obj with bytes := ShmLayout.save ⟨slots, slotSize⟩ obj.bytes } })
  else (true, { m with heap := true, capacity := slots, slotSize }, w)

/-- `create_evl_objects`. -/
def createEvlObjects (w : EvlHost) (m : EvlMailbox) (a : InitCalls) :
    Bool × EvlMailbox × EvlHost :=
  let name := if m.mode = .Public then some m.config.mailboxId else none
  match w.resources.createElement .mutex name a.createMutex with
  | none => (false, m, w)
  | some (mtx, r) =>
    match r.createElement .event name a.createEvent with
    | none => (false, { m with ringMutex := none }, { w with resources := r.closeFile mtx })
    | some (evt, r) =>
      (true, { m with ringMutex := some mtx, ringEvent := some evt }, { w with resources := r })

/-- `create_xbuf`. -/
def createXbuf (w : EvlHost) (m : EvlMailbox) (a : InitCalls) : Bool × EvlMailbox × EvlHost :=
  match w.resources.createElement .xbuf (some m.config.mailboxId) a.createXbuf with
  | none => (false, { m with xbufFd := none }, w)
  | some (fd, r) =>
    match r.openFile .poll a.newPoll with
    | none =>
      (false, { m with xbufFd := none, pollFd := none }, { w with resources := r.closeFile fd })
    | some (poll, r) =>
      (true, { m with xbufFd := some fd, pollFd := some poll }, { w with resources := r })

/-- `create_oob_socket`. -/
def createOobSocket (w : EvlHost) (m : EvlMailbox) (a : InitCalls) : Bool × EvlMailbox × EvlHost :=
  match w.resources.openFile (.socket none) a.socket with
  | none => (false, { m with oobSock := none }, w)
  | some (fd, r) =>
    if !a.bind then (false, { m with oobSock := none }, { w with resources := r.closeFile fd })
    else
      (true, { m with oobSock := some fd },
        { w with
            resources := r.bindSocket fd (EvlNetworkConfig.portFor m.config.mailboxId) })

/-- `initialize` of mailbox `i`. -/
def initializeMailbox (w : EvlHost) (i : Nat) (a : InitCalls) : TimsResult × EvlHost :=
  match w.mailboxes[i]? with
  | none => (.ERROR_INIT, w)
  | some m =>
    if m.created then (.SUCCESS, w)
    else if m.mode = .Network then
      match w.createOobSocket m a with
      | (false, m, w) => (.ERROR_INIT, w.setMailbox i m)
      | (true, m, w) => (.SUCCESS, w.setMailbox i { m with created := true })
    else
      match w.allocateRing m kSlots (UInt32.ofNat m.config.maxMsgSize) a with
      | (false, m, w) => (.ERROR_INIT, w.setMailbox i m)
      | (true, m, w) =>
        match w.createEvlObjects m a with
        | (false, m, w) => (.ERROR_INIT, w.setMailbox i m)
        | (true, m, w) =>
          if m.mode = .Public then
            match w.createXbuf m a with
            | (false, m, w) => (.ERROR_INIT, w.setMailbox i m)
            | (true, m, w) => (.SUCCESS, w.setMailbox i { m with created := true })
          else
            (.SUCCESS,
              { w with
                  resources :=
                    { w.resources with
                        table := w.resources.table.registryInsert m.config.mailboxId (some i) }
                  mailboxes := w.mailboxes.set i { m with created := true } })

/-- `::close` of a descriptor that is not -1. -/
def closeIfOpen (w : EvlHost) : Option Nat → EvlHost
  | none => w
  | some fd => w.closeFile fd

/-- `destroy_evl_objects`. -/
def destroyEvlObjects (w : EvlHost) (m : EvlMailbox) : EvlHost :=
  (w.closeIfOpen m.ringEvent).closeIfOpen m.ringMutex

/-- `free_ring`. -/
def freeRing (w : EvlHost) (m : EvlMailbox) : EvlHost :=
  let w := match m.shmBase with
    | some base =>
      let r := w.resources.munmap base
      { w with
          resources :=
            { r with shmNames := Function.update r.shmNames m.config.mailboxId none } }
    | none => w
  w.closeIfOpen m.shmFd

/-- `shutdown` of mailbox `i`. -/
def shutdown (w : EvlHost) (i : Nat) : EvlHost :=
  match w.mailboxes[i]? with
  | none => w
  | some m =>
    if !m.created then w
    else if m.mode = .Network then
      (w.closeIfOpen m.oobSock).setMailbox i { m with oobSock := none, created := false }
    else
      let table := w.resources.table
      let table :=
        if m.mode = .Local ∧ table.registryFind m.config.mailboxId = some i then
          table.registryRemove m.config.mailboxId
        else table
      let w := { w with resources := { w.resources with table } }
      let w := (w.closeIfOpen m.xbufFd).closeIfOpen m.pollFd
      ((w.destroyEvlObjects m).freeRing m).setMailbox i (.ofConfig m.config m.mode)

/-- `open_remote` and `post_to_remote` of a mailbox in another process, whose own calls all succeed:
whether the message is in the ring. -/
def remotePost (w : EvlHost) (dest : MailboxId) (data : List UInt8) (priority : Int8)
    (src : MailboxId) : Bool :=
  match w.resources.shmNames dest with
  | none => false
  | some o =>
    match w.objects[o]? with
    | none => false
    | some obj =>
      if obj.size < sizeofShmLayout ∨ w.resources.evlNames (.mutex, dest) = 0 ∨
          w.resources.evlNames (.event, dest) = 0 then false
      else (RemoteRing.postToRemote ⟨obj.bytes⟩ data priority src).1

end EvlHost

end CoreRaT.Spec
