import CoreRaT.Spec.RemoteHandles
import CoreRaT.Spec.ShmRing

/-!
# `CoreRaT.Spec.PublicMailbox`: mailboxes that share memory

The mailboxes in `Mode::Public` of all processes of a host, with the SHM objects that they share.
`initialize` opens the object that is bound to the name of the mailbox, or creates one.
`shutdown` takes the name away. A mapping keeps its object alive, and nobody is told: what a sender
has mapped before is what it posts to (`HandleCache`).

Objects have numbers, and a new object has the next one. The name `/corerat_mbx_<id>` is `id` here.
What the calls to the kernel return is part of an event, as far as the state does not say it: a name
that is not bound cannot be opened, and a public EVL name that is in use cannot be created again.
The registry of the process holds no mailbox in `Mode::Public`, so what a sender finds there is part
of the event too.
-/

set_option autoImplicit false

namespace CoreRaT.Spec

open CoreRaT.Lib

/-- An SHM object. The bytes from `size` on are zero. -/
structure ShmObject where
  size : Nat
  bytes : ByteMemory

/-- `ftruncate`: what is cut off is lost, and what is added is zero. -/
def ShmObject.ftruncate (o : ShmObject) (size : Nat) : ShmObject where
  size := size
  bytes := fun a => if a < size then o.bytes a else 0

/-- An `EvlMailbox` in `Mode::Public`. -/
structure PublicMailbox where
  config : TimsConfig
  created : Bool
  /-- The object that `shm_base_` maps. -/
  shmBase : Option Nat
  capacity : UInt32
  slotSize : UInt32
  /-- The mutex and the event of the ring, under their public names. -/
  evlObjects : Bool
  /-- `xbuf_fd_ >= 0`. -/
  xbuf : Bool
  remoteHandles : HandleCache Nat

/-- A mailbox before its first `initialize`. -/
def PublicMailbox.ofConfig (config : TimsConfig) (maxRemoteHandles : Nat) : PublicMailbox where
  config := config
  created := false
  shmBase := none
  capacity := 0
  slotSize := 0
  evlObjects := false
  xbuf := false
  remoteHandles := .ofConfig maxRemoteHandles

/-- A mailbox after `shutdown`. -/
def PublicMailbox.closed (m : PublicMailbox) : PublicMailbox :=
  { m with
      remoteHandles := m.remoteHandles.closeAllRemotes
      xbuf := false
      evlObjects := false
      shmBase := none
      capacity := 0
      slotSize := 0
      created := false }

/-- The mailboxes of a host and what they share. -/
structure ShmHost where
  names : MailboxId → Option Nat
  objects : List ShmObject
  mailboxes : List PublicMailbox

/-- What the calls of `initialize` return. -/
structure InitAnswers where
  shmOpen : Bool
  ftruncate : Bool
  mmap : Bool
  createMutex : Bool
  createEvent : Bool
  createXbuf : Bool
  newPoll : Bool
deriving DecidableEq

/-- What the calls of `open_remote` return. -/
structure OpenAnswers where
  switchedInband : Bool
  shmOpen : Bool
  pread : Bool
  mmap : Bool
  openMutex : Bool
  openEvent : Bool
deriving DecidableEq

/-- All calls succeed. -/
def InitAnswers.good : InitAnswers := ⟨true, true, true, true, true, true, true⟩

def OpenAnswers.good : OpenAnswers := ⟨true, true, true, true, true, true⟩

namespace ShmHost

/-- `kSlots`. -/
def kSlots : UInt32 := 10

def setMailbox (w : ShmHost) (i : Nat) (m : PublicMailbox) : ShmHost :=
  { w with mailboxes := w.mailboxes.set i m }

/-- `shm_open` with `O_CREAT`: the object that is bound to the name, or a new one of size 0. -/
def shmOpenCreate (w : ShmHost) (id : MailboxId) : Nat × ShmHost :=
  match w.names id with
  | some o => (o, w)
  | none =>
    (w.objects.length,
      { w with
          names := Function.update w.names id (some w.objects.length)
          objects := w.objects ++ [⟨0, fun _ => 0⟩] })

/-- `allocate_ring` of the mailbox `m`, in `Mode::Public`. A call that fails leaves what the calls
before it have done. -/
def allocateRing (w : ShmHost) (m : PublicMailbox) (slotSize : UInt32) (a : InitAnswers) :
    Option PublicMailbox × ShmHost :=
  if !a.shmOpen then (none, w)
  else
    let (o, w) := w.shmOpenCreate m.config.mailboxId
    if !a.ftruncate then (none, w)
    else
      let w := { w with objects := w.objects.modify o (·.ftruncate (shmTotal kSlots slotSize)) }
      if !a.mmap then (none, w)
      else
        (some { m with shmBase := some o, capacity := kSlots, slotSize := slotSize },
          { w with
              objects := w.objects.modify o fun obj =>
                { obj with bytes := ShmLayout.save ⟨kSlots, slotSize⟩ obj.bytes } })

/-- The public names of a mailbox are in use: a mailbox has created its mutex and has not destroyed
it. -/
def evlNamesInUse (w : ShmHost) (id : MailboxId) : Bool :=
  w.mailboxes.any fun m => m.evlObjects && m.config.mailboxId == id

/-- `initialize` of mailbox `i`. -/
def initializeMailbox (w : ShmHost) (i : Nat) (a : InitAnswers) : TimsResult × ShmHost :=
  match w.mailboxes[i]? with
  | none => (.ERROR_INIT, w)
  | some m =>
    if m.created then (.SUCCESS, w)
    else
      match w.allocateRing m (UInt32.ofNat m.config.maxMsgSize) a with
      | (none, w) => (.ERROR_INIT, w)
      | (some m, w) =>
        -- `create_evl_objects`. Without the event, the mutex is closed again.
        if w.evlNamesInUse m.config.mailboxId || !a.createMutex || !a.createEvent then
          (.ERROR_INIT, w.setMailbox i m)
        else if !a.createXbuf || !a.newPoll then
          (.ERROR_INIT, w.setMailbox i { m with evlObjects := true })
        else
          (.SUCCESS, w.setMailbox i { m with evlObjects := true, xbuf := true, created := true })

/-- `shutdown` of mailbox `i`. -/
def shutdown (w : ShmHost) (i : Nat) : ShmHost :=
  match w.mailboxes[i]? with
  | none => w
  | some m =>
    if !m.created then w
    else
      -- `free_ring` unlinks the name of a ring that it unmaps.
      let w := match m.shmBase with
        | some _ => { w with names := Function.update w.names m.config.mailboxId none }
        | none => w
      w.setMailbox i m.closed

/-- `open_remote`: the object that is bound to the name. `pread` needs the 16 bytes of the layout.
-/
def openRemote (w : ShmHost) (dest : MailboxId) (a : OpenAnswers) : Option Nat :=
  if !a.switchedInband || !a.shmOpen then none
  else
    match w.names dest with
    | none => none
    | some o =>
      match w.objects[o]? with
      | none => none
      | some obj =>
        if obj.size < sizeofShmLayout || !a.pread || !a.mmap || !a.openMutex || !a.openEvent then
          none
        else some o

/-- What `send_raw` comes to: what it returns, and the object into which `post_to_remote` has put
the message. -/
structure Sent where
  result : TimsResult
  posted : Option Nat
deriving DecidableEq

/-- `post_to_remote` into object `o`. -/
def postToRemote (w : ShmHost) (o : Nat) (data : List UInt8) (priority : Int8)
    (mailboxId : MailboxId) : Sent × ShmHost :=
  match w.objects[o]? with
  | none => (⟨.ERROR_SEND, none⟩, w)
  | some obj =>
    match RemoteRing.postToRemote ⟨obj.bytes⟩ data priority mailboxId with
    | (true, ring) =>
      (⟨.SUCCESS, some o⟩, { w with objects := w.objects.set o { obj with bytes := ring.shmBase } })
    | (false, ring) =>
      (⟨.ERROR_SEND, none⟩,
        { w with objects := w.objects.set o { obj with bytes := ring.shmBase } })

/-- `send` and `send_raw` of mailbox `i`. `found` is what `post` returns in a mailbox that the
registry of the process has for `dest`, and `oobWrite` whether all bytes go into the xbuf. -/
def sendRaw (w : ShmHost) (i : Nat) (dest : MailboxId) (data : List UInt8) (found : Option Bool)
    (a : OpenAnswers) (oobWrite : Bool) : Sent × ShmHost :=
  match w.mailboxes[i]? with
  | none => (⟨.ERROR_NOT_INIT, none⟩, w)
  | some m =>
    if !m.created then (⟨.ERROR_NOT_INIT, none⟩, w)
    else if data.length = 0 ∨ m.config.maxMsgSize < data.length then
      (⟨.ERROR_INVALID_MSG, none⟩, w)
    else
      match found with
      | some ok => (⟨if ok then .SUCCESS else .ERROR_SEND, none⟩, w)
      | none =>
        let (entry, cache) := m.remoteHandles.getOrOpenRemote dest (w.openRemote dest a)
        let w := w.setMailbox i { m with remoteHandles := cache }
        match entry.bind fun k => cache.handles[k]?.bind (·.shmBase) with
        | some o => w.postToRemote o data (sendPriority m.config) m.config.mailboxId
        | none => (⟨if m.xbuf && oobWrite then .SUCCESS else .ERROR_SEND, none⟩, w)

/-- The ring read of `receive_impl` of mailbox `i`. -/
def receive (w : ShmHost) (i : Nat) (bufferSize : Nat) : ShmHost :=
  match w.mailboxes[i]? with
  | none => w
  | some m =>
    if !m.created then w
    else
      match m.shmBase with
      | none => w
      | some o =>
        { w with
            objects := w.objects.modify o fun obj =>
              match (MailboxRing.receive ⟨m.capacity, m.slotSize, .shm obj.bytes⟩
                  m.config.mailboxId bufferSize).2.storage with
              | .shm base => { obj with bytes := base }
              | .heap _ _ => obj }

/-- The calls on the mailboxes of a host. -/
inductive Event
  | initializeMailbox (i : Nat) (a : InitAnswers)
  | shutdown (i : Nat)
  | send (i : Nat) (dest : MailboxId) (data : List UInt8) (found : Option Bool) (a : OpenAnswers)
      (oobWrite : Bool)
  | receive (i : Nat) (bufferSize : Nat)

/-- One call. -/
def step (w : ShmHost) : Event → ShmHost
  | .initializeMailbox i a => (w.initializeMailbox i a).2
  | .shutdown i => w.shutdown i
  | .send i dest data found a oobWrite => (w.sendRaw i dest data found a oobWrite).2
  | .receive i bufferSize => w.receive i bufferSize

/-- A host with these mailboxes, of which none has been initialized. There may be SHM objects of
earlier processes. -/
def init (names : MailboxId → Option Nat) (objects : List ShmObject)
    (configs : List (TimsConfig × Nat)) : ShmHost where
  names := names
  objects := objects
  mailboxes := configs.map fun c => .ofConfig c.1 c.2

end ShmHost

end CoreRaT.Spec
