import Mathlib.Logic.Function.Basic
import CoreRaT.Spec.TimsMailbox

/-!
# `CoreRaT.Spec.MailboxTable`: the mailboxes of a process

The process-local registry of `ipc/evl/evl_backend.hpp` (`evl_detail`), a hash table with open
addressing that is keyed on the mailbox id. An id of 0 marks a slot that has never been used. What
is removed leaves its id behind.

`LocalProcess` is a process with mailboxes in `Mode::Local`. A mailbox is in the table from the end
of its `initialize` to its `shutdown`. Addresses are numbers, and an address can be used again when
its object has been destroyed. The ring of a mailbox lies on the heap and is left out, and of the
calls of `initialize` only `create_evl_objects` can fail.
-/

set_option autoImplicit false

namespace CoreRaT.Spec

/-- `RegistryEntry`. `π` is what the pointers point to. -/
structure RegistryEntry (π : Type) where
  id : MailboxId
  ptr : Option π
deriving DecidableEq

def kRegistryCapacity : UInt32 := 512

def kMaxMailboxes : Nat := 256

/-- `registry_table`. -/
abbrev RegistryTable (π : Type) := UInt32 → RegistryEntry π

/-- `registry_hash`: the top 9 bits of the product. -/
def registryHash (id : MailboxId) : UInt32 := (id * 2654435761) >>> (32 - 9)

namespace RegistryTable

variable {π : Type}

/-- The table before its first use. -/
def empty : RegistryTable π := fun _ => ⟨0, none⟩

/-- The loop of `registry_insert`, with `left` rounds to go. -/
def insertLoop (tbl : RegistryTable π) (id : MailboxId) (ptr : Option π) :
    (left : Nat) → (i : UInt32) → RegistryTable π
  -- The table is full.
  | 0, _ => tbl
  | left + 1, i =>
    let slot := (registryHash id + i) &&& (kRegistryCapacity - 1)
    if (tbl slot).id = 0 ∨ (tbl slot).id = id then Function.update tbl slot ⟨id, ptr⟩
    else insertLoop tbl id ptr left (i + 1)

/-- `registry_insert`. -/
def registryInsert (tbl : RegistryTable π) (id : MailboxId) (ptr : Option π) : RegistryTable π :=
  insertLoop tbl id ptr kRegistryCapacity.toNat 0

/-- The loop of `registry_remove`. -/
def removeLoop (tbl : RegistryTable π) (id : MailboxId) :
    (left : Nat) → (i : UInt32) → RegistryTable π
  | 0, _ => tbl
  | left + 1, i =>
    let slot := (registryHash id + i) &&& (kRegistryCapacity - 1)
    if (tbl slot).id = 0 then tbl
    else if (tbl slot).id = id then Function.update tbl slot { tbl slot with ptr := none }
    else removeLoop tbl id left (i + 1)

/-- `registry_remove`. -/
def registryRemove (tbl : RegistryTable π) (id : MailboxId) : RegistryTable π :=
  removeLoop tbl id kRegistryCapacity.toNat 0

/-- The loop of `registry_find`. -/
def findLoop (tbl : RegistryTable π) (id : MailboxId) : (left : Nat) → (i : UInt32) → Option π
  | 0, _ => none
  | left + 1, i =>
    let slot := (registryHash id + i) &&& (kRegistryCapacity - 1)
    if (tbl slot).id = 0 then none
    else if (tbl slot).id = id then (tbl slot).ptr
    else findLoop tbl id left (i + 1)

/-- `registry_find`. -/
def registryFind (tbl : RegistryTable π) (id : MailboxId) : Option π :=
  findLoop tbl id kRegistryCapacity.toNat 0

/-- The calls that change the table. -/
inductive Op (π : Type)
  | insert (id : MailboxId) (ptr : Option π)
  | remove (id : MailboxId)

/-- One call. -/
def step (tbl : RegistryTable π) : Op π → RegistryTable π
  | .insert id ptr => tbl.registryInsert id ptr
  | .remove id => tbl.registryRemove id

end RegistryTable

/-! ### Mailboxes -/

/-- An `EvlMailbox` in `Mode::Local`. -/
structure LocalMailbox where
  mailboxId : MailboxId
  created : Bool
deriving DecidableEq

/-- A process: the mailboxes at their addresses, and the registry. -/
structure LocalProcess where
  mailboxes : Nat → Option LocalMailbox
  table : RegistryTable Nat

namespace LocalProcess

/-- A process that has just started. -/
def init : LocalProcess where
  mailboxes := fun _ => none
  table := .empty

/-- `EvlMailbox::EvlMailbox`, at a free address. -/
def construct (p : LocalProcess) (this : Nat) (mailboxId : MailboxId) : LocalProcess :=
  match p.mailboxes this with
  | none => { p with mailboxes := Function.update p.mailboxes this (some ⟨mailboxId, false⟩) }
  | some _ => p

/-- `initialize` of the mailbox at `this`. `evlObjects` is what `create_evl_objects` returns. -/
def initializeMailbox (p : LocalProcess) (this : Nat) (evlObjects : Bool) :
    TimsResult × LocalProcess :=
  match p.mailboxes this with
  | none => (.ERROR_INIT, p)
  | some m =>
    if m.created then (.SUCCESS, p)
    else if !evlObjects then (.ERROR_INIT, p)
    else
      (.SUCCESS,
        { table := p.table.registryInsert m.mailboxId (some this)
          mailboxes := Function.update p.mailboxes this (some { m with created := true }) })

/-- `shutdown` of the mailbox at `this`. -/
def shutdown (p : LocalProcess) (this : Nat) : LocalProcess :=
  match p.mailboxes this with
  | none => p
  | some m =>
    if !m.created then p
    else
      { table :=
          if p.table.registryFind m.mailboxId = some this then p.table.registryRemove m.mailboxId
          else p.table
        mailboxes := Function.update p.mailboxes this (some { m with created := false }) }

/-- `EvlMailbox::~EvlMailbox`. -/
def destroy (p : LocalProcess) (this : Nat) : LocalProcess :=
  let p := p.shutdown this
  { p with mailboxes := Function.update p.mailboxes this none }

/-- The calls on the mailboxes of a process. -/
inductive Event
  | construct (this : Nat) (mailboxId : MailboxId)
  | initializeMailbox (this : Nat) (evlObjects : Bool)
  | shutdown (this : Nat)
  | destroy (this : Nat)

/-- One call. -/
def step (p : LocalProcess) : Event → LocalProcess
  | .construct this mailboxId => p.construct this mailboxId
  | .initializeMailbox this evlObjects => (p.initializeMailbox this evlObjects).2
  | .shutdown this => p.shutdown this
  | .destroy this => p.destroy this

end LocalProcess

end CoreRaT.Spec
