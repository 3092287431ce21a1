import CoreRaT.Spec.Protocol

/-!
# `CoreRaT.Spec.RemoteHandles`: the rings that a sender has mapped

`remote_handles_` of `EvlMailbox` in `ipc/evl/evl_backend.hpp`. A mailbox in `Mode::Public` opens
the ring of a destination once, at the first message to it, and keeps the handle. The vector has a
fixed number of entries. When all of them are valid, the handle that was used least recently gives
way.

What a handle maps is a parameter, and so is what `open_remote` comes to.
-/

set_option autoImplicit false

namespace CoreRaT.Spec

/-- `RemoteHandle`. `α` is what `shm_base` points to. -/
structure RemoteHandle (α : Type) where
  destId : MailboxId
  shmBase : Option α
  valid : Bool
  lastUsed : UInt64
deriving DecidableEq

/-- `RemoteHandle{}`. -/
def RemoteHandle.empty {α : Type} : RemoteHandle α := ⟨0, none, false, 0⟩

/-- `remote_handles_` and `lru_counter_`. -/
structure HandleCache (α : Type) where
  handles : List (RemoteHandle α)
  lruCounter : UInt64

namespace HandleCache

variable {α : Type}

/-- The cache of a new mailbox: `max_remote_handles` entries, or 16. -/
def ofConfig (maxRemoteHandles : Nat) : HandleCache α where
  handles := List.replicate (if 0 < maxRemoteHandles then maxRemoteHandles else 16) .empty
  lruCounter := 0

/-- The entry that holds a handle for `dest`. -/
def hit (c : HandleCache α) (dest : MailboxId) : Option Nat :=
  c.handles.findIdx? fun h => h.valid && h.destId == dest

/-- The loop that looks for the handle that was used least recently, from entry `i` on. -/
def lruLoop : (i lru : Nat) → (lastUsed : UInt64) → List (RemoteHandle α) → Nat
  | _, lru, _, [] => lru
  | i, lru, lastUsed, h :: hs =>
    if h.lastUsed < lastUsed then lruLoop (i + 1) i h.lastUsed hs
    else lruLoop (i + 1) lru lastUsed hs

/-- The entry that gives way in a full cache. The cache has at least one entry. -/
def lru (c : HandleCache α) : Nat :=
  lruLoop 0 0 ((c.handles.head?.map (·.lastUsed)).getD 0) c.handles

/-- `close_remote`, of entry `i`. -/
def closeRemote (c : HandleCache α) (i : Nat) : HandleCache α :=
  { c with handles := c.handles.modify i fun h => if h.valid then .empty else h }

/-- `h.last_used = ++lru_counter_`, of entry `i`. -/
def touch (c : HandleCache α) (i : Nat) : HandleCache α where
  handles := c.handles.modify i ({ · with lastUsed := c.lruCounter + 1 })
  lruCounter := c.lruCounter + 1

/-- What `open_remote` makes of entry `i` when it has mapped `a`. -/
def install (c : HandleCache α) (i : Nat) (dest : MailboxId) (a : α) : HandleCache α :=
  { c with
      handles := c.handles.modify i ({ · with destId := dest, shmBase := some a, valid := true }) }

/-- `open_remote` for entry `i`, and the use of the entry if it succeeds. -/
def openAt (c : HandleCache α) (i : Nat) (dest : MailboxId) (opened : Option α) :
    Option Nat × HandleCache α :=
  match opened with
  | none => (none, c)
  | some a => (some i, (c.install i dest a).touch i)

/-- `get_or_open_remote`: the entry with the handle. `opened` is what `open_remote` maps, if the
call comes to it. -/
def getOrOpenRemote (c : HandleCache α) (dest : MailboxId) (opened : Option α) :
    Option Nat × HandleCache α :=
  match c.hit dest with
  | some i => (some i, c.touch i)
  | none =>
    match c.handles.findIdx? (!·.valid) with
    | some i => c.openAt i dest opened
    | none => (c.closeRemote c.lru).openAt c.lru dest opened

/-- `close_all_remotes`. -/
def closeAllRemotes (c : HandleCache α) : HandleCache α :=
  { c with handles := c.handles.map fun h => if h.valid then .empty else h }

end HandleCache

end CoreRaT.Spec
