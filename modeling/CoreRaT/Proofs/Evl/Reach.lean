import CoreRaT.Lib.Run
import CoreRaT.Proofs.Ring.Shm
import CoreRaT.Spec.PublicMailbox

/-!
# `CoreRaT.Proofs.Evl.Reach`: the ring that a sender posts to

A message that `post_to_remote` has stored is in the object that the sender has mapped, in the slot
that the call has chosen, as far as it fits into the slot (`holds_postToRemote`). The mailbox with
that id reads from the object that its name was bound to when it was initialized. `Bound` is what
all calls keep: the name of a mailbox that is initialized is bound to the object that it reads from,
and no two mailboxes with one id are initialized.

So the object of a send is that of its mailbox exactly when the sender posts to the object that the
name is bound to now, and there is a mailbox (`readsFrom_iff_current`). A new handle maps that
object. A handle that is kept beyond a `shutdown` of the destination does not, and a message that is
larger than the slots of the destination is cut off: `successful_sends_lose_messages`.
-/

set_option autoImplicit false

namespace CoreRaT.Spec

open CoreRaT.Lib

namespace ShmHost

/-! ### The property -/

/-- The mailbox `m` with the id `dest` is initialized and reads from the object `o`. -/
def ReadsFrom (w : ShmHost) (dest : MailboxId) (o : Nat) : Prop :=
  ∃ m ∈ w.mailboxes, m.created = true ∧ m.config.mailboxId = dest ∧ m.shmBase = some o

instance (w : ShmHost) (dest : MailboxId) (o : Nat) : Decidable (w.ReadsFrom dest o) :=
  inferInstanceAs (Decidable (∃ m ∈ w.mailboxes, m.created = true ∧
    m.config.mailboxId = dest ∧ m.shmBase = some o))

/-- A slot of the object `o` holds this message, with its priority and its sender. -/
def Holds (w : ShmHost) (o : Nat) (data : List UInt8) (priority : Int8) (src : MailboxId) : Prop :=
  ∃ obj ∈ w.objects[o]?, ∃ i < (RemoteRing.mk obj.bytes).layout.capacity.toNat,
    (RemoteRing.mk obj.bytes).owned.messageAt (UInt32.ofNat i) =
      some (⟨priority, true, src, UInt32.ofNat data.length⟩, data)

instance (w : ShmHost) (o : Nat) (data : List UInt8) (priority : Int8) (src : MailboxId) :
    Decidable (w.Holds o data priority src) :=
  match h : w.objects[o]? with
  | none => isFalse (by simp [Holds, h])
  | some obj => decidable_of_iff (∃ i < (RemoteRing.mk obj.bytes).layout.capacity.toNat,
      (RemoteRing.mk obj.bytes).owned.messageAt (UInt32.ofNat i) =
        some (⟨priority, true, src, UInt32.ofNat data.length⟩, data)) (by simp [Holds, h])

/-- A message that a send has posted to an object is there, all of it, and the mailbox with the id
reads from this object. -/
def Reaches (w : ShmHost) : Event → Prop
  | .send i dest data found a oobWrite =>
    ∀ o, (w.sendRaw i dest data found a oobWrite).1 = ⟨.SUCCESS, some o⟩ → w.ReadsFrom dest o ∧
      ∃ m ∈ w.mailboxes[i]?, (w.sendRaw i dest data found a oobWrite).2.Holds o data
        (sendPriority m.config) m.config.mailboxId
  | _ => True

/-- The handle that mailbox `i` has kept for `dest`, if it has one, maps the object that is bound to
the name now. -/
def HandleCurrent (w : ShmHost) (i : Nat) (dest : MailboxId) : Prop :=
  ∀ m ∈ w.mailboxes[i]?, ∀ k ∈ m.remoteHandles.hit dest, ∀ h ∈ m.remoteHandles.handles[k]?,
    h.shmBase = w.names dest

/-- If the name is bound, a mailbox with the id is initialized. -/
def NameLive (w : ShmHost) (dest : MailboxId) : Prop :=
  w.names dest ≠ none → ∃ m ∈ w.mailboxes, m.created = true ∧ m.config.mailboxId = dest

/-- The message is not larger than the slots of the object that is bound to the name. -/
def FitsSlot (w : ShmHost) (dest : MailboxId) (data : List UInt8) : Prop :=
  ∀ o ∈ w.names dest, ∀ obj ∈ w.objects[o]?,
    data.length ≤ (RemoteRing.mk obj.bytes).layout.slotSize.toNat

/-- A send whose handle is current, to a mailbox whose name has not been left behind, of a message
that fits into a slot. -/
def Current (w : ShmHost) : Event → Prop
  | .send i dest data _ _ _ => w.HandleCurrent i dest ∧ w.NameLive dest ∧ w.FitsSlot dest data
  | _ => True

instance (w : ShmHost) (i : Nat) (dest : MailboxId) : Decidable (w.HandleCurrent i dest) :=
  inferInstanceAs (Decidable (∀ m ∈ w.mailboxes[i]?, ∀ k ∈ m.remoteHandles.hit dest,
    ∀ h ∈ m.remoteHandles.handles[k]?, h.shmBase = w.names dest))

instance (w : ShmHost) (dest : MailboxId) : Decidable (w.NameLive dest) :=
  inferInstanceAs (Decidable (w.names dest ≠ none →
    ∃ m ∈ w.mailboxes, m.created = true ∧ m.config.mailboxId = dest))

instance (w : ShmHost) (dest : MailboxId) (data : List UInt8) : Decidable (w.FitsSlot dest data) :=
  inferInstanceAs (Decidable (∀ o ∈ w.names dest, ∀ obj ∈ w.objects[o]?,
    data.length ≤ (RemoteRing.mk obj.bytes).layout.slotSize.toNat))

instance (w : ShmHost) (e : Event) : Decidable (w.Current e) :=
  match e with
  | .send i dest data _ _ _ =>
    inferInstanceAs (Decidable (w.HandleCurrent i dest ∧ w.NameLive dest ∧ w.FitsSlot dest data))
  | .initializeMailbox _ _ => isTrue trivial
  | .shutdown _ => isTrue trivial
  | .receive _ _ => isTrue trivial

/-! ### The invariant -/

/-- The mailboxes that are initialized have their names. -/
structure Bound (w : ShmHost) : Prop where
  live : ∀ m ∈ w.mailboxes, m.created = true →
    m.evlObjects = true ∧ ∃ o, m.shmBase = some o ∧ w.names m.config.mailboxId = some o
  /-- Two mailboxes with one id do not both have the public names. -/
  unique : ∀ (i j : Nat) (m m' : PublicMailbox), w.mailboxes[i]? = some m →
    w.mailboxes[j]? = some m' → m.evlObjects = true → m'.evlObjects = true →
    m.config.mailboxId = m'.config.mailboxId → i = j

theorem bound_init (names : MailboxId → Option Nat) (objects : List ShmObject)
    (configs : List (TimsConfig × Nat)) : (init names objects configs).Bound := by
  have hfresh : ∀ m ∈ (init names objects configs).mailboxes,
      m.created = false ∧ m.evlObjects = false := by
    intro m hm
    obtain ⟨c, -, rfl⟩ := List.mem_map.mp hm
    exact ⟨rfl, rfl⟩
  refine ⟨?_, ?_⟩
  · intro m hm hcreated
    rw [(hfresh m hm).1] at hcreated
    cases hcreated
  · intro i j m m' hm _ hevl
    rw [(hfresh m (List.mem_of_getElem? hm)).2] at hevl
    cases hevl

namespace Bound

variable {w w' : ShmHost}

/-- The names that are bound stay so, and the mailboxes are the same. -/
theorem mono (h : w.Bound) (hmailboxes : w'.mailboxes = w.mailboxes)
    (hnames : ∀ id o, w.names id = some o → w'.names id = some o) : w'.Bound where
  live m hm hcreated := by
    rw [hmailboxes] at hm
    obtain ⟨hevl, o, hshm, hname⟩ := h.live m hm hcreated
    exact ⟨hevl, o, hshm, hnames _ o hname⟩
  unique := by
    rw [hmailboxes]
    exact h.unique

/-- Mailbox `i` changes, but not its id. If it has the public names then, no other mailbox with the
id has them, and if it is initialized, its name is bound to its object. -/
theorem setMailbox (h : w.Bound) {i : Nat} {m : PublicMailbox} (hm : w.mailboxes[i]? = some m)
    (m' : PublicMailbox) (hid : m'.config.mailboxId = m.config.mailboxId)
    (hevl : m'.evlObjects = true → m.evlObjects = true ∨
      ∀ n ∈ w.mailboxes, n.evlObjects = true → n.config.mailboxId ≠ m.config.mailboxId)
    (hlive : m'.created = true → m'.evlObjects = true ∧
      ∃ o, m'.shmBase = some o ∧ w.names m.config.mailboxId = some o) :
    (w.setMailbox i m').Bound := by
  have hlt : i < w.mailboxes.length := (List.getElem?_eq_some_iff.mp hm).1
  have hself : (w.mailboxes.set i m')[i]? = some m' := List.getElem?_set_self hlt
  have hother : ∀ {j}, j ≠ i → (w.mailboxes.set i m')[j]? = w.mailboxes[j]? := by
    intro j hj
    exact List.getElem?_set_ne (Ne.symm hj)
  refine ⟨?_, ?_⟩
  · intro n hn hcreated
    obtain ⟨j, hj⟩ := List.mem_iff_getElem?.mp hn
    by_cases hji : j = i
    · subst hji
      obtain rfl : m' = n := by simpa [ShmHost.setMailbox, hself] using hj
      rw [hid]
      exact hlive hcreated
    · rw [ShmHost.setMailbox, hother hji] at hj
      exact h.live n (List.mem_of_getElem? hj) hcreated
  · -- A mailbox that had the public names before is the only one, and one that gets them is too.
    have hnew : ∀ (j : Nat) (n : PublicMailbox), j ≠ i → w.mailboxes[j]? = some n →
        n.evlObjects = true → m'.evlObjects = true →
        n.config.mailboxId ≠ m'.config.mailboxId := by
      intro j n hji hn hnevl hmevl heq
      rw [hid] at heq
      rcases hevl hmevl with hold | hnone
      · exact hji (h.unique j i n m hn hm hnevl hold heq)
      · exact hnone n (List.mem_of_getElem? hn) hnevl heq
    intro j k n n' hn hn' hnevl hnevl' heq
    simp only [ShmHost.setMailbox] at hn hn'
    by_cases hji : j = i
    · by_cases hki : k = i
      · rw [hji, hki]
      · subst hji
        obtain rfl : m' = n := by simpa [hself] using hn
        rw [hother hki] at hn'
        exact absurd heq.symm (hnew k n' hki hn' hnevl' hnevl)
    · rw [hother hji] at hn
      by_cases hki : k = i
      · subst hki
        obtain rfl : m' = n' := by simpa [hself] using hn'
        exact absurd heq (hnew j n hji hn hnevl hnevl')
      · rw [hother hki] at hn'
        exact h.unique j k n n' hn hn' hnevl hnevl' heq

/-- A name is taken away that no initialized mailbox has. -/
theorem unlink (h : w.Bound) {id : MailboxId}
    (hnone : ∀ m ∈ w.mailboxes, m.created = true → m.config.mailboxId ≠ id) :
    ({ w with names := Function.update w.names id none } : ShmHost).Bound where
  live m hm hcreated := by
    obtain ⟨hevl, o, hshm, hname⟩ := h.live m hm hcreated
    exact ⟨hevl, o, hshm, (Function.update_of_ne (hnone m hm hcreated) ..).trans hname⟩
  unique := h.unique

end Bound

/-! ### One call -/

theorem shmOpenCreate_spec (w : ShmHost) (id : MailboxId) :
    (w.shmOpenCreate id).2.mailboxes = w.mailboxes ∧
      (w.shmOpenCreate id).2.names id = some (w.shmOpenCreate id).1 ∧
      ∀ id' o, w.names id' = some o → (w.shmOpenCreate id).2.names id' = some o := by
  unfold shmOpenCreate
  cases hname : w.names id with
  | some o => exact ⟨rfl, hname, fun _ _ h => h⟩
  | none =>
    refine ⟨rfl, Function.update_self .., ?_⟩
    intro id' o h
    have hne : id' ≠ id := by
      rintro rfl
      rw [hname] at h
      cases h
    exact (Function.update_of_ne hne ..).trans h

/-- `allocate_ring` leaves the names alone that are bound. When it succeeds, the mailbox has mapped
the object of its name. -/
theorem allocateRing_spec (w : ShmHost) (m : PublicMailbox) (slotSize : UInt32) (a : InitAnswers) :
    (w.allocateRing m slotSize a).2.mailboxes = w.mailboxes ∧
      (∀ id o, w.names id = some o → (w.allocateRing m slotSize a).2.names id = some o) ∧
      ∀ m', (w.allocateRing m slotSize a).1 = some m' →
        ∃ o, m' = { m with shmBase := some o, capacity := kSlots, slotSize := slotSize } ∧
          (w.allocateRing m slotSize a).2.names m.config.mailboxId = some o := by
  obtain ⟨hmailboxes, hname, hmono⟩ := w.shmOpenCreate_spec m.config.mailboxId
  simp only [allocateRing]
  split
  · exact ⟨rfl, fun _ _ h => h, fun _ h => by cases h⟩
  · split
    · exact ⟨hmailboxes, hmono, fun _ h => by cases h⟩
    · split
      · exact ⟨hmailboxes, hmono, fun _ h => by cases h⟩
      · refine ⟨hmailboxes, hmono, ?_⟩
        intro m' hm'
        exact ⟨_, (Option.some.inj hm').symm, hname⟩

/-- The public names are free for a new mailbox. -/
theorem evlNamesInUse_eq_false {w : ShmHost} {id : MailboxId} (h : w.evlNamesInUse id = false) :
    ∀ m ∈ w.mailboxes, m.evlObjects = true → m.config.mailboxId ≠ id := by
  intro m hm hevl hid
  have := List.any_eq_false.mp h m hm
  simp [hevl, hid] at this

theorem Bound.initializeMailbox {w : ShmHost} (h : w.Bound) (i : Nat) (a : InitAnswers) :
    (w.initializeMailbox i a).2.Bound := by
  unfold ShmHost.initializeMailbox
  cases hm : w.mailboxes[i]? with
  | none => exact h
  | some m =>
    by_cases hcreated : m.created = true
    · simp only [hcreated, if_true]
      exact h
    · have hnot : m.created = false := by simpa using hcreated
      obtain ⟨hmailboxes, hmono, hsome⟩ :=
        w.allocateRing_spec m (UInt32.ofNat m.config.maxMsgSize) a
      have hw := h.mono hmailboxes hmono
      simp only [hnot, Bool.false_eq_true, if_false]
      generalize w.allocateRing m (UInt32.ofNat m.config.maxMsgSize) a = res at *
      obtain ⟨_ | m', w'⟩ := res
      · exact hw
      · obtain ⟨o, rfl, hname⟩ := hsome m' rfl
        have hm' : w'.mailboxes[i]? = some m := hmailboxes ▸ hm
        simp only
        split
        · -- The mailbox keeps its mapping, but it is not initialized.
          refine hw.setMailbox hm' _ rfl Or.inl ?_
          intro hcreated'
          rw [hnot] at hcreated'
          cases hcreated'
        · rename_i hfree
          have hnames : ∀ n ∈ w'.mailboxes, n.evlObjects = true →
              n.config.mailboxId ≠ m.config.mailboxId :=
            evlNamesInUse_eq_false (by
              simp only [Bool.or_eq_true, not_or, Bool.not_eq_true] at hfree
              exact hfree.1.1)
          split
          · refine hw.setMailbox hm' _ rfl (fun _ => Or.inr hnames) ?_
            intro hcreated'
            rw [hnot] at hcreated'
            cases hcreated'
          · exact hw.setMailbox hm' _ rfl (fun _ => Or.inr hnames) fun _ => ⟨rfl, o, rfl, hname⟩

theorem Bound.shutdown {w : ShmHost} (h : w.Bound) (i : Nat) : (w.shutdown i).Bound := by
  unfold ShmHost.shutdown
  cases hm : w.mailboxes[i]? with
  | none => exact h
  | some m =>
    by_cases hcreated : m.created = true
    · obtain ⟨hevl, o, hshm, -⟩ := h.live m (List.mem_of_getElem? hm) hcreated
      simp only [hcreated, Bool.not_true, Bool.false_eq_true, if_false, hshm]
      refine (h.setMailbox hm m.closed rfl (fun hevl' => by cases hevl')
        fun hcreated' => by cases hcreated').unlink ?_
      -- Another mailbox with the id would have the public names too.
      intro n hn hlive hid
      obtain ⟨j, hj⟩ := List.mem_iff_getElem?.mp hn
      simp only [ShmHost.setMailbox, List.getElem?_set] at hj
      split at hj
      · split at hj
        · rw [← Option.some.inj hj] at hlive
          cases hlive
        · cases hj
      · rename_i hne
        obtain ⟨hevl', -⟩ := h.live n (List.mem_of_getElem? hj) hlive
        exact hne (h.unique i j m n hm hj hevl hevl' hid.symm)
    · simp only [hcreated, Bool.not_false, if_true]
      exact h

/-- A post changes an object only. -/
theorem postToRemote_frame (w : ShmHost) (o : Nat) (data : List UInt8) (priority : Int8)
    (mailboxId : MailboxId) :
    (w.postToRemote o data priority mailboxId).2.names = w.names ∧
      (w.postToRemote o data priority mailboxId).2.mailboxes = w.mailboxes := by
  unfold postToRemote
  split
  · exact ⟨rfl, rfl⟩
  · split <;> exact ⟨rfl, rfl⟩

/-- A send changes the handles of the sender and an object. -/
theorem sendRaw_frame (w : ShmHost) (i : Nat) (dest : MailboxId) (data : List UInt8)
    (found : Option Bool) (a : OpenAnswers) (oobWrite : Bool) :
    (w.sendRaw i dest data found a oobWrite).2.names = w.names ∧
      ((w.sendRaw i dest data found a oobWrite).2.mailboxes = w.mailboxes ∨
        ∃ m cache, w.mailboxes[i]? = some m ∧
          (w.sendRaw i dest data found a oobWrite).2.mailboxes
            = w.mailboxes.set i { m with remoteHandles := cache }) := by
  unfold sendRaw
  cases hm : w.mailboxes[i]? with
  | none => exact ⟨rfl, Or.inl rfl⟩
  | some m =>
    simp only
    split
    · exact ⟨rfl, Or.inl rfl⟩
    · split
      · exact ⟨rfl, Or.inl rfl⟩
      · cases found with
        | some ok => exact ⟨rfl, Or.inl rfl⟩
        | none =>
          simp only
          split
          · rename_i o _
            obtain ⟨hnames, hmailboxes⟩ := (w.setMailbox i _).postToRemote_frame o data
              (sendPriority m.config) m.config.mailboxId
            exact ⟨hnames, Or.inr ⟨m, _, rfl, hmailboxes⟩⟩
          · exact ⟨rfl, Or.inr ⟨m, _, rfl, rfl⟩⟩

theorem Bound.sendRaw {w : ShmHost} (h : w.Bound) (i : Nat) (dest : MailboxId)
    (data : List UInt8) (found : Option Bool) (a : OpenAnswers) (oobWrite : Bool) :
    (w.sendRaw i dest data found a oobWrite).2.Bound := by
  obtain ⟨hnames, hmailboxes | ⟨m, cache, hm, hmailboxes⟩⟩ :=
    w.sendRaw_frame i dest data found a oobWrite
  · exact h.mono hmailboxes fun id o ho => hnames ▸ ho
  · have hset := h.setMailbox hm { m with remoteHandles := cache } rfl Or.inl
      (h.live m (List.mem_of_getElem? hm))
    exact hset.mono hmailboxes fun id o ho => hnames ▸ ho

theorem Bound.receive {w : ShmHost} (h : w.Bound) (i bufferSize : Nat) :
    (w.receive i bufferSize).Bound := by
  refine h.mono ?_ ?_
  · unfold ShmHost.receive
    repeat' split
    all_goals rfl
  · unfold ShmHost.receive
    repeat' split
    all_goals exact fun _ _ ho => ho

theorem bound_step (w : ShmHost) (e : Event) (h : w.Bound) : (w.step e).Bound := by
  cases e with
  | initializeMailbox i a => exact h.initializeMailbox i a
  | shutdown i => exact h.shutdown i
  | send i dest data found a oobWrite => exact h.sendRaw i dest data found a oobWrite
  | receive i bufferSize => exact h.receive i bufferSize

/-! ### The object of a send -/

end ShmHost

namespace HandleCache

variable {α : Type}

theorem shmBase_touch (c : HandleCache α) (i : Nat) :
    ((c.touch i).handles[i]?.bind (·.shmBase)) = c.handles[i]?.bind (·.shmBase) := by
  simp only [touch, List.getElem?_modify_eq]
  cases c.handles[i]? <;> rfl

/-- A handle that has just been opened maps what `open_remote` has mapped. -/
theorem shmBase_openAt {c : HandleCache α} {i : Nat} {dest : MailboxId} {opened : Option α} {a : α}
    (h : ((c.openAt i dest opened).1.bind fun k =>
      (c.openAt i dest opened).2.handles[k]?.bind (·.shmBase)) = some a) : opened = some a := by
  cases opened with
  | none => cases h
  | some b =>
    simp only [openAt, Option.bind_some, shmBase_touch, install, List.getElem?_modify_eq] at h
    cases hget : c.handles[i]? with
    | none =>
      rw [hget] at h
      cases h
    | some e =>
      rw [hget] at h
      exact h

/-- What `get_or_open_remote` gives: the handle that the cache has, or one that has been opened. -/
theorem shmBase_getOrOpenRemote {c : HandleCache α} {dest : MailboxId} {opened : Option α} {a : α}
    (h : ((c.getOrOpenRemote dest opened).1.bind fun k =>
      (c.getOrOpenRemote dest opened).2.handles[k]?.bind (·.shmBase)) = some a) :
    (∃ k e, c.hit dest = some k ∧ c.handles[k]? = some e ∧ e.shmBase = some a) ∨
      (c.hit dest = none ∧ opened = some a) := by
  unfold getOrOpenRemote at h
  cases hhit : c.hit dest with
  | some k =>
    simp only [hhit, Option.bind_some, shmBase_touch] at h
    obtain ⟨e, he, hbase⟩ := Option.bind_eq_some_iff.mp h
    exact Or.inl ⟨k, e, rfl, he, hbase⟩
  | none =>
    simp only [hhit] at h
    cases hfree : c.handles.findIdx? (!·.valid) with
    | some k =>
      simp only [hfree] at h
      exact Or.inr ⟨rfl, shmBase_openAt h⟩
    | none =>
      simp only [hfree] at h
      exact Or.inr ⟨rfl, shmBase_openAt h⟩

end HandleCache

namespace ShmHost

theorem names_of_openRemote {w : ShmHost} {dest : MailboxId} {a : OpenAnswers} {o : Nat}
    (h : w.openRemote dest a = some o) : w.names dest = some o := by
  unfold openRemote at h
  split at h
  · cases h
  · cases hname : w.names dest with
    | none =>
      rw [hname] at h
      cases h
    | some o' =>
      simp only [hname] at h
      split at h
      · cases h
      · split at h
        · cases h
        · exact h

/-- What `post_to_remote` has stored: the part of the message that fits into a slot. -/
theorem holds_postToRemote {w : ShmHost} {o : Nat} {data : List UInt8} {priority : Int8}
    {src : MailboxId} (h : (w.postToRemote o data priority src).1.posted = some o) :
    ∃ obj, w.objects[o]? = some obj ∧
      (data.length ≤ (RemoteRing.mk obj.bytes).layout.slotSize.toNat →
        (w.postToRemote o data priority src).2.Holds o data priority src) := by
  unfold postToRemote at h ⊢
  cases hobj : w.objects[o]? with
  | none =>
    rw [hobj] at h
    cases h
  | some obj =>
    refine ⟨obj, rfl, fun hfit => ?_⟩
    obtain ⟨hok, howned⟩ := (RemoteRing.mk obj.bytes).postToRemote_owned hfit priority src
    simp only [hobj] at h ⊢
    generalize hpost : (RemoteRing.mk obj.bytes).postToRemote data priority src = res at *
    obtain ⟨ok, ring⟩ := res
    cases ok with
    | false => cases h
    | true =>
      obtain ⟨i, hi, hmessage⟩ := MailboxRing.messageAt_post
        (Nat.lt_of_le_of_lt hfit (UInt32.toNat_lt _)) hok.symm
      rw [← howned] at hi hmessage
      refine ⟨{ obj with bytes := ring.shmBase }, ?_, i.toNat, UInt32.lt_iff_toNat_lt.mp hi, ?_⟩
      · exact List.getElem?_set_self (List.getElem?_eq_some_iff.mp hobj).1
      · rw [UInt32.ofNat_toNat]
        exact hmessage

/-- A send that posts to an object has the object from a handle that it has kept, or from the
name. The message is there if it fits into a slot. -/
theorem sendRaw_posted {w : ShmHost} {i : Nat} {dest : MailboxId} {data : List UInt8}
    {found : Option Bool} {a : OpenAnswers} {oobWrite : Bool} {o : Nat}
    (h : (w.sendRaw i dest data found a oobWrite).1 = ⟨.SUCCESS, some o⟩) :
    ∃ m, w.mailboxes[i]? = some m ∧
      ((∃ k e, m.remoteHandles.hit dest = some k ∧ m.remoteHandles.handles[k]? = some e ∧
        e.shmBase = some o) ∨
      (m.remoteHandles.hit dest = none ∧ w.names dest = some o)) ∧
      ∃ obj, w.objects[o]? = some obj ∧
        (data.length ≤ (RemoteRing.mk obj.bytes).layout.slotSize.toNat →
          (w.sendRaw i dest data found a oobWrite).2.Holds o data (sendPriority m.config)
            m.config.mailboxId) := by
  unfold sendRaw at h ⊢
  cases hm : w.mailboxes[i]? with
  | none => simp [hm] at h
  | some m =>
    refine ⟨m, rfl, ?_⟩
    simp only [hm] at h ⊢
    split at h
    · cases h
    · rename_i hcreated
      rw [if_neg hcreated]
      split at h
      · cases h
      · rename_i hsize
        rw [if_neg hsize]
        cases found with
        | some ok => simp at h
        | none =>
          simp only at h ⊢
          split at h
          · rename_i o' hbase
            have ho : o' = o := by
              unfold postToRemote at h
              split at h
              · cases h
              · split at h
                · simpa using h
                · cases h
            subst ho
            have hposted := holds_postToRemote (congrArg Sent.posted h)
            rcases HandleCache.shmBase_getOrOpenRemote hbase with hkept | ⟨hmiss, hopened⟩
            · exact ⟨Or.inl hkept, hposted⟩
            · exact ⟨Or.inr ⟨hmiss, names_of_openRemote hopened⟩, hposted⟩
          · simp at h

/-- The mailbox reads from the object of a send exactly when the sender posts to the object that the
name is bound to and the mailbox is initialized. -/
theorem readsFrom_iff_current {w : ShmHost} (hw : w.Bound) {i : Nat} {dest : MailboxId}
    {data : List UInt8} {found : Option Bool} {a : OpenAnswers} {oobWrite : Bool} {o : Nat}
    (h : (w.sendRaw i dest data found a oobWrite).1 = ⟨.SUCCESS, some o⟩) :
    w.ReadsFrom dest o ↔ w.HandleCurrent i dest ∧ w.NameLive dest := by
  obtain ⟨m, hm, hfrom, -⟩ := sendRaw_posted h
  constructor
  · rintro ⟨n, hn, hcreated, rfl, hshm⟩
    obtain ⟨-, o', hshm', hname⟩ := hw.live n hn hcreated
    obtain rfl : o = o' := Option.some.inj (hshm.symm.trans hshm')
    refine ⟨?_, fun _ => ⟨n, hn, hcreated, rfl⟩⟩
    intro m' hm' k hhit e he
    obtain rfl : m = m' := Option.some.inj (hm.symm.trans hm')
    rcases hfrom with ⟨k', e', hhit', he', hbase⟩ | ⟨hmiss, -⟩
    · obtain rfl : k = k' := Option.some.inj (hhit.symm.trans hhit')
      obtain rfl : e = e' := Option.some.inj (he.symm.trans he')
      rw [hbase, hname]
    · rw [hmiss] at hhit
      cases hhit
  · rintro ⟨hcurrent, hlive⟩
    have hname : w.names dest = some o := by
      rcases hfrom with ⟨k, e, hhit, he, hbase⟩ | ⟨-, hname⟩
      · rw [← hcurrent m hm k hhit e he, hbase]
      · exact hname
    obtain ⟨n, hn, hcreated, hid⟩ := hlive (by simp [hname])
    obtain ⟨-, o', hshm, hname'⟩ := hw.live n hn hcreated
    rw [hid, hname, Option.some.injEq] at hname'
    exact ⟨n, hn, hcreated, hid, hname' ▸ hshm⟩

/-- A send that meets the condition reaches its mailbox. -/
theorem reaches_of_current_send {w : ShmHost} (hw : w.Bound) {i : Nat} {dest : MailboxId}
    {data : List UInt8} {found : Option Bool} {a : OpenAnswers} {oobWrite : Bool}
    (h : w.Current (.send i dest data found a oobWrite)) :
    w.Reaches (.send i dest data found a oobWrite) := by
  obtain ⟨hcurrent, hlive, hfits⟩ := h
  intro o hsent
  have hreads := (readsFrom_iff_current hw hsent).mpr ⟨hcurrent, hlive⟩
  obtain ⟨m, hm, -, obj, hobj, hholds⟩ := sendRaw_posted hsent
  refine ⟨hreads, m, hm, hholds (hfits o ?_ obj hobj)⟩
  obtain ⟨n, hn, hcreated, rfl, hshm⟩ := hreads
  obtain ⟨-, o', hshm', hname⟩ := hw.live n hn hcreated
  rw [hshm, Option.some.injEq] at hshm'
  exact hshm' ▸ hname

/-! ### Runs -/

/-- **A message that is posted reaches its mailbox.** Take the mailboxes of a host, whatever SHM
objects there are. They are initialized, shut down and used in any order, and each call to the
kernel may fail. If every send has a current handle or none, no name is left behind without its
mailbox, and every message fits into the slots of its destination, then every message that
`post_to_remote` reports as sent is, all of it, in a slot of the object that the mailbox with its
destination reads from. -/
theorem reaches_of_current (names : MailboxId → Option Nat) (objects : List ShmObject)
    (configs : List (TimsConfig × Nat)) (es : List Event)
    (h : AllSteps step Current (init names objects configs) es) :
    AllSteps step Reaches (init names objects configs) es := by
  refine h.imp (fun w e hw _ => bound_step w e hw) ?_ (bound_init names objects configs)
  intro w e hw he
  cases e with
  | send i dest data found a oobWrite => exact reaches_of_current_send hw he
  | initializeMailbox i a => trivial
  | shutdown i => trivial
  | receive i bufferSize => trivial

/-- A receiver with the id 7 and a sender with the id 8. -/
def receiverAndSender : ShmHost :=
  init (fun _ => none) [] [(⟨7, 64, 0⟩, 4), (⟨8, 64, 0⟩, 4)]

/-- A message of the sender to the receiver. -/
def sendTo7 (data : List UInt8) : Event := .send 1 7 data none .good true

/-- The sender keeps its handle, and the receiver is not shut down. -/
def twoMessages : List Event :=
  [.initializeMailbox 0 .good, .initializeMailbox 1 .good, sendTo7 [1], .receive 0 64,
    sendTo7 [2]]

theorem reaches_twoMessages :
    AllSteps step Current receiverAndSender twoMessages ∧
      AllSteps step Reaches receiverAndSender twoMessages := by
  have hsteps : AllSteps step Current receiverAndSender twoMessages :=
    ⟨trivial, trivial, by decide, trivial, by decide, trivial⟩
  exact ⟨hsteps, reaches_of_current _ _ _ _ hsteps⟩

/-- The receiver is shut down between two messages. -/
def shutDownBetween : List Event :=
  [.initializeMailbox 0 .good, .initializeMailbox 1 .good, sendTo7 [1], .shutdown 0]

/-- The messages of the receiver have up to four bytes, and those of the sender up to 64. -/
def smallReceiver : ShmHost :=
  init (fun _ => none) [] [(⟨7, 4, 0⟩, 4), (⟨8, 64, 0⟩, 4)]

def bothInitialized : List Event := [.initializeMailbox 0 .good, .initializeMailbox 1 .good]

/-- After the shutdown, the second message goes to the object of the first. Nobody reads from it,
not even when the receiver is initialized again before: then it reads from another object. And a
message of six bytes goes to a slot of four. -/
theorem successful_sends_lose_messages :
    ¬ AllSteps step Reaches receiverAndSender (shutDownBetween ++ [sendTo7 [2]]) ∧
      ¬ AllSteps step Reaches receiverAndSender
        (shutDownBetween ++ [.initializeMailbox 0 .good] ++ [sendTo7 [2]]) ∧
      ¬ AllSteps step Reaches smallReceiver (bothInitialized ++ [sendTo7 [1, 2, 3, 4, 5, 6]]) := by
  have hposted : ((runFrom step receiverAndSender shutDownBetween).sendRaw 1 7 [2] none .good
      true).1 = ⟨.SUCCESS, some 0⟩ := by decide
  have hposted' : ((runFrom step receiverAndSender
      (shutDownBetween ++ [.initializeMailbox 0 .good])).sendRaw 1 7 [2] none .good true).1
        = ⟨.SUCCESS, some 0⟩ := by decide
  have hlong : ((runFrom step smallReceiver bothInitialized).sendRaw 1 7 [1, 2, 3, 4, 5, 6] none
      .good true).1 = ⟨.SUCCESS, some 0⟩ := by decide
  refine ⟨?_, ?_, ?_⟩
  · intro h
    exact absurd (h.last 0 hposted).1 (by decide)
  · intro h
    exact absurd (h.last 0 hposted').1 (by decide)
  · intro h
    obtain ⟨m, hm, hholds⟩ := (h.last 0 hlong).2
    obtain rfl := Option.some.inj hm
    exact absurd hholds (by decide)

end ShmHost

end CoreRaT.Spec
