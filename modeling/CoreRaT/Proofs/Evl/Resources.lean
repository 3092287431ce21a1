import CoreRaT.Spec.MailboxResources

/-!
# `CoreRaT.Proofs.Evl.Resources`: what a failed `initialize` leaves behind

Each helper of `initialize` gives back what it has taken itself when it fails, but for the name of
an SHM object. Nobody gives back what the helpers before it have taken, and `shutdown` does nothing
while `created_` is false. So a failure in `Mode::Public` leaves the mapped ring behind from
`create_evl_objects` on, and the name of a new object even before (`leavesNothing_iff`). After a
failure of `create_xbuf` the mutex and the event are there as well: other processes post into a ring
that nobody reads, and `initialize` cannot succeed any more, because the names are in use
(`ring_without_mailbox`).
-/

set_option autoImplicit false

namespace CoreRaT.Spec

open CoreRaT.Lib

/-! ### The system -/

namespace Resources

variable {r r' : Resources} {fd : Nat}

theorem openFile_eq_some {file : OpenFile} {ok : Bool} (h : r.openFile file ok = some (fd, r')) :
    ok = true ∧ r.fds.lowestFree ≠ none ∧
      ∃ fds, r.fds.acquire file = some (fd, fds) ∧ r' = { r with fds } := by
  unfold openFile at h
  cases ok with
  | false => cases h
  | true =>
    simp only [Bool.not_true, Bool.false_eq_true, if_false] at h
    cases hacquire : r.fds.acquire file with
    | none => simp [hacquire] at h
    | some res =>
      simp only [hacquire, Option.some.injEq, Prod.mk.injEq] at h
      obtain ⟨rfl, rfl⟩ := h
      refine ⟨rfl, ?_, res.2, rfl, rfl⟩
      intro hnone
      rw [HandleTable.acquire_eq_none.mpr hnone] at hacquire
      cases hacquire

theorem openFile_eq_none (file : OpenFile) {ok : Bool} :
    r.openFile file ok = none ↔ ok = false ∨ r.fds.lowestFree = none := by
  unfold openFile
  cases ok with
  | false => simp
  | true =>
    rw [← HandleTable.acquire_eq_none (a := file)]
    cases r.fds.acquire file with
    | none => simp
    | some res => simp

/-- To close a descriptor that keeps no public element alive. -/
theorem closeFile_of_entries {file : OpenFile} (hfd : r.fds.entries fd = some file)
    (hfile : ∀ kind id, file ≠ .evl kind (some id)) :
    r.closeFile fd = { r with fds := r.fds.release fd } := by
  unfold closeFile
  split
  · rename_i kind id heq
    rw [hfd, Option.some.injEq] at heq
    exact (hfile kind id heq).elim
  · rfl

theorem closeFile_openFile {file : OpenFile} {ok : Bool}
    (hfile : ∀ kind id, file ≠ .evl kind (some id)) (h : r.openFile file ok = some (fd, r')) :
    r'.closeFile fd = r := by
  obtain ⟨-, -, fds, hacquire, rfl⟩ := openFile_eq_some h
  rw [closeFile_of_entries (HandleTable.entries_acquire hacquire).2 hfile,
    HandleTable.release_acquire hacquire]

/-- A new element goes away with its descriptor. -/
theorem closeFile_createElement {kind : EvlKind} {name : Option MailboxId} {ok : Bool}
    (h : r.createElement kind name ok = some (fd, r')) : r'.closeFile fd = r := by
  cases name with
  | none => exact closeFile_openFile (fun _ _ heq => by cases heq) h
  | some id =>
    simp only [createElement] at h
    split at h
    · cases h
    · rename_i hcount
      cases hopen : r.openFile (.evl kind (some id)) ok with
      | none => simp [hopen] at h
      | some res =>
        simp only [hopen, Option.some.injEq, Prod.mk.injEq] at h
        obtain ⟨rfl, rfl⟩ := h
        obtain ⟨-, -, fds, hacquire, heq⟩ := openFile_eq_some hopen
        have hentries := (HandleTable.entries_acquire hacquire).2
        have hnames : Function.update r.evlNames (kind, id) 0 = r.evlNames :=
          Function.update_eq_self_iff.mpr (not_not.mp hcount).symm
        simp only [heq, closeFile, setEvlName, hentries, Function.update_self,
          Function.update_idem, Nat.sub_self, hnames, HandleTable.release_acquire hacquire]

@[simp] theorem mappings_closeFile (r : Resources) (fd : Nat) :
    (r.closeFile fd).mappings = r.mappings := by
  unfold closeFile
  split
  · rfl
  · rfl

theorem mappings_createElement {kind : EvlKind} {name : Option MailboxId} {ok : Bool}
    (h : r.createElement kind name ok = some (fd, r')) : r'.mappings = r.mappings := by
  rw [← closeFile_createElement h, mappings_closeFile]

theorem mmap_eq_none {o : Nat} {ok : Bool} :
    r.mmap o ok = none ↔ ok = false ∨ r.mappings.lowestFree = none := by
  unfold mmap
  cases ok with
  | false => simp
  | true =>
    rw [← HandleTable.acquire_eq_none (a := o)]
    cases r.mappings.acquire o with
    | none => simp
    | some res => simp

theorem mappings_mmap {o base : Nat} {ok : Bool} (h : r.mmap o ok = some (base, r')) :
    r'.mappings ≠ r.mappings := by
  unfold mmap at h
  split at h
  · cases h
  · cases hacquire : r.mappings.acquire o with
    | none => simp [hacquire] at h
    | some res =>
      simp only [hacquire, Option.some.injEq, Prod.mk.injEq] at h
      obtain ⟨-, rfl⟩ := h
      exact HandleTable.ne_of_acquire hacquire

end Resources

/-! ### The helpers of `initialize` -/

/-- What `initialize` reads of a mailbox. -/
def EvlMailbox.start (m : EvlMailbox) : TimsConfig × Mode × Bool := (m.config, m.mode, m.created)

namespace EvlHost

/-- `shm_open` fails. -/
def ShmOpenFails (w : EvlHost) (a : InitCalls) : Prop :=
  a.shmOpen = false ∨ w.resources.fds.lowestFree = none

/-- `ftruncate` or `mmap` fails. -/
def MapFails (w : EvlHost) (a : InitCalls) : Prop :=
  a.ftruncate = false ∨ a.mmap = false ∨ w.resources.mappings.lowestFree = none

/-- `w'` is as `w`, for a call of `initialize` of the mailbox `m'` instead of `m`. -/
structure SameStart (w : EvlHost) (m : EvlMailbox) (w' : EvlHost) (m' : EvlMailbox) : Prop where
  resources : w'.resources = w.resources
  objects : w'.objects.length = w.objects.length
  start : m'.start = m.start

variable {w w' : EvlHost} {m m' : EvlMailbox} {a : InitCalls} {i : Nat}

/-- The system after `shm_open` and `close`: the name is bound. -/
def bindName (w : EvlHost) (id : MailboxId) : Resources :=
  { w.resources with
      shmNames := Function.update w.resources.shmNames id
        (some ((w.resources.shmNames id).getD w.objects.length)) }

theorem bindName_eq_iff {id : MailboxId} :
    w.bindName id = w.resources ↔ w.resources.shmNames id ≠ none := by
  constructor
  · intro heq hnone
    have hname := congrFun (congrArg Resources.shmNames heq) id
    simp [bindName, hnone] at hname
  · intro hne
    obtain ⟨o, ho⟩ := Option.ne_none_iff_exists'.mp hne
    have hnames : Function.update w.resources.shmNames id (some o) = w.resources.shmNames :=
      Function.update_eq_self_iff.mpr ho.symm
    simp only [bindName, ho, Option.getD_some, hnames]

theorem shmOpen_eq_none (id : MailboxId) : w.shmOpen id a.shmOpen = none ↔ w.ShmOpenFails a := by
  rw [ShmOpenFails, ← Resources.openFile_eq_none
    (.shm ((w.resources.shmNames id).getD w.objects.length)), shmOpen]
  cases w.resources.openFile (.shm ((w.resources.shmNames id).getD w.objects.length)) a.shmOpen with
  | none => simp
  | some res => simp

/-- After `shm_open`, the descriptor is the only thing to give back, but for the name. -/
theorem shmOpen_eq_some {id : MailboxId} {ok : Bool} {fd o : Nat}
    (h : w.shmOpen id ok = some (fd, o, w')) :
    w'.resources.closeFile fd = w.bindName id ∧ w'.resources.mappings = w.resources.mappings ∧
      w'.mailboxes = w.mailboxes ∧
      (w.resources.shmNames id ≠ none → w'.objects.length = w.objects.length) := by
  unfold shmOpen at h
  cases hopen : w.resources.openFile
      (.shm ((w.resources.shmNames id).getD w.objects.length)) ok with
  | none => simp [hopen] at h
  | some res =>
    simp only [hopen, Option.some.injEq, Prod.mk.injEq] at h
    obtain ⟨rfl, rfl, rfl⟩ := h
    obtain ⟨-, -, fds, hacquire, heq⟩ := Resources.openFile_eq_some hopen
    refine ⟨?_, ?_, rfl, ?_⟩
    · rw [heq, Resources.closeFile_of_entries (HandleTable.entries_acquire hacquire).2
        (fun _ _ heq => by cases heq)]
      simp only [bindName, HandleTable.release_acquire hacquire]
    · rw [heq]
    · intro hne
      simp [hne]

variable {slots slotSize : UInt32} {ok : Bool}

/-- `allocate_ring` in `Mode::Public`: there is no descriptor, or the name is bound and the rest
fails, or the object is mapped. -/
theorem allocateRing_public (hmode : m.mode = .Public)
    (h : w.allocateRing m slots slotSize a = (ok, m', w')) :
    w'.mailboxes = w.mailboxes ∧ m'.start = m.start ∧
      ((ok = false ∧ w.ShmOpenFails a ∧ w' = w) ∨
        (ok = false ∧ ¬ w.ShmOpenFails a ∧ w.MapFails a ∧
          w'.resources = w.bindName m.config.mailboxId ∧
          (w.resources.shmNames m.config.mailboxId ≠ none →
            w'.objects.length = w.objects.length)) ∨
        (ok = true ∧ ¬ w.ShmOpenFails a ∧ ¬ w.MapFails a ∧
          w'.resources.mappings ≠ w.resources.mappings)) := by
  rw [allocateRing, if_pos hmode] at h
  cases hopen : w.shmOpen m.config.mailboxId a.shmOpen with
  | none =>
    simp only [hopen, Prod.mk.injEq] at h
    obtain ⟨rfl, rfl, rfl⟩ := h
    exact ⟨rfl, rfl, .inl ⟨rfl, (shmOpen_eq_none _).mp hopen, rfl⟩⟩
  | some res =>
    obtain ⟨fd, o, w₁⟩ := res
    have hfail : ¬ w.ShmOpenFails a := by
      rw [← shmOpen_eq_none m.config.mailboxId, hopen]
      exact nofun
    obtain ⟨hclose, hmappings, hmailboxes, hobjects⟩ := shmOpen_eq_some hopen
    simp only [hopen] at h
    split at h
    · rename_i hftruncate
      simp only [Prod.mk.injEq] at h
      obtain ⟨rfl, rfl, rfl⟩ := h
      exact ⟨hmailboxes, rfl,
        .inr (.inl ⟨rfl, hfail, .inl (by simpa using hftruncate), hclose, hobjects⟩)⟩
    · rename_i hftruncate
      cases hmmap : w₁.resources.mmap o a.mmap with
      | none =>
        simp only [hmmap, Prod.mk.injEq] at h
        obtain ⟨rfl, rfl, rfl⟩ := h
        have hmap := Resources.mmap_eq_none.mp hmmap
        rw [hmappings] at hmap
        refine ⟨hmailboxes, rfl, .inr (.inl ⟨rfl, hfail, .inr hmap, hclose, ?_⟩)⟩
        intro hne
        simp [closeFile, hobjects hne]
      | some res =>
        simp only [hmmap, Prod.mk.injEq] at h
        obtain ⟨rfl, rfl, rfl⟩ := h
        refine ⟨hmailboxes, rfl, .inr (.inr ⟨rfl, hfail, ?_, ?_⟩)⟩
        · rintro (hno | hmap)
          · simp [hno] at hftruncate
          · rw [← hmappings] at hmap
            rw [Resources.mmap_eq_none.mpr hmap] at hmmap
            cases hmmap
        · rw [← hmappings]
          exact Resources.mappings_mmap hmmap

/-- `allocate_ring` in the other modes. -/
theorem allocateRing_heap (hmode : m.mode ≠ .Public)
    (h : w.allocateRing m slots slotSize a = (ok, m', w')) :
    ok = true ∧ m'.start = m.start ∧ w' = w := by
  rw [allocateRing, if_neg hmode, Prod.mk.injEq, Prod.mk.injEq] at h
  obtain ⟨rfl, rfl, rfl⟩ := h
  exact ⟨rfl, rfl, rfl⟩

theorem start_allocateRing (h : w.allocateRing m slots slotSize a = (ok, m', w')) :
    m'.start = m.start := by
  by_cases hmode : m.mode = .Public
  · exact (allocateRing_public hmode h).2.1
  · exact (allocateRing_heap hmode h).2.1

/-- `create_evl_objects` gives back what it has taken. -/
theorem createEvlObjects_cases (h : w.createEvlObjects m a = (ok, m', w')) :
    m'.start = m.start ∧ w'.objects = w.objects ∧ w'.mailboxes = w.mailboxes ∧
      w'.resources.mappings = w.resources.mappings ∧
      (ok = false → w'.resources = w.resources) := by
  simp only [createEvlObjects] at h
  generalize (if m.mode = .Public then some m.config.mailboxId else none) = name at h
  cases hmutex : w.resources.createElement .mutex name a.createMutex with
  | none =>
    simp only [hmutex, Prod.mk.injEq] at h
    obtain ⟨rfl, rfl, rfl⟩ := h
    exact ⟨rfl, rfl, rfl, rfl, fun _ => rfl⟩
  | some res =>
    obtain ⟨mtx, r⟩ := res
    simp only [hmutex] at h
    cases hevent : r.createElement .event name a.createEvent with
    | none =>
      simp only [hevent, Prod.mk.injEq] at h
      obtain ⟨rfl, rfl, rfl⟩ := h
      have hclose := Resources.closeFile_createElement hmutex
      exact ⟨rfl, rfl, rfl, congrArg Resources.mappings hclose, fun _ => hclose⟩
    | some res =>
      simp only [hevent, Prod.mk.injEq] at h
      obtain ⟨rfl, rfl, rfl⟩ := h
      refine ⟨rfl, rfl, rfl, ?_, nofun⟩
      exact (Resources.mappings_createElement hevent).trans
        (Resources.mappings_createElement hmutex)

/-- `create_xbuf` gives back what it has taken. -/
theorem createXbuf_failed (h : w.createXbuf m a = (false, m', w')) :
    m'.start = m.start ∧ w' = w := by
  unfold createXbuf at h
  cases hxbuf : w.resources.createElement .xbuf (some m.config.mailboxId) a.createXbuf with
  | none =>
    simp only [hxbuf, Prod.mk.injEq, true_and] at h
    obtain ⟨rfl, rfl⟩ := h
    exact ⟨rfl, rfl⟩
  | some res =>
    obtain ⟨fd, r⟩ := res
    simp only [hxbuf] at h
    cases hpoll : r.openFile .poll a.newPoll with
    | none =>
      simp only [hpoll, Prod.mk.injEq, true_and] at h
      obtain ⟨rfl, rfl⟩ := h
      exact ⟨rfl, by rw [Resources.closeFile_createElement hxbuf]⟩
    | some res => simp [hpoll] at h

/-- `create_oob_socket` gives back what it has taken. -/
theorem createOobSocket_failed (h : w.createOobSocket m a = (false, m', w')) :
    m'.start = m.start ∧ w' = w := by
  unfold createOobSocket at h
  cases hsocket : w.resources.openFile (.socket none) a.socket with
  | none =>
    simp only [hsocket, Prod.mk.injEq, true_and] at h
    obtain ⟨rfl, rfl⟩ := h
    exact ⟨rfl, rfl⟩
  | some res =>
    obtain ⟨fd, r⟩ := res
    simp only [hsocket] at h
    split at h
    · simp only [Prod.mk.injEq, true_and] at h
      obtain ⟨rfl, rfl⟩ := h
      have hclose : r.closeFile fd = w.resources :=
        Resources.closeFile_openFile (fun _ _ heq => by cases heq) hsocket
      exact ⟨rfl, by rw [hclose]⟩
    · simp at h

/-! ### Two calls -/

namespace SameStart

theorem mode (h : w.SameStart m w' m') : m'.mode = m.mode := congrArg (·.2.1) h.start

theorem config (h : w.SameStart m w' m') : m'.config = m.config := congrArg (·.1) h.start

theorem created (h : w.SameStart m w' m') : m'.created = m.created := congrArg (·.2.2) h.start

theorem shmOpen (h : w.SameStart m w' m') (id : MailboxId) (ok : Bool) :
    (w.shmOpen id ok = none ∧ w'.shmOpen id ok = none) ∨
      ∃ fd o w₁ w₁', w.shmOpen id ok = some (fd, o, w₁) ∧ w'.shmOpen id ok = some (fd, o, w₁') ∧
        w₁.SameStart m w₁' m' := by
  simp only [EvlHost.shmOpen, h.resources, h.objects]
  cases w.resources.openFile
      (.shm ((w.resources.shmNames id).getD w.objects.length)) ok with
  | none => exact .inl ⟨rfl, rfl⟩
  | some res =>
    refine .inr ⟨_, _, _, _, rfl, rfl, rfl, ?_, h.start⟩
    cases w.resources.shmNames id with
    | none => simp [h.objects]
    | some o => simp [h.objects]

theorem allocateRing (h : w.SameStart m w' m') (slots slotSize : UInt32) (a : InitCalls) :
    ∃ ok m₁ w₁ m₁' w₁', w.allocateRing m slots slotSize a = (ok, m₁, w₁) ∧
      w'.allocateRing m' slots slotSize a = (ok, m₁', w₁') ∧ w₁.SameStart m₁ w₁' m₁' := by
  have hstart : (m.config, m.mode, m'.created) = m.start :=
    congrArg (m.config, m.mode, ·) h.created
  unfold EvlHost.allocateRing
  rw [h.mode, h.config]
  split
  · rcases h.shmOpen m.config.mailboxId a.shmOpen with
      ⟨hopen, hopen'⟩ | ⟨fd, o, w₁, w₁', hopen, hopen', hsame⟩
    · rw [hopen, hopen']
      exact ⟨_, _, _, _, _, rfl, rfl, h.resources, h.objects, hstart⟩
    · rw [hopen, hopen']
      simp only
      split
      · exact ⟨_, _, _, _, _, rfl, rfl, congrArg (·.closeFile fd) hsame.resources,
          hsame.objects, hstart⟩
      · rw [hsame.resources]
        cases w₁.resources.mmap o a.mmap with
        | none =>
          refine ⟨_, _, _, _, _, rfl, rfl, rfl, ?_, hstart⟩
          simp [closeFile, hsame.objects]
        | some res =>
          exact ⟨_, _, _, _, _, rfl, rfl, rfl, by simp [hsame.objects], hstart⟩
  · exact ⟨_, _, _, _, _, rfl, rfl, h.resources, h.objects, hstart⟩

theorem createEvlObjects (h : w.SameStart m w' m') (a : InitCalls) :
    ∃ ok m₁ w₁ m₁' w₁', w.createEvlObjects m a = (ok, m₁, w₁) ∧
      w'.createEvlObjects m' a = (ok, m₁', w₁') ∧ w₁.SameStart m₁ w₁' m₁' := by
  have hstart : (m.config, m.mode, m'.created) = m.start :=
    congrArg (m.config, m.mode, ·) h.created
  simp only [EvlHost.createEvlObjects, h.resources, h.mode, h.config]
  generalize (if m.mode = .Public then some m.config.mailboxId else none) = name
  cases w.resources.createElement .mutex name a.createMutex with
  | none => exact ⟨_, _, _, _, _, rfl, rfl, h⟩
  | some res =>
    simp only
    cases res.2.createElement .event name a.createEvent with
    | none => exact ⟨_, _, _, _, _, rfl, rfl, rfl, h.objects, hstart⟩
    | some res => exact ⟨_, _, _, _, _, rfl, rfl, rfl, h.objects, hstart⟩

theorem createXbuf (h : w.SameStart m w' m') (a : InitCalls) :
    ∃ ok m₁ w₁ m₁' w₁', w.createXbuf m a = (ok, m₁, w₁) ∧
      w'.createXbuf m' a = (ok, m₁', w₁') ∧ w₁.SameStart m₁ w₁' m₁' := by
  have hstart : (m.config, m'.mode, m'.created) = m.start :=
    congrArg (m.config, ·) (congrArg (·.2) h.start)
  simp only [EvlHost.createXbuf, h.resources, h.config]
  cases w.resources.createElement .xbuf (some m.config.mailboxId) a.createXbuf with
  | none => exact ⟨_, _, _, _, _, rfl, rfl, h.resources, h.objects, hstart⟩
  | some res =>
    simp only
    cases res.2.openFile .poll a.newPoll with
    | none => exact ⟨_, _, _, _, _, rfl, rfl, rfl, h.objects, hstart⟩
    | some res => exact ⟨_, _, _, _, _, rfl, rfl, rfl, h.objects, hstart⟩

theorem createOobSocket (h : w.SameStart m w' m') (a : InitCalls) :
    ∃ ok m₁ w₁ m₁' w₁', w.createOobSocket m a = (ok, m₁, w₁) ∧
      w'.createOobSocket m' a = (ok, m₁', w₁') ∧ w₁.SameStart m₁ w₁' m₁' := by
  have hstart : (m.config, m'.mode, m'.created) = m.start :=
    congrArg (m.config, ·) (congrArg (·.2) h.start)
  simp only [EvlHost.createOobSocket, h.resources, h.config]
  cases w.resources.openFile (.socket none) a.socket with
  | none => exact ⟨_, _, _, _, _, rfl, rfl, h.resources, h.objects, hstart⟩
  | some res =>
    simp only
    split
    · exact ⟨_, _, _, _, _, rfl, rfl, rfl, h.objects, hstart⟩
    · exact ⟨_, _, _, _, _, rfl, rfl, rfl, h.objects, hstart⟩

/-- `initialize` does the same in both states. -/
theorem initializeMailbox (hm : w.mailboxes[i]? = some m) (hm' : w'.mailboxes[i]? = some m')
    (h : w.SameStart m w' m') (a : InitCalls) :
    (w'.initializeMailbox i a).1 = (w.initializeMailbox i a).1 ∧
      (w'.initializeMailbox i a).2.resources = (w.initializeMailbox i a).2.resources := by
  simp only [EvlHost.initializeMailbox, hm, hm', h.created, h.mode, h.config]
  split
  · exact ⟨rfl, h.resources⟩
  · split
    · obtain ⟨ok, m₁, w₁, m₁', w₁', hsocket, hsocket', h₁⟩ := h.createOobSocket a
      rw [hsocket, hsocket']
      cases ok with
      | false => exact ⟨rfl, h₁.resources⟩
      | true => exact ⟨rfl, h₁.resources⟩
    · obtain ⟨ok, m₁, w₁, m₁', w₁', hring, hring', h₁⟩ :=
        h.allocateRing kSlots (UInt32.ofNat m.config.maxMsgSize) a
      rw [hring, hring']
      cases ok with
      | false => exact ⟨rfl, h₁.resources⟩
      | true =>
        obtain ⟨ok, m₂, w₂, m₂', w₂', hevl, hevl', h₂⟩ := h₁.createEvlObjects a
        simp only [hevl, hevl']
        cases ok with
        | false => exact ⟨rfl, h₂.resources⟩
        | true =>
          simp only [h₂.mode]
          split
          · obtain ⟨ok, m₃, w₃, m₃', w₃', hxbuf, hxbuf', h₃⟩ := h₂.createXbuf a
            rw [hxbuf, hxbuf']
            cases ok with
            | false => exact ⟨rfl, h₃.resources⟩
            | true => exact ⟨rfl, h₃.resources⟩
          · refine ⟨rfl, ?_⟩
            simp only [h₂.resources, h₂.config]

end SameStart

/-! ### A call that fails -/

/-- The failure comes before the call has taken what no helper gives back. -/
def FailsClean (w : EvlHost) (m : EvlMailbox) (a : InitCalls) : Prop :=
  m.mode ≠ .Public ∨ w.ShmOpenFails a ∨
    (w.resources.shmNames m.config.mailboxId ≠ none ∧ w.MapFails a)

theorem not_failsClean (hmode : m.mode = .Public) (hopen : ¬ w.ShmOpenFails a)
    (hmap : w.resources.shmNames m.config.mailboxId ≠ none → ¬ w.MapFails a) :
    ¬ w.FailsClean m a := by
  rintro (hno | hno | ⟨hbound, hno⟩)
  · exact hno hmode
  · exact hopen hno
  · exact hmap hbound hno

/-- What a call that fails has made of the state `w` with the mailbox `m`. -/
structure FailedFrom (w : EvlHost) (m : EvlMailbox) (a : InitCalls) (m' : EvlMailbox)
    (w' : EvlHost) : Prop where
  mailboxes : w'.mailboxes = w.mailboxes
  start : m'.start = m.start
  clean : w.FailsClean m a →
    w'.resources = w.resources ∧ w'.objects.length = w.objects.length
  left : ¬ w.FailsClean m a → w'.resources ≠ w.resources

/-- A ring that has not been allocated. -/
theorem allocateRing_false (h : w.allocateRing m slots slotSize a = (false, m', w')) :
    w.FailedFrom m a m' w' := by
  by_cases hmode : m.mode = .Public
  · obtain ⟨hmailboxes, hstart, hcases⟩ := allocateRing_public hmode h
    rcases hcases with ⟨-, hopen, rfl⟩ | ⟨-, hopen, hmap, hname, hobjects⟩ | ⟨hok, -⟩
    · exact ⟨hmailboxes, hstart, fun _ => ⟨rfl, rfl⟩, fun hnot => (hnot (.inr (.inl hopen))).elim⟩
    · by_cases hbound : w.resources.shmNames m.config.mailboxId = none
      · -- The name of the new object stays.
        refine ⟨hmailboxes, hstart, fun hclean => ?_, fun _ => ?_⟩
        · exact (not_failsClean hmode hopen (fun hno => (hno hbound).elim) hclean).elim
        · rw [hname, Ne, bindName_eq_iff]
          exact not_not.mpr hbound
      · refine ⟨hmailboxes, hstart, fun _ => ⟨?_, hobjects hbound⟩, fun hnot => ?_⟩
        · rw [hname, bindName_eq_iff]
          exact hbound
        · exact (hnot (.inr (.inr ⟨hbound, hmap⟩))).elim
    · cases hok
  · obtain ⟨hok, -⟩ := allocateRing_heap hmode h
    cases hok

/-- A call that fails when it has its ring. What it gives back then is not the mapping. -/
theorem failedFrom_of_ring {m₁ : EvlMailbox} {w₁ : EvlHost}
    (h : w.allocateRing m slots slotSize a = (true, m₁, w₁))
    (hmailboxes : w'.mailboxes = w₁.mailboxes)
    (hstart : m'.start = m₁.start) (hmappings : w'.resources.mappings = w₁.resources.mappings)
    (hheap : m.mode ≠ .Public → w'.resources = w₁.resources ∧ w'.objects = w₁.objects) :
    w.FailedFrom m a m' w' := by
  by_cases hmode : m.mode = .Public
  · obtain ⟨hmailboxes₁, hstart₁, hcases⟩ := allocateRing_public hmode h
    rcases hcases with ⟨hok, -⟩ | ⟨hok, -⟩ | ⟨-, hopen, hmap, hmapped⟩
    · cases hok
    · cases hok
    · refine ⟨hmailboxes.trans hmailboxes₁, hstart.trans hstart₁, fun hclean => ?_, fun _ heq => ?_⟩
      · exact (not_failsClean hmode hopen (fun _ => hmap) hclean).elim
      · rw [heq] at hmappings
        exact hmapped hmappings.symm
  · obtain ⟨-, hstart₁, rfl⟩ := allocateRing_heap hmode h
    obtain ⟨hresources, hobjects⟩ := hheap hmode
    exact ⟨hmailboxes, hstart.trans hstart₁, fun _ => ⟨hresources, congrArg List.length hobjects⟩,
      fun hnot => (hnot (.inl hmode)).elim⟩

/-- What a call that fails has done. -/
theorem initializeMailbox_failed (hm : w.mailboxes[i]? = some m)
    (h : (w.initializeMailbox i a).1 = .ERROR_INIT) :
    m.created = false ∧ ∃ (m' : EvlMailbox) (w' : EvlHost),
      (w.initializeMailbox i a).2 = w'.setMailbox i m' ∧ w.FailedFrom m a m' w' := by
  unfold initializeMailbox at h ⊢
  simp only [hm] at h ⊢
  split at h
  · cases h
  · rename_i hcreated
    refine ⟨by simpa using hcreated, ?_⟩
    rw [if_neg hcreated]
    split at h
    · rename_i hmode
      rw [if_pos hmode]
      generalize hsocket : w.createOobSocket m a = res at h ⊢
      obtain ⟨ok, m₁, w₁⟩ := res
      cases ok with
      | true => cases h
      | false =>
        obtain ⟨hstart, rfl⟩ := createOobSocket_failed hsocket
        have hnetwork : m.mode ≠ .Public := by
          rw [hmode]
          exact nofun
        exact ⟨m₁, w₁, rfl, rfl, hstart, fun _ => ⟨rfl, rfl⟩,
          fun hnot => (hnot (.inl hnetwork)).elim⟩
    · rename_i hmode
      rw [if_neg hmode]
      generalize hring : w.allocateRing m kSlots (UInt32.ofNat m.config.maxMsgSize) a = res at h ⊢
      obtain ⟨ok, m₁, w₁⟩ := res
      cases ok with
      | false => exact ⟨m₁, w₁, rfl, allocateRing_false hring⟩
      | true =>
        simp only at h ⊢
        generalize hevl : w₁.createEvlObjects m₁ a = res at h ⊢
        obtain ⟨ok, m₂, w₂⟩ := res
        obtain ⟨hstart₂, hobjects₂, hmailboxes₂, hmappings₂, hback⟩ := createEvlObjects_cases hevl
        cases ok with
        | false =>
          exact ⟨m₂, w₂, rfl, failedFrom_of_ring hring hmailboxes₂ hstart₂ hmappings₂
            fun _ => ⟨hback rfl, hobjects₂⟩⟩
        | true =>
          simp only at h ⊢
          split at h
          · rename_i hmode₂
            rw [if_pos hmode₂]
            generalize hxbuf : w₂.createXbuf m₂ a = res at h ⊢
            obtain ⟨ok, m₃, w₃⟩ := res
            cases ok with
            | true => cases h
            | false =>
              obtain ⟨hstart₃, rfl⟩ := createXbuf_failed hxbuf
              have hpublic : m₁.mode = .Public := (congrArg (·.2.1) hstart₂).symm.trans hmode₂
              refine ⟨m₃, w₃, rfl, failedFrom_of_ring hring hmailboxes₂ (hstart₃.trans hstart₂)
                hmappings₂ fun hno => (hno ?_).elim⟩
              exact (congrArg (·.2.1) (start_allocateRing hring)).symm.trans hpublic
          · cases h

/-- A ring has the name of mailbox `id`, with its mutex and its event. -/
def Published (w : EvlHost) (id : MailboxId) : Prop :=
  w.resources.shmNames id ≠ none ∧ w.resources.evlNames (.mutex, id) ≠ 0 ∧
    w.resources.evlNames (.event, id) ≠ 0

/-- Nobody posts into a ring that does not exist. -/
theorem published_of_remotePost {dest src : MailboxId} {data : List UInt8} {priority : Int8}
    (h : w.remotePost dest data priority src = true) : w.Published dest := by
  unfold remotePost at h
  split at h
  · cases h
  · rename_i o hname
    split at h
    · cases h
    · split at h
      · cases h
      · rename_i hnot
        simp only [not_or] at hnot
        refine ⟨?_, hnot.2.1, hnot.2.2⟩
        rw [hname]
        exact nofun

/-- `initialize` of mailbox `i`, from `w` to `w'`, leaves nothing behind. -/
structure LeavesNothing (w : EvlHost) (i : Nat) (w' : EvlHost) : Prop where
  resources : w'.resources = w.resources
  /-- Others cannot post into the ring, unless there has been one. -/
  unpublished : ∀ m ∈ w.mailboxes[i]?, ¬ w.Published m.config.mailboxId →
    ∀ data priority src, w'.remotePost m.config.mailboxId data priority src = false
  shutdown : w'.shutdown i = w'
  /-- The next `initialize` does what it would have done before. -/
  restarts : ∀ a, (w'.initializeMailbox i a).1 = (w.initializeMailbox i a).1 ∧
    (w'.initializeMailbox i a).2.resources = (w.initializeMailbox i a).2.resources

/-- A call of `initialize` that fails leaves nothing behind exactly when it fails before it has
taken what no helper gives back. -/
theorem leavesNothing_iff (w : EvlHost) (i : Nat) (a : InitCalls)
    (h : (w.initializeMailbox i a).1 = .ERROR_INIT) :
    w.LeavesNothing i (w.initializeMailbox i a).2 ↔
      ∀ m ∈ w.mailboxes[i]?, w.FailsClean m a := by
  cases hm : w.mailboxes[i]? with
  | none =>
    have hsame : (w.initializeMailbox i a).2 = w := by simp [initializeMailbox, hm]
    rw [hsame]
    refine ⟨fun _ m hm => (by cases hm), fun _ => ⟨rfl, ?_, ?_, fun _ => ⟨rfl, rfl⟩⟩⟩
    · intro m hm'
      rw [hm] at hm'
      cases hm'
    · simp [EvlHost.shutdown, hm]
  | some m =>
    obtain ⟨hcreated, m', w', hafter, hfailed⟩ := initializeMailbox_failed hm h
    have hlt : i < w'.mailboxes.length := by
      rw [hfailed.mailboxes]
      exact (List.getElem?_eq_some_iff.mp hm).1
    have hm' : (w'.setMailbox i m').mailboxes[i]? = some m' := List.getElem?_set_self hlt
    have hcreated' : m'.created = false := (congrArg (·.2.2) hfailed.start).trans hcreated
    simp only [Option.mem_some_iff, forall_eq', hafter]
    constructor
    · intro hleaves
      by_contra hnot
      exact hfailed.left hnot hleaves.resources
    · intro hclean
      obtain ⟨hresources, hobjects⟩ := hfailed.clean hclean
      have hsame : w.SameStart m (w'.setMailbox i m') m' :=
        ⟨hresources, hobjects, hfailed.start⟩
      refine ⟨hresources, ?_, ?_, hsame.initializeMailbox hm hm'⟩
      · intro n hn hunpublished data priority src
        by_contra hpost
        have hpublished := published_of_remotePost ((Bool.not_eq_false _).mp hpost)
        have heq : (w'.setMailbox i m').resources = w.resources := hresources
        rw [Published, heq] at hpublished
        exact hunpublished hpublished
      · simp [EvlHost.shutdown, hm', hcreated']

/-- A process with one mailbox, on a new host. -/
def oneMailbox (mode : Mode) : EvlHost where
  resources := ⟨fun _ => none, fun _ => 0, .empty 8, .empty 8, .empty⟩
  objects := []
  mailboxes := [.ofConfig ⟨7, 64, 0⟩ mode]

/-- The event cannot be created, and the mutex is closed. -/
theorem leavesNothing_local :
    (oneMailbox .Local).LeavesNothing 0
      ((oneMailbox .Local).initializeMailbox 0 { InitCalls.good with createEvent := false }).2 := by
  refine (leavesNothing_iff _ 0 { InitCalls.good with createEvent := false } (by decide)).mpr ?_
  intro m hm
  obtain rfl := Option.some.inj hm
  exact .inl nofun

/-- The xbuf cannot be created: the call fails, but others post into the ring, `shutdown` does
nothing, and there is no second try. -/
theorem ring_without_mailbox :
    let failed := (oneMailbox .Public).initializeMailbox 0
      { InitCalls.good with createXbuf := false }
    failed.1 = .ERROR_INIT ∧
      failed.2.resources.shmNames 7 = some 0 ∧
      failed.2.resources.fds.entries 0 = some (.shm 0) ∧
      failed.2.resources.mappings.entries 0 = some 0 ∧
      failed.2.resources.evlNames (.mutex, 7) = 1 ∧
      failed.2.remotePost 7 [42] 0 9 = true ∧
      failed.2.shutdown 0 = failed.2 ∧
      (failed.2.initializeMailbox 0 .good).1 = .ERROR_INIT ∧
      ¬ (oneMailbox .Public).LeavesNothing 0 failed.2 := by
  refine ⟨by decide, by decide, by decide, by decide, by decide, by decide, rfl, by decide, ?_⟩
  intro hleaves
  have hname := congrFun (congrArg Resources.shmNames hleaves.resources) 7
  revert hname
  decide

end EvlHost

end CoreRaT.Spec
