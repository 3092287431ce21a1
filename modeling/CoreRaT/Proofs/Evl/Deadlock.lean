import CoreRaT.Lib.Run
import CoreRaT.Spec.RegistryLock

/-!
# `CoreRaT.Proofs.Evl.Deadlock`: removing an xbuf mailbox

`remove()` erases under the mutex. When that destroys an `XbufEntry`, the join in its destructor
waits for the reader under the mutex, and the reader may be waiting for the mutex in
`registry_.find`. Then neither goes on, and no other thread gets at the registry any more.

The reader checks for a stop at the top of its loop only, and `::read` fails once the destructor
has closed the descriptor. So all is decided at that moment. `deadlock_decided_at_close` says so
for every interleaving: there is no deadlock as long as each `::close` under the mutex finds the
reader anywhere but between a message it has read and the lock of its lookup. A `::close` that
finds it there leads to a deadlock, and no further step of any thread ends it.
-/

set_option autoImplicit false

namespace CoreRaT.Spec

open CoreRaT.Lib

/-- Does a thread at `pc` hold the mutex exclusively? -/
def ConnectionPc.holdsExclusive : ConnectionPc → Bool
  | .held call => call.isExclusive
  | .destroying locked _ _ => locked
  | .unlock exclusive _ _ => exclusive
  | _ => false

/-- Does a reader at `pc` wait for the mutex, with a message that it has read? -/
def ReaderPc.isAtLock : ReaderPc → Bool
  | .findWait _ => true
  | _ => false

namespace RegistryLock

/-! ### The property -/

/-- The reader of `x` waits for the mutex. -/
def Waiting (s : RegistryLock) (x : XbufId) : Prop := (s.reader x).isAtLock = true

/-- Thread `c` holds the mutex and waits for the reader of `x`, which waits for the mutex. -/
def DeadlockAt (s : RegistryLock) (c : ConnId) (x : XbufId) : Prop :=
  s.connection c = .destroying true .join x ∧ s.writer = some c ∧ s.Waiting x

/-- Some removing thread and some reader wait for each other. -/
def Deadlock (s : RegistryLock) : Prop := ∃ c x, s.DeadlockAt c x

/-- A `::close` under the mutex does not find the reader at the lock of its lookup. -/
def FindsReaderAway (s : RegistryLock) : Event → Prop
  | .connection c .destroy => ∀ x, s.connection c = .destroying true .close x → ¬ s.Waiting x
  | _ => True

/-! ### What a connection thread does -/

/-- The threads, the descriptors and the mutex are the same. The table and the counters need not
be. -/
structure SameThreads (s s' : RegistryLock) : Prop where
  connection : s'.connection = s.connection
  reader : s'.reader = s.reader
  fdOpen : s'.fdOpen = s.fdOpen
  writer : s'.writer = s.writer

/-- What a step of connection thread `c` can do to the other threads, to the mutex and to an entry
that `c` destroys under it. -/
structure ConnectionMove (s : RegistryLock) (c : ConnId) (s' : RegistryLock) : Prop where
  other : ∀ d, d ≠ c → s'.connection d = s.connection d
  reader : ∀ y, s'.reader y = s.reader y ∨
    s.reader y = .notStarted ∧ s'.reader y = .loopCondition
  fdOpen : ∀ y, s.fdOpen y = false → s'.fdOpen y = false
  mutex : s'.writer = s.writer ∧
      ((s'.connection c).holdsExclusive = true → (s.connection c).holdsExclusive = true) ∨
    s.writer = none ∧ s'.writer = some c ∨
    (s.connection c).holdsExclusive = true ∧ s'.writer = none ∧
      (s'.connection c).holdsExclusive = false
  destroying : ∀ phase x, s'.connection c = .destroying true phase x → phase ≠ .close →
    (∃ phase', s.connection c = .destroying true phase' x ∧ phase' ≠ .close) ∨
    s.connection c = .destroying true .close x ∧ s'.fdOpen x = false

@[simp] theorem connection_goto (s : RegistryLock) (c : ConnId) (pc : ConnectionPc) :
    (s.goto c pc).connection c = pc := Function.update_self ..

@[simp] theorem connection_goto_of_ne (s : RegistryLock) {c d : ConnId} (hd : d ≠ c)
    (pc : ConnectionPc) : (s.goto c pc).connection d = s.connection d :=
  Function.update_of_ne hd ..

@[simp] theorem reader_readerGoto (s : RegistryLock) (x : XbufId) (pc : ReaderPc) :
    (s.readerGoto x pc).reader x = pc := Function.update_self ..

@[simp] theorem reader_readerGoto_of_ne (s : RegistryLock) {x y : XbufId} (hy : y ≠ x)
    (pc : ReaderPc) : (s.readerGoto x pc).reader y = s.reader y :=
  Function.update_of_ne hy ..

namespace ConnectionMove

variable {s s' : RegistryLock} {c : ConnId}

theorem refl (s : RegistryLock) (c : ConnId) : ConnectionMove s c s where
  other _ _ := rfl
  reader _ := Or.inl rfl
  fdOpen _ h := h
  mutex := Or.inl ⟨rfl, id⟩
  destroying phase _ h hne := Or.inl ⟨phase, h, hne⟩

/-- A step to a place where the thread holds the mutex only if it held it before, and which is not
in `~XbufEntry` behind the close. -/
theorem goto {pc : ConnectionPc} (hsame : SameThreads s s')
    (hholds : pc.holdsExclusive = true → (s.connection c).holdsExclusive = true)
    (hpc : ∀ phase x, pc = .destroying true phase x → phase = .close) :
    ConnectionMove s c (s'.goto c pc) where
  other d hd := by rw [connection_goto_of_ne _ hd, hsame.connection]
  reader y := Or.inl (congrFun hsame.reader y)
  fdOpen y h := (congrFun hsame.fdOpen y).trans h
  mutex := Or.inl ⟨hsame.writer, by rwa [connection_goto]⟩
  destroying phase x h hne := by
    rw [connection_goto] at h
    exact absurd (hpc phase x h) hne

/-- A step to a place without the mutex. -/
theorem goto_free {pc : ConnectionPc} (hsame : SameThreads s s')
    (hpc : pc.holdsExclusive = false) : ConnectionMove s c (s'.goto c pc) := by
  refine goto hsame ?_ ?_
  · intro h
    rw [hpc] at h
    cases h
  · rintro phase x rfl
    cases hpc

/-- A step of the holder of the mutex to its unlock. -/
theorem goto_unlock {copy : Option XbufId} {start : Bool}
    (hholds : (s.connection c).holdsExclusive = true) (hsame : SameThreads s s') :
    ConnectionMove s c (s'.goto c (.unlock true copy start)) := by
  refine goto hsame (fun _ => hholds) ?_
  intro phase x h
  cases h

/-- A step of the holder of the mutex into `~XbufEntry`. -/
theorem goto_close {x : XbufId} (hholds : (s.connection c).holdsExclusive = true)
    (hsame : SameThreads s s') :
    ConnectionMove s c (s'.goto c (.destroying true .close x)) := by
  refine goto hsame (fun _ => hholds) ?_
  intro phase y h
  cases h
  rfl

theorem lockCall (s : RegistryLock) (c : ConnId) (call : RegistryCall) :
    ConnectionMove s c (s.lockCall c call) := by
  unfold RegistryLock.lockCall
  split
  · split
    · rename_i hfree
      exact {
        other := fun d hd => connection_goto_of_ne _ hd _
        reader := fun _ => Or.inl rfl
        fdOpen := fun _ h => h
        mutex := Or.inr (Or.inl ⟨hfree.1, rfl⟩)
        destroying := fun phase x h => by
          rw [connection_goto] at h
          cases h }
    · exact refl s c
  · rename_i hshared
    split
    · exact goto_free ⟨rfl, rfl, rfl, rfl⟩ (Bool.eq_false_iff.mpr hshared)
    · exact refl s c

/-- The table access keeps the mutex as it is. `remove` may come to `~XbufEntry`, before the
close. -/
theorem accessTable {call : RegistryCall} (hheld : s.connection c = .held call) :
    ConnectionMove s c (s.accessTable c call) := by
  have hholds : call.isExclusive = true → (s.connection c).holdsExclusive = true := by
    rw [hheld]
    exact id
  cases call with
  | remove id =>
    simp only [RegistryLock.accessTable, RegistryLock.erase]
    split
    · split
      · exact goto_close (hholds rfl) ⟨rfl, rfl, rfl, rfl⟩
      · exact goto_unlock (hholds rfl) ⟨rfl, rfl, rfl, rfl⟩
    · exact goto_unlock (hholds rfl) ⟨rfl, rfl, rfl, rfl⟩
  | find id =>
    simp only [RegistryLock.accessTable, RegistryLock.copyRef]
    split
    · exact goto_free ⟨rfl, rfl, rfl, rfl⟩ rfl
    · exact goto_free ⟨rfl, rfl, rfl, rfl⟩ rfl
  | addXbuf id x =>
    simp only [RegistryLock.accessTable, RegistryLock.emplaceXbuf]
    split
    · exact goto_unlock (hholds rfl) ⟨rfl, rfl, rfl, rfl⟩
    · exact goto_unlock (hholds rfl) ⟨rfl, rfl, rfl, rfl⟩
  | addCon id =>
    simp only [RegistryLock.accessTable, RegistryLock.emplaceCon]
    split
    · exact goto_unlock (hholds rfl) ⟨rfl, rfl, rfl, rfl⟩
    · exact goto_unlock (hholds rfl) ⟨rfl, rfl, rfl, rfl⟩
  | removeAllForCon => exact goto_unlock (hholds rfl) ⟨rfl, rfl, rfl, rfl⟩

theorem unlock {exclusive start : Bool} {copy : Option XbufId}
    (hpc : s.connection c = .unlock exclusive copy start) :
    ConnectionMove s c (s.connectionStep c .unlock) := by
  simp only [connectionStep, hpc]
  cases exclusive with
  | true =>
    exact {
      other := fun d hd => connection_goto_of_ne _ hd _
      reader := fun _ => Or.inl rfl
      fdOpen := fun _ h => h
      mutex := Or.inr (Or.inr ⟨by rw [hpc]; rfl, rfl, by rw [connection_goto]; rfl⟩)
      destroying := fun phase x h => by
        rw [connection_goto] at h
        cases h }
  | false => exact goto_free ⟨rfl, rfl, rfl, rfl⟩ rfl

/-- The lines of `~XbufEntry`. The first one closes the descriptor. -/
theorem destroyNext {locked : Bool} {phase : DestroyPhase} {x : XbufId}
    (hpc : s.connection c = .destroying locked phase x) :
    ConnectionMove s c (s.destroyNext c locked x phase) := by
  have hholds : ∀ phase', (ConnectionPc.destroying locked phase' x).holdsExclusive = true →
      (s.connection c).holdsExclusive = true := by
    intro phase' h
    rw [hpc]
    exact h
  cases phase with
  | close =>
    exact {
      other := fun d hd => connection_goto_of_ne _ hd _
      reader := fun _ => Or.inl rfl
      fdOpen := fun y h => by
        show Function.update s.fdOpen x false y = false
        rw [Function.update_apply, h, ite_self]
      mutex := Or.inl ⟨rfl, by rw [RegistryLock.destroyNext, connection_goto]; exact hholds _⟩
      destroying := fun phase' y h _ => by
        rw [RegistryLock.destroyNext, connection_goto] at h
        cases h
        exact Or.inr ⟨hpc, Function.update_self ..⟩ }
  | requestStop =>
    exact {
      other := fun d hd => connection_goto_of_ne _ hd _
      reader := fun _ => Or.inl rfl
      fdOpen := fun y h => h
      mutex := Or.inl ⟨rfl, by rw [RegistryLock.destroyNext, connection_goto]; exact hholds _⟩
      destroying := fun phase' y h _ => by
        rw [RegistryLock.destroyNext, connection_goto] at h
        cases h
        exact Or.inl ⟨.requestStop, hpc, by simp⟩ }
  | join =>
    simp only [RegistryLock.destroyNext]
    split
    · cases locked with
      | true => exact goto_unlock (hholds .join rfl) ⟨rfl, rfl, rfl, rfl⟩
      | false => exact goto_free ⟨rfl, rfl, rfl, rfl⟩ rfl
    · exact refl s c

theorem dropCopy (s : RegistryLock) (c : ConnId) (copy : Option XbufId) :
    ConnectionMove s c (s.dropCopy c copy) := by
  cases copy with
  | none => exact goto_free ⟨rfl, rfl, rfl, rfl⟩ rfl
  | some x =>
    simp only [RegistryLock.dropCopy]
    split
    · exact goto_free ⟨rfl, rfl, rfl, rfl⟩ rfl
    · exact goto_free ⟨rfl, rfl, rfl, rfl⟩ rfl

theorem startReader (s : RegistryLock) (c : ConnId) :
    ConnectionMove s c (s.connectionStep c .startReader) := by
  simp only [connectionStep]
  split
  · rename_i x hpc
    split
    · rename_i hnew
      exact {
        other := fun d hd => connection_goto_of_ne _ hd _
        reader := fun y => by
          by_cases hy : y = x
          · subst hy
            exact Or.inr ⟨hnew, reader_readerGoto s y _⟩
          · exact Or.inl (reader_readerGoto_of_ne s hy _)
        fdOpen := fun _ h => h
        mutex := Or.inl ⟨rfl, by
          rw [connection_goto]
          simp [ConnectionPc.holdsExclusive]⟩
        destroying := fun phase y h => by
          rw [connection_goto] at h
          cases h }
    · exact refl s c
  · exact refl s c

end ConnectionMove

/-- What one step of a connection thread does. -/
theorem connectionMove (s : RegistryLock) (c : ConnId) (a : ConnectionAction) :
    ConnectionMove s c (s.connectionStep c a) := by
  cases a with
  | call call =>
    have hcall : ConnectionMove s c
        (if s.connection c = .idle then s.goto c (.wait call) else s) := by
      split
      · exact .goto_free ⟨rfl, rfl, rfl, rfl⟩ rfl
      · exact .refl s c
    cases call with
    | addXbuf id x => exact .refl s c
    | remove id => exact hcall
    | find id => exact hcall
    | addCon id => exact hcall
    | removeAllForCon => exact hcall
  | register id =>
    simp only [connectionStep]
    split
    · exact .goto_free ⟨rfl, rfl, rfl, rfl⟩ rfl
    · exact .refl s c
  | lock =>
    simp only [connectionStep]
    split
    · exact .lockCall s c _
    · exact .refl s c
  | access =>
    simp only [connectionStep]
    split
    · rename_i hheld
      exact .accessTable hheld
    · exact .refl s c
  | unlock =>
    cases hpc : s.connection c with
    | unlock exclusive copy start => exact .unlock hpc
    | _ =>
      simp only [connectionStep, hpc]
      exact .refl s c
  | startReader => exact .startReader s c
  | drop =>
    simp only [connectionStep]
    split
    · exact .dropCopy s c _
    · exact .refl s c
  | destroy =>
    simp only [connectionStep]
    split
    · rename_i hpc
      exact .destroyNext hpc
    · exact .refl s c

/-- In `~XbufEntry` a thread does nothing else. -/
theorem connectionStep_of_destroying {s : RegistryLock} {c : ConnId} {locked : Bool}
    {phase : DestroyPhase} {x : XbufId} (hpc : s.connection c = .destroying locked phase x)
    {a : ConnectionAction} (ha : a ≠ .destroy) : s.connectionStep c a = s := by
  cases a with
  | call call => cases call <;> simp [connectionStep, hpc]
  | register id => simp [connectionStep, hpc]
  | lock => simp [connectionStep, hpc]
  | access => simp [connectionStep, hpc]
  | unlock => simp [connectionStep, hpc]
  | startReader => simp [connectionStep, hpc]
  | drop => simp [connectionStep, hpc]
  | destroy => exact absurd rfl ha

/-! ### What a reader does -/

/-- What a step of the reader of `x` can do. It comes to the lock of its lookup only from a read of
an open descriptor, and it passes the lock only when no thread holds the mutex exclusively. -/
structure ReaderMove (s : RegistryLock) (x : XbufId) (s' : RegistryLock) : Prop where
  connection : s'.connection = s.connection
  writer : s'.writer = s.writer
  other : ∀ y, y ≠ x → s'.reader y = s.reader y
  fdOpen : ∀ y, s.fdOpen y = false → s'.fdOpen y = false
  arrives : s'.Waiting x → s.Waiting x ∨ s.fdOpen x = true
  stays : s.Waiting x → s.writer ≠ none → s'.Waiting x

namespace ReaderMove

variable {s s' : RegistryLock} {x : XbufId}

theorem refl (s : RegistryLock) (x : XbufId) : ReaderMove s x s :=
  ⟨rfl, rfl, fun _ _ => rfl, fun _ h => h, Or.inl, fun h _ => h⟩

/-- A step that does not end at the lock, from a place that is not at the lock. -/
theorem goto {pc : ReaderPc} (hfrom : ¬ s.Waiting x) (hcon : s'.connection = s.connection)
    (hwriter : s'.writer = s.writer) (hreader : s'.reader = s.reader)
    (hfd : ∀ y, s.fdOpen y = false → s'.fdOpen y = false)
    (hto : pc.isAtLock = false) : ReaderMove s x (s'.readerGoto x pc) where
  connection := hcon
  writer := hwriter
  other y hy := by rw [reader_readerGoto_of_ne _ hy, hreader]
  fdOpen := hfd
  arrives h := by
    rw [Waiting, reader_readerGoto, hto] at h
    cases h
  stays h _ := absurd h hfrom

/-- The same, where no descriptor is closed. -/
theorem goto_same {pc : ReaderPc} (hfrom : ¬ s.Waiting x) (hsame : SameThreads s s')
    (hto : pc.isAtLock = false) : ReaderMove s x (s'.readerGoto x pc) :=
  goto hfrom hsame.connection hsame.writer hsame.reader
    (fun y h => (congrFun hsame.fdOpen y).trans h) hto

end ReaderMove

theorem not_waiting_of_reader {s : RegistryLock} {x : XbufId} {pc : ReaderPc}
    (hpc : s.reader x = pc) (hne : pc.isAtLock = false) : ¬ s.Waiting x := by
  rw [Waiting, hpc, hne]
  exact Bool.false_ne_true

/-- With the descriptor closed the read fails, and the reader does not come to the lock. -/
theorem readerMove_read (s : RegistryLock) (x : XbufId) (dest : Option MailboxId) :
    ReaderMove s x (s.readerStep x (.read dest)) := by
  simp only [readerStep]
  split
  · rename_i hpc
    have hnot := not_waiting_of_reader hpc rfl
    refine ⟨rfl, rfl, fun y hy => reader_readerGoto_of_ne _ hy _, fun _ h => h, ?_, ?_⟩
    · intro h
      rw [Waiting, reader_readerGoto] at h
      unfold afterRead at h
      right
      split at h
      · assumption
      · cases h
    · exact fun h _ => absurd h hnot
  · exact .refl s x

/-- The lock of a lookup is passed when no thread holds the mutex exclusively. -/
theorem readerMove_lockFind (s : RegistryLock) (x : XbufId) :
    ReaderMove s x (s.readerStep x .lockFind) := by
  simp only [readerStep]
  split
  · rename_i dest hpc
    split
    · rename_i hfree
      refine ⟨rfl, rfl, fun y hy => reader_readerGoto_of_ne _ hy _, fun _ h => h, ?_, ?_⟩
      · exact fun _ => Or.inl (by rw [Waiting, hpc]; rfl)
      · exact fun _ hheld => absurd hfree hheld
    · exact .refl s x
  · exact .refl s x

/-- A reader that destroys an entry closes its descriptor. -/
theorem readerMove_destroy (s : RegistryLock) (x : XbufId) :
    ReaderMove s x (s.readerStep x .destroy) := by
  simp only [readerStep]
  split
  · rename_i phase y hpc
    have hnot := not_waiting_of_reader hpc rfl
    cases phase with
    | close =>
      have hclosed : ∀ z, s.fdOpen z = false → Function.update s.fdOpen y false z = false := by
        intro z hz
        rw [Function.update_apply, hz, ite_self]
      exact .goto hnot rfl rfl rfl hclosed rfl
    | requestStop => exact .goto_same hnot ⟨rfl, rfl, rfl, rfl⟩ rfl
    | join =>
      simp only [readerDestroyNext]
      split
      · exact .goto_same hnot ⟨rfl, rfl, rfl, rfl⟩ rfl
      · exact .refl s x
  · exact .refl s x

/-- What one step of a reader does. -/
theorem readerMove (s : RegistryLock) (x : XbufId) (a : ReaderAction) :
    ReaderMove s x (s.readerStep x a) := by
  cases a with
  | read dest => exact readerMove_read s x dest
  | lockFind => exact readerMove_lockFind s x
  | destroy => exact readerMove_destroy s x
  | checkStop =>
    simp only [readerStep]
    split
    · rename_i hpc
      have hnot := not_waiting_of_reader hpc rfl
      split
      · exact .goto_same hnot ⟨rfl, rfl, rfl, rfl⟩ rfl
      · exact .goto_same hnot ⟨rfl, rfl, rfl, rfl⟩ rfl
    · exact .refl s x
  | poll ready =>
    simp only [readerStep]
    split
    · rename_i hpc
      have hnot := not_waiting_of_reader hpc rfl
      split
      · exact .goto_same hnot ⟨rfl, rfl, rfl, rfl⟩ rfl
      · exact .goto_same hnot ⟨rfl, rfl, rfl, rfl⟩ rfl
    · exact .refl s x
  | lookup =>
    simp only [readerStep]
    split
    · rename_i dest hpc
      have hnot := not_waiting_of_reader hpc rfl
      unfold copyRef
      split
      · exact .goto_same hnot ⟨rfl, rfl, rfl, rfl⟩ rfl
      · exact .goto_same hnot ⟨rfl, rfl, rfl, rfl⟩ rfl
    · exact .refl s x
  | unlockFind =>
    simp only [readerStep]
    split
    · rename_i copy hpc
      exact .goto_same (not_waiting_of_reader hpc rfl) ⟨rfl, rfl, rfl, rfl⟩ rfl
    · exact .refl s x
  | forward =>
    simp only [readerStep]
    split
    · rename_i copy hpc
      have hnot := not_waiting_of_reader hpc rfl
      unfold readerDrop
      split
      · exact .goto_same hnot ⟨rfl, rfl, rfl, rfl⟩ rfl
      · split
        · exact .goto_same hnot ⟨rfl, rfl, rfl, rfl⟩ rfl
        · exact .goto_same hnot ⟨rfl, rfl, rfl, rfl⟩ rfl
    · exact .refl s x

/-! ### Invariants -/

/-- A connection thread that stands inside an exclusive section holds the mutex. -/
def LockHeld (s : RegistryLock) : Prop :=
  ∀ c, (s.connection c).holdsExclusive = true → s.writer = some c

theorem lockHeld_step (s : RegistryLock) (e : Event) (h : s.LockHeld) : (s.step e).LockHeld := by
  intro d hd
  cases e with
  | reader x a =>
    have m := s.readerMove x a
    rw [step, m.connection] at hd
    rw [step, m.writer]
    exact h d hd
  | connection c a =>
    have m := s.connectionMove c a
    rw [step] at hd ⊢
    -- What thread `d` held before: `c` itself, or a thread that has not moved.
    have hbefore : d ≠ c → s.writer = some d := by
      intro hne
      rw [m.other d hne] at hd
      exact h d hd
    rcases m.mutex with ⟨hsame, hholds⟩ | ⟨hfree, hlocked⟩ | ⟨hheld, -, hleft⟩
    · rw [hsame]
      by_cases hdc : d = c
      · subst hdc
        exact h d (hholds hd)
      · exact hbefore hdc
    · by_cases hdc : d = c
      · rw [hlocked, hdc]
      · rw [hbefore hdc] at hfree
        cases hfree
    · by_cases hdc : d = c
      · rw [hdc, hleft] at hd
        cases hd
      · have hwriter := h c hheld
        rw [hbefore hdc, Option.some.injEq] at hwriter
        exact absurd hwriter hdc

/-- Behind the close, under the mutex, the reader is not at its lock and does not come there: the
descriptor is closed. -/
def ReaderAway (s : RegistryLock) : Prop :=
  ∀ c phase x, s.connection c = .destroying true phase x → phase ≠ .close →
    s.fdOpen x = false ∧ ¬ s.Waiting x

theorem readerAway_step (s : RegistryLock) (e : Event) (h : s.ReaderAway)
    (hclose : s.FindsReaderAway e) : (s.step e).ReaderAway := by
  intro d phase x hd hne
  cases e with
  | reader y a =>
    have m := s.readerMove y a
    rw [step, m.connection] at hd
    obtain ⟨hfd, hnot⟩ := h d phase x hd hne
    refine ⟨m.fdOpen x hfd, ?_⟩
    intro hwait
    by_cases hxy : x = y
    · subst hxy
      rcases m.arrives hwait with hwas | hopen
      · exact hnot hwas
      · rw [hfd] at hopen
        cases hopen
    · rw [step, Waiting, m.other x hxy] at hwait
      exact hnot hwait
  | connection c a =>
    have m := s.connectionMove c a
    rw [step] at hd ⊢
    -- No step of a connection thread brings a reader to its lock.
    have haway : ¬ s.Waiting x → ¬ (s.connectionStep c a).Waiting x := by
      intro hnot hwait
      rcases m.reader x with hsame | ⟨-, hstart⟩
      · rw [Waiting, hsame] at hwait
        exact hnot hwait
      · rw [Waiting, hstart] at hwait
        cases hwait
    by_cases hdc : d = c
    · subst hdc
      rcases m.destroying phase x hd hne with ⟨phase', hbefore, hne'⟩ | ⟨hbefore, hfd⟩
      · obtain ⟨hfd, hnot⟩ := h d phase' x hbefore hne'
        exact ⟨m.fdOpen x hfd, haway hnot⟩
      · -- The close itself, which finds the reader away.
        have hdestroy : a = .destroy := by
          by_contra hother
          rw [connectionStep_of_destroying hbefore hother, hbefore] at hd
          cases hd
          exact hne rfl
        subst hdestroy
        exact ⟨hfd, haway (hclose x hbefore)⟩
    · rw [m.other d hdc] at hd
      obtain ⟨hfd, hnot⟩ := h d phase x hd hne
      exact ⟨m.fdOpen x hfd, haway hnot⟩

/-! ### Deadlocks -/

theorem not_deadlock_of_readerAway {s : RegistryLock} (h : s.ReaderAway) : ¬ s.Deadlock := by
  rintro ⟨c, x, hjoin, -, hwait⟩
  exact (h c .join x hjoin (by simp)).2 hwait

/-- No step of any thread ends a deadlock. -/
theorem deadlockAt_step {s : RegistryLock} {c : ConnId} {x : XbufId} (hlock : s.LockHeld)
    (h : s.DeadlockAt c x) (e : Event) : (s.step e).DeadlockAt c x := by
  obtain ⟨hjoin, hwriter, hwait⟩ := h
  cases e with
  | reader y a =>
    have m := s.readerMove y a
    refine ⟨(congrFun m.connection c).trans hjoin, m.writer.trans hwriter, ?_⟩
    by_cases hxy : x = y
    · subst hxy
      exact m.stays hwait (by simp [hwriter])
    · rw [step, Waiting, m.other x hxy]
      exact hwait
  | connection d a =>
    by_cases hdc : d = c
    · subst hdc
      -- The join does not return, since the reader has not ended.
      have hrunning : s.isJoined x = false := by
        simp only [isJoined, decide_eq_false_iff_not]
        rintro (hended | hnew)
        · exact not_waiting_of_reader hended rfl hwait
        · exact not_waiting_of_reader hnew rfl hwait
      have hstuck : s.connectionStep d a = s := by
        by_cases ha : a = .destroy
        · subst ha
          simp [connectionStep, hjoin, destroyNext, hrunning]
        · exact connectionStep_of_destroying hjoin ha
      rw [step, hstuck]
      exact ⟨hjoin, hwriter, hwait⟩
    · have m := s.connectionMove d a
      refine ⟨(m.other c (Ne.symm hdc)).trans hjoin, ?_, ?_⟩
      · rcases m.mutex with ⟨hsame, -⟩ | ⟨hfree, -⟩ | ⟨hheld, -, -⟩
        · exact hsame.trans hwriter
        · rw [hwriter] at hfree
          cases hfree
        · have hother := hlock d hheld
          rw [hwriter, Option.some.injEq] at hother
          exact absurd hother.symm hdc
      · rcases m.reader x with hsame | ⟨hnew, -⟩
        · rw [step, Waiting, hsame]
          exact hwait
        · exact absurd hwait (not_waiting_of_reader hnew rfl)

/-- A close under the mutex that finds the reader at its lock, and the line behind it. -/
theorem deadlockAt_of_close {s : RegistryLock} {c : ConnId} {x : XbufId} (hlock : s.LockHeld)
    (hclose : s.connection c = .destroying true .close x) (hwait : s.Waiting x) :
    ((s.step (.connection c .destroy)).step (.connection c .destroy)).DeadlockAt c x := by
  have hwriter : s.writer = some c := hlock c (by rw [hclose]; rfl)
  simp only [step, connectionStep, hclose, destroyNext, connection_goto]
  exact ⟨connection_goto _ c _, hwriter, hwait⟩

theorem lockHeld_init : init.LockHeld := by
  intro c hc
  cases hc

theorem readerAway_init : init.ReaderAway := by
  intro c phase x hc
  cases hc

/-- The exact condition, for every interleaving `es`. When each close under the mutex finds the
reader away from the lock of its lookup, no state of the run is a deadlock. And a step that does
not meet the condition leads, with one step behind it, to a deadlock that every further run
keeps. -/
theorem deadlock_decided_at_close (es : List Event) :
    (AllSteps step FindsReaderAway init es → AllStates step (fun s => ¬ s.Deadlock) init es) ∧
    ∀ e, ¬ (runFrom step init es).FindsReaderAway e →
      ∃ e', ∀ later, (runFrom step init (es ++ e :: e' :: later)).Deadlock := by
  constructor
  · intro hsteps
    have haway := allStates_of_allSteps readerAway_step readerAway_init hsteps
    exact haway.mono fun s hs => not_deadlock_of_readerAway hs
  · intro e he
    have hlock := (allStates_of_step lockHeld_step es lockHeld_init).last
    -- Only a close under the mutex can miss the condition.
    obtain ⟨c, x, rfl, hclose, hwait⟩ : ∃ c x, e = .connection c .destroy ∧
        (runFrom step init es).connection c = .destroying true .close x ∧
        (runFrom step init es).Waiting x := by
      unfold FindsReaderAway at he
      split at he
      · simp only [not_forall, not_not] at he
        obtain ⟨x, hclose, hwait⟩ := he
        exact ⟨_, x, rfl, hclose, hwait⟩
      · exact absurd trivial he
    refine ⟨.connection c .destroy, fun later => ⟨c, x, ?_⟩⟩
    have hdead := deadlockAt_of_close hlock hclose hwait
    have hlock' := lockHeld_step _ (.connection c .destroy)
      (lockHeld_step _ (.connection c .destroy) hlock)
    rw [runFrom_append, runFrom_cons, runFrom_cons]
    have hkeep : ∀ (s : RegistryLock) (e : Event), s.LockHeld ∧ s.DeadlockAt c x →
        (s.step e).LockHeld ∧ (s.step e).DeadlockAt c x :=
      fun s e h => ⟨lockHeld_step s e h.1, deadlockAt_step h.1 h.2 e⟩
    exact (allStates_of_step hkeep later ⟨hlock', hdead⟩).last.2

/-- Connection 0 registers mailbox 7, and its reader reads a message for mailbox 9. Before it looks
up mailbox 9, connection 1 deletes mailbox 7. -/
def deleteBehindRead : List Event :=
  [.connection 0 (.register 7), .connection 0 .lock, .connection 0 .access, .connection 0 .unlock,
    .connection 0 .startReader, .connection 0 .drop,
    .reader 0 .checkStop, .reader 0 (.poll true), .reader 0 (.read (some 9)),
    .connection 1 (.call (.remove 7)), .connection 1 .lock, .connection 1 .access,
    .connection 1 .destroy, .connection 1 .destroy]

/-- The deletion of a mailbox whose reader has just read a message ends in a deadlock. -/
theorem deleteBehindRead_deadlock : (runFrom step init deleteBehindRead).Deadlock :=
  ⟨1, 0, rfl, rfl, rfl⟩

end RegistryLock

end CoreRaT.Spec
