import CoreRaT.Proofs.Registry.Table

/-!
# `CoreRaT.Proofs.Registry.Local`: the mailboxes that the table leads to

The process-local registry has no mailbox pointer that dangles (`registryFind_live`): what is found
for an id is a mailbox with that id that is initialized. It holds for all orders of the calls, for
mailboxes with the same id and with the id 0, and in a full table.

The converse, that a mailbox that is initialized is found, needs room in the table. A removed
mailbox leaves its id in a slot of the table, and no other id can have this slot afterwards. So the
mailboxes are found as long as there are at most 512 different ids in the life of the process
(`reachable_iff`), however few of them are in use at the same time. `initialize` returns `SUCCESS`
for the next one, which is never found: `mailbox_not_found`.
-/

set_option autoImplicit false

namespace CoreRaT.Spec

open CoreRaT.Lib

namespace LocalProcess

variable {p : LocalProcess} {this a : Nat} {id d : MailboxId}

/-! ### What the calls do -/

/-- The mailbox at `a` has this id and is initialized. -/
def Live (p : LocalProcess) (a : Nat) (id : MailboxId) : Prop := p.mailboxes a = some ⟨id, true⟩

/-- The process after `initialize` of a mailbox with the id. -/
def started (p : LocalProcess) (this : Nat) (id : MailboxId) : LocalProcess where
  table := p.table.registryInsert id (some this)
  mailboxes := Function.update p.mailboxes this (some ⟨id, true⟩)

/-- The process after `shutdown` of a mailbox with the id. -/
def stopped (p : LocalProcess) (this : Nat) (id : MailboxId) : LocalProcess where
  table :=
    if p.table.registryFind id = some this then p.table.registryRemove id else p.table
  mailboxes := Function.update p.mailboxes this (some ⟨id, false⟩)

/-- The id of the mailbox that a call brings into use. -/
def startedId (p : LocalProcess) : Event → Option MailboxId
  | .initializeMailbox this evlObjects =>
    ((p.mailboxes this).filter fun m => !m.created && evlObjects).map LocalMailbox.mailboxId
  | _ => none

theorem initializeMailbox_cases (p : LocalProcess) (this : Nat) (evlObjects : Bool) :
    (∃ id, p.mailboxes this = some ⟨id, false⟩ ∧
      p.startedId (.initializeMailbox this evlObjects) = some id ∧
      p.initializeMailbox this evlObjects = (.SUCCESS, p.started this id)) ∨
    (p.startedId (.initializeMailbox this evlObjects) = none ∧
      (p.initializeMailbox this evlObjects).2 = p) := by
  cases hm : p.mailboxes this with
  | none => exact Or.inr (by simp [initializeMailbox, startedId, hm])
  | some m =>
    obtain ⟨id, created⟩ := m
    cases created with
    | true => exact Or.inr (by simp [initializeMailbox, startedId, hm])
    | false =>
      cases evlObjects with
      | false => exact Or.inr (by simp [initializeMailbox, startedId, hm])
      | true => exact Or.inl ⟨id, rfl, by simp [initializeMailbox, startedId, started, hm]⟩

theorem shutdown_cases (p : LocalProcess) (this : Nat) :
    (∃ id, p.Live this id ∧ p.shutdown this = p.stopped this id) ∨
    ((∀ id, ¬ p.Live this id) ∧ p.shutdown this = p) := by
  unfold Live
  cases hm : p.mailboxes this with
  | none => exact Or.inr ⟨nofun, by simp only [shutdown, hm]⟩
  | some m =>
    obtain ⟨id, created⟩ := m
    cases created with
    | true => exact Or.inl ⟨id, rfl, by simp [shutdown, stopped, hm]⟩
    | false => exact Or.inr ⟨by simp, by simp [shutdown, hm]⟩

/-! The mailboxes that are initialized after each call. -/

theorem live_update {ms : Nat → Option LocalMailbox} {m : Option LocalMailbox}
    (h : m ≠ some ⟨d, true⟩) :
    Function.update ms this m a = some ⟨d, true⟩ ↔ a ≠ this ∧ ms a = some ⟨d, true⟩ := by
  by_cases ha : a = this
  · subst ha
    simp [h]
  · simp [ha]

theorem live_started (p : LocalProcess) (this : Nat) (id : MailboxId) (a : Nat) (d : MailboxId) :
    (p.started this id).Live a d ↔ if a = this then d = id else p.Live a d := by
  unfold Live started
  by_cases ha : a = this
  · subst ha
    simp [eq_comm]
  · simp [ha]

theorem live_construct (p : LocalProcess) (this : Nat) (id : MailboxId) (a : Nat) (d : MailboxId) :
    (p.construct this id).Live a d ↔ p.Live a d := by
  cases hm : p.mailboxes this with
  | some m => simp only [construct, hm]
  | none =>
    simp only [construct, hm, Live]
    rw [live_update (by simp), and_iff_right_iff_imp]
    rintro hlive rfl
    rw [hm] at hlive
    cases hlive

theorem construct_table (p : LocalProcess) (this : Nat) (id : MailboxId) :
    (p.construct this id).table = p.table := by
  unfold construct
  split <;> rfl

theorem live_shutdown (p : LocalProcess) (this a : Nat) (d : MailboxId) :
    (p.shutdown this).Live a d ↔ a ≠ this ∧ p.Live a d := by
  rcases shutdown_cases p this with ⟨id, -, heq⟩ | ⟨hnot, heq⟩
  · rw [heq]
    exact live_update (by simp)
  · rw [heq, iff_and_self]
    rintro hlive rfl
    exact hnot d hlive

theorem live_destroy (p : LocalProcess) (this a : Nat) (d : MailboxId) :
    (p.destroy this).Live a d ↔ a ≠ this ∧ p.Live a d := by
  have hupdate : (p.destroy this).Live a d ↔ a ≠ this ∧ (p.shutdown this).Live a d :=
    live_update (by simp)
  rw [hupdate, live_shutdown, and_self_left]

theorem not_live_of_stopped (hm : p.mailboxes this = some ⟨id, false⟩) (d : MailboxId) :
    ¬ p.Live this d := by
  rw [Live, hm]
  simp

/-! ### No pointer dangles -/

/-- What is found for an id is a mailbox with that id that is initialized. -/
structure Consistent (p : LocalProcess) : Prop where
  probed : p.table.Probed
  live : ∀ d a, p.table.registryFind d = some a → p.Live a d

theorem consistent_init : Consistent init where
  probed := RegistryTable.probed_empty
  live d a h := by
    rw [init, RegistryTable.registryFind_empty] at h
    cases h

theorem Consistent.construct (hok : p.Consistent) (this : Nat) (id : MailboxId) :
    (p.construct this id).Consistent := by
  have htable := construct_table p this id
  refine ⟨htable ▸ hok.probed, fun d a hfind => ?_⟩
  rw [htable] at hfind
  exact (live_construct p this id a d).mpr (hok.live d a hfind)

theorem Consistent.started (hok : p.Consistent) (hm : p.mailboxes this = some ⟨id, false⟩) :
    (p.started this id).Consistent := by
  refine ⟨hok.probed.registryInsert id (some this), fun d a hfind => ?_⟩
  rw [live_started]
  -- It is the entry that has been made, or one that was there.
  have hentry : d = id ∧ a = this ∨ p.table.registryFind d = some a := by
    by_cases hroom : id ≠ 0 ∧ p.table.HasRoom id
    · have hinsert :=
        RegistryTable.registryFind_registryInsert hok.probed hroom.1 hroom.2 (some this) d
      by_cases heq : d = id
      · rw [if_pos heq] at hinsert
        exact Or.inl ⟨heq, (Option.some.inj (hinsert.symm.trans hfind)).symm⟩
      · rw [if_neg heq] at hinsert
        exact Or.inr (hinsert.symm.trans hfind)
    · rw [not_and_or, not_not] at hroom
      have hinsert :=
        RegistryTable.registryFind_registryInsert_of_not hok.probed hroom (some this) d
      exact Or.inr (hinsert.symm.trans hfind)
  rcases hentry with ⟨hid, hthis⟩ | hbefore
  · rw [if_pos hthis]
    exact hid
  · have hlive := hok.live d a hbefore
    rw [if_neg]
    · exact hlive
    · rintro rfl
      exact not_live_of_stopped hm d hlive

/-- After `shutdown` of a mailbox, it is not found. The others are found as before. -/
theorem registryFind_stopped (hok : p.Consistent) (hm : p.Live this id) (d : MailboxId) (a : Nat) :
    (p.stopped this id).table.registryFind d = some a ↔
      p.table.registryFind d = some a ∧ a ≠ this := by
  -- The mailbox is found for its own id only.
  have hthis : p.table.registryFind d = some this → d = id := by
    intro hfind
    have hlive := hok.live d this hfind
    rw [Live, hm] at hlive
    exact (LocalMailbox.mk.inj (Option.some.inj hlive)).1.symm
  by_cases hmine : p.table.registryFind id = some this
  · rw [stopped, if_pos hmine, RegistryTable.registryFind_registryRemove hok.probed]
    by_cases heq : d = id
    · rw [if_pos heq, heq, hmine]
      simp [eq_comm]
    · rw [if_neg heq, iff_self_and]
      rintro hfind rfl
      exact heq (hthis hfind)
  · rw [stopped, if_neg hmine, iff_self_and]
    rintro hfind rfl
    exact hmine (hthis hfind ▸ hfind)

theorem Consistent.shutdown (hok : p.Consistent) (this : Nat) :
    (p.shutdown this).Consistent := by
  rcases shutdown_cases p this with ⟨id, hm, heq⟩ | ⟨-, heq⟩
  · refine ⟨?_, fun d a hfind => ?_⟩
    · rw [heq, stopped]
      split
      · exact hok.probed.registryRemove id
      · exact hok.probed
    · rw [heq] at hfind
      obtain ⟨hbefore, hne⟩ := (registryFind_stopped hok hm d a).mp hfind
      exact (live_shutdown p this a d).mpr ⟨hne, hok.live d a hbefore⟩
  · rw [heq]
    exact hok

theorem Consistent.destroy (hok : p.Consistent) (this : Nat) : (p.destroy this).Consistent := by
  have hdown := hok.shutdown this
  refine ⟨hdown.probed, fun d a hfind => ?_⟩
  rw [live_destroy, ← live_shutdown]
  exact hdown.live d a hfind

theorem Consistent.step (hok : p.Consistent) (e : Event) : (p.step e).Consistent := by
  cases e with
  | construct this id => exact hok.construct this id
  | initializeMailbox this evlObjects =>
    show (p.initializeMailbox this evlObjects).2.Consistent
    rcases initializeMailbox_cases p this evlObjects with ⟨id, hm, -, heq⟩ | ⟨-, heq⟩
    · rw [heq]
      exact hok.started hm
    · rw [heq]
      exact hok
  | shutdown this => exact hok.shutdown this
  | destroy this => exact hok.destroy this

/-- In every order of the calls, what `registry_find` returns is a mailbox that exists, that is
initialized, and that has the id. -/
theorem registryFind_live (es : List Event) :
    AllStates step (fun p => ∀ d a, p.table.registryFind d = some a →
      ∃ m, p.mailboxes a = some m ∧ m.created = true ∧ m.mailboxId = d) init es := by
  have hrun : AllStates step Consistent init es :=
    allStates_of_step (fun _ e hok => hok.step e) es consistent_init
  exact hrun.mono fun p hok d a hfind => ⟨⟨d, true⟩, hok.live d a hfind, rfl, rfl⟩

/-! ### Mailboxes that are found -/

/-- Each mailbox that is initialized is found. -/
def Reachable (p : LocalProcess) : Prop :=
  ∀ a id, p.Live a id → p.table.registryFind id = some a

/-- At most `n` mailboxes are initialized. -/
def LiveAtMost (p : LocalProcess) (n : Nat) : Prop :=
  ∃ as : List Nat, as.length ≤ n ∧ ∀ a id, p.Live a id → a ∈ as

/-- An id that is not 0, and that no mailbox in use has. -/
def IdFree (p : LocalProcess) (id : MailboxId) : Prop := id ≠ 0 ∧ ∀ a, ¬ p.Live a id

/-- Ids are in use once, and at most `kMaxMailboxes` of them at a time. -/
def Admissible (p : LocalProcess) (e : Event) : Prop :=
  (∀ id ∈ p.startedId e, p.IdFree id) ∧ (p.step e).LiveAtMost kMaxMailboxes

/-- There is room in the table for the id that is brought into use. -/
def RoomFor (p : LocalProcess) (e : Event) : Prop := ∀ id ∈ p.startedId e, p.table.HasRoom id

/-- The different ids that a run brings into use. -/
def startedIds : LocalProcess → List Event → Finset MailboxId
  | _, [] => ∅
  | p, e :: es => (p.startedId e).toList.toFinset ∪ startedIds (p.step e) es

theorem reachable_init : Reachable init := nofun

/-- A mailbox with a new id is found if there is room, and the others as before. -/
theorem reachable_started (hok : p.Consistent) (hfound : p.Reachable)
    (hm : p.mailboxes this = some ⟨id, false⟩) (hfree : p.IdFree id) :
    (p.started this id).Reachable ↔ p.table.HasRoom id := by
  constructor
  · intro hafter
    by_contra hroom
    -- Nothing is inserted, and the mailbox was not in use before.
    have hthis : (p.started this id).table.registryFind id = some this :=
      hafter this id ((live_started p this id this id).mpr (by rw [if_pos rfl]))
    have hsame := RegistryTable.registryFind_registryInsert_of_not hok.probed (Or.inr hroom)
      (some this) id
    exact not_live_of_stopped hm id (hok.live id this (hsame.symm.trans hthis))
  · intro hroom a d hlive
    show (p.table.registryInsert id (some this)).registryFind d = some a
    rw [RegistryTable.registryFind_registryInsert hok.probed hfree.1 hroom]
    rw [live_started] at hlive
    by_cases hthis : a = this
    · rw [if_pos hthis] at hlive
      rw [if_pos hlive, hthis]
    · rw [if_neg hthis] at hlive
      have hne : d ≠ id := by
        rintro rfl
        exact hfree.2 a hlive
      rw [if_neg hne]
      exact hfound a d hlive

theorem Reachable.shutdown (hok : p.Consistent) (hfound : p.Reachable) (this : Nat) :
    (p.shutdown this).Reachable := by
  rcases shutdown_cases p this with ⟨id, hm, heq⟩ | ⟨-, heq⟩
  · intro a d hlive
    obtain ⟨hne, hbefore⟩ := (live_shutdown p this a d).mp hlive
    rw [heq]
    exact (registryFind_stopped hok hm d a).mpr ⟨hfound a d hbefore, hne⟩
  · rw [heq]
    exact hfound

/-- One call keeps the mailboxes reachable if there is room for the id that it brings into use, and
only then. -/
theorem reachable_step (hok : p.Consistent) (hfound : p.Reachable) (e : Event)
    (hfree : ∀ id ∈ p.startedId e, p.IdFree id) : (p.step e).Reachable ↔ p.RoomFor e := by
  cases e with
  | construct this id =>
    refine iff_of_true (fun a d hlive => ?_) nofun
    show (p.construct this id).table.registryFind d = some a
    rw [construct_table]
    exact hfound a d ((live_construct p this id a d).mp hlive)
  | shutdown this => exact iff_of_true (hfound.shutdown hok this) nofun
  | destroy this =>
    refine iff_of_true (fun a d hlive => ?_) nofun
    exact hfound.shutdown hok this a d
      ((live_shutdown p this a d).mpr ((live_destroy p this a d).mp hlive))
  | initializeMailbox this evlObjects =>
    show (p.initializeMailbox this evlObjects).2.Reachable ↔ _
    rcases initializeMailbox_cases p this evlObjects with ⟨id, hm, hid, heq⟩ | ⟨hid, heq⟩
    · rw [heq, RoomFor, hid]
      simpa using reachable_started hok hfound hm (hfree id hid)
    · rw [heq, RoomFor, hid]
      exact iff_of_true hfound nofun

/-! ### Runs -/

/-- The table keeps the ids that have been in use. -/
theorem storedIds_step (hok : p.Consistent) (e : Event)
    (hfree : ∀ id ∈ p.startedId e, p.IdFree id) (hroom : p.RoomFor e) :
    (p.step e).table.storedIds = (p.startedId e).toList.toFinset ∪ p.table.storedIds := by
  have hshutdown : ∀ this, (p.shutdown this).table.storedIds = p.table.storedIds := by
    intro this
    rcases shutdown_cases p this with ⟨id, -, heq⟩ | ⟨-, heq⟩
    · rw [heq, stopped]
      split
      · exact RegistryTable.storedIds_registryRemove hok.probed id
      · rfl
    · rw [heq]
  cases e with
  | construct this id =>
    show (p.construct this id).table.storedIds = ∅ ∪ p.table.storedIds
    rw [construct_table, Finset.empty_union]
  | shutdown this => exact (hshutdown this).trans (Finset.empty_union _).symm
  | destroy this => exact (hshutdown this).trans (Finset.empty_union _).symm
  | initializeMailbox this evlObjects =>
    show (p.initializeMailbox this evlObjects).2.table.storedIds = _
    rcases initializeMailbox_cases p this evlObjects with ⟨id, -, hid, heq⟩ | ⟨hid, heq⟩
    · have hinsert := RegistryTable.storedIds_registryInsert hok.probed (hfree id hid).1
        (hroom id hid) (some this)
      rw [heq, hid]
      simpa [started] using hinsert
    · rw [heq, hid]
      exact (Finset.empty_union _).symm

theorem roomFor_iff (p : LocalProcess) (e : Event) :
    p.RoomFor e ↔ ((p.startedId e).toList.toFinset ∪ p.table.storedIds).card ≤ 512 := by
  unfold RoomFor
  cases p.startedId e with
  | none =>
    have hle := RegistryTable.card_storedIds_le p.table
    simpa using hle
  | some id => simpa using RegistryTable.hasRoom_iff p.table id

/-- There is room at each step of a run if there is room for all ids. -/
theorem allSteps_roomFor_iff (es : List Event) (hok : p.Consistent)
    (hadm : AllSteps step Admissible p es) :
    AllSteps step RoomFor p es ↔ (startedIds p es ∪ p.table.storedIds).card ≤ 512 := by
  induction es generalizing p with
  | nil =>
    rw [startedIds, Finset.empty_union]
    exact iff_of_true trivial (RegistryTable.card_storedIds_le p.table)
  | cons e es ih =>
    have hrest := ih (hok.step e) hadm.2
    have hids : p.RoomFor e → startedIds p (e :: es) ∪ p.table.storedIds
        = startedIds (p.step e) es ∪ (p.step e).table.storedIds := by
      intro hroom
      rw [storedIds_step hok e hadm.1.1 hroom, startedIds, Finset.union_assoc,
        Finset.union_left_comm]
    constructor
    · rintro ⟨hroom, hlater⟩
      rw [hids hroom]
      exact hrest.mp hlater
    · intro hcard
      have hroom : p.RoomFor e := by
        rw [roomFor_iff]
        refine (Finset.card_le_card (Finset.union_subset_union_left ?_)).trans hcard
        exact Finset.subset_union_left
      rw [hids hroom] at hcard
      exact ⟨hroom, hrest.mpr hcard⟩

theorem reachable_iff_allSteps (es : List Event) (hadm : AllSteps step Admissible init es) :
    AllStates step Reachable init es ↔ AllSteps step RoomFor init es :=
  allStates_iff_allSteps_of_guard (fun _ e _ hok => hok.step e)
    (fun _ e he hok hfound => reachable_step hok hfound e he.1) hadm consistent_init reachable_init

/-! A process with one mailbox at a time, at the same address. -/

/-- The process with a mailbox at the address 0, or with none. -/
def alone (tbl : RegistryTable Nat) (m : Option LocalMailbox) : LocalProcess where
  table := tbl
  mailboxes := Function.update (fun _ => none) 0 m

/-- The life of a mailbox. -/
def lifetime (id : MailboxId) : List Event :=
  [.construct 0 id, .initializeMailbox 0 true, .shutdown 0, .destroy 0]

/-- The ids from 1 to `n`, one after another. -/
def lifetimes (n : Nat) : List Event :=
  (List.range n).flatMap fun k => lifetime (UInt32.ofNat (k + 1))

/-- The table after the life of a mailbox. -/
def tableAfter (tbl : RegistryTable Nat) (id : MailboxId) : RegistryTable Nat :=
  if (tbl.registryInsert id (some 0)).registryFind id = some 0 then
    (tbl.registryInsert id (some 0)).registryRemove id
  else tbl.registryInsert id (some 0)

section
variable (tbl : RegistryTable Nat) (id : MailboxId)

theorem construct_alone :
    (alone tbl none).step (.construct 0 id) = alone tbl (some ⟨id, false⟩) := by
  simp [step, construct, alone]

theorem initializeMailbox_alone :
    (alone tbl (some ⟨id, false⟩)).initializeMailbox 0 true
      = (.SUCCESS, alone (tbl.registryInsert id (some 0)) (some ⟨id, true⟩)) := by
  simp [initializeMailbox, alone]

theorem shutdown_alone :
    (alone (tbl.registryInsert id (some 0)) (some ⟨id, true⟩)).step (.shutdown 0)
      = alone (tableAfter tbl id) (some ⟨id, false⟩) := by
  by_cases hmine : (tbl.registryInsert id (some 0)).registryFind id = some 0
  · simp [step, shutdown, alone, tableAfter, hmine]
  · simp [step, shutdown, alone, tableAfter, hmine]

theorem destroy_alone : (alone tbl (some ⟨id, false⟩)).step (.destroy 0) = alone tbl none := by
  simp [step, destroy, shutdown, alone]

theorem liveAtMost_alone (m : Option LocalMailbox) : (alone tbl m).LiveAtMost kMaxMailboxes := by
  refine ⟨[0], by decide, fun a id hlive => ?_⟩
  by_contra hne
  rw [List.mem_singleton] at hne
  simp [Live, alone, hne] at hlive

variable {id}

theorem idFree_alone (hid : id ≠ 0) : (alone tbl (some ⟨id, false⟩)).IdFree id := by
  refine ⟨hid, fun a hlive => ?_⟩
  by_cases ha : a = 0
  · simp [Live, alone, ha] at hlive
  · simp [Live, alone, ha] at hlive

theorem startedId_alone :
    (alone tbl (some ⟨id, false⟩)).startedId (.initializeMailbox 0 true) = some id := by
  simp [startedId, alone]

/-- A mailbox may be initialized when there is no other. -/
theorem admissible_start (hid : id ≠ 0) :
    (alone tbl none).Admissible (.construct 0 id) ∧
      (alone tbl (some ⟨id, false⟩)).Admissible (.initializeMailbox 0 true) := by
  refine ⟨⟨nofun, ?_⟩, ⟨?_, ?_⟩⟩
  · rw [construct_alone]
    exact liveAtMost_alone _ _
  · rw [startedId_alone]
    intro id' hmem
    rw [← Option.mem_some.mp hmem]
    exact idFree_alone tbl hid
  · show ((alone tbl (some ⟨id, false⟩)).initializeMailbox 0 true).2.LiveAtMost _
    rw [initializeMailbox_alone]
    exact liveAtMost_alone _ _

variable {tbl}

theorem step_initializeMailbox_alone :
    (alone tbl (some ⟨id, false⟩)).step (.initializeMailbox 0 true)
      = alone (tbl.registryInsert id (some 0)) (some ⟨id, true⟩) :=
  congrArg Prod.snd (initializeMailbox_alone tbl id)

theorem runFrom_lifetime :
    runFrom step (alone tbl none) (lifetime id) = alone (tableAfter tbl id) none := by
  simp only [lifetime, runFrom_cons, runFrom_nil, construct_alone, step_initializeMailbox_alone,
    shutdown_alone, destroy_alone]

theorem allSteps_lifetime (hid : id ≠ 0) :
    AllSteps step Admissible (alone tbl none) (lifetime id) := by
  obtain ⟨hconstruct, hinit⟩ := admissible_start tbl hid
  refine ⟨hconstruct, ?_⟩
  rw [construct_alone]
  refine ⟨hinit, ?_⟩
  rw [step_initializeMailbox_alone]
  refine ⟨⟨nofun, ?_⟩, ?_⟩
  · rw [shutdown_alone]
    exact liveAtMost_alone _ _
  · rw [shutdown_alone]
    refine ⟨⟨nofun, ?_⟩, trivial⟩
    rw [destroy_alone]
    exact liveAtMost_alone _ _

theorem startedIds_lifetime (es : List Event) :
    startedIds (alone tbl none) (lifetime id ++ es)
      = insert id (startedIds (alone (tableAfter tbl id) none) es) := by
  simp only [lifetime, List.cons_append, List.nil_append, startedIds, construct_alone,
    step_initializeMailbox_alone, shutdown_alone, destroy_alone, startedId_alone]
  ext id'
  simp [startedId]

theorem probed_tableAfter (hok : tbl.Probed) : (tableAfter tbl id).Probed := by
  rw [tableAfter]
  split
  · exact (hok.registryInsert id (some 0)).registryRemove id
  · exact hok.registryInsert id (some 0)

theorem storedIds_tableAfter (hok : tbl.Probed) (hid : id ≠ 0) (hroom : tbl.HasRoom id) :
    (tableAfter tbl id).storedIds = insert id tbl.storedIds := by
  have hinsert := RegistryTable.storedIds_registryInsert hok hid hroom (some 0)
  rw [← hinsert, tableAfter]
  split
  · exact RegistryTable.storedIds_registryRemove (hok.registryInsert id (some 0)) id
  · rfl

end

/-- The ids from 1 to `n`. -/
def firstIds (n : Nat) : Finset MailboxId := (Finset.range n).image fun k => UInt32.ofNat (k + 1)

theorem ofNat_inj_of_lt {k j : Nat} (hk : k < 2 ^ 32) (hj : j < 2 ^ 32)
    (h : UInt32.ofNat k = UInt32.ofNat j) : k = j := by
  have hnat := congrArg UInt32.toNat h
  rwa [UInt32.toNat_ofNat', UInt32.toNat_ofNat', Nat.mod_eq_of_lt hk, Nat.mod_eq_of_lt hj] at hnat

theorem ofNat_ne_zero {k : Nat} (hk : k < 512) : UInt32.ofNat (k + 1) ≠ 0 := fun h => by
  have hzero := ofNat_inj_of_lt (by omega) (by omega : 0 < 2 ^ 32) h
  omega

theorem card_firstIds {n : Nat} (hn : n ≤ 512) : (firstIds n).card = n := by
  rw [firstIds, Finset.card_image_of_injOn, Finset.card_range]
  intro k hk j hj heq
  simp only [Finset.coe_range, Set.mem_Iio] at hk hj
  have hsucc := ofNat_inj_of_lt (by omega) (by omega) heq
  omega

/-- After `n` mailboxes, the table has their ids, and no mailbox is left. -/
theorem runFrom_lifetimes {n : Nat} (hn : n ≤ 512) :
    AllSteps step Admissible init (lifetimes n) ∧
      ∃ tbl : RegistryTable Nat, runFrom step init (lifetimes n) = alone tbl none ∧ tbl.Probed ∧
        tbl.storedIds = firstIds n := by
  induction n with
  | zero =>
    refine ⟨trivial, .empty, ?_, RegistryTable.probed_empty, RegistryTable.storedIds_empty⟩
    simp [lifetimes, init, alone]
  | succ n ih =>
    obtain ⟨hadm, tbl, hrun, hok, hids⟩ := ih (by omega)
    have happend : lifetimes (n + 1) = lifetimes n ++ lifetime (UInt32.ofNat (n + 1)) := by
      simp [lifetimes, List.range_succ]
    have hid : UInt32.ofNat (n + 1) ≠ 0 := ofNat_ne_zero (by omega)
    have hroom : tbl.HasRoom (UInt32.ofNat (n + 1)) := by
      right
      rw [hids, card_firstIds (by omega)]
      omega
    refine ⟨?_, tableAfter tbl (UInt32.ofNat (n + 1)), ?_, probed_tableAfter hok, ?_⟩
    · rw [happend, allSteps_append, hrun]
      exact ⟨hadm, allSteps_lifetime hid⟩
    · rw [happend, runFrom_append, hrun, runFrom_lifetime]
    · rw [storedIds_tableAfter hok hid hroom, hids, firstIds, firstIds, Finset.range_add_one,
        Finset.image_insert]

/-- The mailboxes of a process are found until they are shut down if and only if there are at most
512 different ids in the life of the process. -/
theorem reachable_iff (es : List Event) (hadm : AllSteps step Admissible init es) :
    AllStates step Reachable init es ↔ (startedIds init es).card ≤ kRegistryCapacity.toNat := by
  rw [reachable_iff_allSteps es hadm, allSteps_roomFor_iff es consistent_init hadm]
  have hempty : init.table.storedIds = ∅ := RegistryTable.storedIds_empty
  rw [hempty, Finset.union_empty]
  rfl

/-- Two mailboxes with the ids 1 and 2, one after the other. -/
theorem reachable_lifetimes_two : AllStates step Reachable init (lifetimes 2) := by
  refine (reachable_iff (lifetimes 2) (runFrom_lifetimes (by decide)).1).mpr ?_
  have hids : startedIds init (lifetimes 2) ⊆ {1, 2} := by
    have hinit : init = alone .empty none := by simp [init, alone]
    rw [hinit, show lifetimes 2 = lifetime 1 ++ (lifetime 2 ++ []) from rfl, startedIds_lifetime,
      startedIds_lifetime]
    simp [startedIds]
  exact (Finset.card_le_card hids).trans (by decide)

/-- 512 mailboxes have been in use and shut down, one after another. The next one is initialized,
and is not found. -/
theorem mailbox_not_found :
    AllSteps step Admissible init
      (lifetimes 512 ++ [.construct 0 513, .initializeMailbox 0 true]) ∧
    let p := runFrom step init (lifetimes 512 ++ [.construct 0 513])
    (p.initializeMailbox 0 true).1 = .SUCCESS ∧
      (p.initializeMailbox 0 true).2.table.registryFind 513 = none := by
  -- The run is too long to be unfolded.
  generalize hn : 512 = n
  obtain ⟨hadm, tbl, hrun, hok, hids⟩ := runFrom_lifetimes (Nat.le_of_eq hn.symm)
  obtain ⟨hconstruct, hinit⟩ := admissible_start tbl (by decide : (513 : MailboxId) ≠ 0)
  have hnew : (513 : MailboxId) ∉ tbl.storedIds := by
    rw [hids, firstIds, Finset.mem_image]
    rintro ⟨k, hk, heq⟩
    have hk := Finset.mem_range.mp hk
    have hsucc := ofNat_inj_of_lt (j := 513) (by omega) (by omega) heq
    omega
  have hfull : ¬ tbl.HasRoom 513 := by
    rw [RegistryTable.HasRoom, not_or, hids, card_firstIds (Nat.le_of_eq hn.symm), ← hids]
    exact ⟨hnew, Nat.not_lt_of_le (Nat.le_of_eq hn)⟩
  refine ⟨?_, ?_⟩
  · rw [allSteps_append, hrun]
    refine ⟨hadm, hconstruct, ?_⟩
    rw [construct_alone]
    exact ⟨hinit, trivial⟩
  · rw [runFrom_append, hrun, runFrom_cons, runFrom_nil, construct_alone]
    simp only [initializeMailbox_alone, true_and]
    have hsame := RegistryTable.registryFind_registryInsert_of_not hok (Or.inr hfull) (some 0) 513
    refine hsame.trans (RegistryTable.registryFind_of_not_stored fun ptr hstored => ?_)
    exact hnew (RegistryTable.mem_storedIds.mpr ⟨ptr, hstored⟩)

end LocalProcess

end CoreRaT.Spec
