import CoreRaT.Proofs.Registry.Local
import CoreRaT.Proofs.Ring.Bag
import CoreRaT.Spec.LocalNode

/-!
# `CoreRaT.Proofs.LocalService`: a process is one priority bag for each mailbox id

What the mailboxes of a process are for, as their callers see it: by ids and results, without
objects, registry and rings. `LocalHistory` records the calls for each id since its mailbox was
initialized: the messages that were sent to it, with the results, and what was received.

`serves` says that each of these histories is one of a bounded bag with priorities
(`CoreRaT.Lib.PriorityBag`) of 10 messages, in all orders of the calls on any number of mailboxes.
So messages for one id never come out at another one, and none comes out that was not sent since
the mailbox was initialized, or comes out twice. It needs what the registry and the rings need: ids
that are in use once, at most 512 of them in the life of the process, and messages that fit.
-/

set_option autoImplicit false

namespace CoreRaT.Spec

open CoreRaT.Lib

/-- A process, and the calls for each id since the mailbox with this id was initialized. -/
structure LocalHistory where
  node : LocalNode
  log : MailboxId → List (BagOp RingMessage)

namespace LocalNode

/-- The mailbox that is initialized at `a` has this id. -/
def Live (s : LocalNode) (a : Nat) (id : MailboxId) : Prop := s.process.Live a id

/-- What a sender sees of its call. A call that is refused for other reasons is none. -/
def sendOps (x : RingMessage) : TimsResult → List (BagOp RingMessage)
  | .SUCCESS => [.put x true]
  | .ERROR_SEND => [.put x false]
  | _ => []

/-- What a receiver sees. -/
def receiveOps : Option EvlRing.Received → List (BagOp RingMessage)
  | some received => received.bagOps
  | none => []

/-- The call for an id that a step is, with its result. -/
def record (s : LocalNode) : Event → MailboxId × List (BagOp RingMessage)
  | .send this dest data =>
    (dest, sendOps ⟨data, sendPriority (s.config this), (s.config this).mailboxId⟩
      (s.send this dest data).1)
  | .receive this bufferSize =>
    ((s.config this).mailboxId, receiveOps (s.receive this bufferSize).1)
  | _ => (0, [])

/-- The id of the mailbox that a step brings into use. -/
def startedId (s : LocalNode) : Event → Option MailboxId
  | .initializeMailbox this evlObjects =>
    s.process.startedId (.initializeMailbox this evlObjects)
  | _ => none

end LocalNode

namespace LocalHistory

open LocalNode (Event)

/-- A process that has just started. -/
def init : LocalHistory := ⟨.init, fun _ => []⟩

/-- One call. -/
def step (h : LocalHistory) (e : Event) : LocalHistory where
  node := h.node.step e
  log := fun id =>
    if h.node.startedId e = some id then []
    else if (h.node.record e).1 = id then h.log id ++ (h.node.record e).2
    else h.log id

/-- A step that brings no id into use. -/
theorem step_eq (h : LocalHistory) {e : Event} (he : h.node.startedId e = none) :
    h.step e =
      ⟨h.node.step e, fun id =>
        if (h.node.record e).1 = id then h.log id ++ (h.node.record e).2 else h.log id⟩ := by
  simp [step, he]

/-! ### The invariant -/

/-- The size of the slots of a mailbox with this configuration. -/
def slotSizeOf (config : TimsConfig) : UInt32 := UInt32.ofNat config.maxMsgSize

/-- The addresses of the slots do not wrap, and the messages of the mailbox can be found. -/
def Usable (config : TimsConfig) : Prop :=
  9 * (slotSizeOf config).toNat < 2 ^ 32 ∧ Int8.minValue < sendPriority config

/-- What the registry and the rings need of a call: ids are from `ids`, and in use once, and a
message fits into the slots of its destination. -/
def Meets (ids : Finset MailboxId) (h : LocalHistory) : Event → Prop
  | .construct _ config => config.mailboxId ∈ ids ∧ Usable config
  | .initializeMailbox this evlObjects =>
    ∀ id ∈ h.node.startedId (.initializeMailbox this evlObjects),
      h.node.process.table.registryFind id = none
  | .send _ dest data =>
    ∀ a ∈ h.node.process.table.registryFind dest,
      data.length ≤ (slotSizeOf (h.node.config a)).toNat
  | _ => True

instance (config : TimsConfig) : Decidable (Usable config) :=
  inferInstanceAs (Decidable (_ ∧ _))

instance (ids : Finset MailboxId) (h : LocalHistory) (e : Event) : Decidable (h.Meets ids e) :=
  match e with
  | .construct .. => inferInstanceAs (Decidable (_ ∧ _))
  -- One id and one mailbox at most are looked at, not all of them.
  | .initializeMailbox this evlObjects =>
    Option.decidableForallMem (h.node.startedId (.initializeMailbox this evlObjects))
  | .send _ dest _ => Option.decidableForallMem (h.node.process.table.registryFind dest)
  | .shutdown _ | .destroy _ | .receive .. => inferInstanceAs (Decidable True)

/-- Every mailbox that is initialized is found, and its history is that of a bag which holds the
messages of its ring. -/
structure Serving (ids : Finset MailboxId) (h : LocalHistory) : Prop where
  consistent : h.node.process.Consistent
  reachable : h.node.process.Reachable
  stored : h.node.process.table.storedIds ⊆ ids
  known : ∀ a m, h.node.process.mailboxes a = some m →
    m.mailboxId = (h.node.config a).mailboxId ∧ m.mailboxId ∈ ids ∧ Usable (h.node.config a)
  sound : ∀ a id, h.node.Live a id → (h.node.ring a).Sound 10 (slotSizeOf (h.node.config a))
  log : ∀ a id, h.node.Live a id →
    PriorityBag.Run RingMessage.rank 10 0 (h.log id) (h.node.ring a).messages

variable {ids : Finset MailboxId} {h : LocalHistory}

theorem serving_init (ids : Finset MailboxId) : init.Serving ids where
  consistent := LocalProcess.consistent_init
  reachable := LocalProcess.reachable_init
  stored := by
    show (RegistryTable.empty : RegistryTable Nat).storedIds ⊆ ids
    rw [RegistryTable.storedIds_empty]
    exact Finset.empty_subset ids
  known := nofun
  sound := nofun
  log := nofun

namespace Serving

/-- An id is in use once. -/
theorem unique (hs : h.Serving ids) {a b : Nat} {id : MailboxId} (ha : h.node.Live a id)
    (hb : h.node.Live b id) : a = b :=
  Option.some.inj ((hs.reachable a id ha).symm.trans (hs.reachable b id hb))

/-- A mailbox that is initialized has the id of its configuration. -/
theorem config_of_live (hs : h.Serving ids) {a : Nat} {id : MailboxId} (ha : h.node.Live a id) :
    (h.node.config a).mailboxId = id :=
  (hs.known a _ ha).1.symm

/-- A call on the ring of the mailbox with the id `dest`. -/
theorem call (hs : h.Serving ids) {target : Nat} {dest : MailboxId}
    (hlive : h.node.Live target dest) {ring : EvlRing} {ops : List (BagOp RingMessage)}
    (hsound : ring.Sound 10 (slotSizeOf (h.node.config target)))
    (hops : PriorityBag.Run RingMessage.rank 10 (h.node.ring target).messages ops ring.messages) :
    LocalHistory.Serving ids
      { node := { h.node with ring := Function.update h.node.ring target ring }
        log := fun id => if dest = id then h.log id ++ ops else h.log id } where
  consistent := hs.consistent
  reachable := hs.reachable
  stored := hs.stored
  known := hs.known
  sound := by
    intro a id ha
    by_cases htarget : a = target
    · subst htarget
      simpa using hsound
    · simpa [htarget] using hs.sound a id ha
  log := by
    intro a id ha
    by_cases htarget : a = target
    · subst htarget
      obtain rfl : id = dest := (hs.config_of_live ha).symm.trans (hs.config_of_live hlive)
      simpa using (hs.log a id hlive).append hops
    · have hid : dest ≠ id := by
        rintro rfl
        exact htarget (hs.unique ha hlive)
      simpa [htarget, hid] using hs.log a id ha

/-- A call that changes nothing, and is recorded for an id that is not in use. -/
theorem idle (hs : h.Serving ids) {log : MailboxId → List (BagOp RingMessage)}
    (hlog : ∀ a id, h.node.Live a id → log id = h.log id) :
    LocalHistory.Serving ids ⟨h.node, log⟩ where
  consistent := hs.consistent
  reachable := hs.reachable
  stored := hs.stored
  known := hs.known
  sound := hs.sound
  log := by
    intro a id ha
    show PriorityBag.Run RingMessage.rank 10 0 (log id) _
    rw [hlog a id ha]
    exact hs.log a id ha

/-! ### Sending and receiving -/

theorem postTo_cases (hs : h.Serving ids) (dest : MailboxId) (data : List UInt8) (priority : Int8)
    (src : MailboxId) :
    (∃ target, h.node.Live target dest ∧
      LocalNode.postTo dest h.node data priority src
        = (((h.node.ring target).post data priority src).1,
          { h.node with
              ring := Function.update h.node.ring target
                ((h.node.ring target).post data priority src).2 })) ∨
    ((∀ a, ¬ h.node.Live a dest) ∧
      LocalNode.postTo dest h.node data priority src = (false, h.node)) := by
  unfold LocalNode.postTo
  cases hfind : h.node.process.table.registryFind dest with
  | none =>
    refine Or.inr ⟨fun a ha => ?_, rfl⟩
    rw [hs.reachable a dest ha] at hfind
    cases hfind
  | some target =>
    have hlive := hs.consistent.live dest target hfind
    refine Or.inl ⟨target, hlive, ?_⟩
    rw [LocalProcess.Live] at hlive
    simp [hlive]

theorem send (hs : h.Serving ids) (this : Nat) (dest : MailboxId) (data : List UInt8)
    (hfits : ∀ a ∈ h.node.process.table.registryFind dest,
      data.length ≤ (slotSizeOf (h.node.config a)).toNat) :
    (h.step (.send this dest data)).Serving ids := by
  -- Without a message for a ring, nothing changes.
  have hnone : ∀ result, result ≠ .SUCCESS → result ≠ .ERROR_SEND →
      h.node.send this dest data = (result, h.node) →
      (h.step (.send this dest data)).Serving ids := by
    intro result hsuccess herror hsend
    have hops : ∀ x, LocalNode.sendOps x result = [] := by
      intro x
      cases result <;> simp_all [LocalNode.sendOps]
    rw [step_eq h rfl]
    simp only [LocalNode.step, LocalNode.record, hsend]
    exact hs.idle fun a id _ => by simp [hops]
  cases hm : h.node.process.mailboxes this with
  | none => exact hnone .ERROR_NOT_INIT nofun nofun (by simp only [LocalNode.send, hm])
  | some m =>
    cases hcreated : m.created with
    | false => exact hnone .ERROR_NOT_INIT nofun nofun (by simp [LocalNode.send, hm, hcreated])
    | true =>
      have hsend : h.node.send this dest data
          = evlSendRaw (h.node.config this) (LocalNode.postTo dest) h.node data
            (sendPriority (h.node.config this)) := by
        simp [LocalNode.send, hm, hcreated]
      by_cases hsize : data.length = 0 ∨ (h.node.config this).maxMsgSize < data.length
      · exact hnone .ERROR_INVALID_MSG nofun nofun (by rw [hsend, evlSendRaw, if_pos hsize])
      · rw [evlSendRaw, if_neg hsize] at hsend
        have husable := (hs.known this m hm).2.2
        rcases hs.postTo_cases dest data (sendPriority (h.node.config this))
            (h.node.config this).mailboxId with ⟨target, hlive, hput⟩ | ⟨hdead, hput⟩
        · have hring := hs.sound target dest hlive
          have htarget := (hs.known target _ hlive).2.2
          obtain ⟨hsound, hpost⟩ := hring.post (hring.unwrapped htarget.1)
            (hfits target (hs.reachable target dest hlive)) husable.2 (h.node.config this).mailboxId
          have hcall := hs.call hlive hsound hpost.run
          rw [hput] at hsend
          rw [step_eq h rfl]
          simp only [LocalNode.step, LocalNode.record]
          generalize (h.node.ring target).post data _ _ = res at hsend hcall
          obtain ⟨ok, ring⟩ := res
          rw [hsend]
          cases ok with
          | true => exact hcall
          | false => exact hcall
        · rw [hput] at hsend
          rw [step_eq h rfl]
          simp only [LocalNode.step, LocalNode.record, hsend]
          refine hs.idle fun a id ha => ?_
          have hid : dest ≠ id := by
            rintro rfl
            exact hdead a ha
          simp [hid]

theorem receive (hs : h.Serving ids) (this bufferSize : Nat) :
    (h.step (.receive this bufferSize)).Serving ids := by
  have hnone : h.node.receive this bufferSize = (none, h.node) →
      (h.step (.receive this bufferSize)).Serving ids := by
    intro hreceive
    rw [step_eq h rfl]
    simp only [LocalNode.step, LocalNode.record, hreceive]
    exact hs.idle fun a id _ => by simp [LocalNode.receiveOps]
  cases hm : h.node.process.mailboxes this with
  | none => exact hnone (by simp only [LocalNode.receive, hm])
  | some m =>
    cases hcreated : m.created with
    | false => exact hnone (by simp [LocalNode.receive, hm, hcreated])
    | true =>
      have hlive : h.node.Live this (h.node.config this).mailboxId := by
        rw [← (hs.known this m hm).1]
        exact hm.trans (by rw [← hcreated])
      obtain ⟨hsound, hops⟩ := (hs.sound this _ hlive).receive (h.node.config this).mailboxId
        bufferSize
      have hreceive : h.node.receive this bufferSize =
          (some ((h.node.ring this).receive (h.node.config this).mailboxId bufferSize).1,
            { h.node with
                ring := Function.update h.node.ring this
                  ((h.node.ring this).receive (h.node.config this).mailboxId bufferSize).2 }) := by
        simp [LocalNode.receive, hm, hcreated]
      rw [step_eq h rfl]
      simp only [LocalNode.step, LocalNode.record, hreceive]
      exact hs.call hlive hsound hops

/-! ### The life of the mailboxes -/

/-- A step after which no other mailboxes are initialized, and those that are have their rings. -/
theorem of_live (hs : h.Serving ids) {node : LocalNode} (hconsistent : node.process.Consistent)
    (hreachable : node.process.Reachable) (hstored : node.process.table.storedIds ⊆ ids)
    (hknown : ∀ a m, node.process.mailboxes a = some m →
      m.mailboxId = (node.config a).mailboxId ∧ m.mailboxId ∈ ids ∧ Usable (node.config a))
    (hlive : ∀ a id, node.Live a id →
      h.node.Live a id ∧ node.config a = h.node.config a ∧ node.ring a = h.node.ring a) :
    LocalHistory.Serving ids ⟨node, h.log⟩ where
  consistent := hconsistent
  reachable := hreachable
  stored := hstored
  known := hknown
  sound := by
    intro a id ha
    obtain ⟨hbefore, hconfig, hring⟩ := hlive a id ha
    rw [hconfig, hring]
    exact hs.sound a id hbefore
  log := by
    intro a id ha
    obtain ⟨hbefore, -, hring⟩ := hlive a id ha
    rw [hring]
    exact hs.log a id hbefore

/-- A step that is not recorded leaves the histories as they are. -/
theorem step_quiet {e : Event} (hstart : h.node.startedId e = none)
    (hops : (h.node.record e).2 = []) : h.step e = ⟨h.node.step e, h.log⟩ := by
  rw [step_eq h hstart]
  simp [hops]

theorem construct (hs : h.Serving ids) {this : Nat} {config : TimsConfig}
    (hid : config.mailboxId ∈ ids) (husable : Usable config) :
    (h.step (.construct this config)).Serving ids := by
  rw [step_quiet rfl rfl]
  simp only [LocalNode.step, LocalNode.construct]
  cases hm : h.node.process.mailboxes this with
  | some m => exact hs
  | none =>
    have htable := LocalProcess.construct_table h.node.process this config.mailboxId
    have hmailboxes : (h.node.process.construct this config.mailboxId).mailboxes =
        Function.update h.node.process.mailboxes this (some ⟨config.mailboxId, false⟩) := by
      simp [LocalProcess.construct, hm]
    refine hs.of_live (hs.consistent.construct this config.mailboxId) ?_ (htable ▸ hs.stored) ?_ ?_
    · intro a id ha
      rw [htable]
      exact hs.reachable a id ((LocalProcess.live_construct _ this config.mailboxId a id).mp ha)
    · intro a m' hm'
      simp only [hmailboxes] at hm'
      by_cases ha : a = this
      · subst ha
        rw [Function.update_self] at hm'
        obtain rfl := Option.some.inj hm'
        simpa using ⟨hid, husable⟩
      · rw [Function.update_of_ne ha] at hm'
        simpa [ha] using hs.known a m' hm'
    · intro a id ha
      have hbefore := (LocalProcess.live_construct _ this config.mailboxId a id).mp ha
      have hne : a ≠ this := by
        rintro rfl
        rw [LocalProcess.Live, hm] at hbefore
        cases hbefore
      exact ⟨hbefore, Function.update_of_ne hne _ _, rfl⟩

/-- A mailbox starts with an empty ring and an empty history. -/
theorem started (hs : h.Serving ids) (hcard : ids.card ≤ 512) (hzero : 0 ∉ ids) {this : Nat}
    {id : MailboxId} (hm : h.node.process.mailboxes this = some ⟨id, false⟩)
    (hfree : ∀ a, ¬ h.node.Live a id) :
    LocalHistory.Serving ids
      { node :=
          { h.node with
              process := h.node.process.started this id
              ring := Function.update h.node.ring this
                (.ofConfig (h.node.config this) fun _ => 0) }
        log := fun d => if id = d then [] else h.log d } := by
  obtain ⟨hconfig, hmem, husable⟩ := hs.known this _ hm
  have hnew : h.node.process.IdFree id := ⟨fun hid => hzero (hid ▸ hmem), hfree⟩
  -- There is room for the id: it and the stored ones are among `ids`.
  have hunion : insert id h.node.process.table.storedIds ⊆ ids :=
    Finset.insert_subset hmem hs.stored
  have hroom : h.node.process.table.HasRoom id := by
    rw [RegistryTable.hasRoom_iff]
    exact (Finset.card_le_card hunion).trans hcard
  have hring : EvlRing.ofConfig (h.node.config this) (fun _ => 0) =
      .allocateRing 10 (slotSizeOf (h.node.config this)) fun _ => 0 := rfl
  have hlive : ∀ a d, (h.node.process.started this id).Live a d →
      a = this ∧ d = id ∨ a ≠ this ∧ id ≠ d ∧ h.node.Live a d := by
    intro a d ha
    rw [LocalProcess.live_started] at ha
    by_cases hthis : a = this
    · rw [if_pos hthis] at ha
      exact Or.inl ⟨hthis, ha⟩
    · rw [if_neg hthis] at ha
      exact Or.inr ⟨hthis, fun hid => hfree a (hid ▸ ha), ha⟩
  exact {
    consistent := hs.consistent.started hm
    reachable := (LocalProcess.reachable_started hs.consistent hs.reachable hm hnew).mpr hroom
    stored := by
      show (h.node.process.table.registryInsert id (some this)).storedIds ⊆ ids
      rw [RegistryTable.storedIds_registryInsert hs.consistent.probed hnew.1 hroom]
      exact hunion
    known := by
      intro a m hma
      by_cases ha : a = this
      · subst ha
        obtain rfl : (⟨id, true⟩ : LocalMailbox) = m := by
          simpa [LocalProcess.started] using hma
        exact ⟨hconfig, hmem, husable⟩
      · exact hs.known a m (by simpa [LocalProcess.started, ha] using hma)
    sound := by
      intro a d ha
      rcases hlive a d ha with ⟨rfl, -⟩ | ⟨hne, -, hbefore⟩
      · simp only [Function.update_self, hring]
        exact EvlRing.sound_allocateRing 10 _ _
      · simpa [hne] using hs.sound a d hbefore
    log := by
      intro a d ha
      rcases hlive a d ha with ⟨rfl, rfl⟩ | ⟨hne, hid, hbefore⟩
      · simp only [Function.update_self, if_true, hring, EvlRing.messages_allocateRing]
        exact .nil 0
      · simpa [hne, hid] using hs.log a d hbefore }

theorem initializeMailbox (hs : h.Serving ids) (hcard : ids.card ≤ 512) (hzero : 0 ∉ ids)
    {this : Nat} {evlObjects : Bool}
    (hfree : ∀ id ∈ h.node.startedId (.initializeMailbox this evlObjects),
      h.node.process.table.registryFind id = none) :
    (h.step (.initializeMailbox this evlObjects)).Serving ids := by
  rcases LocalProcess.initializeMailbox_cases h.node.process this evlObjects with
    ⟨id, hm, hstarted, heq⟩ | ⟨hstarted, heq⟩
  · have hnode : h.node.step (.initializeMailbox this evlObjects) =
        { h.node with
            process := h.node.process.started this id
            ring := Function.update h.node.ring this
              (.ofConfig (h.node.config this) fun _ => 0) } := by
      simp [LocalNode.step, LocalNode.initializeMailbox, hm, heq]
    have hlog : (h.step (.initializeMailbox this evlObjects)).log =
        fun d => if id = d then [] else h.log d := by
      funext d
      simp [LocalHistory.step, LocalNode.startedId, hstarted, LocalNode.record]
    have hstep : h.step (.initializeMailbox this evlObjects) = ⟨_, _⟩ :=
      congrArg₂ LocalHistory.mk hnode hlog
    rw [hstep]
    refine hs.started hcard hzero hm fun a ha => ?_
    have hfound := hs.reachable a id ha
    rw [hfree id (by rw [LocalNode.startedId, hstarted]; rfl)] at hfound
    cases hfound
  · have hquiet : h.node.startedId (.initializeMailbox this evlObjects) = none := hstarted
    rw [step_quiet hquiet rfl]
    simp only [LocalNode.step, LocalNode.initializeMailbox]
    cases hm : h.node.process.mailboxes this with
    | none => exact hs
    | some m =>
      cases hcreated : m.created with
      | true => simpa [hcreated] using hs
      | false =>
        -- The ring of a mailbox that is not initialized may have been allocated.
        simp only [hcreated, Bool.false_eq_true, if_false, heq]
        refine hs.of_live hs.consistent hs.reachable hs.stored hs.known fun a id ha => ?_
        refine ⟨ha, rfl, Function.update_of_ne ?_ _ _⟩
        rintro rfl
        rw [LocalNode.Live, LocalProcess.Live, hm] at ha
        rw [Option.some.inj ha] at hcreated
        cases hcreated

/-- The mailboxes that there are after `shutdown` had the same ids before. -/
theorem exists_of_shutdown (p : LocalProcess) (this a : Nat) {m : LocalMailbox}
    (hm : (p.shutdown this).mailboxes a = some m) :
    ∃ m', p.mailboxes a = some m' ∧ m'.mailboxId = m.mailboxId := by
  rcases LocalProcess.shutdown_cases p this with ⟨id, hlive, heq⟩ | ⟨-, heq⟩
  · rw [heq] at hm
    change Function.update p.mailboxes this (some ⟨id, false⟩) a = some m at hm
    by_cases ha : a = this
    · subst ha
      rw [Function.update_self] at hm
      have hid : id = m.mailboxId := congrArg LocalMailbox.mailboxId (Option.some.inj hm)
      exact ⟨⟨id, true⟩, hlive, hid⟩
    · exact ⟨m, by simpa [ha] using hm, rfl⟩
  · exact ⟨m, heq ▸ hm, rfl⟩

theorem storedIds_shutdown (hs : h.Serving ids) (this : Nat) :
    (h.node.process.shutdown this).table.storedIds ⊆ ids := by
  have hstored := LocalProcess.storedIds_step hs.consistent (.shutdown this) nofun nofun
  show (h.node.process.step (.shutdown this)).table.storedIds ⊆ ids
  rw [hstored]
  simpa [LocalProcess.startedId] using hs.stored

/-- `shutdown`, in the process and the rings. -/
theorem shutdown_cases (s : LocalNode) (this : Nat) :
    (s.shutdown this).process = s.process.shutdown this ∧
      (s.shutdown this).config = s.config ∧
      ∀ a, a ≠ this → (s.shutdown this).ring a = s.ring a := by
  cases hm : s.process.mailboxes this with
  | none => simp [LocalNode.shutdown, LocalProcess.shutdown, hm]
  | some m =>
    cases hcreated : m.created with
    | false => simp [LocalNode.shutdown, LocalProcess.shutdown, hm, hcreated]
    | true =>
      have hdown : s.shutdown this =
          { s with
              process := s.process.shutdown this
              ring := Function.update s.ring this (.allocateRing 0 0 fun _ => 0) } := by
        simp [LocalNode.shutdown, hm, hcreated]
      rw [hdown]
      exact ⟨rfl, rfl, fun a ha => Function.update_of_ne ha _ _⟩

theorem shutdown (hs : h.Serving ids) (this : Nat) : (h.step (.shutdown this)).Serving ids := by
  rw [step_quiet rfl rfl]
  obtain ⟨hprocess, hconfig, hring⟩ := shutdown_cases h.node this
  refine hs.of_live ?_ ?_ ?_ ?_ ?_
  · rw [LocalNode.step, hprocess]
    exact hs.consistent.shutdown this
  · rw [LocalNode.step, hprocess]
    exact hs.reachable.shutdown hs.consistent this
  · rw [LocalNode.step, hprocess]
    exact hs.storedIds_shutdown this
  · intro a m hm
    rw [LocalNode.step, hprocess] at hm
    obtain ⟨m', hm', hid⟩ := exists_of_shutdown _ this a hm
    rw [LocalNode.step, hconfig, ← hid]
    exact hs.known a m' hm'
  · intro a id ha
    rw [LocalNode.Live, LocalNode.step, hprocess] at ha
    obtain ⟨hne, hbefore⟩ := (LocalProcess.live_shutdown _ this a id).mp ha
    exact ⟨hbefore, congrFun hconfig a, hring a hne⟩

theorem destroy (hs : h.Serving ids) (this : Nat) : (h.step (.destroy this)).Serving ids := by
  rw [step_quiet rfl rfl]
  obtain ⟨-, hconfig, hring⟩ := shutdown_cases h.node this
  refine hs.of_live (hs.consistent.destroy this) ?_ (hs.storedIds_shutdown this) ?_ ?_
  · intro a id ha
    have hbefore := (LocalProcess.live_destroy _ this a id).mp ha
    exact hs.reachable.shutdown hs.consistent this a id
      ((LocalProcess.live_shutdown _ this a id).mpr hbefore)
  · intro a m hm
    have hne : a ≠ this := by
      rintro rfl
      simp [LocalNode.step, LocalNode.destroy, LocalProcess.destroy] at hm
    have hm' : (h.node.process.shutdown this).mailboxes a = some m := by
      simpa [LocalNode.step, LocalNode.destroy, LocalProcess.destroy, hne] using hm
    obtain ⟨m', hm', hid⟩ := exists_of_shutdown _ this a hm'
    have hsame : (h.node.step (.destroy this)).config = h.node.config := hconfig
    rw [hsame, ← hid]
    exact hs.known a m' hm'
  · intro a id ha
    obtain ⟨hne, hbefore⟩ := (LocalProcess.live_destroy _ this a id).mp ha
    exact ⟨hbefore, congrFun hconfig a, hring a hne⟩

/-- One call. -/
theorem step (hs : h.Serving ids) (hcard : ids.card ≤ 512) (hzero : 0 ∉ ids) {e : Event}
    (he : h.Meets ids e) : (h.step e).Serving ids := by
  cases e with
  | construct this config => exact hs.construct he.1 he.2
  | initializeMailbox this evlObjects => exact hs.initializeMailbox hcard hzero he
  | shutdown this => exact hs.shutdown this
  | destroy this => exact hs.destroy this
  | send this dest data => exact hs.send this dest data he
  | receive this bufferSize => exact hs.receive this bufferSize

end Serving

/-! ### Runs -/

/-- **A process is one bounded priority bag for each mailbox id.** In every state of a run, whatever
the order of the calls, the history of the id of an initialized mailbox is one of a bag of 10
messages, which now holds the messages of the ring of this mailbox. So what it has received are
messages that senders to this id were told to be sent, each at most once. A message for an id
without an initialized mailbox is refused. -/
theorem serves (ids : Finset MailboxId) (hcard : ids.card ≤ 512) (hzero : 0 ∉ ids)
    (es : List Event) (hes : AllSteps step (Meets ids) init es) :
    AllStates step (fun h =>
      (∀ a id, h.node.Live a id →
        PriorityBag.Run RingMessage.rank 10 0 (h.log id) (h.node.ring a).messages ∧
          (PriorityBag.taken (h.log id) : Multiset RingMessage) ≤
            PriorityBag.accepted (h.log id)) ∧
      ∀ this dest data, (∀ a, ¬ h.node.Live a dest) →
        (h.node.send this dest data).1 ≠ .SUCCESS) init es := by
  have hrun : AllStates step (Serving ids) init es :=
    allStates_of_allSteps (fun _ _ hs he => hs.step hcard hzero he) (serving_init ids) hes
  refine hrun.mono fun h hs => ⟨fun a id ha => ⟨hs.log a id ha, ?_⟩, ?_⟩
  · obtain ⟨lost, hconserved⟩ := (hs.log a id ha).conserved
    rw [zero_add, add_assoc] at hconserved
    rw [hconserved]
    exact Multiset.le_add_right _ _
  · intro this dest data hdead
    rcases hs.postTo_cases dest data (sendPriority (h.node.config this))
        (h.node.config this).mailboxId with ⟨target, hlive, -⟩ | ⟨-, hput⟩
    · exact absurd hlive (hdead target)
    · unfold LocalNode.send
      split
      · simp
      · split
        · simp
        · rw [evlSendRaw, hput]
          split <;> simp

/-- Mailboxes 7 and 9. Each sends to the other one, and mailbox 9 is started anew before it has
received its message. -/
def restartedRun : List Event :=
  [.construct 0 ⟨7, 64, 5⟩, .construct 1 ⟨9, 64, 5⟩, .initializeMailbox 0 true,
    .initializeMailbox 1 true, .send 0 9 [1, 2], .send 1 7 [3], .shutdown 1,
    .send 0 9 [4], .initializeMailbox 1 true, .send 0 9 [5, 6], .receive 1 64, .receive 1 64,
    .receive 0 64]

/-- Mailbox 9 receives the message that was sent after it was started anew. -/
theorem serves_restartedRun :
    AllStates step (fun h =>
      (∀ a id, h.node.Live a id →
        PriorityBag.Run RingMessage.rank 10 0 (h.log id) (h.node.ring a).messages ∧
          (PriorityBag.taken (h.log id) : Multiset RingMessage) ≤
            PriorityBag.accepted (h.log id)) ∧
      ∀ this dest data, (∀ a, ¬ h.node.Live a dest) →
        (h.node.send this dest data).1 ≠ .SUCCESS) init restartedRun ∧
    (runFrom step init restartedRun).log 9 =
      [.put ⟨[5, 6], 5, 7⟩ true, .take (some ⟨[5, 6], 5, 7⟩), .take none] ∧
    (runFrom step init restartedRun).log 7 = [.put ⟨[3], 5, 9⟩ true, .take (some ⟨[3], 5, 9⟩)] :=
  ⟨serves {7, 9} (by decide) (by decide) restartedRun (by decide +kernel), by decide +kernel,
    by decide +kernel⟩

end LocalHistory

end CoreRaT.Spec
