import Mathlib.Data.List.Induction
import CoreRaT.Proofs.Registry.Ids

/-!
# `CoreRaT.Proofs.Registry.Automatic`: the automatic ids

`AutoAssignIDs` gives an automatic definition the id behind the highest one before it in its
category. `MAX_MESSAGE_ID` is the last one that is meant for this, and an assertion is to see to it.
But the assertion looks at the definition when that has its id. Such a definition needs no id any
more, so the assertion holds of every definition: `autoAsserted`. Behind the manual id 0x7FFF, which
is allowed, the next automatic id is 0x8000, that of a reply: `automatic_id_of_reply`.
`autoIdsFresh_iff` is exact.

A list of automatic definitions alone keeps clear of this, up to 0x7FFF of a category. Then the ids
of a category are 1, 2, 3 and so on, and those of the replies go down from 0xFFFF: `exactIds`.
-/

set_option autoImplicit false

namespace CoreRaT.Spec

open MessageDefinition

variable {τ : Type}

namespace MessageRegistry

/-- The assertion on the ids holds of every definition. -/
theorem autoAsserted (d : MessageDefinition τ) : AutoAsserted d := by
  unfold AutoAsserted needsAutoId
  by_cases hzero : d.localId = 0
  · right
    rw [hzero]
    decide
  · left
    simpa using hzero

/-- In front of each definition, the ids that have been given come to what has been counted. -/
theorem Numbers.counts {defs : List (MessageDefinition τ)} (h : Numbers defs) (i : Nat) :
    Counts ((autoAssignIDs defs).take i) (defs.take i) := by
  induction i with
  | zero => exact fun _ => rfl
  | succ i ih =>
    rw [List.take_add_one, List.take_add_one, h.getElem?]
    cases hd : defs[i]? with
    | none => simpa using ih
    | some d => exact ih.snoc (h.request_lt i d hd)

/-! ### Range and freshness -/

/-- The definition `a` at position `i` has got its id from `AutoAssignIDs`. -/
def AutoAt (defs : List (MessageDefinition τ)) (i : Nat) (a : MessageDefinition τ) : Prop :=
  (autoAssignIDs defs)[i]? = some a ∧ ∃ d, defs[i]? = some d ∧ d.needsAutoId = true

/-- What an automatic id is to be. -/
structure FreshId (defs : List (MessageDefinition τ)) (i : Nat) (a : MessageDefinition τ) :
    Prop where
  inRange : 1 ≤ a.localId ∧ a.localId ≤ MAX_MESSAGE_ID
  notReply : a.isReply = false
  fresh : ∀ (j : Nat) (b : MessageDefinition τ), j < i → (autoAssignIDs defs)[j]? = some b →
    b.SameCategory a → b.isReply = false → b.localId ≠ a.localId

/-- The id behind the highest one before some automatic definition is above `MAX_MESSAGE_ID`. -/
def NeedsAbove (defs : List (MessageDefinition τ)) : Prop :=
  ∃ (i : Nat) (d : MessageDefinition τ), defs[i]? = some d ∧ d.needsAutoId = true ∧
    MAX_MESSAGE_ID.toNat < (highestID ((autoAssignIDs defs).take i) d).toNat + 1

/-- All automatic ids of the list are as they are to be, and if it needs one that is too high, it is
rejected. -/
structure AutoIdsFresh (defs : List (MessageDefinition τ)) : Prop where
  fresh : ∀ (i : Nat) (a : MessageDefinition τ), AutoAt defs i a → FreshId defs i a
  rejected : NeedsAbove defs → ¬ Accepted defs

/-- The definitions in front of an automatic one have not come to 0x7FFF in its category. -/
def Room (defs : List (MessageDefinition τ)) : Prop :=
  ∀ (i : Nat) (d : MessageDefinition τ), defs[i]? = some d → d.needsAutoId = true →
    count (defs.take i) d < 0x7FFF

section
variable {defs : List (MessageDefinition τ)}

/-- With room, an automatic definition gets the next number. -/
theorem Room.number_eq (h : Room defs) {i : Nat} {d : MessageDefinition τ}
    (hd : defs[i]? = some d) (hauto : d.needsAutoId = true) :
    number (defs.take i) d = count (defs.take i) d + 1 := by
  have hlt := h i d hd hauto
  rw [number_of_auto hauto]
  omega

/-- An id in the range is not that of a reply. -/
theorem isReply_eq_false {a : MessageDefinition τ} (h : a.localId.toNat < 0x8000) :
    a.isReply = false := by
  rw [← Bool.not_eq_true, isReply_iff]
  rintro ⟨-, hge⟩
  omega

/-- What comes before an automatic definition and is no reply has a lower id. -/
theorem Room.lt_number (h : Room defs) (hnumbers : Numbers defs) {i j : Nat}
    {d e : MessageDefinition τ} (hij : j < i) (he : defs[j]? = some e) (hd : defs[i]? = some d)
    (hauto : d.needsAutoId = true) (hcat : e.SameCategory d)
    (hreply : (withNumber (defs.take j) e).isReply = false) :
    number (defs.take j) e < number (defs.take i) d := by
  have hbelow : number (defs.take j) e < 0x8000 := by
    by_contra hge
    have hhas : e.hasReply ≠ true := fun hhas => hge (hnumbers.request_lt j e he hhas)
    have hiff := isReply_iff (withNumber (defs.take j) e)
    rw [toNat_localId_withNumber, hasReply_withNumber, hreply] at hiff
    exact Bool.false_ne_true (hiff.mpr ⟨by simpa using hhas, by omega⟩)
  rw [h.number_eq hd hauto]
  have hle := number_le_count hij he hcat hbelow
  omega

/-- With room, an automatic id is as it is to be. -/
theorem Room.freshId (h : Room defs) (hnumbers : Numbers defs) {i : Nat}
    {a : MessageDefinition τ} (ha : AutoAt defs i a) : FreshId defs i a := by
  obtain ⟨hget, d, hd, hauto⟩ := ha
  rw [hnumbers.getElem?, hd, Option.map_some] at hget
  obtain rfl := Option.some.inj hget
  have hlt := h i d hd hauto
  have hnumber := h.number_eq hd hauto
  have hmax : MAX_MESSAGE_ID.toNat = 0x7FFF := rfl
  have hone : (1 : UInt16).toNat = 1 := rfl
  refine ⟨?_, ?_, ?_⟩
  · rw [UInt16.le_iff_toNat_le, UInt16.le_iff_toNat_le, toNat_localId_withNumber]
    omega
  · refine isReply_eq_false ?_
    rw [toNat_localId_withNumber]
    omega
  · intro j b hij hb hcat hreply heq
    rw [hnumbers.getElem?, Option.map_eq_some_iff] at hb
    obtain ⟨e, he, rfl⟩ := hb
    have hlower := h.lt_number hnumbers hij he hd hauto hcat hreply
    have hids := congrArg UInt16.toNat heq
    rw [toNat_localId_withNumber, toNat_localId_withNumber] at hids
    omega

/-- The next id is above `MAX_MESSAGE_ID` exactly when there is no room. -/
theorem Numbers.needsAbove_iff (h : Numbers defs) : NeedsAbove defs ↔ ¬ Room defs := by
  have hmax : MAX_MESSAGE_ID.toNat = 0x7FFF := rfl
  unfold NeedsAbove Room
  push Not
  refine exists_congr fun i => exists_congr fun d => and_congr_right fun _ =>
    and_congr_right fun _ => ?_
  rw [h.counts i d, hmax]
  omega

/-- **Range and freshness.** Take a registry that compiles. Its automatic ids lie in 1 to
`MAX_MESSAGE_ID`, are not those of replies and differ from the ids before them in their category,
and it needs none that is too high, exactly when each automatic definition has room. -/
theorem autoIdsFresh_iff (defs : List (MessageDefinition τ)) (h : Accepted defs) :
    AutoIdsFresh defs ↔ Room defs := by
  constructor
  · intro hfresh
    by_contra hno
    exact hfresh.rejected (h.numbers.needsAbove_iff.mpr hno) h
  · intro hroom
    refine ⟨fun i a ha => hroom.freshId h.numbers ha, ?_⟩
    intro habove
    exact absurd hroom (h.numbers.needsAbove_iff.mp habove)

end

theorem room_mixedDefs : Room mixedDefs := by
  intro i d hd hauto
  match i with
  | 0 | 1 | 2 | 3 =>
    obtain rfl := Option.some.inj hd
    revert hauto
    decide
  | _ + 4 => cases hd

theorem autoIdsFresh_mixedDefs : AutoIdsFresh mixedDefs :=
  (autoIdsFresh_iff mixedDefs ⟨by decide, by decide, by decide⟩).mpr room_mixedDefs

/-- The manual id `MAX_MESSAGE_ID`, and an automatic id behind it. -/
def autoBehindLast : List (MessageDefinition Nat) :=
  [⟨0, MessagePrefix.UserDefined, UserSubPrefix.Data, MAX_MESSAGE_ID, none⟩,
    ⟨1, MessagePrefix.UserDefined, UserSubPrefix.Data, 0, none⟩]

/-- The registry compiles, and the automatic id is 0x8000, as if it were that of a reply. -/
theorem automatic_id_of_reply :
    Accepted autoBehindLast ∧
      (autoAssignIDs autoBehindLast).map (fun d => (d.localId, d.isReply))
        = [(0x7FFF, false), (0x8000, true)] ∧
      ¬ AutoIdsFresh autoBehindLast := by
  refine ⟨⟨by decide, by decide, by decide⟩, by decide, ?_⟩
  intro h
  have hfresh := h.fresh 1 ⟨1, MessagePrefix.UserDefined, UserSubPrefix.Data, 0x8000, none⟩
    ⟨by decide, _, rfl, by decide⟩
  exact absurd hfresh.inRange.2 (by decide)

/-! ### Automatic definitions alone -/

/-- All definitions are automatic, and there are at most 0x7FFF of a category. -/
structure AllAutomatic (defs : List (MessageDefinition τ)) : Prop where
  auto : ∀ d ∈ defs, d.needsAutoId = true
  atMost : ∀ d ∈ defs, defs.countP (SameCategory · d) ≤ 0x7FFF

/-- The definition `d` at position `i` is the one of this number in its category, from 1 on. -/
def ordinal (defs : List (MessageDefinition τ)) (i : Nat) (d : MessageDefinition τ) : Nat :=
  (defs.take (i + 1)).countP (SameCategory · d)

/-- The definition with this number as its id. -/
def withOrdinal (defs : List (MessageDefinition τ)) (i : Nat) (d : MessageDefinition τ) :
    MessageDefinition τ :=
  { d with localId := UInt16.ofNat (ordinal defs i d) }

/-- The ids of a list of automatic definitions. -/
structure ExactIds (defs : List (MessageDefinition τ)) : Prop where
  assigned : autoAssignIDs defs = defs.mapIdx (withOrdinal defs)
  own : ∀ (i : Nat) (d : MessageDefinition τ), defs[i]? = some d →
    (withOrdinal defs i d).localId.toNat = ordinal defs i d
  reply : ∀ (i : Nat) (d : MessageDefinition τ) (r : τ), defs[i]? = some d → d.reply = some r →
    ((withOrdinal defs i d).replyMessageDef r).localId.toNat = 0x10000 - ordinal defs i d ∧
      ((withOrdinal defs i d).replyMessageDef r).requestId.toNat = ordinal defs i d
  /-- Each reply is right behind its request. -/
  tuple : messageDefsTuple defs = (defs.mapIdx (withOrdinal defs)).flatMap fun d =>
    d :: (d.reply.map d.replyMessageDef).toList
  nodup : (messageIds defs).Nodup

/-- Of automatic definitions, each counts. -/
theorem count_of_auto {earlier : List (MessageDefinition τ)}
    (h : ∀ e ∈ earlier, e.needsAutoId = true) (c : MessageDefinition τ) :
    count earlier c = earlier.countP (SameCategory · c) := by
  induction earlier using List.reverseRecOn with
  | nil => rfl
  | append_singleton earlier d ih =>
    have hd : d.needsAutoId = true := h d (by simp)
    rw [count_append, ih fun e he => h e (by simp [he]), countStep, List.countP_append,
      List.countP_singleton]
    simp only [hd, if_true, decide_eq_true_eq]
    split <;> rfl

namespace AllAutomatic

variable {defs : List (MessageDefinition τ)}

/-- A definition is counted with those in front of it. -/
theorem ordinal_eq (h : AllAutomatic defs) {i : Nat} {d : MessageDefinition τ}
    (hd : defs[i]? = some d) : ordinal defs i d = count (defs.take i) d + 1 := by
  rw [count_of_auto (fun e he => h.auto e (List.mem_of_mem_take he)), ordinal, List.take_add_one,
    hd, Option.toList_some, List.countP_append, List.countP_singleton]
  simp [SameCategory]

theorem ordinal_le (h : AllAutomatic defs) {i : Nat} {d : MessageDefinition τ}
    (hd : defs[i]? = some d) : ordinal defs i d ≤ 0x7FFF :=
  Nat.le_trans ((List.take_sublist _ _).countP_le) (h.atMost d (List.mem_of_getElem? hd))

theorem room (h : AllAutomatic defs) : Room defs := by
  intro i d hd _
  have heq := h.ordinal_eq hd
  have hle := h.ordinal_le hd
  omega

theorem number_eq (h : AllAutomatic defs) {i : Nat} {d : MessageDefinition τ}
    (hd : defs[i]? = some d) : number (defs.take i) d = ordinal defs i d := by
  rw [h.room.number_eq hd (h.auto d (List.mem_of_getElem? hd)), h.ordinal_eq hd]

theorem numbers (h : AllAutomatic defs) : Numbers defs := by
  refine .of_below ?_
  intro i d hd _ _
  have hle := h.ordinal_le hd
  rw [h.number_eq hd]
  omega

/-- There are no manual ids to meet, and the numbers last. -/
theorem collisionFree (h : AllAutomatic defs) : CollisionFree defs := by
  have hno : ∀ (i : Nat) (d : MessageDefinition τ), defs[i]? = some d → d.needsAutoId ≠ false := by
    intro i d hd
    simp [h.auto d (List.mem_of_getElem? hd)]
  refine ⟨?_, ?_, ?_, ?_⟩
  · intro i j d e _ hd _ _ hmanual
    exact absurd hmanual (hno i d hd)
  · intro i j d e _ _ he _ _ hmanual
    exact absurd hmanual (hno j e he)
  · intro i j d e _ _ he _ hauto _
    exact h.room j e he hauto
  · intro i j d e _ he _ _ hmanual
    exact absurd hmanual (hno j e he)

theorem withNumber_eq (h : AllAutomatic defs) {i : Nat} {d : MessageDefinition τ}
    (hd : defs[i]? = some d) : withNumber (defs.take i) d = withOrdinal defs i d := by
  rw [withNumber, withOrdinal, h.number_eq hd]

theorem assigned (h : AllAutomatic defs) :
    autoAssignIDs defs = defs.mapIdx (withOrdinal defs) := by
  refine List.ext_getElem? ?_
  intro i
  rw [h.numbers.getElem?, List.getElem?_mapIdx]
  cases hd : defs[i]? with
  | none => rfl
  | some d => rw [Option.map_some, Option.map_some, h.withNumber_eq hd]

theorem toNat_localId (h : AllAutomatic defs) {i : Nat} {d : MessageDefinition τ}
    (hd : defs[i]? = some d) : (withOrdinal defs i d).localId.toNat = ordinal defs i d := by
  rw [← h.withNumber_eq hd, toNat_localId_withNumber, h.number_eq hd]

end AllAutomatic

/-- **Exact ids.** Take a list of automatic definitions, with at most 0x7FFF of a category and the
categories in any order. The k-th of a category gets the id k, its reply gets 0x10000 - k and says
k, the replies are right behind their requests, and all ids of the registry differ. -/
theorem exactIds (defs : List (MessageDefinition τ)) (h : AllAutomatic defs) : ExactIds defs := by
  refine ⟨h.assigned, fun i d hd => h.toNat_localId hd, ?_, ?_, h.collisionFree.nodup h.numbers⟩
  · intro i d r hd _
    have hid := h.toNat_localId hd
    have heq := h.ordinal_eq hd
    have hle := h.ordinal_le hd
    obtain ⟨hreply, hrequest⟩ :=
      replyMessageDef_ids (d := withOrdinal defs i d) r (by omega) (by omega)
    rw [hrequest, hreply, hid]
    exact ⟨rfl, rfl⟩
  · rw [messageDefsTuple, expandReplies_eq_flatMap, h.assigned]

/-- Two categories that take turns. -/
def twoCategories : List (MessageDefinition Nat) :=
  [⟨0, MessagePrefix.UserDefined, UserSubPrefix.Data, 0, none⟩,
    ⟨1, MessagePrefix.UserDefined, UserSubPrefix.Commands, 0, some 2⟩,
    ⟨3, MessagePrefix.UserDefined, UserSubPrefix.Data, 0, none⟩,
    ⟨4, MessagePrefix.UserDefined, UserSubPrefix.Commands, 0, some 5⟩]

theorem exactIds_twoCategories : ExactIds twoCategories ∧
    messageIds twoCategories
      = [0x01000001, 0x01010001, 0x0101FFFF, 0x01000002, 0x01010002, 0x0101FFFE] :=
  ⟨exactIds twoCategories ⟨by decide, by decide⟩, by decide⟩

end MessageRegistry

end CoreRaT.Spec
