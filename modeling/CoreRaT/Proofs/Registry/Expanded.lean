import CoreRaT.Proofs.Registry.Ids
import CoreRaT.Spec.Mailbox

/-!
# `CoreRaT.Proofs.Registry.Expanded`: the list with the replies

`MessageDefsTuple` has a definition for each one that is given, and one for each reply. Two things
are read off it.

`get_type_index` looks for a payload type. Its fold does not count a type that matches, so a type
that comes again is found too far in front: in `A, B, A` the index of `A` is 1. And what it returns
for a type that is not there is the number of the definitions that are given, which is a valid
position as soon as one of them has a reply. `typeIndexRight_iff` is exact.

The filters for requests and for replies of `registry_utils.hpp` pair up, as long as the ids of the
definitions are not in the range of replies: `pairsUp`.
-/

set_option autoImplicit false

namespace CoreRaT.Spec

open MessageDefinition

variable {τ : Type}

namespace MessageRegistry

/-! ### The length -/

/-- `AutoAssignIDs` changes nothing but the id. -/
theorem map_autoAssignIDsProcess {β : Type} (f : MessageDefinition τ → β)
    (hf : ∀ (d : MessageDefinition τ) (id : UInt16), f { d with localId := id } = f d)
    (processed defs : List (MessageDefinition τ)) :
    (autoAssignIDsProcess processed defs).map f = defs.map f := by
  induction defs generalizing processed with
  | nil => rfl
  | cons d rest ih =>
    have hd : f (currentProcessed processed d) = f d := by
      unfold currentProcessed
      split
      · exact hf d _
      · rfl
    rw [autoAssignIDsProcess, List.map_cons, List.map_cons, hd, ih]

theorem map_autoAssignIDs {β : Type} (f : MessageDefinition τ → β)
    (hf : ∀ (d : MessageDefinition τ) (id : UInt16), f { d with localId := id } = f d)
    (defs : List (MessageDefinition τ)) : (autoAssignIDs defs).map f = defs.map f :=
  map_autoAssignIDsProcess f hf [] defs

theorem length_autoAssignIDs (defs : List (MessageDefinition τ)) :
    (autoAssignIDs defs).length = defs.length := by
  have hmap := congrArg List.length (map_autoAssignIDs (fun _ => ()) (fun _ _ => rfl) defs)
  simpa only [List.length_map] using hmap

theorem countP_hasReply_autoAssignIDs (defs : List (MessageDefinition τ)) :
    (autoAssignIDs defs).countP (·.hasReply) = defs.countP (·.hasReply) := by
  have hcount := congrArg (List.countP id) (map_autoAssignIDs (·.hasReply) (fun _ _ => rfl) defs)
  simpa only [List.countP_map, Function.comp_def, id_eq] using hcount

theorem length_expandReplies (defs : List (MessageDefinition τ)) :
    (expandReplies defs).length = defs.length + defs.countP (·.hasReply) := by
  induction defs with
  | nil => rfl
  | cons d rest ih =>
    rw [expandReplies, List.length_cons, List.countP_cons, hasReply]
    cases d.reply with
    | none =>
      simp only [List.length_cons, ih, Option.isSome_none, Bool.false_eq_true, if_false]
      omega
    | some r =>
      simp only [List.length_cons, ih, Option.isSome_some, if_true]
      omega

/-- A definition for each that is given, and one for each reply. -/
theorem size_eq (defs : List (MessageDefinition τ)) :
    size defs = numTypes defs + defs.countP (·.hasReply) := by
  rw [size, messageDefsTuple, length_expandReplies, length_autoAssignIDs,
    countP_hasReply_autoAssignIDs, numTypes]

/-- The payload types of the registry, as they are given. -/
theorem payloadTypes_eq (defs : List (MessageDefinition τ)) :
    payloadTypes defs = defs.flatMap fun d => d.payload :: d.reply.toList := by
  have hmap := map_autoAssignIDs (fun d => d.payload :: d.reply.toList) (fun _ _ => rfl) defs
  rw [payloadTypes, messageDefsTuple, expandReplies_eq_flatMap, List.map_flatMap,
    List.flatMap_def, List.flatMap_def, ← hmap]
  refine congrArg List.flatten (List.map_congr_left ?_)
  intro d _
  cases d.reply <;> rfl

/-! ### `get_type_index` -/

theorem isRegistered_iff (defs : List (MessageDefinition τ)) (t : τ) :
    IsRegistered defs t ↔ t ∈ payloadTypes defs := by
  rw [IsRegistered, payloadTypes, List.mem_map]

theorem getElem?_front {α : Type} (front after : List α) (a : α) {i : Nat}
    (h : i ≤ front.length) : (front ++ a :: after)[i]? = (front ++ [a])[i]? := by
  rw [← List.singleton_append (l := after), ← List.append_assoc, List.getElem?_append_left]
  rw [List.length_append, List.length_singleton]
  omega

section
variable [DecidableEq τ]

/-- The position counts the other types. -/
theorem foldl_typeIndexStep_snd (t : τ) (types : List τ) (s : Nat × Nat) :
    (types.foldl (typeIndexStep t) s).2 = s.2 + types.countP (· ≠ t) := by
  induction types generalizing s with
  | nil => rfl
  | cons type rest ih =>
    rw [List.foldl_cons, ih, List.countP_cons, typeIndexStep]
    by_cases heq : t = type
    · simp [heq]
    · have hne : type ≠ t := fun h => heq h.symm
      simp [heq, hne]
      omega

theorem foldl_typeIndexStep_of_not_mem {t : τ} {types : List τ} (h : t ∉ types) (s : Nat × Nat) :
    (types.foldl (typeIndexStep t) s).1 = s.1 := by
  induction types generalizing s with
  | nil => rfl
  | cons type rest ih =>
    rw [List.mem_cons, not_or] at h
    rw [List.foldl_cons, ih h.2, typeIndexStep, if_neg h.1]

/-- The index is the number of the other types in front of the last one that matches. -/
theorem getTypeIndex_of_last {defs : List (MessageDefinition τ)} {t : τ} {front after : List τ}
    (h : payloadTypes defs = front ++ t :: after) (hafter : t ∉ after) :
    getTypeIndex defs t = front.countP (· ≠ t) := by
  rw [getTypeIndex, h, List.foldl_append, List.foldl_cons, foldl_typeIndexStep_of_not_mem hafter,
    typeIndexStep, if_pos rfl, foldl_typeIndexStep_snd, Nat.zero_add]

theorem exists_last {t : τ} {types : List τ} (h : t ∈ types) :
    ∃ front after, types = front ++ t :: after ∧ t ∉ after := by
  induction types with
  | nil => cases h
  | cons type rest ih =>
    by_cases hrest : t ∈ rest
    · obtain ⟨front, after, heq, hafter⟩ := ih hrest
      exact ⟨type :: front, after, by rw [heq, List.cons_append], hafter⟩
    · obtain rfl : t = type := (List.mem_cons.mp h).resolve_right hrest
      exact ⟨[], rest, rfl, hrest⟩

/-- Some `t` of the list has as many `t` in front of it as there are other types between it and the
last `t`. -/
def Balances (types : List τ) (t : τ) : Prop :=
  ∃ (front after : List τ) (i : Nat), types = front ++ t :: after ∧ t ∉ after ∧
    (front ++ [t])[i]? = some t ∧ (front.take i).count t = (front.drop i).countP (· ≠ t)

/-- The number of the other types is the position of such a `t`. -/
theorem countP_ne_eq_iff {front : List τ} {t : τ} {i : Nat} (hi : i ≤ front.length) :
    front.countP (· ≠ t) = i ↔ (front.take i).count t = (front.drop i).countP (· ≠ t) := by
  have hsplit : front.countP (· ≠ t)
      = (front.take i).countP (· ≠ t) + (front.drop i).countP (· ≠ t) := by
    rw [← List.countP_append, List.take_append_drop]
  have hlen : (front.take i).length = i := by
    rw [List.length_take, Nat.min_eq_left hi]
  have hcount := List.length_eq_countP_add_countP (l := front.take i) (· == t)
  have hne : (front.take i).countP (fun x => decide ¬ (x == t) = true)
      = (front.take i).countP (· ≠ t) := by
    simp only [beq_iff_eq, ne_eq]
  rw [hlen, hne] at hcount
  rw [List.count, hsplit]
  omega

/-- The type at the index of `t` is `t`, if it is registered. If not, the index is no position. -/
def TypeIndexRight (defs : List (MessageDefinition τ)) (t : τ) : Prop :=
  (IsRegistered defs t → typeAt defs (getTypeIndex defs t) = some t) ∧
    (¬ IsRegistered defs t → size defs ≤ getTypeIndex defs t)

theorem typeAt_getTypeIndex_iff {defs : List (MessageDefinition τ)} {t : τ}
    (h : IsRegistered defs t) :
    typeAt defs (getTypeIndex defs t) = some t ↔ Balances (payloadTypes defs) t := by
  constructor
  · intro hat
    obtain ⟨front, after, heq, hafter⟩ := exists_last ((isRegistered_iff defs t).mp h)
    have hle : front.countP (· ≠ t) ≤ front.length := List.countP_le_length
    rw [getTypeIndex_of_last heq hafter, typeAt, heq, getElem?_front front after t hle] at hat
    exact ⟨front, after, front.countP (· ≠ t), heq, hafter, hat, (countP_ne_eq_iff hle).mp rfl⟩
  · rintro ⟨front, after, i, heq, hafter, hi, hcount⟩
    have hlt := (List.getElem?_eq_some_iff.mp hi).1
    rw [List.length_append, List.length_singleton] at hlt
    have hle : i ≤ front.length := by omega
    rw [getTypeIndex_of_last heq hafter, (countP_ne_eq_iff hle).mpr hcount, typeAt, heq,
      getElem?_front front after t hle]
    exact hi

theorem getTypeIndex_of_not_registered {defs : List (MessageDefinition τ)} {t : τ}
    (h : ¬ IsRegistered defs t) : getTypeIndex defs t = numTypes defs := by
  rw [isRegistered_iff] at h
  rw [getTypeIndex, foldl_typeIndexStep_of_not_mem h]

/-- **The index of a type.** Take any registry and any payload type. The index of the type is its
position, or no position if it is not registered, exactly when, if it is registered, some occurrence
of it has as many of it in front as there are other types between it and the last occurrence, and,
if it is not, no definition has a reply. -/
theorem typeIndexRight_iff (defs : List (MessageDefinition τ)) (t : τ) :
    TypeIndexRight defs t ↔ (IsRegistered defs t → Balances (payloadTypes defs) t) ∧
      (¬ IsRegistered defs t → ∀ d ∈ defs, d.hasReply = false) := by
  refine and_congr ?_ ?_
  · exact forall_congr' fun h => typeAt_getTypeIndex_iff h
  · refine forall_congr' fun h => ?_
    rw [getTypeIndex_of_not_registered h, size_eq]
    have hzero : (numTypes defs + defs.countP (·.hasReply) ≤ numTypes defs) ↔
        defs.countP (·.hasReply) = 0 := by omega
    rw [hzero, List.countP_eq_zero]
    simp

end

/-- Three kinds of data. The first and the last have the same payload type. -/
def typeTwice : List (MessageDefinition Nat) :=
  [⟨0, MessagePrefix.UserDefined, UserSubPrefix.Data, 0, none⟩,
    ⟨1, MessagePrefix.UserDefined, UserSubPrefix.Data, 0, none⟩,
    ⟨0, MessagePrefix.UserDefined, UserSubPrefix.Data, 0, none⟩]

/-- A command with a reply. -/
def oneCommand : List (MessageDefinition Nat) :=
  [⟨0, MessagePrefix.UserDefined, UserSubPrefix.Commands, 0, some 1⟩]

/-- The index of a type that comes twice is that of another one, and the index of a type that is not
registered is that of a reply. -/
theorem index_of_other_type :
    ¬ TypeIndexRight typeTwice 0 ∧ typeAt typeTwice (getTypeIndex typeTwice 0) = some 1 ∧
      ¬ TypeIndexRight oneCommand 2 ∧ typeAt oneCommand (getTypeIndex oneCommand 2) = some 1 := by
  refine ⟨?_, by decide, ?_, by decide⟩
  · intro h
    exact absurd (h.1 (by decide)) (by decide)
  · intro h
    exact absurd (h.2 (by decide)) (by decide)

/-! ### Requests and replies -/

/-- The definitions have ids of their own, and none in the range of replies. -/
def InRange (defs : List (MessageDefinition τ)) : Prop :=
  ∀ d ∈ defs, 0 < d.localId.toNat ∧ d.localId.toNat ≤ MAX_MESSAGE_ID.toNat

/-- The reply to a request. -/
def ReplyTo (q p : MessageDefinition τ) : Prop :=
  ∃ r, q.reply = some r ∧ p = q.replyMessageDef r

/-- The filters find each request and each reply, in the same order. -/
structure PairsUp (defs : List (MessageDefinition τ)) : Prop where
  length_eq : (filterRequests defs).length = (filterReplies defs).length
  paired : ∀ (i : Nat) (q p : MessageDefinition τ), (filterRequests defs)[i]? = some q →
    (filterReplies defs)[i]? = some p →
    ReplyTo q p ∧ p.SameCategory q ∧ p.requestId = q.localId
  disjoint : ∀ d ∈ filterRequests defs, d ∉ filterReplies defs
  size_eq : size defs = numTypes defs + (filterRequests defs).length

theorem isReply_iff_toNat (d : MessageDefinition τ) : IsReply d ↔ 0x7FFF < d.localId.toNat := by
  rw [IsReply, UInt16.lt_iff_toNat_lt]
  exact Iff.rfl

theorem not_isRequest_replyMessageDef (d : MessageDefinition τ) (r : τ) :
    ¬ IsRequest (d.replyMessageDef r) := Bool.false_ne_true

/-- The requests are those of the list, and a reply is none. -/
theorem filter_isRequest_expandReplies (defs : List (MessageDefinition τ)) :
    (expandReplies defs).filter (IsRequest ·) = defs.filter (IsRequest ·) := by
  induction defs with
  | nil => rfl
  | cons d rest ih =>
    rw [expandReplies]
    cases hreply : d.reply with
    | none =>
      show (d :: expandReplies rest).filter _ = _
      rw [List.filter_cons, List.filter_cons, ih]
    | some r =>
      have hreq : IsRequest d := by rw [IsRequest, hasReply, hreply, Option.isSome_some]
      show (d :: d.replyMessageDef r :: expandReplies rest).filter _ = _
      rw [List.filter_cons, if_pos (by simpa using hreq), List.filter_cons,
        if_neg (by simpa using not_isRequest_replyMessageDef d r), ih, List.filter_cons,
        if_pos (by simpa using hreq)]

/-- Behind each request, its reply is the next one that the other filter finds. -/
theorem forall₂_replyTo {defs : List (MessageDefinition τ)} (h : InRange defs) :
    List.Forall₂ ReplyTo (defs.filter (IsRequest ·))
      ((expandReplies defs).filter (IsReply ·)) := by
  have hmax : MAX_MESSAGE_ID.toNat = 0x7FFF := rfl
  induction defs with
  | nil => exact .nil
  | cons d rest ih =>
    obtain ⟨hpos, hle⟩ := h d (by simp)
    have hown : ¬ IsReply d := by
      rw [isReply_iff_toNat]
      omega
    have hrest := ih fun e he => h e (List.mem_cons_of_mem _ he)
    rw [expandReplies]
    cases hreply : d.reply with
    | none =>
      have hreq : ¬ IsRequest d := by simp [IsRequest, hasReply, hreply]
      show List.Forall₂ ReplyTo _ ((d :: expandReplies rest).filter _)
      rw [List.filter_cons, if_neg (by simpa using hreq), List.filter_cons,
        if_neg (by simpa using hown)]
      exact hrest
    | some r =>
      have hreq : IsRequest d := by rw [IsRequest, hasReply, hreply, Option.isSome_some]
      have hid := (replyMessageDef_ids (d := d) r hpos (by omega)).1
      have hfound : IsReply (d.replyMessageDef r) := by
        rw [isReply_iff_toNat]
        omega
      show List.Forall₂ ReplyTo _ ((d :: d.replyMessageDef r :: expandReplies rest).filter _)
      rw [List.filter_cons, if_pos (by simpa using hreq), List.filter_cons,
        if_neg (by simpa using hown), List.filter_cons, if_pos (by simpa using hfound)]
      exact .cons ⟨r, hreply, rfl⟩ hrest

/-- **Requests and replies.** Take a registry whose definitions have ids in 1 to `MAX_MESSAGE_ID`
after `AutoAssignIDs`. The filters for requests and for replies have the same length, the i-th reply
is that to the i-th request, no definition is in both, and the registry has one definition more for
each request. -/
theorem pairsUp (defs : List (MessageDefinition τ)) (h : InRange (autoAssignIDs defs)) :
    PairsUp defs := by
  have hmax : MAX_MESSAGE_ID.toNat = 0x7FFF := rfl
  have hrequests : filterRequests defs = (autoAssignIDs defs).filter (IsRequest ·) := by
    rw [filterRequests, messageDefsTuple, filter_isRequest_expandReplies]
  have hpairs : List.Forall₂ ReplyTo (filterRequests defs) (filterReplies defs) := by
    rw [hrequests]
    exact forall₂_replyTo h
  have hrange : InRange (filterRequests defs) := by
    intro d hd
    rw [hrequests] at hd
    exact h d (List.mem_filter.mp hd).1
  refine ⟨hpairs.length_eq, ?_, ?_, ?_⟩
  · intro i q p hq hp
    obtain ⟨hi, rfl⟩ := List.getElem?_eq_some_iff.mp hq
    obtain ⟨hj, rfl⟩ := List.getElem?_eq_some_iff.mp hp
    have hreply : ReplyTo (filterRequests defs)[i] (filterReplies defs)[i] :=
      (List.forall₂_iff_get.mp hpairs).2 i hi hj
    obtain ⟨hpos, hle⟩ := hrange _ (List.getElem_mem hi)
    obtain ⟨r, hr, heq⟩ := hreply
    refine ⟨⟨r, hr, heq⟩, ?_, ?_⟩
    · rw [heq]
      exact ⟨rfl, rfl⟩
    · rw [heq]
      exact (replyMessageDef_ids r hpos (by omega)).2
  · intro d hd hd'
    obtain ⟨-, hle⟩ := hrange d hd
    have hreply : IsReply d := by simpa using (List.mem_filter.mp hd').2
    rw [isReply_iff_toNat] at hreply
    omega
  · have hcount : (filterRequests defs).length = defs.countP (·.hasReply) := by
      rw [hrequests, ← List.countP_eq_length_filter, ← countP_hasReply_autoAssignIDs]
      exact List.countP_congr fun d _ => decide_eq_true_iff
    rw [size_eq, hcount]

theorem pairsUp_mixedDefs : PairsUp mixedDefs ∧ (filterReplies mixedDefs).length = 1 :=
  ⟨pairsUp mixedDefs (by unfold InRange; decide), by decide⟩

end MessageRegistry

end CoreRaT.Spec
