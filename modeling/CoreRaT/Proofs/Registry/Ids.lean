import Mathlib.Data.List.Nodup
import CoreRaT.Spec.MessageRegistry

/-!
# `CoreRaT.Proofs.Registry.Ids`: the ids of a registry

`AutoAssignIDs` looks at the ids that it has given so far. What it gives can be read off the list of
definitions as well: `count` goes through the definitions in front of one, adds one for each
automatic id and goes up to each manual one. `Numbers` says that an automatic definition gets the
next number, as long as the numbers below 0x8000 last, and 0x8000 from then on.

Nothing checks that the ids differ. `messageIds_nodup_iff` says for which lists they do. The four
conditions of `CollisionFree` are the four ways in which two ids can meet: two manual ids, a manual
id behind the automatic definition that has its number already, a manual id that is the id of a
reply, and the id 0x8000.
-/

set_option autoImplicit false

namespace CoreRaT.Spec

open MessageDefinition

variable {τ : Type}

/-! ### The 32-bit id -/

theorem toNat_makeMessageId (p s : UInt8) (id : UInt16) :
    (makeMessageId p s id).toNat = p.toNat * 2 ^ 24 + s.toNat * 2 ^ 16 + id.toNat := by
  have hp := p.toNat_lt
  have hs := s.toNat_lt
  have hid := id.toNat_lt
  have hp' : (p.toUInt32 <<< 24).toNat = p.toNat * 2 ^ 24 := by
    rw [UInt32.toNat_shiftLeft, Nat.shiftLeft_eq]
    simp
    omega
  have hs' : (s.toUInt32 <<< 16).toNat = s.toNat * 2 ^ 16 := by
    rw [UInt32.toNat_shiftLeft, Nat.shiftLeft_eq]
    simp
    omega
  have hhigh : p.toNat * 2 ^ 24 ||| s.toNat * 2 ^ 16 = p.toNat * 2 ^ 24 + s.toNat * 2 ^ 16 := by
    rw [← Nat.shiftLeft_eq, ← Nat.shiftLeft_add_eq_or_of_lt (by omega)]
  have hlow : p.toNat * 2 ^ 24 + s.toNat * 2 ^ 16 ||| id.toNat
      = p.toNat * 2 ^ 24 + s.toNat * 2 ^ 16 + id.toNat := by
    have hshift : p.toNat * 2 ^ 24 + s.toNat * 2 ^ 16 = (p.toNat * 2 ^ 8 + s.toNat) <<< 16 := by
      rw [Nat.shiftLeft_eq]
      omega
    rw [hshift, ← Nat.shiftLeft_add_eq_or_of_lt (by omega)]
  simp only [makeMessageId, UInt32.toNat_or, hp', hs', hhigh, UInt16.toNat_toUInt32, hlow]

/-- Two definitions of one category: the same prefix and the same subprefix. -/
def MessageDefinition.SameCategory (d e : MessageDefinition τ) : Prop :=
  d.msgPrefix = e.msgPrefix ∧ d.subprefix = e.subprefix

instance (d e : MessageDefinition τ) : Decidable (d.SameCategory e) :=
  inferInstanceAs (Decidable (_ ∧ _))

/-- The id says the category and the local id. -/
theorem makeMessageId_inj (d e : MessageDefinition τ) (a b : UInt16) :
    makeMessageId d.msgPrefix d.subprefix a = makeMessageId e.msgPrefix e.subprefix b ↔
      d.SameCategory e ∧ a = b := by
  have hs := d.subprefix.toNat_lt
  have hs' := e.subprefix.toNat_lt
  have ha := a.toNat_lt
  have hb := b.toNat_lt
  simp only [SameCategory, ← UInt32.toNat_inj, ← UInt8.toNat_inj, ← UInt16.toNat_inj,
    toNat_makeMessageId]
  omega

/-! ### Reply ids -/

/-- An id that is negative as an `int16_t`. -/
theorem toInt16_neg_iff (id : UInt16) : id.toInt16 < 0 ↔ 0x8000 ≤ id.toNat := by
  have hlt := id.toBitVec.isLt
  rw [Int16.lt_iff_toInt_lt]
  show id.toBitVec.toInt < 0 ↔ 0x8000 ≤ id.toBitVec.toNat
  rw [BitVec.toInt_eq_toNat_cond]
  split <;> omega

theorem isReply_iff (d : MessageDefinition τ) :
    d.isReply = true ↔ d.hasReply = false ∧ 0x8000 ≤ d.localId.toNat := by
  have hzero : d.localId ≠ 0 ↔ d.localId.toNat ≠ 0 := not_congr (UInt16.toNat_inj (b := 0)).symm
  simp only [isReply, hasReply, Bool.and_eq_true, bne_iff_ne, decide_eq_true_eq, toInt16_neg_iff,
    hzero, Option.isNone_iff_eq_none, Option.isSome_eq_false_iff]
  constructor
  · rintro ⟨⟨hnone, -⟩, hge⟩
    exact ⟨hnone, hge⟩
  · rintro ⟨hnone, hge⟩
    exact ⟨⟨hnone, by omega⟩, hge⟩

/-- The id of a request that has one is below 0x8000. -/
theorem MessageDefinition.Asserted.localId_lt {d : MessageDefinition τ} (h : d.Asserted)
    (hreply : d.hasReply = true) : d.localId.toNat < 0x8000 := by
  obtain ⟨-, -, hnonneg⟩ := h hreply
  by_contra hge
  exact absurd ((toInt16_neg_iff d.localId).mpr (by omega)) (Int16.not_lt.mpr hnonneg)

/-- The ids of a reply, from that of its request. -/
theorem replyMessageDef_ids {d : MessageDefinition τ} (r : τ) (hpos : 0 < d.localId.toNat)
    (hlt : d.localId.toNat < 0x8000) :
    (d.replyMessageDef r).localId.toNat = 0x10000 - d.localId.toNat ∧
      (d.replyMessageDef r).requestId = d.localId := by
  have hneg : (d.replyMessageDef r).localId.toNat = 0x10000 - d.localId.toNat := by
    show (-d.localId).toNat = _
    rw [UInt16.toNat_neg]
    simp only [UInt16.size]
    omega
  have hreply : (d.replyMessageDef r).isReply = true :=
    (isReply_iff _).mpr ⟨rfl, by omega⟩
  refine ⟨hneg, ?_⟩
  rw [requestId, hreply, if_pos rfl]
  show - -d.localId = d.localId
  exact UInt16.neg_neg

namespace MessageRegistry

/-! ### Counting -/

/-- One definition of the count for the category of `c`: an automatic id is the next number, and a
manual id below 0x8000 is a number to go on from. -/
def countStep (c : MessageDefinition τ) (n : Nat) (e : MessageDefinition τ) : Nat :=
  if e.SameCategory c then
    if e.needsAutoId then n + 1
    else if e.localId.toNat < 0x8000 then max n e.localId.toNat
    else n
  else n

/-- The number that the definitions in front of `c` have come to, in its category. -/
def count (earlier : List (MessageDefinition τ)) (c : MessageDefinition τ) : Nat :=
  earlier.foldl (countStep c) 0

/-- The number of a definition. From 0x8000 on, all automatic definitions have the same. -/
def number (earlier : List (MessageDefinition τ)) (d : MessageDefinition τ) : Nat :=
  if d.needsAutoId then min (count earlier d + 1) 0x8000 else d.localId.toNat

/-- The definition with its number. -/
def withNumber (earlier : List (MessageDefinition τ)) (d : MessageDefinition τ) :
    MessageDefinition τ :=
  { d with localId := UInt16.ofNat (number earlier d) }

theorem count_append (earlier : List (MessageDefinition τ)) (d c : MessageDefinition τ) :
    count (earlier ++ [d]) c = countStep c (count earlier c) d := by
  simp [count]

/-- The count is one of a category. -/
theorem count_congr (earlier : List (MessageDefinition τ)) {c c' : MessageDefinition τ}
    (h : c.SameCategory c') : count earlier c = count earlier c' := by
  have hstep : countStep c = countStep c' := by
    funext n e
    have hiff : e.SameCategory c ↔ e.SameCategory c' := by
      unfold SameCategory at *
      rw [h.1, h.2]
    simp only [countStep, hiff]
  rw [count, count, hstep]

theorem number_lt (earlier : List (MessageDefinition τ)) (d : MessageDefinition τ) :
    number earlier d < 2 ^ 16 := by
  have := d.localId.toNat_lt
  unfold number
  split <;> omega

@[simp] theorem toNat_localId_withNumber (earlier : List (MessageDefinition τ))
    (d : MessageDefinition τ) : (withNumber earlier d).localId.toNat = number earlier d := by
  have := number_lt earlier d
  simp only [withNumber, UInt16.toNat_ofNat']
  omega

@[simp] theorem hasReply_withNumber (earlier : List (MessageDefinition τ))
    (d : MessageDefinition τ) : (withNumber earlier d).hasReply = d.hasReply := rfl

/-- The ids that have been given come to what has been counted. -/
def Counts (processed earlier : List (MessageDefinition τ)) : Prop :=
  ∀ c, (highestID processed c).toNat = min (count earlier c) 0x7FFF

theorem highestID_append (processed : List (MessageDefinition τ)) (p d : MessageDefinition τ) :
    highestID (processed ++ [p]) d
      = if p.SameCategory d ∧ p.isReply = false ∧ highestID processed d < p.localId then p.localId
        else highestID processed d := by
  simp only [highestID, List.foldl_append, List.foldl_cons, List.foldl_nil, SameCategory,
    and_assoc]

namespace Counts

variable {processed earlier : List (MessageDefinition τ)}

/-- An automatic definition gets its number. -/
theorem currentProcessed (h : Counts processed earlier) (d : MessageDefinition τ) :
    currentProcessed processed d = withNumber earlier d := by
  unfold MessageRegistry.currentProcessed withNumber number
  split
  · have hid : highestID processed d + 1 = UInt16.ofNat (min (count earlier d + 1) 0x8000) := by
      have hd := h d
      rw [← UInt16.toNat_inj, UInt16.toNat_add, UInt16.toNat_ofNat', hd]
      simp only [UInt16.toNat_one]
      omega
    rw [hid]
  · rw [UInt16.ofNat_toNat]

/-- The next definition. The number of a request has to be below 0x8000. -/
theorem snoc (h : Counts processed earlier) {d : MessageDefinition τ}
    (hbelow : d.hasReply = true → number earlier d < 0x8000) :
    Counts (processed ++ [withNumber earlier d]) (earlier ++ [d]) := by
  intro c
  rw [highestID_append, count_append, countStep]
  have hc := h c
  have hsame : (withNumber earlier d).SameCategory c ↔ d.SameCategory c := Iff.rfl
  by_cases hcat : d.SameCategory c
  · have hlt : highestID processed c < (withNumber earlier d).localId ↔
        (highestID processed c).toNat < number earlier d := by
      rw [UInt16.lt_iff_toNat_lt, toNat_localId_withNumber]
    -- A request has an id below 0x8000, so only definitions without a reply are passed over.
    have hreply : (withNumber earlier d).isReply = false ↔ number earlier d < 0x8000 := by
      have hiff := isReply_iff (withNumber earlier d)
      rw [toNat_localId_withNumber] at hiff
      rw [← Bool.not_eq_true, hiff, hasReply_withNumber]
      cases hhas : d.hasReply with
      | false => simp
      | true => simp [hbelow hhas]
    have hnumber : number earlier d
        = if d.needsAutoId then min (count earlier c + 1) 0x8000 else d.localId.toNat := by
      rw [number, count_congr earlier hcat]
    rw [if_pos hcat]
    simp only [hsame, hcat, hreply, hlt, true_and, apply_ite UInt16.toNat,
      toNat_localId_withNumber, hc, hnumber]
    cases d.needsAutoId with
    | false =>
      simp only [Bool.false_eq_true, if_false]
      split <;> split <;> omega
    | true =>
      simp only [if_true]
      split <;> omega
  · rw [if_neg (fun hcond => hcat (hsame.mp hcond.1)), if_neg hcat, hc]

end Counts

/-- The definitions with their numbers. -/
def numbered : (earlier : List (MessageDefinition τ)) → List (MessageDefinition τ) →
    List (MessageDefinition τ)
  | _, [] => []
  | earlier, d :: rest => withNumber earlier d :: numbered (earlier ++ [d]) rest

theorem getElem?_numbered (earlier defs : List (MessageDefinition τ)) (i : Nat) :
    (numbered earlier defs)[i]? = defs[i]?.map (withNumber (earlier ++ defs.take i)) := by
  induction defs generalizing earlier i with
  | nil => simp [numbered]
  | cons d rest ih =>
    cases i with
    | zero => simp [numbered]
    | succ i => simp [numbered, ih]

/-- What `AutoAssignIDs` makes of definitions, when a request that gets its number gets one below
0x8000. -/
theorem autoAssignIDsProcess_eq {processed earlier : List (MessageDefinition τ)}
    (h : Counts processed earlier) {defs : List (MessageDefinition τ)}
    (hbelow : ∀ (i : Nat) (d : MessageDefinition τ), defs[i]? = some d →
      (autoAssignIDsProcess processed defs)[i]?
        = some (withNumber (earlier ++ defs.take i) d) →
      d.hasReply = true → number (earlier ++ defs.take i) d < 0x8000) :
    autoAssignIDsProcess processed defs = numbered earlier defs := by
  induction defs generalizing processed earlier with
  | nil => rfl
  | cons d rest ih =>
    rw [autoAssignIDsProcess, h.currentProcessed d] at hbelow ⊢
    have hd : d.hasReply = true → number earlier d < 0x8000 := by
      intro hreply
      have hfirst := hbelow 0 d rfl (by simp) hreply
      simpa using hfirst
    rw [numbered, ih (h.snoc hd)]
    intro i e he hget hreply
    have hlater := hbelow (i + 1) e (by simpa using he) (by simpa using hget) hreply
    simpa using hlater

theorem expandReplies_eq_flatMap (defs : List (MessageDefinition τ)) :
    expandReplies defs = defs.flatMap fun d => d :: (d.reply.map d.replyMessageDef).toList := by
  induction defs with
  | nil => rfl
  | cons d rest ih =>
    rw [expandReplies, List.flatMap_cons, ih]
    cases d.reply <;> rfl

/-- The ids are the numbers, and those of requests are below 0x8000. -/
structure Numbers (defs : List (MessageDefinition τ)) : Prop where
  eq : autoAssignIDs defs = numbered [] defs
  request_lt : ∀ (i : Nat) (d : MessageDefinition τ), defs[i]? = some d → d.hasReply = true →
    number (defs.take i) d < 0x8000

namespace Numbers

variable {defs : List (MessageDefinition τ)}

theorem getElem? (h : Numbers defs) (i : Nat) :
    (autoAssignIDs defs)[i]? = defs[i]?.map (withNumber (defs.take i)) := by
  rw [h.eq, getElem?_numbered, List.nil_append]

theorem of_below (h : ∀ (i : Nat) (d : MessageDefinition τ), defs[i]? = some d →
    (autoAssignIDs defs)[i]? = some (withNumber (defs.take i) d) → d.hasReply = true →
    number (defs.take i) d < 0x8000) : Numbers defs := by
  have heq : autoAssignIDs defs = numbered [] defs := by
    refine autoAssignIDsProcess_eq (fun _ => rfl) ?_
    intro i d hd hget
    rw [List.nil_append] at hget ⊢
    exact h i d hd hget
  refine ⟨heq, ?_⟩
  intro i d hd hreply
  refine h i d hd ?_ hreply
  rw [heq, getElem?_numbered, hd, List.nil_append, Option.map_some]

end Numbers

namespace Accepted

variable {defs : List (MessageDefinition τ)}

theorem asserted (h : Accepted defs) : ∀ d ∈ autoAssignIDs defs, d.Asserted := by
  intro d hd
  refine h.expanded d ?_
  rw [messageDefsTuple, expandReplies_eq_flatMap, List.mem_flatMap]
  exact ⟨d, hd, by simp⟩

/-- An automatic definition gets the next number of its category. -/
theorem numbers (h : Accepted defs) : Numbers defs := by
  refine .of_below ?_
  intro i d _ hget hreply
  have hlt := (h.asserted _ (List.mem_of_getElem? hget)).localId_lt hreply
  rwa [toNat_localId_withNumber] at hlt

end Accepted

/-! ### Where two ids meet -/

/-- The ids of a definition and of its reply. -/
def idsOf (d : MessageDefinition τ) : List UInt32 :=
  d.messageId :: (d.reply.map fun r => (d.replyMessageDef r).messageId).toList

/-- Two definitions share an id: their own, or that of a reply. -/
def Clash (d e : MessageDefinition τ) : Prop :=
  d.SameCategory e ∧ (d.localId = e.localId ∨ (d.hasReply = true ∧ -d.localId = e.localId) ∨
    (e.hasReply = true ∧ -e.localId = d.localId))

theorem messageIds_eq_flatMap (defs : List (MessageDefinition τ)) :
    messageIds defs = (autoAssignIDs defs).flatMap idsOf := by
  rw [messageIds, messageDefsTuple, expandReplies_eq_flatMap, List.map_flatMap]
  refine List.flatMap_congr ?_
  intro d _
  rw [idsOf]
  cases d.reply <;> rfl

theorem mem_idsOf {d : MessageDefinition τ} {x : UInt32} :
    x ∈ idsOf d ↔ x = makeMessageId d.msgPrefix d.subprefix d.localId ∨
      (d.hasReply = true ∧ x = makeMessageId d.msgPrefix d.subprefix (-d.localId)) := by
  rw [idsOf, hasReply]
  cases d.reply with
  | none => simp [messageId]
  | some r => simp [messageId, replyMessageDef]

theorem disjoint_idsOf_iff (d e : MessageDefinition τ) :
    List.Disjoint (idsOf d) (idsOf e) ↔ ¬ Clash d e := by
  constructor
  · rintro hdisjoint ⟨hcat, heq | ⟨hreply, heq⟩ | ⟨hreply, heq⟩⟩
    · exact hdisjoint (mem_idsOf.mpr (Or.inl rfl))
        (mem_idsOf.mpr (Or.inl ((makeMessageId_inj d e _ _).mpr ⟨hcat, heq⟩)))
    · exact hdisjoint (mem_idsOf.mpr (Or.inr ⟨hreply, rfl⟩))
        (mem_idsOf.mpr (Or.inl ((makeMessageId_inj d e _ _).mpr ⟨hcat, heq⟩)))
    · exact hdisjoint (mem_idsOf.mpr (Or.inl rfl))
        (mem_idsOf.mpr (Or.inr ⟨hreply, (makeMessageId_inj d e _ _).mpr ⟨hcat, heq.symm⟩⟩))
  · intro hno x hx hx'
    rcases mem_idsOf.mp hx with hd | ⟨hreply, hd⟩
    · rcases mem_idsOf.mp hx' with he | ⟨hreply', he⟩
      · obtain ⟨hcat, heq⟩ := (makeMessageId_inj d e _ _).mp (hd.symm.trans he)
        exact hno ⟨hcat, Or.inl heq⟩
      · obtain ⟨hcat, heq⟩ := (makeMessageId_inj d e _ _).mp (hd.symm.trans he)
        exact hno ⟨hcat, Or.inr (Or.inr ⟨hreply', heq.symm⟩)⟩
    · rcases mem_idsOf.mp hx' with he | ⟨-, he⟩
      · obtain ⟨hcat, heq⟩ := (makeMessageId_inj d e _ _).mp (hd.symm.trans he)
        exact hno ⟨hcat, Or.inr (Or.inl ⟨hreply, heq⟩)⟩
      · -- Two replies with one id have requests with one id.
        obtain ⟨hcat, heq⟩ := (makeMessageId_inj d e _ _).mp (hd.symm.trans he)
        exact hno ⟨hcat, Or.inl (UInt16.neg_inj.mp heq)⟩

/-- A request below 0x8000 and its reply have different ids. -/
theorem nodup_idsOf {d : MessageDefinition τ} (hpos : 0 < d.localId.toNat)
    (hbelow : d.hasReply = true → d.localId.toNat < 0x8000) : (idsOf d).Nodup := by
  unfold idsOf
  cases hreply : d.reply with
  | none => simp
  | some r =>
    have hlt := hbelow (by rw [hasReply, hreply]; rfl)
    have hne : d.messageId ≠ (d.replyMessageDef r).messageId := by
      intro heq
      have hneg : d.localId = -d.localId := ((makeMessageId_inj d d _ _).mp heq).2
      rw [← UInt16.toNat_inj, UInt16.toNat_neg] at hneg
      simp only [UInt16.size] at hneg
      omega
    simpa using hne

theorem number_pos (earlier : List (MessageDefinition τ)) (d : MessageDefinition τ) :
    0 < number earlier d := by
  unfold number
  split
  · omega
  · rename_i hmanual
    have hne : d.localId ≠ 0 := by simpa [needsAutoId] using hmanual
    have := mt (UInt16.toNat_inj (b := 0)).mp hne
    simp only [UInt16.toNat_zero] at this
    omega

/-- `Clash`, by the numbers. -/
theorem clash_withNumber_iff (l l' : List (MessageDefinition τ)) (d e : MessageDefinition τ) :
    Clash (withNumber l d) (withNumber l' e) ↔ d.SameCategory e ∧
      (number l d = number l' e ∨
        ((d.hasReply = true ∨ e.hasReply = true) ∧ number l d + number l' e = 0x10000)) := by
  have hd := number_pos l d
  have he := number_pos l' e
  have hd' := number_lt l d
  have he' := number_lt l' e
  have hneg : ∀ a b : UInt16, 0 < a.toNat → (-a = b ↔ a.toNat + b.toNat = 0x10000) := by
    intro a b ha
    have := a.toNat_lt
    have := b.toNat_lt
    rw [← UInt16.toNat_inj, UInt16.toNat_neg]
    simp only [UInt16.size]
    omega
  have hcat : (withNumber l d).SameCategory (withNumber l' e) ↔ d.SameCategory e := Iff.rfl
  rw [Clash, hcat, hneg _ _ (by simpa using hd), hneg _ _ (by simpa using he),
    ← UInt16.toNat_inj]
  simp only [toNat_localId_withNumber, hasReply_withNumber, Nat.add_comm (number l' e),
    or_and_right]

/-- The ids of a registry differ exactly when no two of its definitions share one. -/
theorem Numbers.nodup_iff {defs : List (MessageDefinition τ)} (h : Numbers defs) :
    (messageIds defs).Nodup ↔ ∀ (i j : Nat) (d e : MessageDefinition τ), i < j →
      defs[i]? = some d → defs[j]? = some e →
      ¬ Clash (withNumber (defs.take i) d) (withNumber (defs.take j) e) := by
  have hself : ∀ d ∈ autoAssignIDs defs, (idsOf d).Nodup := by
    intro d hd
    obtain ⟨i, hi⟩ := List.mem_iff_getElem?.mp hd
    rw [h.getElem?, Option.map_eq_some_iff] at hi
    obtain ⟨d', hd', rfl⟩ := hi
    refine nodup_idsOf ?_ ?_
    · rw [toNat_localId_withNumber]
      exact number_pos _ _
    · rw [toNat_localId_withNumber]
      exact h.request_lt i d' hd'
  rw [messageIds_eq_flatMap, List.nodup_flatMap, and_iff_right hself, List.pairwise_iff_getElem]
  constructor
  · intro hpairs i j d e hij hd he
    obtain ⟨hi, hdi⟩ := List.getElem?_eq_some_iff.mp ((h.getElem? i).trans (by rw [hd]; rfl))
    obtain ⟨hj, hej⟩ := List.getElem?_eq_some_iff.mp ((h.getElem? j).trans (by rw [he]; rfl))
    rw [← hdi, ← hej, ← disjoint_idsOf_iff]
    exact hpairs i j hi hj hij
  · intro hpairs i j hi hj hij
    have hdi := (h.getElem? i).symm.trans (List.getElem?_eq_getElem hi)
    have hej := (h.getElem? j).symm.trans (List.getElem?_eq_getElem hj)
    obtain ⟨d, hd, hd'⟩ := Option.map_eq_some_iff.mp hdi
    obtain ⟨e, he, he'⟩ := Option.map_eq_some_iff.mp hej
    show List.Disjoint (idsOf _) (idsOf _)
    rw [← hd', ← he', disjoint_idsOf_iff]
    exact hpairs i j d e hij hd he

/-! ### The exact condition -/

/-- No two ids of the registry meet. Each condition is about two definitions of one category. -/
structure CollisionFree (defs : List (MessageDefinition τ)) : Prop where
  /-- Two manual ids differ. -/
  manual : ∀ (i j : Nat) (d e : MessageDefinition τ), i < j → defs[i]? = some d →
    defs[j]? = some e → d.SameCategory e → d.needsAutoId = false → e.needsAutoId = false →
    d.localId ≠ e.localId
  /-- A manual id is not the number that an automatic definition in front of it has got. -/
  behind : ∀ (i j : Nat) (d e : MessageDefinition τ), i < j → defs[i]? = some d →
    defs[j]? = some e → d.SameCategory e → d.needsAutoId = true → e.needsAutoId = false →
    e.localId.toNat ≠ number (defs.take i) d
  /-- An automatic definition for which no number below 0x8000 is left has no other with the id
  0x8000 in front of it. -/
  exhausted : ∀ (i j : Nat) (d e : MessageDefinition τ), i < j → defs[i]? = some d →
    defs[j]? = some e → d.SameCategory e → e.needsAutoId = true →
    number (defs.take i) d = 0x8000 → count (defs.take j) e < 0x7FFF
  /-- A manual id is not the id of a reply. -/
  reply : ∀ (i j : Nat) (d e : MessageDefinition τ), defs[i]? = some d → defs[j]? = some e →
    d.SameCategory e → d.hasReply = true → e.needsAutoId = false →
    number (defs.take i) d + e.localId.toNat ≠ 0x10000

theorem count_take_succ {defs : List (MessageDefinition τ)} {i : Nat} {d : MessageDefinition τ}
    (hd : defs[i]? = some d) (c : MessageDefinition τ) :
    count (defs.take (i + 1)) c = countStep c (count (defs.take i) c) d := by
  rw [List.take_add_one, hd, Option.toList_some, count_append]

theorem le_countStep (c : MessageDefinition τ) (n : Nat) (e : MessageDefinition τ) :
    n ≤ countStep c n e := by
  unfold countStep
  split
  · split
    · omega
    · split <;> omega
  · omega

/-- The count does not go down. -/
theorem count_take_mono (defs : List (MessageDefinition τ)) (c : MessageDefinition τ) {i j : Nat}
    (h : i ≤ j) : count (defs.take i) c ≤ count (defs.take j) c := by
  induction h with
  | refl => exact Nat.le_refl _
  | @step j _ ih =>
    refine Nat.le_trans ih ?_
    cases hj : defs[j]? with
    | none =>
      have hend : defs.take (j + 1) = defs.take j := by
        rw [List.take_add_one, hj, Option.toList_none, List.append_nil]
      exact Nat.le_of_eq (congrArg (count · c) hend.symm)
    | some e =>
      rw [count_take_succ hj]
      exact le_countStep c _ e

/-- What a definition adds to the count of its category is at least its number, as long as that is
below 0x8000. -/
theorem number_le_count {defs : List (MessageDefinition τ)} {i j : Nat}
    {d e : MessageDefinition τ} (hij : i < j) (hd : defs[i]? = some d) (hcat : d.SameCategory e)
    (hlt : number (defs.take i) d < 0x8000) :
    number (defs.take i) d ≤ count (defs.take j) e := by
  refine Nat.le_trans ?_ (count_take_mono defs e hij)
  rw [count_take_succ hd, countStep, if_pos hcat, ← count_congr _ hcat]
  unfold number at *
  split at hlt
  · rename_i hauto
    rw [if_pos hauto, if_pos hauto]
    omega
  · rename_i hmanual
    rw [if_neg hmanual, if_neg hmanual, if_pos hlt]
    omega

theorem number_of_manual {earlier : List (MessageDefinition τ)} {d : MessageDefinition τ}
    (h : d.needsAutoId = false) : number earlier d = d.localId.toNat := by
  simp [number, h]

theorem number_of_auto {earlier : List (MessageDefinition τ)} {d : MessageDefinition τ}
    (h : d.needsAutoId = true) : number earlier d = min (count earlier d + 1) 0x8000 := by
  simp [number, h]

section
variable {defs : List (MessageDefinition τ)}

theorem CollisionFree.of_nodup (h : Numbers defs) (hnodup : (messageIds defs).Nodup) :
    CollisionFree defs := by
  have hpairs := h.nodup_iff.mp hnodup
  simp only [clash_withNumber_iff] at hpairs
  refine ⟨?_, ?_, ?_, ?_⟩
  · intro i j d e hij hd he hcat hmanual hmanual' heq
    refine hpairs i j d e hij hd he ⟨hcat, Or.inl ?_⟩
    rw [number_of_manual hmanual, number_of_manual hmanual', heq]
  · intro i j d e hij hd he hcat _ hmanual heq
    refine hpairs i j d e hij hd he ⟨hcat, Or.inl ?_⟩
    rw [number_of_manual hmanual, heq]
  · intro i j d e hij hd he hcat hauto hlast
    by_contra hge
    refine hpairs i j d e hij hd he ⟨hcat, Or.inl ?_⟩
    rw [number_of_auto hauto, hlast]
    omega
  · intro i j d e hd he hcat hreply hmanual hsum
    have hlt := h.request_lt i d hd hreply
    rcases Nat.lt_trichotomy i j with hij | rfl | hij
    · refine hpairs i j d e hij hd he ⟨hcat, Or.inr ⟨Or.inl hreply, ?_⟩⟩
      rw [number_of_manual hmanual, hsum]
    · obtain rfl : d = e := Option.some.inj (hd.symm.trans he)
      rw [number_of_manual hmanual] at hlt hsum
      omega
    · refine hpairs j i e d hij he hd ⟨⟨hcat.1.symm, hcat.2.symm⟩, Or.inr ⟨Or.inr hreply, ?_⟩⟩
      rw [number_of_manual hmanual]
      omega

theorem CollisionFree.nodup (hfree : CollisionFree defs) (h : Numbers defs) :
    (messageIds defs).Nodup := by
  rw [h.nodup_iff]
  simp only [clash_withNumber_iff]
  -- An id above 0x8000 is a manual one.
  have hmanual_of_gt : ∀ (i : Nat) (d : MessageDefinition τ), 0x8000 < number (defs.take i) d →
      d.needsAutoId = false := by
    intro i d hgt
    by_contra hauto
    rw [number_of_auto (by simpa using hauto)] at hgt
    omega
  rintro i j d e hij hd he ⟨hcat, heq | ⟨hreply, hsum⟩⟩
  · cases he' : e.needsAutoId with
    | true =>
      have hnumber : number (defs.take j) e = min (count (defs.take j) e + 1) 0x8000 :=
        number_of_auto he'
      by_cases hlt : number (defs.take i) d < 0x8000
      · have := number_le_count hij hd hcat hlt
        omega
      · have := hfree.exhausted i j d e hij hd he hcat he' (by omega)
        omega
    | false =>
      rw [number_of_manual he'] at heq
      cases hd' : d.needsAutoId with
      | true => exact hfree.behind i j d e hij hd he hcat hd' he' heq.symm
      | false =>
        rw [number_of_manual hd'] at heq
        exact hfree.manual i j d e hij hd he hcat hd' he' (UInt16.toNat_inj.mp heq)
  · rcases hreply with hreply | hreply
    · have hlt := h.request_lt i d hd hreply
      have he' := hmanual_of_gt j e (by omega)
      rw [number_of_manual he'] at hsum
      exact hfree.reply i j d e hd he hcat hreply he' hsum
    · have hlt := h.request_lt j e he hreply
      have hd' := hmanual_of_gt i d (by omega)
      rw [number_of_manual hd'] at hsum
      exact hfree.reply j i e d he hd ⟨hcat.1.symm, hcat.2.symm⟩ hreply hd' (by omega)

end

/-- `visit` can select every definition of the registry. -/
def Selectable (defs : List (MessageDefinition τ)) : Prop :=
  ∀ (i : Nat) (d : MessageDefinition τ), (messageDefsTuple defs)[i]? = some d →
    visitIndex defs d.messageId = some i

theorem selectable_of_nodup {defs : List (MessageDefinition τ)} (h : (messageIds defs).Nodup) :
    Selectable defs := by
  intro i d hd
  obtain ⟨hi, rfl⟩ := List.getElem?_eq_some_iff.mp hd
  rw [visitIndex, List.findIdx?_eq_some_iff_getElem]
  refine ⟨hi, by simp, ?_⟩
  intro j hji
  have hne := List.pairwise_iff_getElem.mp (List.pairwise_map.mp h) j i (by omega) hi hji
  simpa using hne

/-- **Unique ids.** Take a registry that compiles. Its ids, replies included, are pairwise distinct,
so that `visit` can select every definition, exactly when its list of definitions is free of the
four kinds of collisions. -/
theorem messageIds_nodup_iff (defs : List (MessageDefinition τ)) (h : Accepted defs) :
    ((messageIds defs).Nodup ∧ Selectable defs) ↔ CollisionFree defs := by
  constructor
  · rintro ⟨hnodup, -⟩
    exact CollisionFree.of_nodup h.numbers hnodup
  · intro hfree
    have hnodup := hfree.nodup h.numbers
    exact ⟨hnodup, selectable_of_nodup hnodup⟩

/-- Two kinds of data, a manual one between them, and a command with a reply. -/
def mixedDefs : List (MessageDefinition Nat) :=
  [⟨0, MessagePrefix.UserDefined, UserSubPrefix.Data, 0, none⟩,
    ⟨1, MessagePrefix.UserDefined, UserSubPrefix.Data, 7, none⟩,
    ⟨2, MessagePrefix.UserDefined, UserSubPrefix.Data, 0, none⟩,
    ⟨3, MessagePrefix.UserDefined, UserSubPrefix.Commands, 0, some 4⟩]

theorem messageIds_nodup_iff_mixedDefs :
    Accepted mixedDefs ∧ messageIds mixedDefs
        = [0x01000001, 0x01000007, 0x01000008, 0x01010001, 0x0101FFFF] ∧
      CollisionFree mixedDefs := by
  have haccepted : Accepted mixedDefs := ⟨by decide, by decide, by decide⟩
  have hnodup : (messageIds mixedDefs).Nodup := by decide
  exact ⟨haccepted, by decide,
    (messageIds_nodup_iff mixedDefs haccepted).mp ⟨hnodup, selectable_of_nodup hnodup⟩⟩

/-- An automatic id, and a manual id 1 behind it. -/
def autoThenManual : List (MessageDefinition Nat) :=
  [⟨0, MessagePrefix.UserDefined, UserSubPrefix.Data, 0, none⟩,
    ⟨1, MessagePrefix.UserDefined, UserSubPrefix.Data, 1, none⟩]

/-- The registry compiles, and both definitions have the id 0x01000001. -/
theorem manual_id_taken_by_automatic :
    Accepted autoThenManual ∧ messageIds autoThenManual = [0x01000001, 0x01000001] ∧
      ¬ ((messageIds autoThenManual).Nodup ∧ Selectable autoThenManual) := by
  have hnot : ¬ (messageIds autoThenManual).Nodup := by decide
  exact ⟨⟨by decide, by decide, by decide⟩, by decide, fun h => hnot h.1⟩

end MessageRegistry

end CoreRaT.Spec
