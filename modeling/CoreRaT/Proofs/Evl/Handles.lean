import Mathlib.Data.List.Perm.Basic
import CoreRaT.Lib.FirstBest
import CoreRaT.Lib.LruList
import CoreRaT.Lib.Run
import CoreRaT.Spec.RemoteHandles

/-!
# `CoreRaT.Proofs.Evl.Handles`: the cache of remote handles

`get_or_open_remote` keeps the use of the handles as numbers in an array. The numbers only grow, so
they order the valid handles, and the array is the list of the destinations in this order
(`Represents`): what the function does to it is `LruList.request`. `isLruMap` has the result for
all sequences of calls.

A failed `open_remote` leaves the cache as it is, but for one case: in a full cache the handle that
was used least recently has been closed before (`closed_for_nothing`). `keepsHandles_iff` is exact.

Both rest on what one call can do: `getOrOpenRemote_cases`.
-/

set_option autoImplicit false

namespace CoreRaT.Spec

open CoreRaT.Lib

namespace HandleCache

variable {α : Type}

/-! ### One call -/

theorem modify_eq_set {β : Type} {l : List β} {i : Nat} {b : β} (h : l[i]? = some b)
    (f : β → β) : l.modify i f = l.set i (f b) := by
  rw [List.modify_eq_set_getElem?, h]
  rfl

/-- The entry `i` is in use from now on, and it has been used last. -/
def use (c : HandleCache α) (i : Nat) (h : RemoteHandle α) : HandleCache α where
  handles := c.handles.set i { h with valid := true, lastUsed := c.lruCounter + 1 }
  lruCounter := c.lruCounter + 1

theorem touch_eq {c : HandleCache α} {i : Nat} {h : RemoteHandle α}
    (hi : c.handles[i]? = some h) (hvalid : h.valid = true) : c.touch i = c.use i h := by
  rw [touch, modify_eq_set hi, use, ← hvalid]

theorem openAt_some {c : HandleCache α} {i : Nat} {h : RemoteHandle α}
    (hi : c.handles[i]? = some h) (dest : MailboxId) (a : α) :
    c.openAt i dest (some a) = (some i, c.use i ⟨dest, some a, true, 0⟩) := by
  have hlt := (List.getElem?_eq_some_iff.mp hi).1
  simp only [openAt, touch, install, use, modify_eq_set hi]
  rw [modify_eq_set (List.getElem?_set_self hlt), List.set_set]

theorem closeRemote_eq {c : HandleCache α} {i : Nat} {h : RemoteHandle α}
    (hi : c.handles[i]? = some h) :
    c.closeRemote i = { c with handles := c.handles.set i (if h.valid then .empty else h) } := by
  rw [closeRemote, modify_eq_set hi]

/-- To close an entry that is not valid does nothing. -/
theorem closeRemote_of_not_valid {c : HandleCache α} {i : Nat} {h : RemoteHandle α}
    (hi : c.handles[i]? = some h) (hvalid : h.valid = false) : c.closeRemote i = c := by
  obtain ⟨hlt, hget⟩ := List.getElem?_eq_some_iff.mp hi
  have hset : c.handles.set i h = c.handles := by rw [← hget, List.set_getElem_self]
  rw [closeRemote_eq hi, hvalid, if_neg Bool.false_ne_true, hset]

theorem lruLoop_eq_scan (hs : List (RemoteHandle α)) (i lru : Nat) (lastUsed : UInt64) :
    some (lruLoop i lru lastUsed hs)
      = (scan (fun _ => true) (· < ·) RemoteHandle.lastUsed i (some lru) lastUsed hs).1 := by
  induction hs generalizing i lru lastUsed with
  | nil => rfl
  | cons h hs ih =>
    rw [lruLoop, scan]
    simp only [true_and]
    split
    · exact ih ..
    · exact ih ..

/-- The entry that was used least recently. -/
theorem handles_lru {c : HandleCache α} (hne : c.handles ≠ []) :
    ∃ h, c.handles[c.lru]? = some h ∧ ∀ h' ∈ c.handles, ¬ h'.lastUsed < h.lastUsed := by
  obtain ⟨first, rest, hhandles⟩ := List.exists_cons_of_ne_nil hne
  have hloop := lruLoop_eq_scan c.handles 0 0 ((c.handles.head?.map (·.lastUsed)).getD 0)
  have hlru : some c.lru
      = some (lruLoop 0 0 ((c.handles.head?.map (·.lastUsed)).getD 0) c.handles) := rfl
  have hhead : (c.handles.head?.map (·.lastUsed)).getD 0 = first.lastUsed := by
    rw [hhandles]
    rfl
  rw [hloop, hhead] at hlru
  rcases scan_cases (fun _ => true) RemoteHandle.lastUsed strict_lt c.handles 0 (some 0)
    first.lastUsed with ⟨heq, hno⟩ | ⟨k, h, heq, -, hbest⟩
  · rw [heq, Option.some.injEq] at hlru
    refine ⟨first, by rw [hlru, hhandles]; rfl, ?_⟩
    intro h' hh'
    exact hno h' hh' rfl
  · rw [heq, Nat.zero_add, Option.some.injEq] at hlru
    refine ⟨h, by rw [hlru, hbest.at_pos], ?_⟩
    intro h' hh'
    exact hbest.best h' hh' rfl

/-- The entry `h` is the one for a new handle: it is not valid, or all are and none was used
before it. -/
def GivesWay (c : HandleCache α) (h : RemoteHandle α) : Prop :=
  h.valid = false ∨
    ((∀ h' ∈ c.handles, h'.valid = true) ∧ ∀ h' ∈ c.handles, ¬ h'.lastUsed < h.lastUsed)

variable {c : HandleCache α} {dest : MailboxId}

theorem hit_eq_some {i : Nat} (h : c.hit dest = some i) :
    ∃ e, c.handles[i]? = some e ∧ e.valid = true ∧ e.destId = dest := by
  obtain ⟨hlt, hvalid, -⟩ := List.findIdx?_eq_some_iff_getElem.mp h
  rw [Bool.and_eq_true, beq_iff_eq] at hvalid
  exact ⟨c.handles[i], List.getElem?_eq_getElem hlt, hvalid⟩

theorem hit_eq_none : c.hit dest = none ↔ ∀ h ∈ c.handles, h.valid = true → h.destId ≠ dest := by
  rw [hit, List.findIdx?_eq_none_iff]
  simp

/-- A hit: the handle has been used last. -/
theorem getOrOpenRemote_hit {i : Nat} (h : c.hit dest = some i) (opened : Option α) :
    ∃ e, c.handles[i]? = some e ∧ e.valid = true ∧ e.destId = dest ∧
      c.getOrOpenRemote dest opened = (some i, c.use i e) := by
  obtain ⟨e, hi, hvalid, hdest⟩ := hit_eq_some h
  refine ⟨e, hi, hvalid, hdest, ?_⟩
  rw [getOrOpenRemote, h, ← touch_eq hi hvalid]

/-- A miss: an entry gives way, and whether `open_remote` succeeds is known only then. -/
theorem getOrOpenRemote_miss (hne : c.handles ≠ []) (hmiss : c.hit dest = none) :
    ∃ i e, c.handles[i]? = some e ∧ c.GivesWay e ∧
      c.getOrOpenRemote dest none = (none, c.closeRemote i) ∧
      ∀ a, c.getOrOpenRemote dest (some a) = (some i, c.use i ⟨dest, some a, true, 0⟩) := by
  simp only [getOrOpenRemote, hmiss]
  cases hfree : c.handles.findIdx? (!·.valid) with
  | some i =>
    obtain ⟨hlt, hvalid, -⟩ := List.findIdx?_eq_some_iff_getElem.mp hfree
    have hi : c.handles[i]? = some c.handles[i] := List.getElem?_eq_getElem hlt
    have hfalse : c.handles[i].valid = false := by simpa using hvalid
    refine ⟨i, c.handles[i], hi, Or.inl hfalse, ?_, ?_⟩
    · rw [closeRemote_of_not_valid hi hfalse]
      rfl
    · exact openAt_some hi dest
  | none =>
    have hall : ∀ h ∈ c.handles, h.valid = true := by
      simpa [List.findIdx?_eq_none_iff] using hfree
    obtain ⟨e, hi, hold⟩ := handles_lru hne
    refine ⟨c.lru, e, hi, Or.inr ⟨hall, hold⟩, rfl, ?_⟩
    intro a
    have hlt := (List.getElem?_eq_some_iff.mp hi).1
    have hclosed : (c.closeRemote c.lru).handles[c.lru]?
        = some (if e.valid then .empty else e) := by
      rw [closeRemote_eq hi]
      exact List.getElem?_set_self hlt
    rw [openAt_some hclosed, closeRemote_eq hi, use, use, List.set_set]

/-! ### The destinations -/

/-- No two valid handles have the same destination. -/
def Distinct (c : HandleCache α) : Prop :=
  ∀ (i j : Nat) (a b : RemoteHandle α), c.handles[i]? = some a → c.handles[j]? = some b →
    a.valid = true → b.valid = true → a.destId = b.destId → i = j

theorem Distinct.set (h : c.Distinct) {i : Nat} {e : RemoteHandle α} (lruCounter : UInt64)
    (hnew : e.valid = true → ∀ (j : Nat) (b : RemoteHandle α), j ≠ i → c.handles[j]? = some b →
      b.valid = true → b.destId ≠ e.destId) :
    (HandleCache.mk (c.handles.set i e) lruCounter).Distinct := by
  -- An entry of the new array is the new one, or another one from before.
  have hcases : ∀ {j : Nat} {b : RemoteHandle α}, (c.handles.set i e)[j]? = some b →
      (j = i ∧ b = e) ∨ (j ≠ i ∧ c.handles[j]? = some b) := by
    intro j b hb
    rw [List.getElem?_set] at hb
    split at hb
    · rename_i heq
      split at hb
      · exact Or.inl ⟨heq.symm, (Option.some.inj hb).symm⟩
      · cases hb
    · rename_i hji
      exact Or.inr ⟨Ne.symm hji, hb⟩
  intro j k a b ha hb hvalid hvalid' heq
  rcases hcases ha with ⟨rfl, rfl⟩ | ⟨hj, hja⟩
  · rcases hcases hb with ⟨rfl, -⟩ | ⟨hk, hkb⟩
    · rfl
    · exact absurd heq.symm (hnew hvalid k b hk hkb hvalid')
  · rcases hcases hb with ⟨rfl, rfl⟩ | ⟨-, hkb⟩
    · exact absurd heq (hnew hvalid' j a hj hja hvalid)
    · exact h j k a b hja hkb hvalid hvalid' heq

/-- One call, with any result of `open_remote`. -/
theorem Distinct.getOrOpenRemote (h : c.Distinct) (hne : c.handles ≠ []) (dest : MailboxId)
    (opened : Option α) : (c.getOrOpenRemote dest opened).2.Distinct := by
  cases hhit : c.hit dest with
  | some i =>
    obtain ⟨e, hi, hvalid, hdest, heq⟩ := getOrOpenRemote_hit hhit opened
    rw [heq]
    refine h.set _ ?_
    intro _ j b hj hb hvalid' hsame
    exact hj (h j i b e hb hi hvalid' hvalid hsame)
  | none =>
    obtain ⟨i, e, hi, -, hclosed, hopened⟩ := getOrOpenRemote_miss hne hhit
    cases opened with
    | none =>
      rw [hclosed, closeRemote_eq hi]
      refine h.set _ ?_
      intro hvalid j b hj hb hvalid' hsame
      cases he : e.valid with
      | true =>
        rw [he] at hvalid
        cases hvalid
      | false =>
        rw [he, if_neg Bool.false_ne_true, he] at hvalid
        cases hvalid
    | some a =>
      rw [hopened a]
      refine h.set _ ?_
      intro _ j b _ hb hvalid'
      exact hit_eq_none.mp hhit b (List.mem_of_getElem? hb) hvalid'

/-- What is returned is a valid handle for the destination. -/
theorem valid_of_getOrOpenRemote (hne : c.handles ≠ []) {opened : Option α} {i : Nat}
    (h : (c.getOrOpenRemote dest opened).1 = some i) :
    ∃ e, (c.getOrOpenRemote dest opened).2.handles[i]? = some e ∧ e.valid = true ∧
      e.destId = dest := by
  cases hhit : c.hit dest with
  | some k =>
    obtain ⟨e, hk, -, hdest, heq⟩ := getOrOpenRemote_hit hhit opened
    rw [heq] at h ⊢
    obtain rfl : k = i := Option.some.inj h
    exact ⟨_, List.getElem?_set_self (List.getElem?_eq_some_iff.mp hk).1, rfl, hdest⟩
  | none =>
    obtain ⟨k, e, hk, -, hclosed, hopened⟩ := getOrOpenRemote_miss hne hhit
    cases opened with
    | none =>
      rw [hclosed] at h
      cases h
    | some a =>
      rw [hopened a] at h ⊢
      obtain rfl : k = i := Option.some.inj h
      exact ⟨_, List.getElem?_set_self (List.getElem?_eq_some_iff.mp hk).1, rfl, rfl⟩

theorem length_getOrOpenRemote (c : HandleCache α) (dest : MailboxId) (opened : Option α) :
    (c.getOrOpenRemote dest opened).2.handles.length = c.handles.length := by
  unfold getOrOpenRemote
  split
  · simp [touch]
  · split
    · cases opened with
      | none => rfl
      | some a => simp [openAt, touch, install]
    · cases opened with
      | none => simp [openAt, closeRemote]
      | some a => simp [openAt, touch, install, closeRemote]

/-! ### The order of use -/

/-- The valid handles, in the order of their use, are those for the destinations `l`. -/
def Represents (c : HandleCache α) (l : List MailboxId) : Prop :=
  ∃ hs : List (RemoteHandle α), hs.Perm (c.handles.filter (·.valid)) ∧ hs.map (·.destId) = l ∧
    hs.Pairwise (fun a b => b.lastUsed < a.lastUsed) ∧ ∀ h ∈ hs, h.lastUsed ≤ c.lruCounter

/-- An entry that has been used last comes in front of those that stay. -/
theorem represents_use {i : Nat} {e e' : RemoteHandle α} {hs : List (RemoteHandle α)}
    (hi : c.handles[i]? = some e) (hperm : hs.Perm ((c.handles.eraseIdx i).filter (·.valid)))
    (hsorted : hs.Pairwise fun a b => b.lastUsed < a.lastUsed)
    (hle : ∀ h ∈ hs, h.lastUsed ≤ c.lruCounter) (hcounter : c.lruCounter.toNat + 1 < 2 ^ 64) :
    (c.use i e').Represents (e'.destId :: hs.map (·.destId)) := by
  have hlt := (List.getElem?_eq_some_iff.mp hi).1
  have hless : c.lruCounter < c.lruCounter + 1 := by
    rw [UInt64.lt_iff_toNat_lt, UInt64.toNat_add]
    simp only [UInt64.toNat_one]
    omega
  refine ⟨{ e' with valid := true, lastUsed := c.lruCounter + 1 } :: hs, ?_, rfl, ?_, ?_⟩
  · have hset := List.Perm.filter (·.valid)
      (List.set_perm_cons_eraseIdx hlt { e' with valid := true, lastUsed := c.lruCounter + 1 })
    rw [List.filter_cons_of_pos rfl] at hset
    exact (hperm.cons _).trans hset.symm
  · refine List.pairwise_cons.mpr ⟨?_, hsorted⟩
    intro b hb
    exact UInt64.lt_of_le_of_lt (hle b hb) hless
  · intro b hb
    rcases List.mem_cons.mp hb with rfl | hb
    · exact UInt64.le_refl _
    · exact UInt64.le_of_lt (UInt64.lt_of_le_of_lt (hle b hb) hless)

section
variable {hs : List (RemoteHandle α)}

/-- The array is one entry and the others. -/
theorem cons_eraseIdx_perm {i : Nat} {e : RemoteHandle α} (hi : c.handles[i]? = some e) :
    (e :: c.handles.eraseIdx i).Perm c.handles := by
  obtain ⟨hlt, rfl⟩ := List.getElem?_eq_some_iff.mp hi
  exact List.getElem_cons_eraseIdx_perm hlt

theorem filter_valid_perm {i : Nat} {e : RemoteHandle α} (hi : c.handles[i]? = some e)
    (hvalid : e.valid = true) :
    (e :: (c.handles.eraseIdx i).filter (·.valid)).Perm (c.handles.filter (·.valid)) := by
  have hperm := (cons_eraseIdx_perm hi).filter (·.valid)
  rwa [List.filter_cons_of_pos hvalid] at hperm

/-- The used handle moves to the front. -/
theorem request_hit {i : Nat} {e : RemoteHandle α} (hi : c.handles[i]? = some e)
    (hvalid : e.valid = true) (hperm : hs.Perm (c.handles.filter (·.valid)))
    (hnodup : (hs.map (·.destId)).Nodup) :
    ∃ hs' : List (RemoteHandle α), hs'.Sublist hs ∧
      hs'.Perm ((c.handles.eraseIdx i).filter (·.valid)) ∧
      LruList.request c.handles.length (hs.map (·.destId)) e.destId
        = e.destId :: hs'.map (·.destId) := by
  have hsplit := filter_valid_perm hi hvalid
  have hmem : e ∈ hs := hperm.mem_iff.mpr (hsplit.mem_iff.mp (List.mem_cons_self ..))
  have hlen : (hs.map (·.destId)).length ≤ c.handles.length := by
    rw [List.length_map, hperm.length_eq]
    exact List.length_filter_le ..
  obtain ⟨s, t, rfl⟩ := List.append_of_mem hmem
  refine ⟨s ++ t, ?_, ?_, ?_⟩
  · exact (List.Sublist.refl s).append (List.sublist_cons_self e t)
  · exact ((List.perm_middle.symm.trans hperm).trans hsplit.symm).cons_inv
  · rw [LruList.request_of_mem (List.mem_map_of_mem hmem) hlen]
    rw [List.map_append, List.map_cons] at hnodup ⊢
    have hnot : e.destId ∉ s.map (·.destId) := fun hin =>
      List.disjoint_of_nodup_append hnodup hin (List.mem_cons_self ..)
    rw [List.erase_append_right _ hnot, List.erase_cons_head, List.map_append]

/-- A new handle in an entry that was not valid. -/
theorem request_free {i : Nat} {e : RemoteHandle α} (hi : c.handles[i]? = some e)
    (hvalid : e.valid = false) (hperm : hs.Perm (c.handles.filter (·.valid)))
    (hmiss : dest ∉ hs.map (·.destId)) :
    hs.Perm ((c.handles.eraseIdx i).filter (·.valid)) ∧
      LruList.request c.handles.length (hs.map (·.destId)) dest = dest :: hs.map (·.destId) := by
  have hlt := (List.getElem?_eq_some_iff.mp hi).1
  have hsplit := (cons_eraseIdx_perm hi).filter (·.valid)
  rw [List.filter_cons_of_neg (by simp [hvalid])] at hsplit
  have hrest := hperm.trans hsplit.symm
  refine ⟨hrest, LruList.request_of_lt hmiss ?_⟩
  have hle : ((c.handles.eraseIdx i).filter (·.valid)).length ≤ (c.handles.eraseIdx i).length :=
    List.length_filter_le ..
  rw [List.length_eraseIdx_of_lt hlt] at hle
  rw [List.length_map, hrest.length_eq]
  omega

/-- A new handle in place of the one that was used least recently. -/
theorem request_full {i : Nat} {e : RemoteHandle α} (hi : c.handles[i]? = some e)
    (hall : ∀ h ∈ c.handles, h.valid = true) (hold : ∀ h ∈ c.handles, ¬ h.lastUsed < e.lastUsed)
    (hperm : hs.Perm (c.handles.filter (·.valid)))
    (hsorted : hs.Pairwise fun a b => b.lastUsed < a.lastUsed)
    (hmiss : dest ∉ hs.map (·.destId)) :
    ∃ hs' : List (RemoteHandle α), hs'.Sublist hs ∧
      hs'.Perm ((c.handles.eraseIdx i).filter (·.valid)) ∧
      LruList.request c.handles.length (hs.map (·.destId)) dest = dest :: hs'.map (·.destId) := by
  have hmem : e ∈ c.handles := List.mem_of_getElem? hi
  have hsplit := filter_valid_perm hi (hall e hmem)
  have hfilter : c.handles.filter (·.valid) = c.handles := List.filter_eq_self.mpr hall
  have hin : e ∈ hs := hperm.mem_iff.mpr (by rwa [hfilter])
  obtain ⟨s, t, rfl⟩ := List.append_of_mem hin
  -- None was used before it, so it is the last one.
  have hlast : t = [] := by
    cases t with
    | nil => rfl
    | cons b t =>
      have hlater := (List.pairwise_append.mp hsorted).2.1
      have hb : b ∈ c.handles := by
        rw [← hfilter]
        exact hperm.mem_iff.mp (by simp)
      exact absurd ((List.pairwise_cons.mp hlater).1 b (List.mem_cons_self ..)) (hold b hb)
  subst hlast
  refine ⟨s, List.sublist_append_left s [e], ?_, ?_⟩
  · exact (((List.perm_append_singleton e s).symm.trans hperm).trans hsplit.symm).cons_inv
  · have hlen : (s.map (·.destId) ++ [e.destId]).length = c.handles.length := by
      have hlen' := hperm.length_eq
      rw [hfilter] at hlen'
      simpa using hlen'
    rw [List.map_append, List.map_singleton] at hmiss ⊢
    exact LruList.request_of_full hmiss hlen

/-- A call whose `open_remote` succeeds, if it comes to it, is a request for the destination. -/
theorem Represents.getOrOpenRemote {l : List MailboxId} (h : c.Represents l) (hnodup : l.Nodup)
    (hne : c.handles ≠ []) (hcounter : c.lruCounter.toNat + 1 < 2 ^ 64) (dest : MailboxId) (a : α) :
    (c.getOrOpenRemote dest (some a)).2.Represents
        (LruList.request c.handles.length l dest) ∧
      (c.getOrOpenRemote dest (some a)).2.lruCounter = c.lruCounter + 1 := by
  obtain ⟨hs, hperm, rfl, hsorted, hle⟩ := h
  cases hhit : c.hit dest with
  | some i =>
    obtain ⟨e, hi, hvalid, rfl, heq⟩ := getOrOpenRemote_hit hhit (some a)
    obtain ⟨hs', hsub, hperm', hrequest⟩ := request_hit hi hvalid hperm hnodup
    rw [heq, hrequest]
    exact ⟨represents_use hi hperm' (hsorted.sublist hsub) (fun h hh => hle h (hsub.subset hh))
      hcounter, rfl⟩
  | none =>
    obtain ⟨i, e, hi, hgives, -, hopened⟩ := getOrOpenRemote_miss hne hhit
    have hmiss : dest ∉ hs.map (·.destId) := by
      intro hin
      obtain ⟨h, hh, hdest⟩ := List.mem_map.mp hin
      obtain ⟨hmem, hvalid⟩ := List.mem_filter.mp (hperm.mem_iff.mp hh)
      exact hit_eq_none.mp hhit h hmem hvalid hdest
    rw [hopened a]
    rcases hgives with hvalid | ⟨hall, hold⟩
    · obtain ⟨hperm', hrequest⟩ := request_free hi hvalid hperm hmiss
      rw [hrequest]
      exact ⟨represents_use hi hperm' hsorted hle hcounter, rfl⟩
    · obtain ⟨hs', hsub, hperm', hrequest⟩ := request_full hi hall hold hperm hsorted hmiss
      rw [hrequest]
      exact ⟨represents_use hi hperm' (hsorted.sublist hsub) (fun h hh => hle h (hsub.subset hh))
        hcounter, rfl⟩

end

/-! ### All calls -/

/-- One call: the destination, and what `open_remote` maps if the call comes to it. -/
def call (c : HandleCache α) (e : MailboxId × Option α) : HandleCache α :=
  (c.getOrOpenRemote e.1 e.2).2

/-- The cache is a map from destinations to handles. -/
structure IsMap (c : HandleCache α) : Prop where
  distinct : c.Distinct
  /-- A call returns a valid handle for its destination, or nothing. -/
  returned : ∀ (dest : MailboxId) (opened : Option α) (i : Nat),
    (c.getOrOpenRemote dest opened).1 = some i →
    ∃ h, (c.getOrOpenRemote dest opened).2.handles[i]? = some h ∧ h.valid = true ∧ h.destId = dest
  /-- A hit opens and closes nothing: the result of `open_remote` does not matter, and the mappings
  of all entries stay. -/
  hit : ∀ (dest : MailboxId) (i : Nat), c.hit dest = some i → ∀ opened : Option α,
    c.getOrOpenRemote dest opened = (some i, c.touch i) ∧
      (c.touch i).handles.map (fun h => (h.destId, h.shmBase, h.valid))
        = c.handles.map fun h => (h.destId, h.shmBase, h.valid)

/-- The destinations of the valid handles are those that were requested most recently. -/
def HoldsRecent (c : HandleCache α) (size : Nat) (dests : List MailboxId) : Prop :=
  ((c.handles.filter (·.valid)).map (·.destId)).Perm (LruList.recent size dests)

theorem map_touch (c : HandleCache α) (i : Nat) :
    (c.touch i).handles.map (fun h => (h.destId, h.shmBase, h.valid))
      = c.handles.map fun h => (h.destId, h.shmBase, h.valid) := by
  apply List.ext_getElem?
  intro j
  simp only [touch, List.getElem?_map, List.getElem?_modify]
  cases c.handles[j]? with
  | none => rfl
  | some h =>
    simp only [Option.map_some]
    split
    · rfl
    · rfl

theorem isMap_of_distinct (h : c.Distinct) (hne : c.handles ≠ []) : c.IsMap where
  distinct := h
  returned dest opened i := valid_of_getOrOpenRemote hne
  hit dest i hhit opened := ⟨by rw [getOrOpenRemote, hhit], c.map_touch i⟩

theorem ne_nil_of_call (hne : c.handles ≠ []) (e : MailboxId × Option α) :
    (c.call e).handles ≠ [] := by
  have hlen := c.length_getOrOpenRemote e.1 e.2
  have hpos := List.length_pos_of_ne_nil hne
  exact List.ne_nil_of_length_pos (by rw [call, hlen]; exact hpos)

/-- Calls whose `open_remote` succeeds are requests for their destinations. -/
theorem Represents.runFrom {l : List MailboxId} {calls : List (MailboxId × Option α)}
    (h : c.Represents l) (hnodup : l.Nodup) (hne : c.handles ≠ [])
    (hopened : ∀ e ∈ calls, e.2.isSome = true)
    (hcounter : c.lruCounter.toNat + calls.length < 2 ^ 64) :
    (runFrom call c calls).Represents
      ((calls.map (·.1)).foldl (LruList.request c.handles.length) l) := by
  induction calls generalizing c l with
  | nil => exact h
  | cons e calls ih =>
    obtain ⟨dest, opened⟩ := e
    obtain ⟨a, rfl⟩ := Option.isSome_iff_exists.mp (hopened (dest, opened) (List.mem_cons_self ..))
    rw [List.length_cons] at hcounter
    obtain ⟨hrep, hnext⟩ := h.getOrOpenRemote hnodup hne (by omega) dest a
    have hlen : (c.call (dest, some a)).handles.length = c.handles.length :=
      c.length_getOrOpenRemote dest (some a)
    have hnext' : (c.call (dest, some a)).lruCounter.toNat = c.lruCounter.toNat + 1 := by
      show (c.getOrOpenRemote dest (some a)).2.lruCounter.toNat = _
      rw [hnext, UInt64.toNat_add, UInt64.toNat_one]
      omega
    have hrest := ih (c := c.call (dest, some a)) hrep (LruList.nodup_request hnodup _ dest)
      (ne_nil_of_call hne _) (fun e he => hopened e (List.mem_cons_of_mem _ he)) (by omega)
    rw [hlen] at hrest
    exact hrest

theorem isMap_runFrom (calls : List (MailboxId × Option α)) (h : c.Distinct)
    (hne : c.handles ≠ []) : (runFrom call c calls).IsMap := by
  have hall : AllStates call (fun c : HandleCache α => c.Distinct ∧ c.handles ≠ []) c calls :=
    allStates_of_step (fun c e hc => ⟨hc.1.getOrOpenRemote hc.2 e.1 e.2, ne_nil_of_call hc.2 e⟩)
      calls ⟨h, hne⟩
  exact isMap_of_distinct hall.last.1 hall.last.2

/-- The number of entries of a cache. -/
def sizeOfConfig (maxRemoteHandles : Nat) : Nat :=
  if 0 < maxRemoteHandles then maxRemoteHandles else 16

/-- **The cache is an LRU map.** Take a cache of any size and any calls, with any successes and
failures of `open_remote`. It is a map from destinations to handles, and when all opens succeed, in
fewer than 2^64 calls, its valid handles are those for the destinations that were requested most
recently. -/
theorem isLruMap (maxRemoteHandles : Nat) (calls : List (MailboxId × Option α)) :
    (runFrom call (ofConfig maxRemoteHandles) calls).IsMap ∧
      ((∀ e ∈ calls, e.2.isSome = true) → calls.length < 2 ^ 64 →
        (runFrom call (ofConfig maxRemoteHandles) calls).HoldsRecent
          (sizeOfConfig maxRemoteHandles) (calls.map (·.1))) := by
  have hlen : (ofConfig (α := α) maxRemoteHandles).handles.length = sizeOfConfig maxRemoteHandles :=
    List.length_replicate ..
  have hpos : 0 < sizeOfConfig maxRemoteHandles := by
    unfold sizeOfConfig
    split <;> omega
  have hne : (ofConfig (α := α) maxRemoteHandles).handles ≠ [] :=
    List.ne_nil_of_length_pos (by rw [hlen]; exact hpos)
  have hinvalid : ∀ h ∈ (ofConfig (α := α) maxRemoteHandles).handles, h.valid = false := by
    intro h hh
    rw [(List.mem_replicate.mp hh).2]
    rfl
  refine ⟨isMap_runFrom calls ?_ hne, ?_⟩
  · intro i j a b ha _ hvalid
    rw [hinvalid a (List.mem_of_getElem? ha)] at hvalid
    cases hvalid
  · intro hopened hcalls
    have hnil : (ofConfig (α := α) maxRemoteHandles).handles.filter (·.valid) = [] := by
      rw [List.filter_eq_nil_iff]
      intro h hh
      simp [hinvalid h hh]
    have hinit : (ofConfig (α := α) maxRemoteHandles).Represents [] :=
      ⟨[], by rw [hnil], rfl, List.Pairwise.nil, by simp⟩
    obtain ⟨hs, hperm, hdests, -⟩ := hinit.runFrom List.nodup_nil hne hopened
      (by simpa [ofConfig] using hcalls)
    rw [LruList.foldl_request, hlen] at hdests
    rw [HoldsRecent, ← hdests]
    exact (hperm.map _).symm

/-- Three destinations in a cache of two entries, the first of them twice. -/
def threeDests : List (MailboxId × Option Nat) :=
  [(7, some 0), (8, some 1), (7, some 0), (9, some 2)]

theorem isLruMap_threeDests :
    (runFrom call (ofConfig 2) threeDests).HoldsRecent 2 [7, 8, 7, 9] ∧
      LruList.recent 2 [7, 8, 7, 9] = [9, 7] :=
  ⟨(isLruMap 2 threeDests).2 (by decide) (by decide), by decide⟩

/-! ### Failed opens -/

/-- A call whose `open_remote` fails, or would fail, returns nothing and leaves the valid handles as
they are. -/
def KeepsHandles (c : HandleCache α) (dest : MailboxId) : Prop :=
  (c.getOrOpenRemote dest none).1 = none ∧
    (c.getOrOpenRemote dest none).2.handles.filter (·.valid) = c.handles.filter (·.valid)

/-- **Failed opens.** In a cache of any size, in any state, a call whose `open_remote` fails keeps
the valid handles exactly when it comes to `open_remote`, since no valid handle is for the
destination, and an entry is not valid. -/
theorem keepsHandles_iff (c : HandleCache α) (hne : c.handles ≠ []) (dest : MailboxId) :
    c.KeepsHandles dest ↔ c.hit dest = none ∧ ∃ h ∈ c.handles, h.valid = false := by
  cases hhit : c.hit dest with
  | some i =>
    refine iff_of_false ?_ (by simp)
    rintro ⟨hnone, -⟩
    rw [getOrOpenRemote, hhit] at hnone
    cases hnone
  | none =>
    obtain ⟨i, e, hi, hgives, hclosed, -⟩ := getOrOpenRemote_miss hne hhit
    have hmem : e ∈ c.handles := List.mem_of_getElem? hi
    rw [KeepsHandles, hclosed]
    simp only [true_and]
    cases hvalid : e.valid with
    | false =>
      rw [closeRemote_of_not_valid hi hvalid]
      exact iff_of_true rfl ⟨e, hmem, hvalid⟩
    | true =>
      -- The entry was valid, so all are, and now there is one less.
      refine iff_of_false ?_ ?_
      · intro hsame
        obtain ⟨hlt, hget⟩ := List.getElem?_eq_some_iff.mp hi
        have hcount := congrArg List.length hsame
        rw [← List.countP_eq_length_filter, ← List.countP_eq_length_filter, closeRemote_eq hi,
          hvalid, if_pos rfl, List.countP_set hlt, hget, hvalid] at hcount
        have hpos : 0 < c.handles.countP (·.valid) := List.countP_pos_iff.mpr ⟨e, hmem, hvalid⟩
        simp [RemoteHandle.empty] at hcount
        omega
      · rintro ⟨h, hh, hfalse⟩
        rcases hgives with hno | ⟨hall, -⟩
        · rw [hvalid] at hno
          cases hno
        · rw [hall h hh] at hfalse
          cases hfalse

/-- The cache of a mailbox with room for two handles, with one. -/
def oneHandle : HandleCache Nat := runFrom call (ofConfig 2) [(7, some 0)]

theorem keepsHandles_oneHandle : oneHandle.KeepsHandles 9 :=
  (keepsHandles_iff oneHandle (by decide) 9).mpr (by decide)

/-- With room for one handle, a message to a mailbox that cannot be opened closes the handle for
mailbox 7. -/
theorem closed_for_nothing :
    ¬ (runFrom call (ofConfig 1) [(7, some 0)] : HandleCache Nat).KeepsHandles 9 ∧
      (runFrom call (ofConfig 1) [(7, some 0)] : HandleCache Nat).hit 7 = some 0 ∧
      (runFrom call (ofConfig 1) [(7, some 0), (9, none)] : HandleCache Nat).hit 7 = none := by
  refine ⟨?_, by decide, by decide⟩
  rintro ⟨-, hsame⟩
  exact absurd hsame (by decide)

end HandleCache

end CoreRaT.Spec
