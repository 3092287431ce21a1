import Mathlib.Data.Finset.Card
import Mathlib.Logic.Function.Basic

/-!
# `CoreRaT.Lib.ProbeTable`: open addressing with linear probing

A table of `n` slots, each of them empty or with a key and its value. The probe path of a key begins
at its home slot and goes around the table once. A search for a key stops at the first slot of the
path that is empty or has the key, and that is where the key is stored. Keys are not removed.

`WellFormed` says that each key lies where a search for it stops. So a key is stored once, and no
empty slot lies in front of it. Storing a value keeps this (`WellFormed.store`) and changes nothing
for other keys (`WellFormed.holds_store`). A search goes around without stopping only in a table
that is full of other keys: `exists_firstStop` and `not_firstStop_of_full`.

Nothing here depends on what the keys and the values are, and how a key is hashed.
-/

set_option autoImplicit false

namespace CoreRaT.Lib

/-! ### Searching -/

/-- There is a first place at which a search stops, or it does not stop. -/
theorem exists_first_or (stop : Nat → Prop) (n : Nat) :
    (∃ i < n, stop i ∧ ∀ j < i, ¬ stop j) ∨ ∀ i < n, ¬ stop i := by
  by_cases h : ∀ i < n, ¬ stop i
  · exact Or.inr h
  · left
    simp only [not_forall, not_not] at h
    obtain ⟨i, hi, hstop⟩ := h
    induction i using Nat.strong_induction_on with
    | _ i ih =>
      by_cases hfirst : ∀ j < i, ¬ stop j
      · exact ⟨i, hi, hstop, hfirst⟩
      · simp only [not_forall, not_not] at hfirst
        obtain ⟨j, hj, hstopj⟩ := hfirst
        exact ih j hj (Nat.lt_trans hj hi) hstopj

section
variable {α : Type} {n : Nat} (stop : Nat → Prop) [DecidablePred stop] (found : Nat → α)
  (walk : (left i : Nat) → α)

/-- A loop that goes around the table until it stops has what it finds at the first such place. -/
theorem walk_of_first
    (hwalk : ∀ left i, left + 1 + i = n →
      walk (left + 1) i = if stop i then found i else walk left (i + 1))
    {f : Nat} (hf : f < n) (hstop : stop f) (hfirst : ∀ j < f, ¬ stop j) : walk n 0 = found f := by
  have hfrom : ∀ left i, left + i = n → i ≤ f → walk left i = found f := by
    intro left
    induction left with
    | zero => omega
    | succ left ih =>
      intro i hi hle
      rw [hwalk left i hi]
      by_cases hif : i = f
      · rw [if_pos (hif ▸ hstop), hif]
      · rw [if_neg (hfirst i (by omega)), ih (i + 1) (by omega) (by omega)]
  exact hfrom n 0 (Nat.add_zero n) (Nat.zero_le f)

/-- A loop that does not stop comes to its end. -/
theorem walk_of_none
    (hwalk : ∀ left i, left + 1 + i = n →
      walk (left + 1) i = if stop i then found i else walk left (i + 1))
    (hnone : ∀ i < n, ¬ stop i) : walk n 0 = walk 0 n := by
  have hfrom : ∀ left i, left + i = n → walk left i = walk 0 n := by
    intro left
    induction left with
    | zero =>
      intro i hi
      rw [Nat.zero_add] at hi
      rw [hi]
    | succ left ih =>
      intro i hi
      rw [hwalk left i hi, if_neg (hnone i (by omega)), ih (i + 1) (by omega)]
  exact hfrom n 0 (Nat.add_zero n)

end

/-! ### Tables -/

/-- The slots of a table, of which the first `n` count. -/
abbrev Slots (κ ν : Type) := Nat → Option (κ × ν)

variable {κ ν : Type} (n : Nat) (home : κ → Nat)

/-- The `i`-th slot on the probe path of a key. -/
def probe (k : κ) (i : Nat) : Nat := (home k + i) % n

/-- A search for `k` stops at the slot `s`: it is empty, or it has the key. -/
def Stops (t : Slots κ ν) (k : κ) (s : Nat) : Prop := ∀ k' v, t s = some (k', v) → k' = k

/-- A search for `k` stops at the `i`-th slot of the path. -/
structure FirstStop (t : Slots κ ν) (k : κ) (i : Nat) : Prop where
  lt : i < n
  stops : Stops t k (probe n home k i)
  first : ∀ j < i, ¬ Stops t k (probe n home k j)

/-- Each key lies where a search for it stops. -/
def WellFormed (t : Slots κ ν) : Prop :=
  ∀ s < n, ∀ k v, t s = some (k, v) → ∃ i, FirstStop n home t k i ∧ probe n home k i = s

/-- The key is stored with this value. -/
def Holds (t : Slots κ ν) (k : κ) (v : ν) : Prop := ∃ s < n, t s = some (k, v)

variable {n} {home} {t : Slots κ ν} {k : κ}

theorem probe_lt (hn : 0 < n) (home : κ → Nat) (k : κ) (i : Nat) : probe n home k i < n :=
  Nat.mod_lt _ hn

/-- The path comes to every slot. -/
theorem exists_probe_eq {s : Nat} (hs : s < n) (home : κ → Nat) (k : κ) :
    ∃ i < n, probe n home k i = s := by
  have hhome : home k % n < n := Nat.mod_lt _ (Nat.zero_lt_of_lt hs)
  refine ⟨(s + n - home k % n) % n, Nat.mod_lt _ (Nat.zero_lt_of_lt hs), ?_⟩
  rw [probe, Nat.add_mod_mod, ← Nat.mod_add_mod,
    show home k % n + (s + n - home k % n) = s + n by omega, Nat.add_mod_right, Nat.mod_eq_of_lt hs]

theorem FirstStop.unique {i j : Nat} (hi : FirstStop n home t k i) (hj : FirstStop n home t k j) :
    i = j := by
  rcases Nat.lt_trichotomy i j with hlt | heq | hgt
  · exact absurd hi.stops (hj.first i hlt)
  · exact heq
  · exact absurd hj.stops (hi.first j hgt)

/-- A slot with another key does not stop the search. -/
theorem not_stops_iff {s : Nat} : ¬ Stops t k s ↔ ∃ k' v, t s = some (k', v) ∧ k' ≠ k := by
  simp only [Stops, not_forall, exists_prop]

/-- A search stops, or there are other keys in all slots of the path. -/
theorem firstStop_or (n : Nat) (home : κ → Nat) (t : Slots κ ν) (k : κ) :
    (∃ i, FirstStop n home t k i) ∨ ∀ i < n, ¬ Stops t k (probe n home k i) := by
  rcases exists_first_or (fun i => Stops t k (probe n home k i)) n with ⟨i, hi, hs, hfirst⟩ | hnone
  · exact Or.inl ⟨i, hi, hs, hfirst⟩
  · exact Or.inr hnone

namespace WellFormed

/-- The empty table. -/
theorem empty : WellFormed n home (fun _ => none : Slots κ ν) := nofun

/-- The slot of a stored key is where the search stops. -/
theorem eq_of_firstStop (h : WellFormed n home t) {i s : Nat} {v : ν}
    (hi : FirstStop n home t k i) (hs : s < n) (hv : t s = some (k, v)) :
    probe n home k i = s := by
  obtain ⟨j, hj, hprobe⟩ := h s hs k v hv
  rw [hi.unique hj, hprobe]

/-- A key is stored when it is in the slot where the search stops. -/
theorem holds_iff (h : WellFormed n home t) {i : Nat} (hi : FirstStop n home t k i) (v : ν) :
    Holds n t k v ↔ t (probe n home k i) = some (k, v) := by
  constructor
  · rintro ⟨s, hs, hv⟩
    rw [h.eq_of_firstStop hi hs hv, hv]
  · exact fun hv => ⟨_, probe_lt (Nat.zero_lt_of_lt hi.lt) home k i, hv⟩

theorem unique (h : WellFormed n home t) {v w : ν} (hv : Holds n t k v) (hw : Holds n t k w) :
    v = w := by
  obtain ⟨s, hs, hsv⟩ := hv
  obtain ⟨i, hi, -⟩ := h s hs k v hsv
  have hslot := (h.holds_iff hi v).mp ⟨s, hs, hsv⟩
  rw [(h.holds_iff hi w).mp hw] at hslot
  exact (Prod.mk.inj (Option.some.inj hslot)).2.symm

/-- Storing a value where the search stops. -/
theorem store (h : WellFormed n home t) {i : Nat} (hi : FirstStop n home t k i) (v : ν) :
    WellFormed n home (Function.update t (probe n home k i) (some (k, v))) := by
  intro s hs k' v' hv'
  by_cases hslot : s = probe n home k i
  · -- The slot that is written. The slots in front of it have other keys, as before.
    subst hslot
    rw [Function.update_self, Option.some.injEq, Prod.mk.injEq] at hv'
    obtain ⟨rfl, -⟩ := hv'
    refine ⟨i, ⟨hi.lt, ?_, ?_⟩, rfl⟩
    · intro k'' w hw
      rw [Function.update_self, Option.some.injEq, Prod.mk.injEq] at hw
      exact hw.1.symm
    · intro j hj hstops
      refine hi.first j hj ?_
      rwa [Stops, Function.update_of_ne] at hstops
      intro heq
      exact hi.first j hj (heq ▸ hi.stops)
  · rw [Function.update_of_ne hslot] at hv'
    obtain ⟨i', hi', hprobe⟩ := h s hs k' v' hv'
    have hne : k' ≠ k := by
      rintro rfl
      exact hslot (h.eq_of_firstStop hi hs hv').symm
    refine ⟨i', ⟨hi'.lt, ?_, ?_⟩, hprobe⟩
    · rw [hprobe, Stops, Function.update_of_ne hslot, ← Stops, ← hprobe]
      exact hi'.stops
    · intro j hj
      by_cases hwritten : probe n home k' j = probe n home k i
      · -- The slot has a key now, and it is another one.
        rw [not_stops_iff, hwritten, Function.update_self]
        exact ⟨k, v, rfl, hne.symm⟩
      · rw [Stops, Function.update_of_ne hwritten]
        exact hi'.first j hj

/-- What is stored after that: this value for the key, and what there was for other keys. -/
theorem holds_store [DecidableEq κ] (h : WellFormed n home t) {i : Nat}
    (hi : FirstStop n home t k i) (v : ν) (k' : κ) (w : ν) :
    Holds n (Function.update t (probe n home k i) (some (k, v))) k' w ↔
      if k' = k then w = v else Holds n t k' w := by
  have hlt := probe_lt (Nat.zero_lt_of_lt hi.lt) home k i
  constructor
  · rintro ⟨s, hs, hw⟩
    by_cases hslot : s = probe n home k i
    · rw [hslot, Function.update_self, Option.some.injEq, Prod.mk.injEq] at hw
      rw [if_pos hw.1.symm, hw.2]
    · rw [Function.update_of_ne hslot] at hw
      rw [if_neg]
      · exact ⟨s, hs, hw⟩
      · rintro rfl
        exact hslot (h.eq_of_firstStop hi hs hw).symm
  · split
    · rename_i heq
      rintro rfl
      exact ⟨_, hlt, by rw [Function.update_self, heq]⟩
    · rename_i hne
      rintro ⟨s, hs, hw⟩
      refine ⟨s, hs, ?_⟩
      rw [Function.update_of_ne, hw]
      rintro rfl
      exact hne (hi.stops k' w hw)

end WellFormed

/-! ### The keys of a table -/

variable [DecidableEq κ]

/-- The keys that are stored in the first `n` slots. -/
def keys (n : Nat) (t : Slots κ ν) : Finset κ :=
  ((List.range n).filterMap fun s => (t s).map Prod.fst).toFinset

theorem mem_keys : k ∈ keys n t ↔ ∃ v, Holds n t k v := by
  simp only [keys, List.mem_toFinset, List.mem_filterMap, List.mem_range, Option.map_eq_some_iff,
    Holds]
  constructor
  · rintro ⟨s, hs, ⟨k, v⟩, hv, rfl⟩
    exact ⟨v, s, hs, hv⟩
  · rintro ⟨v, s, hs, hv⟩
    exact ⟨s, hs, (k, v), hv, rfl⟩

theorem card_keys_le (n : Nat) (t : Slots κ ν) : (keys n t).card ≤ n := by
  have hle : ((List.range n).filterMap fun s => (t s).map Prod.fst).length
      ≤ (List.range n).length :=
    List.length_filterMap_le _ _
  rw [List.length_range] at hle
  exact (List.toFinset_card_le _).trans hle

/-- The search for a key stops if the key is stored, or not all slots are in use. -/
theorem WellFormed.exists_firstStop (h : WellFormed n home t)
    (hk : k ∈ keys n t ∨ (keys n t).card < n) : ∃ i, FirstStop n home t k i := by
  rcases firstStop_or n home t k with hfound | hnone
  · exact hfound
  · exfalso
    -- There is another key in each slot.
    have hother : ∀ s < n, ∃ k' v, t s = some (k', v) ∧ k' ≠ k := by
      intro s hs
      obtain ⟨i, hi, rfl⟩ := exists_probe_eq hs home k
      exact not_stops_iff.mp (hnone i hi)
    rcases hk with hk | hcard
    · obtain ⟨v, s, hs, hv⟩ := mem_keys.mp hk
      obtain ⟨k', w, hw, hne⟩ := hother s hs
      rw [hv, Option.some.injEq, Prod.mk.injEq] at hw
      exact hne hw.1.symm
    · have hle : (Finset.range n).card ≤ (keys n t).card := by
        refine Finset.card_le_card_of_injOn (fun s => ((t s).map Prod.fst).getD k) ?_ ?_
        · intro s hs
          obtain ⟨k', v, hv, -⟩ := hother s (Finset.mem_range.mp hs)
          simp only [hv, Option.map_some, Option.getD_some]
          exact mem_keys.mpr ⟨v, s, Finset.mem_range.mp hs, hv⟩
        · -- No key is in two slots.
          intro s hs s' hs' heq
          obtain ⟨k', v, hv, -⟩ := hother s (Finset.mem_range.mp hs)
          obtain ⟨k'', v', hv', -⟩ := hother s' (Finset.mem_range.mp hs')
          simp only [hv, hv', Option.map_some, Option.getD_some] at heq
          subst heq
          obtain ⟨i, hi, rfl⟩ := h s (Finset.mem_range.mp hs) k' v hv
          exact h.eq_of_firstStop hi (Finset.mem_range.mp hs') hv'
      rw [Finset.card_range] at hle
      omega

/-- The search for a key that is not stored does not stop in a full table. -/
theorem not_firstStop_of_full (hk : k ∉ keys n t) (hfull : n ≤ (keys n t).card) (i : Nat) :
    ¬ FirstStop n home t k i := by
  intro hi
  have hlt := probe_lt (Nat.zero_lt_of_lt hi.lt) home k i
  -- The slot where it would stop is empty, so the keys are in the others.
  have hempty : t (probe n home k i) = none := by
    cases hslot : t (probe n home k i) with
    | none => rfl
    | some e =>
      obtain rfl : e.1 = k := hi.stops e.1 e.2 hslot
      exact absurd (mem_keys.mpr ⟨e.2, _, hlt, hslot⟩) hk
  have hsub : keys n t ⊆ ((Finset.range n).erase (probe n home k i)).image
      fun s => ((t s).map Prod.fst).getD k := by
    intro k' hk'
    obtain ⟨v, s, hs, hv⟩ := mem_keys.mp hk'
    refine Finset.mem_image.mpr ⟨s, Finset.mem_erase.mpr ⟨?_, Finset.mem_range.mpr hs⟩, ?_⟩
    · rintro rfl
      rw [hempty] at hv
      cases hv
    · simp only [hv, Option.map_some, Option.getD_some]
  have hcard := (Finset.card_le_card hsub).trans Finset.card_image_le
  rw [Finset.card_erase_of_mem (Finset.mem_range.mpr hlt), Finset.card_range] at hcard
  omega

end CoreRaT.Lib
