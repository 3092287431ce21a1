import Mathlib.Data.Set.Insert
import Mathlib.Logic.Function.Basic

/-!
# `CoreRaT.Lib.Directory`: a directory of names with owners

A directory assigns names to owners. Some owners are local, the others are gateways to another
directory, and the local part is published in a separate set. The operations add a name under
an owner (`claim`, and `claimLocal` which publishes it too), take a name away (`release`,
`releaseLocal`), turn an owner into a gateway (`upgrade`), and drop an owner with all of its
names (`leave`).

* `owner_apply_iff` is the exact condition under which one operation keeps an entry.
* `consistent_apply_iff` is the exact condition under which one operation keeps the published
  set equal to the set of names with a local owner.

The name type and the owner type are arbitrary.
-/

set_option autoImplicit false

namespace CoreRaT.Lib

variable {ι κ : Type}

/-- Names `ι` with owners `κ`. -/
structure Directory (ι κ : Type) where
  /-- The owner of a name. -/
  owner : ι → Option κ
  /-- The names that are published as local. -/
  published : Set ι
  /-- The owners that stand for another directory. -/
  gateways : Set κ

namespace Directory

/-- The name has a local owner. -/
def IsLocal (d : Directory ι κ) (i : ι) : Prop := ∃ c, d.owner i = some c ∧ c ∉ d.gateways

/-- The owner owns nothing. -/
def OwnsNothing (d : Directory ι κ) (c : κ) : Prop := ∀ i, d.owner i ≠ some c

/-- The published names are the names with a local owner. -/
def Consistent (d : Directory ι κ) : Prop := ∀ i, i ∈ d.published ↔ d.IsLocal i

/-- When an operation leaves the published set alone, consistency survives exactly when the
set of names with a local owner stays the same. -/
theorem consistent_iff_of_published_eq {d : Directory ι κ} (h : d.Consistent)
    (d' : Directory ι κ) (hpub : d'.published = d.published) :
    d'.Consistent ↔ ∀ i, d'.IsLocal i ↔ d.IsLocal i := by
  simp only [Consistent, hpub, h _, iff_comm]

/-- A name of `c` becomes non-local when `c` becomes a gateway or loses it. So consistency
survives exactly when `c` had no such name. -/
theorem isLocal_iff_forall {d d' : Directory ι κ} {c : κ}
    (hloc : ∀ i, d'.IsLocal i ↔ d.IsLocal i ∧ d.owner i ≠ some c) :
    (∀ i, d'.IsLocal i ↔ d.IsLocal i) ↔ c ∈ d.gateways ∨ d.OwnsNothing c := by
  constructor
  · intro hall
    by_cases hc : c ∈ d.gateways
    · exact Or.inl hc
    · exact Or.inr fun i hi => ((hloc i).mp ((hall i).mpr ⟨c, hi, hc⟩)).2 hi
  · rintro hc i
    rw [hloc i]
    refine ⟨And.left, fun hi => ⟨hi, ?_⟩⟩
    -- A local name is not owned by a gateway, nor by an owner of nothing.
    rcases hc with hc | hc
    · obtain ⟨c', hc', hg⟩ := hi
      intro hown
      rw [hc', Option.some.injEq] at hown
      exact hg (hown ▸ hc)
    · exact hc i

/-- The operations on a directory. -/
inductive Op (ι κ : Type)
  /-- Nothing changes. -/
  | idle
  /-- The owner becomes a gateway. -/
  | upgrade (c : κ)
  /-- The name goes to the owner, if it is free. -/
  | claim (i : ι) (c : κ)
  /-- The name becomes free, whoever owns it. -/
  | release (i : ι)
  /-- The name goes to the owner and is published, if it is free. -/
  | claimLocal (i : ι) (c : κ)
  /-- The name becomes free, whoever owns it, and is no longer published. -/
  | releaseLocal (i : ι)
  /-- All names of the owner become free. -/
  | leave (c : κ)

variable [DecidableEq ι] [DecidableEq κ]

/-- The directory after one operation. -/
def apply (d : Directory ι κ) : Op ι κ → Directory ι κ
  | .idle => d
  | .upgrade c => { d with gateways := insert c d.gateways }
  | .claim i c =>
    if d.owner i = none then { d with owner := Function.update d.owner i (some c) } else d
  | .release i => { d with owner := Function.update d.owner i none }
  | .claimLocal i c =>
    if d.owner i = none then
      { d with owner := Function.update d.owner i (some c), published := insert i d.published }
    else d
  | .releaseLocal i =>
    { d with owner := Function.update d.owner i none, published := d.published \ {i} }
  | .leave c => { d with owner := fun i => if d.owner i = some c then none else d.owner i }

/-- The operation takes the name `i` away from the owner `c`. -/
def Op.Takes (i : ι) (c : κ) : Op ι κ → Prop
  | .release j => j = i
  | .releaseLocal j => j = i
  | .leave c' => c' = c
  | _ => False

/-- An entry survives an operation exactly when the operation does not take it away. -/
theorem owner_apply_iff {d : Directory ι κ} {i : ι} {c : κ} (h : d.owner i = some c)
    (op : Op ι κ) : (d.apply op).owner i = some c ↔ ¬ op.Takes i c := by
  cases op with
  | idle => simp [apply, Op.Takes, h]
  | upgrade c' => simp [apply, Op.Takes, h]
  | claim j c' =>
    by_cases hj : i = j
    -- The name is taken, so the claim does nothing.
    · subst hj
      simp [apply, Op.Takes, h]
    · simp only [apply, Op.Takes, not_false_eq_true, iff_true]
      split
      · simp [Function.update_of_ne hj, h]
      · exact h
  | release j =>
    by_cases hj : i = j
    · simp [apply, Op.Takes, hj]
    · simp [apply, Op.Takes, Function.update_of_ne hj, h, Ne.symm hj]
  | claimLocal j c' =>
    by_cases hj : i = j
    · subst hj
      simp [apply, Op.Takes, h]
    · simp only [apply, Op.Takes, not_false_eq_true, iff_true]
      split
      · simp [Function.update_of_ne hj, h]
      · exact h
  | releaseLocal j =>
    by_cases hj : i = j
    · simp [apply, Op.Takes, hj]
    · simp [apply, Op.Takes, Function.update_of_ne hj, h, Ne.symm hj]
  | leave c' => simp [apply, Op.Takes, h, eq_comm]

/-- An entry after an operation was there before, or the operation claimed it. -/
theorem owner_of_owner_apply {d : Directory ι κ} {i : ι} {c : κ} {op : Op ι κ}
    (h : (d.apply op).owner i = some c) :
    d.owner i = some c ∨ op = .claim i c ∨ op = .claimLocal i c := by
  cases op with
  | idle => exact Or.inl h
  | upgrade c' => exact Or.inl h
  | claim j c' =>
    simp only [apply] at h
    split at h
    · by_cases hj : i = j
      · subst hj
        simp only [Function.update_self, Option.some.injEq] at h
        exact Or.inr (Or.inl (by rw [h]))
      · simp only [Function.update_of_ne hj] at h
        exact Or.inl h
    · exact Or.inl h
  | release j =>
    by_cases hj : i = j
    · simp [apply, hj] at h
    · exact Or.inl (by simpa [apply, Function.update_of_ne hj] using h)
  | claimLocal j c' =>
    simp only [apply] at h
    split at h
    · by_cases hj : i = j
      · subst hj
        simp only [Function.update_self, Option.some.injEq] at h
        exact Or.inr (Or.inr (by rw [h]))
      · simp only [Function.update_of_ne hj] at h
        exact Or.inl h
    · exact Or.inl h
  | releaseLocal j =>
    by_cases hj : i = j
    · simp [apply, hj] at h
    · exact Or.inl (by simpa [apply, Function.update_of_ne hj] using h)
  | leave c' =>
    simp only [apply] at h
    split at h
    · cases h
    · exact Or.inl h

/-- The operation, taken in the directory `d`, keeps the published set right. -/
def Keeps (d : Directory ι κ) : Op ι κ → Prop
  | .idle => True
  | .upgrade c => c ∈ d.gateways ∨ d.OwnsNothing c
  | .claim i c => d.owner i = none → c ∈ d.gateways
  | .release i => ∀ c, d.owner i = some c → c ∈ d.gateways
  | .claimLocal i c => d.owner i = none → c ∉ d.gateways
  | .releaseLocal _ => True
  | .leave c => c ∈ d.gateways ∨ d.OwnsNothing c

theorem isLocal_upgrade (d : Directory ι κ) (c : κ) (i : ι) :
    (d.apply (.upgrade c)).IsLocal i ↔ d.IsLocal i ∧ d.owner i ≠ some c := by
  simp only [IsLocal, apply, Set.mem_insert_iff, not_or]
  constructor
  · rintro ⟨c', h, hne, hg⟩
    exact ⟨⟨c', h, hg⟩, by simpa [h] using hne⟩
  · rintro ⟨⟨c', h, hg⟩, hne⟩
    exact ⟨c', h, by simpa [h] using hne, hg⟩

theorem isLocal_leave (d : Directory ι κ) (c : κ) (i : ι) :
    (d.apply (.leave c)).IsLocal i ↔ d.IsLocal i ∧ d.owner i ≠ some c := by
  simp only [IsLocal, apply]
  by_cases h : d.owner i = some c
  · simp [h]
  · simp [h]

/-- A claim of a free name does not change the published set, so the new entry must not be a local
one. -/
theorem consistent_claim_iff {d : Directory ι κ} (h : d.Consistent) {i : ι} (hi : d.owner i = none)
    (c : κ) : (d.apply (.claim i c)).Consistent ↔ c ∈ d.gateways := by
  rw [consistent_iff_of_published_eq h (d.apply (.claim i c)) (by simp [apply, hi])]
  simp only [apply, hi, if_true]
  constructor
  · intro hall
    by_contra hc
    obtain ⟨c', hc', -⟩ := (hall i).mp ⟨c, Function.update_self .., hc⟩
    rw [hi] at hc'
    cases hc'
  · intro hc j
    by_cases hj : j = i
    · subst hj
      simp [IsLocal, hi, hc]
    · simp [IsLocal, Function.update_of_ne hj]

/-- A release does not either, so the entry that goes must not have been a local one. -/
theorem consistent_release_iff {d : Directory ι κ} (h : d.Consistent) (i : ι) :
    (d.apply (.release i)).Consistent ↔ ∀ c, d.owner i = some c → c ∈ d.gateways := by
  rw [consistent_iff_of_published_eq h (d.apply (.release i)) rfl]
  constructor
  · intro hall c hc
    by_contra hg
    obtain ⟨c', hc', -⟩ := (hall i).mpr ⟨c, hc, hg⟩
    simp [apply] at hc'
  · intro hall j
    by_cases hj : j = i
    · subst hj
      simp only [IsLocal, apply, Function.update_self]
      constructor
      · rintro ⟨c, hc, -⟩
        cases hc
      · rintro ⟨c, hc, hg⟩
        exact absurd (hall c hc) hg
    · simp [IsLocal, apply, Function.update_of_ne hj]

/-- A claim that publishes a free name must be for a local entry. -/
theorem consistent_claimLocal_iff {d : Directory ι κ} (h : d.Consistent) {i : ι}
    (hi : d.owner i = none) (c : κ) :
    (d.apply (.claimLocal i c)).Consistent ↔ c ∉ d.gateways := by
  simp only [apply, hi, if_true]
  constructor
  · intro hcon
    obtain ⟨c', hc', hg⟩ := (hcon i).mp (Set.mem_insert i d.published)
    simp only [Function.update_self, Option.some.injEq] at hc'
    exact hc' ▸ hg
  · intro hc j
    by_cases hj : j = i
    · subst hj
      simp [IsLocal, hc]
    · simp [IsLocal, hj, h j]

/-- One operation on a consistent directory leaves it consistent exactly when `Keeps`
holds. -/
theorem consistent_apply_iff {d : Directory ι κ} (h : d.Consistent) (op : Op ι κ) :
    (d.apply op).Consistent ↔ d.Keeps op := by
  cases op with
  | idle => simp [apply, Keeps, h]
  | upgrade c =>
    rw [consistent_iff_of_published_eq h (d.apply (.upgrade c)) rfl,
      isLocal_iff_forall (isLocal_upgrade d c)]
    rfl
  | leave c =>
    rw [consistent_iff_of_published_eq h (d.apply (.leave c)) rfl,
      isLocal_iff_forall (isLocal_leave d c)]
    rfl
  | claim i c =>
    by_cases hi : d.owner i = none
    · rw [consistent_claim_iff h hi, Keeps, forall_prop_of_true hi]
    · simp [apply, hi, Keeps, h]
  | release i => exact consistent_release_iff h i
  | claimLocal i c =>
    by_cases hi : d.owner i = none
    · rw [consistent_claimLocal_iff h hi, Keeps, forall_prop_of_true hi]
    · simp [apply, hi, Keeps, h]
  -- The name leaves both sides, whoever owned it.
  | releaseLocal i =>
    simp only [Keeps, iff_true]
    intro j
    by_cases hj : j = i
    · subst hj
      simp [IsLocal, apply]
    · simp [IsLocal, apply, hj, h j]

end Directory

end CoreRaT.Lib
