import Mathlib.Algebra.Group.Nat.Defs
import Mathlib.Tactic.Common

/-!
# `CoreRaT.Lib.MaskedRing`: a ring with counters that wrap around

A ring of `size` slots, `size` a power of two, is used through counters of 64 bits that only go up.
The slot of a counter is its lower bits (`maskedSlot`), and the number of entries between two
counters is their difference. Both are right for numbers of any size, of which the counters are the
lower 64 bits: `toNat_sub_ofNat` for the difference, and `maskedSlot_ofNat_inj` for the slots, which
are different within a window of `size` numbers.
-/

set_option autoImplicit false

namespace CoreRaT.Lib

/-- The slot of a counter. -/
def maskedSlot (size i : UInt64) : UInt64 := i &&& (size - 1)

/-- The size is a power of two. -/
def PowerOfTwo (size : UInt64) : Prop := ∃ k, size.toNat = 2 ^ k

variable {size : UInt64}

/-- The usual test for a power of two lets 0 through as well. -/
theorem powerOfTwo_iff : PowerOfTwo size ↔ size ≠ 0 ∧ size &&& (size - 1) = 0 := by
  have hzero : size ≠ 0 ↔ size.toNat ≠ 0 := not_congr UInt64.toNat_inj.symm
  have hmask : size ≠ 0 → (size &&& (size - 1) = 0 ↔ size.toNat &&& (size.toNat - 1) = 0) := by
    intro hne
    have hone : (1 : UInt64) ≤ size :=
      UInt64.le_iff_toNat_le.mpr (Nat.pos_of_ne_zero (hzero.mp hne))
    rw [← UInt64.toNat_inj, UInt64.toNat_and, UInt64.toNat_sub_of_le _ _ hone]
    rfl
  have hpow : PowerOfTwo size ↔ size.toNat ≠ 0 ∧ size.toNat &&& (size.toNat - 1) = 0 :=
    Nat.ne_zero_and_sub_one_eq_zero_iff_isPowerOfTwo.symm
  rw [hpow, ← hzero]
  exact and_congr_right fun hne => (hmask hne).symm

theorem PowerOfTwo.pos (h : PowerOfTwo size) : 0 < size.toNat := by
  obtain ⟨k, hk⟩ := h
  rw [hk]
  exact Nat.two_pow_pos k

theorem PowerOfTwo.dvd (h : PowerOfTwo size) : size.toNat ∣ 2 ^ 64 := by
  obtain ⟨k, hk⟩ := h
  have hlt : 2 ^ k < 2 ^ 64 := hk ▸ size.toNat_lt
  rw [hk]
  exact Nat.pow_dvd_pow 2 (Nat.le_of_lt ((Nat.pow_lt_pow_iff_right (by decide)).mp hlt))

/-- The slot of a number. -/
theorem PowerOfTwo.toNat_maskedSlot (h : PowerOfTwo size) (n : Nat) :
    (maskedSlot size (UInt64.ofNat n)).toNat = n % size.toNat := by
  have hpos := h.pos
  have hsub : (size - 1).toNat = size.toNat - 1 :=
    UInt64.toNat_sub_of_le _ _ (UInt64.le_iff_toNat_le.mpr hpos)
  rw [maskedSlot, UInt64.toNat_and, hsub, UInt64.toNat_ofNat', ← Nat.mod_mod_of_dvd n h.dvd]
  obtain ⟨k, hk⟩ := h
  rw [hk, Nat.and_two_pow_sub_one_eq_mod]

/-- Numbers that are less than `size` apart have different slots. -/
theorem PowerOfTwo.maskedSlot_ofNat_inj (h : PowerOfTwo size) {m n : Nat} (hle : m ≤ n)
    (hlt : n < m + size.toNat)
    (heq : maskedSlot size (UInt64.ofNat m) = maskedSlot size (UInt64.ofNat n)) : m = n := by
  have hmod := congrArg UInt64.toNat heq
  rw [h.toNat_maskedSlot, h.toNat_maskedSlot] at hmod
  have hdvd : size.toNat ∣ n - m :=
    Nat.dvd_of_mod_eq_zero (Nat.sub_mod_eq_zero_of_mod_eq hmod.symm)
  have hzero : n - m = 0 := Nat.eq_zero_of_dvd_of_lt hdvd (by omega)
  omega

/-- The difference of two counters is that of the numbers. -/
theorem toNat_sub_ofNat {m n : Nat} (hle : m ≤ n) (hlt : n - m < 2 ^ 64) :
    (UInt64.ofNat n - UInt64.ofNat m).toNat = n - m := by
  rw [UInt64.toNat_sub, UInt64.toNat_ofNat', UInt64.toNat_ofNat']
  omega

/-- Two counters agree when the numbers do, and only then if they are close. -/
theorem ofNat_eq_ofNat_iff {m n : Nat} (hle : m ≤ n) (hlt : n - m < 2 ^ 64) :
    UInt64.ofNat n = UInt64.ofNat m ↔ m = n := by
  constructor
  · intro heq
    have hsub := toNat_sub_ofNat hle hlt
    rw [heq, UInt64.sub_self] at hsub
    simp only [UInt64.toNat_zero] at hsub
    omega
  · rintro rfl
    rfl

/-- A counter goes on to the next number. -/
theorem ofNat_add_one (n : Nat) : UInt64.ofNat n + 1 = UInt64.ofNat (n + 1) :=
  (UInt64.ofNat_add n 1).symm

end CoreRaT.Lib
