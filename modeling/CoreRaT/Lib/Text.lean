import Mathlib.Algebra.Group.Nat.Defs
import Mathlib.Data.List.Basic
import Mathlib.Tactic.Common

/-!
# `CoreRaT.Lib.Text`: numbers in text

Text is a list of characters. `decimal` writes a number and `takeWhile Char.isDigit` finds it again
in front of anything that does not go on with a digit (`takeWhile_decimal`), so `decimal` is
injective. `find` and `rfind` are the first and the last place of a character, and `padded` fills a
number up with zeros.

A text of fields with known widths is taken apart by `splitWidths`, and one of lines by `readLines`.
-/

set_option autoImplicit false

namespace CoreRaT.Lib

/-! ### Places -/

/-- The first place of `c`. -/
def find (c : Char) (s : List Char) : Option Nat := s.findIdx? (· = c)

/-- The last place of `c`. -/
def rfind (c : Char) : List Char → Option Nat
  | [] => none
  | x :: xs =>
    match rfind c xs with
    | some i => some (i + 1)
    | none => if x = c then some 0 else none

theorem find_eq_none {c : Char} {s : List Char} : find c s = none ↔ c ∉ s := by
  simp only [find, List.findIdx?_eq_none_iff, decide_eq_false_iff_not]
  constructor
  · exact fun h hc => h c hc rfl
  · rintro h x hx rfl
    exact h hx

/-- The place behind a text without `c`. -/
theorem find_append {c : Char} {s : List Char} (hs : c ∉ s) (t : List Char) :
    find c (s ++ c :: t) = some s.length := by
  induction s with
  | nil => simp [find, List.findIdx?_cons]
  | cons x xs ih =>
    have hx : x ≠ c := fun h => hs (by simp [h])
    have hxs := ih fun h => hs (by simp [h])
    rw [find] at hxs
    simp [find, List.findIdx?_cons, hx, hxs]

theorem rfind_eq_none {c : Char} {s : List Char} : rfind c s = none ↔ c ∉ s := by
  induction s with
  | nil => simp [rfind]
  | cons x xs ih =>
    cases hxs : rfind c xs with
    | none =>
      have hc := ih.mp hxs
      by_cases hx : x = c
      · simp [rfind, hxs, hx]
      · simp [rfind, hxs, hx, hc, Ne.symm hx]
    | some i =>
      have hc : c ∈ xs := by
        by_contra hc
        rw [ih.mpr hc] at hxs
        cases hxs
      simp [rfind, hxs, hc]

/-- The place in front of a text without `c`. -/
theorem rfind_append {c : Char} {t : List Char} (ht : c ∉ t) (s : List Char) :
    rfind c (s ++ c :: t) = some s.length := by
  induction s with
  | nil => simp [rfind, rfind_eq_none.mpr ht]
  | cons x xs ih => simp [rfind, ih]

/-! ### Numbers -/

/-- The decimal digits of `n`, without zeros in front. -/
def decimal (n : Nat) : List Char := Nat.toDigits 10 n

/-- The number that decimal digits stand for. -/
def ofDecimal (s : List Char) : Nat := Nat.ofDigitChars 10 s 0

/-- Text that is filled up with zeros in front to a width. -/
def padded (width : Nat) (s : List Char) : List Char :=
  List.replicate (width - s.length) '0' ++ s

theorem isDigit_of_mem_decimal {n : Nat} {c : Char} (hc : c ∈ decimal n) : c.isDigit :=
  Nat.isDigit_of_mem_toDigits (by omega) (by omega) hc

theorem decimal_ne_nil (n : Nat) : decimal n ≠ [] := Nat.toDigits_ne_nil

@[simp] theorem ofDecimal_decimal (n : Nat) : ofDecimal (decimal n) = n :=
  Nat.ofDigitChars_ten_toDigits

theorem decimal_injective : Function.Injective decimal := by
  intro m n h
  rw [← ofDecimal_decimal m, h, ofDecimal_decimal]

/-- A character that is no digit is not in a number. -/
theorem not_mem_decimal {c : Char} (hc : c.isDigit = false) (n : Nat) : c ∉ decimal n := by
  intro hmem
  rw [isDigit_of_mem_decimal hmem] at hc
  cases hc

theorem length_decimal_le {n width : Nat} (hwidth : 0 < width) (hn : n < 10 ^ width) :
    (decimal n).length ≤ width :=
  (Nat.length_toDigits_le_iff (by omega) hwidth).mpr hn

/-- The digits in front of a text that does not start with one. -/
theorem takeWhile_decimal (n : Nat) {rest : List Char}
    (hrest : ∀ c ∈ rest.head?, c.isDigit = false) :
    (decimal n ++ rest).takeWhile Char.isDigit = decimal n := by
  rw [List.takeWhile_append_of_pos fun c hc => isDigit_of_mem_decimal hc]
  cases rest with
  | nil => simp
  | cons c cs => simp [hrest c rfl]

theorem length_padded {width : Nat} {s : List Char} (hs : s.length ≤ width) :
    (padded width s).length = width := by
  simp only [padded, List.length_append, List.length_replicate]
  omega

@[simp] theorem ofDecimal_padded (width n : Nat) : ofDecimal (padded width (decimal n)) = n := by
  have h : Nat.ofDigitChars 10 (decimal n) 0 = n := ofDecimal_decimal n
  simp [ofDecimal, padded, Nat.ofDigitChars_append, Nat.ofDigitChars_replicate_zero, h]

/-- The hexadecimal digits of `n`, with capital letters. -/
def hexadecimal (n : Nat) : List Char := (Nat.toDigits 16 n).map Char.toUpper

/-- What a hexadecimal digit stands for. -/
def hexValue (c : Char) : Nat := if c.isDigit then c.toNat - '0'.toNat else c.toNat - 'A'.toNat + 10

/-- The number that hexadecimal digits stand for. -/
def ofHexadecimal (s : List Char) : Nat := s.foldl (fun n c => 16 * n + hexValue c) 0

theorem hexValue_digitChar : ∀ d < 16, hexValue d.digitChar.toUpper = d := by decide

@[simp] theorem ofHexadecimal_hexadecimal (n : Nat) : ofHexadecimal (hexadecimal n) = n := by
  induction n using Nat.strongRecOn with
  | ind n ih =>
    unfold hexadecimal ofHexadecimal
    by_cases hsmall : n < 16
    · rw [Nat.toDigits_of_lt_base hsmall]
      simp [hexValue_digitChar n hsmall]
    · have hrest : ofHexadecimal (hexadecimal (n / 16)) = n / 16 := ih (n / 16) (by omega)
      unfold hexadecimal ofHexadecimal at hrest
      rw [Nat.toDigits_of_base_le (by omega) (by omega), List.map_append, List.foldl_append, hrest]
      simp only [List.map_cons, List.map_nil, List.foldl_cons, List.foldl_nil]
      rw [hexValue_digitChar (n % 16) (by omega)]
      omega

theorem exists_of_mem_hexadecimal {n : Nat} {c : Char} (hc : c ∈ hexadecimal n) :
    ∃ d < 16, c = d.digitChar.toUpper := by
  induction n using Nat.strongRecOn with
  | ind n ih =>
    by_cases hsmall : n < 16
    · rw [hexadecimal, Nat.toDigits_of_lt_base hsmall] at hc
      exact ⟨n, hsmall, by simpa using hc⟩
    · rw [hexadecimal, Nat.toDigits_of_base_le (by omega) (by omega), List.map_append,
        List.mem_append] at hc
      rcases hc with hc | hc
      · exact ih (n / 16) (by omega) hc
      · exact ⟨n % 16, by omega, by simpa using hc⟩

theorem length_hexadecimal_le {n width : Nat} (hwidth : 0 < width) (hn : n < 16 ^ width) :
    (hexadecimal n).length ≤ width := by
  rw [hexadecimal, List.length_map]
  exact (Nat.length_toDigits_le_iff (by omega) hwidth).mpr hn

@[simp] theorem ofHexadecimal_padded (width n : Nat) :
    ofHexadecimal (padded width (hexadecimal n)) = n := by
  have hzeros (k : Nat) :
      (List.replicate k '0').foldl (fun n c => 16 * n + hexValue c) 0 = 0 := by
    induction k with
    | zero => rfl
    | succ k ih =>
      rw [List.replicate_succ, List.foldl_cons]
      exact ih
  rw [ofHexadecimal, padded, List.foldl_append, hzeros]
  exact ofHexadecimal_hexadecimal n

/-! ### Fields and lines -/

/-- Fields of these widths, and the rest of the text. -/
def splitWidths : List Nat → List Char → List (List Char) × List Char
  | [], s => ([], s)
  | w :: ws, s =>
    match splitWidths ws (s.drop w) with
    | (fields, rest) => (s.take w :: fields, rest)

theorem splitWidths_flatten (fields : List (List Char)) (rest : List Char) :
    splitWidths (fields.map List.length) (fields.flatten ++ rest) = (fields, rest) := by
  induction fields with
  | nil => rfl
  | cons f fs ih =>
    simp only [List.map_cons, List.flatten_cons, List.append_assoc, splitWidths, List.take_left,
      List.drop_left, ih]

/-- The lines of a text. What is behind the last end of a line is not a line yet. -/
def readLines : List Char → List (List Char)
  | [] => []
  | c :: cs =>
    if c = '\n' then [] :: readLines cs
    else
      match readLines cs with
      | [] => []
      | l :: ls => (c :: l) :: ls

theorem readLines_append {l : List Char} (hl : '\n' ∉ l) (rest : List Char) :
    readLines (l ++ '\n' :: rest) = l :: readLines rest := by
  induction l with
  | nil => simp [readLines]
  | cons c cs ih =>
    have hc : c ≠ '\n' := fun h => hl (by simp [h])
    simp [readLines, hc, ih fun h => hl (by simp [h])]

/-- The lines that have been written one after the other. -/
theorem readLines_flatMap {α : Type} (line : α → List Char) {xs : List α}
    (hlines : ∀ x ∈ xs, '\n' ∉ line x) :
    readLines (xs.flatMap fun x => line x ++ ['\n']) = xs.map line := by
  induction xs with
  | nil => rfl
  | cons x xs ih =>
    have hrest := ih fun y hy => hlines y (by simp [hy])
    rw [List.flatMap_cons, List.append_assoc, List.singleton_append,
      readLines_append (hlines x (by simp)), hrest, List.map_cons]

end CoreRaT.Lib
