import Mathlib.Data.List.Dedup
import Mathlib.Data.List.Induction
import Mathlib.Data.List.Nodup

/-!
# `CoreRaT.Lib.LruList`: the keys that were used most recently

A list of keys, the one used last in front. `request` moves a key to the front, or puts it there,
and then the list is cut off at `n` keys, so that the key that was used least recently gives way.

`foldl_request` says what is in the list after any requests: the `n` keys that were requested most
recently. `List.dedup` keeps the last occurrence of each key.
-/

set_option autoImplicit false

namespace CoreRaT.Lib

namespace LruList

variable {κ : Type} [DecidableEq κ]

/-- A request for the key `k`, in a list of at most `n` keys. -/
def request (n : Nat) (l : List κ) (k : κ) : List κ := (k :: l.erase k).take n

/-- The `n` different keys that were requested most recently. -/
def recent (n : Nat) (requests : List κ) : List κ := requests.dedup.reverse.take n

variable {n : Nat} {l : List κ} {k : κ}

/-! ### One request -/

/-- A key of the list. -/
theorem request_of_mem (hk : k ∈ l) (hlen : l.length ≤ n) : request n l k = k :: l.erase k := by
  refine List.take_of_length_le ?_
  have hpos := List.length_pos_of_mem hk
  rw [List.length_cons, List.length_erase_of_mem hk]
  omega

/-- A new key, when there is room. -/
theorem request_of_lt (hk : k ∉ l) (hlen : l.length < n) : request n l k = k :: l := by
  rw [request, List.erase_of_not_mem hk]
  exact List.take_of_length_le (by rw [List.length_cons]; omega)

/-- A new key in a full list: the last one gives way. -/
theorem request_of_full {k' : κ} (hk : k ∉ l ++ [k']) (hlen : (l ++ [k']).length = n) :
    request n (l ++ [k']) k = k :: l := by
  rw [request, List.erase_of_not_mem hk]
  have hcut : (k :: (l ++ [k'])).take n = (k :: l ++ [k']).take (k :: l).length := by
    rw [List.length_append, List.length_singleton] at hlen
    rw [List.length_cons, hlen, List.cons_append]
  rw [hcut, List.take_left]

theorem nodup_request (h : l.Nodup) (n : Nat) (k : κ) : (request n l k).Nodup :=
  (List.nodup_cons.mpr ⟨h.not_mem_erase, h.erase k⟩).sublist (List.take_sublist ..)

/-! ### All requests -/

/-- What is behind the cut does not matter for what is in front of it. -/
theorem take_erase_take (l : List κ) (k : κ) (n : Nat) :
    ((l.take (n + 1)).erase k).take n = (l.erase k).take n := by
  induction l generalizing n with
  | nil => rfl
  | cons a l ih =>
    by_cases ha : a = k
    · subst ha
      simp [List.take_take]
    · cases n with
      | zero => simp
      | succ n => simp [ha, ih]

theorem dedup_concat (requests : List κ) (k : κ) :
    (requests ++ [k]).dedup = requests.dedup.erase k ++ [k] := by
  induction requests with
  | nil => simp
  | cons a requests ih =>
    by_cases ha : a ∈ requests
    · rw [List.cons_append, List.dedup_cons_of_mem (List.mem_append_left _ ha),
        List.dedup_cons_of_mem ha, ih]
    · by_cases hak : a = k
      · subst hak
        rw [List.cons_append, List.dedup_cons_of_mem (by simp), List.dedup_cons_of_notMem ha, ih,
          List.erase_cons_head, List.erase_of_not_mem (by simpa using ha)]
      · rw [List.cons_append, List.dedup_cons_of_notMem (by simp [ha, hak]),
          List.dedup_cons_of_notMem ha, ih, List.erase_cons_tail (by simpa using hak),
          List.cons_append]

theorem recent_concat (requests : List κ) (k : κ) :
    recent n (requests ++ [k]) = request n (recent n requests) k := by
  have hreverse : (requests.dedup.erase k).reverse = requests.dedup.reverse.erase k := by
    have hnodup := List.nodup_dedup requests
    rw [hnodup.erase_eq_filter, (List.nodup_reverse.mpr hnodup).erase_eq_filter,
      List.filter_reverse]
  rw [recent, dedup_concat, List.reverse_append, List.reverse_singleton, List.singleton_append,
    hreverse]
  cases n with
  | zero => rfl
  | succ n =>
    rw [request, recent, List.take_succ_cons, List.take_succ_cons, take_erase_take]

/-- After any requests, the list has the keys that were requested most recently. -/
theorem foldl_request (n : Nat) (requests : List κ) :
    requests.foldl (request n) [] = recent n requests := by
  induction requests using List.reverseRecOn with
  | nil => simp [recent]
  | append_singleton requests k ih =>
    rw [List.foldl_append, List.foldl_cons, List.foldl_nil, ih, recent_concat]

end LruList

end CoreRaT.Lib
