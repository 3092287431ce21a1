import CoreRaT.Spec.ObjectNames

/-!
# `CoreRaT.Proofs.ObjectNames`: a name says which object is meant

No name is cut off, and two names are the same only when they are for the same kind of object of the
same mailbox (`names_identify`). So it is enough to know kind and id, as in
`Spec/MailboxResources.lean` and `Spec/RemoteHandles.lean`.
-/

set_option autoImplicit false

namespace CoreRaT.Spec.ObjectNames

open CoreRaT.Lib

/-! ### `snprintf` -/

section Snprintf

variable {size : Nat} {text : List Char}

/-- A text that fits. -/
theorem buf_snprintf (hfits : text.length < size) :
    (snprintf size text).buf = text ++ ['\x00'] := by
  rw [snprintf, List.take_of_length_le (by omega)]

theorem cStr_snprintf (hfits : text.length < size) (hnul : '\x00' ∉ text) :
    (snprintf size text).cStr = text := by
  have htext : ∀ c ∈ text, decide (c ≠ '\x00') = true := by
    intro c hc
    rw [decide_eq_true_eq]
    rintro rfl
    exact hnul hc
  rw [Printed.cStr, buf_snprintf hfits, List.takeWhile_append_of_pos htext]
  simp

theorem view_snprintf (hfits : text.length < size) : (snprintf size text).view = text := by
  rw [Printed.view, buf_snprintf hfits]
  simp [snprintf]

end Snprintf

/-! ### Names -/

theorem length_decimal_id (id : MailboxId) : (decimal id.toNat).length ≤ 10 :=
  length_decimal_le (by omega) (by have := id.toNat_lt; omega)

theorem nul_not_mem_name (kind : ObjectKind) (id : MailboxId) :
    '\x00' ∉ kind.leading ++ decimal id.toNat := by
  rw [List.mem_append]
  rintro (h | h)
  · revert h
    cases kind <;> decide
  · exact not_mem_decimal rfl _ h

/-- Every name fits into its buffer. -/
theorem length_name (kind : ObjectKind) (id : MailboxId) :
    (kind.leading ++ decimal id.toNat).length < 64 := by
  have hdigits := length_decimal_id id
  have hleading : kind.leading.length ≤ 17 := by cases kind <;> decide
  rw [List.length_append]
  omega

theorem length_xbufPath (id : MailboxId) :
    (xbufPathLeading ++ decimal id.toNat).length < 64 := by
  have hdigits := length_decimal_id id
  have hleading : xbufPathLeading.length = 27 := by decide +kernel
  rw [List.length_append]
  omega

/-- The name without its digits. -/
theorem takeWhile_name (kind : ObjectKind) (id : MailboxId) :
    (kind.leading ++ decimal id.toNat).takeWhile (fun c => !c.isDigit) = kind.leading := by
  have hall : kind.leading.all (fun c => !c.isDigit) = true := by cases kind <;> decide
  have hleading : ∀ c ∈ kind.leading, (!c.isDigit) = true := List.all_eq_true.mp hall
  obtain ⟨c, cs, hcs⟩ := List.exists_cons_of_ne_nil (decimal_ne_nil id.toNat)
  have hc : c.isDigit := isDigit_of_mem_decimal (hcs ▸ List.mem_cons_self ..)
  rw [List.takeWhile_append_of_pos hleading, hcs]
  simp [hc]

theorem leading_injective {kind kind' : ObjectKind} (h : kind.leading = kind'.leading) :
    kind = kind' := by
  revert h
  cases kind <;> cases kind' <;> decide

theorem name_injective {kind kind' : ObjectKind} {id id' : MailboxId}
    (h : kind.leading ++ decimal id.toNat = kind'.leading ++ decimal id'.toNat) :
    kind = kind' ∧ id = id' := by
  have hleading : kind.leading = kind'.leading := by
    rw [← takeWhile_name kind id, h, takeWhile_name]
  rw [hleading] at h
  have hdigits := decimal_injective (List.append_cancel_left h)
  exact ⟨leading_injective hleading, UInt32.toNat_inj.mp hdigits⟩

theorem cStr_evlName (kind : ObjectKind) (id : MailboxId) :
    (evlName kind id).cStr = kind.leading ++ decimal id.toNat :=
  cStr_snprintf (length_name kind id) (nul_not_mem_name kind id)

/-- Two buffers are the same when their strings are. -/
theorem buf_evlName_inj {kind kind' : ObjectKind} {id id' : MailboxId} :
    (evlName kind id).buf = (evlName kind' id').buf ↔ kind = kind' ∧ id = id' := by
  constructor
  · intro hbuf
    have hstr : (evlName kind id).cStr = (evlName kind' id').cStr := by
      rw [Printed.cStr, Printed.cStr, hbuf]
    rw [cStr_evlName, cStr_evlName] at hstr
    exact name_injective hstr
  · rintro ⟨rfl, rfl⟩
    rfl

/-- The router looks for the xbuf of the mailbox. -/
theorem cStr_xbufPath (id : MailboxId) : (xbufPath id).cStr = xbufFile (evlName .xbuf id).cStr := by
  have hnul : '\x00' ∉ xbufPathLeading ++ decimal id.toNat := by
    rw [List.mem_append]
    rintro (h | h)
    · revert h
      decide
    · exact not_mem_decimal rfl _ h
  have hdirectory : xbufPathLeading = xbufDirectory ++ ObjectKind.xbuf.leading := by decide
  rw [xbufPath, cStr_snprintf (length_xbufPath id) hnul, cStr_evlName, xbufFile, hdirectory,
    List.append_assoc]

/-! ### `create_backend_config` -/

/-- The loop writes the digits from the last one on. -/
theorem writeDigits_eq {v : Nat} (hv : v ≠ 0) : writeDigits v = (decimal v).reverse := by
  induction v using Nat.strongRecOn with
  | ind v ih =>
    have hdigit : ∀ d < 10, Char.ofNat ('0'.toNat + d) = d.digitChar := by decide
    rw [writeDigits, if_neg hv, hdigit (v % 10) (by omega)]
    unfold decimal
    by_cases hsmall : v < 10
    · have hzero : v / 10 = 0 := by omega
      rw [hzero, writeDigits, Nat.toDigits_of_lt_base hsmall, Nat.mod_eq_of_lt hsmall]
      rfl
    · have hrest := ih (v / 10) (by omega) (by omega)
      rw [hrest, Nat.toDigits_of_base_le (by omega) (by omega), List.reverse_append]
      rfl

theorem digits_eq (id : MailboxId) : digits id = (decimal id.toNat).reverse := by
  unfold digits
  split
  · case isTrue hzero =>
    rw [hzero]
    rfl
  · case isFalse hne => exact writeDigits_eq hne

/-- Characters are appended to a string with room for them. -/
theorem foldl_pushBack {pushBack : List Char → Char → List Char} {capacity : Nat}
    (hpush : ∀ s c, s.length < capacity → pushBack s c = s ++ [c]) (cs s : List Char)
    (hroom : s.length + cs.length ≤ capacity) : cs.foldl pushBack s = s ++ cs := by
  induction cs generalizing s with
  | nil => simp
  | cons c cs ih =>
    rw [List.length_cons] at hroom
    rw [List.foldl_cons, hpush s c (by omega), ih]
    · simp
    · rw [List.length_append, List.length_singleton]
      omega

/-- **A name says which object is meant.** Take any two kinds of objects and any two ids. The name
is not cut off in its buffer, whether it is read as a C string or as the `string_view`. The buffers
are the same only for the same kind and the same id. The path that the EVL router opens for an id is
that of the xbuf of this mailbox, and of no other object. The digits of `create_backend_config` fit
into their array, and the name into a string of 32 characters. -/
theorem names_identify (pushBack : List Char → Char → List Char)
    (hpush : ∀ s c, s.length < 32 → pushBack s c = s ++ [c]) (kind kind' : ObjectKind)
    (id id' : MailboxId) :
    (evlName kind id).cStr = kind.leading ++ decimal id.toNat ∧
      (evlName kind id).view = (evlName kind id).cStr ∧
      ((evlName kind id).buf = (evlName kind' id').buf ↔ kind = kind' ∧ id = id') ∧
      ((xbufPath id).cStr = xbufFile (evlName kind' id').cStr ↔ kind' = .xbuf ∧ id = id') ∧
      (digits id).length < 11 ∧
      mailboxName pushBack id = mailboxLeading ++ decimal id.toNat := by
  have hlength := length_decimal_id id
  refine ⟨cStr_evlName kind id, ?_, buf_evlName_inj, ?_, ?_, ?_⟩
  · exact (view_snprintf (length_name kind id)).trans (cStr_evlName kind id).symm
  · rw [cStr_xbufPath, xbufFile, xbufFile, List.append_cancel_left_eq, cStr_evlName, cStr_evlName]
    constructor
    · intro hname
      obtain ⟨hkind, hid⟩ := name_injective hname
      exact ⟨hkind.symm, hid⟩
    · rintro ⟨rfl, rfl⟩
      rfl
  · rw [digits_eq, List.length_reverse]
    omega
  · have hmailbox : mailboxLeading.length = 8 := by decide
    rw [mailboxName, digits_eq, List.reverse_reverse, foldl_pushBack hpush]
    omega

/-- The largest id, with a string that takes no more than its capacity. -/
theorem names_identify_largest :
    (evlName .xbuf 0xFFFFFFFF).cStr = "corerat-xbuf-4294967295".toList ∧
      mailboxName (fun s c => if s.length < 32 then s ++ [c] else s) 0xFFFFFFFF =
        "mailbox_4294967295".toList := by
  have h := names_identify (fun s c => if s.length < 32 then s ++ [c] else s)
    (fun s c hs => if_pos hs) .xbuf .shm 0xFFFFFFFF 0
  exact ⟨h.1, h.2.2.2.2.2⟩

end CoreRaT.Spec.ObjectNames
