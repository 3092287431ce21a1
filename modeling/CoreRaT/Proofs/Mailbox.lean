import CoreRaT.Proofs.Registry.Ids
import CoreRaT.Spec.Mailbox

/-!
# `CoreRaT.Proofs.Mailbox`: typed messages over a registry

`send_handed` says what bytes a send hands to its backend: the message with the id of its type and
with its size, serialized. `visit_eq` says what `visit` does with bytes: it reads them as the
payload of the first definition with the id. With distinct ids this definition is the one that
`send` has used (`visit_send`).

`receive` does not look at the id. It reads the bytes as whatever type the caller asks for
(`receive_typeSafe_iff`). The id of a reply is that of the first definition with its payload,
whichever request it answers (`sendReply_msgType_iff`).
-/

set_option autoImplicit false

namespace CoreRaT.Spec

open CoreRaT.Lib

variable {τ : Type} {V : τ → Type}

/-! ### A plain serialization -/

/-- Payloads of one byte. A message is its header and that byte. -/
def plainSertial (τ : Type) : Sertial τ fun _ => UInt8 where
  serialize _ m := m.header.encode ++ [m.payload]
  deserialize _ bytes :=
    match bytes.drop sizeofWireHeader with
    | [v] => some ⟨WireHeader.decode bytes, v⟩
    | _ => none

namespace plainSertial

theorem roundTrip : (plainSertial τ).RoundTrip := by
  intro t m
  have hdrop : (m.header.encode ++ [m.payload]).drop sizeofWireHeader = [m.payload] := rfl
  simp only [plainSertial, hdrop, WireHeader.decode_encode_append]

theorem headerFixed : (plainSertial τ).HeaderFixed := fun _ _ _ _ => rfl

theorem headerFirst : (plainSertial τ).HeaderFirst := by
  intro t m
  refine ⟨?_, WireHeader.decode_encode_append m.header _⟩
  show sizeofWireHeader ≤ 33
  decide

theorem readsLengths : (plainSertial τ).ReadsLengths := by
  intro t m bytes hlen
  have hone : (bytes.drop sizeofWireHeader).length = 1 := by
    rw [List.length_drop, hlen]
    rfl
  obtain ⟨v, hv⟩ := List.length_eq_one_iff.mp hone
  simp only [plainSertial, hv, Option.isSome_some]

end plainSertial

namespace MessageRegistry

variable {defs : List (MessageDefinition τ)}

/-- With distinct ids, the id of a definition says which it is. -/
theorem eq_of_messageId (hnodup : (messageIds defs).Nodup) {d e : MessageDefinition τ}
    (hd : d ∈ messageDefsTuple defs) (he : e ∈ messageDefsTuple defs)
    (hid : d.messageId = e.messageId) : d = e :=
  List.inj_on_of_nodup_map hnodup hd he hid

/-! ### `visit` -/

/-- `visit` reads the bytes as the payload of the first definition with the id. -/
theorem visitImpl_eq (S : Sertial τ V) (msgId : UInt32) (data : List UInt8)
    (ds : List (MessageDefinition τ)) :
    visitImpl S msgId data ds
      = match ds.find? (·.messageId = msgId) with
        | none => (false, [])
        | some d =>
          match S.deserialize d.payload data with
          | some m => (true, [⟨d.payload, m⟩])
          | none => (false, []) := by
  induction ds with
  | nil => rfl
  | cons d rest ih =>
    rw [visitImpl]
    by_cases hid : msgId = d.messageId
    · have hfind : (d :: rest).find? (·.messageId = msgId) = some d :=
        List.find?_cons_of_pos (by simp [hid])
      cases hm : S.deserialize d.payload data with
      | none => simp only [if_pos hid, hfind, hm]
      | some m => simp only [if_pos hid, hfind, hm]
    · rw [if_neg hid, ih, List.find?_cons_of_neg (by simpa using fun h => hid h.symm)]

/-- An id that is not registered. -/
theorem visit_of_not_mem (S : Sertial τ V) {msgId : UInt32} (h : msgId ∉ messageIds defs)
    (data : List UInt8) : visit S defs msgId data = (false, []) := by
  have hnone : (messageDefsTuple defs).find? (·.messageId = msgId) = none := by
    rw [List.find?_eq_none]
    intro d hd hid
    exact h (List.mem_map.mpr ⟨d, hd, by simpa using hid⟩)
  rw [visit, visitImpl_eq, hnone]

/-- With distinct ids, `visit` reads the bytes as the payload of the definition with the id. -/
theorem visit_of_mem (S : Sertial τ V) (hnodup : (messageIds defs).Nodup)
    {d : MessageDefinition τ} (hd : d ∈ messageDefsTuple defs) {data : List UInt8}
    {m : WireMessage V d.payload} (hm : S.deserialize d.payload data = some m) :
    visit S defs d.messageId data = (true, [⟨d.payload, m⟩]) := by
  have hfind : (messageDefsTuple defs).find? (·.messageId = d.messageId) = some d := by
    obtain ⟨e, he⟩ := Option.isSome_iff_exists.mp
      (List.find?_isSome.mpr ⟨d, hd, by simp⟩ :
        ((messageDefsTuple defs).find? (·.messageId = d.messageId)).isSome)
    rw [he, eq_of_messageId hnodup (List.mem_of_find?_eq_some he) hd
      (by simpa using List.find?_some he)]
  rw [visit, visitImpl_eq, hfind]
  simp only [hm]

/-! ### Lookup -/

/-- The definition of its reply stands right behind a request. -/
theorem expandReplies_getElem?_succ {R : MessageDefinition τ} {P : τ} (hP : R.reply = some P)
    (ds : List (MessageDefinition τ)) (k : Nat) (hR : (expandReplies ds)[k]? = some R) :
    (expandReplies ds)[k + 1]? = some (R.replyMessageDef P) := by
  induction ds generalizing k with
  | nil => cases hR
  | cons d rest ih =>
    rw [expandReplies] at hR ⊢
    cases hreply : d.reply with
    | none =>
      simp only [hreply] at hR ⊢
      cases k with
      | zero =>
        obtain rfl : d = R := Option.some.inj hR
        rw [hP] at hreply
        cases hreply
      | succ k => exact ih k hR
    | some r =>
      simp only [hreply] at hR ⊢
      cases k with
      | zero =>
        obtain rfl : d = R := Option.some.inj hR
        obtain rfl : P = r := Option.some.inj (hP.symm.trans hreply)
        rfl
      | succ k =>
        cases k with
        | zero =>
          -- The definition of a reply is no request.
          obtain rfl : d.replyMessageDef r = R := Option.some.inj hR
          cases hP
        | succ k => exact ih k hR

variable [DecidableEq τ]

theorem getMessageId_eq {t : τ} (h : IsRegistered defs t) {d : MessageDefinition τ}
    (hd : findMessageDef defs t = some d) : getMessageId defs t h = d.messageId := by
  simp only [getMessageId, hd, Option.get_some]

/-- The definition that gives a registered type its id. -/
theorem exists_findMessageDef {t : τ} (h : IsRegistered defs t) :
    ∃ d ∈ messageDefsTuple defs, findMessageDef defs t = some d ∧ d.payload = t ∧
      getMessageId defs t h = d.messageId := by
  obtain ⟨d, hd⟩ := Option.isSome_iff_exists.mp (isSome_findMessageDef h)
  refine ⟨d, List.mem_of_find?_eq_some hd, hd, ?_, getMessageId_eq h hd⟩
  simpa using List.find?_some hd

/-- With distinct ids, the id of a type is that of a definition just when the lookup finds the
definition. -/
theorem getMessageId_eq_iff (hnodup : (messageIds defs).Nodup) {t : τ} (h : IsRegistered defs t)
    {d : MessageDefinition τ} (hd : d ∈ messageDefsTuple defs) :
    getMessageId defs t h = d.messageId ↔ findMessageDef defs t = some d := by
  obtain ⟨e, he, hfind, -, hid⟩ := exists_findMessageDef h
  rw [hid, hfind]
  constructor
  · intro heq
    rw [eq_of_messageId hnodup he hd heq]
  · intro heq
    rw [Option.some.inj heq]

/-- Distinct payload types have distinct ids. -/
theorem getMessageId_ne (hnodup : (messageIds defs).Nodup) {t u : τ} (h : IsRegistered defs t)
    (h' : IsRegistered defs u) (hne : u ≠ t) :
    getMessageId defs u h' ≠ getMessageId defs t h := by
  obtain ⟨d, hd, -, rfl, hid⟩ := exists_findMessageDef h
  obtain ⟨e, he, -, rfl, hid'⟩ := exists_findMessageDef h'
  intro heq
  rw [hid, hid'] at heq
  exact hne (congrArg MessageDefinition.payload (eq_of_messageId hnodup he hd heq))

end MessageRegistry

open MessageRegistry

namespace Mailbox

/-! ### `receive` -/

theorem isSome_receive_message (S : Sertial τ V) (running : Bool) (bytes : List UInt8)
    (metadata : TimsMetadata) (t : τ) :
    (receive S running (.message bytes metadata) t).isSome ↔
      running = true ∧ bytes ≠ [] ∧ (S.deserialize t bytes).isSome := by
  cases running with
  | false => simp [receive]
  | true =>
    by_cases hnil : bytes = []
    · simp [receive, hnil]
    · have hlen : bytes.length ≠ 0 := by simpa using hnil
      simp [receive, hlen, hnil]

/-- Bytes of a length that a message of the type can have are read, whatever they are. -/
theorem isSome_receive_of_length {S : Sertial τ V} (hfirst : S.HeaderFirst)
    (hreads : S.ReadsLengths) {t : τ} {bytes : List UInt8} (m : WireMessage V t)
    (hlen : bytes.length = (S.serialize t m).length) (metadata : TimsMetadata) :
    (receive S true (.message bytes metadata) t).isSome := by
  rw [isSome_receive_message]
  refine ⟨rfl, ?_, hreads t m bytes hlen⟩
  rintro rfl
  have hheader : 32 ≤ (S.serialize t m).length := (hfirst t m).1
  rw [← hlen] at hheader
  simp at hheader

variable [DecidableEq τ] {defs : List (MessageDefinition τ)}

/-! ### `send` -/

/-- The header of the bytes that a send hands to the backend: the id of the type, and the size that
the first serialization has had. -/
def sentHeader (S : Sertial τ V) {t : τ} (h : IsRegistered defs t) (m : WireMessage V t) :
    WireHeader :=
  { m.header with
      msgType := getMessageId defs t h
      msgSize := UInt32.ofNat
        (S.serialize t { m with header.msgType := getMessageId defs t h }).length }

/-- What a send of a running mailbox hands to the backend. -/
theorem send_handed (S : Sertial τ V) (sendRaw : List UInt8 → MailboxId → TimsResult) {t : τ}
    (h : IsRegistered defs t) (m : WireMessage V t) {dest : MailboxId} (hdest : dest ≠ 0) :
    (send S defs true sendRaw h m dest).handed
      = some (S.serialize t ⟨sentHeader S h m, m.payload⟩, dest) := by
  simp only [send, Bool.not_true, Bool.false_eq_true, if_false, hdest]
  rfl

/-- The size in the header is the number of the bytes. -/
theorem msgSize_sentHeader {S : Sertial τ V} (hS : S.HeaderFixed) {t : τ}
    (h : IsRegistered defs t) (m : WireMessage V t) :
    (sentHeader S h m).msgSize
      = UInt32.ofNat (S.serialize t ⟨sentHeader S h m, m.payload⟩).length :=
  congrArg UInt32.ofNat (hS t ..)

/-- **A typed round trip.** Take a registry with distinct ids, a registered type, a payload and
whatever is in the header. The bytes that a send hands to its backend carry the id of the type and
their own number, as a `uint32_t`. `visit` with that id calls the visitor once, with a message of
the type and the payload that was sent. With an id that is not registered it calls nothing. -/
theorem visit_send (S : Sertial τ V) (hround : S.RoundTrip) (hfixed : S.HeaderFixed)
    (defs : List (MessageDefinition τ)) (hnodup : (messageIds defs).Nodup)
    (sendRaw : List UInt8 → MailboxId → TimsResult) {t : τ} (h : IsRegistered defs t)
    (m : WireMessage V t) (dest : MailboxId) (hdest : dest ≠ 0) :
    (∃ bytes header, (send S defs true sendRaw h m dest).handed = some (bytes, dest) ∧
      S.deserialize t bytes = some ⟨header, m.payload⟩ ∧
      header.msgType = getMessageId defs t h ∧ header.msgSize = UInt32.ofNat bytes.length ∧
      (bytes.length < 2 ^ 32 → header.msgSize.toNat = bytes.length) ∧
      visit S defs (getMessageId defs t h) bytes = (true, [⟨t, ⟨header, m.payload⟩⟩])) ∧
    ∀ (msgId : UInt32) (data : List UInt8), msgId ∉ messageIds defs →
      visit S defs msgId data = (false, []) := by
  refine ⟨⟨_, sentHeader S h m, send_handed S sendRaw h m hdest, hround t _, rfl,
    msgSize_sentHeader hfixed h m, ?_, ?_⟩, fun msgId data hno => visit_of_not_mem S hno data⟩
  · intro hlt
    rw [msgSize_sentHeader hfixed h m, UInt32.toNat_ofNat', Nat.mod_eq_of_lt hlt]
  · obtain ⟨d, hd, -, rfl, hid⟩ := exists_findMessageDef h
    rw [hid]
    exact visit_of_mem S hnodup hd (hround d.payload _)

/-- Two kinds of data. -/
def twoKinds : List (MessageDefinition Bool) :=
  [⟨false, MessagePrefix.UserDefined, UserSubPrefix.Data, 0, none⟩,
    ⟨true, MessagePrefix.UserDefined, UserSubPrefix.Data, 0, none⟩]

theorem nodup_twoKinds : (messageIds twoKinds).Nodup := by decide

theorem isRegistered_twoKinds (t : Bool) : IsRegistered twoKinds t := by
  cases t <;> decide

theorem visit_send_twoKinds :
    ∃ bytes header,
      (send (plainSertial Bool) twoKinds true (fun _ _ => .SUCCESS) (isRegistered_twoKinds true)
        ⟨.zero, 7⟩ 5).handed = some (bytes, 5) ∧
      header.msgType = 0x01000002 ∧ header.msgSize = 33 ∧
      visit (plainSertial Bool) twoKinds 0x01000002 bytes = (true, [⟨true, ⟨header, 7⟩⟩]) := by
  obtain ⟨⟨bytes, header, hhanded, -, htype, hsize, -, hvisit⟩, -⟩ :=
    visit_send (plainSertial Bool) plainSertial.roundTrip plainSertial.headerFixed twoKinds
      nodup_twoKinds (fun _ _ => .SUCCESS) (isRegistered_twoKinds true) ⟨.zero, 7⟩ 5 (by decide)
  have hid : getMessageId twoKinds true (isRegistered_twoKinds true) = 0x01000002 := by decide
  have hlen : bytes.length = 33 := by
    obtain rfl : _ = bytes := (Prod.mk.inj (Option.some.inj hhanded)).1
    rfl
  rw [hid] at htype hvisit
  rw [hlen] at hsize
  exact ⟨bytes, header, hhanded, htype, hsize, hvisit⟩

/-- **Typed receive.** Take a registry with distinct ids and a registered type. A receive of the
type returns a message with the id of the type only, exactly when the bytes carry that id, or the
mailbox does not run, or there are none, or they do not deserialize. Of the bytes that have the
length of a message of the type, these are the bytes with the id. So a message of another type is
presented as one of this type whenever the lengths agree. -/
theorem receive_typeSafe_iff (S : Sertial τ V) (hfirst : S.HeaderFirst) (hfixed : S.HeaderFixed)
    (hreads : S.ReadsLengths) (defs : List (MessageDefinition τ))
    (hnodup : (messageIds defs).Nodup) {t : τ} (h : IsRegistered defs t)
    (metadata : TimsMetadata) :
    (∀ (running : Bool) (bytes : List UInt8),
      ((receive S running (.message bytes metadata) t).isSome →
          (WireHeader.decode bytes).msgType = getMessageId defs t h) ↔
        (running = false ∨ bytes = [] ∨ S.deserialize t bytes = none ∨
          (WireHeader.decode bytes).msgType = getMessageId defs t h)) ∧
    (∀ (bytes : List UInt8) (m : WireMessage V t), bytes.length = (S.serialize t m).length →
      (((receive S true (.message bytes metadata) t).isSome →
          (WireHeader.decode bytes).msgType = getMessageId defs t h) ↔
        (WireHeader.decode bytes).msgType = getMessageId defs t h)) ∧
    ∀ (sendRaw : List UInt8 → MailboxId → TimsResult) (u : τ) (hu : IsRegistered defs u)
      (other : WireMessage V u) (m : WireMessage V t) (dest : MailboxId), u ≠ t → dest ≠ 0 →
      (S.serialize u other).length = (S.serialize t m).length →
      ∃ bytes, (send S defs true sendRaw hu other dest).handed = some (bytes, dest) ∧
        (WireHeader.decode bytes).msgType = getMessageId defs u hu ∧
        (WireHeader.decode bytes).msgType ≠ getMessageId defs t h ∧
        (receive S true (.message bytes metadata) t).isSome := by
  refine ⟨?_, ?_, ?_⟩
  · intro running bytes
    rw [isSome_receive_message, Option.isSome_iff_ne_none]
    simp only [← Bool.not_eq_true, ne_eq]
    tauto
  · intro bytes m hlen
    constructor
    · intro hsafe
      exact hsafe (isSome_receive_of_length hfirst hreads m hlen metadata)
    · intro hid _
      exact hid
  · intro sendRaw u hu other m dest hne hdest hlen
    have hid : (WireHeader.decode (S.serialize u ⟨sentHeader S hu other, other.payload⟩)).msgType
        = getMessageId defs u hu := by
      rw [(hfirst u _).2]
      rfl
    have hsent := (hfixed u (sentHeader S hu other) other.header other.payload).trans hlen
    refine ⟨_, send_handed S sendRaw hu other hdest, hid, ?_,
      isSome_receive_of_length hfirst hreads m hsent metadata⟩
    rw [hid]
    exact getMessageId_ne hnodup h hu hne

/-- A message of the second kind, as it is sent. -/
def secondKindBytes : List UInt8 :=
  WireHeader.encode { WireHeader.zero with msgType := 0x01000002, msgSize := 33 } ++ [7]

theorem receive_typeSafe_twoKinds :
    (receive (plainSertial Bool) true (.message secondKindBytes ⟨1, 2, 0, 0, 0⟩) true).isSome ∧
      (WireHeader.decode secondKindBytes).msgType
        = getMessageId twoKinds true (isRegistered_twoKinds true) := by
  have hsafe := (receive_typeSafe_iff (plainSertial Bool) plainSertial.headerFirst
    plainSertial.headerFixed plainSertial.readsLengths twoKinds nodup_twoKinds
    (isRegistered_twoKinds true) ⟨1, 2, 0, 0, 0⟩).2.1 secondKindBytes ⟨.zero, 7⟩ (by decide)
  exact ⟨by decide, hsafe.mp fun _ => by decide⟩

/-- It is received as a message of the first kind. -/
theorem second_kind_received_as_first :
    (messageIds twoKinds).Nodup ∧
      (send (plainSertial Bool) twoKinds true (fun _ _ => .SUCCESS) (isRegistered_twoKinds true)
        ⟨.zero, 7⟩ 2).handed = some (secondKindBytes, 2) ∧
      ¬ ((receive (plainSertial Bool) true (.message secondKindBytes ⟨1, 2, 0, 0, 0⟩)
          false).isSome →
        (WireHeader.decode secondKindBytes).msgType
          = getMessageId twoKinds false (isRegistered_twoKinds false)) := by
  refine ⟨nodup_twoKinds, by decide, ?_⟩
  decide

/-! ### `send_reply` -/

/-- **The id of a reply.** Take a registry with distinct ids, a request definition of it and a
received request. The bytes that `send_reply` hands to the backend carry the id of the reply to this
request exactly when no definition up to the request has the payload of the reply. -/
theorem sendReply_msgType_iff (S : Sertial τ V) (hfirst : S.HeaderFirst)
    (defs : List (MessageDefinition τ)) (hnodup : (messageIds defs).Nodup) {k : Nat}
    {R : MessageDefinition τ} (hR : (messageDefsTuple defs)[k]? = some R) {P : τ}
    (hP : R.reply = some P) (h : IsRegistered defs P)
    (sendRaw : List UInt8 → MailboxId → TimsResult) (mailboxId : MailboxId) (header : WireHeader)
    (now : UInt64) (request : WireMessage V R.payload) (hsrc : request.header.src ≠ 0)
    (reply : V P) :
    (∃ bytes, (sendReply S defs true sendRaw mailboxId header now h request reply).handed
        = some (bytes, request.header.src) ∧
      (WireHeader.decode bytes).msgType
        = makeMessageId R.msgPrefix R.subprefix (-R.localId)) ↔
      ∀ (j : Nat) (d : MessageDefinition τ), j ≤ k → (messageDefsTuple defs)[j]? = some d →
        d.payload ≠ P := by
  have hreply : (messageDefsTuple defs)[k + 1]? = some (R.replyMessageDef P) :=
    expandReplies_getElem?_succ hP _ k hR
  obtain ⟨hk, hget⟩ := List.getElem?_eq_some_iff.mp hreply
  have hid : (∃ bytes, (sendReply S defs true sendRaw mailboxId header now h request reply).handed
        = some (bytes, request.header.src) ∧
      (WireHeader.decode bytes).msgType = makeMessageId R.msgPrefix R.subprefix (-R.localId)) ↔
      getMessageId defs P h = (R.replyMessageDef P).messageId := by
    rw [sendReply, send_handed S sendRaw h _ hsrc]
    constructor
    · rintro ⟨bytes, hbytes, htype⟩
      obtain rfl : _ = bytes := (Prod.mk.inj (Option.some.inj hbytes)).1
      rw [(hfirst P _).2] at htype
      exact htype
    · intro heq
      refine ⟨_, rfl, ?_⟩
      rw [(hfirst P _).2]
      exact heq
  rw [hid, getMessageId_eq_iff hnodup h (List.mem_of_getElem? hreply), findMessageDef,
    List.find?_eq_some_iff_getElem]
  constructor
  · rintro ⟨-, i, hi, heq, hbefore⟩ j d hj hd
    obtain rfl : i = k + 1 :=
      (hnodup.of_map _).getElem_inj_iff.mp (heq.trans hget.symm)
    obtain ⟨_, rfl⟩ := List.getElem?_eq_some_iff.mp hd
    simpa using hbefore j (by omega)
  · intro hfirstMatch
    refine ⟨by simp [MessageDefinition.replyMessageDef], k + 1, hk, hget, ?_⟩
    intro j hj
    simpa using hfirstMatch j _ (by omega) (List.getElem?_eq_getElem (by omega))

/-- Two commands with the same reply. -/
def twoCommands : List (MessageDefinition Nat) :=
  [⟨0, MessagePrefix.UserDefined, UserSubPrefix.Commands, 0, some 2⟩,
    ⟨1, MessagePrefix.UserDefined, UserSubPrefix.Commands, 0, some 2⟩]

theorem isRegistered_twoCommands : IsRegistered twoCommands 2 := by decide

/-- A request from the mailbox 5. -/
def requestFrom5 (t : Nat) : WireMessage (fun _ : Nat => UInt8) t :=
  ⟨{ WireHeader.zero with src := 5 }, 0⟩

/-- What the mailbox 6 sends in reply to a command. -/
def replyTo (t : Nat) : SendOutcome (fun _ : Nat => UInt8) 2 :=
  sendReply (plainSertial Nat) twoCommands true (fun _ _ => .SUCCESS) 6 .zero 0
    isRegistered_twoCommands (requestFrom5 t) 9

theorem sendReply_first_command :
    ∃ bytes, (replyTo 0).handed = some (bytes, 5) ∧
      (WireHeader.decode bytes).msgType = 0x0101FFFF := by
  have hiff := sendReply_msgType_iff (plainSertial Nat) plainSertial.headerFirst twoCommands
    (by decide) (k := 0) (R := ⟨0, MessagePrefix.UserDefined, UserSubPrefix.Commands, 1, some 2⟩)
    rfl rfl isRegistered_twoCommands (fun _ _ => .SUCCESS) 6 .zero 0 (requestFrom5 0) (by decide) 9
  refine hiff.mpr ?_
  intro j d hj hd
  obtain rfl : j = 0 := by omega
  obtain rfl := Option.some.inj hd
  decide

/-- The reply to the second command has the id of the reply to the first. -/
theorem second_reply_has_first_id :
    MessageRegistry.Accepted twoCommands ∧ (messageIds twoCommands).Nodup ∧
      ReplyCompiles twoCommands 1 2 ∧
      (messageDefsTuple twoCommands)[2]?
        = some ⟨1, MessagePrefix.UserDefined, UserSubPrefix.Commands, 2, some 2⟩ ∧
      ¬ ∃ bytes, (replyTo 1).handed = some (bytes, 5) ∧
        (WireHeader.decode bytes).msgType
          = makeMessageId MessagePrefix.UserDefined UserSubPrefix.Commands (-2) := by
  refine ⟨⟨by decide, by decide, by decide⟩, by decide, ⟨_, rfl, rfl⟩, rfl, ?_⟩
  rintro ⟨bytes, hbytes, htype⟩
  obtain rfl : _ = bytes := (Prod.mk.inj (Option.some.inj hbytes)).1
  revert htype
  decide

end Mailbox

end CoreRaT.Spec
