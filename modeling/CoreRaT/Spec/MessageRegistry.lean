import Mathlib.Data.List.Basic
import CoreRaT.Spec.Protocol

/-!
# `CoreRaT.Spec.MessageRegistry`: message definitions and their ids

`MessageDefinition` of `messaging/message_id.hpp` and what `MessageRegistry` of
`messaging/message_registry.hpp` makes of a list of them at compile time. `AutoAssignIDs` gives an
id to every definition that has none, `ExpandReplies` puts the definition of its reply behind every
request, and `visit` looks for the id of a message in the list that results. `get_type_index` looks
for a payload type in it, and `registry_utils.hpp` filters it.

`τ` stands for the C++ payload types, and `std::is_same` is equality. `MessagePrefix` is an
enumeration with the underlying type `uint8_t`, so a prefix is a `UInt8` here, as a subprefix is.

`CheckCollisions` stands for itself at the end. The registry names it in the initializer of a
private static member that nothing uses, and the initializer of such a member of a class template is
not instantiated. So `Accepted` does not ask for it.
-/

set_option autoImplicit false

namespace CoreRaT.Spec

/-- `MAX_MESSAGE_ID`. -/
def MAX_MESSAGE_ID : UInt16 := 0x7FFF

/-- `make_message_id`. -/
def makeMessageId (msgPrefix subprefix : UInt8) (id : UInt16) : UInt32 :=
  (msgPrefix.toUInt32 <<< 24) ||| (UInt8.toUInt32 subprefix <<< 16) ||| id.toUInt32

/-- `MessagePrefix::System`. -/
def MessagePrefix.System : UInt8 := 0

/-- `MessagePrefix::UserDefined`. -/
def MessagePrefix.UserDefined : UInt8 := 1

def SystemSubPrefix.Subscription : UInt8 := 0

def SystemSubPrefix.Control : UInt8 := 1

def UserSubPrefix.Data : UInt8 := 0

def UserSubPrefix.Commands : UInt8 := 1

def UserSubPrefix.GetData : UInt8 := 3

def UserSubPrefix.GetNextData : UInt8 := 4

/-- `MessageDefinition`. `subprefix` is the number that the template computes from its argument, and
`reply` is `ReplyT`, or `none` for `void`. -/
structure MessageDefinition (τ : Type) where
  payload : τ
  msgPrefix : UInt8
  subprefix : UInt8
  localId : UInt16
  reply : Option τ
deriving DecidableEq

namespace MessageDefinition

variable {τ : Type}

/-- `has_reply`, which is `is_request` too. -/
def hasReply (d : MessageDefinition τ) : Bool := d.reply.isSome

/-- `needs_auto_id`. -/
def needsAutoId (d : MessageDefinition τ) : Bool := d.localId == 0

/-- `is_reply`: no reply of its own, and an id that is negative as an `int16_t`. -/
def isReply (d : MessageDefinition τ) : Bool :=
  d.reply.isNone && d.localId != 0 && decide (d.localId.toInt16 < 0)

/-- `request_id`. -/
def requestId (d : MessageDefinition τ) : UInt16 := if d.isReply then -d.localId else 0

/-- `ReplyMessageDef`, for a definition with the reply type `r`. -/
def replyMessageDef (d : MessageDefinition τ) (r : τ) : MessageDefinition τ where
  payload := r
  msgPrefix := d.msgPrefix
  subprefix := d.subprefix
  localId := -d.localId
  reply := none

/-- The id of the definition, of 32 bits. -/
def messageId (d : MessageDefinition τ) : UInt32 :=
  makeMessageId d.msgPrefix d.subprefix d.localId

/-- The categories in which a definition may have a reply. -/
def ReplyAllowed (msgPrefix subprefix : UInt8) : Prop :=
  (msgPrefix = MessagePrefix.System ∧ subprefix = SystemSubPrefix.Control) ∨
    (msgPrefix = MessagePrefix.System ∧ subprefix = SystemSubPrefix.Subscription) ∨
    (msgPrefix = MessagePrefix.UserDefined ∧ subprefix = UserSubPrefix.Commands) ∨
    (msgPrefix = MessagePrefix.UserDefined ∧ subprefix = UserSubPrefix.GetData) ∨
    (msgPrefix = MessagePrefix.UserDefined ∧ subprefix = UserSubPrefix.GetNextData)

instance (msgPrefix subprefix : UInt8) : Decidable (ReplyAllowed msgPrefix subprefix) :=
  inferInstanceAs (Decidable (_ ∨ _))

/-- The assertions of `MessageDefinition` on the category and on the id of a request. -/
def Asserted (d : MessageDefinition τ) : Prop :=
  d.hasReply = true → ReplyAllowed d.msgPrefix d.subprefix ∧
    (d.localId = 0 ∨ d.localId ≤ MAX_MESSAGE_ID) ∧ 0 ≤ d.localId.toInt16

instance (d : MessageDefinition τ) : Decidable d.Asserted :=
  inferInstanceAs (Decidable (_ → _))

end MessageDefinition

open MessageDefinition

namespace MessageRegistry

variable {τ : Type}

/-! ### The list of definitions -/

/-- `HighestID`: the highest id of the definitions before it in its category, replies apart. -/
def highestID (processed : List (MessageDefinition τ)) (d : MessageDefinition τ) : UInt16 :=
  processed.foldl (fun maxId p =>
    if p.msgPrefix = d.msgPrefix ∧ p.subprefix = d.subprefix ∧ p.isReply = false ∧
        maxId < p.localId then p.localId
    else maxId) 0

/-- `CurrentProcessed`. -/
def currentProcessed (processed : List (MessageDefinition τ)) (d : MessageDefinition τ) :
    MessageDefinition τ :=
  if d.needsAutoId then { d with localId := highestID processed d + 1 } else d

/-- `AutoAssignIDsProcess`. -/
def autoAssignIDsProcess :
    (processed : List (MessageDefinition τ)) → List (MessageDefinition τ) →
      List (MessageDefinition τ)
  | _, [] => []
  | processed, d :: rest =>
    currentProcessed processed d ::
      autoAssignIDsProcess (processed ++ [currentProcessed processed d]) rest

/-- `AutoAssignIDs`. -/
def autoAssignIDs (defs : List (MessageDefinition τ)) : List (MessageDefinition τ) :=
  autoAssignIDsProcess [] defs

/-- `ExpandReplies`. -/
def expandReplies : List (MessageDefinition τ) → List (MessageDefinition τ)
  | [] => []
  | d :: rest =>
    match d.reply with
    | some r => d :: d.replyMessageDef r :: expandReplies rest
    | none => d :: expandReplies rest

/-- `MessageDefsTuple`. -/
def messageDefsTuple (defs : List (MessageDefinition τ)) : List (MessageDefinition τ) :=
  expandReplies (autoAssignIDs defs)

/-- `message_ids()`. -/
def messageIds (defs : List (MessageDefinition τ)) : List UInt32 :=
  (messageDefsTuple defs).map messageId

/-- `PayloadTypes`. -/
def payloadTypes (defs : List (MessageDefinition τ)) : List τ :=
  (messageDefsTuple defs).map (·.payload)

/-- `num_types`: the definitions that the registry is given, without their replies. -/
def numTypes (defs : List (MessageDefinition τ)) : Nat := defs.length

/-- `size()`. -/
def size (defs : List (MessageDefinition τ)) : Nat := (messageDefsTuple defs).length

/-- The assertion of `AutoAssignIDsProcess` on a definition that it has processed. -/
def AutoAsserted (d : MessageDefinition τ) : Prop :=
  d.needsAutoId = false ∨ d.localId ≤ MAX_MESSAGE_ID

instance (d : MessageDefinition τ) : Decidable (AutoAsserted d) :=
  inferInstanceAs (Decidable (_ ∨ _))

/-- The registry compiles: the assertions that are instantiated hold, for the definitions as they
are given, for those with their ids, and for the replies. -/
structure Accepted (defs : List (MessageDefinition τ)) : Prop where
  given : ∀ d ∈ defs, d.Asserted
  assigned : ∀ d ∈ autoAssignIDs defs, AutoAsserted d
  expanded : ∀ d ∈ messageDefsTuple defs, d.Asserted

/-! ### Lookup -/

/-- `FindMessageDef` of the registry and `FindMessageDefForPayload` of `registry_utils.hpp`: the
first definition with this payload. -/
def findMessageDef [DecidableEq τ] (defs : List (MessageDefinition τ)) (t : τ) :
    Option (MessageDefinition τ) :=
  (messageDefsTuple defs).find? (·.payload = t)

/-- The `Index` at which `visit_impl_helper` finds an id. -/
def visitIndex (defs : List (MessageDefinition τ)) (msgId : UInt32) : Option Nat :=
  (messageDefsTuple defs).findIdx? (·.messageId = msgId)

/-- One type in the fold of `TypeIndex`, which has `idx` and `current`. A match does not go on with
`current`. -/
def typeIndexStep [DecidableEq τ] (t : τ) (s : Nat × Nat) (type : τ) : Nat × Nat :=
  if t = type then (s.2, s.2) else (s.1, s.2 + 1)

/-- `get_type_index`. -/
def getTypeIndex [DecidableEq τ] (defs : List (MessageDefinition τ)) (t : τ) : Nat :=
  ((payloadTypes defs).foldl (typeIndexStep t) (numTypes defs, 0)).1

/-- `type_at`. A position from `size()` on has no type. -/
def typeAt (defs : List (MessageDefinition τ)) (i : Nat) : Option τ := (payloadTypes defs)[i]?

/-! ### The filters of `registry_utils.hpp` -/

/-- `IsRequest`: `has_reply` and `is_request`, which are the same. -/
def IsRequest (d : MessageDefinition τ) : Prop := d.hasReply = true

/-- `IsReply`, by the id alone. -/
def IsReply (d : MessageDefinition τ) : Prop := MAX_MESSAGE_ID < d.localId

instance (d : MessageDefinition τ) : Decidable (IsRequest d) := inferInstanceAs (Decidable (_ = _))

instance (d : MessageDefinition τ) : Decidable (IsReply d) := inferInstanceAs (Decidable (_ < _))

/-- `filter_requests_t`. -/
def filterRequests (defs : List (MessageDefinition τ)) : List (MessageDefinition τ) :=
  (messageDefsTuple defs).filter (IsRequest ·)

/-- `filter_replies_t`. -/
def filterReplies (defs : List (MessageDefinition τ)) : List (MessageDefinition τ) :=
  (messageDefsTuple defs).filter (IsReply ·)

end MessageRegistry

/-! ### Collision detection -/

namespace CheckCollisions

variable {τ : Type}

/-- The text of the assertion. -/
def collisionDetected : String := "Message ID collision detected!"

/-- `static_assert(id1 != id2)`. -/
def assertDistinct (first second : MessageDefinition τ) : Except String Unit :=
  if first.messageId ≠ second.messageId then .ok () else .error collisionDetected

/-- `check_all_pairs`. The compiler instantiates both calls, also where `&&` does not evaluate the
second, so the assertions of both count. -/
def checkAllPairs (first second : MessageDefinition τ) :
    (rest : List (MessageDefinition τ)) → Except String Bool
  | [] => do
    assertDistinct first second
    return true
  | next :: rest => do
    assertDistinct first second
    let withFirst ← checkAllPairs first next rest
    let withSecond ← checkAllPairs second next rest
    return withFirst && withSecond

/-- `check`. -/
def check : List (MessageDefinition τ) → Except String Bool
  | [] => return true
  | [_] => return true
  | first :: second :: rest => checkAllPairs first second rest

/-- `check_all_pairs` of the first list instantiates `check_all_pairs` of the second. -/
inductive Instantiates : List (MessageDefinition τ) → List (MessageDefinition τ) → Prop
  | withFirst (first second next : MessageDefinition τ) (rest : List (MessageDefinition τ)) :
    Instantiates (first :: second :: next :: rest) (first :: next :: rest)
  | withSecond (first second next : MessageDefinition τ) (rest : List (MessageDefinition τ)) :
    Instantiates (first :: second :: next :: rest) (second :: next :: rest)

end CheckCollisions

end CoreRaT.Spec
