import CoreRaT.Lib.Text
import CoreRaT.Spec.Protocol

/-!
# `CoreRaT.Spec.ObjectNames`: the names of what processes share

`evl_name` and `shm_name` of `evl_backend.hpp`, the path under which the EVL router looks for the
xbuf of a mailbox, and the name that `create_backend_config` of `mailbox.hpp` builds digit by digit.
The owner of a mailbox and those that open it build the same names from the id, each for itself.

`push_back` of `sertial::fixed_string` is not part of the repository and stays a parameter.
-/

set_option autoImplicit false

namespace CoreRaT.Spec.ObjectNames

open CoreRaT.Lib

/-- The objects with names. -/
inductive ObjectKind
  | shm
  | mutex
  | event
  | xbuf
deriving DecidableEq, Repr

/-- The `prefix` of the calls of `evl_name`. -/
def ObjectKind.leading : ObjectKind → List Char
  | .shm => "/corerat_mbx_".toList
  | .mutex => "corerat-ring-mtx-".toList
  | .event => "corerat-ring-evt-".toList
  | .xbuf => "corerat-xbuf-".toList

/-- A buffer after `std::snprintf`, and its result. -/
structure Printed where
  buf : List Char
  n : Nat
deriving DecidableEq, Repr

/-- `std::snprintf` into a buffer of this size. A text that does not fit is cut off. -/
def snprintf (size : Nat) (text : List Char) : Printed where
  buf := text.take (size - 1) ++ ['\x00']
  n := text.length

/-- The string in a buffer, as the system reads it. -/
def Printed.cStr (p : Printed) : List Char := p.buf.takeWhile (· ≠ '\x00')

/-- The `string_view` that `evl_name` returns. -/
def Printed.view (p : Printed) : List Char := p.buf.take p.n

/-- `evl_name`, and `shm_name` for the first kind. -/
def evlName (kind : ObjectKind) (id : MailboxId) : Printed :=
  snprintf 64 (kind.leading ++ decimal id.toNat)

/-- The format of `xbuf_path`, up to the id. -/
def xbufPathLeading : List Char := "/dev/evl/xbuf/corerat-xbuf-".toList

/-- `xbuf_path` of the EVL router. -/
def xbufPath (mbxId : MailboxId) : Printed :=
  snprintf 64 (xbufPathLeading ++ decimal mbxId.toNat)

/-- The directory of the public xbufs. -/
def xbufDirectory : List Char := "/dev/evl/xbuf/".toList

/-- Where the system puts a public xbuf with this name. -/
def xbufFile (name : List Char) : List Char := xbufDirectory ++ name

/-! ### `create_backend_config` -/

/-- The loop `while (v > 0)`: what it writes to `digits`, in this order. -/
def writeDigits (v : Nat) : List Char :=
  if v = 0 then [] else Char.ofNat ('0'.toNat + v % 10) :: writeDigits (v / 10)
termination_by v

/-- `digits`, up to `pos`. -/
def digits (id : MailboxId) : List Char :=
  if id.toNat = 0 then ['0'] else writeDigits id.toNat

/-- `mailbox_name` before the digits. -/
def mailboxLeading : List Char := "mailbox_".toList

/-- `mailbox_name`. The digits are appended from the last one on. -/
def mailboxName (pushBack : List Char → Char → List Char) (id : MailboxId) : List Char :=
  (digits id).reverse.foldl pushBack mailboxLeading

end CoreRaT.Spec.ObjectNames
