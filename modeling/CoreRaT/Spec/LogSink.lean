import CoreRaT.Spec.Protocol
import CoreRaT.Spec.TcpSocket

/-!
# `CoreRaT.Spec.LogSink`: log entries and the sink for the router

`LogLevel` and `RtLogEntry` of `logging/`, and `TimsSink::write` of `log_sink.hpp`, which sends an
entry over the socket of a connected TiMS client. A message is the list of its characters; `c_str`
puts a NUL behind them.

The two calls of `::send` in `write` are those of `Spec/TcpSocket.lean`. The other sink is in
`Spec/TerminalSink.lean`.
-/

set_option autoImplicit false

namespace CoreRaT.Spec

open CoreRaT.Lib

/-- `LogLevel`. -/
inductive LogLevel
  | Fatal
  | Error
  | Warn
  | Info
  | Debug
  | Trace
deriving DecidableEq

/-- The `uint8_t` of a level. -/
def LogLevel.toUInt8 : LogLevel → UInt8
  | .Fatal => 0
  | .Error => 1
  | .Warn => 2
  | .Info => 3
  | .Debug => 4
  | .Trace => 5

/-- `to_gdos_type`. -/
def toGdosType : LogLevel → Int8
  | .Fatal => -124
  | .Error => -125
  | .Warn => -126
  | .Info => -127
  | _ => -128

/-- `RtLogEntry`. -/
structure RtLogEntry where
  timestamp : UInt64
  sourceId : UInt32
  level : LogLevel
  message : List UInt8
deriving DecidableEq

/-- `Entry{}`. -/
def RtLogEntry.empty : RtLogEntry := ⟨0, 0, .Debug, []⟩

/-- `c_str`, as many bytes of it as `TimsSink` sends. -/
def RtLogEntry.cStr (e : RtLogEntry) : List UInt8 := e.message ++ [0]

/-! ### `TimsSink` -/

structure TimsSink where
  fd : TcpSocket
  srcId : MailboxId
  minLevel : LogLevel

namespace TimsSink

def kGdosMailbox : MailboxId := 0x0C000000

def kHeadLen : UInt32 := 32

/-- The `head` of `write`: eight `write_u32`, the timestamp being two of them. -/
def head (s : TimsSink) (e : RtLogEntry) : List UInt8 :=
  le32 (toGdosType e.level).toInt32.toUInt32 ++
    (le32 (kHeadLen + UInt32.ofNat (e.message.length + 1)) ++
      (le32 e.timestamp.toUInt32 ++ (le32 (e.timestamp >>> 32).toUInt32 ++
        (le32 0 ++ (le32 kGdosMailbox ++ (le32 s.srcId ++ le32 0))))))

/-- The entry passes the filter. -/
def Passes (s : TimsSink) (e : RtLogEntry) : Prop :=
  ¬ s.minLevel.toUInt8 < e.level.toUInt8 ∧ s.fd.isOpen = true

instance (s : TimsSink) (e : RtLogEntry) : Decidable (s.Passes e) :=
  inferInstanceAs (Decidable (_ ∧ _))

/-- `write`. The result of the second `::send` is not looked at. -/
def write (s : TimsSink) (e : RtLogEntry) : TimsSink :=
  if ¬ s.Passes e then s
  else
    match s.fd.send (s.head e) with
    | (n, fd) =>
      if n ≠ kHeadLen.toNat then { s with fd }
      else { s with fd := (fd.send e.cStr).2 }

end TimsSink

end CoreRaT.Spec
