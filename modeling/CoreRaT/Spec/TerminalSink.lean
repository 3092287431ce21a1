import CoreRaT.Lib.Text
import CoreRaT.Spec.LogSink

/-!
# `CoreRaT.Spec.TerminalSink`: the sink for a terminal

`TerminalSink::write` of `log_sink.hpp`: the filter, the time of day, and the line that
`std::printf` writes. The bytes of a message become the characters with the same numbers. `%s` stops
at a NUL.
-/

set_option autoImplicit false

namespace CoreRaT.Spec

open CoreRaT.Lib

/-- `color_for`. -/
def colorFor : LogLevel → List Char
  | .Fatal => "\x1b[1;31m".toList
  | .Error => "\x1b[0;31m".toList
  | .Warn => "\x1b[0;33m".toList
  | .Info => "\x1b[0;32m".toList
  | .Debug => "\x1b[0;36m".toList
  | .Trace => "\x1b[0;37m".toList

/-- `to_string`. -/
def LogLevel.text : LogLevel → List Char
  | .Fatal => "FATAL".toList
  | .Error => "ERROR".toList
  | .Warn => "WARN ".toList
  | .Info => "INFO ".toList
  | .Debug => "DEBUG".toList
  | .Trace => "TRACE".toList

/-- The `reset` of `write`. -/
def reset : List Char := "\x1b[0m".toList

/-- A byte as a character. -/
def byteChar (b : UInt8) : Char := Char.ofNat b.toNat

/-- What `%s` prints of a message. -/
def RtLogEntry.printed (e : RtLogEntry) : List Char :=
  (e.message.takeWhile (· ≠ 0)).map byteChar

structure TerminalSink where
  minLevel : LogLevel
  /-- What has been printed so far. -/
  stdout : List Char
deriving DecidableEq

namespace TerminalSink

/-- The parts of a line up to the message, in the order of the format. -/
def fields (e : RtLogEntry) : List (List Char) :=
  let tsMs := e.timestamp / 1000000
  let ms := tsMs % 1000
  let tsS := tsMs / 1000
  let sec := tsS % 60
  let min := tsS / 60 % 60
  let hour := tsS / 3600 % 24
  [colorFor e.level, ['['], padded 2 (decimal hour.toNat), [':'], padded 2 (decimal min.toNat),
    [':'], padded 2 (decimal sec.toNat), ['.'], padded 3 (decimal ms.toNat), "] [".toList,
    e.level.text, "] [src=".toList, padded 8 (hexadecimal e.sourceId.toNat), "] ".toList]

/-- A line without its end. -/
def line (e : RtLogEntry) : List Char := (fields e).flatten ++ (e.printed ++ reset)

/-- The entry passes the filter. -/
def Passes (s : TerminalSink) (e : RtLogEntry) : Prop := ¬ s.minLevel.toUInt8 < e.level.toUInt8

instance (s : TerminalSink) (e : RtLogEntry) : Decidable (s.Passes e) :=
  inferInstanceAs (Decidable (¬ _))

/-- `write`. -/
def write (s : TerminalSink) (e : RtLogEntry) : TerminalSink :=
  if ¬ s.Passes e then s else { s with stdout := s.stdout ++ (line e ++ ['\n']) }

end TerminalSink

end CoreRaT.Spec
