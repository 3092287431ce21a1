import Mathlib.Data.List.TakeWhile
import CoreRaT.Proofs.Log.Ring
import CoreRaT.Spec.TerminalSink

/-!
# `CoreRaT.Proofs.Log.Terminal`: what the terminal shows

`readLine` reads a line of the terminal: the fields in front of the message have fixed widths. It
gives back the level, the time of day, the source and the text of the entry that the line is for
(`readLine_line`), as long as the message has no NUL and no end of line.

So the terminal can be read line by line, and what it shows of a logger is what has been committed,
in the same order (`terminal_of_run`).
-/

set_option autoImplicit false

namespace CoreRaT.Spec

open CoreRaT.Lib

/-! ### Reading a line -/

/-- What a line shows. The time of day is in milliseconds. -/
structure ShownLine where
  level : LogLevel
  timeOfDay : Nat
  sourceId : UInt32
  text : List UInt8
deriving DecidableEq

/-- The level with this color. -/
def levelOf (color : List Char) : Option LogLevel :=
  [.Fatal, .Error, .Warn, .Info, .Debug, .Trace].find? fun level => colorFor level = color

/-- The widths of the fields. -/
def fieldWidths : List Nat := [7, 1, 2, 1, 2, 1, 2, 1, 3, 3, 5, 7, 8, 2]

/-- A line without its end. -/
def readLine (s : List Char) : Option ShownLine :=
  match splitWidths fieldWidths s with
  | ([color, _, hour, _, min, _, sec, _, ms, _, _, _, sourceId, _], rest) =>
    (levelOf color).map fun level =>
      { level
        timeOfDay :=
          ((ofDecimal hour * 60 + ofDecimal min) * 60 + ofDecimal sec) * 1000 + ofDecimal ms
        sourceId := UInt32.ofNat (ofHexadecimal sourceId)
        text := (rest.take (rest.length - reset.length)).map fun c => UInt8.ofNat c.toNat }
  | _ => none

/-- What the line of an entry shows. -/
def RtLogEntry.shown (e : RtLogEntry) : ShownLine where
  level := e.level
  timeOfDay := e.timestamp.toNat / 1000000 % 86400000
  sourceId := e.sourceId
  text := e.message

/-- A message that `%s` prints in one line and to the end. -/
def Printable (text : List UInt8) : Prop := 0 ∉ text ∧ 10 ∉ text

instance (text : List UInt8) : Decidable (Printable text) := inferInstanceAs (Decidable (_ ∧ _))

/-! ### Characters -/

theorem toNat_byteChar (b : UInt8) : (byteChar b).toNat = b.toNat := by
  have hvalid : b.toNat.isValidChar := .inl (by have := b.toNat_lt; omega)
  rw [byteChar, Char.ofNat, dif_pos hvalid]
  rfl

theorem map_byteChar (bs : List UInt8) :
    (bs.map byteChar).map (fun c => UInt8.ofNat c.toNat) = bs := by
  simp [Function.comp_def, toNat_byteChar]

theorem printed_eq {e : RtLogEntry} (h : Printable e.message) :
    e.printed = e.message.map byteChar := by
  have hall : ∀ b ∈ e.message, decide (b ≠ 0) = true := by
    intro b hb
    rw [decide_eq_true_eq]
    rintro rfl
    exact h.1 hb
  rw [RtLogEntry.printed, List.takeWhile_eq_self_iff.mpr hall]

/-- The digits of a number do not end a line. -/
theorem newline_not_mem_padded {width : Nat} {s : List Char} (hs : '\n' ∉ s) :
    '\n' ∉ padded width s := by
  rw [padded, List.mem_append, List.mem_replicate]
  rintro (⟨-, h⟩ | h)
  · revert h
    decide
  · exact hs h

theorem newline_not_mem_decimal (width n : Nat) : '\n' ∉ padded width (decimal n) :=
  newline_not_mem_padded (not_mem_decimal rfl n)

theorem newline_not_mem_hexadecimal (width n : Nat) : '\n' ∉ padded width (hexadecimal n) := by
  refine newline_not_mem_padded fun h => ?_
  obtain ⟨d, hd, heq⟩ := exists_of_mem_hexadecimal h
  have hnever : ∀ d < 16, '\n' ≠ d.digitChar.toUpper := by decide
  exact hnever d hd heq

theorem newline_not_mem_message {bs : List UInt8} (h : 10 ∉ bs) : '\n' ∉ bs.map byteChar := by
  rw [List.mem_map]
  rintro ⟨b, hb, heq⟩
  have hten : b.toNat = 10 := by
    rw [← toNat_byteChar, heq]
    rfl
  have hb10 : b = 10 := UInt8.toNat_inj.mp hten
  exact h (hb10 ▸ hb)

namespace TerminalSink

/-! ### Lines -/

theorem length_decimal_of_lt {width n : Nat} (hwidth : 0 < width) (hn : n < 10 ^ width) :
    (padded width (decimal n)).length = width :=
  length_padded (length_decimal_le hwidth hn)

/-- The fields have their widths. -/
theorem map_length_fields (e : RtLogEntry) : (fields e).map List.length = fieldWidths := by
  have hcolor : (colorFor e.level).length = 7 := by cases e.level <;> decide
  have hlevel : e.level.text.length = 5 := by cases e.level <;> decide
  have hhour : (e.timestamp / 1000000 / 1000 / 3600 % 24).toNat < 10 ^ 2 := by
    simp only [UInt64.toNat_mod, UInt64.reduceToNat]
    omega
  have hmin : (e.timestamp / 1000000 / 1000 / 60 % 60).toNat < 10 ^ 2 := by
    simp only [UInt64.toNat_mod, UInt64.reduceToNat]
    omega
  have hsec : (e.timestamp / 1000000 / 1000 % 60).toNat < 10 ^ 2 := by
    simp only [UInt64.toNat_mod, UInt64.reduceToNat]
    omega
  have hms : (e.timestamp / 1000000 % 1000).toNat < 10 ^ 3 := by
    simp only [UInt64.toNat_mod, UInt64.reduceToNat]
    omega
  have hsource : (padded 8 (hexadecimal e.sourceId.toNat)).length = 8 :=
    length_padded (length_hexadecimal_le (by omega) (by have := e.sourceId.toNat_lt; omega))
  simp only [fields, List.map_cons, List.map_nil, hcolor, hlevel, hsource,
    length_decimal_of_lt (by omega) hhour, length_decimal_of_lt (by omega) hmin,
    length_decimal_of_lt (by omega) hsec, length_decimal_of_lt (by omega) hms]
  rfl

theorem newline_not_mem_line {e : RtLogEntry} (h : Printable e.message) : '\n' ∉ line e := by
  have hcolor : '\n' ∉ colorFor e.level := by cases e.level <;> decide
  have hlevel : '\n' ∉ e.level.text := by cases e.level <;> decide
  have hmessage : '\n' ∉ e.printed := by
    rw [printed_eq h]
    exact newline_not_mem_message h.2
  have hreset : '\n' ∉ reset := by decide
  simp [line, fields, hcolor, hlevel, hmessage, hreset, newline_not_mem_decimal,
    newline_not_mem_hexadecimal]

theorem levelOf_colorFor (level : LogLevel) : levelOf (colorFor level) = some level := by
  cases level <;> decide

/-- The time of day from its parts. -/
theorem timeOfDay_eq (t : UInt64) :
    (((t / 1000000 / 1000 / 3600 % 24).toNat * 60 + (t / 1000000 / 1000 / 60 % 60).toNat) * 60 +
        (t / 1000000 / 1000 % 60).toNat) * 1000 + (t / 1000000 % 1000).toNat =
      t.toNat / 1000000 % 86400000 := by
  simp only [UInt64.toNat_mod, UInt64.toNat_div, UInt64.reduceToNat]
  omega

/-- A line shows its entry. -/
theorem readLine_line {e : RtLogEntry} (h : Printable e.message) :
    readLine (line e) = some e.shown := by
  have htext : (e.printed ++ reset).take ((e.printed ++ reset).length - reset.length) =
      e.message.map byteChar := by
    rw [List.length_append, Nat.add_sub_cancel, List.take_left, printed_eq h]
  rw [readLine, line, ← map_length_fields e, splitWidths_flatten]
  simp only [fields, levelOf_colorFor, Option.map_some, ofDecimal_padded, ofHexadecimal_padded,
    timeOfDay_eq, UInt32.ofNat_toNat, htext, map_byteChar, RtLogEntry.shown]

/-! ### The terminal -/

/-- What a new sink has printed when it has been given these entries. -/
def terminal (minLevel : LogLevel) (es : List RtLogEntry) : List Char :=
  (es.foldl write ⟨minLevel, []⟩).stdout

/-- The filter only depends on the levels. -/
def Shows (minLevel level : LogLevel) : Prop := ¬ minLevel.toUInt8 < level.toUInt8

instance (minLevel level : LogLevel) : Decidable (Shows minLevel level) :=
  inferInstanceAs (Decidable (¬ _))

theorem foldl_write (es : List RtLogEntry) (s : TerminalSink) :
    es.foldl write s =
      { s with
          stdout := s.stdout ++ (es.filter fun e => Shows s.minLevel e.level).flatMap
            fun e => line e ++ ['\n'] } := by
  induction es generalizing s with
  | nil => simp
  | cons e es ih =>
    rw [List.foldl_cons, ih]
    by_cases he : Shows s.minLevel e.level
    · have hpasses : s.Passes e := he
      simp [write, hpasses, he, List.append_assoc]
    · have hpasses : ¬ s.Passes e := he
      simp [write, hpasses, he]

/-- The terminal shows the entries that pass the filter. -/
theorem readLines_terminal (minLevel : LogLevel) {es : List RtLogEntry}
    (hes : ∀ e ∈ es, Printable e.message) :
    (readLines (terminal minLevel es)).map readLine =
      (es.filter fun e => Shows minLevel e.level).map fun e => some e.shown := by
  have hlines : ∀ e ∈ es.filter fun e => Shows minLevel e.level, '\n' ∉ line e :=
    fun e he => newline_not_mem_line (hes e (List.mem_filter.mp he).1)
  rw [terminal, foldl_write, List.nil_append, readLines_flatMap line hlines, List.map_map]
  exact List.map_congr_left fun e he => readLine_line (hes e (List.mem_filter.mp he).1)

end TerminalSink

/-! ### The logger -/

namespace LogHistory

open RtLogger (Event)
open TerminalSink (terminal Shows readLines_terminal)

variable {ι : Type} {append : (capacity : Nat) → List UInt8 → List UInt8 → List UInt8}
  {h : LogHistory ι}

/-- What the terminal shows of an accepted commit. -/
def shownCommit (sourceId : UInt32) (c : LogCall × UInt64) : ShownLine where
  level := c.1.level
  timeOfDay := c.2.toNat / 1000000 % 86400000
  sourceId := sourceId
  text := c.1.text

/-- All accepted texts fit and can be printed. -/
def Clean (h : LogHistory ι) : Prop :=
  ∀ c ∈ h.accepted, c.1.text.length ≤ h.logger.maxMsgLen ∧ Printable c.1.text

instance (h : LogHistory ι) : Decidable h.Clean := List.decidableBAll _ _

/-- A text that fits is the message of its entry. -/
theorem entryOf_of_fits (happends : Appends append) {l : RtLogger ι} {c : LogCall × UInt64}
    (hfits : c.1.text.length ≤ l.maxMsgLen) :
    entryOf append l c = ⟨c.2, l.sourceId, c.1.level, c.1.text⟩ := by
  have hmessage : append l.maxMsgLen [] c.1.text = c.1.text := by
    rw [happends.fits _ [] _ (by simpa using hfits), List.nil_append]
  rw [entryOf, hmessage]

/-- The terminal shows what the sink has been given. -/
theorem terminal_of_sinks (happends : Appends append) (hclean : h.Clean) (minLevel : LogLevel)
    (n : Nat) :
    (readLines (terminal minLevel ((h.entries append).take n))).map readLine =
      ((h.accepted.take n).filter fun c => Shows minLevel c.1.level).map
        fun c => some (shownCommit h.logger.sourceId c) := by
  have hentry : ∀ c ∈ h.accepted.take n,
      entryOf append h.logger c = ⟨c.2, h.logger.sourceId, c.1.level, c.1.text⟩ :=
    fun c hc => entryOf_of_fits happends (hclean c (List.mem_of_mem_take hc)).1
  have hentries : (h.entries append).take n =
      (h.accepted.take n).map fun c => ⟨c.2, h.logger.sourceId, c.1.level, c.1.text⟩ := by
    rw [entries, ← List.map_take, List.map_congr_left hentry]
  rw [hentries, readLines_terminal]
  · rw [List.filter_map, List.map_map]
    rfl
  · intro e he
    obtain ⟨c, hc, rfl⟩ := List.mem_map.mp he
    exact (hclean c (List.mem_of_mem_take hc)).2

/-- **The terminal shows what has been committed.** Take a logger with a terminal as one of its
sinks, and any interleaving of the threads that commit, of the drain thread and of its start and
stop. Suppose that all accepted texts fit into a message, without a NUL and without an end of line.
Then the terminal can be read line by line. It shows the first accepted commits of the levels that
it lets through: all those that the drain thread has taken, but for the one that it may be
dispatching. Each line says the level, the time of day to the millisecond, the source and the text.
-/
theorem terminal_of_run [DecidableEq ι] (happends : Appends append) (ringSize : UInt64)
    (maxMsgLen : Nat) (sourceId : UInt32) (sinkCount : Nat)
    (hassert : (RtLogger.init ringSize maxMsgLen sourceId sinkCount : RtLogger ι).Asserted)
    (hmax : maxMsgLen ≤ 256) (minLevel : LogLevel) (es : List (Event ι)) :
    AllStates (step append)
      (fun h => h.Clean → ∀ i < h.logger.sinkCount, ∃ n, n ≤ h.taken ∧ h.taken ≤ n + 1 ∧
        ((∀ final out k, h.logger.drain ≠ .dispatch final out k) → n = h.taken) ∧
        (readLines (terminal minLevel (h.logger.sinks i))).map readLine =
          ((h.accepted.take n).filter fun c => Shows minLevel c.1.level).map
            fun c => some (shownCommit h.logger.sourceId c))
      (init ringSize maxMsgLen sourceId sinkCount) es := by
  have hsize : PowerOfTwo ringSize ∨ ringSize = 0 := by
    by_cases hzero : ringSize = 0
    · exact .inr hzero
    · exact .inl (powerOfTwo_iff.mpr ⟨hzero, hassert⟩)
  have hinit : (init ringSize maxMsgLen sourceId sinkCount : LogHistory ι).Invariant append :=
    invariant_init hsize maxMsgLen sourceId sinkCount
  have hstep : ∀ (h : LogHistory ι) (e : Event ι),
      h.Invariant append ∧ h.logger.maxMsgLen = maxMsgLen →
      (h.step append e).Invariant append ∧ (h.step append e).logger.maxMsgLen = maxMsgLen := by
    rintro h e ⟨hinv, hlen⟩
    refine ⟨invariant_step h e hinv, ?_⟩
    rw [logger_step, RtLogger.maxMsgLen_step, hlen]
  refine (allStates_of_step hstep es ⟨hinit, rfl⟩).mono ?_
  rintro h ⟨hinv, hlen⟩ hclean i hi
  have hsinks := hinv.ring.sinks i hi
  rw [map_dispatched happends (hlen ▸ hmax)] at hsinks
  refine ⟨handedTo h.taken h.logger.drain i, handedTo_le .., ?_, ?_, ?_⟩
  · unfold handedTo
    split
    · split <;> omega
    · omega
  · intro hnot
    unfold handedTo
    split
    · case h_1 final out k hdrain => exact absurd hdrain (hnot final out k)
    · rfl
  · rw [hsinks]
    exact terminal_of_sinks happends hclean minLevel _

/-- The terminal does not show the second of the three entries, which is for debugging. -/
theorem terminal_of_run_twoWriters :
    afterTwoWriters.taken = 3 ∧
      (readLines (terminal .Info (afterTwoWriters.logger.sinks 0))).map readLine =
        [some ⟨.Info, 1000, 5, [72, 105]⟩, some ⟨.Error, 4000, 5, [103, 111]⟩] := by
  have hlast := (@terminal_of_run Bool appendText _ appends_appendText 2 128 5 1 rfl (by decide)
    .Info twoWriters).last
  have hrun : Lib.runFrom (step appendText) (init 2 128 5 1) twoWriters = afterTwoWriters := rfl
  rw [hrun] at hlast
  have hclean : afterTwoWriters.Clean := by decide +kernel
  have hsinks : 0 < afterTwoWriters.logger.sinkCount := by decide +kernel
  have hdrain : afterTwoWriters.logger.drain = .running := by decide +kernel
  have htaken : afterTwoWriters.taken = 3 := by decide +kernel
  obtain ⟨n, -, -, hn, hread⟩ := hlast hclean 0 hsinks
  have hall : n = afterTwoWriters.taken := by
    refine hn fun final out k hdispatch => ?_
    rw [hdrain] at hdispatch
    cases hdispatch
  rw [hall, htaken] at hread
  exact ⟨htaken, hread.trans (by decide +kernel)⟩

end LogHistory

end CoreRaT.Spec
