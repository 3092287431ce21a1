import CoreRaT.Spec.LogSink

/-!
# `CoreRaT.Proofs.Log.Sink`: what the router reads from `TimsSink`

`TimsSink::write` sends a head of 32 bytes that is laid out like a `WireHeader`. The router reads 16
bytes as a `FrameHeader`. `decode_head` says what it makes of them: the message type is the second
byte of a negative `msg_type`, which is 0xFF for every level, the destination is the size of the
message, and the source and the length are the two halves of the timestamp.

So the frame never is the one that was meant (`write_never_parsed`).
-/

set_option autoImplicit false

namespace CoreRaT.Spec

open CoreRaT.Lib

/-- The frame reader makes one data frame of the bytes, with the entry for the GDOS mailbox. -/
def TimsSink.IsGdosFrame (s : TimsSink) (e : RtLogEntry) (bytes : List UInt8) : Prop :=
  ∃ f : Frame, parseFrames bytes.length bytes = some [f] ∧ f.header.kind = .data ∧
    f.header.dest = kGdosMailbox ∧ f.header.src = s.srcId ∧
    f.header.type = toGdosType e.level ∧ e.cStr <:+ f.body

/-- The header of the first frame is in the first 16 bytes. -/
theorem header_of_parseFrames {fuel : Nat} {bytes : List UInt8} {f : Frame} {fs : List Frame}
    (h : parseFrames fuel bytes = some (f :: fs)) :
    f.header = FrameHeader.decode (bytes.take sizeofFrameHeader) := by
  cases bytes with
  | nil => cases fuel <;> cases h
  | cons b bs =>
    cases fuel with
    | zero => cases h
    | succ fuel =>
      simp only [parseFrames] at h
      split at h
      · cases h
      · rename_i g rest hsplit
        obtain ⟨fs', -, heq⟩ := Option.map_eq_some_iff.mp h
        obtain ⟨rfl, -⟩ := List.cons.inj heq
        simp only [splitFrame] at hsplit
        split at hsplit
        · cases hsplit
        · split at hsplit
          · obtain ⟨rfl, -⟩ := Prod.mk.inj (Option.some.inj hsplit)
            rfl
          · cases hsplit

/-- No level has the message type that the router reads. -/
theorem toGdosType_ne (l : LogLevel) : toGdosType l ≠ -1 := by
  cases l <;> decide

/-- The socket after a `::send` that has taken the whole buffer. -/
def sentWhole (s : TcpSocket) (buf : List UInt8) : TcpSocket :=
  { s with sendResults := fun i => s.sendResults (i + 1), written := s.written ++ buf }

theorem send_of_le {s : TcpSocket} {buf : List UInt8} (hopen : s.isOpen = true)
    (hpos : 0 < buf.length) (hle : (buf.length : Int) ≤ s.sendResults 0) :
    s.send buf = ((buf.length : Int), sentWhole s buf) := by
  have hmin : min (s.sendResults 0).toNat buf.length = buf.length := by omega
  have hneg : ¬ s.sendResults 0 ≤ 0 := by omega
  simp only [TcpSocket.send, hopen, if_true, hmin, hneg, if_false, List.take_length, sentWhole]

namespace TimsSink

/-- The head of an entry as the router reads it. -/
theorem decode_head (s : TimsSink) (e : RtLogEntry) (bytes : List UInt8) :
    FrameHeader.decode ((s.head e ++ bytes).take sizeofFrameHeader) =
      { flags := (toGdosType e.level).toUInt8
        type := -1
        priority := 0xFF
        seqNr := 0xFF
        dest := kHeadLen + UInt32.ofNat (e.message.length + 1)
        src := e.timestamp.toUInt32
        msglen := (e.timestamp >>> 32).toUInt32 } := by
  have htake : (s.head e ++ bytes).take sizeofFrameHeader
      = le32 (toGdosType e.level).toInt32.toUInt32 ++
        (le32 (kHeadLen + UInt32.ofNat (e.message.length + 1)) ++
          (le32 e.timestamp.toUInt32 ++ le32 (e.timestamp >>> 32).toUInt32)) := rfl
  -- The lowest byte of the type is the flags, and the other three are the sign.
  have htype : le32 (toGdosType e.level).toInt32.toUInt32
      = [(toGdosType e.level).toUInt8, 0xFF, 0xFF, 0xFF] := by
    cases e.level <;> decide
  rw [htake]
  simp only [FrameHeader.decode, drop_le32_append, List.drop_zero, ofLe32_le32_append, ofLe32_le32]
  rw [htype]
  rfl

/-- Both sends are complete. -/
def SendsAll (s : TimsSink) (e : RtLogEntry) : Prop :=
  (kHeadLen.toNat : Int) ≤ s.fd.sendResults 0 ∧ (e.cStr.length : Int) ≤ s.fd.sendResults 1

theorem written_write {s : TimsSink} {e : RtLogEntry} (hpasses : s.Passes e)
    (hsends : s.SendsAll e) :
    (s.write e).fd.written = s.fd.written ++ (s.head e ++ e.cStr) := by
  obtain ⟨hhead, htext⟩ := hsends
  have hlen : (s.head e).length = kHeadLen.toNat := rfl
  have hpos : 0 < (s.head e).length := by
    rw [hlen]
    decide
  have hfirst : s.fd.send (s.head e) = (_, sentWhole s.fd (s.head e)) :=
    send_of_le hpasses.2 hpos hhead
  have hsecond : (sentWhole s.fd (s.head e)).send e.cStr = (_, sentWhole _ e.cStr) :=
    send_of_le hpasses.2 (by simp [RtLogEntry.cStr]) htext
  rw [write, if_neg (not_not.mpr hpasses), hfirst]
  simp only [hlen, ne_eq, not_true_eq_false, if_false, hsecond]
  exact List.append_assoc _ _ _

/-- **The router does not read what the sink writes.** Take a sink and an entry that passes its
filter, with both sends complete. The frame reader does not make the data frame of the entry of the
bytes. -/
theorem write_never_parsed (s : TimsSink) (e : RtLogEntry) (hpasses : s.Passes e)
    (hsends : s.SendsAll e) :
    ∃ bytes, (s.write e).fd.written = s.fd.written ++ bytes ∧ ¬ s.IsGdosFrame e bytes := by
  refine ⟨_, written_write hpasses hsends, ?_⟩
  rintro ⟨f, hparse, -, -, -, htype, -⟩
  rw [header_of_parseFrames hparse, decode_head] at htype
  exact toGdosType_ne e.level htype.symm

/-- A sink on a socket that takes all bytes. -/
def openSink : TimsSink := ⟨⟨true, fun _ => 1024, [], []⟩, 5, .Warn⟩

/-- An entry that passes. -/
def errorEntry : RtLogEntry := ⟨0, 5, .Error, [72, 105]⟩

theorem write_never_parsed_errorEntry :
    openSink.Passes errorEntry ∧ openSink.SendsAll errorEntry ∧
      ∃ bytes, (openSink.write errorEntry).fd.written = [] ++ bytes ∧
        ¬ openSink.IsGdosFrame errorEntry bytes := by
  have hpasses : openSink.Passes errorEntry := by decide
  have hsends : openSink.SendsAll errorEntry := ⟨by decide, by decide⟩
  exact ⟨hpasses, hsends, write_never_parsed openSink errorEntry hpasses hsends⟩

/-- With the timestamp 0 the length says that there is no body. The router reads a frame for mailbox
35, and goes on behind it. -/
theorem entry_not_a_frame :
    openSink.Passes errorEntry ∧ openSink.SendsAll errorEntry ∧
      (splitFrame (openSink.write errorEntry).fd.written).map (fun f => (f.1.header.dest, f.2))
        = some (35, (openSink.write errorEntry).fd.written.drop 16) ∧
      ¬ openSink.IsGdosFrame errorEntry (openSink.write errorEntry).fd.written := by
  refine ⟨by decide, ⟨by decide, by decide⟩, by decide, ?_⟩
  rintro ⟨f, hparse, -⟩
  have hnone : parseFrames 35 (openSink.write errorEntry).fd.written = none := by decide
  cases hnone.symm.trans hparse

end TimsSink

end CoreRaT.Spec
