import CoreRaT.Proofs.TcpSocket
import CoreRaT.Spec.SharedMailbox

/-!
# `CoreRaT.Proofs.ReceiveRound`: one round of `receive_raw`

`receiveLoop_succ` is the loop of `receive_raw`, round by round. `receiveRound_cases` is what a
round does to its stream: it passes over a header, or it takes a header and a body, or it returns
without a body.
-/

set_option autoImplicit false

namespace CoreRaT.Spec

/-- The body that a header announces, as a number. -/
theorem FrameHeader.toNat_bodyLen (h : FrameHeader) :
    h.bodyLen.toNat = h.msglen.toNat - sizeofFrameHeader := by
  have h16 : (16 : UInt32).toNat = sizeofFrameHeader := rfl
  rw [bodyLen]
  split
  · rename_i hgt
    have hgt : sizeofFrameHeader < h.msglen.toNat := UInt32.lt_iff_toNat_lt.mp hgt
    exact UInt32.toNat_sub_of_le _ _ (UInt32.le_iff_toNat_le.mpr (Nat.le_of_lt hgt))
  · rename_i hle
    have hle : ¬ sizeofFrameHeader < h.msglen.toNat :=
      fun hlt => hle (UInt32.lt_iff_toNat_lt.mpr hlt)
    show 0 = _
    omega

namespace TimsMailbox

/-- The header at the start of a stream. -/
def headOf (bytes : List UInt8) : FrameHeader := .decode (bytes.take sizeofFrameHeader)

theorem headOf_append {head : List UInt8} (hlen : head.length = sizeofFrameHeader)
    (bytes : List UInt8) : headOf (head ++ bytes) = .decode head := by
  rw [headOf, List.take_left' hlen]

variable (swapEndiannessFrom : (littleEndian : Bool) → List UInt8 → List UInt8)

/-- The loop of `receive_raw` is its rounds. -/
theorem receiveLoop_succ (fuel : Nat) (m : TimsMailbox) (bufferSize : Nat) (polls : Nat → Int) :
    receiveLoop swapEndiannessFrom (fuel + 1) m bufferSize polls
      = match m.receiveRound swapEndiannessFrom bufferSize (polls 0) with
        | (some result, m) => (result, m)
        | (none, m) => receiveLoop swapEndiannessFrom fuel m bufferSize fun i => polls (i + 1) := by
  rw [receiveLoop, receiveRound]
  split
  · rfl
  · rcases m.socket.recvAll sizeofFrameHeader with ⟨_ | bytes, s⟩
    · rfl
    · simp only
      split
      · rfl
      · split
        · rfl
        · split
          · rfl
          · rcases s.recvAll (FrameHeader.decode bytes).bodyLen.toNat with ⟨_ | body, s'⟩
            · rfl
            · rfl

/-- An open mailbox enters the loop. -/
theorem receiveRaw_eq_loop {m : TimsMailbox} (hm : m.isInitialized = true)
    (hopen : m.socket.isOpen = true) (bufferSize : Nat) (polls : Nat → Int) :
    receiveRaw swapEndiannessFrom m bufferSize polls
      = receiveLoop swapEndiannessFrom (m.socket.inbound.flatten.length + 1) m bufferSize
          polls := by
  simp [receiveRaw, hm, hopen]

/-- No round shuts the mailbox down. -/
theorem isInitialized_receiveRound (m : TimsMailbox) (bufferSize : Nat) (poll : Int) :
    (m.receiveRound swapEndiannessFrom bufferSize poll).2.isInitialized = m.isInitialized := by
  unfold receiveRound
  split
  · rfl
  · rcases m.socket.recvAll sizeofFrameHeader with ⟨_ | bytes, s⟩
    · rfl
    · simp only
      split
      · rfl
      · split
        · rfl
        · split
          · rfl
          · rcases s.recvAll (FrameHeader.decode bytes).bodyLen.toNat with ⟨_ | body, s'⟩
            · rfl
            · rfl

theorem isInitialized_receiveLoop (fuel : Nat) (m : TimsMailbox) (bufferSize : Nat)
    (polls : Nat → Int) :
    (receiveLoop swapEndiannessFrom fuel m bufferSize polls).2.isInitialized = m.isInitialized := by
  induction fuel generalizing m polls with
  | zero => rfl
  | succ fuel ih =>
    have hround := m.isInitialized_receiveRound swapEndiannessFrom bufferSize (polls 0)
    rw [receiveLoop_succ]
    generalize m.receiveRound swapEndiannessFrom bufferSize (polls 0) = round at hround ⊢
    obtain ⟨_ | result, m'⟩ := round
    · exact (ih m' _).trans hround
    · exact hround

variable {swapEndiannessFrom} in
theorem receiveRound_of_not_ready {m : TimsMailbox} (hopen : m.socket.isOpen = true)
    {bufferSize : Nat} {poll : Int} (hpoll : poll ≤ 0) :
    m.receiveRound swapEndiannessFrom bufferSize poll = (some .timedOut, m) := by
  rw [receiveRound, TcpSocket.pollIn, if_pos hopen, if_pos hpoll]

/-- What a round of `receive_raw` does to a stream. It goes on behind a header, or it returns the
body that the header announces and stops behind that, or it returns without a body. -/
theorem receiveRound_cases {m : TimsMailbox} {bytes : List UInt8}
    (hchunks : m.socket.Chunked bytes) (bufferSize : Nat) (poll : Int) :
    (∃ m', m.receiveRound swapEndiannessFrom bufferSize poll = (none, m') ∧
      m'.socket.Chunked (bytes.drop sizeofFrameHeader) ∧ sizeofFrameHeader ≤ bytes.length ∧
      ((headOf bytes).type = MSG_ROUTER_GET_STATUS ∨ (headOf bytes).msglen ≤ 16)) ∨
    (∃ body rest m', m.receiveRound swapEndiannessFrom bufferSize poll
        = (some (.received (convert swapEndiannessFrom (headOf bytes) body)
            (metadataOf (headOf bytes))), m') ∧
      bytes.drop sizeofFrameHeader = body ++ rest ∧ m'.socket.Chunked rest ∧
      sizeofFrameHeader ≤ bytes.length ∧
      (headOf bytes).type ≠ MSG_ROUTER_GET_STATUS ∧ ¬ (headOf bytes).msglen ≤ 16 ∧
      body.length = (headOf bytes).bodyLen.toNat) ∨
    (∃ r m', m.receiveRound swapEndiannessFrom bufferSize poll = (some r, m') ∧
      (∀ body metadata, r ≠ .received body metadata) ∧
      (poll ≤ 0 ∨ bufferSize < (headOf bytes).bodyLen.toNat ∨
        bytes.length < sizeofFrameHeader + (headOf bytes).bodyLen.toNat)) := by
  unfold receiveRound
  simp only [TcpSocket.pollIn, hchunks.isOpen, if_true]
  by_cases hpoll : poll ≤ 0
  · rw [if_pos hpoll]
    exact Or.inr (Or.inr ⟨_, _, rfl, by simp, Or.inl hpoll⟩)
  rw [if_neg hpoll]
  rcases hchunks.recvAll_cases sizeofFrameHeader with ⟨hheader, s, hgot, hrest⟩ | ⟨hshort, s, hgot⟩
  · simp only [hgot]
    rw [← headOf]
    by_cases hstatus : (headOf bytes).type = MSG_ROUTER_GET_STATUS
    · rw [if_pos hstatus]
      exact Or.inl ⟨_, rfl, hrest.sendAll _, hheader, Or.inl hstatus⟩
    rw [if_neg hstatus]
    by_cases hempty : (headOf bytes).msglen ≤ 16
    · rw [if_pos hempty]
      exact Or.inl ⟨_, rfl, hrest, hheader, Or.inr hempty⟩
    rw [if_neg hempty]
    by_cases hroom : bufferSize < (headOf bytes).bodyLen.toNat
    · rw [if_pos hroom]
      exact Or.inr (Or.inr ⟨_, _, rfl, by simp, Or.inr (Or.inl hroom)⟩)
    rw [if_neg hroom]
    rcases hrest.recvAll_cases (headOf bytes).bodyLen.toNat with
      ⟨hbody, s', hgot', hrest'⟩ | ⟨hshort, s', hgot'⟩
    · simp only [hgot']
      refine Or.inr (Or.inl ⟨_, _, _, rfl, ?_, hrest', hheader, hstatus, hempty, ?_⟩)
      · rw [List.take_append_drop]
      · rw [List.length_take]
        omega
    · simp only [hgot']
      rw [List.length_drop] at hshort
      exact Or.inr (Or.inr ⟨_, _, rfl, by simp, Or.inr (Or.inr (by omega))⟩)
  · simp only [hgot]
    exact Or.inr (Or.inr ⟨_, _, rfl, by simp, Or.inr (Or.inr (by omega))⟩)

end TimsMailbox

end CoreRaT.Spec
