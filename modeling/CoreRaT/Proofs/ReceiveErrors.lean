import CoreRaT.Proofs.Mailbox
import CoreRaT.Spec.ReceiveImpl

/-!
# `CoreRaT.Proofs.ReceiveErrors`: does the error say what the backend has returned?

A backend that has waited in vain returns `-ETIMEDOUT`, and each other failure has another number.
`receive_any_for` looks for the timeout under another number: it takes `-1` for it, and with a
timeout that is not positive every number. `-1` is what `receive_raw` returns for a connection that
is closed. So a caller that waits five seconds for a message, as `pong_node` does, is told
`NetworkError` when none has come, and `Timeout` when none can come any more: `errors_swapped`.

`receiveImpl_failed_cases` says which numbers `receive_impl` returns, and when. From there
`reportsRight_iff` is about all calls of both backends.
-/

set_option autoImplicit false

namespace CoreRaT.Spec

open Mailbox (RawReceived)

/-! ### The numbers -/

/-- A datagram, or a message of the xbuf, that is not received is empty. -/
theorem receiveOobUdp_failed {bufferSize : Nat} {bytes : List UInt8} {code : Int}
    (h : receiveOobUdp bufferSize bytes = .failed code) : code = 0 := by
  unfold receiveOobUdp at h
  dsimp only at h
  split at h
  · exact (RawReceived.failed.inj h).symm
  · cases h

namespace EvlReceiver

theorem returning_fst (m : EvlReceiver) (raw : RawReceived) :
    (m.returning raw).1 = .returned raw := by
  cases raw <;> rfl

/-- The loop over the events returns messages only. -/
theorem eventLoop_ne_failed (bufferSize : Nat) (events : List PollEvent) (code : Int) :
    eventLoop bufferSize events ≠ some (.failed code) := by
  induction events with
  | nil => intro h; cases h
  | cons e rest ih =>
    match e with
    | .xbuf (.data bytes) =>
      rw [eventLoop]
      split
      · intro h; cases h
      · exact ih
    | .xbuf (.error _) => exact ih
    | .ring => intro h; cases h
    | .other => exact ih

/-- The poll fails with the number of the kernel, or because the time is over. -/
theorem pollBoth_failed {bufferSize : Nat} {answer : PollAnswer} {code : Int}
    (h : pollBoth bufferSize answer = some (.failed code)) :
    code = -ETIMEDOUT ∨ ∃ n : Nat, n ≠ 0 ∧ answer = .error n ∧ code = -n := by
  cases answer with
  | error n =>
    rw [pollBoth] at h
    obtain rfl := RawReceived.failed.inj (Option.some.inj h)
    split
    · exact Or.inl rfl
    · rename_i hn
      exact Or.inr ⟨n, fun hzero => hn (Or.inl hzero), rfl, rfl⟩
  | events events =>
    cases events with
    | nil =>
      rw [pollBoth] at h
      exact Or.inl (RawReceived.failed.inj (Option.some.inj h)).symm
    | cons e rest => exact absurd h (eventLoop_ne_failed bufferSize (e :: rest) code)

/-- A wait that is given up has failed. Without a deadline the number is -1, with one it is that of
the kernel. -/
theorem waitLoop_gaveUp {timeout : Int64} {ring ring' : EvlRing} {waits : List (Int × EvlRing)}
    {code : Int} (h : waitLoop timeout ring waits = .gaveUp code ring') :
    ∃ r, (r, ring') ∈ waits ∧ r < 0 ∧ code = if timeout < 0 then -1 else r := by
  induction waits generalizing ring with
  | nil =>
    rw [waitLoop] at h
    split at h <;> cases h
  | cons w rest ih =>
    obtain ⟨r, after⟩ := w
    have hrest : waitLoop timeout after rest = .gaveUp code ring' →
        ∃ r', (r', ring') ∈ (r, after) :: rest ∧ r' < 0 ∧
          code = if timeout < 0 then -1 else r' := by
      intro hlater
      obtain ⟨r', hmem, hneg, hcode⟩ := ih hlater
      exact ⟨r', List.mem_cons_of_mem _ hmem, hneg, hcode⟩
    rw [waitLoop] at h
    split at h
    · cases h
    · split at h
      · rename_i hnegative
        split at h
        · rename_i hr
          obtain ⟨rfl, rfl⟩ := Waited.gaveUp.inj h
          exact ⟨r, List.mem_cons_self, hr, (if_pos hnegative).symm⟩
        · exact hrest h
      · rename_i hdeadline
        split at h
        · rename_i hr
          obtain ⟨rfl, rfl⟩ := Waited.gaveUp.inj h
          exact ⟨r, List.mem_cons_self, by rw [hr]; decide, by rw [if_neg hdeadline, hr]⟩
        · split at h
          · rename_i hr
            obtain ⟨rfl, rfl⟩ := Waited.gaveUp.inj h
            exact ⟨r, List.mem_cons_self, hr, (if_neg hdeadline).symm⟩
          · exact hrest h

/-- The ring read fails on a message that is too large, or has no bytes. -/
theorem readRing_failed {m : EvlReceiver} {bufferSize : Nat} {code : Int}
    (h : (m.readRing bufferSize).1 = .returned (.failed code)) : code = -EMSGSIZE ∨ code = 0 := by
  unfold readRing at h
  split at h
  · split at h
    · exact Or.inr (RawReceived.failed.inj (ImplResult.returned.inj h)).symm
    · cases h
  · exact Or.inl (RawReceived.failed.inj (ImplResult.returned.inj h)).symm
  · cases h
  · cases h

/-- What a call for the ring returns, other than a message. -/
theorem receiveRing_failed {m : EvlReceiver} {timeout : Int64} {bufferSize : Nat}
    {waits : List (Int × EvlRing)} {code : Int}
    (h : (m.receiveRing timeout bufferSize waits).1 = .returned (.failed code)) :
    code = -EMSGSIZE ∨ code = 0 ∨
      ∃ r ring, (r, ring) ∈ waits ∧ r < 0 ∧ code = if timeout < 0 then -1 else r := by
  unfold receiveRing at h
  split at h
  · exact (readRing_failed h).imp_right Or.inl
  · rename_i code' ring hwait
    obtain rfl := RawReceived.failed.inj (ImplResult.returned.inj h)
    obtain ⟨r, hmem, hneg, hcode⟩ := waitLoop_gaveUp hwait
    exact Or.inr (Or.inr ⟨r, ring, hmem, hneg, hcode⟩)
  · cases h

/-- The numbers of `receive_impl`. -/
theorem receiveImpl_failed_cases {m : EvlReceiver} {timeout : Int64} {bufferSize : Nat}
    {answers : ReceiveAnswers} {code : Int}
    (h : (m.receiveImpl timeout bufferSize answers).1 = .returned (.failed code)) :
    (m.created = false ∧ code = -1) ∨
    (m.mode = .Network ∧ (code = 0 ∨ ∃ n : Nat, answers.recvmsg = .error n ∧ code = -n)) ∨
    (m.mode ≠ .Network ∧ (code = -ETIMEDOUT ∨
      ∃ n : Nat, n ≠ 0 ∧ answers.poll = .error n ∧ code = -n)) ∨
    (m.mode ≠ .Network ∧ (code = -EMSGSIZE ∨ code = 0 ∨
      ∃ r ring, (r, ring) ∈ answers.waits ∧ r < 0 ∧ code = if timeout < 0 then -1 else r)) := by
  unfold receiveImpl at h
  split at h
  · rename_i hcreated
    exact Or.inl ⟨by simpa using hcreated,
      (RawReceived.failed.inj (ImplResult.returned.inj h)).symm⟩
  · split at h
    · rename_i hnetwork
      refine Or.inr (Or.inl ⟨hnetwork, ?_⟩)
      cases hread : answers.recvmsg with
      | error n =>
        rw [hread, receiveDatagram, returning_fst] at h
        exact Or.inr ⟨n, rfl, (RawReceived.failed.inj (ImplResult.returned.inj h)).symm⟩
      | data bytes =>
        rw [hread, receiveDatagram, returning_fst] at h
        exact Or.inl (receiveOobUdp_failed (ImplResult.returned.inj h))
    · rename_i hring
      refine Or.inr (Or.inr ?_)
      dsimp only at h
      split at h
      · split at h
        · rename_i raw hpoll
          rw [returning_fst] at h
          rw [ImplResult.returned.inj h] at hpoll
          exact Or.inl ⟨hring, pollBoth_failed hpoll⟩
        · exact Or.inr ⟨hring, receiveRing_failed h⟩
      · exact Or.inr ⟨hring, receiveRing_failed h⟩

end EvlReceiver

/-- The numbers of `receive_raw`. -/
theorem ReceiveResult.raw_failed {result : ReceiveResult} {code : Int}
    (h : result.raw = .failed code) : code = -ETIMEDOUT ∨ code = -EMSGSIZE ∨ code = -1 := by
  cases result with
  | received body metadata => cases h
  | timedOut => exact Or.inl (RawReceived.failed.inj h).symm
  | msgSize => exact Or.inr (Or.inl (RawReceived.failed.inj h).symm)
  | failed => exact Or.inr (Or.inr (RawReceived.failed.inj h).symm)

/-- No backend returns a positive number without a message. -/
theorem RawCall.code_nonpos {swapEndiannessFrom : (littleEndian : Bool) → List UInt8 → List UInt8}
    {timeout : Int64} {bufferSize : Nat} {call : RawCall} {code : Int}
    (h : call.receiveRawBytes swapEndiannessFrom timeout bufferSize = some (.failed code)) :
    code ≤ 0 := by
  have htimedOut : ETIMEDOUT = 110 := rfl
  have hmsgSize : EMSGSIZE = 90 := rfl
  cases call with
  | tims m polls =>
    have hraw := ReceiveResult.raw_failed (Option.some.inj h)
    omega
  | evl m answers =>
    rw [receiveRawBytes] at h
    split at h
    · rename_i raw hraw
      rw [Option.some.inj h] at hraw
      rcases EvlReceiver.receiveImpl_failed_cases hraw with
        ⟨-, hcode⟩ | ⟨-, hcode | ⟨n, -, hcode⟩⟩ | ⟨-, hcode | ⟨n, -, -, hcode⟩⟩ |
          ⟨-, hcode | hcode | ⟨r, ring, -, hneg, hcode⟩⟩
      all_goals omega
    · cases h
    · cases h

/-! ### The errors -/

/-- The error is `Timeout` exactly when the backend has returned `-ETIMEDOUT`, and `NetworkError`
exactly when it has returned another negative number. -/
structure ReportsRight (raw : RawReceived) (result : Except MailboxError Unit) : Prop where
  timeout_iff : result = .error .Timeout ↔ raw = .failed (-ETIMEDOUT)
  networkError_iff : result = .error .NetworkError ↔
    ∃ code, raw = .failed code ∧ code < 0 ∧ code ≠ -ETIMEDOUT

/-- There is a message; or the time is over and the timeout is not positive; or there is another
failure than `-1` and the timeout is positive. -/
def RightFor (timeout : Int64) : RawReceived → Prop
  | .message _ _ => True
  | .failed code => code ≠ 0 ∧ code ≠ -1 ∧ (code = -ETIMEDOUT ↔ timeout ≤ 0)

/-- A test decides between the two errors. It has to be the one for `-ETIMEDOUT`. -/
theorem reportsRight_ite (p : Prop) [Decidable p] {code : Int} (hcode : code ≤ 0) :
    ReportsRight (.failed code) (.error (if p then .Timeout else .NetworkError)) ↔
      code ≠ 0 ∧ (p ↔ code = -ETIMEDOUT) := by
  have htimedOut : ETIMEDOUT = 110 := rfl
  by_cases hp : p
  · rw [if_pos hp]
    constructor
    · intro h
      have heq : code = -ETIMEDOUT := RawReceived.failed.inj (h.timeout_iff.mp rfl)
      exact ⟨by omega, iff_of_true hp heq⟩
    · rintro ⟨-, hiff⟩
      have heq := hiff.mp hp
      refine ⟨iff_of_true rfl (by rw [heq]), iff_of_false (by simp) ?_⟩
      rintro ⟨code', hcode', -, hne⟩
      exact hne ((RawReceived.failed.inj hcode').symm.trans heq)
  · rw [if_neg hp]
    constructor
    · intro h
      obtain ⟨code', hcode', hneg, hne⟩ := h.networkError_iff.mp rfl
      obtain rfl := RawReceived.failed.inj hcode'
      exact ⟨by omega, iff_of_false hp hne⟩
    · rintro ⟨hzero, hiff⟩
      have hne : code ≠ -ETIMEDOUT := fun heq => hp (hiff.mpr heq)
      refine ⟨iff_of_false (by simp) fun heq => hne (RawReceived.failed.inj heq), ?_⟩
      exact iff_of_true rfl ⟨code, rfl, by omega, hne⟩

section
variable {τ : Type} {V : τ → Type} (S : Sertial τ V)
  (defs : List (MessageDefinition τ))

/-- With a message, the result is neither of the two errors. -/
theorem reportsRight_message (positiveTimeout : Bool) (bytes : List UInt8)
    (metadata : TimsMetadata) : ReportsRight (.message bytes metadata)
      (Mailbox.receiveAnyFor S defs true positiveTimeout (.message bytes metadata)).1 := by
  have hcases : (Mailbox.receiveAnyFor S defs true positiveTimeout (.message bytes metadata)).1
        = .ok () ∨
      (Mailbox.receiveAnyFor S defs true positiveTimeout (.message bytes metadata)).1
        = .error .InvalidMessage := by
    simp only [Mailbox.receiveAnyFor, Bool.not_true, Bool.false_eq_true, if_false]
    split
    · exact Or.inr rfl
    · dsimp only
      split
      · exact Or.inl rfl
      · exact Or.inr rfl
  rcases hcases with hresult | hresult
  · rw [hresult]
    exact ⟨iff_of_false (by simp) (by simp), iff_of_false (by simp) (by simp)⟩
  · rw [hresult]
    exact ⟨iff_of_false (by simp) (by simp), iff_of_false (by simp) (by simp)⟩

/-- Without one, `-1` is a timeout, and with a timeout that is not positive every number is. -/
theorem receiveAnyFor_failed (timeout : Int64) (code : Int) :
    (Mailbox.receiveAnyFor S defs true (decide (0 < timeout)) (.failed code)).1
      = .error (if timeout ≤ 0 ∨ code = -1 then .Timeout else .NetworkError) := by
  simp only [Mailbox.receiveAnyFor, Bool.not_true, Bool.false_eq_true, if_false, Bool.or_eq_true,
    Bool.not_eq_true', decide_eq_false_iff_not, Int64.not_lt, beq_iff_eq]

/-- **The error of `receive_any_for`.** Take a call with any timeout, over either backend, whatever
state that is in and whatever the kernel answers. When it returns, the error says what the backend
has returned exactly when there is a message, the time is over and the timeout is not positive, or
there is another failure than `-1` and the timeout is positive. -/
theorem reportsRight_iff (swapEndiannessFrom : (littleEndian : Bool) → List UInt8 → List UInt8)
    (timeout : Int64) (bufferSize : Nat) (call : RawCall) {raw : RawReceived}
    {result : Except MailboxError Unit}
    (h : call.receiveAnyFor swapEndiannessFrom S defs timeout bufferSize = some (raw, result)) :
    ReportsRight raw result ↔ RightFor timeout raw := by
  obtain ⟨raw', hraw, heq⟩ := Option.map_eq_some_iff.mp h
  obtain ⟨rfl, rfl⟩ := Prod.mk.inj heq
  cases raw' with
  | message bytes metadata =>
    exact iff_of_true (reportsRight_message S defs _ bytes metadata) trivial
  | failed code =>
    rw [receiveAnyFor_failed, reportsRight_ite _ (RawCall.code_nonpos hraw), RightFor]
    refine and_congr_right fun _ => ?_
    have htimedOut : ETIMEDOUT = 110 := rfl
    constructor
    · intro hiff
      have hone : code ≠ -1 := fun hone => absurd (hiff.mp (Or.inr hone)) (by omega)
      exact ⟨hone, by rw [← hiff, or_iff_left hone]⟩
    · rintro ⟨hone, hiff⟩
      rw [or_iff_left hone, hiff]

end

/-! ### Two calls that wait for five seconds -/

/-- A mailbox in `Mode::Local` whose ring has one slot. -/
def localReceiver : EvlReceiver where
  mailboxId := 9
  mode := .Local
  created := true
  xbuf := false
  poll := false
  pollSetupDone := false
  ring := .allocateRing 1 64 fun _ => 0
  messagesReceived := 0

/-- No message comes, and the wait ends when the time is over. -/
def nothingComes : RawCall :=
  .evl localReceiver ⟨.error 0, .error 0, [(-ETIMEDOUT, .allocateRing 1 64 fun _ => 0)]⟩

/-- A `TimsMailbox` whose router has closed the connection. -/
def connectionClosed : RawCall :=
  .tims
    { config := ⟨9, 64, 0⟩
      socket := { isOpen := true, sendResults := fun _ => -1, written := [], inbound := [] }
      isInitialized := true
      messagesSent := 0
      messagesReceived := 0
      sequenceNumber := 0 } fun _ => 1

/-- `receive_any_for` without a wait. -/
theorem reportsRight_noWait : ReportsRight (.failed (-ETIMEDOUT)) (.error .Timeout) :=
  (reportsRight_iff (plainSertial Bool) Mailbox.twoKinds (fun _ bytes => bytes) 0 64 nothingComes
    rfl).mpr ⟨by decide, by decide, by decide⟩

/-- With a timeout of five seconds, nothing that comes is a network error, and the end of the
connection is a timeout. -/
theorem errors_swapped :
    nothingComes.receiveAnyFor (fun _ bytes => bytes) (plainSertial Bool) Mailbox.twoKinds
        5000000000 64 = some (.failed (-ETIMEDOUT), .error .NetworkError) ∧
      connectionClosed.receiveAnyFor (fun _ bytes => bytes) (plainSertial Bool) Mailbox.twoKinds
        5000000000 64 = some (.failed (-1), .error .Timeout) ∧
      ¬ ReportsRight (.failed (-ETIMEDOUT)) (.error .NetworkError) ∧
      ¬ ReportsRight (.failed (-1)) (.error .Timeout) := by
  refine ⟨rfl, rfl, ?_, ?_⟩
  · intro h
    cases h.timeout_iff.mpr rfl
  · intro h
    cases RawReceived.failed.inj (h.timeout_iff.mp rfl)

end CoreRaT.Spec
