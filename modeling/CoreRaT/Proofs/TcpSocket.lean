import CoreRaT.Spec.TcpSocket

/-!
# `CoreRaT.Proofs.TcpSocket`: what `send_all` and `recv_all` do

`sendAll_spec` says everything that `send_all` does to a socket: it writes a prefix of the
buffer, and it returns `true` exactly when that prefix is the whole buffer. A socket that
takes at least one byte in every call (`Reliable`) takes every buffer whole.

`recvAll_of_le` and `recvAll_of_lt` say the same of `recv_all`, for every split of the
inbound stream into chunks (`Chunked`): it returns the next `len` bytes when there are as
many, and fails otherwise.
-/

set_option autoImplicit false

namespace CoreRaT.Spec.TcpSocket

/-! ### `send_all` -/

/-- The result of one `::send`: it writes a prefix of the buffer, and on success the prefix
has the returned length, which is positive. -/
theorem send_spec (s : TcpSocket) (buf : List UInt8) (hbuf : buf ≠ []) :
    ∃ n, (s.send buf).2.written = s.written ++ buf.take n ∧
      (s.send buf).2.isOpen = s.isOpen ∧ (s.send buf).2.inbound = s.inbound ∧
      (((s.send buf).1 ≤ 0 ∧ n = 0) ∨
        (0 < n ∧ n ≤ buf.length ∧ (s.send buf).1 = n)) := by
  have hlen : 0 < buf.length := List.length_pos_iff.mpr hbuf
  unfold send
  split
  · refine ⟨min (s.sendResults 0).toNat buf.length, rfl, rfl, rfl, ?_⟩
    split
    · rename_i hneg
      exact Or.inl ⟨hneg, by omega⟩
    · rename_i hpos
      refine Or.inr ⟨by omega, by omega, rfl⟩
  · exact ⟨0, by simp, rfl, rfl, Or.inl ⟨by simp, rfl⟩⟩

/-- What the `send_all` loop does, whatever the results of `::send` are. -/
theorem sendAllLoop_spec : ∀ (fuel : Nat) (s : TcpSocket) (buf : List UInt8),
    buf.length ≤ fuel →
      ∃ n, (sendAllLoop fuel s buf).2.written = s.written ++ buf.take n ∧ n ≤ buf.length ∧
        (sendAllLoop fuel s buf).2.isOpen = s.isOpen ∧
        (sendAllLoop fuel s buf).2.inbound = s.inbound ∧
        ((sendAllLoop fuel s buf).1 = true ↔ n = buf.length) := by
  intro fuel
  induction fuel with
  | zero =>
    intro s buf hfuel
    obtain rfl : buf = [] := List.length_eq_zero_iff.mp (by omega)
    exact ⟨0, by simp [sendAllLoop]⟩
  | succ fuel ih =>
    intro s buf hfuel
    cases buf with
    | nil => exact ⟨0, by simp [sendAllLoop]⟩
    | cons b bs =>
      obtain ⟨n, hw, ho, hi, hn⟩ := send_spec s (b :: bs) (by simp)
      simp only [sendAllLoop]
      generalize s.send (b :: bs) = r at hw ho hi hn
      obtain ⟨m, s'⟩ := r
      rcases hn with ⟨hneg, rfl⟩ | ⟨hpos, hle, hm⟩
      · -- The call failed: nothing more is written, and the buffer is not empty.
        rw [if_pos hneg]
        exact ⟨0, by simpa using hw, by omega, ho, hi, by simp⟩
      · simp only at hw ho hi hm
        subst hm
        rw [if_neg (by omega), Int.toNat_natCast]
        -- The call took `n` bytes, at least one, so the fuel that is left covers the rest.
        have hfuel' : ((b :: bs).drop n).length ≤ fuel := by
          rw [List.length_drop]; omega
        obtain ⟨m, hw', hle', ho', hi', hok⟩ := ih s' ((b :: bs).drop n) hfuel'
        rw [List.length_drop] at hle' hok
        refine ⟨n + m, ?_, by omega, ho'.trans ho, hi'.trans hi, ?_⟩
        · rw [hw', hw, List.append_assoc, ← List.take_add]
        · rw [hok]; omega

/-- Everything that `send_all` does to a socket. The call writes the first `n` bytes of the
buffer, and succeeds exactly when these are all. -/
theorem sendAll_spec (s : TcpSocket) (buf : List UInt8) :
    ∃ n, (s.sendAll buf).2.written = s.written ++ buf.take n ∧ n ≤ buf.length ∧
      (s.sendAll buf).2.isOpen = s.isOpen ∧ (s.sendAll buf).2.inbound = s.inbound ∧
      ((s.sendAll buf).1 = true ↔ n = buf.length) :=
  sendAllLoop_spec buf.length s buf (Nat.le_refl _)

@[simp] theorem sendAll_nil (s : TcpSocket) : s.sendAll [] = (true, s) := rfl

/-- A successful `send_all` has written the whole buffer. -/
theorem written_sendAll_of_true {s : TcpSocket} {buf : List UInt8}
    (h : (s.sendAll buf).1 = true) : (s.sendAll buf).2.written = s.written ++ buf := by
  obtain ⟨n, hw, -, -, -, hok⟩ := s.sendAll_spec buf
  rw [hw, hok.mp h, List.take_length]

/-- On a closed socket `send_all` fails and writes nothing, unless there is nothing to
send. -/
theorem sendAll_of_closed {s : TcpSocket} (hs : s.isOpen = false) {buf : List UInt8}
    (hbuf : buf ≠ []) : s.sendAll buf = (false, s) := by
  cases buf with
  | nil => exact absurd rfl hbuf
  | cons b bs => simp [sendAll, sendAllLoop, send, hs]

/-- The next `::send` takes nothing. -/
def RefusesAtOnce (s : TcpSocket) : Prop := s.isOpen = false ∨ s.sendResults 0 ≤ 0

theorem send_nonpos_iff (s : TcpSocket) {buf : List UInt8} (hbuf : buf ≠ []) :
    (s.send buf).1 ≤ 0 ↔ s.RefusesAtOnce := by
  have hlen : 0 < buf.length := List.length_pos_iff.mpr hbuf
  simp only [send, RefusesAtOnce]
  by_cases hopen : s.isOpen = true
  · by_cases hneg : s.sendResults 0 ≤ 0
    · simp [hopen, hneg]
    · simp only [hopen, hneg, if_true, if_false, Bool.true_eq_false, or_self, iff_false]
      omega
  · simp [hopen]

/-- `send_all` leaves nothing behind exactly when its first `::send` fails. -/
theorem written_sendAll_eq_iff (s : TcpSocket) {buf : List UInt8} (hbuf : buf ≠ []) :
    (s.sendAll buf).2.written = s.written ↔ s.RefusesAtOnce := by
  rw [← s.send_nonpos_iff hbuf]
  obtain ⟨n, hw, -, -, hn⟩ := s.send_spec buf hbuf
  cases buf with
  | nil => exact absurd rfl hbuf
  | cons b bs =>
    simp only [sendAll, List.length_cons, sendAllLoop]
    rcases hn with ⟨hneg, rfl⟩ | ⟨hpos, hle, hres⟩
    · simpa [hneg] using hw
    · -- The first send takes a byte, and the loop takes nothing back.
      rw [if_neg (by omega)]
      have hfuel : ((b :: bs).drop (s.send (b :: bs)).1.toNat).length ≤ bs.length := by
        rw [List.length_drop, List.length_cons]
        omega
      obtain ⟨m, hw', -⟩ := sendAllLoop_spec bs.length (s.send (b :: bs)).2 _ hfuel
      refine iff_of_false ?_ (by omega)
      intro hsame
      have hlen := congrArg List.length hsame
      rw [hw', hw] at hlen
      simp only [List.length_append, List.length_take] at hlen
      omega

/-- The socket is open and every `::send` takes at least one byte. -/
def Reliable (s : TcpSocket) : Prop := s.isOpen = true ∧ ∀ i, 0 < s.sendResults i

/-- One `::send` keeps a socket reliable. -/
theorem Reliable.send {s : TcpSocket} (hs : s.Reliable) (buf : List UInt8) :
    (s.send buf).2.Reliable := by
  simp only [TcpSocket.send, hs.1, if_true]
  exact ⟨rfl, fun i => hs.2 (i + 1)⟩

/-- A reliable socket takes at least one byte of a buffer. -/
theorem Reliable.send_pos {s : TcpSocket} (hs : s.Reliable) {buf : List UInt8} (hbuf : buf ≠ []) :
    0 < (s.send buf).1 := by
  by_contra hle
  rcases (s.send_nonpos_iff hbuf).mp (by omega) with hclosed | hneg
  · simp [hs.1] at hclosed
  · have h0 := hs.2 0
    omega

theorem Reliable.sendAllLoop : ∀ (fuel : Nat) (s : TcpSocket) (buf : List UInt8),
    s.Reliable → buf.length ≤ fuel →
      (TcpSocket.sendAllLoop fuel s buf).1 = true ∧
      (TcpSocket.sendAllLoop fuel s buf).2.Reliable := by
  intro fuel
  induction fuel with
  | zero =>
    intro s buf hs hfuel
    obtain rfl : buf = [] := List.length_eq_zero_iff.mp (by omega)
    exact ⟨rfl, hs⟩
  | succ fuel ih =>
    intro s buf hs hfuel
    cases buf with
    | nil => exact ⟨rfl, hs⟩
    | cons b bs =>
      have hs' := hs.send (b :: bs)
      have hpos : 0 < (s.send (b :: bs)).1 := hs.send_pos (by simp)
      simp only [TcpSocket.sendAllLoop]
      generalize s.send (b :: bs) = r at hs' hpos
      obtain ⟨m, s'⟩ := r
      simp only at hs' hpos
      rw [if_neg (by omega)]
      refine ih s' _ hs' ?_
      rw [List.length_drop]
      omega

/-- A reliable socket takes every buffer whole, and stays reliable. -/
theorem Reliable.sendAll {s : TcpSocket} (hs : s.Reliable) (buf : List UInt8) :
    (s.sendAll buf).1 = true ∧ (s.sendAll buf).2.Reliable :=
  Reliable.sendAllLoop buf.length s buf hs (Nat.le_refl _)

/-! ### `recv_all` -/

/-- `recv_all` changes nothing but the inbound stream. -/
theorem recvAll_frame (s : TcpSocket) (len : Nat) :
    ∃ inbound, (s.recvAll len).2 = { s with inbound } := by
  have hrecv : ∀ (s : TcpSocket) (n : Nat), ∃ inbound, (s.recv n).2 = { s with inbound } := by
    intro s n
    unfold TcpSocket.recv
    split
    · split
      · exact ⟨s.inbound, rfl⟩
      · exact ⟨_, rfl⟩
    · exact ⟨s.inbound, rfl⟩
  have hloop : ∀ (fuel : Nat) (s : TcpSocket) (n : Nat) (got : List UInt8),
      ∃ inbound, (recvAllLoop fuel s n got).2 = { s with inbound } := by
    intro fuel
    induction fuel with
    | zero =>
      intro s n got
      cases n <;> exact ⟨s.inbound, rfl⟩
    | succ fuel ih =>
      intro s n got
      cases n with
      | zero => exact ⟨s.inbound, rfl⟩
      | succ n =>
        obtain ⟨inbound, h⟩ := hrecv s (n + 1)
        simp only [recvAllLoop]
        generalize s.recv (n + 1) = r at h
        obtain ⟨_ | _, s'⟩ := r
        · exact ⟨inbound, h⟩
        · obtain rfl : s' = { s with inbound } := h
          exact ih _ _ _
  exact hloop len s len []

/-- `recv_all` does not close the socket. -/
@[simp] theorem isOpen_recvAll (s : TcpSocket) (len : Nat) :
    (s.recvAll len).2.isOpen = s.isOpen := by
  obtain ⟨inbound, h⟩ := s.recvAll_frame len
  rw [h]

/-- The inbound stream of an open socket is `bytes`, split into chunks in some way. No chunk
is empty: no `::recv` fails before the stream ends. -/
structure Chunked (s : TcpSocket) (bytes : List UInt8) : Prop where
  isOpen : s.isOpen = true
  flatten : s.inbound.flatten = bytes
  nonempty : ∀ c ∈ s.inbound, c ≠ []

/-- Sending leaves the inbound stream alone. -/
theorem Chunked.sendAll {s : TcpSocket} {bytes : List UInt8} (h : s.Chunked bytes)
    (buf : List UInt8) : (s.sendAll buf).2.Chunked bytes := by
  obtain ⟨n, -, -, hopen, hin, -⟩ := s.sendAll_spec buf
  exact ⟨hopen.trans h.isOpen, hin ▸ h.flatten, hin ▸ h.nonempty⟩

/-- One `::recv` of a non-empty stream gives a non-empty prefix of it, and leaves the rest. -/
theorem Chunked.recv {s : TcpSocket} {bytes : List UInt8} (h : s.Chunked bytes)
    (hbytes : bytes ≠ []) (len : Nat) (hlen : 0 < len) :
    ∃ n, 0 < n ∧ n ≤ len ∧ n ≤ bytes.length ∧ (s.recv len).1 = bytes.take n ∧
      (s.recv len).2.Chunked (bytes.drop n) := by
  obtain ⟨hopen, hflat, hne⟩ := h
  cases hin : s.inbound with
  | nil =>
    rw [hin] at hflat
    exact absurd hflat.symm hbytes
  | cons c cs =>
    rw [hin] at hflat hne
    have hc : c ≠ [] := hne c (by simp)
    have hcpos : 0 < c.length := List.length_pos_iff.mpr hc
    rw [List.flatten_cons] at hflat
    subst hflat
    simp only [TcpSocket.recv, hopen, if_true, hin, List.length_append]
    by_cases hle : c.length ≤ len
    · -- The chunk is used up.
      refine ⟨c.length, hcpos, hle, by omega, ?_, ?_⟩
      · rw [List.take_of_length_le hle, List.take_left]
      · exact ⟨rfl, by simp [if_pos hle], by
          simpa [if_pos hle] using fun c' hc' => hne c' (by simp [hc'])⟩
    · -- The chunk is longer than the buffer.
      refine ⟨len, hlen, (Nat.le_refl _), by omega, ?_, ?_⟩
      · rw [List.take_append_of_le_length (by omega)]
      · refine ⟨rfl, ?_, ?_⟩
        · rw [if_neg hle, List.flatten_cons, List.drop_append_of_le_length (by omega)]
        -- What is left of the chunk is not empty either.
        · rw [if_neg hle]
          intro c' hc'
          rcases List.mem_cons.mp hc' with rfl | hc'
          · intro hdrop
            have := congrArg List.length hdrop
            rw [List.length_drop, List.length_nil] at this
            omega
          · exact hne c' (by simp [hc'])

/-- A `::recv` at the end of the stream gives nothing. -/
theorem Chunked.recv_nil {s : TcpSocket} (h : s.Chunked []) (len : Nat) :
    s.recv len = ([], s) := by
  have hin : s.inbound = [] := by
    cases hin : s.inbound with
    | nil => rfl
    | cons c cs =>
      have hflat := h.flatten
      rw [hin, List.flatten_cons, List.append_eq_nil_iff] at hflat
      exact absurd hflat.1 (h.nonempty c (by simp [hin]))
  simp [TcpSocket.recv, h.isOpen, hin]

/-- What the `recv_all` loop does on a chunked stream. -/
theorem recvAllLoop_spec : ∀ (fuel : Nat) (s : TcpSocket) (bytes : List UInt8) (len : Nat)
    (got : List UInt8), s.Chunked bytes → len ≤ fuel →
      (len ≤ bytes.length →
        (recvAllLoop fuel s len got).1 = some (got ++ bytes.take len) ∧
        (recvAllLoop fuel s len got).2.Chunked (bytes.drop len)) ∧
      (bytes.length < len → (recvAllLoop fuel s len got).1 = none) := by
  intro fuel
  induction fuel with
  | zero =>
    intro s bytes len got h hfuel
    obtain rfl : len = 0 := by omega
    exact ⟨fun _ => ⟨by simp [recvAllLoop], by simpa [recvAllLoop] using h⟩, fun hlt => by omega⟩
  | succ fuel ih =>
    intro s bytes len got h hfuel
    cases len with
    | zero =>
      exact ⟨fun _ => ⟨by simp [recvAllLoop], by simpa [recvAllLoop] using h⟩,
        fun hlt => by omega⟩
    | succ len =>
      -- At the end of the stream `::recv` gives nothing, and the loop fails.
      by_cases hbytes : bytes = []
      · subst hbytes
        refine ⟨fun hle => by simp at hle, ?_⟩
        intro _
        simp [recvAllLoop, h.recv_nil]
      · obtain ⟨n, hn0, hnlen, hnb, hgot, hrest⟩ := h.recv hbytes (len + 1) (by omega)
        simp only [recvAllLoop]
        generalize s.recv (len + 1) = r at hgot hrest
        obtain ⟨d, s'⟩ := r
        simp only at hgot hrest
        have hdlen : d.length = n := by rw [hgot, List.length_take]; omega
        -- `n` is positive: the read gave something.
        cases d with
        | nil => simp at hdlen; omega
        | cons b bs =>
          have hi := ih s' (bytes.drop n) (len + 1 - n) (got ++ b :: bs) hrest (by omega)
          rw [List.length_drop] at hi
          simp only [hdlen]
          constructor
          · intro hle
            obtain ⟨h1, h2⟩ := hi.1 (by omega)
            refine ⟨?_, ?_⟩
            · rw [h1, hgot, List.append_assoc, ← List.take_add,
                show n + (len + 1 - n) = len + 1 by omega]
            · rw [List.drop_drop, show n + (len + 1 - n) = len + 1 by omega] at h2
              exact h2
          · intro hlt
            exact hi.2 (by omega)

/-- `recv_all` on a stream that holds enough bytes: it returns the next `len` bytes and
leaves the rest, however the stream is chunked. -/
theorem Chunked.recvAll_of_le {s : TcpSocket} {bytes : List UInt8} (h : s.Chunked bytes)
    {len : Nat} (hlen : len ≤ bytes.length) :
    (s.recvAll len).1 = some (bytes.take len) ∧ (s.recvAll len).2.Chunked (bytes.drop len) := by
  simpa [recvAll] using (recvAllLoop_spec len s bytes len [] h (Nat.le_refl _)).1 hlen

/-- `recv_all` on a stream that ends too early fails. -/
theorem Chunked.recvAll_of_lt {s : TcpSocket} {bytes : List UInt8} (h : s.Chunked bytes)
    {len : Nat} (hlen : bytes.length < len) : (s.recvAll len).1 = none :=
  (recvAllLoop_spec len s bytes len [] h (Nat.le_refl _)).2 hlen

/-- `recv_all` reads the next `len` bytes, or there are not as many. -/
theorem Chunked.recvAll_cases {s : TcpSocket} {bytes : List UInt8} (h : s.Chunked bytes)
    (len : Nat) :
    (len ≤ bytes.length ∧ ∃ s', s.recvAll len = (some (bytes.take len), s') ∧
      s'.Chunked (bytes.drop len)) ∨
    (bytes.length < len ∧ ∃ s', s.recvAll len = (none, s')) := by
  rcases Nat.lt_or_ge bytes.length len with hlt | hle
  · exact Or.inr ⟨hlt, _, Prod.ext (h.recvAll_of_lt hlt) rfl⟩
  · obtain ⟨hgot, hrest⟩ := h.recvAll_of_le hle
    exact Or.inl ⟨hle, _, Prod.ext hgot rfl, hrest⟩

/-- `recv_all` of a stream with the wanted bytes in front. -/
theorem Chunked.recvAll_append {s : TcpSocket} {buf rest : List UInt8}
    (h : s.Chunked (buf ++ rest)) :
    (s.recvAll buf.length).1 = some buf ∧ (s.recvAll buf.length).2.Chunked rest := by
  have hlen : buf.length ≤ (buf ++ rest).length := by simp
  simpa using h.recvAll_of_le hlen

end CoreRaT.Spec.TcpSocket
