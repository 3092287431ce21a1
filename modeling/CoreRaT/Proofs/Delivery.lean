import CoreRaT.Proofs.Receive
import CoreRaT.Proofs.TornFrames
import CoreRaT.Proofs.Upstream
import CoreRaT.Spec.TimsNetwork

/-!
# `CoreRaT.Proofs.Delivery`: what a mailbox sends is what the other one receives

`TimsNetwork` from end to end. Mailboxes are attached to one router, each registered for its own
id. `delivery` follows every message through the byte streams and the router: the bodies that
mailbox `d` receives from mailbox `k` are, in order, the first ones that `k` has sent to `d`. None
is lost, changed, repeated or overtaken, in any run and however the bytes are cut into chunks.
When nothing is on the way, `d` has received all of them.

`Flow` is the invariant: the bytes on the way are whole frames, of messages and of `MSG_ERROR`
answers, and for each pair of mailboxes what has been received and what is on the way make up what
has been sent.
-/

set_option autoImplicit false

namespace CoreRaT.Spec

open CoreRaT.Lib

/-! ### The client side -/

namespace TimsMailbox

/-- A message of the mailbox of `config`, with a body of at most `limit` bytes. -/
structure IsMessage (config : TimsConfig) (limit : Nat) (f : Frame) : Prop where
  src : f.header.src = config.mailboxId
  type : f.header.type = 0
  flags : f.header.flags = FRAME_LE_FLAG
  body : f.body ≠ []
  length : f.body.length ≤ limit

/-- The mailbox has this configuration, it is initialized, and its socket takes every send. -/
structure Ready (config : TimsConfig) (m : TimsMailbox) : Prop where
  config : m.config = config
  isInitialized : m.isInitialized = true
  socket : m.socket.Reliable

theorem IsMessage.kind {config : TimsConfig} {limit : Nat} {f : Frame}
    (h : IsMessage config limit f) : f.header.kind = .data := by
  simp only [FrameHeader.kind, h.type]
  decide

/-- On a socket that takes every send, `send_raw` writes one message, or it does nothing. -/
theorem sendRaw_cases {config : TimsConfig} {m : TimsMailbox} (hm : m.Ready config) {limit : Nat}
    (hmax : config.maxMsgSize ≤ limit) (hlimit : limit < 2 ^ 32 - 16) (data : List UInt8)
    (dest : MailboxId) :
    (∃ f m', m.sendRaw data dest = (.SUCCESS, m') ∧ m'.Ready config ∧
      m'.socket.written = m.socket.written ++ f.encode ∧ IsMessage config limit f ∧
      f.header.dest = dest ∧ f.body = data) ∨
    ∃ result, result ≠ .SUCCESS ∧ m.sendRaw data dest = (result, m) := by
  obtain ⟨rfl, hinit, hsocket⟩ := hm
  by_cases hsends : m.Sends data
  · left
    obtain ⟨-, hopen, hdata, hlen⟩ := hsends
    have hsmall : data.length < 2 ^ 32 - 16 := by omega
    have hword : (UInt32.ofNat data.length).toNat = data.length := by
      rw [UInt32.toNat_ofNat']
      exact Nat.mod_eq_of_lt (by omega)
    let f : Frame := ⟨m.dataHeader data dest, data, by
      rw [dataHeader, bodyLen_makeFrame _ _ _ _ _ _ (by omega), hword]⟩
    have hsize : (data.isEmpty || decide (m.config.maxMsgSize < data.length)) = false := by
      simp [hdata, hlen]
    obtain ⟨hhead, hsocket'⟩ := hsocket.sendAll (m.dataHeader data dest).encode
    obtain ⟨hbody, hsocket''⟩ := hsocket'.sendAll data
    have hwritten := TcpSocket.written_sendAll_of_true hhead
    have hwritten' := TcpSocket.written_sendAll_of_true hbody
    have hmessage : IsMessage m.config limit f := ⟨rfl, rfl, rfl, hdata, Nat.le_trans hlen hmax⟩
    simp only [sendRaw, hinit, hopen, hsize, Bool.not_true, Bool.or_self, Bool.false_eq_true,
      ↓reduceIte]
    rw [← dataHeader]
    generalize m.socket.sendAll (m.dataHeader data dest).encode = res at *
    obtain ⟨ok, s⟩ := res
    obtain rfl : ok = true := hhead
    simp only at hbody hsocket'' hwritten' ⊢
    generalize s.sendAll data = res at *
    obtain ⟨ok, s'⟩ := res
    obtain rfl : ok = true := hbody
    refine ⟨f, _, rfl, ⟨rfl, rfl, hsocket''⟩, ?_, hmessage, rfl, rfl⟩
    simp only at hwritten hwritten' ⊢
    rw [hwritten', hwritten, List.append_assoc]
    rfl
  · right
    refine ⟨(m.sendRaw data dest).1, ?_, ?_⟩
    · unfold sendRaw
      split
      · simp
      · split
        · simp
        · rename_i hclosed hsize
          simp only [Bool.or_eq_true, Bool.not_eq_true', List.isEmpty_iff, decide_eq_true_eq,
            not_or, Bool.not_eq_false, Nat.not_lt] at hclosed hsize
          exact absurd ⟨hclosed.1, hclosed.2, hsize.1, hsize.2⟩ hsends
    · exact Prod.ext rfl (sendRaw_of_not_sends hsends)

/-- A frame that `receive_raw` delivers as it is, or drops because it has no body. -/
def Plain (bufferSize : Nat) (f : Frame) : Prop :=
  f.header.type ≠ MSG_ROUTER_GET_STATUS ∧
    (f.body ≠ [] → f.body.length ≤ bufferSize ∧ f.header.flags &&& FRAME_LE_FLAG ≠ 0)

theorem callMeets_of_plain {fs : List Frame} {c : Call} (h : ∀ f ∈ fs, Plain c.bufferSize f) :
    CallMeets fs c := by
  induction fs generalizing c with
  | nil => trivial
  | cons f fs ih =>
    intro _
    obtain ⟨hstatus, hbody⟩ := h f List.mem_cons_self
    rw [if_neg hstatus]
    split
    · exact ih fun g hg => h g (List.mem_cons_of_mem _ hg)
    · rename_i hne
      exact ⟨(hbody hne).1, Or.inl (hbody hne).2⟩

/-- What a call takes from the frames: those without a body, up to the message that it delivers. The
rest stays. -/
inductive Reads : List Frame → List Frame → List (TimsMetadata × List UInt8) → Prop
  | nothing (fs : List Frame) : Reads fs fs []
  | skip {f : Frame} {fs rest : List Frame} {delivered : List (TimsMetadata × List UInt8)}
      (hempty : f.body = []) (h : Reads fs rest delivered) : Reads (f :: fs) rest delivered
  | message {f : Frame} (hbody : f.body ≠ []) (fs : List Frame) :
      Reads (f :: fs) fs [(metadataOf f.header, f.body)]

namespace Reads

variable {fs rest : List Frame} {delivered : List (TimsMetadata × List UInt8)}

theorem mem_of_mem_rest (h : Reads fs rest delivered) {g : Frame} (hg : g ∈ rest) : g ∈ fs := by
  induction h with
  | nothing fs => exact hg
  | skip hempty h ih => exact List.mem_cons_of_mem _ (ih hg)
  | message hbody fs => exact List.mem_cons_of_mem _ hg

theorem of_mem_delivered (h : Reads fs rest delivered) {x : TimsMetadata × List UInt8}
    (hx : x ∈ delivered) : ∃ f ∈ fs, f.body ≠ [] ∧ x = (metadataOf f.header, f.body) := by
  induction h with
  | nothing fs => cases hx
  | skip hempty h ih =>
    obtain ⟨f, hf, hfound⟩ := ih hx
    exact ⟨f, List.mem_cons_of_mem _ hf, hfound⟩
  | message hbody fs => exact ⟨_, List.mem_cons_self, hbody, List.mem_singleton.mp hx⟩

end Reads

theorem receiveFrames_reads {fs : List Frame} {c : Call} (h : ∀ f ∈ fs, Plain c.bufferSize f) :
    Reads fs (receiveFrames fs c).2 (receiveFrames fs c).1.delivered := by
  induction fs generalizing c with
  | nil =>
    simp only [receiveFrames]
    split <;> exact .nothing []
  | cons f fs ih =>
    obtain ⟨hstatus, hbody⟩ := h f List.mem_cons_self
    rw [receiveFrames]
    split
    · exact .nothing _
    · split
      · rename_i hskip
        exact .skip (hskip.resolve_left hstatus)
          (ih (c := c.next) fun g hg => h g (List.mem_cons_of_mem _ hg))
      · rename_i hkeep
        have hne : f.body ≠ [] := fun hempty => hkeep (Or.inr hempty)
        rw [if_neg (Nat.not_lt.mpr (hbody hne).1)]
        exact .message hne fs

section
variable (swapEndiannessFrom : (littleEndian : Bool) → List UInt8 → List UInt8)

/-- Without a status request, a round only reads. -/
theorem receiveRound_reads {m : TimsMailbox} {bytes : List UInt8}
    (hchunks : m.socket.Chunked bytes) (hstatus : (headOf bytes).type ≠ MSG_ROUTER_GET_STATUS)
    (bufferSize : Nat) (poll : Int) :
    ∃ inbound, (m.receiveRound swapEndiannessFrom bufferSize poll).2.socket =
        { m.socket with inbound } ∧
      (m.receiveRound swapEndiannessFrom bufferSize poll).2.config = m.config := by
  unfold receiveRound
  split
  · exact ⟨m.socket.inbound, rfl, rfl⟩
  · obtain ⟨inbound, hframe⟩ := m.socket.recvAll_frame sizeofFrameHeader
    rcases hchunks.recvAll_cases sizeofFrameHeader with ⟨-, s, hgot, -⟩ | ⟨-, s, hgot⟩
    · rw [hgot] at hframe
      obtain rfl : s = _ := hframe
      simp only [hgot]
      rw [← headOf, if_neg hstatus]
      split
      · exact ⟨inbound, rfl, rfl⟩
      · split
        · exact ⟨inbound, rfl, rfl⟩
        · obtain ⟨inbound', hframe'⟩ :=
            ({ m.socket with inbound } : TcpSocket).recvAll_frame (headOf bytes).bodyLen.toNat
          generalize ({ m.socket with inbound } : TcpSocket).recvAll
            (headOf bytes).bodyLen.toNat = res at hframe'
          obtain ⟨_ | body, s'⟩ := res
          · obtain rfl : s' = _ := hframe'
            exact ⟨inbound', rfl, rfl⟩
          · obtain rfl : s' = _ := hframe'
            exact ⟨inbound', rfl, rfl⟩
    · rw [hgot] at hframe
      obtain rfl : s = _ := hframe
      simp only [hgot]
      exact ⟨inbound, rfl, trivial⟩

theorem receiveLoop_reads {fs : List Frame} (bufferSize : Nat)
    (h : ∀ f ∈ fs, f.header.type ≠ MSG_ROUTER_GET_STATUS) :
    ∀ (fuel : Nat) (m : TimsMailbox) (polls : Nat → Int),
      m.socket.Chunked (fs.flatMap Frame.encode) →
        ∃ inbound, (receiveLoop swapEndiannessFrom fuel m bufferSize polls).2.socket =
            { m.socket with inbound } ∧
          (receiveLoop swapEndiannessFrom fuel m bufferSize polls).2.config = m.config := by
  induction fs with
  | nil =>
    intro fuel m polls hchunks
    cases fuel with
    | zero => exact ⟨m.socket.inbound, rfl, rfl⟩
    | succ fuel =>
      -- The header of an empty stream is zero, and no status request.
      have hround := receiveRound_reads swapEndiannessFrom hchunks (by decide) bufferSize (polls 0)
      rw [receiveLoop_succ]
      rcases receiveRound_cases swapEndiannessFrom hchunks bufferSize (polls 0) with
        ⟨m', -, -, hlen, -⟩ | ⟨body, rest, m', -, -, -, hlen, -⟩ | ⟨r, m', hr, -⟩
      · exact absurd hlen (by decide)
      · exact absurd hlen (by decide)
      · rw [hr] at hround ⊢
        exact hround
  | cons f fs ih =>
    intro fuel m polls hchunks
    cases fuel with
    | zero => exact ⟨m.socket.inbound, rfl, rfl⟩
    | succ fuel =>
      rw [List.flatMap_cons, Frame.encode, List.append_assoc] at hchunks
      have hhead := headOf_append (FrameHeader.length_encode f.header)
        (f.body ++ fs.flatMap Frame.encode)
      rw [FrameHeader.decode_encode] at hhead
      have hstatus := h f List.mem_cons_self
      have hround := receiveRound_reads swapEndiannessFrom hchunks (by rwa [hhead]) bufferSize
        (polls 0)
      rw [receiveLoop_succ]
      rcases receiveRound_cases swapEndiannessFrom hchunks bufferSize (polls 0) with
        ⟨m', hr, hrest, -, hskip⟩ | ⟨body, rest, m', hr, -⟩ | ⟨r, m', hr, -⟩
      · -- The round has passed over a frame without a body, and the loop goes on behind it.
        rw [hhead, msglen_le_iff] at hskip
        rw [List.drop_left' (FrameHeader.length_encode _), hskip.resolve_left hstatus,
          List.nil_append] at hrest
        rw [hr] at hround ⊢
        obtain ⟨inbound, hsocket, hconfig⟩ := hround
        obtain ⟨inbound', hsocket', hconfig'⟩ :=
          ih (fun g hg => h g (List.mem_cons_of_mem _ hg)) fuel m' (fun i => polls (i + 1)) hrest
        refine ⟨inbound', ?_, hconfig'.trans hconfig⟩
        rw [hsocket', hsocket]
      · rw [hr] at hround ⊢
        exact hround
      · rw [hr] at hround ⊢
        exact hround

/-- A call of `receive_raw` on whole frames without status requests: it takes whole frames and
writes nothing. -/
theorem receiveRaw_plain (hswap : ∀ bytes, swapEndiannessFrom true bytes = bytes)
    {fs : List Frame} {m : TimsMailbox} {c : Call} (hm : m.isInitialized = true)
    (hchunks : m.socket.Chunked (fs.flatMap Frame.encode))
    (hplain : ∀ f ∈ fs, Plain c.bufferSize f) :
    ∃ m' rest, (receiveRaw swapEndiannessFrom m c.bufferSize c.polls).2 = m' ∧
      (∃ inbound, m'.socket = { m.socket with inbound }) ∧ m'.config = m.config ∧
      m'.isInitialized = true ∧ m'.socket.inbound.flatten = rest.flatMap Frame.encode ∧
      Reads fs rest (receiveRaw swapEndiannessFrom m c.bufferSize c.polls).1.delivered := by
  obtain ⟨hresult, hrest, hinit⟩ := receiveRaw_eq hswap hm hchunks (callMeets_of_plain hplain)
  have hreads := receiveLoop_reads swapEndiannessFrom c.bufferSize
    (fun f hf => (hplain f hf).1) (m.socket.inbound.flatten.length + 1) m c.polls hchunks
  rw [← receiveRaw_eq_loop swapEndiannessFrom hm hchunks.isOpen] at hreads
  obtain ⟨inbound, hsocket, hconfig⟩ := hreads
  refine ⟨_, (receiveFrames fs c).2, rfl, ⟨inbound, hsocket⟩, hconfig, hinit, hrest.flatten, ?_⟩
  rw [hresult]
  exact receiveFrames_reads hplain

end

end TimsMailbox

/-! ### The router -/

namespace TcpRouter

/-- Connection `k` is a client's, its thread runs, and its socket takes every send. -/
def Attends (r : TcpRouter) (k : ConnId) : Prop :=
  ∃ c, r.connections[k]? = some c ∧ c.finished = false ∧ c.isPeer = false ∧ c.socket.Reliable

theorem Attends.isLive {r : TcpRouter} {k : ConnId} (h : r.Attends k) : r.isLive k = true := by
  obtain ⟨c, hc, hfin, -, hrel⟩ := h
  simp [TcpRouter.isLive, hc, hfin, hrel.1]

theorem Attends.isPeer {r : TcpRouter} {k : ConnId} (h : r.Attends k) : r.isPeer k = false := by
  obtain ⟨c, hc, -, hpeer, -⟩ := h
  simp [TcpRouter.isPeer, hc, hpeer]

/-- Frame `f` is written to connection `d`. -/
theorem Attends.write {r : TcpRouter} {j : ConnId} (h : r.Attends j) (d : ConnId)
    {g : Connection → Connection} (bytes : List UInt8)
    (hg : ∀ c : Connection, c.socket.Reliable → (g c).finished = c.finished ∧
      (g c).isPeer = c.isPeer ∧ (g c).socket.Reliable ∧
      (g c).socket.written = c.socket.written ++ bytes) :
    (r.modify d g).Attends j ∧
      (r.modify d g).writtenTo j = r.writtenTo j ++ if d = j then bytes else [] := by
  obtain ⟨c, hc, hfin, hpeer, hrel⟩ := h
  obtain ⟨hfin', hpeer', hrel', hwritten⟩ := hg c hrel
  have hget := getElem?_modify r d j g
  rw [hc] at hget
  by_cases hd : d = j
  · rw [if_pos hd] at hget
    refine ⟨⟨g c, hget, hfin'.trans hfin, hpeer'.trans hpeer, hrel'⟩, ?_⟩
    rw [writtenTo, writtenTo, hget, hc]
    simp [hwritten, hd]
  · rw [if_neg hd] at hget
    refine ⟨⟨c, hget, hfin, hpeer, hrel⟩, ?_⟩
    simp [writtenTo, hget, hc, hd]

/-- What the thread of connection `k` does with a data frame. The frame is written to the connection
of the registry. Without one, it may be answered. -/
theorem route_data {r : TcpRouter} {k : ConnId} (hk : r.Attends k) {f : Frame}
    (hkind : f.header.kind = .data) (hlen : f.body.length ≤ r.maxMsgSize) :
    (r.step (.frame k (.whole f))).registry = r.registry ∧
      (r.step (.frame k (.whole f))).maxMsgSize = r.maxMsgSize ∧
      ∃ answered : Bool, (answered = true → r.find f.header.dest = none) ∧
        ∀ j, r.Attends j → (r.step (.frame k (.whole f))).Attends j ∧
          (r.step (.frame k (.whole f))).writtenTo j = r.writtenTo j ++
            (if r.find f.header.dest = some j then f.encode else []) ++
            (if answered = true ∧ k = j then (errorReply f.header).encode else []) := by
  have hstep : r.step (.frame k (.whole f)) = r.handleData k f := by
    have hsize : ¬ r.maxMsgSize < f.header.bodyLen.toNat := by
      rw [← f.body_length]
      omega
    simp [step, hk.isLive, handleFrame, Inbound.header, hsize, dispatch, hkind]
  rw [hstep]
  unfold handleData
  cases hfind : r.find f.header.dest with
  | some d =>
    refine ⟨rfl, rfl, false, by simp, ?_⟩
    intro j hj
    obtain ⟨hattends, hwritten⟩ := hj.write d (g := fun c => (c.forward f).2)
      f.encode fun c hc => by
        obtain ⟨hrel, hw⟩ := hc.sendFrame f
        rw [Connection.forward_eq]
        exact ⟨rfl, rfl, hrel, hw⟩
    refine ⟨hattends, ?_⟩
    rw [hwritten]
    simp
  | none =>
    obtain ⟨hreg, -, hcon, hmax⟩ := r.tables_forwardToUpstream f
    simp only [hk.isPeer, Bool.false_eq_true, if_false]
    generalize r.forwardToUpstream f = res at hreg hcon hmax
    obtain ⟨ok, r'⟩ := res
    have hsame : ∀ j, r.Attends j → r'.Attends j ∧ r'.writtenTo j = r.writtenTo j := by
      intro j hj
      simp only at hcon
      constructor
      · unfold Attends
        rw [hcon]
        exact hj
      · simp [writtenTo, hcon]
    cases ok with
    | true =>
      refine ⟨hreg, hmax, false, by simp, ?_⟩
      intro j hj
      simpa using hsame j hj
    | false =>
      refine ⟨hreg, hmax, true, by simp, ?_⟩
      intro j hj
      obtain ⟨hj', hwritten'⟩ := hsame j hj
      obtain ⟨hattends, hwritten⟩ := hj'.write k
        (g := fun c => (c.sendAll (errorReply f.header).encode).2)
        (errorReply f.header).encode fun c hc => by
          obtain ⟨hok, hrel⟩ := hc.sendAll (errorReply f.header).encode
          exact ⟨rfl, rfl, hrel, TcpSocket.written_sendAll_of_true hok⟩
      refine ⟨hattends, ?_⟩
      rw [hwritten, hwritten']
      simp

end TcpRouter

/-! ### From end to end -/

namespace TimsNetwork

open TimsMailbox

variable {n : Nat}

/-- The mailboxes are attached to the router, and messages of at most `limit` bytes fit everywhere.
Each connection has registered the id of its mailbox and no other. -/
structure Attached (cfg : Fin n → TimsConfig) (limit : Nat) (s : TimsNetwork n) : Prop where
  ready : ∀ k, (s.mailbox k).Ready (cfg k)
  attends : ∀ k : Fin n, s.router.Attends k
  routes : ∀ id (k : Fin n), s.router.find id = some k.val ↔ id = (cfg k).mailboxId
  maxMsgSize : ∀ k, (cfg k).maxMsgSize ≤ limit
  fits : limit ≤ s.router.maxMsgSize
  limit_lt : limit < 2 ^ 32 - 16

/-- Nothing has been sent yet, and nothing is on the way. -/
structure Fresh (s : TimsNetwork n) : Prop where
  toRouter : ∀ k, s.toRouter k = []
  toMailbox : ∀ k, s.toMailbox k = []
  sent : ∀ k, s.sent k = []
  received : ∀ k, s.received k = []

/-- The buffers of `receive_raw` have room for every message. -/
def Roomy (limit : Nat) : Event n → Prop
  | .receive _ bufferSize _ _ => limit ≤ bufferSize
  | _ => True

instance (limit : Nat) (e : Event n) : Decidable (Roomy limit e) :=
  match e with
  | .receive _ bufferSize _ _ => inferInstanceAs (Decidable (limit ≤ bufferSize))
  | .send .. | .route _ => inferInstanceAs (Decidable True)

/-- The bodies of the messages from `src` among the frames. -/
def bodiesFrom (src : MailboxId) (fs : List Frame) : List (List UInt8) :=
  fs.filterMap fun f => if f.body ≠ [] ∧ f.header.src = src then some f.body else none

/-- The bodies of the frames for `dest`. -/
def bodiesTo (dest : MailboxId) (fs : List Frame) : List (List UInt8) :=
  fs.filterMap fun f => if f.header.dest = dest then some f.body else none

@[simp] theorem bodiesFrom_nil (src : MailboxId) : bodiesFrom src [] = [] := rfl

@[simp] theorem bodiesFrom_append (src : MailboxId) (fs gs : List Frame) :
    bodiesFrom src (fs ++ gs) = bodiesFrom src fs ++ bodiesFrom src gs :=
  List.filterMap_append

theorem bodiesFrom_cons (src : MailboxId) (f : Frame) (fs : List Frame) :
    bodiesFrom src (f :: fs) =
      (if f.body ≠ [] ∧ f.header.src = src then [f.body] else []) ++ bodiesFrom src fs := by
  unfold bodiesFrom
  rw [List.filterMap_cons]
  split_ifs <;> rfl

theorem bodiesTo_cons (dest : MailboxId) (f : Frame) (fs : List Frame) :
    bodiesTo dest (f :: fs) =
      (if f.header.dest = dest then [f.body] else []) ++ bodiesTo dest fs := by
  unfold bodiesTo
  rw [List.filterMap_cons]
  split_ifs <;> rfl

/-- The messages that a call delivers are the first ones on the way. -/
theorem bodies_of_reads {fs rest : List Frame} {delivered : List (TimsMetadata × List UInt8)}
    (h : Reads fs rest delivered) (src : MailboxId) :
    (delivered.filterMap fun x => if x.1.src = src then some x.2 else none) ++
      bodiesFrom src rest = bodiesFrom src fs := by
  induction h with
  | nothing fs => rfl
  | skip hempty h ih =>
    rw [ih, bodiesFrom_cons, if_neg fun hbody => hbody.1 hempty, List.nil_append]
  | message hbody fs =>
    rw [bodiesFrom_cons]
    simp only [List.filterMap_cons, List.filterMap_nil, metadataOf, hbody, ne_eq,
      not_false_eq_true, true_and]
    split_ifs <;> rfl

/-- A frame on the way to mailbox `d`: a message for it, or an answer of the router. -/
def Arriving (cfg : Fin n → TimsConfig) (limit : Nat) (d : Fin n) (f : Frame) : Prop :=
  (f.header.dest = (cfg d).mailboxId ∧ ∃ k, IsMessage (cfg k) limit f) ∨
    (f.body = [] ∧ f.header.type = MSG_ERROR)

/-- The invariant. The bytes on the way are the frames `ups` and `downs`, and what has been received
and what is on the way make up what has been sent. -/
structure Flow (cfg : Fin n → TimsConfig) (limit : Nat) (ups downs : Fin n → List Frame)
    (s : TimsNetwork n) : Prop extends Attached cfg limit s where
  toRouter : ∀ k, s.toRouter k = (ups k).flatMap Frame.encode
  toMailbox : ∀ k, s.toMailbox k = (downs k).flatMap Frame.encode
  leaving : ∀ k, ∀ f ∈ ups k, IsMessage (cfg k) limit f
  arriving : ∀ d, ∀ f ∈ downs d, Arriving cfg limit d f
  balance : ∀ k d, s.receivedFrom d (cfg k).mailboxId ++
    bodiesFrom (cfg k).mailboxId (downs d) ++ bodiesTo (cfg d).mailboxId (ups k) =
      s.sentTo k (cfg d).mailboxId
  addressed : ∀ d, ∀ x ∈ s.received d,
    x.1.dest = (cfg d).mailboxId ∧ ∃ k, x.1.src = (cfg k).mailboxId

section
variable {cfg : Fin n → TimsConfig} {limit : Nat} {ups downs : Fin n → List Frame}
  {s : TimsNetwork n}

/-- Different mailboxes have different ids: an id has one route. -/
theorem Attached.mailboxId_inj (h : s.Attached cfg limit) {k l : Fin n}
    (hid : (cfg k).mailboxId = (cfg l).mailboxId) : k = l := by
  have hk := (h.routes _ k).mpr rfl
  rw [hid, (h.routes _ l).mpr rfl] at hk
  exact Fin.ext (Option.some.inj hk).symm

theorem Arriving.plain {d : Fin n} {f : Frame} (h : Arriving cfg limit d f) {bufferSize : Nat}
    (hroom : limit ≤ bufferSize) : Plain bufferSize f := by
  rcases h with ⟨-, k, hmessage⟩ | ⟨hempty, htype⟩
  · refine ⟨by rw [hmessage.type]; decide, fun _ => ⟨Nat.le_trans hmessage.length hroom, ?_⟩⟩
    rw [hmessage.flags]
    decide
  · exact ⟨by rw [htype]; decide, fun hne => absurd hempty hne⟩

/-! ### One step -/

theorem flow_send (h : s.Flow cfg limit ups downs) (swap : Bool → List UInt8 → List UInt8)
    (k : Fin n) (data : List UInt8) (dest : MailboxId) :
    ∃ ups', (s.step swap (.send k data dest)).Flow cfg limit ups' downs := by
  rcases sendRaw_cases (h.ready k) (h.maxMsgSize k) h.limit_lt data dest with
    ⟨f, m, hsend, hready, hwritten, hmessage, rfl, rfl⟩ | ⟨result, hne, hsend⟩
  · -- The message goes behind the others that mailbox `k` has sent.
    have hbytes : (s.setMailbox k m).toRouter =
        Function.update s.toRouter k (s.toRouter k ++ f.encode) := by
      simp only [setMailbox, hwritten, List.drop_left]
    refine ⟨Function.update ups k (ups k ++ [f]), ?_⟩
    simp only [step, hsend, if_true]
    exact {
      ready := (Function.forall_update_iff s.mailbox fun j m => m.Ready (cfg j)).mpr
        ⟨hready, fun j _ => h.ready j⟩
      attends := h.attends
      routes := h.routes
      maxMsgSize := h.maxMsgSize
      fits := h.fits
      limit_lt := h.limit_lt
      toRouter := by
        intro j
        simp only [hbytes, Function.update_apply]
        split
        · rename_i hj
          rw [h.toRouter k, List.flatMap_append, List.flatMap_singleton]
        · exact h.toRouter j
      toMailbox := h.toMailbox
      leaving := by
        intro j g hg
        by_cases hj : j = k
        · subst hj
          rw [Function.update_self] at hg
          rcases List.mem_append.mp hg with hold | hnew
          · exact h.leaving j g hold
          · rwa [List.mem_singleton.mp hnew]
        · rw [Function.update_of_ne hj] at hg
          exact h.leaving j g hg
      arriving := h.arriving
      balance := by
        intro j d
        have hbalance := h.balance j d
        by_cases hj : j = k
        · subst hj
          simp only [sentTo, receivedFrom, setMailbox, Function.update_self, List.filterMap_append,
            bodiesTo] at hbalance ⊢
          rw [← hbalance]
          simp [List.filterMap_cons]
        · simpa only [sentTo, receivedFrom, setMailbox, Function.update_of_ne hj] using hbalance
      addressed := h.addressed }
  · refine ⟨ups, ?_⟩
    have hsame : s.step swap (.send k data dest) = s := by
      simp [step, hsend, hne, setMailbox]
    rw [hsame]
    exact h

/-! #### The router reads a frame -/

/-- What the thread of connection `k` writes to mailbox `d` for `f`: the message, or the answer. -/
def routed (cfg : Fin n → TimsConfig) (k : Fin n) (f : Frame) (answered : Bool) (d : Fin n) :
    List Frame :=
  (if f.header.dest = (cfg d).mailboxId then [f] else []) ++
    if answered = true ∧ k = d then [TcpRouter.errorReply f.header] else []

/-- The router has the tables that it has had, and what it has written is on the way. -/
theorem step_route (h : s.Flow cfg limit ups downs) (swap : Bool → List UInt8 → List UInt8)
    {k : Fin n} {f : Frame} {rest : List Frame} (hups : ups k = f :: rest) :
    ∃ r answered, s.step swap (.route k) =
        { s with
            router := r
            toRouter := Function.update s.toRouter k (rest.flatMap Frame.encode)
            toMailbox := fun d =>
              s.toMailbox d ++ (routed cfg k f answered d).flatMap Frame.encode } ∧
      (∀ d : Fin n, r.Attends d) ∧ r.registry = s.router.registry ∧
      r.maxMsgSize = s.router.maxMsgSize := by
  have hmessage := h.leaving k f (by rw [hups]; exact List.mem_cons_self)
  obtain ⟨hreg, hmax, answered, -, hroute⟩ := TcpRouter.route_data (h.attends k)
    hmessage.kind (Nat.le_trans hmessage.length h.fits)
  refine ⟨_, answered, ?_, fun d => (hroute d (h.attends d)).1, hreg, hmax⟩
  simp only [step, h.toRouter k, hups, List.flatMap_cons, splitFrame_encode_append, setRouter]
  congr 1
  funext d
  rw [(hroute d (h.attends d)).2, List.append_assoc, List.drop_left]
  simp only [routed, h.routes, Fin.val_inj, List.flatMap_append]
  split <;> split <;> simp

theorem arriving_routed {k : Fin n} {f : Frame} (hf : IsMessage (cfg k) limit f) {answered : Bool}
    {d : Fin n} {g : Frame} (hg : g ∈ routed cfg k f answered d) : Arriving cfg limit d g := by
  rcases List.mem_append.mp hg with hg | hg
  · split at hg
    · rename_i hdest
      rw [List.mem_singleton.mp hg]
      exact Or.inl ⟨hdest, k, hf⟩
    · cases hg
  · split at hg
    · rw [List.mem_singleton.mp hg]
      exact Or.inr ⟨rfl, rfl⟩
    · cases hg

/-- The message is from its sender, and the answer is no message. -/
theorem bodiesFrom_routed (h : s.Attached cfg limit) {k : Fin n} {f : Frame}
    (hf : IsMessage (cfg k) limit f) (answered : Bool) (j d : Fin n) :
    bodiesFrom (cfg j).mailboxId (routed cfg k f answered d) =
      if k = j ∧ f.header.dest = (cfg d).mailboxId then [f.body] else [] := by
  have hsrc : f.header.src = (cfg j).mailboxId ↔ k = j := by
    rw [hf.src]
    exact ⟨h.mailboxId_inj, fun hkj => by rw [hkj]⟩
  have hanswer : bodiesFrom (cfg j).mailboxId
      (if answered = true ∧ k = d then [TcpRouter.errorReply f.header] else []) = [] := by
    split <;> rfl
  simp only [routed, bodiesFrom_append, hanswer, List.append_nil]
  by_cases hdest : f.header.dest = (cfg d).mailboxId
  · simp [hdest, bodiesFrom_cons, hf.body, hsrc]
  · simp [hdest]

theorem flow_route (h : s.Flow cfg limit ups downs) (swap : Bool → List UInt8 → List UInt8)
    (k : Fin n) : ∃ ups' downs', (s.step swap (.route k)).Flow cfg limit ups' downs' := by
  cases hups : ups k with
  | nil =>
    -- There is no frame to read.
    have hsame : s.step swap (.route k) = s := by
      simp only [step, h.toRouter k, hups, List.flatMap_nil]
      rfl
    rw [hsame]
    exact ⟨ups, downs, h⟩
  | cons f rest =>
    have hmessage := h.leaving k f (by rw [hups]; exact List.mem_cons_self)
    obtain ⟨r, answered, hstep, hattends, hreg, hmax⟩ := step_route h swap hups
    rw [hstep]
    refine ⟨Function.update ups k rest, fun d => downs d ++ routed cfg k f answered d, ?_⟩
    exact {
      ready := h.ready
      attends := hattends
      routes := by
        intro id d
        rw [← h.routes]
        simp only [TcpRouter.find, hreg]
      maxMsgSize := h.maxMsgSize
      fits := Nat.le_trans h.fits (Nat.le_of_eq hmax.symm)
      limit_lt := h.limit_lt
      toRouter := by
        intro j
        simp only [Function.update_apply]
        split
        · rfl
        · exact h.toRouter j
      toMailbox := by
        intro d
        simp only [h.toMailbox d, List.flatMap_append]
      leaving := by
        refine (Function.forall_update_iff ups fun j fs => ∀ g ∈ fs, IsMessage (cfg j) limit g).mpr
          ⟨fun g hg => h.leaving k g ?_, fun j _ => h.leaving j⟩
        rw [hups]
        exact List.mem_cons_of_mem _ hg
      arriving := by
        intro d g hg
        rcases List.mem_append.mp hg with hold | hnew
        · exact h.arriving d g hold
        · exact arriving_routed hmessage hnew
      balance := by
        intro j d
        have hbalance := h.balance j d
        show s.receivedFrom d _ ++ bodiesFrom _ (downs d ++ _) ++ _ = s.sentTo j _
        rw [← hbalance, bodiesFrom_append, bodiesFrom_routed h.toAttached hmessage]
        by_cases hj : j = k
        -- The message has moved on to mailbox `d`, or it is for none of them.
        · subst hj
          by_cases hdest : f.header.dest = (cfg d).mailboxId <;> simp [hups, bodiesTo_cons, hdest]
        · simp [Function.update_of_ne hj, Ne.symm hj]
      addressed := h.addressed }

/-! #### A mailbox receives -/

/-- The mailbox is ready again, it has read from the frames on the way, and has written nothing. -/
theorem step_receive (h : s.Flow cfg limit ups downs) {swap : Bool → List UInt8 → List UInt8}
    (hswap : ∀ bytes, swap true bytes = bytes) (k : Fin n) {bufferSize : Nat}
    (hroom : limit ≤ bufferSize) (polls : Nat → Int) (chunks : List (List UInt8)) :
    s.step swap (.receive k bufferSize polls chunks) = s ∨
      ∃ m rest delivered, m.Ready (cfg k) ∧ Reads (downs k) rest delivered ∧
        s.step swap (.receive k bufferSize polls chunks) =
          { s with
              mailbox := Function.update s.mailbox k m
              toMailbox := Function.update s.toMailbox k (rest.flatMap Frame.encode)
              received := Function.update s.received k (s.received k ++ delivered) } := by
  simp only [step]
  split
  · rename_i hchunks
    have hready := h.ready k
    have hchunked : TcpSocket.Chunked { (s.mailbox k).socket with inbound := chunks }
        ((downs k).flatMap Frame.encode) :=
      ⟨hready.socket.1, by rw [← h.toMailbox k]; exact hchunks.1,
        fun c hc hempty => hchunks.2 (hempty ▸ hc)⟩
    obtain ⟨m, rest, hm, ⟨inbound, hsocket⟩, hconfig, hinit, hleft, hreads⟩ :=
      receiveRaw_plain swap (c := ⟨bufferSize, polls⟩) hswap
        (m := { s.mailbox k with socket := { (s.mailbox k).socket with inbound := chunks } })
        hready.isInitialized hchunked fun f hf => (h.arriving k f hf).plain hroom
    refine Or.inr ⟨m, rest, _,
      ⟨hconfig.trans hready.config, hinit, by rw [hsocket]; exact hready.socket⟩, hreads, ?_⟩
    have hwritten : m.socket.written = (s.mailbox k).socket.written := by rw [hsocket]
    have hbytes : (s.setMailbox k m).toRouter = s.toRouter := by
      simp [setMailbox, hwritten]
    simp only at hm
    rw [hm, ← hleft, ← hbytes]
    rfl
  · exact Or.inl rfl

theorem flow_receive (h : s.Flow cfg limit ups downs) {swap : Bool → List UInt8 → List UInt8}
    (hswap : ∀ bytes, swap true bytes = bytes) (k : Fin n) {bufferSize : Nat}
    (hroom : limit ≤ bufferSize) (polls : Nat → Int) (chunks : List (List UInt8)) :
    ∃ downs', (s.step swap (.receive k bufferSize polls chunks)).Flow cfg limit ups downs' := by
  rcases step_receive h hswap k hroom polls chunks with
    hsame | ⟨m, rest, delivered, hready, hreads, hstep⟩
  · rw [hsame]
    exact ⟨downs, h⟩
  rw [hstep]
  refine ⟨Function.update downs k rest, ?_⟩
  exact {
    ready := (Function.forall_update_iff s.mailbox fun j m => m.Ready (cfg j)).mpr
      ⟨hready, fun j _ => h.ready j⟩
    attends := h.attends
    routes := h.routes
    maxMsgSize := h.maxMsgSize
    fits := h.fits
    limit_lt := h.limit_lt
    toRouter := h.toRouter
    toMailbox := by
      intro d
      simp only [Function.update_apply]
      split
      · rfl
      · exact h.toMailbox d
    leaving := h.leaving
    arriving := (Function.forall_update_iff downs fun d fs => ∀ g ∈ fs, Arriving cfg limit d g).mpr
      ⟨fun g hg => h.arriving k g (hreads.mem_of_mem_rest hg), fun d _ => h.arriving d⟩
    balance := by
      intro j d
      have hbalance := h.balance j d
      by_cases hd : d = k
      -- A message goes from the stream to what has been received.
      · subst hd
        show (Function.update s.received d (s.received d ++ delivered) d).filterMap _ ++
          bodiesFrom _ (Function.update downs d rest d) ++ _ = s.sentTo j _
        rw [← hbalance, Function.update_self, Function.update_self, List.filterMap_append,
          List.append_assoc (List.filterMap _ _), bodies_of_reads hreads]
        rfl
      · simpa only [receivedFrom, sentTo, Function.update_of_ne hd] using hbalance
    addressed := by
      refine (Function.forall_update_iff s.received fun d xs => ∀ x ∈ xs,
        x.1.dest = (cfg d).mailboxId ∧ ∃ k, x.1.src = (cfg k).mailboxId).mpr
          ⟨fun x hx => ?_, fun d _ => h.addressed d⟩
      rcases List.mem_append.mp hx with hold | hnew
      · exact h.addressed k x hold
      · obtain ⟨f, hmem, hbody, rfl⟩ := hreads.of_mem_delivered hnew
        -- An answer of the router has no body, so this is a message.
        rcases h.arriving k f hmem with ⟨hdest, l, hmessage⟩ | ⟨hempty, -⟩
        · exact ⟨hdest, l, hmessage.src⟩
        · exact absurd hempty hbody }

end

/-! ### Whole runs -/

section
variable {cfg : Fin n → TimsConfig} {limit : Nat} {s : TimsNetwork n}

/-- Frames without bytes are no frames. -/
theorem eq_nil_of_flatMap_encode {fs : List Frame} (h : fs.flatMap Frame.encode = []) :
    fs = [] := by
  cases fs with
  | nil => rfl
  | cons f fs =>
    rw [List.flatMap_cons] at h
    exact absurd (List.append_eq_nil_iff.mp (List.append_eq_nil_iff.mp h).1).1
      f.header.encode_ne_nil

theorem Fresh.flow (hs : s.Fresh) (h : s.Attached cfg limit) :
    s.Flow cfg limit (fun _ => []) fun _ => [] where
  toAttached := h
  toRouter := hs.toRouter
  toMailbox := hs.toMailbox
  leaving := fun _ f hf => absurd hf List.not_mem_nil
  arriving := fun _ f hf => absurd hf List.not_mem_nil
  balance := fun k d => by simp [receivedFrom, sentTo, hs.sent, hs.received, bodiesTo]
  addressed := fun d x hx => by simp [hs.received] at hx

theorem flow_step {swap : Bool → List UInt8 → List UInt8} (hswap : ∀ bytes, swap true bytes = bytes)
    {ups downs : Fin n → List Frame} (h : s.Flow cfg limit ups downs) {e : Event n}
    (he : Roomy limit e) : ∃ ups' downs', (s.step swap e).Flow cfg limit ups' downs' := by
  cases e with
  | send k data dest =>
    obtain ⟨ups', h'⟩ := flow_send h swap k data dest
    exact ⟨ups', downs, h'⟩
  | route k => exact flow_route h swap k
  | receive k bufferSize polls chunks =>
    obtain ⟨downs', h'⟩ := flow_receive h hswap k he polls chunks
    exact ⟨ups, downs', h'⟩

theorem flow_run {swap : Bool → List UInt8 → List UInt8} (hswap : ∀ bytes, swap true bytes = bytes)
    (h : s.Attached cfg limit) (hs : s.Fresh) {es : List (Event n)}
    (hes : ∀ e ∈ es, Roomy limit e) :
    ∃ ups downs, (runFrom (step swap) s es).Flow cfg limit ups downs := by
  have hrun : AllStates (step swap)
      (fun t => ∃ ups downs : Fin n → List Frame, t.Flow cfg limit ups downs) s es :=
    allStates_of_allSteps (fun t e ⟨_, _, ht⟩ he => flow_step hswap ht he)
      ⟨_, _, hs.flow h⟩ (allSteps_of_forall hes)
  exact hrun.last

/-- What mailbox `d` has received from mailbox `k` are the first messages that `k` has sent to `d`,
and all of them when nothing is on the way. Each message was for `d`, and one of the mailboxes has
sent it. -/
theorem delivery (swap : Bool → List UInt8 → List UInt8) (hswap : ∀ bytes, swap true bytes = bytes)
    (h : s.Attached cfg limit) (hs : s.Fresh) (es : List (Event n)) (hes : ∀ e ∈ es, Roomy limit e)
    (d : Fin n) :
    let t := runFrom (step swap) s es
    (∀ x ∈ t.received d, x.1.dest = (cfg d).mailboxId ∧ ∃ k, x.1.src = (cfg k).mailboxId) ∧
      ∀ k, t.receivedFrom d (cfg k).mailboxId <+: t.sentTo k (cfg d).mailboxId ∧
        (t.toRouter k = [] → t.toMailbox d = [] →
          t.receivedFrom d (cfg k).mailboxId = t.sentTo k (cfg d).mailboxId) := by
  intro t
  obtain ⟨ups, downs, ht⟩ := flow_run hswap h hs hes
  refine ⟨ht.addressed d, fun k => ⟨?_, fun hup hdown => ?_⟩⟩
  · exact ⟨_, by rw [← List.append_assoc]; exact ht.balance k d⟩
  · have hups := eq_nil_of_flatMap_encode ((ht.toRouter k).symm.trans hup)
    have hdowns := eq_nil_of_flatMap_encode ((ht.toMailbox d).symm.trans hdown)
    have hbalance := ht.balance k d
    rw [hups, hdowns] at hbalance
    simpa [bodiesTo] using hbalance

end

/-! #### Two mailboxes -/

/-- A socket whose sends all take the whole buffer. -/
def willingSocket (inbound : List (List UInt8)) : TcpSocket where
  isOpen := true
  sendResults := fun _ => 1000
  written := []
  inbound := inbound

def mailboxConfig (id : MailboxId) : TimsConfig := ⟨id, 100, 0⟩

/-- Mailboxes 7 and 9. -/
def twoConfigs (k : Fin 2) : TimsConfig := mailboxConfig (if k.val = 0 then 7 else 9)

/-- Both mailboxes have connected to the router, and both registrations have been answered. -/
def twoMailboxes : TimsNetwork 2 where
  mailbox := fun k =>
    (TimsMailbox.initializeMailbox ⟨twoConfigs k, (willingSocket []).close, false, 0, 0, 0⟩
      (some (willingSocket [(TcpRouter.initReply true (regFrame (twoConfigs k)).header).encode]))).2
  router := runFrom TcpRouter.step (TcpRouter.init 100 (willingSocket []).close [])
    [.accept (willingSocket []), .accept (willingSocket []),
      .frame 0 (.whole (regFrame (mailboxConfig 7))),
      .frame 1 (.whole (regFrame (mailboxConfig 9)))]
  toRouter := fun _ => []
  toMailbox := fun _ => []
  sent := fun _ => []
  received := fun _ => []

/-- Mailbox `a` sends to 9, to an id that nobody has, and to 9 again. The answers and the messages
arrive in pieces. -/
def threeSends (a b : Fin 2) : List (Event 2) :=
  let first : Frame := ⟨makeFrame 0 9 7 0 0 2, [1, 2], by decide⟩
  let third : Frame := ⟨makeFrame 0 9 7 0 2 1, [5], by decide⟩
  [.send a [1, 2] 9, .send a [3] 4, .send a [5] 9, .route a, .route a, .route a,
    .receive b 100 (fun _ => 1) [first.encode.take 10, first.encode.drop 10, third.encode],
    .receive b 100 (fun _ => 1) [third.encode.take 5, third.encode.drop 5]]

theorem twoMailboxes_attached : twoMailboxes.Attached twoConfigs 100 where
  ready := Fin.forall_fin_two.mpr
    ⟨⟨rfl, by decide, by decide, fun _ => (by decide : (0 : Int) < 1000)⟩,
      ⟨rfl, by decide, by decide, fun _ => (by decide : (0 : Int) < 1000)⟩⟩
  attends := Fin.forall_fin_two.mpr
    ⟨⟨_, rfl, by decide, by decide, by decide, fun _ => (by decide : (0 : Int) < 1000)⟩,
      ⟨_, rfl, by decide, by decide, by decide, fun _ => (by decide : (0 : Int) < 1000)⟩⟩
  routes := by
    intro id k
    have hregistry : twoMailboxes.router.registry =
        ⟨Function.update (Function.update (fun _ => none) 7 (some 0)) 9 (some 1)⟩ := rfl
    simp only [TcpRouter.find, MailboxRegistry.find, hregistry, Function.update_apply]
    revert k
    rw [Fin.forall_fin_two]
    simp only [twoConfigs, mailboxConfig]
    grind
  maxMsgSize := fun _ => Nat.le_refl _
  fits := by decide
  limit_lt := by decide

theorem delivery_twoMailboxes :
    let t := runFrom (step fun littleEndian bytes => if littleEndian then bytes else bytes.reverse)
      twoMailboxes (threeSends 0 1)
    (t.receivedFrom 1 7 <+: t.sentTo 0 9 ∧
      (t.toRouter 0 = [] → t.toMailbox 1 = [] → t.receivedFrom 1 7 = t.sentTo 0 9)) ∧
      t.sentTo 0 9 = [[1, 2], [5]] ∧ t.receivedFrom 1 7 = [[1, 2], [5]] ∧ t.toMailbox 1 = [] ∧
      t.sentTo 0 4 = [[3]] := by
  refine ⟨?_, by decide +kernel, by decide +kernel, by decide +kernel, by decide +kernel⟩
  exact (delivery (fun littleEndian bytes => if littleEndian then bytes else bytes.reverse)
    (fun _ => rfl) twoMailboxes_attached
    ⟨fun _ => rfl, fun _ => rfl, fun _ => rfl, fun _ => rfl⟩ (threeSends 0 1) (by decide) 1).2 0

end TimsNetwork

end CoreRaT.Spec
