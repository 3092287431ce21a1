import Mathlib.Data.Fintype.Basic
import CoreRaT.Proofs.Mesh.Steps
import CoreRaT.Proofs.Threads.Census

/-!
# `CoreRaT.Proofs.Mesh.Conservation`: no message is lost or duplicated between the routers

A message of a client is somewhere: in the hands of a thread, unread on a link, written to a
client, or handed upstream. `copies` counts how often a payload is in these places, over all
routers. `conservation` says that the count is the number of times that clients have sent the
payload, less the number of times that a thread has given it up, whatever the routers do: links
are set up, routes change, frames are read in any order and threads end.

So no interleaving duplicates a message, also where routes form a cycle, and a message is lost at
one kind of section only: a thread that finds no route and no way upstream.
-/

set_option autoImplicit false

namespace CoreRaT.Spec.RouterMesh

open CoreRaT.Lib
open RouterThreads (clientEvent)

variable {ι : Type}

/-- The number of times that `f` has been written to connection `k`, if that is a client's. -/
def arrivedAt (p : RouterMesh ι) (f : Frame) (i : ι) (k : ConnId) : Nat :=
  if (p.link i k).isSome then 0 else (((p.router i).out k).map (·.frame)).count f

/-- The number of times that `f` is unread on connection `k` or has arrived there. -/
def heldAt (p : RouterMesh ι) (f : Frame) (i : ι) (k : ConnId) : Nat :=
  p.arrivedAt f i k + (p.unread i k).count f

/-- The number of times that router `i` has handed `f` upstream. -/
def climbedAt (p : RouterMesh ι) (f : Frame) (i : ι) : Nat :=
  ((p.router i).upstreamOut.map (·.frame)).count f

/-- The copies of `f` at router `i`. -/
def copiesAt (p : RouterMesh ι) (f : Frame) (i : ι) : Nat :=
  (p.router i).handling f + ∑ k ∈ Finset.range (p.router i).started, p.heldAt f i k +
    p.climbedAt f i

/-- The copies of `f` at all routers. -/
def copies [Fintype ι] (p : RouterMesh ι) (f : Frame) : Nat := ∑ i, p.copiesAt f i

/-- 1 if a client's thread reads `f` in this step. -/
def offered (f : Frame) (p : RouterMesh ι) : Event ι → Nat
  | .router i (.recv k g) =>
    if clientEvent (p.isLink i) (.recv k g) then (p.router i).taken f (.recv k g) else 0
  | _ => 0

/-- 1 if a thread gives `f` up in this step. -/
def lost (f : Frame) (p : RouterMesh ι) : Event ι → Nat
  | .router i re => (p.router i).dropped f re
  | _ => 0

/-! ### One router -/

section
variable [DecidableEq ι]

/-- Where router `i` has written nothing yet, nothing is unread. -/
def Fresh (p : RouterMesh ι) (i : ι) : Prop := ∀ k, (p.router i).started ≤ k → p.unread i k = []

theorem heldAt_advance_of_lt {p : RouterMesh ι} {i : ι} (re : RouterThreads.Event) {k : ConnId}
    (hk : k < (p.router i).started) (f : Frame) :
    (p.advance i re).heldAt f i k = p.heldAt f i k + (p.router i).written re k f := by
  have hout := RouterThreads.out_step (e := re) hk
  have hsent : (p.router i).sent re k = ((p.router i).writes re k).map (·.frame) := by
    rw [RouterThreads.sent_eq hk]
  cases hlink : (p.link i k).isSome with
  | true =>
    simp [heldAt, arrivedAt, advance, hlink, hsent, RouterThreads.written]
  | false =>
    simp [heldAt, arrivedAt, advance, hlink, hout, RouterThreads.written]
    omega

/-- Nothing is on a connection that has just been made. -/
theorem heldAt_advance_started {p : RouterMesh ι} {i : ι} (hfresh : p.Fresh i) {b : Bool}
    (hacc : (p.router i).accepting = none) (f : Frame) :
    (p.advance i (.start b)).heldAt f i (p.router i).started = 0 := by
  have hout : ((p.router i).step (.start b)).out (p.router i).started = [] := by
    simp [RouterThreads.step, hacc, RouterThreads.startConnection]
  simp [heldAt, arrivedAt, advance, RouterThreads.sent, hout, hfresh _ (Nat.le_refl _)]

/-- A step of a router accounts for every copy there. -/
theorem copiesAt_advance {p : RouterMesh ι} {i : ι} (hwf : (p.router i).Wf)
    (haimed : (p.router i).Aimed) (hfresh : p.Fresh i) {f : Frame} (hf : f.Payload)
    (re : RouterThreads.Event) :
    (p.advance i re).copiesAt f i + (p.router i).dropped f re =
      p.copiesAt f i + (p.router i).taken f re := by
  have hcensus := RouterThreads.census_step hwf haimed hf re
  have hup := RouterThreads.count_upstreamOut_step (p.router i) re f
  have hself : (p.advance i re).router i = (p.router i).step re := by simp [advance]
  -- The sum over the connections grows by what the step writes.
  have hheld : ∑ k ∈ Finset.range ((p.router i).step re).started, (p.advance i re).heldAt f i k =
      ∑ k ∈ Finset.range (p.router i).started, p.heldAt f i k +
        ∑ k ∈ Finset.range (p.router i).started, (p.router i).written re k f := by
    rw [← Finset.sum_add_distrib]
    have hold : ∑ k ∈ Finset.range (p.router i).started, (p.advance i re).heldAt f i k =
        ∑ k ∈ Finset.range (p.router i).started,
          (p.heldAt f i k + (p.router i).written re k f) :=
      Finset.sum_congr rfl fun k hk => heldAt_advance_of_lt re (Finset.mem_range.mp hk) f
    rcases RouterThreads.started_step (p.router i) re with hsame | ⟨hacc, b, rfl, hnew⟩
    · rw [hsame, hold]
    · rw [hnew, Finset.sum_range_succ, heldAt_advance_started hfresh hacc, hold, Nat.add_zero]
  simp only [copiesAt, climbedAt, hself, hheld, hup]
  omega

/-- The other routers are left alone. -/
theorem copiesAt_advance_of_ne (p : RouterMesh ι) {i j : ι} (hj : j ≠ i)
    (re : RouterThreads.Event) (f : Frame) :
    (p.advance i re).copiesAt f j = p.copiesAt f j := by
  simp [copiesAt, heldAt, arrivedAt, climbedAt, advance, Function.update_of_ne hj]

/-- Making a connection an end of a link changes no count, if it was one or if nothing has been
written to it. -/
theorem copiesAt_setLink {p : RouterMesh ι} {i : ι} {k : ConnId}
    (h : (p.link i k).isSome = true ∨ (p.router i).out k = []) (far : FarEnd ι) (f : Frame)
    (j : ι) : (p.setLink i k far).copiesAt f j = p.copiesAt f j := by
  have harrived : ∀ l, (p.setLink i k far).arrivedAt f j l = p.arrivedAt f j l := by
    intro l
    by_cases hjl : j = i ∧ l = k
    · obtain ⟨rfl, rfl⟩ := hjl
      rcases h with hlink | hout
      · simp [arrivedAt, link_setLink, hlink]
      · simp [arrivedAt, setLink, hout]
    · simp only [arrivedAt, link_setLink, if_neg hjl]
      rfl
  simp only [copiesAt, heldAt, harrived]
  rfl

/-- The frame at position `n` is taken out of what is unread for the other end of connection `l`. -/
def takeOut (p : RouterMesh ι) (j : ι) (l : ConnId) (n : Nat) : RouterMesh ι :=
  { p with
      unread := Function.update p.unread j
        (Function.update (p.unread j) l ((p.unread j l).eraseIdx n)) }

@[simp] theorem router_takeOut (p : RouterMesh ι) (j : ι) (l : ConnId) (n : Nat) :
    (p.takeOut j l n).router = p.router := rfl

@[simp] theorem arrivedAt_takeOut (p : RouterMesh ι) (j : ι) (l : ConnId) (n : Nat) (f : Frame)
    (i : ι) (k : ConnId) : (p.takeOut j l n).arrivedAt f i k = p.arrivedAt f i k := rfl

@[simp] theorem climbedAt_takeOut (p : RouterMesh ι) (j : ι) (l : ConnId) (n : Nat) (f : Frame)
    (i : ι) : (p.takeOut j l n).climbedAt f i = p.climbedAt f i := rfl

theorem unread_takeOut_self (p : RouterMesh ι) (j : ι) (l : ConnId) (n : Nat) :
    (p.takeOut j l n).unread j l = (p.unread j l).eraseIdx n := by
  simp [takeOut]

theorem unread_takeOut_of_ne (p : RouterMesh ι) {i j : ι} {k l : ConnId} (n : Nat)
    (h : ¬ (i = j ∧ k = l)) : (p.takeOut j l n).unread i k = p.unread i k := by
  by_cases hi : i = j
  · subst hi
    simp [takeOut, Function.update_of_ne fun hk => h ⟨rfl, hk⟩]
  · simp [takeOut, Function.update_of_ne hi]

theorem Fresh.takeOut {p : RouterMesh ι} {i : ι} (h : p.Fresh i) (j : ι) (l : ConnId) (n : Nat) :
    (p.takeOut j l n).Fresh i := by
  intro k hk
  by_cases hat : i = j ∧ k = l
  · obtain ⟨rfl, rfl⟩ := hat
    rw [unread_takeOut_self, h k hk]
    rfl
  · rw [unread_takeOut_of_ne p n hat]
    exact h k hk

/-- Reading takes one frame away. -/
theorem copiesAt_takeOut {p : RouterMesh ι} {j : ι} {l : ConnId} (hl : l < (p.router j).started)
    {n : Nat} {g : Frame} (hg : (p.unread j l)[n]? = some g) (f : Frame) :
    (p.takeOut j l n).copiesAt f j + (if g = f then 1 else 0) = p.copiesAt f j := by
  have hcount : ((p.unread j l).eraseIdx n).count f + (if g = f then 1 else 0) =
      (p.unread j l).count f := by
    obtain ⟨hn, rfl⟩ := List.getElem?_eq_some_iff.mp hg
    rw [← (List.getElem_cons_eraseIdx_perm hn).count_eq f, List.count_cons]
    simp
  have hsum := sum_add_of_eq_off (fun k : Nat => p.heldAt f j k)
    (fun k => (p.takeOut j l n).heldAt f j k) (Finset.mem_range.mpr hl) fun k _ hk => by
      simp only [heldAt, arrivedAt_takeOut, unread_takeOut_of_ne p n fun hc => hk hc.2]
  have hat : (p.takeOut j l n).heldAt f j l + (if g = f then 1 else 0) = p.heldAt f j l := by
    simp only [heldAt, arrivedAt_takeOut, unread_takeOut_self]
    omega
  simp only [copiesAt, router_takeOut, climbedAt_takeOut] at hsum ⊢
  omega

theorem copiesAt_takeOut_of_ne (p : RouterMesh ι) {i j : ι} (hi : i ≠ j) (l : ConnId) (n : Nat)
    (f : Frame) : (p.takeOut j l n).copiesAt f i = p.copiesAt f i := by
  simp only [copiesAt, router_takeOut, climbedAt_takeOut, heldAt, arrivedAt_takeOut,
    unread_takeOut_of_ne p n fun hc => hi hc.1]

/-! ### All routers -/

variable [Fintype ι]

theorem copies_advance {p : RouterMesh ι} {i : ι} (hwf : (p.router i).Wf)
    (haimed : (p.router i).Aimed) (hfresh : p.Fresh i) {f : Frame} (hf : f.Payload)
    (re : RouterThreads.Event) :
    (p.advance i re).copies f + (p.router i).dropped f re =
      p.copies f + (p.router i).taken f re := by
  have hsum := sum_add_of_eq_off (fun j => p.copiesAt f j) (fun j => (p.advance i re).copiesAt f j)
    (Finset.mem_univ i) fun j _ hj => copiesAt_advance_of_ne p hj re f
  have hself := copiesAt_advance hwf haimed hfresh hf re
  simp only [copies] at hsum ⊢
  omega

theorem copies_setLink {p : RouterMesh ι} {i : ι} {k : ConnId}
    (h : (p.link i k).isSome = true ∨ (p.router i).out k = []) (far : FarEnd ι) (f : Frame) :
    (p.setLink i k far).copies f = p.copies f :=
  Finset.sum_congr rfl fun j _ => copiesAt_setLink h far f j

theorem copies_takeOut {p : RouterMesh ι} {j : ι} {l : ConnId} (hl : l < (p.router j).started)
    {n : Nat} {g : Frame} (hg : (p.unread j l)[n]? = some g) (f : Frame) :
    (p.takeOut j l n).copies f + (if g = f then 1 else 0) = p.copies f := by
  have hsum := sum_add_of_eq_off (fun i => p.copiesAt f i) (fun i => (p.takeOut j l n).copiesAt f i)
    (Finset.mem_univ j) fun i _ hi => copiesAt_takeOut_of_ne p hi l n f
  have hself := copiesAt_takeOut hl hg f
  simp only [copies] at hsum ⊢
  omega

end

/-! ### One step -/

/-- The invariant behind `conservation`. -/
structure Counted (p : RouterMesh ι) : Prop where
  wf : p.Wf
  aimed : ∀ i, (p.router i).Aimed

section
variable [DecidableEq ι]

omit [DecidableEq ι] in
theorem Counted.fresh {p : RouterMesh ι} (h : p.Counted) (i : ι) : p.Fresh i := by
  intro k hk
  by_contra hne
  obtain ⟨f, hf⟩ := List.exists_mem_of_ne_nil _ hne
  obtain ⟨x, hx⟩ := h.wf.linked i k f hf
  exact absurd (h.wf.links i k x hx).1 (Nat.not_lt.mpr hk)

theorem counted_step (p : RouterMesh ι) (e : Event ι) (h : p.Counted) : (p.step e).Counted := by
  rcases step_cases p e with hs | ⟨i, re, ht⟩
  · rw [hs]
    exact h
  · refine ⟨ht.wf h.wf, ?_⟩
    intro j
    by_cases hj : j = i
    · subst hj
      rw [ht.self]
      exact RouterThreads.aimed_step (h.wf.routers j) (h.aimed j) re
    · rw [ht.other j hj]
      exact h.aimed j

omit [DecidableEq ι] in
theorem counted_init (up : ι → MailboxId → Bool) : (init up).Counted where
  wf := wf_init up
  aimed i := RouterThreads.aimed_init (up i)

variable [Fintype ι]

/-- Each step accounts for every copy. -/
theorem copies_step {f : Frame} (hf : f.Payload) (p : RouterMesh ι) (e : Event ι)
    (h : p.Counted) : (p.step e).copies f + p.lost f e = p.copies f + p.offered f e := by
  have hadvance : ∀ i re, (p.advance i re).copies f + (p.router i).dropped f re =
      p.copies f + (p.router i).taken f re := fun i re =>
    copies_advance (h.wf.routers i) (h.aimed i) (h.fresh i) hf re
  -- Nothing has been written to a connection that a step has just made.
  have hnew : ∀ i b, (p.router i).accepting = none →
      ((p.advance i (.start b)).router i).out (p.router i).started = [] := by
    intro i b hacc
    simp [advance, RouterThreads.step, hacc, RouterThreads.startConnection]
  cases e with
  | connect i j =>
    simp only [step, lost, offered, Nat.add_zero]
    split
    · rename_i hen
      rw [copies_setLink (Or.inr (hnew i true hen.2))]
      exact hadvance i (.start true)
    · rfl
  | acceptLink j i k =>
    simp only [step, lost, offered, Nat.add_zero]
    split
    · rename_i hen
      rw [copies_setLink (Or.inl ?_), copies_setLink (Or.inr (hnew j false hen.2.2))]
      · exact hadvance j (.start false)
      · simp [link_setLink, hen.1, advance, hen.2.1]
    · rfl
  | router i re =>
    simp only [step, lost]
    split
    · rename_i hen
      rw [hadvance i re]
      cases re with
      | recv k g => simp [offered, hen]
      | _ => rfl
    -- Only a `start` and a frame can be out of place, and neither of them loses a copy.
    · rename_i hen
      cases re with
      | start b => rfl
      | recv k g => simp [offered, hen, RouterThreads.dropped]
      | _ => exact absurd rfl hen
  | deliver i k n =>
    simp only [step, lost, offered, Nat.add_zero]
    split
    · rename_i j l hlink
      split
      · rename_i g hg
        split
        · rename_i hpc
          have hmate := h.wf.mates i k j l hlink
          have htake := copies_takeOut (h.wf.links j l _ hmate).1 hg f
          have hread := copies_advance (p := p.takeOut j l n) (i := i) (h.wf.routers i) (h.aimed i)
            ((h.fresh i).takeOut j l n) hf (.recv k g)
          have htaken : (p.router i).taken f (.recv k g) = if g = f then 1 else 0 := by
            simp [RouterThreads.taken, hpc, (h.wf.links i k _ hlink).1]
          have hdropped : (p.router i).dropped f (.recv k g) = 0 := rfl
          rw [router_takeOut, htaken, hdropped] at hread
          show ((p.takeOut j l n).advance i (.recv k g)).copies f = p.copies f
          omega
        · rfl
      · rfl
    · rfl

/-! ### Runs -/

/-- **Conservation of messages.** In any run of finitely many routers, the copies of a payload are
as many as clients have sent, less those that threads have given up. A copy is in the hands of a
thread, unread on a link, written to a client's connection, or handed upstream. -/
theorem conservation (up : ι → MailboxId → Bool) (f : Frame) (hf : f.Payload)
    (es : List (Event ι)) :
    (runFrom step (init up) es).copies f + total step (lost f) (init up) es =
      total step (offered f) (init up) es := by
  have hzero : (init up).copies f = 0 := by
    refine Finset.sum_eq_zero fun i _ => ?_
    simp [copiesAt, RouterThreads.handling, climbedAt, init, RouterThreads.init]
  have hrun := balance (fun p => p.copies f) (offered f) (lost f) counted_step (copies_step hf)
    (counted_init up) es
  rw [hzero, Nat.zero_add] at hrun
  exact hrun

end

/-- Data for mailbox 7 from mailbox 9. -/
def payloadForSeven : Frame := ⟨makeFrame 0 7 9 0 0 1, [6], by decide⟩

/-- A client of router `a` registers mailbox 7, and a client of router `b` sends two messages to it.
When the first one comes, router `b` has no route, and no way upstream. -/
def twoMessages {ι : Type} (a b : ι) : List (Event ι) :=
  [.router a (.start false), .router a .insert,
    .router a (.recv 0 (.ofMbx MSG_ROUTER_MBX_INIT_WITH_REPLY 7)),
    .router a (.tick 0), .router a (.tick 0), .router a (.tick 0), .router a (.tick 0),
    .router a (.tick 0),
    .router b (.start false), .router b .insert, .router b (.recv 0 payloadForSeven),
    .router b (.tick 0), .router b (.tick 0), .router b (.tick 0),
    .connect a b, .router a .insert, .router a (.tick 1), .router a (.snapshot 1 [7]),
    .router a (.tick 1), .router a (.tick 1),
    .acceptLink b a 1, .router b .insert, .deliver b 1 0, .router b (.tick 1),
    .router b (.snapshot 1 []), .router b (.tick 1), .deliver b 1 0, .router b (.tick 1),
    .router b (.recv 0 payloadForSeven), .router b (.tick 0), .router b (.tick 0),
    .deliver a 1 1, .router a (.tick 1), .router a (.tick 1)]

/-- One message has been given up, and there is one copy of the other: it has crossed the link and
has been written to the client of router 0. -/
theorem conservation_twoMessages :
    (runFrom step (init fun _ _ => false) (twoMessages (0 : Fin 2) 1)).copies payloadForSeven +
        total step (lost payloadForSeven) (init fun _ _ => false) (twoMessages (0 : Fin 2) 1) =
      total step (offered payloadForSeven) (init fun _ _ => false) (twoMessages (0 : Fin 2) 1) ∧
    total step (offered payloadForSeven) (init fun _ _ => false) (twoMessages (0 : Fin 2) 1) = 2 ∧
    total step (lost payloadForSeven) (init fun _ _ => false) (twoMessages (0 : Fin 2) 1) = 1 ∧
    ((runFrom step (init fun _ _ => false) (twoMessages (0 : Fin 2) 1)).router 0).out 0 =
      [⟨0, .bare MSG_OK 0 0⟩, ⟨1, payloadForSeven⟩] :=
  ⟨conservation _ _ (by decide) _, by decide, by decide, by decide⟩

end CoreRaT.Spec.RouterMesh
