import CoreRaT.Spec.RouterPair
import CoreRaT.Proofs.Threads.Publish

/-!
# `CoreRaT.Proofs.Pair.Steps`: what one step of two routers can do

A step of the pair is a step of one of the routers. `Takes` says what it means for the links
and for the frames in flight, and `step_cases` shows that every event is such a step or
changes nothing.
-/

set_option autoImplicit false

namespace CoreRaT.Spec

open CoreRaT.Lib
open RouterThreads (clientEvent)

@[simp] theorem Side.other_other (s : Side) : s.other.other = s := by
  cases s <;> rfl

@[simp] theorem Side.other_ne (s : Side) : s.other ≠ s := by
  cases s <;> decide

@[simp] theorem Side.ne_other (s : Side) : s ≠ s.other := (Side.other_ne s).symm

theorem Side.eq_or_other (s t : Side) : t = s ∨ t = s.other := by
  cases s <;> cases t <;> simp [Side.other]

namespace RouterPair

/-- The event `e` is the step `re` of the router at side `s`, and leads from `p` to `q`. -/
structure Takes (p q : RouterPair) (e : Event) (s : Side) (re : RouterThreads.Event) : Prop where
  self : q.router s = (p.router s).step re
  other : q.router s.other = p.router s.other
  linkOther : q.link s.other = p.link s.other
  /-- Only a new connection becomes an end of the link. -/
  link : q.link s = p.link s ∨
    (p.link s = none ∧ q.link s = some (p.router s).started ∧
      (p.router s).accepting = none ∧ ∃ b, re = .start b)
  /-- An outbound connection is the link. -/
  start : re = .start true → q.link s = some (p.router s).started
  sends : q.inflight s.other = p.inflight s.other ++ p.sent s re
  /-- The link thread reads a frame in flight; the other threads read client frames. -/
  reads : (q.inflight s = p.inflight s ∧
      ∀ k f, re = .recv k f → p.link s ≠ some k ∧ f.header.kind.isPeerProtocol = false) ∨
    ∃ i l f, e = .deliver s i ∧ re = .recv l f ∧ p.link s = some l ∧ (p.router s).pc l = .loop ∧
      (p.inflight s)[i]? = some f ∧ q.inflight s = (p.inflight s).eraseIdx i
  own : e = .router s re ∨ (∃ b, re = .start b) ∨
    ∃ l f, re = .recv l f ∧ p.link s = some l

theorem takes_advance (p : RouterPair) (s : Side) (re : RouterThreads.Event)
    (h : clientEvent (p.isLink s) re = true) :
    Takes p (p.advance s re) (.router s re) s re where
  self := by simp [advance]
  other := by simp [advance]
  linkOther := rfl
  link := Or.inl rfl
  start hre := by
    subst hre
    cases h
  sends := by simp [advance]
  reads := by
    refine Or.inl ⟨by simp [advance], ?_⟩
    rintro k f rfl
    simpa [isLink] using h
  own := Or.inl rfl

theorem takes_openLink {p : RouterPair} {s : Side} (b : Bool) (e : Event)
    (hlink : p.link s = none) (hacc : (p.router s).accepting = none) :
    Takes p (p.openLink s b) e s (.start b) where
  self := by simp [openLink, advance]
  other := by simp [openLink, advance]
  linkOther := by simp [openLink]
  link := Or.inr ⟨hlink, by simp [openLink], hacc, b, rfl⟩
  start _ := by simp [openLink]
  sends := by simp [openLink, advance]
  reads := by
    refine Or.inl ⟨by simp [openLink, advance], ?_⟩
    rintro k f ⟨⟩
  own := Or.inr (Or.inl ⟨b, rfl⟩)

theorem takes_deliver {p : RouterPair} {s : Side} {i : Nat} {l : ConnId} {f : Frame}
    (hl : p.link s = some l) (hf : (p.inflight s)[i]? = some f)
    (hpc : (p.router s).pc l = .loop) :
    Takes p
      (advance { p with inflight := Function.update p.inflight s ((p.inflight s).eraseIdx i) } s
        (.recv l f))
      (.deliver s i) s (.recv l f) where
  self := by simp [advance]
  other := by simp [advance]
  linkOther := rfl
  link := Or.inl rfl
  start hre := by cases hre
  sends := by simp [advance, sent]
  reads := Or.inr ⟨i, l, f, rfl, rfl, hl, hpc, hf, by
    simp [advance]⟩
  own := Or.inr (Or.inr ⟨l, f, rfl, hl⟩)

/-- Every event is a step of one router, or changes nothing. -/
theorem step_cases (p : RouterPair) (e : Event) :
    p.step e = p ∨ ∃ s re, Takes p (p.step e) e s re := by
  cases e with
  | connect s =>
    simp only [step]
    split
    · rename_i hen
      exact Or.inr ⟨s, _, takes_openLink true _ hen.1 hen.2.2⟩
    · exact Or.inl rfl
  | acceptLink s =>
    simp only [step]
    split
    · rename_i hen
      exact Or.inr ⟨s, _, takes_openLink false _ hen.1 hen.2.2⟩
    · exact Or.inl rfl
  | router s re =>
    simp only [step]
    split
    · rename_i hen
      exact Or.inr ⟨s, re, takes_advance p s re hen⟩
    · exact Or.inl rfl
  | deliver s i =>
    simp only [step]
    split
    · rename_i l f hl hf
      split
      · rename_i hpc
        exact Or.inr ⟨s, _, takes_deliver hl hf hpc⟩
      · exact Or.inl rfl
    · exact Or.inl rfl

namespace Takes

variable {p q : RouterPair} {e : Event} {s : Side} {re : RouterThreads.Event}

/-- What is left in flight to the acting side was in flight before. -/
theorem mem_inflight (h : Takes p q e s re) {f : Frame} (hf : f ∈ q.inflight s) :
    f ∈ p.inflight s := by
  rcases h.reads with ⟨heq, -⟩ | ⟨i, l, g, -, -, -, -, -, heq⟩
  · rwa [heq] at hf
  · rw [heq] at hf
    exact List.mem_of_mem_eraseIdx hf

/-- What the link thread reads was in flight. -/
theorem mem_of_recv (h : Takes p q e s re) {l : ConnId} {f : Frame} (hl : p.link s = some l)
    (hre : re = .recv l f) : f ∈ p.inflight s := by
  rcases h.reads with ⟨-, hclient⟩ | ⟨i, l', g, -, hre', -, -, hg, -⟩
  · exact absurd hl (hclient l f hre).1
  · obtain ⟨-, rfl⟩ : l' = l ∧ g = f := by
      rw [hre] at hre'
      cases hre'
      exact ⟨rfl, rfl⟩
    exact List.mem_of_getElem? hg

/-- A thread reads a frame that was in flight, or one of the client protocol. -/
theorem recv_cases (h : Takes p q e s re) {k : ConnId} {f : Frame} (hre : re = .recv k f) :
    (p.link s = some k ∧ f ∈ p.inflight s) ∨
      (e = .router s (.recv k f) ∧ f.header.kind.isPeerProtocol = false) := by
  by_cases hk : p.link s = some k
  · exact Or.inl ⟨hk, h.mem_of_recv hk hre⟩
  · refine Or.inr ⟨?_, ?_⟩
    · rcases h.own with he | ⟨b, hre'⟩ | ⟨l, g, hre', hl⟩
      · rw [he, hre]
      · rw [hre] at hre'
        cases hre'
      · rw [hre] at hre'
        cases hre'
        exact absurd hl hk
    · rcases h.reads with ⟨-, hclient⟩ | ⟨i, l, g, -, hre', hl, -⟩
      · exact (hclient k f hre).2
      · rw [hre] at hre'
        cases hre'
        exact absurd hl hk

/-- The link of the acting side is an existing connection, or the one that `start` makes. -/
theorem link_cases (ht : Takes p q e s re) {l : ConnId} (hl : q.link s = some l) :
    p.link s = some l ∨
      (p.link s = none ∧ l = (p.router s).started ∧ (p.router s).accepting = none ∧
        ∃ b, re = .start b) := by
  rcases ht.link with hsame | ⟨hnone, hnew, hacc, hre⟩
  · exact Or.inl (hsame ▸ hl)
  · exact Or.inr ⟨hnone, Option.some.inj (hl.symm.trans hnew), hacc, hre⟩

/-- An end of the link stays where it is. -/
theorem link_kept (ht : Takes p q e s re) {l : ConnId} (hl : p.link s = some l) :
    q.link s = some l := by
  rcases ht.link with hsame | ⟨hnone, -⟩
  · rw [hsame, hl]
  · rw [hl] at hnone
    cases hnone

end Takes

end RouterPair

end CoreRaT.Spec
