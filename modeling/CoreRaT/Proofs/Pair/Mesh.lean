import CoreRaT.Proofs.Mesh.Steps
import CoreRaT.Proofs.Pair.Steps

/-!
# `CoreRaT.Proofs.Pair.Mesh`: two routers are a mesh with one link

`toMesh` is the pair as a mesh of two routers. What side `s` has in flight is what is unread at the
other end. A step of the pair is a step of this mesh, or changes nothing (`toMesh_step`). So what
holds of every reachable mesh holds of the pair, and `Wf` takes it from there: only the link is in
peer mode, and the link carries no registration and no delete of the client protocol.
-/

set_option autoImplicit false

namespace CoreRaT.Spec.RouterPair

open CoreRaT.Lib
open RouterThreads (clientEvent)

/-- The pair as a mesh. -/
def toMesh (p : RouterPair) : RouterMesh Side where
  router := p.router
  link s k := if p.link s = some k then some ⟨s.other, p.link s.other⟩ else none
  unread s k := if p.link s = some k then p.inflight s.other else []

/-- Nothing is in flight from a side that has not opened its end of the link. -/
def Opened (p : RouterPair) : Prop := ∀ s, p.link s = none → p.inflight s.other = []

variable {p : RouterPair} {s : Side} {k l : ConnId}

theorem link_toMesh (h : p.link s = some l) :
    p.toMesh.link s l = some ⟨s.other, p.link s.other⟩ := if_pos h

theorem unread_toMesh (h : p.link s = some l) : p.toMesh.unread s l = p.inflight s.other :=
  if_pos h

theorem link_toMesh_eq_some {x : FarEnd Side} (h : p.toMesh.link s k = some x) :
    p.link s = some k ∧ x = ⟨s.other, p.link s.other⟩ := by
  simp only [toMesh] at h
  split at h
  · exact ⟨‹_›, (Option.some.inj h).symm⟩
  · cases h

theorem isLink_toMesh (p : RouterPair) (s : Side) : p.toMesh.isLink s = p.isLink s := by
  funext k
  simp only [RouterMesh.isLink, toMesh, isLink]
  split <;> simp [*]

/-! ### Steps -/

/-- A router takes its step in the pair as in the mesh. -/
theorem toMesh_advance (p : RouterPair) (s : Side) (re : RouterThreads.Event) :
    (p.advance s re).toMesh = p.toMesh.advance s re := by
  refine RouterMesh.ext rfl rfl ?_
  funext t k
  rcases Side.eq_or_other s t with rfl | rfl
  · by_cases hk : p.link t = some k
    · simp [toMesh, advance, RouterMesh.advance, sent, hk]
    · simp [toMesh, advance, RouterMesh.advance, hk]
  · simp [toMesh, advance, RouterMesh.advance]

/-- Opening an end of the link writes nothing. -/
theorem inflight_openLink (hnone : p.link s = none) (b : Bool) :
    (p.openLink s b).inflight = p.inflight := by
  simp [openLink, advance, sent, hnone]

theorem link_openLink_self (p : RouterPair) (s : Side) (b : Bool) (k : ConnId) :
    (p.openLink s b).toMesh.link s k =
      if k = (p.router s).started then some ⟨s.other, p.link s.other⟩ else none := by
  simp [toMesh, openLink, advance, eq_comm]

theorem link_openLink_other (p : RouterPair) (s : Side) (b : Bool) (k : ConnId) :
    (p.openLink s b).toMesh.link s.other k =
      if p.link s.other = some k then some ⟨s, some (p.router s).started⟩ else none := by
  simp [toMesh, openLink, advance]

/-- Nothing is unread on the end that is opened, and the other end is as before. -/
theorem unread_openLink (h : p.Opened) (hnone : p.link s = none) (b : Bool) :
    (p.openLink s b).toMesh.unread = (p.toMesh.advance s (.start b)).unread := by
  funext t k
  simp only [toMesh, inflight_openLink hnone]
  rcases Side.eq_or_other s t with rfl | rfl
  · simp [h t hnone, RouterMesh.advance, hnone]
  · simp [openLink, advance, RouterMesh.advance]

/-- The first end of the link. -/
theorem toMesh_connect (h : p.Opened) (hnone : p.link s = none) (hother : p.link s.other = none) :
    (p.openLink s true).toMesh =
      (p.toMesh.advance s (.start true)).setLink s (p.router s).started ⟨s.other, none⟩ := by
  refine RouterMesh.ext rfl ?_ (unread_openLink h hnone true)
  funext t k
  rw [RouterMesh.link_setLink]
  rcases Side.eq_or_other s t with rfl | rfl
  · rw [link_openLink_self]
    simp [RouterMesh.advance, toMesh, hnone, hother]
  · rw [link_openLink_other]
    simp [RouterMesh.advance, toMesh, hother]

/-- The second end of the link. -/
theorem toMesh_acceptLink (h : p.Opened) (hnone : p.link s = none)
    (hother : p.link s.other = some k) :
    (p.openLink s false).toMesh =
      (((p.toMesh.advance s (.start false)).setLink s (p.router s).started
        ⟨s.other, some k⟩).setLink s.other k ⟨s, some (p.router s).started⟩) := by
  refine RouterMesh.ext rfl ?_ (unread_openLink h hnone false)
  funext t m
  rw [RouterMesh.link_setLink, RouterMesh.link_setLink]
  rcases Side.eq_or_other s t with rfl | rfl
  · rw [link_openLink_self]
    simp [RouterMesh.advance, toMesh, hnone, hother]
  · rw [link_openLink_other]
    by_cases hm : m = k
    · simp [hother, hm]
    · simp [RouterMesh.advance, toMesh, hother, hm, Ne.symm hm]

/-- What is in flight to a side has been written to the other end. -/
theorem Opened.far (h : p.Opened) {f : Frame} (hf : f ∈ p.inflight s) :
    ∃ k, p.link s.other = some k := by
  refine Option.ne_none_iff_exists'.mp fun hnone => ?_
  rw [← Side.other_other s, h s.other hnone] at hf
  cases hf

/-- A step of the pair is a step of the mesh, or changes nothing. -/
theorem toMesh_step (h : p.Opened) (e : Event) :
    (p.step e).toMesh = p.toMesh ∨ ∃ e', (p.step e).toMesh = p.toMesh.step e' := by
  cases e with
  | connect s =>
    simp only [step]
    split
    · rename_i hen
      refine Or.inr ⟨.connect s s.other, ?_⟩
      rw [toMesh_connect h hen.1 hen.2.1]
      exact (if_pos ⟨(Side.other_ne s).symm, hen.2.2⟩).symm
    · exact Or.inl rfl
  | acceptLink s =>
    simp only [step]
    split
    · rename_i hen
      obtain ⟨k, hk⟩ := Option.ne_none_iff_exists'.mp hen.2.1
      refine Or.inr ⟨.acceptLink s s.other k, ?_⟩
      rw [toMesh_acceptLink h hen.1 hk]
      refine (if_pos ⟨Side.other_ne s, ?_, hen.2.2⟩).symm
      rw [link_toMesh hk, Side.other_other, hen.1]
    · exact Or.inl rfl
  | router s re =>
    refine Or.inr ⟨.router s re, ?_⟩
    simp only [step, RouterMesh.step, isLink_toMesh]
    split
    · exact toMesh_advance p s re
    · rfl
  | deliver s n =>
    simp only [step]
    split
    · rename_i l f hl hf
      split
      · rename_i hpc
        obtain ⟨k, hk⟩ := h.far (List.mem_of_getElem? hf)
        refine Or.inr ⟨.deliver s l n, ?_⟩
        have hunread : p.toMesh.unread s.other k = p.inflight s := by
          rw [unread_toMesh hk, Side.other_other]
        simp only [RouterMesh.step, link_toMesh hl, hk, hunread, hf]
        rw [if_pos (show (p.toMesh.router s).pc l = .loop from hpc), toMesh_advance]
        refine congrArg (RouterMesh.advance · s (.recv l f)) (RouterMesh.ext rfl rfl ?_)
        funext t m
        rcases Side.eq_or_other s t with rfl | rfl
        · simp [toMesh]
        · by_cases hm : m = k
          · simp [toMesh, hk, hm]
          · simp [toMesh, hk, hm, Ne.symm hm]
      · exact Or.inl rfl
    · exact Or.inl rfl

theorem opened_step (p : RouterPair) (e : Event) (h : p.Opened) : (p.step e).Opened := by
  rcases step_cases p e with hs | ⟨s, re, ht⟩
  · rw [hs]
    exact h
  · intro t hnone
    rcases Side.eq_or_other s t with rfl | rfl
    · cases hl : p.link t with
      | none => rw [ht.sends, h t hl, sent, hl, List.append_nil]
      | some l =>
        rw [ht.link_kept hl] at hnone
        cases hnone
    · -- The acting side only takes frames away.
      rw [ht.linkOther] at hnone
      rw [Side.other_other]
      refine List.eq_nil_iff_forall_not_mem.mpr fun f hf => ?_
      have hold := ht.mem_inflight hf
      rw [← Side.other_other s, h s.other hnone] at hold
      cases hold

/-! ### What holds of every reachable state -/

/-- The pair is a well-formed mesh. -/
structure Wf (p : RouterPair) : Prop where
  mesh : p.toMesh.Wf
  opened : p.Opened

namespace Wf

theorem routers (h : p.Wf) (s : Side) : (p.router s).Wf := h.mesh.routers s

theorem links (h : p.Wf) (s : Side) (l : ConnId) (hl : p.link s = some l) :
    l < (p.router s).started :=
  (h.mesh.links s l _ (link_toMesh hl)).1

theorem peers (h : p.Wf) (s : Side) (k : ConnId) (hk : (p.router s).isPeer k = true) :
    p.link s = some k := by
  obtain ⟨x, hx⟩ := h.mesh.peers s k hk
  exact (link_toMesh_eq_some hx).1

theorem control (h : p.Wf) (s : Side) (l : ConnId) (id : MailboxId) (hl : p.link s = some l) :
    ¬ ((p.router s).pc l).handles id :=
  h.mesh.control s l _ id (link_toMesh hl)

theorem inflight (h : p.Wf) (s : Side) (f : Frame) (hf : f ∈ p.inflight s) :
    f.header.kind ≠ .mbxInit ∧ f.header.kind ≠ .mbxDelete := by
  obtain ⟨k, hk⟩ := h.opened.far hf
  refine h.mesh.unread s.other k f ?_
  rwa [unread_toMesh hk, Side.other_other]

/-- What a step sends over the link is what its section writes to the link. -/
theorem sent_eq (h : p.Wf) (re : RouterThreads.Event) (hl : p.link s = some l) :
    p.sent s re = ((p.router s).writes re l).map (·.frame) := by
  simp only [RouterPair.sent, hl]
  exact RouterThreads.sent_eq (h.links s l hl)

/-- A frame that a step sends over the link is written by a thread of this side. -/
theorem sent (h : p.Wf) {re : RouterThreads.Event} {f : Frame} (hf : f ∈ p.sent s re) :
    ∃ l k, p.link s = some l ∧ re = .tick k ∧ ((p.router s).pc k).sends k = some (l, f) := by
  cases hl : p.link s with
  | none => simp [RouterPair.sent, hl] at hf
  | some l =>
    simp only [RouterPair.sent, hl] at hf
    obtain ⟨k, hre, hsends⟩ := RouterThreads.mem_sent (h.links s l hl) hf
    exact ⟨l, k, rfl, hre, hsends⟩

end Wf

theorem wf_init (up : Side → MailboxId → Bool) : (init up).Wf where
  mesh := RouterMesh.wf_init up
  opened _ _ := rfl

theorem wf_step (p : RouterPair) (e : Event) (h : p.Wf) : (p.step e).Wf where
  mesh := by
    rcases toMesh_step h.opened e with hs | ⟨e', hs⟩
    · rw [hs]
      exact h.mesh
    · rw [hs]
      exact RouterMesh.wf_step _ e' h.mesh
  opened := opened_step p e h.opened

/-- Every reachable state is well formed. -/
theorem wf_run (up : Side → MailboxId → Bool) (es : List Event) :
    (runFrom step (init up) es).Wf :=
  (allStates_of_step wf_step es (wf_init up)).last

end CoreRaT.Spec.RouterPair
