import CoreRaT.Spec.RouterMesh
import CoreRaT.Proofs.Threads.Delete

/-!
# `CoreRaT.Proofs.Mesh.Steps`: what one step of many routers can do

A step of the mesh is a step of one of the routers. `Takes` says what it means for the links and
for the unread frames, and `step_cases` shows that every event is such a step or changes nothing.
`Wf` collects what holds in every reachable state of the mesh: the two ends of a link name each
other, only links are in peer mode, and a link carries no registration and no delete of the
client protocol.
-/

set_option autoImplicit false

namespace CoreRaT.Spec.RouterMesh

open CoreRaT.Lib
open RouterThreads (clientEvent)

variable {ι : Type} [DecidableEq ι]

theorem link_setLink (p : RouterMesh ι) (i j : ι) (k l : ConnId) (far : FarEnd ι) :
    (p.setLink i k far).link j l = if j = i ∧ l = k then some far else p.link j l := by
  by_cases hj : j = i
  · subst hj
    simp [setLink, Function.update_apply]
  · simp [setLink, hj]

/-- What a step of router `i` does to the links. -/
inductive LinkChange (p q : RouterMesh ι) (i : ι) (re : RouterThreads.Event) : Prop
  | kept (h : q.link = p.link)
  /-- `connect_to_peers` has opened a link to `j`. -/
  | opened (j : ι) (hj : j ≠ i) (hre : re = .start true) (hacc : (p.router i).accepting = none)
      (h : q.link = (p.setLink i (p.router i).started ⟨j, none⟩).link)
  /-- The accept loop has taken the link that `j` has opened. -/
  | accepted (j : ι) (k : ConnId) (hj : j ≠ i) (hre : re = .start false)
      (hacc : (p.router i).accepting = none) (hlink : p.link j k = some ⟨i, none⟩)
      (h : q.link = ((p.setLink i (p.router i).started ⟨j, some k⟩).setLink j k
        ⟨i, some (p.router i).started⟩).link)

/-- The event `e` is the step `re` of router `i`, and leads from `p` to `q`. -/
structure Takes (p q : RouterMesh ι) (e : Event ι) (i : ι) (re : RouterThreads.Event) : Prop where
  self : q.router i = (p.router i).step re
  other : ∀ j, j ≠ i → q.router j = p.router j
  links : LinkChange p q i re
  unread : ∀ j k f, f ∈ q.unread j k →
    f ∈ p.unread j k ∨ (j = i ∧ (∃ x, p.link i k = some x) ∧ f ∈ (p.router i).sent re k)
  /-- A link thread reads an unread frame; the other threads read client frames. -/
  reads : ∀ k f, re = .recv k f →
    (∃ j l, p.link i k = some ⟨j, some l⟩ ∧ f ∈ p.unread j l) ∨
      (p.link i k = none ∧ f.header.kind.isPeerProtocol = false ∧ e = .router i re)
  start : re = .start true → ∃ x, q.link i (p.router i).started = some x

/-- What is unread after a step of router `i` was unread before, or the step has written it. -/
theorem mem_unread_advance {p : RouterMesh ι} {i : ι} {re : RouterThreads.Event} {j : ι}
    {k : ConnId} {f : Frame} (h : f ∈ (p.advance i re).unread j k) :
    f ∈ p.unread j k ∨ (j = i ∧ (∃ x, p.link i k = some x) ∧ f ∈ (p.router i).sent re k) := by
  simp only [advance, Function.update_apply] at h
  split at h
  · rename_i hj
    subst hj
    simp only at h
    split at h
    · rename_i hlink
      rcases List.mem_append.mp h with hold | hnew
      · exact Or.inl hold
      · exact Or.inr ⟨rfl, Option.isSome_iff_exists.mp hlink, hnew⟩
    · exact Or.inl h
  · exact Or.inl h

theorem takes_advance (p : RouterMesh ι) (i : ι) (re : RouterThreads.Event)
    (h : clientEvent (p.isLink i) re = true) :
    Takes p (p.advance i re) (.router i re) i re where
  self := by simp [advance]
  other j hj := by simp [advance, Function.update_of_ne hj]
  links := .kept rfl
  unread j k f := mem_unread_advance
  reads k f hre := by
    subst hre
    rw [RouterThreads.clientEvent_recv] at h
    exact Or.inr ⟨by simpa [isLink] using h.1, h.2, rfl⟩
  start hre := by
    subst hre
    cases h

theorem takes_connect {p : RouterMesh ι} {i j : ι} (hij : i ≠ j)
    (hacc : (p.router i).accepting = none) :
    Takes p ((p.advance i (.start true)).setLink i (p.router i).started ⟨j, none⟩)
      (.connect i j) i (.start true) where
  self := by simp [advance, setLink]
  other l hl := by simp [advance, setLink, Function.update_of_ne hl]
  links := .opened j hij.symm rfl hacc rfl
  unread j k f := mem_unread_advance
  reads k f hre := by cases hre
  start _ := by simp [setLink]

theorem takes_acceptLink {p : RouterMesh ι} {i j : ι} {k : ConnId} (hij : i ≠ j)
    (hlink : p.link i k = some ⟨j, none⟩) (hacc : (p.router j).accepting = none) :
    Takes p
      (((p.advance j (.start false)).setLink j (p.router j).started ⟨i, some k⟩).setLink i k
        ⟨j, some (p.router j).started⟩)
      (.acceptLink j i k) j (.start false) where
  self := by simp [advance, setLink]
  other l hl := by simp [advance, setLink, Function.update_of_ne hl]
  links := .accepted i k hij rfl hacc hlink rfl
  unread j k f := mem_unread_advance
  reads k f hre := by cases hre
  start hre := by cases hre

theorem takes_deliver {p : RouterMesh ι} {i j : ι} {k l : ConnId} {n : Nat} {f : Frame}
    (hlink : p.link i k = some ⟨j, some l⟩) (hf : (p.unread j l)[n]? = some f) :
    Takes p
      (advance { p with
        unread := Function.update p.unread j
          (Function.update (p.unread j) l ((p.unread j l).eraseIdx n)) } i (.recv k f))
      (.deliver i k n) i (.recv k f) where
  self := by simp [advance]
  other m hm := by simp [advance, Function.update_of_ne hm]
  links := .kept rfl
  unread m o g hg := by
    rcases mem_unread_advance hg with hold | hnew
    · -- Reading only takes a frame away.
      refine Or.inl ?_
      simp only [Function.update_apply] at hold
      split at hold
      · rename_i hm
        subst hm
        simp only [Function.update_apply] at hold
        split at hold
        · rename_i ho
          subst ho
          exact List.mem_of_mem_eraseIdx hold
        · exact hold
      · exact hold
    · exact Or.inr hnew
  reads k' g hre := by
    cases hre
    exact Or.inl ⟨j, l, hlink, List.mem_of_getElem? hf⟩
  start hre := by cases hre

/-- Every event is a step of one router, or changes nothing. -/
theorem step_cases (p : RouterMesh ι) (e : Event ι) :
    p.step e = p ∨ ∃ i re, Takes p (p.step e) e i re := by
  cases e with
  | connect i j =>
    simp only [step]
    split
    · rename_i hen
      exact Or.inr ⟨i, _, takes_connect hen.1 hen.2⟩
    · exact Or.inl rfl
  | acceptLink j i k =>
    simp only [step]
    split
    · rename_i hen
      exact Or.inr ⟨j, _, takes_acceptLink hen.1 hen.2.1 hen.2.2⟩
    · exact Or.inl rfl
  | router i re =>
    simp only [step]
    split
    · rename_i hen
      exact Or.inr ⟨i, re, takes_advance p i re hen⟩
    · exact Or.inl rfl
  | deliver i k n =>
    simp only [step]
    split
    · rename_i j l hlink
      split
      · rename_i f hf
        split
        · exact Or.inr ⟨i, _, takes_deliver hlink hf⟩
        · exact Or.inl rfl
      · exact Or.inl rfl
    · exact Or.inl rfl

/-! ### What holds of every reachable state -/

/-- The routers are well formed, the two ends of a link name each other, only links are in peer
mode, and no registration and no delete of the client protocol travels on a link. -/
structure Wf (p : RouterMesh ι) : Prop where
  routers : ∀ i, (p.router i).Wf
  peersOnly : ∀ i, (p.router i).PeersOnly
  links : ∀ i k x, p.link i k = some x → k < (p.router i).started ∧ x.router ≠ i
  mates : ∀ i k j l, p.link i k = some ⟨j, some l⟩ → p.link j l = some ⟨i, some k⟩
  peers : ∀ i k, (p.router i).isPeer k = true → ∃ x, p.link i k = some x
  control : ∀ i k x id, p.link i k = some x → ¬ ((p.router i).pc k).handles id
  linked : ∀ i k, ∀ f ∈ p.unread i k, ∃ x, p.link i k = some x
  unread : ∀ i k, ∀ f ∈ p.unread i k, f.header.kind ≠ .mbxInit ∧ f.header.kind ≠ .mbxDelete

omit [DecidableEq ι] in
/-- A frame that a step writes to a link is sent by a section of this router. -/
theorem Wf.sent {p : RouterMesh ι} (hp : p.Wf) {i : ι} {k : ConnId} {x : FarEnd ι}
    (hlink : p.link i k = some x) {re : RouterThreads.Event} {f : Frame}
    (hf : f ∈ (p.router i).sent re k) :
    ∃ t, re = .tick t ∧ ((p.router i).pc t).sends t = some (k, f) := by
  exact RouterThreads.mem_sent (hp.links i k x hlink).1 hf

section
variable {p q : RouterMesh ι} {e : Event ι} {i : ι} {re : RouterThreads.Event}

/-- A link stays, and what is known of its other end stays. -/
theorem Takes.link_kept (ht : Takes p q e i re) (hp : p.Wf) {j : ι} {k : ConnId} {x : FarEnd ι}
    (hx : p.link j k = some x) :
    ∃ c, q.link j k = some ⟨x.router, c⟩ ∧ ∀ l, x.con = some l → c = some l := by
  -- A link is older than the connection that the step makes.
  have hold : ¬ (j = i ∧ k = (p.router i).started) := by
    rintro ⟨rfl, rfl⟩
    exact Nat.lt_irrefl _ (hp.links j _ x hx).1
  rcases ht.links with h | ⟨j', -, -, -, h⟩ | ⟨j', k', -, -, -, hlink, h⟩
  · exact ⟨x.con, by rw [h, hx], fun l hl => hl⟩
  · exact ⟨x.con, by rw [h, link_setLink, if_neg hold, hx], fun l hl => hl⟩
  · rw [h, link_setLink, link_setLink, if_neg hold]
    split
    -- The other end becomes known.
    · rename_i hjk
      obtain ⟨rfl, rfl⟩ := hjk
      obtain rfl := Option.some.inj (hx.symm.trans hlink)
      exact ⟨_, rfl, fun l hl => by cases hl⟩
    · exact ⟨x.con, hx, fun l hl => hl⟩

/-- A link was one before, or it is the connection that the acting router has just made. -/
theorem Takes.link_cases (ht : Takes p q e i re) {j : ι} {k : ConnId} {x : FarEnd ι}
    (hx : q.link j k = some x) :
    (∃ c, p.link j k = some ⟨x.router, c⟩) ∨
      (j = i ∧ k = (p.router i).started ∧ (p.router i).accepting = none ∧ (∃ b, re = .start b) ∧
        x.router ≠ i) := by
  rcases ht.links with h | ⟨j', hj', hre, hacc, h⟩ | ⟨j', k', hj', hre, hacc, hlink, h⟩
  · exact Or.inl ⟨x.con, by rw [← h, hx]⟩
  · rw [h, link_setLink] at hx
    split at hx
    · rename_i hnew
      obtain rfl := Option.some.inj hx
      exact Or.inr ⟨hnew.1, hnew.2, hacc, ⟨_, hre⟩, hj'⟩
    · exact Or.inl ⟨x.con, hx⟩
  · rw [h, link_setLink, link_setLink] at hx
    split at hx
    · rename_i hjk
      obtain ⟨rfl, rfl⟩ := hjk
      obtain rfl := Option.some.inj hx
      exact Or.inl ⟨none, hlink⟩
    · split at hx
      · rename_i hnew
        obtain rfl := Option.some.inj hx
        exact Or.inr ⟨hnew.1, hnew.2, hacc, ⟨_, hre⟩, hj'⟩
      · exact Or.inl ⟨x.con, hx⟩

/-- The two ends of a link still name each other. -/
theorem Takes.mates (ht : Takes p q e i re) (hp : p.Wf) {j k : ι} {l m : ConnId}
    (hx : q.link j l = some ⟨k, some m⟩) : q.link k m = some ⟨j, some l⟩ := by
  -- Old links keep what they know.
  have hkept : p.link j l = some ⟨k, some m⟩ → q.link k m = some ⟨j, some l⟩ := by
    intro hold
    obtain ⟨c, hc, hknown⟩ := ht.link_kept hp (hp.mates j l k m hold)
    rw [hc, hknown l rfl]
  rcases ht.links with h | ⟨j', hj', hre, hacc, h⟩ | ⟨j', k', hj', hre, hacc, hlink, h⟩
  · exact hkept (by rw [← h, hx])
  · rw [h, link_setLink] at hx
    split at hx
    · cases hx
    · exact hkept hx
  · have hcopy := hx
    rw [h, link_setLink, link_setLink] at hx
    split at hx
    · -- The opening end now names the accepting one.
      rename_i hjk
      cases hx
      rw [h, link_setLink, link_setLink, if_neg (fun hc => hj' hc.1.symm), if_pos ⟨rfl, rfl⟩,
        hjk.1, hjk.2]
    · split at hx
      · rename_i hnew
        cases hx
        rw [h, link_setLink, if_pos ⟨rfl, rfl⟩, hnew.1, hnew.2]
      · exact hkept hx

/-- A connection in peer mode is a link. -/
theorem Takes.link_of_isPeer (ht : Takes p q e i re) (h : p.Wf) {j : ι} {k : ConnId}
    (hk : (q.router j).isPeer k = true) : ∃ x, q.link j k = some x := by
  -- A link stays a link.
  have hkept : ∀ x, p.link j k = some x → ∃ x, q.link j k = some x := by
    intro x hx
    obtain ⟨c, hc, -⟩ := ht.link_kept h hx
    exact ⟨_, hc⟩
  by_cases hj : j = i
  · subst hj
    rw [ht.self] at hk
    rcases RouterThreads.isPeer_of_isPeer_step hk with hold | ⟨-, ⟨hre, rfl⟩ | ⟨f, hre, hkind⟩⟩
    · obtain ⟨x, hx⟩ := h.peers j k hold
      exact hkept x hx
    · exact ht.start hre
    -- Clients do not send `MSG_ROUTER_PEER_HELLO`, so it came over a link.
    · rcases ht.reads k f hre with ⟨m, l, hlink, -⟩ | ⟨-, hclient, -⟩
      · exact hkept _ hlink
      · rw [hkind] at hclient
        cases hclient
  · rw [ht.other j hj] at hk
    obtain ⟨x, hx⟩ := h.peers j k hk
    exact hkept x hx

/-- The thread of a link handles no registration and no delete of the client protocol. -/
theorem Takes.not_handles (ht : Takes p q e i re) (h : p.Wf) {j : ι} {k : ConnId} {x : FarEnd ι}
    (hx : q.link j k = some x) (id : MailboxId) : ¬ ((q.router j).pc k).handles id := by
  intro hpc
  by_cases hj : j = i
  · subst hj
    rw [ht.self] at hpc
    rcases ht.link_cases hx with ⟨c, hold⟩ | ⟨-, rfl, -, ⟨b, rfl⟩, -⟩
    · rcases RouterThreads.handles_step hpc with hpc | ⟨f, hre, hkind, -⟩
      · exact h.control j k _ id hold hpc
      -- What a link thread reads was unread, and no client frame is.
      · rcases ht.reads k f hre with ⟨m, l, hlink, hf⟩ | ⟨hlink, -, -⟩
        · have hclient := h.unread m l f hf
          exact hkind.elim hclient.1 hclient.2
        · rw [hlink] at hold
          cases hold
    -- The link has just been made, and its thread has read nothing.
    · rcases RouterThreads.handles_step hpc with hpc | ⟨f, hre, -⟩
      · rw [(h.routers j).fresh _ (Nat.le_refl _)] at hpc
        cases hpc
      · cases hre
  · rw [ht.other j hj] at hpc
    rcases ht.link_cases hx with ⟨c, hold⟩ | ⟨hji, -⟩
    · exact h.control j k _ id hold hpc
    · exact hj hji

theorem Takes.wf (ht : Takes p q e i re) (h : p.Wf) : q.Wf where
  routers j := by
    by_cases hj : j = i
    · subst hj
      rw [ht.self]
      exact RouterThreads.wf_step _ re (h.routers j)
    · rw [ht.other j hj]
      exact h.routers j
  peersOnly j := by
    by_cases hj : j = i
    · subst hj
      rw [ht.self]
      exact RouterThreads.peersOnly_step (h.routers j) (h.peersOnly j) re
    · rw [ht.other j hj]
      exact h.peersOnly j
  links j k x hx := by
    rcases ht.link_cases hx with ⟨c, hold⟩ | ⟨rfl, rfl, hacc, ⟨b, rfl⟩, hne⟩
    · obtain ⟨hlt, hne⟩ := h.links j k _ hold
      refine ⟨?_, hne⟩
      by_cases hj : j = i
      · subst hj
        rw [ht.self]
        exact Nat.lt_of_lt_of_le hlt (RouterThreads.started_le_step _ re)
      · rwa [ht.other j hj]
    · rw [ht.self]
      exact ⟨by simp [RouterThreads.step, hacc, RouterThreads.startConnection], hne⟩
  mates j k l m hx := ht.mates h hx
  peers j k hk := ht.link_of_isPeer h hk
  control j k x id hx := ht.not_handles h hx id
  linked j k f hf := by
    have hlink : ∃ x, p.link j k = some x := by
      rcases ht.unread j k f hf with hold | ⟨rfl, hx, -⟩
      · exact h.linked j k f hold
      · exact hx
    obtain ⟨x, hx⟩ := hlink
    obtain ⟨c, hc, -⟩ := ht.link_kept h hx
    exact ⟨_, hc⟩
  unread j k f hf := by
    rcases ht.unread j k f hf with hold | ⟨rfl, ⟨x, hx⟩, hnew⟩
    · exact h.unread j k f hold
    · obtain ⟨t, -, hsends⟩ := h.sent hx hnew
      exact RouterThreads.sends_client (h.routers j) hsends

end

theorem wf_step (p : RouterMesh ι) (e : Event ι) (h : p.Wf) : (p.step e).Wf := by
  rcases step_cases p e with hs | ⟨i, re, ht⟩
  · rw [hs]
    exact h
  · exact ht.wf h

omit [DecidableEq ι] in
theorem wf_init (up : ι → MailboxId → Bool) : (init up).Wf where
  routers i := RouterThreads.wf_init (up i)
  peersOnly i := RouterThreads.peersOnly_init (up i)
  links i k x h := by cases h
  mates i k j l h := by cases h
  peers i k h := by cases h
  control i k x id h := by cases h
  linked i k f h := by cases h
  unread i k f h := by cases h

end CoreRaT.Spec.RouterMesh
