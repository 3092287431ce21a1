import Mathlib.Logic.Equiv.Basic
import Mathlib.Logic.Equiv.Prod
import CoreRaT.Lib.Ownership
import CoreRaT.Spec.Descriptors

/-!
# `CoreRaT.Proofs.Descriptors`: every descriptor has one owner

`held` says which descriptor each member of each object stands for. In every run the open
descriptors that do not belong to the rest of the process are held by exactly one member each, so
none is closed twice and none is left open when the objects are gone (`single_owner`). An EVL proxy
goes before the file that it is for.

The proof follows the members. `Sound` relates the members to the kernel. It is kept when a member
is closed (`Sound.closeMember`), when one gets a new descriptor, and when two objects exchange all
that they hold (`Sound.exchange`). Each operation of the classes is put together from these.
-/

set_option autoImplicit false

namespace CoreRaT.Spec.Descriptors

open CoreRaT.Lib

/-! ### What the members hold -/

/-- The members with descriptors. `proxy` is `proxy_fd_`, and `file` the other one. -/
inductive Member
  | file
  | proxy
deriving DecidableEq, Repr

/-- The descriptor that a member with this value stands for. -/
def handle (fd : Int) : Option Int := if 0 ≤ fd then some fd else none

/-- The value of a member. A class without the member has none open there. -/
def Object.member : Object → Member → Int
  | .tcpSocket fd, .file => fd
  | .stdFile fileFd, .file => fileFd
  | .evlFile fileFd _, .file => fileFd
  | .evlFile _ proxyFd, .proxy => proxyFd
  | .tcpSocket _, .proxy => -1
  | .stdFile _, .proxy => -1

/-- What the members of the objects hold. -/
def heldBy (objects : Nat → Option Object) (i : Nat × Member) : Option Int :=
  (objects i.1).bind fun o => handle (o.member i.2)

/-- What the members of the objects of the process hold. -/
def Process.held (w : Process) : Nat × Member → Option Int := heldBy w.objects

/-- Nothing is held at `a`. -/
def vacate (held : Nat × Member → Option Int) (a : Nat) (i : Nat × Member) : Option Int :=
  if i.1 = a then none else held i

theorem handle_of_neg {fd : Int} (h : fd < 0) : handle fd = none := if_neg (by omega)

theorem handle_of_nonneg {fd : Int} (h : 0 ≤ fd) : handle fd = some fd := if_pos h

@[simp] theorem handle_neg_one : handle (-1) = none := rfl

@[simp] theorem vacate_self (held : Nat × Member → Option Int) (a : Nat) (m : Member) :
    vacate held a (a, m) = none := if_pos rfl

theorem vacate_of_ne (held : Nat × Member → Option Int) {a b : Nat} (m : Member) (h : b ≠ a) :
    vacate held a (b, m) = held (b, m) := if_neg h

section Objects

variable {objects : Nat → Option Object} {a : Nat}

theorem heldBy_of_eq {o : Object} (ho : objects a = some o) (m : Member) :
    heldBy objects (a, m) = handle (o.member m) := by
  simp [heldBy, ho]

theorem heldBy_of_none (ho : objects a = none) (m : Member) : heldBy objects (a, m) = none := by
  simp [heldBy, ho]

/-- An object that holds nothing, or none. -/
theorem heldBy_update_of_none {o : Option Object}
    (ho : ∀ x ∈ o, ∀ m, handle (x.member m) = none) :
    heldBy (Function.update objects a o) = vacate (heldBy objects) a := by
  funext ⟨b, m⟩
  by_cases hb : b = a
  · subst hb
    cases o with
    | none => simp [heldBy]
    | some o => simp [heldBy, ho o rfl m]
  · simp [heldBy, vacate_of_ne _ m hb, hb]

/-- An object with a single descriptor. -/
theorem heldBy_update_file {o : Object} (ho : handle (o.member .proxy) = none) :
    heldBy (Function.update objects a (some o)) =
      Function.update (vacate (heldBy objects) a) (a, .file) (handle (o.member .file)) := by
  funext ⟨b, m⟩
  by_cases hb : b = a
  · subst hb
    cases m with
    | file => simp [heldBy]
    | proxy => simp [heldBy, ho]
  · simp [heldBy, vacate_of_ne _ m hb, hb]

/-- A file with its proxy. -/
theorem heldBy_update_evlFile (fileFd proxyFd : Int) :
    heldBy (Function.update objects a (some (.evlFile fileFd proxyFd))) =
      Function.update
        (Function.update (vacate (heldBy objects) a) (a, .file) (handle fileFd))
        (a, .proxy) (handle proxyFd) := by
  funext ⟨b, m⟩
  by_cases hb : b = a
  · subst hb
    cases m with
    | file => simp [heldBy, Object.member]
    | proxy => simp [heldBy, Object.member]
  · simp [heldBy, vacate_of_ne _ m hb, hb]

theorem vacate_of_objects_none (ho : objects a = none) :
    vacate (heldBy objects) a = heldBy objects := by
  funext ⟨b, m⟩
  by_cases hb : b = a
  · subst hb
    rw [vacate_self, heldBy_of_none ho]
  · exact vacate_of_ne _ m hb

theorem member_movedFrom (o : Object) (m : Member) : handle (o.movedFrom.member m) = none := by
  cases o <;> cases m <;> rfl

/-- After a move each of the two objects holds what the other one has held. -/
theorem heldBy_move {b : Nat} {o : Object} (hab : a ≠ b) (ho : objects b = some o) :
    heldBy (Function.update (Function.update objects a (some o)) b (some o.movedFrom)) =
      fun i => vacate (heldBy objects) a (Equiv.swap a b i.1, i.2) := by
  funext ⟨c, m⟩
  by_cases hcb : c = b
  · subst hcb
    simp [heldBy, member_movedFrom]
  · by_cases hca : c = a
    · subst hca
      simp [heldBy, hcb, ho, vacate_of_ne _ m (Ne.symm hcb)]
    · simp [heldBy, hcb, hca, Equiv.swap_apply_of_ne_of_ne hca hcb, vacate_of_ne _ m hca]

end Objects

/-! ### The kernel -/

namespace Kernel

variable {k : Kernel}

theorem isOpen_iff {fd : Int} : k.isOpen fd ↔ ∃ file, (fd, file) ∈ k.files := by
  simp [isOpen]

theorem hasProxy_iff {fd : Int} : k.hasProxy fd ↔ ∃ p, (p, some fd) ∈ k.files := by
  simp [hasProxy]

@[simp] theorem mem_files_close {fd p : Int} {file : Option Int} :
    (p, file) ∈ (k.close fd).files ↔ (p, file) ∈ k.files ∧ p ≠ fd := by
  simp [close]

theorem isOpen_close {fd x : Int} : (k.close fd).isOpen x ↔ k.isOpen x ∧ x ≠ fd := by
  simp [isOpen_iff]

theorem isOpen_cons {fd x : Int} {file : Option Int} :
    ({ k with files := (fd, file) :: k.files } : Kernel).isOpen x ↔ x = fd ∨ k.isOpen x := by
  simp [isOpen, eq_comm (a := fd)]

/-- A call that creates a descriptor fails, or opens one that has not been open. -/
theorem create_cases (k : Kernel) (file : Option Int) (answer : Int) :
    (k.create file answer).1 < 0 ∧ (k.create file answer).2 = k ∨
      ∃ fd, 0 ≤ fd ∧ ¬ k.isOpen fd ∧
        k.create file answer = (fd, { k with files := (fd, file) :: k.files }) := by
  unfold create
  split
  · case isTrue h => exact .inr ⟨answer, h.1, h.2, rfl⟩
  · exact .inl ⟨by show min answer (-1) < 0; omega, rfl⟩

theorem create_of_neg {file : Option Int} {answer : Int} (h : (k.create file answer).1 < 0) :
    (k.create file answer).2 = k := by
  rcases k.create_cases file answer with ⟨-, hk⟩ | ⟨fd, hfd, -, heq⟩
  · exact hk
  · rw [heq] at h
    exact absurd h (Int.not_lt.mpr hfd)

end Kernel

/-! ### The members and the kernel -/

/-- The open descriptors are those of the rest of the process and those that one member holds each.
A proxy is held by the object that holds its file, and the `::close` calls have been right. -/
structure Sound (outside : List Int) (held : Nat × Member → Option Int) (k : Kernel) : Prop where
  owned : Owned (· ∈ outside) held fun fd => k.isOpen fd
  proxies : ∀ p fd, (p, some fd) ∈ k.files →
    ∃ a, held (a, .proxy) = some p ∧ held (a, .file) = some fd
  closings : ∀ c ∈ k.closings, c.wasOpen = true ∧ c.hadProxy = false

namespace Sound

variable {outside : List Int} {held : Nat × Member → Option Int} {k : Kernel}

/-- A member is closed. It is that of a proxy, or the proxy has been closed before. -/
theorem closeMember (h : Sound outside held k) {a : Nat} {m : Member} {fd : Int}
    (hi : held (a, m) = handle fd) (hlast : m = .proxy ∨ held (a, .proxy) = none) :
    Sound outside (Function.update held (a, m) none) (k.closeMember fd).2 := by
  unfold Kernel.closeMember
  by_cases hfd : 0 ≤ fd
  · rw [handle_of_nonneg hfd] at hi
    rw [if_pos hfd]
    have howner : ∀ {i}, held i = some fd → i = (a, m) := fun hj => h.owned.single _ _ fd hj hi
    -- The file of a proxy is held by the object of the proxy, which is this one.
    have hno : ∀ p, (p, some fd) ∉ k.files := by
      intro p hp
      obtain ⟨b, hproxy, hfile⟩ := h.proxies p fd hp
      cases howner hfile
      rcases hlast with hm | hnone
      · cases hm
      · rw [hnone] at hproxy
        cases hproxy
    constructor
    · have howned := h.owned.release hi
      simpa only [Kernel.isOpen_close] using howned
    · intro p f hp
      obtain ⟨hp, hne⟩ := Kernel.mem_files_close.mp hp
      obtain ⟨b, hproxy, hfile⟩ := h.proxies p f hp
      refine ⟨b, ?_, ?_⟩
      · rw [Function.update_of_ne, hproxy]
        intro hbi
        rw [hbi, hi] at hproxy
        exact hne (Option.some.inj hproxy).symm
      · rw [Function.update_of_ne, hfile]
        intro hbi
        rw [hbi, hi] at hfile
        cases hfile
        exact hno p hp
    · intro c hc
      rcases List.mem_cons.mp hc with rfl | hc
      · refine ⟨h.owned.live_of_held hi, ?_⟩
        rw [← Bool.not_eq_true, Kernel.hasProxy_iff]
        rintro ⟨p, hp⟩
        exact hno p hp
      · exact h.closings c hc
  · rw [handle_of_neg (by omega)] at hi
    rw [if_neg hfd, ← hi, Function.update_eq_self]
    exact h

/-- A member gets a new descriptor. When this is a proxy, the object holds the file of it. -/
theorem acquire (h : Sound outside held k) {a : Nat} {m : Member} {fd : Int} {file : Option Int}
    (hi : held (a, m) = none) (hfd : ¬ k.isOpen fd)
    (hfile : ∀ f ∈ file, m = .proxy ∧ held (a, .file) = some f) :
    Sound outside (Function.update held (a, m) (some fd))
      { k with files := (fd, file) :: k.files } := by
  constructor
  · have howned := h.owned.acquire hi hfd
    simpa only [Kernel.isOpen_cons] using howned
  · intro p f hp
    rcases List.mem_cons.mp hp with hnew | hold
    · cases hnew
      obtain ⟨rfl, hf⟩ := hfile f rfl
      exact ⟨a, by simp, by simpa using hf⟩
    · -- The others are held by other members, as this one has held nothing.
      obtain ⟨b, hproxy, hf⟩ := h.proxies p f hold
      refine ⟨b, ?_, ?_⟩
      · rw [Function.update_of_ne, hproxy]
        intro hbi
        rw [hbi, hi] at hproxy
        cases hproxy
      · rw [Function.update_of_ne, hf]
        intro hbi
        rw [hbi, hi] at hf
        cases hf
  · exact h.closings

/-- A member that holds nothing, after a call that creates a descriptor. -/
theorem create (h : Sound outside held k) {a : Nat} {m : Member} {file : Option Int}
    (answer : Int) (hi : held (a, m) = none)
    (hfile : ∀ f ∈ file, m = .proxy ∧ held (a, .file) = some f) :
    Sound outside (Function.update held (a, m) (handle (k.create file answer).1))
      (k.create file answer).2 := by
  rcases k.create_cases file answer with ⟨hneg, hk⟩ | ⟨fd, hnonneg, hfree, heq⟩
  · rw [hk, handle_of_neg hneg, ← hi, Function.update_eq_self]
    exact h
  · rw [heq, handle_of_nonneg hnonneg]
    exact h.acquire hi hfree hfile

/-- Two objects exchange all that they hold. -/
theorem exchange (h : Sound outside held k) (a b : Nat) :
    Sound outside (fun i => held (Equiv.swap a b i.1, i.2)) k where
  owned := h.owned.comp (Equiv.prodCongr (Equiv.swap a b) (Equiv.refl Member))
  proxies p fd hp := by
    obtain ⟨c, hproxy, hfile⟩ := h.proxies p fd hp
    exact ⟨Equiv.swap a b c, by simpa using hproxy, by simpa using hfile⟩
  closings := h.closings

end Sound

/-! ### The operations of the classes -/

section Operations

variable {outside : List Int} {objects : Nat → Option Object} {k : Kernel} {a : Nat}

theorem update_file_vacate (held : Nat × Member → Option Int) (hproxy : held (a, .proxy) = none) :
    Function.update held (a, .file) none = vacate held a := by
  funext ⟨b, m⟩
  by_cases hb : b = a
  · subst hb
    cases m with
    | file => simp
    | proxy => simp [hproxy]
  · simp [vacate_of_ne _ m hb, hb]

theorem update_both_vacate (held : Nat × Member → Option Int) :
    Function.update (Function.update held (a, .proxy) none) (a, .file) none = vacate held a := by
  funext ⟨b, m⟩
  by_cases hb : b = a
  · subst hb
    cases m <;> simp
  · simp [vacate_of_ne _ m hb, hb]

/-- A closed object holds nothing. -/
theorem Sound.close (h : Sound outside (heldBy objects) k) {o : Object}
    (ho : objects a = some o) : Sound outside (vacate (heldBy objects) a) (o.close k).2 := by
  have hheld := heldBy_of_eq ho
  cases o with
  | tcpSocket fd =>
    rw [← update_file_vacate _ (hheld .proxy)]
    exact h.closeMember (hheld .file) (.inr (hheld .proxy))
  | stdFile fileFd =>
    rw [← update_file_vacate _ (hheld .proxy)]
    exact h.closeMember (hheld .file) (.inr (hheld .proxy))
  | evlFile fileFd proxyFd =>
    have hproxy := h.closeMember (hheld .proxy) (.inl rfl)
    rw [← update_both_vacate]
    refine hproxy.closeMember ?_ (.inr (by simp))
    rw [Function.update_of_ne (by simp), hheld .file, Object.member]

theorem closeMember_neg (k : Kernel) (fd : Int) : (k.closeMember fd).1 < 0 := by
  unfold Kernel.closeMember
  split
  · show (-1 : Int) < 0
    omega
  · show fd < 0
    omega

theorem handle_closeMember (k : Kernel) (fd : Int) : handle (k.closeMember fd).1 = none :=
  handle_of_neg (closeMember_neg k fd)

/-- `close` leaves the members without descriptors. -/
theorem handle_close (o : Object) (k : Kernel) (m : Member) :
    handle ((o.close k).1.member m) = none := by
  cases o with
  | tcpSocket fd =>
    cases m with
    | file => exact handle_closeMember ..
    | proxy => rfl
  | stdFile fileFd =>
    cases m with
    | file => exact handle_closeMember ..
    | proxy => rfl
  | evlFile fileFd proxyFd =>
    cases m with
    | file => exact handle_closeMember ..
    | proxy => exact handle_closeMember ..

theorem Sound.closeObject (h : Sound outside (heldBy objects) k) {o : Object}
    (ho : objects a = some o) :
    Sound outside (heldBy (Function.update objects a (some (o.close k).1))) (o.close k).2 := by
  rw [heldBy_update_of_none fun x hx m => ?_]
  · exact h.close ho
  · cases hx
    exact handle_close o k m

/-- A closed object, and one of the same place that has a single new descriptor. -/
theorem Sound.createFile (h : Sound outside (vacate (heldBy objects) a) k) (answer : Int)
    {o : Object} (hfile : o.member .file = (k.create none answer).1)
    (hproxy : handle (o.member .proxy) = none) :
    Sound outside (heldBy (Function.update objects a (some o))) (k.create none answer).2 := by
  rw [heldBy_update_file hproxy, hfile]
  exact h.create answer (by simp) (by simp)

/-- `TcpSocket::connect`. -/
theorem Sound.connect (h : Sound outside (heldBy objects) k) {fd : Int}
    (ho : objects a = some (.tcpSocket fd)) (calls : ConnectCalls) :
    Sound outside
      (heldBy (Function.update objects a
        (some (.tcpSocket (TcpSocket.connect fd k calls).2.1))))
      (TcpSocket.connect fd k calls).2.2 := by
  have hclosed : Sound outside (vacate (heldBy objects) a) (k.closeMember fd).2 := h.close ho
  have hsocket := hclosed.createFile calls.socket
    (o := .tcpSocket ((k.closeMember fd).2.create none calls.socket).1) rfl rfl
  -- What `close` after a failure makes of it.
  have hfailed := hsocket.closeObject (Function.update_self ..)
  rw [Function.update_idem] at hfailed
  simp only [TcpSocket.connect]
  split
  · exact hsocket
  · split
    · exact hfailed
    · split
      · exact hfailed
      · exact hsocket

/-- `File::open` of the STD backend. -/
theorem Sound.stdOpen (h : Sound outside (heldBy objects) k) {fileFd : Int}
    (ho : objects a = some (.stdFile fileFd)) (answer : Int) :
    Sound outside
      (heldBy (Function.update objects a
        (some (.stdFile (StdFile.open fileFd k answer).2.1))))
      (StdFile.open fileFd k answer).2.2 := by
  have hclosed : Sound outside (vacate (heldBy objects) a) (k.closeMember fileFd).2 := h.close ho
  exact hclosed.createFile answer rfl rfl

/-- A file without a proxy is closed. -/
theorem close_evlFile {fileFd proxyFd : Int} (hfile : 0 ≤ fileFd) (hproxy : proxyFd < 0)
    (k : Kernel) :
    (Object.evlFile fileFd proxyFd).close k = (.evlFile (-1) proxyFd, k.close fileFd) := by
  simp [Object.close, Kernel.closeMember, hfile, Int.not_le.mpr hproxy]

/-- A file gets its proxy. -/
theorem Sound.createProxy {fileFd proxyFd : Int}
    (h : Sound outside (heldBy (Function.update objects a (some (.evlFile fileFd proxyFd)))) k)
    (hfile : 0 ≤ fileFd) (hproxy : proxyFd < 0) (answer : Int) :
    Sound outside
      (heldBy (Function.update objects a
        (some (.evlFile fileFd (k.create (some fileFd) answer).1))))
      (k.create (some fileFd) answer).2 := by
  have hself : Function.update objects a (some (.evlFile fileFd proxyFd)) a =
      some (.evlFile fileFd proxyFd) := Function.update_self ..
  have hheld := heldBy_of_eq hself
  have hfree : heldBy (Function.update objects a (some (.evlFile fileFd proxyFd))) (a, .proxy) =
      none := (hheld .proxy).trans (handle_of_neg hproxy)
  have hholder : ∀ f ∈ some fileFd, Member.proxy = .proxy ∧
      heldBy (Function.update objects a (some (.evlFile fileFd proxyFd))) (a, .file) = some f :=
    fun f hf => ⟨rfl, (hheld .file).trans (Option.some.inj hf ▸ handle_of_nonneg hfile)⟩
  have hcreated := h.create answer hfree hholder
  rw [heldBy_update_evlFile, Function.update_idem, ← heldBy_update_evlFile] at hcreated
  exact hcreated

/-- `File::open` of the EVL backend. -/
theorem Sound.evlOpen (h : Sound outside (heldBy objects) k) {fileFd proxyFd : Int}
    (ho : objects a = some (.evlFile fileFd proxyFd)) (calls : OpenCalls) :
    Sound outside
      (heldBy (Function.update objects a
        (some (.evlFile (EvlFile.open fileFd proxyFd k calls).2.1
          (EvlFile.open fileFd proxyFd k calls).2.2.1))))
      (EvlFile.open fileFd proxyFd k calls).2.2.2 := by
  have hproxy := closeMember_neg k proxyFd
  have hclosed := h.close ho
  simp only [Object.close] at hclosed
  simp only [EvlFile.open]
  -- The file, with the proxy of before, which is closed.
  have hfile := hclosed.createFile calls.file
    (o := .evlFile (((k.closeMember proxyFd).2.closeMember fileFd).2.create none calls.file).1
      (k.closeMember proxyFd).1) rfl (handle_of_neg hproxy)
  split
  · exact hfile
  · case isFalse hopened =>
    have hnonneg := Int.not_lt.mp hopened
    split
    · -- Without a proxy the file is closed again, as by `close`.
      case isTrue hfailed =>
      have hk := Kernel.create_of_neg hfailed
      have hreclosed := hfile.closeObject (Function.update_self ..)
      rw [Function.update_idem, close_evlFile hnonneg hproxy] at hreclosed
      rw [hk]
      exact hreclosed
    · exact hfile.createProxy hnonneg hproxy calls.proxy

/-- The default constructors. -/
theorem Sound.construct (h : Sound outside (heldBy objects) k) (ha : objects a = none)
    (c : Class) : Sound outside (heldBy (Function.update objects a (some c.construct))) k := by
  rw [heldBy_update_of_none fun x hx m => ?_, vacate_of_objects_none ha]
  · exact h
  · cases hx
    cases c <;> cases m <;> rfl

/-- The constructor of `TcpSocket` from the result of a call that has failed. -/
theorem Sound.wrapClosed (h : Sound outside (heldBy objects) k) (ha : objects a = none)
    {fd : Int} (hfd : fd < 0) :
    Sound outside (heldBy (Function.update objects a (some (.tcpSocket fd)))) k := by
  rw [heldBy_update_of_none fun x hx m => ?_, vacate_of_objects_none ha]
  · exact h
  · cases hx
    cases m with
    | file => exact handle_of_neg hfd
    | proxy => rfl

/-- The destructors. -/
theorem Sound.destroy (h : Sound outside (heldBy objects) k) {o : Object}
    (ho : objects a = some o) :
    Sound outside (heldBy (Function.update objects a none)) (o.close k).2 := by
  rw [heldBy_update_of_none (by simp)]
  exact h.close ho

/-- The move to an object that is closed, or not there yet. -/
theorem Sound.move (h : Sound outside (vacate (heldBy objects) a) k) {b : Nat} {o : Object}
    (hab : a ≠ b) (ho : objects b = some o) :
    Sound outside
      (heldBy (Function.update (Function.update objects a (some o)) b (some o.movedFrom))) k := by
  rw [heldBy_move hab ho]
  exact h.exchange a b

end Operations

/-! ### The rest of the process -/

section Outside

variable {outside : List Int} {held : Nat × Member → Option Int} {k : Kernel}

theorem Sound.outsideOpen (h : Sound outside held k) {fd : Int} (hfd : ¬ k.isOpen fd) :
    Sound (fd :: outside) held { k with files := (fd, none) :: k.files } where
  owned := by
    have howned := h.owned.insert_outside hfd
    simpa only [Kernel.isOpen_cons, List.mem_cons] using howned
  proxies p f hp := by
    rcases List.mem_cons.mp hp with hnew | hold
    · cases hnew
    · exact h.proxies p f hold
  closings := h.closings

theorem Sound.outsideClose (h : Sound outside held k) {fd : Int} (hfd : fd ∈ outside) :
    Sound (outside.filter (· ≠ fd)) held
      { k with files := k.files.filter fun f => f.1 ≠ fd } where
  owned := by
    have howned := h.owned.erase_outside hfd
    have hopen (x : Int) :
        ({ k with files := k.files.filter fun f => f.1 ≠ fd } : Kernel).isOpen x ↔
          k.isOpen x ∧ x ≠ fd := Kernel.isOpen_close
    simpa only [hopen, List.mem_filter, decide_eq_true_eq] using howned
  proxies p f hp := h.proxies p f (List.mem_filter.mp hp).1
  closings := h.closings

/-- A member that holds nothing takes a descriptor over. -/
theorem Sound.adopt (h : Sound outside held k) {a : Nat} {fd : Int}
    (hi : held (a, .file) = none) (hfd : fd ∈ outside) :
    Sound (outside.filter (· ≠ fd)) (Function.update held (a, .file) (some fd)) k where
  owned := by
    have howned := h.owned.adopt hi hfd
    simpa only [List.mem_filter, decide_eq_true_eq] using howned
  proxies p f hp := by
    obtain ⟨b, hproxy, hfile⟩ := h.proxies p f hp
    refine ⟨b, by simpa using hproxy, ?_⟩
    rw [Function.update_of_ne, hfile]
    intro hbi
    rw [hbi, hi] at hfile
    cases hfile
  closings := h.closings

/-- The constructor of `TcpSocket` from a descriptor. -/
theorem Sound.wrap {objects : Nat → Option Object} (h : Sound outside (heldBy objects) k)
    {a : Nat} (ha : objects a = none) {fd : Int} (hnonneg : 0 ≤ fd) (hfd : fd ∈ outside) :
    Sound (outside.filter (· ≠ fd))
      (heldBy (Function.update objects a (some (.tcpSocket fd)))) k := by
  rw [heldBy_update_file rfl, vacate_of_objects_none ha, Object.member, handle_of_nonneg hnonneg]
  exact h.adopt (heldBy_of_none ha .file) hfd

end Outside

/-! ### The run -/

/-- A file of the EVL backend is open exactly when it has its proxy. -/
def Object.Paired : Object → Prop
  | .evlFile fileFd proxyFd => 0 ≤ fileFd ↔ 0 ≤ proxyFd
  | _ => True

theorem paired_close (o : Object) (k : Kernel) : (o.close k).1.Paired := by
  cases o with
  | tcpSocket fd => trivial
  | stdFile fileFd => trivial
  | evlFile fileFd proxyFd =>
    have hproxy := closeMember_neg k proxyFd
    have hfile := closeMember_neg (k.closeMember proxyFd).2 fileFd
    show 0 ≤ ((k.closeMember proxyFd).2.closeMember fileFd).1 ↔ 0 ≤ (k.closeMember proxyFd).1
    omega

theorem paired_movedFrom (o : Object) : o.movedFrom.Paired := by
  cases o with
  | tcpSocket fd => trivial
  | stdFile fileFd => trivial
  | evlFile fileFd proxyFd => exact Iff.rfl

theorem paired_construct (c : Class) : c.construct.Paired := by
  cases c with
  | tcpSocket => trivial
  | stdFile => trivial
  | evlFile => exact Iff.rfl

theorem paired_evlOpen (fileFd proxyFd : Int) (k : Kernel) (calls : OpenCalls) :
    (Object.evlFile (EvlFile.open fileFd proxyFd k calls).2.1
      (EvlFile.open fileFd proxyFd k calls).2.2.1).Paired := by
  have hproxy := closeMember_neg k proxyFd
  simp only [Object.Paired, EvlFile.open]
  split
  · dsimp only
    omega
  · split
    · dsimp only
      omega
    · dsimp only
      omega

namespace Process

/-- The members and the kernel fit, and so do the two members of a file. -/
structure Kept (w : Process) : Prop where
  sound : Sound w.outside w.held w.kernel
  paired : ∀ a o, w.objects a = some o → o.Paired

theorem paired_update {objects : Nat → Option Object} (h : ∀ a o, objects a = some o → o.Paired)
    (a : Nat) {new : Option Object} (hnew : ∀ o ∈ new, o.Paired) (b : Nat) (o : Object)
    (hb : Function.update objects a new b = some o) : o.Paired := by
  rw [Function.update_apply] at hb
  split at hb
  · exact hnew o hb
  · exact h b o hb

theorem kept_initial (outside : List Int) : Kept (initial outside) where
  sound :=
    { owned := by
        have howned := Owned.initial (ι := Nat × Member) (· ∈ outside)
        show Owned (· ∈ outside) (fun _ => none) _
        simpa [initial, Kernel.isOpen] using howned
      proxies := by simp [initial]
      closings := by simp [initial] }
  paired := by simp [initial]

namespace Kept

variable {w : Process} {a : Nat}

/-- One object has changed. -/
theorem set (h : w.Kept) {w' : Process} {new : Option Object}
    (hsound : Sound w'.outside w'.held w'.kernel)
    (hobjects : w'.objects = Function.update w.objects a new) (hnew : ∀ o ∈ new, o.Paired) :
    w'.Kept where
  sound := hsound
  paired := by
    rw [hobjects]
    exact paired_update h.paired a hnew

theorem construct (h : w.Kept) (c : Class) : (w.step (.construct a c)).Kept := by
  simp only [step]
  split
  · case h_1 ha => exact h.set (h.sound.construct ha c) rfl (by simp [paired_construct])
  · exact h

theorem wrap (h : w.Kept) (fd : Int) : (w.step (.wrap a fd)).Kept := by
  simp only [step]
  split
  · case h_1 ha =>
    split
    · case isTrue hneg => exact h.set (h.sound.wrapClosed ha hneg) rfl (by simp [Object.Paired])
    · case isFalse hnonneg =>
      split
      · case isTrue hmem =>
        have hsound := h.sound.wrap ha (Int.not_lt.mp hnonneg) hmem
        exact h.set hsound rfl (by simp [Object.Paired])
      · exact h
  · exact h

theorem connect (h : w.Kept) (calls : ConnectCalls) : (w.step (.connect a calls)).Kept := by
  simp only [step]
  split
  · case h_1 fd ha => exact h.set (h.sound.connect ha calls) rfl (by simp [Object.Paired])
  · exact h

theorem stdOpen (h : w.Kept) (answer : Int) : (w.step (.stdOpen a answer)).Kept := by
  simp only [step]
  split
  · case h_1 fileFd ha => exact h.set (h.sound.stdOpen ha answer) rfl (by simp [Object.Paired])
  · exact h

theorem evlOpen (h : w.Kept) (calls : OpenCalls) : (w.step (.evlOpen a calls)).Kept := by
  simp only [step]
  split
  · case h_1 fileFd proxyFd ha =>
    exact h.set (h.sound.evlOpen ha calls) rfl (by simp [paired_evlOpen])
  · exact h

theorem close (h : w.Kept) : (w.step (.close a)).Kept := by
  simp only [step]
  split
  · case h_1 o ha => exact h.set (h.sound.closeObject ha) rfl (by simp [paired_close])
  · exact h

/-- Both objects of a move are paired afterwards. -/
theorem paired_move (h : w.Kept) {b from_ : Nat} {o o' : Object}
    (hfrom : w.objects from_ = some o)
    (hb : ((w.set a (some o)).set from_ (some o.movedFrom)).objects b = some o') : o'.Paired := by
  have hset : ∀ c x, (w.set a (some o)).objects c = some x → x.Paired :=
    paired_update h.paired a (by simpa using h.paired from_ o hfrom)
  exact paired_update hset from_ (by simp [paired_movedFrom]) b o' hb

theorem moveConstruct (h : w.Kept) (from_ : Nat) : (w.step (.moveConstruct a from_)).Kept := by
  simp only [step]
  split
  · case h_1 o ha hfrom =>
    have hne : a ≠ from_ := by
      rintro rfl
      simp [ha] at hfrom
    refine ⟨Sound.move ?_ hne hfrom, fun b o' => h.paired_move hfrom⟩
    rw [vacate_of_objects_none ha]
    exact h.sound
  · exact h

theorem moveAssign (h : w.Kept) (from_ : Nat) : (w.step (.moveAssign a from_)).Kept := by
  simp only [step]
  split
  · case h_1 o o' ha hfrom =>
    split
    · exact h
    · case isFalse hne =>
      split
      · exact ⟨(h.sound.close ha).move hne hfrom, fun b o'' => h.paired_move hfrom⟩
      · exact h
  · exact h

theorem destroy (h : w.Kept) : (w.step (.destroy a)).Kept := by
  simp only [step]
  split
  · case h_1 o ha => exact h.set (h.sound.destroy ha) rfl (by simp)
  · exact h

theorem outsideOpen (h : w.Kept) (answer : Int) : (w.step (.outsideOpen answer)).Kept := by
  simp only [step]
  rcases w.kernel.create_cases none answer with ⟨hneg, -⟩ | ⟨fd, hnonneg, hfree, heq⟩
  · rw [if_pos hneg]
    exact h
  · rw [heq, if_neg (Int.not_lt.mpr hnonneg)]
    exact ⟨h.sound.outsideOpen hfree, h.paired⟩

theorem outsideClose (h : w.Kept) (fd : Int) : (w.step (.outsideClose fd)).Kept := by
  simp only [step]
  split
  · case isTrue hmem => exact ⟨h.sound.outsideClose hmem, h.paired⟩
  · exact h

end Kept

/-- Every event keeps the invariant. -/
theorem kept_step (w : Process) (e : Event) (h : w.Kept) : (w.step e).Kept := by
  cases e with
  | construct a c => exact h.construct c
  | wrap a fd => exact h.wrap fd
  | connect a calls => exact h.connect calls
  | stdOpen a answer => exact h.stdOpen answer
  | evlOpen a calls => exact h.evlOpen calls
  | close a => exact h.close
  | moveConstruct a from_ => exact h.moveConstruct from_
  | moveAssign a from_ => exact h.moveAssign from_
  | destroy a => exact h.destroy
  | outsideOpen answer => exact h.outsideOpen answer
  | outsideClose fd => exact h.outsideClose fd

/-- In every run of the operations of any number of sockets and files, in every state, an open
descriptor that does not belong to the rest of the process is held by exactly one member of one
object. What a member holds is open, and does not belong to the rest of the process, whose
descriptors all stay open. An EVL file is open exactly when its proxy is, and an open proxy is held
by the object that holds its file. Each `::close` of an object has been of an open descriptor,
without an open proxy for it. -/
theorem single_owner (outside : List Int) (es : List Event) :
    AllStates step (fun w =>
      (∀ fd, w.kernel.isOpen fd → fd ∉ w.outside → ∃! i, w.held i = some fd) ∧
      (∀ i fd, w.held i = some fd → w.kernel.isOpen fd ∧ fd ∉ w.outside) ∧
      (∀ fd ∈ w.outside, w.kernel.isOpen fd) ∧
      (∀ a fileFd proxyFd, w.objects a = some (.evlFile fileFd proxyFd) →
        (0 ≤ fileFd ↔ 0 ≤ proxyFd)) ∧
      (∀ p fd, (p, some fd) ∈ w.kernel.files →
        ∃ a, w.held (a, .proxy) = some p ∧ w.held (a, .file) = some fd) ∧
      ∀ c ∈ w.kernel.closings, c.wasOpen = true ∧ c.hadProxy = false)
      (initial outside) es := by
  have hkept := allStates_of_step kept_step es (kept_initial outside)
  refine hkept.mono fun w h => ⟨fun fd => h.sound.owned.existsUnique, ?_, ?_, ?_, ?_, ?_⟩
  · exact fun i fd hi => ⟨h.sound.owned.live_of_held hi, h.sound.owned.apart i fd hi⟩
  · exact fun fd hfd => (h.sound.owned.live_iff fd).mpr (.inl hfd)
  · exact fun a fileFd proxyFd ha => h.paired a _ ha
  · exact h.sound.proxies
  · exact h.sound.closings

/-- A file whose proxy cannot be created is closed again. A move assignment closes what the target
has held, and the destructors close the rest: each proxy before its file. -/
example : (runFrom step (initial [0, 1, 2])
    [.construct 0 .evlFile, .evlOpen 0 ⟨3, -12⟩, .evlOpen 0 ⟨3, 4⟩, .construct 1 .evlFile,
      .evlOpen 1 ⟨5, 6⟩, .moveAssign 0 1, .destroy 1, .destroy 0]).kernel.closings.map (·.fd) =
    [5, 6, 3, 4, 3] := by
  decide

end Process

end CoreRaT.Spec.Descriptors
