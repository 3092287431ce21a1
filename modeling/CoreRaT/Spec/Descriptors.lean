import Mathlib.Logic.Function.Basic
import CoreRaT.Lib.Run

/-!
# `CoreRaT.Spec.Descriptors`: file descriptors and the objects that hold them

The lifetime of the descriptors that `TcpSocket` and the two `File` classes hold: construction,
`connect` and `open`, `close`, moves and destruction, for any number of objects of one process that
the program uses in any order. What the calls of the kernel answer comes with the events. The
kernel never gives a descriptor that is open.

`outside` has the open descriptors that no object is responsible for, such as the result of
`::accept` before a `TcpSocket` takes it. `closings` is the history of the `::close` calls of the
objects, with what the kernel knows at this moment. The data that is read and written is left out.
-/

set_option autoImplicit false

namespace CoreRaT.Spec.Descriptors

/-! ### The kernel -/

/-- A `::close` call: the descriptor, whether it is open, and whether there is an open EVL proxy for
it. -/
structure Closing where
  fd : Int
  wasOpen : Bool
  hadProxy : Bool
deriving DecidableEq, Repr

/-- The open descriptors. That of an EVL proxy comes with the descriptor of its file. -/
structure Kernel where
  files : List (Int × Option Int)
  closings : List Closing
deriving DecidableEq, Repr

namespace Kernel

def isOpen (k : Kernel) (fd : Int) : Bool := k.files.any fun f => f.1 = fd

/-- There is an open proxy for `fd`. -/
def hasProxy (k : Kernel) (fd : Int) : Bool := k.files.any fun f => f.2 = some fd

/-- A call that creates a descriptor. A negative `answer` is an error, and one that is open already
does not occur and stands for one. -/
def create (k : Kernel) (file : Option Int) (answer : Int) : Int × Kernel :=
  if 0 ≤ answer ∧ ¬ k.isOpen answer then (answer, { k with files := (answer, file) :: k.files })
  else (min answer (-1), k)

/-- `::close`. -/
def close (k : Kernel) (fd : Int) : Kernel where
  files := k.files.filter fun f => f.1 ≠ fd
  closings := ⟨fd, k.isOpen fd, k.hasProxy fd⟩ :: k.closings

/-- `if (fd_ >= 0) { ::close(fd_); fd_ = -1; }`, with the new value of the member. -/
def closeMember (k : Kernel) (fd : Int) : Int × Kernel :=
  if 0 ≤ fd then (-1, k.close fd) else (fd, k)

end Kernel

/-! ### The classes -/

/-- An object with its members. -/
inductive Object
  /-- `TcpSocket`. -/
  | tcpSocket (fd : Int)
  /-- `File` of the STD backend. -/
  | stdFile (fileFd : Int)
  /-- `File` of the EVL backend. -/
  | evlFile (fileFd proxyFd : Int)
deriving DecidableEq, Repr

/-- The classes. -/
inductive Class
  | tcpSocket
  | stdFile
  | evlFile
deriving DecidableEq, Repr

/-- The default constructor. -/
def Class.construct : Class → Object
  | .tcpSocket => .tcpSocket (-1)
  | .stdFile => .stdFile (-1)
  | .evlFile => .evlFile (-1) (-1)

namespace Object

/-- The class of the object. -/
def cls : Object → Class
  | .tcpSocket _ => .tcpSocket
  | .stdFile _ => .stdFile
  | .evlFile _ _ => .evlFile

/-- `is_open` of the three classes. -/
def isOpen : Object → Bool
  | .tcpSocket fd => 0 ≤ fd
  | .stdFile fileFd => 0 ≤ fileFd
  | .evlFile fileFd _ => 0 ≤ fileFd

/-- `TcpSocket::close`, `File::close`. -/
def close : Object → Kernel → Object × Kernel
  | .tcpSocket fd, k =>
    match k.closeMember fd with
    | (fd, k) => (.tcpSocket fd, k)
  | .stdFile fileFd, k =>
    match k.closeMember fileFd with
    | (fileFd, k) => (.stdFile fileFd, k)
  | .evlFile fileFd proxyFd, k =>
    -- The proxy is closed before the file that it wraps.
    match k.closeMember proxyFd with
    | (proxyFd, k) =>
      match k.closeMember fileFd with
      | (fileFd, k) => (.evlFile fileFd proxyFd, k)

/-- What a move leaves in the object that it is from. -/
def movedFrom : Object → Object
  | .tcpSocket _ => .tcpSocket (-1)
  | .stdFile _ => .stdFile (-1)
  | .evlFile _ _ => .evlFile (-1) (-1)

end Object

/-- What the calls of `TcpSocket::connect` answer: `::socket`, whether `::inet_pton` can read the
host, and whether `::connect` succeeds. -/
structure ConnectCalls where
  socket : Int
  inetPton : Bool
  connect : Bool
deriving DecidableEq, Repr

/-- `TcpSocket::connect` of a socket with the member `fd`. -/
def TcpSocket.connect (fd : Int) (k : Kernel) (calls : ConnectCalls) : Bool × Int × Kernel :=
  match k.closeMember fd with
  | (_, k) =>
    match k.create none calls.socket with
    | (fd, k) =>
      if fd < 0 then (false, fd, k)
      else if !calls.inetPton then (false, k.closeMember fd)
      else if !calls.connect then (false, k.closeMember fd)
      else (true, fd, k)

/-- `File::open` of the STD backend, where `answer` is that of `::open`. -/
def StdFile.open (fileFd : Int) (k : Kernel) (answer : Int) : Bool × Int × Kernel :=
  match k.closeMember fileFd with
  | (_, k) =>
    match k.create none answer with
    | (fileFd, k) => (0 ≤ fileFd, fileFd, k)

/-- What the calls of `File::open` answer in the EVL backend. -/
structure OpenCalls where
  file : Int
  proxy : Int
deriving DecidableEq, Repr

/-- `File::open` of the EVL backend. The members after it are the file and the proxy. -/
def EvlFile.open (fileFd proxyFd : Int) (k : Kernel) (calls : OpenCalls) :
    Bool × Int × Int × Kernel :=
  match k.closeMember proxyFd with
  | (proxyFd, k) =>
    match k.closeMember fileFd with
    | (_, k) =>
      match k.create none calls.file with
      | (fileFd, k) =>
        if fileFd < 0 then (false, fileFd, proxyFd, k)
        else
          match k.create (some fileFd) calls.proxy with
          | (ret, k) =>
            -- The file does not stay open without its proxy.
            if ret < 0 then (false, -1, proxyFd, k.close fileFd)
            else (true, fileFd, ret, k)

/-! ### The process -/

/-- The objects by their addresses, the kernel, and the descriptors of the rest of the process. -/
structure Process where
  objects : Nat → Option Object
  kernel : Kernel
  outside : List Int

namespace Process

/-- No objects, and some open descriptors. -/
def initial (outside : List Int) : Process where
  objects := fun _ => none
  kernel := ⟨outside.map fun fd => (fd, none), []⟩
  outside := outside

/-- The object at `a` becomes `o`. -/
def set (w : Process) (a : Nat) (o : Option Object) : Process :=
  { w with objects := Function.update w.objects a o }

/-- What the program and the rest of the process do. Each is about the object at the address
`a`. -/
inductive Event
  | construct (a : Nat) (c : Class)
  /-- The constructor of `TcpSocket` from a descriptor. -/
  | wrap (a : Nat) (fd : Int)
  | connect (a : Nat) (calls : ConnectCalls)
  | stdOpen (a : Nat) (answer : Int)
  | evlOpen (a : Nat) (calls : OpenCalls)
  | close (a : Nat)
  /-- A new object at `a`, moved from the one at `from_`. -/
  | moveConstruct (a from_ : Nat)
  /-- The move assignment to the object at `a`. -/
  | moveAssign (a from_ : Nat)
  | destroy (a : Nat)
  /-- The rest of the process gets a descriptor. -/
  | outsideOpen (answer : Int)
  | outsideClose (fd : Int)
deriving DecidableEq, Repr

/-- One event. One that the program cannot write leaves the process as it is: an operation where
there is no object of this class, a construction over an object, and wrapping a descriptor that
somebody else has. -/
def step (w : Process) : Event → Process
  | .construct a c =>
    match w.objects a with
    | none => w.set a (some c.construct)
    | some _ => w
  | .wrap a fd =>
    match w.objects a with
    | none =>
      if fd < 0 then w.set a (some (.tcpSocket fd))
      else if fd ∈ w.outside then
        { w.set a (some (.tcpSocket fd)) with outside := w.outside.filter (· ≠ fd) }
      else w
    | some _ => w
  | .connect a calls =>
    match w.objects a with
    | some (.tcpSocket fd) =>
      match TcpSocket.connect fd w.kernel calls with
      | (_, fd, kernel) => { w.set a (some (.tcpSocket fd)) with kernel }
    | _ => w
  | .stdOpen a answer =>
    match w.objects a with
    | some (.stdFile fileFd) =>
      match StdFile.open fileFd w.kernel answer with
      | (_, fileFd, kernel) => { w.set a (some (.stdFile fileFd)) with kernel }
    | _ => w
  | .evlOpen a calls =>
    match w.objects a with
    | some (.evlFile fileFd proxyFd) =>
      match EvlFile.open fileFd proxyFd w.kernel calls with
      | (_, fileFd, proxyFd, kernel) => { w.set a (some (.evlFile fileFd proxyFd)) with kernel }
    | _ => w
  | .close a =>
    match w.objects a with
    | some o =>
      match o.close w.kernel with
      | (o, kernel) => { w.set a (some o) with kernel }
    | none => w
  | .moveConstruct a from_ =>
    match w.objects a, w.objects from_ with
    | none, some o => (w.set a (some o)).set from_ (some o.movedFrom)
    | _, _ => w
  | .moveAssign a from_ =>
    match w.objects a, w.objects from_ with
    | some o, some o' =>
      -- `this != &other`
      if a = from_ then w
      else if o.cls = o'.cls then
        match o.close w.kernel with
        | (_, kernel) =>
          { (w.set a (some o')).set from_ (some o'.movedFrom) with kernel }
      else w
    | _, _ => w
  | .destroy a =>
    match w.objects a with
    | some o =>
      match o.close w.kernel with
      | (_, kernel) => { w.set a none with kernel }
    | none => w
  | .outsideOpen answer =>
    match w.kernel.create none answer with
    | (fd, kernel) => if fd < 0 then w else { w with kernel, outside := fd :: w.outside }
  | .outsideClose fd =>
    if fd ∈ w.outside then
      { w with
          kernel := { w.kernel with files := w.kernel.files.filter fun f => f.1 ≠ fd }
          outside := w.outside.filter (· ≠ fd) }
    else w

end Process

end CoreRaT.Spec.Descriptors
