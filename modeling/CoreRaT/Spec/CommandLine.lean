import CoreRaT.Lib.Text

/-!
# `CoreRaT.Spec.CommandLine`: the arguments of a router

The loop over the arguments in `main`, which is the same one in `tcp_router.cpp` and
`evl_router.cpp`, and what it calls: `parse_host_port` and `std::stoul`. An exception of `stoul` is
caught nowhere and terminates the program. An option without its value behind it, and an argument
that is no option, are skipped.

`invalid` are the values for which the loop prints a message and goes on.
-/

set_option autoImplicit false

namespace CoreRaT.Spec.CommandLine

open CoreRaT.Lib

/-! ### `std::stoul` -/

/-- The exceptions of `std::stoul`. -/
inductive StoulError
  | invalidArgument
  | outOfRange
deriving DecidableEq, Repr

/-- `isspace` in the C locale. -/
def isSpace (c : Char) : Bool :=
  c = ' ' || c = '\t' || c = '\n' || c = '\u000b' || c = '\u000c' || c = '\r'

/-- The digits of `stoul`, behind the sign. -/
def stoulDigits (negative : Bool) (s : List Char) : Except StoulError UInt64 :=
  let digits := s.takeWhile Char.isDigit
  if digits = [] then .error .invalidArgument
  else if 2 ^ 64 ≤ ofDecimal digits then .error .outOfRange
  -- `strtoul` negates in the unsigned type.
  else .ok (if negative then -UInt64.ofNat (ofDecimal digits) else UInt64.ofNat (ofDecimal digits))

/-- `std::stoul`. What follows the digits is not looked at. -/
def stoul (s : List Char) : Except StoulError UInt64 :=
  match s.dropWhile isSpace with
  | '-' :: t => stoulDigits true t
  | '+' :: t => stoulDigits false t
  | t => stoulDigits false t

/-! ### The configuration -/

/-- `kDefaultPort` of both routers. -/
def kDefaultPort : UInt16 := 2000

/-- `PeerConfig`, `UpstreamConfig`. -/
structure HostPort where
  host : List Char
  port : UInt16
deriving DecidableEq, Repr

/-- `SystemRouteConfig`. -/
structure SystemRouteConfig where
  systemId : UInt8
  target : HostPort
deriving DecidableEq, Repr

/-- The local variables of `main`. -/
structure Config where
  port : UInt16
  maxMsgSize : UInt64
  peers : List HostPort
  upstreamConfig : Option HostPort
  systemRoutes : List SystemRouteConfig
deriving DecidableEq, Repr

/-- Their values before the loop. -/
def Config.initial : Config := ⟨kDefaultPort, 256 * 1024, [], none, []⟩

/-- `parse_host_port`. -/
def parseHostPort (s : List Char) (defaultPort : UInt16) : Except StoulError HostPort :=
  match rfind ':' s with
  | some colon =>
    match stoul (s.drop (colon + 1)) with
    | .ok port => .ok ⟨s.take colon, port.toUInt16⟩
    | .error e => .error e
  | none => .ok ⟨s, defaultPort⟩

/-! ### The options -/

/-- The options with a value. -/
inductive ValueOption
  | port
  | maxMsgSize
  | peer
  | upstream
  | systemRoute
deriving DecidableEq, Repr

/-- The two spellings of an option. -/
def ValueOption.spelling (long : Bool) : ValueOption → List Char
  | .port => if long then "--port".toList else "-p".toList
  | .maxMsgSize => if long then "--max-msg-size".toList else "-m".toList
  | .peer => if long then "--peer".toList else "-r".toList
  | .upstream => if long then "--upstream".toList else "-u".toList
  | .systemRoute => if long then "--system-route".toList else "-s".toList

/-- `arg` is one of the two spellings. -/
def ValueOption.Named (o : ValueOption) (arg : List Char) : Prop :=
  arg = o.spelling true ∨ arg = o.spelling false

instance (o : ValueOption) (arg : List Char) : Decidable (o.Named arg) :=
  inferInstanceAs (Decidable (_ ∨ _))

/-- `--help`, `-h`. -/
def IsHelp (arg : List Char) : Prop := arg = "--help".toList ∨ arg = "-h".toList

instance (arg : List Char) : Decidable (IsHelp arg) := inferInstanceAs (Decidable (_ ∨ _))

/-- The option with a value that `arg` is, in the order of the tests. -/
def valueOption (arg : List Char) : Option ValueOption :=
  [.port, .maxMsgSize, .peer, .upstream, .systemRoute].find? fun o => decide (o.Named arg)

/-- What the loop has read, and the values that it has complained about. -/
structure Parsed where
  config : Config
  invalid : List (List Char)
deriving DecidableEq, Repr

/-- The body of the branch of an option, with its value. -/
def Parsed.set (p : Parsed) (value : List Char) : ValueOption → Except StoulError Parsed
  | .port =>
    match stoul value with
    | .ok n => .ok { p with config := { p.config with port := n.toUInt16 } }
    | .error e => .error e
  | .maxMsgSize =>
    match stoul value with
    | .ok n => .ok { p with config := { p.config with maxMsgSize := n } }
    | .error e => .error e
  | .peer =>
    match parseHostPort value kDefaultPort with
    | .ok peer => .ok { p with config := { p.config with peers := p.config.peers ++ [peer] } }
    | .error e => .error e
  | .upstream =>
    match parseHostPort value kDefaultPort with
    | .ok upstream => .ok { p with config := { p.config with upstreamConfig := some upstream } }
    | .error e => .error e
  | .systemRoute =>
    match find '@' value with
    | none => .ok { p with invalid := p.invalid ++ [value] }
    | some at_ =>
      match stoul (value.take at_) with
      | .error e => .error e
      | .ok sysid =>
        match parseHostPort (value.drop (at_ + 1)) kDefaultPort with
        | .error e => .error e
        | .ok target =>
          .ok { p with
            config := { p.config with
              systemRoutes := p.config.systemRoutes ++ [⟨sysid.toUInt8, target⟩] } }

/-- How the loop ends. -/
inductive Outcome
  /-- The router starts. -/
  | start (p : Parsed)
  /-- The usage is printed, and `main` returns 0. -/
  | usage
  | terminate (e : StoulError)
deriving DecidableEq, Repr

/-- The loop, from some argument on. -/
def parseFrom (p : Parsed) : List (List Char) → Outcome
  | [] => .start p
  | [arg] => if IsHelp arg then .usage else .start p
  | arg :: value :: rest =>
    match valueOption arg with
    | some o =>
      match p.set value o with
      | .ok p => parseFrom p rest
      | .error e => .terminate e
    | none => if IsHelp arg then .usage else parseFrom p (value :: rest)

/-- The loop over `argv`, without the name of the program. -/
def parseArgs (args : List (List Char)) : Outcome := parseFrom ⟨Config.initial, []⟩ args

end CoreRaT.Spec.CommandLine
