import CoreRaT.Spec.CommandLine

/-!
# `CoreRaT.Proofs.CommandLine`: what can be written on the command line

A `Directive` is an option as a user means it. `Directive.args` writes it down, and
`Directive.follow` is what it does to the configuration. The loop of `main` reads each command line
of directives back, in any order and with any other arguments between them
(`parseArgs_directives`). So every configuration can be written (`parseArgs_config`).

The host of a target is any text. With a port behind it, it may have colons of its own, as `rfind`
takes the last one.
-/

set_option autoImplicit false

namespace CoreRaT.Spec.CommandLine

open CoreRaT.Lib

/-! ### `stoul` -/

/-- A digit is no space and no sign. -/
theorem ne_of_isDigit {c d : Char} (hc : c.isDigit) (hd : d.isDigit = false) : c ≠ d := by
  rintro rfl
  rw [hc] at hd
  cases hd

theorem isSpace_of_isDigit {c : Char} (hc : c.isDigit) : isSpace c = false := by
  simp [isSpace, ne_of_isDigit hc]

/-- `stoul` reads the number that a text starts with. -/
theorem stoul_decimal {n : Nat} (hn : n < 2 ^ 64) {rest : List Char}
    (hrest : ∀ c ∈ rest.head?, c.isDigit = false) :
    stoul (decimal n ++ rest) = .ok (UInt64.ofNat n) := by
  have hdigits : stoulDigits false (decimal n ++ rest) = .ok (UInt64.ofNat n) := by
    simp only [stoulDigits, takeWhile_decimal n hrest, decimal_ne_nil, ofDecimal_decimal,
      Nat.not_le.mpr hn, Bool.false_eq_true, ↓reduceIte]
  obtain ⟨c, cs, hcs⟩ := List.exists_cons_of_ne_nil (decimal_ne_nil n)
  have hc : c.isDigit := isDigit_of_mem_decimal (hcs ▸ List.mem_cons_self ..)
  rw [hcs, List.cons_append] at hdigits ⊢
  -- Neither spaces nor a sign are in front of the digits.
  simp only [stoul, List.dropWhile_cons, isSpace_of_isDigit hc, Bool.false_eq_true, ↓reduceIte]
  split
  · case h_1 t heq =>
    cases heq
    cases hc
  · case h_2 t heq =>
    cases heq
    cases hc
  · exact hdigits

theorem stoul_decimal_self {n : Nat} (hn : n < 2 ^ 64) :
    stoul (decimal n) = .ok (UInt64.ofNat n) := by
  have hend : ∀ c ∈ ([] : List Char).head?, c.isDigit = false := by simp
  have h := stoul_decimal hn hend
  rwa [List.append_nil] at h

/-! ### Directives -/

/-- A host, and a port when one is given. -/
structure Target where
  host : List Char
  port : Option UInt16
deriving DecidableEq, Repr

namespace Target

/-- `HOST[:PORT]`. -/
def text (t : Target) : List Char :=
  match t.port with
  | some port => t.host ++ ':' :: decimal port.toNat
  | none => t.host

def hostPort (t : Target) : HostPort := ⟨t.host, t.port.getD kDefaultPort⟩

/-- A host without a port has no colon. -/
def WellFormed (t : Target) : Prop := t.port = none → ':' ∉ t.host

instance (t : Target) : Decidable t.WellFormed := inferInstanceAs (Decidable (_ → _))

theorem parseHostPort_text {t : Target} (ht : t.WellFormed) :
    parseHostPort t.text kDefaultPort = .ok t.hostPort := by
  obtain ⟨host, port⟩ := t
  cases port with
  | some port =>
    have hcolon := rfind_append (not_mem_decimal (c := ':') rfl port.toNat) host
    have hport := stoul_decimal_self (n := port.toNat) (by have := port.toNat_lt; omega)
    simp [parseHostPort, text, hostPort, hcolon, hport]
  | none =>
    simp [parseHostPort, text, hostPort, rfind_eq_none.mpr (ht rfl)]

end Target

/-- What a user can write. -/
inductive Directive
  | port (long : Bool) (n : UInt16)
  | maxMsgSize (long : Bool) (size : UInt64)
  | peer (long : Bool) (t : Target)
  | upstream (long : Bool) (t : Target)
  | systemRoute (long : Bool) (systemId : UInt8) (t : Target)
  /-- A route without `@`. -/
  | badRoute (long : Bool) (value : List Char)
  /-- An argument that is no option. -/
  | other (arg : List Char)
deriving DecidableEq, Repr

namespace Directive

/-- The arguments that a directive is written as. -/
def args : Directive → List (List Char)
  | .port long n => [ValueOption.port.spelling long, decimal n.toNat]
  | .maxMsgSize long size => [ValueOption.maxMsgSize.spelling long, decimal size.toNat]
  | .peer long t => [ValueOption.peer.spelling long, t.text]
  | .upstream long t => [ValueOption.upstream.spelling long, t.text]
  | .systemRoute long systemId t =>
    [ValueOption.systemRoute.spelling long, decimal systemId.toNat ++ '@' :: t.text]
  | .badRoute long value => [ValueOption.systemRoute.spelling long, value]
  | .other arg => [arg]

/-- What a directive is for. -/
def follow (p : Parsed) : Directive → Parsed
  | .port _ n => { p with config := { p.config with port := n } }
  | .maxMsgSize _ size => { p with config := { p.config with maxMsgSize := size } }
  | .peer _ t => { p with config := { p.config with peers := p.config.peers ++ [t.hostPort] } }
  | .upstream _ t => { p with config := { p.config with upstreamConfig := some t.hostPort } }
  | .systemRoute _ systemId t =>
    { p with
        config := { p.config with
          systemRoutes := p.config.systemRoutes ++ [⟨systemId, t.hostPort⟩] } }
  | .badRoute _ value => { p with invalid := p.invalid ++ [value] }
  | .other _ => p

def WellFormed : Directive → Prop
  | .peer _ t => t.WellFormed
  | .upstream _ t => t.WellFormed
  | .systemRoute _ _ t => t.WellFormed
  | .badRoute _ value => '@' ∉ value
  | .other arg => valueOption arg = none ∧ ¬ IsHelp arg
  | _ => True

instance : (d : Directive) → Decidable d.WellFormed
  | .port .. => isTrue trivial
  | .maxMsgSize .. => isTrue trivial
  | .peer _ t => inferInstanceAs (Decidable t.WellFormed)
  | .upstream _ t => inferInstanceAs (Decidable t.WellFormed)
  | .systemRoute _ _ t => inferInstanceAs (Decidable t.WellFormed)
  | .badRoute _ value => inferInstanceAs (Decidable ('@' ∉ value))
  | .other arg => inferInstanceAs (Decidable (valueOption arg = none ∧ ¬ IsHelp arg))

end Directive

/-! ### The loop -/

/-- Both spellings of an option are found. -/
theorem valueOption_spelling (long : Bool) (o : ValueOption) :
    valueOption (o.spelling long) = some o := by
  cases long <;> cases o <;> decide

/-- An option with its value. -/
theorem parseFrom_option {p p' : Parsed} {o : ValueOption} (long : Bool) {value : List Char}
    (hset : p.set value o = .ok p') (rest : List (List Char)) :
    parseFrom p (o.spelling long :: value :: rest) = parseFrom p' rest := by
  simp [parseFrom, valueOption_spelling, hset]

/-- An argument that is no option. -/
theorem parseFrom_other {p : Parsed} {arg : List Char} (harg : valueOption arg = none)
    (hhelp : ¬ IsHelp arg) (rest : List (List Char)) :
    parseFrom p (arg :: rest) = parseFrom p rest := by
  cases rest with
  | nil => simp [parseFrom, hhelp]
  | cons value rest => simp [parseFrom, harg, hhelp]

theorem set_systemRoute {p : Parsed} (systemId : UInt8) {t : Target} (ht : t.WellFormed) :
    p.set (decimal systemId.toNat ++ '@' :: t.text) .systemRoute =
      .ok (Directive.follow p (.systemRoute true systemId t)) := by
  have hat := find_append (not_mem_decimal (c := '@') rfl systemId.toNat) t.text
  have hsysid := stoul_decimal_self (n := systemId.toNat) (by have := systemId.toNat_lt; omega)
  simp [Parsed.set, hat, hsysid, Target.parseHostPort_text ht, Directive.follow]

/-- The loop follows a directive. -/
theorem parseFrom_directive {p : Parsed} {d : Directive} (hd : d.WellFormed)
    (rest : List (List Char)) : parseFrom p (d.args ++ rest) = parseFrom (d.follow p) rest := by
  cases d with
  | port long n =>
    have hn := stoul_decimal_self (n := n.toNat) (by have := n.toNat_lt; omega)
    have hset : p.set (decimal n.toNat) .port = .ok (Directive.follow p (.port long n)) := by
      simp [Parsed.set, hn, Directive.follow]
    exact parseFrom_option long hset rest
  | maxMsgSize long size =>
    have hsize := stoul_decimal_self (n := size.toNat) (by have := size.toNat_lt; omega)
    have hset : p.set (decimal size.toNat) .maxMsgSize =
        .ok (Directive.follow p (.maxMsgSize long size)) := by
      simp [Parsed.set, hsize, Directive.follow]
    exact parseFrom_option long hset rest
  | peer long t =>
    have hset : p.set t.text .peer = .ok (Directive.follow p (.peer long t)) := by
      simp [Parsed.set, Target.parseHostPort_text hd, Directive.follow]
    exact parseFrom_option long hset rest
  | upstream long t =>
    have hset : p.set t.text .upstream = .ok (Directive.follow p (.upstream long t)) := by
      simp [Parsed.set, Target.parseHostPort_text hd, Directive.follow]
    exact parseFrom_option long hset rest
  | systemRoute long systemId t =>
    exact parseFrom_option long (set_systemRoute systemId hd) rest
  | badRoute long value =>
    have hset : p.set value .systemRoute = .ok (Directive.follow p (.badRoute long value)) := by
      simp [Parsed.set, find_eq_none.mpr hd, Directive.follow]
    exact parseFrom_option long hset rest
  | other arg => exact parseFrom_other hd.1 hd.2 rest

/-- The loop follows directives, one after the other. -/
theorem parseFrom_directives {ds : List Directive} (hds : ∀ d ∈ ds, d.WellFormed) (p : Parsed)
    (rest : List (List Char)) :
    parseFrom p (ds.flatMap Directive.args ++ rest) =
      parseFrom (ds.foldl Directive.follow p) rest := by
  induction ds generalizing p with
  | nil => rfl
  | cons d ds ih =>
    rw [List.flatMap_cons, List.append_assoc, parseFrom_directive (hds d (by simp)),
      ih fun d hd => hds d (by simp [hd]), List.foldl_cons]

/-- A configuration, written out in full. -/
def Config.directives (c : Config) : List Directive :=
  .port true c.port :: .maxMsgSize true c.maxMsgSize ::
    (c.peers.map (fun peer => .peer true ⟨peer.host, some peer.port⟩) ++
      (c.upstreamConfig.toList.map (fun u => .upstream true ⟨u.host, some u.port⟩) ++
        c.systemRoutes.map fun r =>
          .systemRoute true r.systemId ⟨r.target.host, some r.target.port⟩))

theorem foldl_peers (peers : List HostPort) (p : Parsed) :
    (peers.map fun peer => Directive.peer true ⟨peer.host, some peer.port⟩).foldl
        Directive.follow p =
      { p with config := { p.config with peers := p.config.peers ++ peers } } := by
  induction peers generalizing p with
  | nil => simp
  | cons peer peers ih => simp [ih, Directive.follow, Target.hostPort]

theorem foldl_systemRoutes (routes : List SystemRouteConfig) (p : Parsed) :
    (routes.map fun r =>
        Directive.systemRoute true r.systemId ⟨r.target.host, some r.target.port⟩).foldl
        Directive.follow p =
      { p with config := { p.config with
          systemRoutes := p.config.systemRoutes ++ routes } } := by
  induction routes generalizing p with
  | nil => simp
  | cons r routes ih => simp [ih, Directive.follow, Target.hostPort]

/-- Every configuration comes from a command line. -/
theorem parseArgs_config (c : Config) :
    parseArgs (c.directives.flatMap Directive.args) = .start ⟨c, []⟩ := by
  have hwell : ∀ d ∈ c.directives, d.WellFormed := by
    intro d hd
    simp only [Config.directives, List.mem_cons, List.mem_append, List.mem_map] at hd
    -- All targets have their ports.
    rcases hd with rfl | rfl | ⟨peer, -, rfl⟩ | ⟨u, -, rfl⟩ | ⟨r, -, rfl⟩
    · trivial
    · trivial
    · exact nofun
    · exact nofun
    · exact nofun
  have hread := parseFrom_directives hwell ⟨Config.initial, []⟩ []
  rw [List.append_nil] at hread
  rw [parseArgs, hread]
  obtain ⟨port, size, peers, upstream, routes⟩ := c
  cases upstream with
  | none =>
    simp [Config.directives, foldl_peers, foldl_systemRoutes, Directive.follow, Config.initial,
      parseFrom]
  | some u =>
    simp [Config.directives, foldl_peers, foldl_systemRoutes, Directive.follow, Config.initial,
      parseFrom, Target.hostPort]

/-- **The command line says what it means.** The router starts with what the directives of the
command line say in their order, and complains about the routes without `@`. An option without its
value at the end changes nothing. A request for help behind the directives wins over all that
follows it. -/
theorem parseArgs_directives (ds : List Directive) (hds : ∀ d ∈ ds, d.WellFormed) :
    parseArgs (ds.flatMap Directive.args) =
        .start (ds.foldl Directive.follow ⟨Config.initial, []⟩) ∧
      (∀ arg, ¬ IsHelp arg → parseArgs (ds.flatMap Directive.args ++ [arg]) =
        .start (ds.foldl Directive.follow ⟨Config.initial, []⟩)) ∧
      ∀ help rest, IsHelp help →
        parseArgs (ds.flatMap Directive.args ++ help :: rest) = .usage := by
  have hfollow := parseFrom_directives hds ⟨Config.initial, []⟩
  refine ⟨?_, ?_, ?_⟩
  · have h := hfollow []
    rwa [List.append_nil] at h
  · intro arg harg
    rw [parseArgs, hfollow, parseFrom, if_neg harg]
  · intro help rest hhelp
    have hno : valueOption help = none := by
      rcases hhelp with rfl | rfl <;> decide
    rw [parseArgs, hfollow]
    cases rest with
    | nil => simp [parseFrom, hhelp]
    | cons value rest => simp [parseFrom, hno, hhelp]

/-- A host with colons, a peer without a port, a route without `@`, and the last of two
upstreams. -/
def mixedDirectives : List Directive :=
  [.port false 2001, .peer true ⟨"fe80::1".toList, some 2002⟩, .other "-v".toList,
    .badRoute true "10.0.0.3".toList, .upstream false ⟨"10.0.0.1".toList, some 1⟩,
    .peer false ⟨"10.0.0.2".toList, none⟩, .systemRoute false 7 ⟨"a@b".toList, some 65535⟩,
    .upstream true ⟨"10.0.0.9".toList, none⟩]

theorem parseArgs_directives_mixed :
    (∀ d ∈ mixedDirectives, d.WellFormed) ∧
      parseArgs (mixedDirectives.flatMap Directive.args) =
        .start
          ⟨⟨2001, 256 * 1024, [⟨"fe80::1".toList, 2002⟩, ⟨"10.0.0.2".toList, 2000⟩],
            some ⟨"10.0.0.9".toList, 2000⟩, [⟨7, "a@b".toList, 65535⟩]⟩,
            ["10.0.0.3".toList]⟩ := by
  have hds : ∀ d ∈ mixedDirectives, d.WellFormed := by decide
  exact ⟨hds, (parseArgs_directives mixedDirectives hds).1⟩

end CoreRaT.Spec.CommandLine
