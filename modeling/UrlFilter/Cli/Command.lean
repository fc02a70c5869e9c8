import UrlFilter.Cli.Arguments

/-!
# Commands

The commands and what they are told, as read from arguments.
-/

namespace UrlFilter.Cli

/-- Where a rule base comes from. -/
inductive Origin where
  /-- A file that holds one. -/
  | stored (path : Text)
  /-- Lists that are compiled, with settings from a file. -/
  | lists (inputs : List Text) (config : Option Text)
  deriving Repr, DecidableEq

/-- What a measurement is told. -/
structure Load where
  iterations : Nat
  requests : Nat
  seed : Nat
  deriving Repr, DecidableEq

/-- What a compilation is told. -/
structure Job where
  inputs : List Text
  config : Option Text
  output : Text
  /-- The rules are ordered by their merits. -/
  byKeyword : Bool
  report : Option Text
  verbose : Bool
  deriving Repr, DecidableEq

/-- A command. -/
inductive Command where
  | compile (job : Job)
  | check (origin : Origin) (url host : Text)
  | info (path : Text)
  | bench (origin : Origin) (load : Load)
  deriving Repr, DecidableEq

namespace Command

/-- The seed when none is given. -/
def defaultSeed : Nat := 0xc0ffee

/-- The commands with the options that they have. -/
def keysOf? (name : Text) : Option (List Key) :=
  if name = "compile".toList then some [.verbose, .help, .input, .config, .output, .rank, .report]
  else if name = "check".toList then some [.verbose, .help, .ruleBase, .input, .config, .url, .host]
  else if name = "info".toList then some [.verbose, .help, .ruleBase]
  else if name = "bench".toList then
    some [.verbose, .help, .ruleBase, .input, .config, .iterations, .requests, .seed]
  else none

/-- Where the rule base comes from: a file or lists, and not both. -/
def originOf (g : Given) : Except Stop Origin :=
  match g.value? .ruleBase, g.values .input with
  | some path, [] => .ok (.stored path)
  | some _, _ :: _ => .error .misuse
  | none, [] => .error .misuse
  | none, inputs => .ok (.lists inputs (g.value? .config))

/-- The count of an option, or the usual one. -/
def countOf (g : Given) (k : Key) (usual : Nat) : Nat :=
  ((g.value? k).bind (unsigned? countLimit)).getD usual

/-- The command of a name and its options. -/
def ofGiven (verbose : Bool) (name : Text) (g : Given) : Except Stop Command :=
  if name = "compile".toList then
    if g.has .input then
      .ok (.compile {
        inputs := g.values .input
        config := g.value? .config
        output := (g.value? .output).getD "rulebase.json".toList
        byKeyword := g.value? .rank == some "keyword".toList
        report := g.value? .report
        verbose := verbose || g.has .verbose })
    else .error .misuse
  else if name = "check".toList then
    match g.value? .url with
    | none => .error .misuse
    | some url => (originOf g).map fun o => .check o url ((g.value? .host).getD [])
  else if name = "info".toList then
    match g.value? .ruleBase with
    | none => .error .misuse
    | some path => .ok (.info path)
  else
    (originOf g).map fun o =>
      .bench o {
        iterations := countOf g .iterations 100
        requests := countOf g .requests 1000
        seed := ((g.value? .seed).bind seed?).getD defaultSeed }

/-- Help may be asked for on a command. -/
def helpOn : List Text → Stop
  | [] => .help
  | [name] => if (keysOf? name).isSome || name = "help".toList then .help else .misuse
  | _ => .misuse

/-- Reads a command. Options in front of its name are those that all commands have. -/
def read (g : Given) : List Text → Except Stop Command
  | [] => .error .misuse
  | arg :: args =>
    match keysOf? arg with
    | some keys =>
      (readOptions keys [] args).bind fun own => ofGiven (g.has .verbose) arg own
    | none =>
      if arg = "help".toList then .error (helpOn args)
      else
        match readOption [.verbose, .help] g arg with
        | .error e => .error e
        | .ok (g, _) => read g args

/-- The command of a list of arguments. -/
def ofArguments (args : List Text) : Except Stop Command := read [] args

end Command

end UrlFilter.Cli
