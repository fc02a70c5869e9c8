import UrlFilter.Text

/-!
# Arguments

How the arguments of a command are read: options by a long or a short name, their values behind them or
attached, short names of flags joined. No argument stands by itself, and only some options may be given
twice.
-/

namespace UrlFilter.Cli

/-- An option of a command. -/
inductive Key where
  | verbose
  | help
  | input
  | config
  | output
  | rank
  | report
  | ruleBase
  | url
  | host
  | iterations
  | requests
  | seed
  deriving Repr, DecidableEq

namespace Key

/-- The name behind two hyphens. -/
def long : Key → Text
  | verbose => "verbose".toList
  | help => "help".toList
  | input => "input".toList
  | config => "config".toList
  | output => "output".toList
  | rank => "rank".toList
  | report => "report".toList
  | ruleBase => "rulebase".toList
  | url => "url".toList
  | host => "host".toList
  | iterations => "iterations".toList
  | requests => "requests".toList
  | seed => "seed".toList

/-- The letter behind one hyphen. -/
def short? : Key → Option Char
  | verbose => some 'v'
  | help => some 'h'
  | input => some 'i'
  | config => some 'c'
  | output => some 'o'
  | ruleBase => some 'r'
  | _ => none

/-- The option has no value. -/
def isFlag : Key → Bool
  | verbose | help => true
  | _ => false

/-- The option may be given more than once. -/
def repeats : Key → Bool
  | input => true
  | _ => false

end Key

/-- Why the reading of arguments ends early. -/
inductive Stop where
  /-- The arguments mean nothing. -/
  | misuse
  /-- Help is asked for. -/
  | help
  deriving Repr, DecidableEq

/-- The options given, with their values. -/
abbrev Given := List (Key × Text)

/-- A number that may have a plus sign in front. -/
def unsigned? (limit : Nat) (t : Text) : Option Nat :=
  let digits := match t with
    | '+' :: t => t
    | t => t
  (Text.toNat? digits).filter (· < limit)

/-- A seed: a number below 2³²; zero may have a minus sign. -/
def seed? (t : Text) : Option Nat :=
  match t with
  | '-' :: digits => (Text.toNat? digits).filter (· = 0)
  | t => unsigned? UInt32.size t

/-- The limit on counts. -/
def countLimit : Nat := UInt64.size

/-- The names of the orders of rules. -/
def rankNames : List Text := ["file-order", "keyword"].map String.toList

/-- The value is one that the option can have. -/
def Key.admits (k : Key) (value : Text) : Bool :=
  match k with
  | .iterations | .requests => (unsigned? countLimit value).isSome
  | .seed => (seed? value).isSome
  | .rank => rankNames.contains value
  | _ => true

namespace Given

/-- The options with one more. -/
def give (g : Given) (k : Key) (value : Text) : Except Stop Given :=
  if k = .help then .error .help
  else if !k.repeats && g.any (·.1 == k) then .error .misuse
  else if k.admits value then .ok (g ++ [(k, value)])
  else .error .misuse

/-- The option is given. -/
def has (g : Given) (k : Key) : Bool := g.any (·.1 == k)

/-- The values of an option. -/
def values (g : Given) (k : Key) : List Text := (g.filter (·.1 == k)).map Prod.snd

/-- The value of an option that may be given once. -/
def value? (g : Given) (k : Key) : Option Text := (g.values k).head?

end Given

/-- What an argument is by its start. -/
inductive Argument where
  /-- Two hyphens alone: no option follows. -/
  | terminator
  | long (name : Text) (value : Option Text)
  | shorts (letters : Text)
  | word
  deriving Repr, DecidableEq

/-- What an argument is. A hyphen alone is a word. -/
def Argument.of : Text → Argument
  | ['-', '-'] => terminator
  | '-' :: '-' :: t =>
    match Text.splitFirst '=' t with
    | some (name, value) => long name (some value)
    | none => long t none
  | '-' :: c :: t => shorts (c :: t)
  | _ => word

/-- Reads joined short names. An option with a value takes the rest as its value; the result names the
option whose value has to follow. -/
def readShorts (keys : List Key) (g : Given) : Text → Except Stop (Given × Option Key)
  | [] => .ok (g, none)
  | c :: t =>
    match keys.find? (·.short? == some c) with
    | none => .error .misuse
    | some k =>
      if k.isFlag then (g.give k []).bind fun g => readShorts keys g t
      else
        match t with
        | [] => .ok (g, some k)
        | '=' :: value => (g.give k value).map (·, none)
        | value => (g.give k value).map (·, none)

/-- Reads one option, and names it when its value has to follow. -/
def readOption (keys : List Key) (g : Given) (arg : Text) : Except Stop (Given × Option Key) :=
  match Argument.of arg with
  | .long name value =>
    match keys.find? (·.long == name) with
    | none => .error .misuse
    | some k =>
      match value with
      | none => if k.isFlag then (g.give k []).map (·, none) else .ok (g, some k)
      | some v => if k.isFlag then .error .misuse else (g.give k v).map (·, none)
  | .shorts letters => readShorts keys g letters
  | _ => .error .misuse

/-- The argument can be a value. -/
def isValue (arg : Text) : Bool := Argument.of arg == .word

/-- Reads the options of a command. -/
def readOptions (keys : List Key) (g : Given) : List Text → Except Stop Given
  | [] => .ok g
  | arg :: args =>
    if Argument.of arg = .terminator then if args.isEmpty then .ok g else .error .misuse
    else
      match readOption keys g arg with
      | .error e => .error e
      | .ok (g, none) => readOptions keys g args
      | .ok (g, some k) =>
        match args with
        | [] => .error .misuse
        | value :: args =>
          if isValue value then
            match g.give k value with
            | .error e => .error e
            | .ok g => readOptions keys g args
          else .error .misuse

end UrlFilter.Cli
