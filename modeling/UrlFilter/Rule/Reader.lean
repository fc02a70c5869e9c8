import UrlFilter.Policy
import UrlFilter.Rule.Line

/-!
# Reading a list

A list is read line by line. A line gives a rule or is dropped. Comments open and close sections without
interest, whose rules are dropped and counted.
-/

namespace UrlFilter

/-- A rule as a line gives it. -/
structure Rule where
  pattern : Text
  options : RuleOption.Set := []
  isException : Bool := false
  /-- The position of the line. -/
  ordinal : Nat := 0
  deriving Repr, DecidableEq

/-- Whether the lines that follow are of interest. -/
inductive Section where
  | scanning
  /-- They are not; so many rules have been passed over. -/
  | ignoring (count : Nat)
  deriving Repr, DecidableEq

/-- The section behind a comment. -/
def Section.comment (opens : Bool) : Section → Section
  | scanning => if opens then ignoring 0 else scanning
  -- A comment that opens a section in another one does not begin its count anew.
  | ignoring n => if opens then ignoring n else scanning

/-- What becomes of a line, and the section behind it. -/
structure Outcome where
  result : Except Drop Rule
  next : Section

namespace Policy

/-- Judges a pattern with its options outside of ignored sections. -/
def judge (p : Policy) (isException : Bool) (pattern options : Text) (ordinal : Nat) :
    Except Drop Rule :=
  match Line.options? options with
  | none => .error .unsupportedOption
  | some opts =>
    if Line.isEmptyUrl pattern then .error .emptyUrl
    else if isException && !p.includeExceptions then .error .exceptionExcluded
    else if opts.meets p.ignoredOptions then .error .ignoredOption
    else .ok ⟨pattern, opts, isException, ordinal⟩

/-- What becomes of a line in a section. -/
def readLine (p : Policy) (s : Section) (text : Text) (ordinal : Nat) : Outcome :=
  let line := Text.trimEnd text
  if Line.isConfig line then ⟨.error .configLine, s⟩
  else if Line.isSelector line then ⟨.error .selector, s⟩
  else
    -- A comment is told by what would be the pattern of a rule, so that it may stand behind the sign of an exception.
    let (isException, body) := Line.splitException line
    let (pattern, options) := Line.splitOptions body
    match Line.comment? pattern with
    | some comment => ⟨.error .comment, s.comment (p.opensIgnored comment)⟩
    | none =>
      if (Text.trimChar '*' pattern).isEmpty then ⟨.error .blank, s⟩
      else
        match s with
        | .ignoring n => ⟨.error .ignoredSection, .ignoring (n + 1)⟩
        | .scanning => ⟨p.judge isException pattern options ordinal, .scanning⟩

end Policy

/-- What has been read of a list. -/
structure Reader where
  current : Section := .scanning
  tally : Tally := {}
  deriving Repr, DecidableEq

namespace Reader

/-- Reads one line. -/
def read (r : Reader) (p : Policy) (text : Text) (ordinal : Nat) : Reader × Option Rule :=
  let o := p.readLine r.current text ordinal
  match o.result with
  | .ok rule => (⟨o.next, r.tally.line.accept⟩, some rule)
  | .error d => (⟨o.next, r.tally.line.drop d⟩, none)

/-- Ends a list; the next one begins outside of sections. -/
def finish (r : Reader) : Reader := { r with current := .scanning }

/-- Reads lines, numbered from a position on. -/
def readFrom (r : Reader) (p : Policy) : Nat → List Text → Reader × List Rule
  | _, [] => (r, [])
  | n, t :: ts =>
    let (r', rule) := r.read p t n
    let (r'', rules) := readFrom r' p (n + 1) ts
    (r'', rule.toList ++ rules)

/-- Reads lines, numbered from zero. -/
def readAll (r : Reader) (p : Policy) (ts : List Text) : Reader × List Rule := r.readFrom p 0 ts

end Reader

end UrlFilter
