import UrlFilter.Build.Builder
import UrlFilter.Cli.Command
import UrlFilter.Cli.Path
import UrlFilter.Cli.Requests
import UrlFilter.Cli.World
import UrlFilter.Decimal
import UrlFilter.Json.Printer
import UrlFilter.Settings.Document
import UrlFilter.Snapshot.Document

/-!
# Running commands

What each command does in a world. A command ends well or with a message; lines that it has printed and
files that it has written until then stay.
-/

namespace UrlFilter.Cli

/-- A text between two others. -/
def about (before : String) (path : Text) (after : String) (cause : Text) : Text :=
  before.toList ++ path ++ after.toList ++ cause

/-- A text filled up with blanks at its end. -/
def padEnd (width : Nat) (t : Text) : Text := t ++ List.replicate (width - t.length) ' '

/-- A number filled up with blanks in front. -/
def padNat (width n : Nat) : Text :=
  let t := Text.ofNat n
  List.replicate (width - t.length) ' ' ++ t

section

variable {m : Type → Type} [Monad m] (w : World m)

/-- A step that may fail with a message. -/
abbrev Step (m : Type → Type) := ExceptT Text m

/-- Ends with a message. -/
def fail {α : Type} (message : Text) : Step m α := throw message

/-- Prints a line. -/
def say (line : Text) : Step m Unit := ExceptT.lift (w.print line)

/-- The outcome of an attempt, its error turned into a message. -/
def attempt {ε α : Type} (message : ε → Text) (a : m (Except ε α)) : Step m α :=
  ExceptT.mk ((fun r => r.mapError message) <$> a)

/-- A result, its error turned into a message. -/
def result {ε α : Type} (message : ε → Text) (r : Except ε α) : Step m α :=
  ExceptT.mk (pure (r.mapError message))

/-- The settings of a file, or the usual ones. -/
def loadSettings (path : Option Text) : Step m Settings :=
  match path with
  | none => pure .usual
  | some path => do
    let t ← attempt (fun e => about "Failed to read config " path ": " e.message) (w.read path)
    match Settings.read? t with
    | some s => pure s
    | none => fail "Invalid config JSON:".toList

/-- Reads lists one after the other, and tells of each when asked to. -/
def readLists (p : Policy) (verbose : Bool) : Nat → List Text → Builder → Step m Builder
  | _, [], b => pure b
  | n, path :: paths, b => do
    let t ← attempt (fun e => about "Failed to read '" path "': " e.message) (w.read path)
    let b' := b.addSource p t
    if verbose then
      say w ("  [".toList ++ Text.ofNat n ++ "] ".toList ++ Path.fileName path ++ " - ".toList ++
        Text.ofNat (Text.lines t).length ++ " lines, ".toList ++
        Text.ofNat (b'.tally.accepted - b.tally.accepted) ++ " rules".toList)
    readLists p verbose (n + 1) paths b'

/-- Compiles lists. -/
def compileLists (inputs : List Text) (s : Settings) (byKeyword verbose : Bool) :
    Step m (RuleBase × Report) := do
  if inputs.isEmpty then fail "No input files specified".toList
  let p ← result Policy.Failure.message (Policy.ofSettings s)
  let b ← readLists w p verbose 0 inputs {}
  let ranking : Ranking := if byKeyword then .byMerits (.ofPolicy p) else .inOrder
  result Build.Failure.message (b.build p ranking)

/-- Stores a rule base; the directory for it is made when it is missing. -/
def store (path : Text) (base : RuleBase) : Step m Unit := do
  let parent := Path.parent path
  if !parent.isEmpty then
    attempt (fun e => about "Failed to create '" parent "': " e.message) (w.makeDirectories parent)
  attempt (fun e => about "Failed to write '" path "': " e.message)
    (w.write path (Snapshot.ofRuleBase base).write)

/-- Stores a report. -/
def storeReport (path : Text) (r : Report) : Step m Unit :=
  attempt (fun e => about "Failed to write '" path "': " e.message) (w.write path r.toJson.pretty)

/-- The rule base of a file. -/
def loadRuleBase (path : Text) : Step m RuleBase := do
  let t ← attempt (fun e => about "Failed to read '" path "': " e.message) (w.read path)
  result (fun f => about "Invalid rule base '" path "': " f.message) (Snapshot.load t)

/-- The rule base from where it comes. -/
def ruleBaseOf (o : Origin) : Step m RuleBase :=
  match o with
  | .stored path => loadRuleBase w path
  | .lists inputs config => do
    let s ← loadSettings w config
    let (base, _) ← compileLists w inputs s false false
    pure base

/-! ## The commands -/

/-- The line on a bucket in the account of a compilation. -/
def bucketLine (r : BucketReport) : Text :=
  "  ".toList ++ padEnd 28 r.bucket.name ++ [' '] ++ padNat 6 r.admitted ++ " admitted ".toList ++
    padNat 6 r.unique ++ " unique ".toList ++ padNat 6 r.finalCount ++ " final (".toList ++
    Text.ofNat r.wildcards ++ " wildcards)".toList

/-- The account of a compilation that took so many nanoseconds. -/
def accountOf (job : Job) (r : Report) (time : Nat) : List Text :=
  let t := r.tally
  let dropped := [
    (t.selectors, " selectors"), (t.ignoredOptions, " ignored options"),
    (t.unsupportedOptions, " unsupported options"), (t.ignoredSections, " ignored sections"),
    (t.contentFiltered, " content filtered")]
  let lines := [
    "Compiled ".toList ++ Text.ofNat job.inputs.length ++ " filter lists to '".toList ++ job.output ++
      ['\''],
    "  Lines:    ".toList ++ Text.ofNat t.lines,
    "  Rules:    ".toList ++ Text.ofNat t.accepted ++ " normalized -> ".toList ++
      Text.ofNat r.totalRules ++ " compiled".toList,
    "  Dropped:  ".toList ++
      Text.join ", ".toList (dropped.map fun (n, what) => Text.ofNat n ++ what.toList),
    "  Time:     ".toList ++ Decimal.fixed 1 time 1000000 ++ "ms".toList]
  if job.verbose then
    lines ++ [] :: (r.buckets.filter (0 < ·.admitted)).map bucketLine
  else lines

/-- Prints lines. -/
def sayAll : List Text → Step m Unit
  | [] => pure ()
  | t :: ts => do
    say w t
    sayAll ts

/-- Compiles lists and stores the rule base. -/
def compile (job : Job) : Step m Unit := do
  let s ← loadSettings w job.config
  let start ← ExceptT.lift w.clock
  let (base, r) ← compileLists w job.inputs s job.byKeyword job.verbose
  let stop ← ExceptT.lift w.clock
  store w job.output base
  match job.report with
  | none => pure ()
  | some path => storeReport w path r
  sayAll w (accountOf job r (stop - start))

/-- The words for what a decision rests on. -/
def groundText : Ground → Text
  | .blockedHost => "good-domain exception".toList
  | .preFilter => "pre-filter".toList
  | .bucket b => b.name
  | .default => "default".toList

/-- Decides on one lookup. -/
def check (o : Origin) (l : Lookup) : Step m Unit := do
  let base ← ruleBaseOf w o
  let v := base.judge .silent l
  say w (v.decision.word ++ " (".toList ++ groundText v.ground ++ [')'])

/-- What a bucket holds, in words. -/
def describe (b : Bucket) : RuleSet → Text
  | .exact s => Text.ofNat s.size ++ " entries".toList
  | .pattern a =>
    if a.rules.isEmpty then "empty".toList
    else
      Text.ofNat a.rules.length ++ " alternatives, ".toList ++ Text.ofNat (Text.byteLength a.text) ++
        " byte regex".toList ++ if b.category.isAnchored then ", anchored".toList else []

/-- Tells what a rule base holds. -/
def info (path : Text) : Step m Unit := do
  let base ← loadRuleBase w path
  sayAll w ([
    "Rule base: ".toList ++ path,
    "  Rules:       ".toList ++ Text.ofNat base.ruleCount,
    "  Exceptions:  ".toList ++ Text.ofNat base.blockedHosts.size,
    [],
    "Buckets:".toList] ++
    Bucket.all.map fun b =>
      "  ".toList ++ padEnd 28 b.name ++ [' '] ++ describe b (base.bucket b))

/-- The time below which so many percent of sorted times lie, in nanoseconds. -/
def percentile (sorted : List Nat) (percent : Nat) : Nat :=
  let rank := (sorted.length * percent + 99) / 100
  sorted.getD (min (rank - 1) (sorted.length - 1)) 0

/-- The account of a measurement of so many decisions, in which a share is blocked. -/
def measured (name : String) (ops blocked : Nat) (times : List Nat) : List Text :=
  let sorted := times.mergeSort fun a b => decide (a ≤ b)
  let total := times.sum
  let line (what : String) (num den : Nat) (unit : String) : Text :=
    what.toList ++ Decimal.fixed 2 num den ++ unit.toList
  [name.toList ++ [':'],
    "  Ops: ".toList ++ Text.ofNat ops,
    line "  Total: " total 1000000 " ms",
    line "  Avg: " total (1000 * max 1 ops) " us",
    line "  P50: " (percentile sorted 50) 1000 " us",
    line "  P95: " (percentile sorted 95) 1000 " us",
    line "  P99: " (percentile sorted 99) 1000 " us",
    "  Throughput: ".toList ++ Text.ofNat (ops * 1000000000 / max 1 total) ++ " ops/sec".toList,
    "  Blocked: ".toList ++ Decimal.percent blocked ops ++ ['%']]

/-- Measures the decisions on some lookups in so many rounds. -/
def measure (base : RuleBase) (name : String) (lookups : List Lookup) (rounds : Nat) :
    Step m Unit := do
  let times ← ExceptT.lift (w.latencies base lookups rounds)
  let blocked := lookups.countP fun l => decide ((base.judge .silent l).decision = .block)
  sayAll w (measured name (lookups.length * rounds) (blocked * rounds) times)

/-- Measures how long decisions take. -/
def bench (o : Origin) (load : Load) : Step m Unit := do
  let base ← ruleBaseOf w o
  if load.iterations = 0 ∨ load.requests = 0 then
    fail "Iterations and requests must be non-zero".toList
  let rule := List.replicate 60 '='
  sayAll w [
    rule,
    "pacfilter Decision Benchmark".toList,
    rule,
    "Rules: ".toList ++ Text.ofNat base.ruleCount,
    "Requests: ".toList ++ Text.ofNat load.requests,
    "Iterations: ".toList ++ Text.ofNat load.iterations,
    [],
    "Warming up...".toList]
  let lookups := requests load.requests load.seed
  measure w base "Random Requests" lookups load.iterations
  say w []
  measure w base "Single Hot Path" (lookups.take 1) (min (load.iterations * 10) (countLimit - 1))

/-- Does what a command says. -/
def perform : Command → Step m Unit
  | .compile job => compile w job
  | .check o url host => check w o ⟨url, host⟩
  | .info path => info w path
  | .bench o load => bench w o load

/-- How a run ends. -/
inductive Ending where
  | done
  | failed (message : Text)
  /-- The arguments are no command, or ask for help. -/
  | stopped (s : Stop)
  deriving Repr, DecidableEq

/-- The number that a run ends with. -/
def Ending.code : Ending → Nat
  | done => 0
  | failed _ => 1
  | stopped .misuse => 2
  | stopped .help => 0

/-- Runs the command of a list of arguments. -/
def run (args : List Text) : m Ending :=
  match Command.ofArguments args with
  | .error s => pure (.stopped s)
  | .ok c => do
    match ← (perform w c).run with
    | .ok () => pure .done
    | .error message => pure (.failed message)

end

end UrlFilter.Cli
