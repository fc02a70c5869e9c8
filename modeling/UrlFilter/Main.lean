import UrlFilter.Cli.Run

/-!
# The program

The commands in the surroundings of a real system.
-/

namespace UrlFilter.Main

open Cli (FileError World)

/-- The error of the system as a refusal. -/
def refusal (e : IO.Error) : FileError :=
  match e with
  | .noFileOrDirectory _ _ _ => .notFound
  | .alreadyExists _ _ _ => .alreadyExists
  | .permissionDenied _ code details => .system details.toList code.toNat
  | .inappropriateType _ code details => .system details.toList code.toNat
  | .resourceExhausted _ code details => .system details.toList code.toNat
  | .invalidArgument _ code details => .system details.toList code.toNat
  | e => .system e.toString.toList 0

/-- The outcome of an action of the system. -/
def attempt {α : Type} (action : IO α) : IO (Except FileError α) := do
  match ← action.toBaseIO with
  | .ok a => pure (.ok a)
  | .error e => pure (.error (refusal e))

/-- The text of a file. -/
def readText (path : Text) : IO (Except FileError Text) := do
  match ← attempt (IO.FS.readBinFile (String.ofList path)) with
  | .error e => pure (.error e)
  | .ok bytes =>
    match String.fromUTF8? bytes with
    | some s => pure (.ok s.toList)
    | none => pure (.error .notText)

/-- How long decisions take. -/
def latencies (base : RuleBase) (lookups : List Lookup) (rounds : Nat) : IO (List Nat) := do
  let mut times := #[]
  for _ in [0:rounds] do
    for l in lookups do
      let start ← IO.monoNanosNow
      let _ ← IO.lazyPure fun _ => base.judge .silent l
      let stop ← IO.monoNanosNow
      times := times.push (stop - start)
  pure times.toList

/-- The world of a real system. -/
def world : World IO where
  read := readText
  write path content := attempt (IO.FS.writeFile (String.ofList path) (String.ofList content))
  makeDirectories path := attempt (IO.FS.createDirAll (String.ofList path))
  print line := IO.println (String.ofList line)
  clock := IO.monoNanosNow
  latencies := latencies

end UrlFilter.Main

/-- Runs the command that the arguments name. -/
def main (args : List String) : IO UInt32 := do
  let ending ← UrlFilter.Cli.run UrlFilter.Main.world (args.map String.toList)
  match ending with
  | .failed message => IO.eprintln ("Error: " ++ String.ofList message)
  | .stopped .misuse => IO.eprintln "usage: compile | check | info | bench, with their options"
  | .stopped .help => IO.println "usage: compile | check | info | bench, with their options"
  | .done => pure ()
  pure ending.code.toUInt32
