import UrlFilter.Verdict

/-!
# The world of a command

What a command needs of its surroundings: files, a place to print lines, and a clock.
-/

namespace UrlFilter.Cli

/-- Why a file cannot be read or written. -/
inductive FileError where
  /-- The system refuses, with a message and a number. -/
  | system (message : Text) (code : Nat)
  /-- The content is no text. -/
  | notText
  deriving Repr, DecidableEq

namespace FileError

/-- The words for an error. -/
def message : FileError → Text
  | system message code => message ++ " (os error ".toList ++ Text.ofNat code ++ [')']
  | notText => "stream did not contain valid UTF-8".toList

/-- There is no such file. -/
def notFound : FileError := system "No such file or directory".toList 2

/-- There is something by that name already. -/
def alreadyExists : FileError := system "File exists".toList 17

/-- A part of the path is no directory. -/
def notDirectory : FileError := system "Not a directory".toList 20

/-- The path leads to a directory. -/
def isDirectory : FileError := system "Is a directory".toList 21

end FileError

/-- What a command can do in its surroundings. -/
structure World (m : Type → Type) where
  /-- The text of a file. -/
  read : Text → m (Except FileError Text)
  /-- Makes or replaces a file. -/
  write : Text → Text → m (Except FileError Unit)
  /-- Makes a directory and those around it, as far as they are missing. -/
  makeDirectories : Text → m (Except FileError Unit)
  /-- Prints a line. -/
  print : Text → m Unit
  /-- The time, in nanoseconds. -/
  clock : m Nat
  /-- How long each lookup takes in each of so many rounds, in nanoseconds. -/
  latencies : RuleBase → List Lookup → Nat → m (List Nat)

end UrlFilter.Cli
