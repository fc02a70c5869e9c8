import UrlFilter.Text

/-!
# Paths

The parts of a path between its slashes. Slashes at the end say nothing, and neither do parts that are a
single dot, but for the first.
-/

namespace UrlFilter.Cli.Path

/-- A reversed path without what says nothing at its end. -/
def trimReversed : Text → Text
  | ['/'] => ['/']
  | '/' :: t => trimReversed t
  | '.' :: '/' :: t => trimReversed ('/' :: t)
  | t => t

/-- The last part of a path; empty for the root and for the directory above. -/
def fileName (path : Text) : Text :=
  let name := ((trimReversed path.reverse).takeWhile (· != '/')).reverse
  if name = ['.'] ∨ name = ['.', '.'] then [] else name

/-- The path of the directory that holds what a path names; empty where the path has no other part. -/
def parent (path : Text) : Text :=
  match trimReversed path.reverse with
  | ['/'] => []
  | t => (trimReversed (t.dropWhile (· != '/'))).reverse

/-- The parts of a path. -/
def parts (path : Text) : List Text := (Text.parts '/' path).filter (!·.isEmpty)

end UrlFilter.Cli.Path
