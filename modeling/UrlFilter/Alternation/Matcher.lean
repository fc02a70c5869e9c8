import UrlFilter.Alternation.Mark
import UrlFilter.Backtrack.Compile

/-!
# Matching an alternation

The fragments of an alternation are split in two: those that ask for backtracking go into chunks of a
few fragments each, the others into one pattern without memory. References count the groups of all
fragments in front of them, so they are lowered to count those of their chunk alone.
-/

namespace UrlFilter.Alternation

/-- A fragment with the groups of the fragments in front of it. -/
structure Fragment where
  text : Text
  groupsBefore : Nat
  deriving Repr, DecidableEq

namespace Fragment

/-- The number of capturing groups. -/
def groups (f : Fragment) : Nat := groupCount f.text

/-- The fragments of a list of texts, behind a number of groups. -/
def listFrom (groupsBefore : Nat) : List Text → List Fragment
  | [] => []
  | t :: ts => ⟨t, groupsBefore⟩ :: listFrom (groupsBefore + groupCount t) ts

/-- The fragment asks for backtracking. -/
def backtracks (f : Fragment) : Bool := Alternation.backtracks f.text

end Fragment

/-- The number of fragments in a chunk. -/
def chunkSize : Nat := 32

/-- The limit on the compiled size of the fragments without backtracking. -/
def sizeLimit : Nat := 256 * 1024 * 1024

/-- The fragments as one pattern without memory, when there are any and they can be one. -/
def joined? (fs : List Fragment) : Option Regex :=
  if fs.isEmpty then none else Regex.compile? true sizeLimit (Text.join ['|'] (fs.map (·.text)))

/-- The lists of at most `n` elements that make up a list; all but the last have `n`. -/
def chunks {α : Type} (n : Nat) (as : List α) : List (List α) :=
  if as.isEmpty ∨ n = 0 then [] else as.take n :: chunks n (as.drop n)
termination_by as.length
decreasing_by
  rename_i h
  have : as ≠ [] := by intro e; simp [e] at h
  have := List.length_pos_iff.mpr this
  simp only [List.length_drop]
  omega

/-- The texts of the fragments of a chunk, behind `groups` groups of it, with their references counted
in the chunk. -/
def chunkTexts (groups : Nat) : List Fragment → List Text
  | [] => []
  | f :: fs =>
    lowerReferences (f.groupsBefore - groups) f.text :: chunkTexts (groups + f.groups) fs

/-- What a joined pattern begins with. -/
def opening : Text := "(?i)(?:".toList

/-- Branches joined into one pattern that ignores case. -/
def join (branches : List Text) : Text := opening ++ Text.join ['|'] branches ++ [')']

/-- The text of a chunk as it is compiled. -/
def chunkText (fs : List Fragment) : Text := join (chunkTexts 0 fs)

/-- What matches an alternation: when any of its parts does. -/
structure Matcher where
  linear : Option Regex
  chunks : List Backtrack.Pattern
  deriving Repr

namespace Matcher

/-- The fragments without backtracking as one pattern; where they cannot be one, those that cannot be a
pattern alone are sent to the chunks, and the others are tried once more. -/
def splitLinear (fs : List Fragment) : Option Regex × List Fragment :=
  match joined? fs with
  | some r => (some r, [])
  | none =>
    let (accepted, rejected) := fs.partition fun f => (joined? [f]).isSome
    (joined? accepted, rejected)

/-- The patterns of the chunks, when all of them compile. -/
def compileChunks? : List (List Fragment) → Option (List Backtrack.Pattern)
  | [] => some []
  | c :: cs =>
    (Backtrack.compile? (chunkText c)).bind fun p => (compileChunks? cs).map (p :: ·)

/-- The matcher of a list of fragments. -/
def ofFragments? (texts : List Text) : Option Matcher :=
  let (back, plain) := (Fragment.listFrom 0 texts).partition Fragment.backtracks
  let (linear, rejected) := splitLinear plain
  (compileChunks? (Alternation.chunks chunkSize (back ++ rejected))).map fun cs => ⟨linear, cs⟩

/-- Some part matches somewhere in the text. -/
def isMatch (m : Matcher) (t : Text) : Bool :=
  m.linear.any (·.isMatch t) || m.chunks.any (·.isMatch t)

end Matcher

end UrlFilter.Alternation
