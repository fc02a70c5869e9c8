import UrlFilter.Text
import UrlFilter.Unicode.Tables

/-!
# Character properties

The properties of characters that the rules of this library name, and the simple case folding. Each
property answers for ASCII by a formula and beyond ASCII by a table.
-/

namespace UrlFilter.Unicode

/-- One of the closed ranges holds the number. -/
def inRanges (ranges : List (Nat × Nat)) (n : Nat) : Bool :=
  ranges.any fun (lo, hi) => decide (lo ≤ n) && decide (n ≤ hi)

/-- The property given by an ASCII formula and a table beyond ASCII. -/
def holds (ascii : Char → Bool) (ranges : List (Nat × Nat)) (c : Char) : Bool :=
  if c.toNat < 128 then ascii c else inRanges ranges c.toNat

/-- A character of the property Alphabetic. -/
def isAlphabetic (c : Char) : Bool := holds Char.isAlpha alphabeticRanges c

/-- A character of a number category. -/
def isNumeric (c : Char) : Bool := holds Char.isDigit numericRanges c

/-- A letter or a number. -/
def isAlphanumeric (c : Char) : Bool := isAlphabetic c || isNumeric c

/-- A decimal digit of any script. -/
def isDigit (c : Char) : Bool := holds Char.isDigit digitRanges c

/-- A word character: alphabetic, a mark, a decimal digit, connector punctuation or a join
control. -/
def isWord (c : Char) : Bool :=
  isAlphabetic c || isDigit c || holds (· == '_') joiningRanges c

/-! ## Simple case folding -/

/-- The number `n` as a character of a run, moved to its image. -/
def imageInRun (n : Nat) : Nat × Nat × Nat × Nat → Option Nat
  | (first, last, step, image) =>
    if first ≤ n ∧ n ≤ last ∧ (n - first) % step = 0 then some (image + (n - first)) else none

/-- The character of a run whose image is the number `n`. -/
def sourceInRun (n : Nat) : Nat × Nat × Nat × Nat → Option Nat
  | (first, last, step, image) =>
    if image ≤ n ∧ n ≤ image + (last - first) ∧ (n - image) % step = 0 then
      some (first + (n - image))
    else none

/-- The simple case folding: one character that stands for all that differ from it only in case. -/
def fold (c : Char) : Char :=
  if c.toNat < 128 then c.toLower
  else ((foldRuns.findSome? (imageInRun c.toNat)).bind Text.charOfNat?).getD c

/-- The characters equal to `c` up to case, `fold c` among them. -/
def variants (c : Char) : List Char :=
  let f := fold c
  f :: f.toUpper :: foldRuns.filterMap fun run => (sourceInRun f.toNat run).bind Text.charOfNat?

/-- The two characters differ at most in case. -/
def sameFolded (a b : Char) : Bool := fold a == fold b

end UrlFilter.Unicode
