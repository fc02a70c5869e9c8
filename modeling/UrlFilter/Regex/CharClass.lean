import UrlFilter.Unicode.Basic

/-!
# Character classes

A class is an expression for a set of characters: ranges and Unicode properties, combined by the set
operations and closed under simple case folding where the pattern ignores case.
-/

namespace UrlFilter.Regex

/-- An expression for a set of characters. -/
inductive CharClass where
  /-- The characters whose numbers lie in one of the closed ranges. -/
  | ranges (rs : List (Nat × Nat))
  /-- The characters equal to `c` up to case. -/
  | alike (c : Char)
  | word
  | digit
  | blank
  | union (a b : CharClass)
  | inter (a b : CharClass)
  | diff (a b : CharClass)
  | symmDiff (a b : CharClass)
  | compl (a : CharClass)
  /-- The characters equal up to case to one of the class. -/
  | folded (a : CharClass)
  deriving Repr, DecidableEq

namespace CharClass

/-- The character is in the class. -/
def mem : CharClass → Char → Bool
  | ranges rs, x => Unicode.inRanges rs x.toNat
  | alike c, x => Unicode.sameFolded x c
  | word, x => Unicode.isWord x
  | digit, x => Unicode.isDigit x
  | blank, x => Text.isBlank x
  | union a b, x => a.mem x || b.mem x
  | inter a b, x => a.mem x && b.mem x
  | diff a b, x => a.mem x && !b.mem x
  | symmDiff a b, x => a.mem x != b.mem x
  | compl a, x => !a.mem x
  | folded a, x => a.mem x || (Unicode.variants x).any a.mem

/-- The class of one character. -/
def single (c : Char) : CharClass := ranges [(c.toNat, c.toNat)]

/-- The class without characters. -/
def none : CharClass := ranges []

/-- The class of all characters. -/
def all : CharClass := compl none

/-- A literal character, with its variants where case is ignored. -/
def literal (ignoreCase : Bool) (c : Char) : CharClass := if ignoreCase then alike c else single c

/-- The bytes that a compiled class takes, as counted for the limit on the size of a pattern. It is an estimate:
32 bytes for a state, and 4 or 8 for each way out of one that has several. The larger of the two automata made of
a pattern is the one that runs backwards; the classes of Unicode are counted in it. -/
def size : CharClass → Nat
  | ranges [(a, b)] => if a = b then 32 else 72
  | ranges rs => 64 + 8 * rs.length
  | alike c => if c.toNat < 128 then if c.isAlpha then 80 else 32 else 236
  | word => 49932
  | digit => 5116
  | blank => 680
  | union a b | inter a b | diff a b | symmDiff a b => a.size + b.size
  | compl a => 1024 + a.size
  | folded a => a.size

/-- The class of one character has that character alone. -/
theorem mem_single (c x : Char) : (single c).mem x = true ↔ x = c := by
  simp only [single, mem, Unicode.inRanges, List.any_cons, List.any_nil, Bool.or_false,
    Bool.and_eq_true, decide_eq_true_eq]
  constructor
  · rintro ⟨h1, h2⟩
    have : x.toNat = c.toNat := by omega
    exact Char.toNat_inj.mp this
  · rintro rfl
    simp

/-- The class without characters has none. -/
@[simp] theorem mem_none (x : Char) : none.mem x = false := by
  simp [none, mem, Unicode.inRanges]

/-- The class of all characters has each of them. -/
@[simp] theorem mem_all (x : Char) : all.mem x = true := by
  simp [all, mem]

end CharClass

end UrlFilter.Regex
