import UrlFilter.Bucket

/-!
# Globs

The patterns of rules as fragments of a regular expression. An asterisk stands for any run of
characters, a caret for a separator or the end, a bar at either end for that end of the text. A run is
matched by a look ahead that finds the nearest place where the following span matches, and by a reference
that takes the run up to the end of that span; each asterisk has its own number, counted over all
fragments of a bucket.
-/

namespace UrlFilter.Glob

/-- What a caret stands for: a character that is no word character, dot, percent sign or hyphen, or the
end of the text. -/
def separator : Text := "(?:[^\\w.%-]|$)".toList

/-- The characters that mean something else in a regular expression. -/
def special : Text := "\\.+*?()[]\x7b\x7d$".toList

/-- A character of a span; `first` and `last` tell its place in the whole pattern. -/
def charText (first last : Bool) (c : Char) : Text :=
  if c = '|' then
    if first then ['^'] else if last then ['$'] else ['\\', '|']
  else if c = '^' then separator
  else if special.contains c then ['\\', c]
  else [c]

/-- A span, which starts or ends the whole pattern or not. -/
def spanText (first last : Bool) : Text → Text
  | [] => []
  | c :: t => charText first (last && t.isEmpty) c ++ spanText false last t

/-- The spans behind the asterisks of a pattern that are not empty, each with whether it ends the
pattern. -/
def laterSpans : List Text → List (Text × Bool)
  | [] => []
  | s :: ss => if s.isEmpty then laterSpans ss else (s, ss.isEmpty) :: laterSpans ss

/-- A span behind an asterisk, with the number of its group. -/
def starText (n : Nat) (span : Text) (last : Bool) : Text :=
  "(?=([\\s\\S]*?".toList ++ spanText false last span ++ "))\\".toList ++ Text.ofNat n

/-- The spans behind asterisks, numbered behind `used`. -/
def starTexts (used : Nat) : List (Text × Bool) → Text
  | [] => []
  | (s, last) :: ss => starText (used + 1) s last ++ starTexts (used + 1) ss

/-- The fragment of a pattern, its asterisks numbered behind `used`. An anchored one matches from the
start of the text only. -/
def fragment (anchored : Bool) (used : Nat) (pattern : Text) : Text :=
  (if anchored then ['^'] else []) ++
    match Text.parts '*' pattern with
    | [] => []
    | s :: ss => spanText true ss.isEmpty s ++ starTexts used (laterSpans ss)

/-- The number of asterisks that the fragment of a pattern numbers. -/
def starCount (pattern : Text) : Nat := (laterSpans (Text.parts '*' pattern).tail).length

/-- A regular expression as a fragment. -/
def rawFragment (raw : Text) : Text := "(?:".toList ++ raw ++ [')']

/-- The number of asterisks of a rule that its fragment numbers. -/
def wildcards (c : Category) (pattern : Text) : Nat :=
  match c with
  | .rawPattern => 0
  | _ => starCount pattern

/-- The fragment of a rule of a category. -/
def ofRule (c : Category) (used : Nat) (pattern : Text) : Text :=
  match c with
  | .rawPattern => rawFragment pattern
  | c => fragment c.isAnchored used pattern

/-- The fragments of the rules of a bucket. -/
def ofRules (c : Category) (used : Nat) : List Text → List Text
  | [] => []
  | p :: ps => ofRule c used p :: ofRules c (used + wildcards c p) ps

/-- The number of asterisks that the rules of a bucket number. -/
def totalWildcards (c : Category) (patterns : List Text) : Nat := (patterns.map (wildcards c)).sum

/-- The number of asterisks of a rule that stand before something else than an asterisk or the end, as
they are told without making its fragment. -/
def stars (c : Category) (pattern : Text) : Nat :=
  match c with
  | .rawPattern => 0
  | _ => (Text.parts '*' pattern).tail.countP (!·.isEmpty)

/-! ## Laws -/

/-- A raw pattern is enclosed in a group of its own. -/
theorem rawFragment_append (raw u : Text) :
    rawFragment raw ++ u = '(' :: '?' :: ':' :: (raw ++ ')' :: u) := by
  rw [rawFragment, show "(?:".toList = ['(', '?', ':'] by decide]
  simp

end UrlFilter.Glob
