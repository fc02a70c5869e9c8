import UrlFilter.Text

/-!
# The structure of a joined pattern

What can be told of a pattern without reading it in full: its groups, its branches and the groups it
refers to by number. A pattern is a sequence of marks, and the marks written out give it back; classes
in brackets hold no structure.
-/

namespace UrlFilter.Alternation

/-- What an opening parenthesis begins. -/
inductive GroupKind where
  | capturing
  /-- A group that only backtracking can match: a condition on what lies around, an atomic group, or a
  choice that depends on a group. -/
  | backtracking
  | other
  deriving Repr, DecidableEq

/-- A part of a pattern. -/
inductive Mark where
  /-- A character without structure of its own. -/
  | plain (c : Char)
  /-- A backslash and the character behind it. -/
  | escaped (c : Char)
  /-- A backslash and a number that does not start with zero. -/
  | reference (digits : Text)
  | opening (k : GroupKind)
  | closing
  | bar
  deriving Repr, DecidableEq

/-- What the text behind an opening parenthesis makes of it. -/
def GroupKind.of : Text → GroupKind
  | '?' :: '=' :: _ => backtracking
  | '?' :: '!' :: _ => backtracking
  | '?' :: '<' :: '=' :: _ => backtracking
  | '?' :: '<' :: '!' :: _ => backtracking
  | '?' :: '>' :: _ => backtracking
  | '?' :: '(' :: _ => backtracking
  | '?' :: 'P' :: '<' :: _ => capturing
  | '?' :: '<' :: _ => capturing
  | '?' :: _ => other
  | _ => capturing

namespace Mark

/-- The mark as it is written. -/
def text : Mark → Text
  | plain c => [c]
  | escaped c => ['\\', c]
  | reference digits => '\\' :: digits
  | opening _ => ['(']
  | closing => [')']
  | bar => ['|']

/-- The digits at the start of a sequence of marks, and the marks behind them. -/
def takeDigits : List Mark → Text × List Mark
  | plain c :: ms =>
    if c.isDigit then
      let (ds, rest) := takeDigits ms
      (c :: ds, rest)
    else ([], plain c :: ms)
  | ms => ([], ms)

/-- The marks with an escape in front of them; a digit but zero begins a reference. -/
def escape (c : Char) (ms : List Mark) : List Mark :=
  if c.isDigit && c != '0' then
    let (ds, rest) := takeDigits ms
    reference (c :: ds) :: rest
  else escaped c :: ms

/-- The marks of a text. A bracket opens a class, which runs up to the first closing bracket that
neither a backslash precedes nor stands first. -/
def ofText (inClass : Bool) : Text → List Mark
  | [] => []
  | ['\\'] => [plain '\\']
  | '\\' :: c :: t =>
    if inClass then plain '\\' :: plain c :: ofText true t else escape c (ofText false t)
  | '[' :: '^' :: ']' :: t =>
    if inClass then plain '[' :: plain '^' :: plain ']' :: ofText false t
    else plain '[' :: plain '^' :: plain ']' :: ofText true t
  | '[' :: '^' :: t => plain '[' :: plain '^' :: ofText true t
  | '[' :: ']' :: t =>
    if inClass then plain '[' :: plain ']' :: ofText false t
    else plain '[' :: plain ']' :: ofText true t
  | '[' :: t => plain '[' :: ofText true t
  | c :: t =>
    if inClass then plain c :: ofText (c != ']') t
    else if c = '(' then opening (.of t) :: ofText false t
    else if c = ')' then closing :: ofText false t
    else if c = '|' then bar :: ofText false t
    else plain c :: ofText false t

/-- The text of a sequence of marks. -/
def write (ms : List Mark) : Text := ms.flatMap text

end Mark

/-- The marks of a pattern. -/
def marks (pattern : Text) : List Mark := Mark.ofText false pattern

/-! ## Branches -/

/-- The branches of a sequence of marks inside `depth` groups. -/
def branchesFrom (depth : Nat) : List Mark → List (List Mark)
  | [] => [[]]
  | m :: ms =>
    let inner := match m with
      | .opening _ => depth + 1
      | .closing => depth - 1
      | _ => depth
    let rest := branchesFrom inner ms
    if m = .bar ∧ depth = 0 then [] :: rest
    else
      match rest with
      | [] => [[m]]
      | b :: bs => (m :: b) :: bs

/-- The branches of a pattern: its parts between the bars outside of groups. -/
def branches (pattern : Text) : List Text := (branchesFrom 0 (marks pattern)).map Mark.write

/-! ## Groups and references -/

/-- The number of capturing groups that a pattern opens. -/
def groupCount (pattern : Text) : Nat := (marks pattern).countP (· == .opening .capturing)

/-- The mark asks for backtracking: a reference, by number or by name, or a group of that kind. -/
def Mark.backtracks : Mark → Bool
  | reference _ => true
  | escaped c => c == 'k'
  | opening k => k == .backtracking
  | _ => false

/-- The pattern asks for backtracking. -/
def backtracks (pattern : Text) : Bool := (marks pattern).any Mark.backtracks

/-- The numbers that a reference can have. -/
def referenceLimit : Nat := UInt64.size

/-- The mark with the number of a reference lowered, to zero at least. -/
def Mark.lower (shift : Nat) : Mark → Mark
  | reference digits =>
    let n := Text.digitsToNat digits
    if n < referenceLimit then reference (Text.ofNat (n - shift)) else reference digits
  | m => m

/-- The pattern with all references lowered by a number. -/
def lowerReferences (n : Nat) (pattern : Text) : Text :=
  if n = 0 then pattern else Mark.write ((marks pattern).map (Mark.lower n))

/-! ## Laws -/

namespace Mark

/-- The digits in front and the rest make up what the marks stand for. -/
theorem write_takeDigits (ms : List Mark) :
    (takeDigits ms).1 ++ write (takeDigits ms).2 = write ms := by
  induction ms with
  | nil => simp [takeDigits, write]
  | cons m ms ih =>
    cases m <;> simp only [takeDigits, List.nil_append]
    split
    · simpa [write, text] using ih
    · simp

/-- An escape is written as a backslash and its character. -/
theorem write_escape (c : Char) (ms : List Mark) :
    write (escape c ms) = '\\' :: c :: write ms := by
  unfold escape
  split
  · have h := write_takeDigits ms
    simp only [write] at h ⊢
    simp [text, h]
  · simp [write, text]

/-- The marks of a text written out give the text back. -/
theorem write_ofText (inClass : Bool) (t : Text) : write (ofText inClass t) = t := by
  have h := write_escape
  simp only [write] at h ⊢
  fun_induction ofText inClass t <;> simp_all [text]

end Mark

/-- Writing the marks of a pattern gives the pattern back. -/
theorem write_marks (pattern : Text) : Mark.write (marks pattern) = pattern :=
  Mark.write_ofText false pattern

/-- Without references, a pattern stays as it is when they are lowered. -/
theorem lowerReferences_eq_self {pattern : Text} (h : ∀ digits, .reference digits ∉ marks pattern) (n : Nat) :
    lowerReferences n pattern = pattern := by
  rw [lowerReferences]
  split
  · rfl
  · have hsame : ∀ m ∈ marks pattern, Mark.lower n m = id m := by
      intro m hm
      cases m with
      | reference digits => exact absurd hm (h digits)
      | _ => rfl
    rw [List.map_congr_left hsame, List.map_id, write_marks]

/-- Marks always have a branch, be it an empty one. -/
theorem branchesFrom_ne_nil (depth : Nat) (ms : List Mark) : branchesFrom depth ms ≠ [] := by
  cases ms with
  | nil => simp [branchesFrom]
  | cons m ms =>
    simp only [branchesFrom]
    split
    · simp
    · split <;> simp

end UrlFilter.Alternation
