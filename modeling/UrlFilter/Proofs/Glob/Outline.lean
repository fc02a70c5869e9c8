import UrlFilter.Proofs.Glob.Language
import UrlFilter.Proofs.Text.Numeral

/-!
# Fragments by signs

A glob cut into spans, and its fragment written sign by sign. What the readers of regular expressions
make of a fragment is said of this form; that a fragment has it is `fragment_eq`.
-/

namespace UrlFilter.Glob

/-- A glob cut into spans. -/
structure Outline where
  /-- It matches from the start of the text only. -/
  anchored : Bool
  /-- The signs in front of the first asterisk. -/
  first : List Sign
  /-- The spans behind asterisks. -/
  rest : List (List Sign)
  rest_ne_nil : ∀ ss ∈ rest, ss ≠ []

/-! ## Writing -/

/-- The characters that are escaped, one by one. -/
theorem special_eq : special =
    ['\\', '.', '+', '*', '?', '(', ')', '[', ']', '\x7b', '\x7d', '$'] := by decide

/-- A character that is written with a backslash. -/
def isEscaped (c : Char) : Bool := c == '|' || c == '^' || special.contains c

/-- No digit is escaped. -/
theorem isEscaped_not_isDigit {c : Char} (h : isEscaped c = true) : c.isDigit = false := by
  rw [isEscaped, special_eq] at h
  simp only [Bool.or_eq_true, beq_iff_eq, List.contains_iff_mem, List.mem_cons, List.not_mem_nil,
    or_false] at h
  rcases h with (rfl | rfl) | rfl | rfl | rfl | rfl | rfl | rfl | rfl | rfl | rfl | rfl | rfl | rfl <;>
    rfl

/-- A character that is not escaped is none that means anything in a regular expression. -/
theorem isEscaped_eq_false {c : Char} (h : isEscaped c = false) :
    c ≠ '|' ∧ c ≠ '^' ∧ c ≠ '\\' ∧ c ≠ '.' ∧ c ≠ '+' ∧ c ≠ '*' ∧ c ≠ '?' ∧ c ≠ '(' ∧ c ≠ ')' ∧
      c ≠ '[' ∧ c ≠ ']' ∧ c ≠ '\x7b' ∧ c ≠ '\x7d' ∧ c ≠ '$' := by
  refine ⟨?_, ?_, ?_, ?_, ?_, ?_, ?_, ?_, ?_, ?_, ?_, ?_, ?_, ?_⟩ <;>
    · rintro rfl
      exact absurd h (by decide)

/-- The sign as a regular expression. -/
def Sign.text : Sign → Text
  | .literal c => if isEscaped c then ['\\', c] else [c]
  | .separator => Glob.separator
  | .textStart => ['^']
  | .textEnd => ['$']

/-- A separator, character by character. -/
theorem separator_eq : separator =
    ['(', '?', ':', '[', '^', '\\', 'w', '.', '%', '-', ']', '|', '$', ')'] := by decide

/-- The signs of a span as a regular expression. -/
def spanOf (ss : List Sign) : Text := ss.flatMap Sign.text

/-- What precedes a span behind an asterisk. -/
def starOpening : Text := "(?=([\\s\\S]*?".toList

/-- What follows such a span, up to the number of its group. -/
def starClosing : Text := "))\\".toList

/-- The opening of a wildcard, character by character. -/
theorem starOpening_eq : starOpening =
    ['(', '?', '=', '(', '[', '\\', 's', '\\', 'S', ']', '*', '?'] := by decide

/-- The closing of a wildcard, character by character. -/
theorem starClosing_eq : starClosing = [')', ')', '\\'] := by decide

/-- A span behind an asterisk, with the number of its group. -/
def starOf (n : Nat) (ss : List Sign) : Text :=
  starOpening ++ (spanOf ss ++ (starClosing ++ Text.ofNat n))

/-- The spans behind asterisks, numbered behind `used`. -/
def starsOf (used : Nat) : List (List Sign) → Text
  | [] => []
  | ss :: rest => starOf (used + 1) ss ++ starsOf (used + 1) rest

/-- Wildcards begin with no digit, nor does what follows when there are none. -/
theorem noDigitFirst_starsOf (used : Nat) (rest : List (List Sign)) {u : Text}
    (hu : Text.NoDigitFirst u) : Text.NoDigitFirst (starsOf used rest ++ u) := by
  cases rest with
  | nil => exact hu
  | cons ss rest => exact .cons rfl

/-- The fragment, its asterisks numbered behind `used`. -/
def Outline.text (o : Outline) (used : Nat) : Text :=
  (if o.anchored then ['^'] else []) ++ (spanOf o.first ++ starsOf used o.rest)

/-- What comes in front of the asterisks, the anchor among it. -/
def Outline.head (o : Outline) : List Sign := (if o.anchored then [.textStart] else []) ++ o.first

/-- An outline is written as its first span and its wildcards. -/
theorem Outline.text_eq (o : Outline) (used : Nat) : o.text used = spanOf o.head ++ starsOf used o.rest := by
  unfold Outline.text Outline.head
  cases o.anchored <;> simp [spanOf, Sign.text]

/-- The fragments of outlines one after the other, their asterisks numbered behind `used`. -/
def texts (used : Nat) : List Outline → List Text
  | [] => []
  | o :: os => o.text used :: texts (used + o.rest.length) os

/-! ## The outline of a pattern -/

/-- A character is written as its sign is. -/
theorem charText_eq (first last : Bool) (c : Char) :
    charText first last c = (signOf first last c).text := by
  unfold charText signOf
  by_cases hbar : c = '|'
  · subst hbar
    cases first
    · cases last
      · simp [Sign.text, isEscaped]
      · simp [Sign.text]
    · simp [Sign.text]
  · by_cases hcaret : c = '^'
    · subst hcaret
      simp [Sign.text]
    · simp [hbar, hcaret, Sign.text, isEscaped]

/-- A span is written as its signs are. -/
theorem spanText_eq (first last : Bool) (t : Text) :
    spanText first last t = spanOf (signs first last t) := by
  induction t generalizing first with
  | nil => rfl
  | cons c t ih => simp [spanText, signs, spanOf, charText_eq, ih]

/-- A wildcard is written as its signs are. -/
theorem starText_eq (n : Nat) (span : Text) (last : Bool) :
    starText n span last = starOf n (signs false last span) := by
  unfold starText starOf starOpening starClosing
  rw [spanText_eq, List.append_assoc, List.append_assoc]

/-- Wildcards are written as their signs are. -/
theorem starTexts_eq (used : Nat) (ss : List (Text × Bool)) :
    starTexts used ss = starsOf used (ss.map fun (s, last) => signs false last s) := by
  induction ss generalizing used with
  | nil => rfl
  | cons s ss ih => simp [starTexts, starsOf, starText_eq, ih]

/-- A span with characters has signs. -/
theorem signs_ne_nil {first last : Bool} {t : Text} (h : t ≠ []) : signs first last t ≠ [] := by
  cases t with
  | nil => exact absurd rfl h
  | cons c t => simp [signs]

/-- No span behind an asterisk is empty. -/
theorem laterSpans_ne_nil {ss : List Text} {s : Text × Bool} (h : s ∈ laterSpans ss) :
    s.1 ≠ [] := by
  induction ss with
  | nil => simp [laterSpans] at h
  | cons t ss ih =>
    unfold laterSpans at h
    by_cases ht : t.isEmpty
    · simp only [ht, if_true] at h
      exact ih h
    · simp only [ht, Bool.false_eq_true, if_false, List.mem_cons] at h
      rcases h with rfl | h
      · simpa using ht
      · exact ih h

/-- No span of an outline behind its first is empty. -/
theorem restSpans_ne_nil {pattern : Text} {ss : List Sign} (h : ss ∈ restSpans pattern) : ss ≠ [] := by
  obtain ⟨⟨s, last⟩, hs, rfl⟩ := List.mem_map.mp h
  exact signs_ne_nil (laterSpans_ne_nil hs)

/-- The outline of a pattern. -/
def outline (anchored : Bool) (pattern : Text) : Outline :=
  ⟨anchored, firstSpan pattern, restSpans pattern, fun _ h => restSpans_ne_nil h⟩

/-- A fragment is its outline, written. -/
theorem fragment_eq (anchored : Bool) (used : Nat) (pattern : Text) :
    fragment anchored used pattern = (outline anchored pattern).text used := by
  simp only [fragment, outline, Outline.text, firstSpan, restSpans]
  cases h : Text.parts '*' pattern with
  | nil => exact absurd h (Text.parts_ne_nil '*' pattern)
  | cons s ss =>
    simp only [spanText_eq, starTexts_eq]
    rfl

/-- An outline takes as many numbers as it has spans behind asterisks. -/
theorem starCount_eq (anchored : Bool) (pattern : Text) :
    starCount pattern = (outline anchored pattern).rest.length := by
  simp [starCount, outline, restSpans]

end UrlFilter.Glob
