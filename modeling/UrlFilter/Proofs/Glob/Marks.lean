import UrlFilter.Proofs.Alternation.Structure
import UrlFilter.Proofs.Glob.Outline

/-!
# The structure of fragments

The marks of a fragment, read off its outline. From them follows what splitting and renumbering make
of fragments: every fragment is one branch of a joined text, it asks for backtracking when it has a span
behind an asterisk, it opens one group for each such span, and lowering its references gives the
fragment with lower numbers.
-/

namespace UrlFilter.Glob

open Alternation

/-! ## Marks by signs -/

/-- The marks of a sign. -/
def Sign.marks : Sign → List Mark
  | .literal c => if isEscaped c then [.escaped c] else [.plain c]
  | .separator =>
    [.opening .other, .plain '?', .plain ':', .plain '[', .plain '^', .plain '\\', .plain 'w',
      .plain '.', .plain '%', .plain '-', .plain ']', .bar, .plain '$', .closing]
  | .textStart => [.plain '^']
  | .textEnd => [.plain '$']

/-- The marks of the signs of a span. -/
def spanMarks (ss : List Sign) : List Mark := ss.flatMap Sign.marks

/-- The marks in front of a span behind an asterisk. -/
def starOpeningMarks : List Mark :=
  [.opening .backtracking, .plain '?', .plain '=', .opening .capturing, .plain '[', .plain '\\',
    .plain 's', .plain '\\', .plain 'S', .plain ']', .plain '*', .plain '?']

/-- The marks of a span behind an asterisk. -/
def starMarks (n : Nat) (ss : List Sign) : List Mark :=
  starOpeningMarks ++ (spanMarks ss ++ [.closing, .closing, .reference (Text.ofNat n)])

/-- The marks of the spans behind asterisks. -/
def starsMarks (used : Nat) : List (List Sign) → List Mark
  | [] => []
  | ss :: rest => starMarks (used + 1) ss ++ starsMarks (used + 1) rest

/-- The marks of a fragment. -/
def Outline.marks (o : Outline) (used : Nat) : List Mark :=
  (if o.anchored then [.plain '^'] else []) ++ (spanMarks o.first ++ starsMarks used o.rest)

/-! ## Reading them off the text -/

/-- A character that is escaped has one mark with its backslash. -/
theorem marks_escaped {c : Char} (h : isEscaped c = true) (u : Text) :
    Mark.ofText false ('\\' :: c :: u) = .escaped c :: Mark.ofText false u := by
  simp [Mark.ofText, Mark.escape, isEscaped_not_isDigit h]

/-- A character that is not escaped has a mark of its own. -/
theorem marks_plain {c : Char} (h : isEscaped c = false) (u : Text) :
    Mark.ofText false (c :: u) = .plain c :: Mark.ofText false u := by
  obtain ⟨hbar, -, hback, -, -, -, -, hopen, hclose, hbracket, -⟩ := isEscaped_eq_false h
  rw [Mark.ofText] <;> simp_all

/-- A sign has its marks, whatever follows. -/
theorem Sign.marks_append (s : Sign) (u : Text) :
    Mark.ofText false (s.text ++ u) = s.marks ++ Mark.ofText false u := by
  cases s with
  | literal c =>
    by_cases h : isEscaped c
    · simp [text, marks, h, marks_escaped h]
    · simp only [Bool.not_eq_true] at h
      simp [text, marks, h, marks_plain h]
  | separator => rfl
  | textStart => rfl
  | textEnd => rfl

/-- A span has the marks of its signs, whatever follows. -/
theorem spanMarks_append (ss : List Sign) (u : Text) :
    Mark.ofText false (spanOf ss ++ u) = spanMarks ss ++ Mark.ofText false u := by
  induction ss with
  | nil => rfl
  | cons s ss ih =>
    simp only [spanOf, spanMarks, List.flatMap_cons, List.append_assoc] at ih ⊢
    rw [Sign.marks_append, ih]

/-- Digits are plain marks, and a reference that begins in front of them takes them all. -/
theorem takeDigits_digits {ds : Text} (hds : ∀ c ∈ ds, c.isDigit = true) {ms : List Mark}
    (hms : Mark.takeDigits ms = ([], ms)) :
    Mark.takeDigits (ds.map .plain ++ ms) = (ds, ms) := by
  induction ds with
  | nil => exact hms
  | cons c ds ih =>
    have hc := hds c (by simp)
    simp [Mark.takeDigits, hc, ih fun d hd => hds d (by simp [hd])]

/-- Digits have marks of their own. -/
theorem marks_digits {ds : Text} (hds : ∀ c ∈ ds, c.isDigit = true) (u : Text) :
    Mark.ofText false (ds ++ u) = ds.map .plain ++ Mark.ofText false u := by
  induction ds with
  | nil => rfl
  | cons c ds ih =>
    have hc : isEscaped c = false := by
      by_contra h
      have hd := isEscaped_not_isDigit (Bool.not_eq_false _ ▸ h)
      exact absurd (hds c (by simp)) (by simp [hd])
    rw [List.cons_append, marks_plain hc, ih fun d hd => hds d (by simp [hd])]
    rfl

/-- What begins with no digit has no digits to take. -/
theorem takeDigits_eq_nil {ms : List Mark} (h : ∀ d ms', ms = .plain d :: ms' → d.isDigit = false) :
    Mark.takeDigits ms = ([], ms) := by
  fun_cases Mark.takeDigits ms
  case case1 c ms hc _ _ _ => simp [h c ms rfl] at hc
  all_goals rfl

/-- An escape is no plain mark. -/
theorem escape_ne_plain (c d : Char) (ms ms' : List Mark) : Mark.escape c ms ≠ .plain d :: ms' := by
  unfold Mark.escape
  split <;> simp

/-- A text whose marks begin with a plain one begins with its character. -/
theorem head?_of_marks {u : Text} {d : Char} {ms : List Mark} :
    Mark.ofText false u = .plain d :: ms → u.head? = some d := by
  fun_cases Mark.ofText false u
  case case4 c t _ => exact fun h => absurd h (escape_ne_plain c d _ ms)
  all_goals
    intro h
    cases h <;> rfl

/-- No reference goes on into a text that does not begin with a digit. -/
theorem takeDigits_marks {u : Text} (hu : Text.NoDigitFirst u) :
    Mark.takeDigits (Mark.ofText false u) = ([], Mark.ofText false u) :=
  takeDigits_eq_nil fun d _ h => hu d (head?_of_marks h)

/-- The mark of a reference. -/
theorem marks_reference {n : Nat} (hn : 0 < n) {u : Text} (hu : Text.NoDigitFirst u) :
    Mark.ofText false ('\\' :: (Text.ofNat n ++ u)) =
      .reference (Text.ofNat n) :: Mark.ofText false u := by
  obtain ⟨c, ds, hcs, h0⟩ := Text.head_ofNat hn
  have hall : ∀ d ∈ c :: ds, d.isDigit = true := fun d hd => Text.isDigit_of_mem_ofNat (hcs ▸ hd)
  have hc := hall c (by simp)
  have hds : ∀ d ∈ ds, d.isDigit = true := fun d hd => hall d (by simp [hd])
  rw [hcs, List.cons_append, Mark.ofText]
  simp [Mark.escape, hc, h0, marks_digits hds, takeDigits_digits hds (takeDigits_marks hu)]

/-- A wildcard has its marks, where no digit follows on its reference. -/
theorem starMarks_append {n : Nat} (hn : 0 < n) (ss : List Sign) {u : Text}
    (hu : Text.NoDigitFirst u) :
    Mark.ofText false (starOf n ss ++ u) = starMarks n ss ++ Mark.ofText false u := by
  have hopen (t : Text) : Mark.ofText false (starOpening ++ t) =
      starOpeningMarks ++ Mark.ofText false t := rfl
  have hclose (t : Text) : Mark.ofText false (starClosing ++ t) =
      .closing :: .closing :: Mark.ofText false ('\\' :: t) := rfl
  unfold starOf starMarks
  rw [List.append_assoc, List.append_assoc, List.append_assoc, hopen, spanMarks_append, hclose,
    marks_reference hn hu]
  simp

/-- The wildcards of an outline have their marks, where no digit follows on the last reference. -/
theorem starsMarks_append (used : Nat) (rest : List (List Sign)) {u : Text}
    (hu : Text.NoDigitFirst u) :
    Mark.ofText false (starsOf used rest ++ u) = starsMarks used rest ++ Mark.ofText false u := by
  induction rest generalizing used with
  | nil => rfl
  | cons ss rest ih =>
    rw [starsOf, List.append_assoc, starMarks_append (by omega) ss (noDigitFirst_starsOf _ rest hu), ih]
    simp [starsMarks]

/-- The marks of a fragment are those of its outline, whatever follows but a digit. -/
theorem Outline.marks_append (o : Outline) (used : Nat) {u : Text} (hu : Text.NoDigitFirst u) :
    Mark.ofText false (o.text used ++ u) = o.marks used ++ Mark.ofText false u := by
  have hcaret (t : Text) : Mark.ofText false ('^' :: t) = .plain '^' :: Mark.ofText false t := rfl
  unfold Outline.text Outline.marks
  rw [List.append_assoc, List.append_assoc]
  cases o.anchored
  · simp [spanMarks_append, starsMarks_append used o.rest hu]
  · simp [hcaret, spanMarks_append, starsMarks_append used o.rest hu]

/-- The text of an outline has the marks of the outline. -/
theorem Outline.marks_text (o : Outline) (used : Nat) :
    Alternation.marks (o.text used) = o.marks used := by
  have h := o.marks_append used Text.NoDigitFirst.nil
  simpa [Alternation.marks, Mark.ofText] using h

/-! ## What follows from the marks -/

/-- A walk through a sign stays at its depth. -/
theorem Sign.through_marks (depth : Nat) (s : Sign) : through depth s.marks = some depth := by
  cases s with
  | literal c => by_cases h : isEscaped c <;> simp [marks, h, through]
  | separator => simp [marks, through]
  | textStart => rfl
  | textEnd => rfl

/-- A walk through a span stays at its depth. -/
theorem through_spanMarks (depth : Nat) (ss : List Sign) :
    through depth (spanMarks ss) = some depth := by
  induction ss with
  | nil => rfl
  | cons s ss ih => rw [spanMarks, List.flatMap_cons, through_append (s.through_marks depth)]; exact ih

/-- A walk through a wildcard stays at its depth. -/
theorem through_starMarks (depth n : Nat) (ss : List Sign) :
    through depth (starMarks n ss) = some depth := by
  have hopen : through depth starOpeningMarks = some (depth + 2) := by
    simp [starOpeningMarks, through]
  rw [starMarks, through_append hopen, through_append (through_spanMarks _ ss)]
  simp [through]

/-- A walk through wildcards stays at its depth. -/
theorem through_starsMarks (depth used : Nat) (rest : List (List Sign)) :
    through depth (starsMarks used rest) = some depth := by
  induction rest generalizing used with
  | nil => rfl
  | cons ss rest ih => rw [starsMarks, through_append (through_starMarks depth _ ss), ih]

/-- A fragment is a branch wherever it stands. -/
theorem Outline.isBranch (o : Outline) (used : Nat) : IsBranch (o.text used) where
  marks_append u := by
    have hbar : Mark.ofText false ('|' :: u) = .bar :: Alternation.marks u := by
      rw [Mark.ofText] <;> simp [Alternation.marks]
    rw [o.marks_text, Alternation.marks, o.marks_append used (.cons rfl), hbar]
  through_marks := by
    have hanchor : through 0 (if o.anchored then [.plain '^'] else []) = some 0 := by
      cases o.anchored <;> rfl
    rw [o.marks_text, Outline.marks, through_append hanchor,
      through_append (through_spanMarks 0 o.first), through_starsMarks]

/-! ## The fragments of a bucket -/

/-- Every pattern gives one fragment. -/
theorem length_ofRules (c : Category) (used : Nat) (patterns : List Text) :
    (ofRules c used patterns).length = patterns.length := by
  induction patterns generalizing used with
  | nil => rfl
  | cons p ps ih => simp [ofRules, ih]

/-- The fragments of globs are outlines, written. -/
theorem exists_outline_of_mem_ofRules {c : Category} (hc : c ≠ .rawPattern) {used : Nat}
    {patterns : List Text} {f : Text} (h : f ∈ ofRules c used patterns) :
    ∃ (o : Outline) (n : Nat), f = o.text n := by
  induction patterns generalizing used with
  | nil => simp [ofRules] at h
  | cons p ps ih =>
    rcases List.mem_cons.mp h with rfl | h
    · refine ⟨outline c.isAnchored p, used, ?_⟩
      rw [← fragment_eq]
      cases c <;> first | rfl | exact absurd rfl hc
    · exact ih h

/-- The fragment of a glob is one branch. -/
theorem isBranch_of_mem_ofRules {c : Category} (hc : c ≠ .rawPattern) {used : Nat}
    {patterns : List Text} {f : Text} (h : f ∈ ofRules c used patterns) : IsBranch f := by
  obtain ⟨o, n, rfl⟩ := exists_outline_of_mem_ofRules hc h
  exact o.isBranch n

end UrlFilter.Glob
