/-!
# Text

A text is the list of its characters. Every rule of this library is stated on such lists; strings
appear only where text is read from or written to the outside. Lengths that are reported are counted
in UTF-8 bytes.
-/

namespace UrlFilter

/-- The zero that sums of numbers begin with. It is found before those of algebraic structures, so that a sum
is the same wherever it is written. -/
instance (priority := 2000) sumZero : Zero Nat := ⟨0⟩

/-- A text, as the list of its characters. -/
abbrev Text := List Char

namespace Text

/-- The number of bytes of the UTF-8 form. -/
def byteLength (t : Text) : Nat := (t.map Char.utf8Size).sum

/-- ASCII letters in lower case, every other character unchanged. -/
def lower (t : Text) : Text := t.map Char.toLower

/-- An ASCII capital letter. -/
def isUpperAscii (c : Char) : Bool := 'A' ≤ c && c ≤ 'Z'

/-- An ASCII letter or digit. -/
def isAsciiAlphanumeric (c : Char) : Bool := c.isAlphanum

/-- The two texts are equal up to the case of ASCII letters. -/
def sameIgnoringCase (s t : Text) : Bool := lower s == lower t

/-- The code points of the characters that separate words. -/
def blanks : List Nat :=
  [9, 10, 11, 12, 13, 32, 0x85, 0xA0, 0x1680, 0x2000, 0x2001, 0x2002, 0x2003, 0x2004, 0x2005, 0x2006,
    0x2007, 0x2008, 0x2009, 0x200A, 0x2028, 0x2029, 0x202F, 0x205F, 0x3000]

/-- A character of the Unicode property White_Space. -/
def isBlank (c : Char) : Bool := blanks.contains c.toNat

/-- The text without the characters at its end that satisfy the test. -/
def dropEndWhile (p : Char → Bool) (t : Text) : Text := (t.reverse.dropWhile p).reverse

/-- The text without blanks at its start. -/
def trimStart (t : Text) : Text := t.dropWhile isBlank

/-- The text without blanks at its end. -/
def trimEnd (t : Text) : Text := dropEndWhile isBlank t

/-- The text without blanks at either end. -/
def trim (t : Text) : Text := trimEnd (trimStart t)

/-- The text without the runs of one character at either end. -/
def trimChar (c : Char) (t : Text) : Text := dropEndWhile (· == c) (t.dropWhile (· == c))

/-- What follows `p` in `t`, when `t` starts with `p`. -/
def after? (p t : Text) : Option Text :=
  match p, t with
  | [], t => some t
  | _ :: _, [] => none
  | a :: p, b :: t => if a = b then after? p t else none

/-- What precedes `q` in `t`, when `t` ends with `q`. -/
def before? (q t : Text) : Option Text := (after? q.reverse t.reverse).map List.reverse

/-- The text without its last character, when that character satisfies the test. -/
def dropLastIf (p : Char → Bool) (t : Text) : Text :=
  match t.getLast? with
  | some c => if p c then t.dropLast else t
  | none => t

/-- The text `p` occurs in `t`. -/
def occursIn (p : Text) : Text → Bool
  | [] => p.isEmpty
  | c :: t => (after? p (c :: t)).isSome || occursIn p t

/-- The parts before and after the first `c`. -/
def splitFirst (c : Char) : Text → Option (Text × Text)
  | [] => none
  | d :: t => if d = c then some ([], t) else (splitFirst c t).map fun (a, b) => (d :: a, b)

/-- The parts before and after the last `c`. -/
def splitLast (c : Char) (t : Text) : Option (Text × Text) :=
  (splitFirst c t.reverse).map fun (a, b) => (b.reverse, a.reverse)

/-- The parts of a text between the separators `c`; a text without one is its only part. -/
def parts (c : Char) : Text → List Text
  | [] => [[]]
  | d :: t =>
    match parts c t with
    | [] => [[d]]
    | p :: ps => if d = c then [] :: p :: ps else (d :: p) :: ps

/-- Parts joined by a separator. -/
def join (sep : Text) : List Text → Text
  | [] => []
  | [t] => t
  | t :: ts => t ++ sep ++ join sep ts

/-- The lines of a text. A line ends at a line feed, or at a carriage return with a line feed; what
follows the last line feed is a line when it is not empty. -/
def lines (t : Text) : List Text :=
  let ps := parts '\n' t
  let ended := (ps.dropLast).map (dropLastIf (· == '\r'))
  match ps.getLast? with
  | some (c :: rest) => ended ++ [c :: rest]
  | _ => ended

/-- A decimal number, without leading zeros. -/
def ofNat (n : Nat) : Text := Nat.toDigits 10 n

/-- The value of a text of ASCII digits. -/
def digitsToNat (t : Text) : Nat := t.foldl (fun n c => 10 * n + (c.toNat - 48)) 0

/-- The value of a non-empty text of ASCII digits. -/
def toNat? (t : Text) : Option Nat :=
  if !t.isEmpty && t.all Char.isDigit then some (digitsToNat t) else none

/-- The value of a hexadecimal digit. -/
def hexDigit? (c : Char) : Option Nat :=
  if '0' ≤ c ∧ c ≤ '9' then some (c.toNat - 48)
  else if 'a' ≤ c ∧ c ≤ 'f' then some (c.toNat - 87)
  else if 'A' ≤ c ∧ c ≤ 'F' then some (c.toNat - 55)
  else none

/-- The value of a non-empty text of hexadecimal digits. -/
def hexToNat? (t : Text) : Option Nat :=
  if t.isEmpty then none
  else t.foldl (fun n c => n.bind fun n => (hexDigit? c).map (16 * n + ·)) (some 0)

/-- The character with this number, when there is one. -/
def charOfNat? (n : Nat) : Option Char := if n.isValidChar then some (Char.ofNat n) else none

/-! ## Laws -/

/-- The length of two texts in a row is the sum of their lengths. -/
theorem byteLength_append (s t : Text) : byteLength (s ++ t) = byteLength s + byteLength t := by
  simp [byteLength]

/-- A text that is put in front is taken off again. -/
theorem after?_append (p t : Text) : after? p (p ++ t) = some t := by
  induction p with
  | nil => simp [after?]
  | cons a p ih => simp [after?, ih]

/-- A text is its beginning and what follows it. -/
theorem eq_append_of_after? {p t r : Text} (h : after? p t = some r) : t = p ++ r := by
  fun_induction after? p t with
  | case1 => simpa using h
  | case2 => simp at h
  | case3 a p t ih => simp [ih h]
  | case4 => simp at h

/-- What follows a beginning is what completes it to the text. -/
theorem after?_eq_some_iff {p t r : Text} : after? p t = some r ↔ t = p ++ r :=
  ⟨eq_append_of_after?, fun h => h ▸ after?_append p r⟩

/-- What precedes an end is what the end completes to the text. -/
theorem before?_eq_some_iff {q t r : Text} : before? q t = some r ↔ t = r ++ q := by
  simp only [before?, Option.map_eq_some_iff, after?_eq_some_iff]
  constructor
  · rintro ⟨a, h, rfl⟩
    have := congrArg List.reverse h
    simpa using this
  · rintro rfl
    exact ⟨r.reverse, by simp, by simp⟩

/-- There is always a part. -/
theorem parts_ne_nil (c : Char) (t : Text) : parts c t ≠ [] := by
  cases t with
  | nil => simp [parts]
  | cons d t =>
    unfold parts
    cases parts c t with
    | nil => simp
    | cons p ps => by_cases h : d = c <;> simp [h]

/-- The parts joined again give the text back. -/
theorem join_parts (c : Char) (t : Text) : join [c] (parts c t) = t := by
  induction t with
  | nil => simp [parts, join]
  | cons d t ih =>
    have hne := parts_ne_nil c t
    unfold parts
    cases h : parts c t with
    | nil => exact absurd h hne
    | cons p ps =>
      rw [h] at ih
      by_cases hd : d = c
      · subst hd
        simp [join, ih]
      · cases ps with
        | nil => simp_all [join]
        | cons q qs => simp_all [join]

/-- A text without the separator is its only part. -/
theorem parts_of_notMem {c : Char} {t : Text} (h : c ∉ t) : parts c t = [t] := by
  induction t with
  | nil => rfl
  | cons d t ih =>
    simp only [List.mem_cons, not_or] at h
    rw [parts, ih h.2]
    simp [Ne.symm h.1]

/-- A text is its parts around the first mark. -/
theorem eq_append_of_splitFirst {c : Char} {t a b : Text} (h : splitFirst c t = some (a, b)) :
    t = a ++ c :: b := by
  induction t generalizing a b with
  | nil => simp [splitFirst] at h
  | cons d t ih =>
    unfold splitFirst at h
    split at h
    · next hd =>
      obtain ⟨rfl, rfl⟩ := Prod.mk.inj (Option.some.inj h)
      rw [hd, List.nil_append]
    · obtain ⟨⟨a', b'⟩, hsplit, heq⟩ := Option.map_eq_some_iff.mp h
      obtain ⟨rfl, rfl⟩ := Prod.mk.inj heq
      rw [ih hsplit, List.cons_append]

/-- A text is its parts around the last mark. -/
theorem eq_append_of_splitLast {c : Char} {t a b : Text} (h : splitLast c t = some (a, b)) :
    t = a ++ c :: b := by
  obtain ⟨⟨b', a'⟩, hsplit, heq⟩ := Option.map_eq_some_iff.mp h
  obtain ⟨rfl, rfl⟩ := Prod.mk.inj heq
  rw [← List.reverse_inj, eq_append_of_splitFirst hsplit]
  simp

end Text

end UrlFilter
