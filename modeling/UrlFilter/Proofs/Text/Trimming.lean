import Mathlib.Data.List.DropRight
import UrlFilter.Text

/-!
# Blanks at the ends

What a text says behind its blanks, and in front of those at its end. Blanks that stand at the end are not seen
from the start, and a part that ends with some other character is found whether they are there or not. A
beginning of a text, without its outer blanks, is a beginning of the text without its outer blanks.
-/

namespace UrlFilter.Text

/-! ## Parts -/

/-- Something follows a text exactly when it is a beginning. -/
theorem isSome_after?_iff {p t : Text} : (after? p t).isSome = true ↔ p <+: t := by
  simp only [Option.isSome_iff_exists, after?_eq_some_iff]
  exact exists_congr fun r => eq_comm

/-- A text occurs in another exactly when it is a part of it. -/
theorem occursIn_iff {p t : Text} : occursIn p t = true ↔ p <:+: t := by
  induction t with
  | nil => simp [occursIn]
  | cons c t ih => rw [occursIn, Bool.or_eq_true, isSome_after?_iff, ih, List.infix_cons_iff]

/-! ## Blanks at the start -/

/-- What is behind the blanks at the start begins with another character. -/
theorem isBlank_of_trimStart {c : Char} {t rest : Text} (h : trimStart t = c :: rest) : isBlank c = false := by
  have hhead := List.head?_dropWhile_not isBlank t
  rw [← trimStart, h] at hhead
  exact hhead

/-- Blanks at the start are those of the first text, and go on in the second when the first is blank. -/
theorem trimStart_append (s t : Text) :
    trimStart (s ++ t) = if (trimStart s).isEmpty then trimStart t else trimStart s ++ t :=
  List.dropWhile_append

/-! ## Blanks at the end -/

/-- What is left by trimming at the end is a beginning. -/
theorem trimEnd_isPrefix (t : Text) : trimEnd t <+: t := List.rdropWhile_prefix isBlank t

/-- What is dropped at the end is that of the second text, and goes on in the first when nothing of the second is
left. -/
theorem dropEndWhile_append (p : Char → Bool) (s t : Text) : dropEndWhile p (s ++ t) =
    if (dropEndWhile p t).isEmpty then dropEndWhile p s else s ++ dropEndWhile p t := by
  simp only [dropEndWhile, List.reverse_append, List.dropWhile_append, List.isEmpty_reverse]
  split
  · rfl
  · rw [List.reverse_append, List.reverse_reverse]

/-- Nothing is dropped of a text that ends in another character. -/
theorem dropEndWhile_eq_self {c : Char} {t : Text} (hlast : t.getLast? ≠ some c) : dropEndWhile (· == c) t = t := by
  refine List.rdropWhile_eq_self_iff.mpr fun hne hmem => hlast ?_
  rw [List.getLast?_eq_some_getLast hne, beq_iff_eq.mp hmem]

/-- Nothing is trimmed where neither end is the character. -/
theorem trimChar_eq_self {c : Char} {t : Text} (hfirst : t.head? ≠ some c) (hlast : t.getLast? ≠ some c) :
    trimChar c t = t := by
  have hstart : t.dropWhile (· == c) = t := by
    refine List.dropWhile_eq_self_iff.mpr fun hpos hhead => hfirst ?_
    rw [List.head?_eq_getElem?, List.getElem?_eq_getElem hpos, beq_iff_eq.mp hhead]
  rw [trimChar, hstart, dropEndWhile_eq_self hlast]

/-- Blanks at the end are those of the second text, and go on in the first when the second is blank. -/
theorem trimEnd_append (s t : Text) :
    trimEnd (s ++ t) = if (trimEnd t).isEmpty then trimEnd s else s ++ trimEnd t :=
  dropEndWhile_append isBlank s t

/-- A text with another last character has no blanks at its end. -/
theorem trimEnd_concat {c : Char} (hc : isBlank c = false) (t : Text) : trimEnd (t ++ [c]) = t ++ [c] :=
  List.rdropWhile_concat_neg isBlank t c (by simp [hc])

/-- The first character stays where it is no blank. -/
theorem trimEnd_cons {c : Char} (hc : isBlank c = false) (t : Text) : trimEnd (c :: t) = c :: trimEnd t := by
  have hc' : trimEnd [c] = [c] := trimEnd_concat hc []
  rw [← List.singleton_append, trimEnd_append, hc']
  split
  · next h => rw [List.isEmpty_iff.mp h]
  · rfl

/-- A part whose last character is no blank is not touched by the blanks at the end. -/
theorem infix_trimEnd_iff {c : Char} (hc : isBlank c = false) {p t : Text} :
    p ++ [c] <:+: trimEnd t ↔ p ++ [c] <:+: t := by
  constructor
  · exact fun h => h.trans (trimEnd_isPrefix t).isInfix
  · rintro ⟨before, behind, rfl⟩
    rw [trimEnd_append, ← List.append_assoc, trimEnd_concat hc]
    split
    · exact ⟨before, [], by simp⟩
    · exact ⟨before, trimEnd behind, by simp⟩

/-- The first character that is no blank is the same without the blanks at the end. -/
theorem trimStart_trimEnd {c : Char} {t rest : Text} (h : trimStart t = c :: rest) :
    trimStart (trimEnd t) = c :: trimEnd rest := by
  have hc := isBlank_of_trimStart h
  have hblanks : trimStart (t.takeWhile isBlank) = [] :=
    List.dropWhile_eq_nil_iff.mpr fun d hd => List.mem_takeWhile_imp hd
  have hsplit : t.takeWhile isBlank ++ c :: rest = t := by
    rw [← h]
    exact List.takeWhile_append_dropWhile
  rw [← hsplit, trimEnd_append, trimEnd_cons hc]
  simp only [List.isEmpty_cons, Bool.false_eq_true, if_false, trimStart_append, hblanks, List.isEmpty_nil,
    if_true]
  simp [trimStart, hc]

/-! ## Blanks at both ends -/

/-- Blanks at the end do not matter where they are taken off anyway. -/
theorem trim_trimEnd (t : Text) : trim (trimEnd t) = trim t := by
  cases hstart : trimStart t with
  | nil =>
    have hblanks : trimEnd t = [] := List.rdropWhile_eq_nil_iff.mpr (List.dropWhile_eq_nil_iff.mp hstart)
    rw [hblanks, trim, trim, hstart]
    rfl
  | cons c rest =>
    rw [trim, trim, trimStart_trimEnd hstart, hstart, ← trimEnd_cons (isBlank_of_trimStart hstart)]
    exact List.rdropWhile_idempotent isBlank _

/-- A beginning stays one when the outer blanks are taken off. -/
theorem trim_prefix_append (s t : Text) : trim s <+: trim (s ++ t) := by
  unfold trim
  rw [trimStart_append]
  split
  · next h =>
    rw [List.isEmpty_iff.mp h]
    exact List.nil_prefix
  · rw [trimEnd_append]
    split
    · exact List.prefix_refl _
    · exact (trimEnd_isPrefix _).trans (List.prefix_append ..)

end UrlFilter.Text
