import UrlFilter.Proofs.Glob.Alternation
import UrlFilter.Proofs.Text.Lower

/-!
# The letter case of matched texts

The signs of a glob do not see whether a text is lowered: literals match up to case, and whether a character
is a separator does not depend on its case. So lowering commutes with every step from one position to a
later one, and a glob matches a text exactly when it matches the text in lower case.
-/

namespace UrlFilter

open Regex (Cursor)

/-! ## Positions -/

/-- The position in the text in lower case. -/
def Regex.Cursor.lower (c : Cursor) : Cursor := ⟨Text.lower c.before, Text.lower c.after⟩

/-- The start of a text in lower case is the start in lower case. -/
theorem Regex.Cursor.start_lower (t : Text) : Cursor.start (Text.lower t) = (Cursor.start t).lower := rfl

/-- The positions from one on are the same in lower case. -/
theorem Regex.Cursor.onwards_lower (c : Cursor) : c.lower.onwards = c.onwards.map Cursor.lower := by
  obtain ⟨b, a⟩ := c
  induction a generalizing b with
  | nil => rfl
  | cons x a ih => exact congrArg (Cursor.lower ⟨b, x :: a⟩ :: ·) (ih (x :: b))

namespace Glob

/-! ## Signs and spans -/

/-- Lower case does not matter where case is ignored. -/
theorem sameFolded_toLower (x c : Char) : Unicode.sameFolded x.toLower c = Unicode.sameFolded x c :=
  Text.toLower_congr (f := fun x => Unicode.sameFolded x c) (fun n => by
    have hfold : Unicode.fold (Char.ofNat n).toLower = Unicode.fold (Char.ofNat n) := by
      revert n
      decide +kernel
    simp only [Unicode.sameFolded, hfold]) x

/-- A character separates in lower case when it does as it is. -/
theorem isSeparator_toLower (x : Char) : isSeparator x.toLower = isSeparator x :=
  Text.toLower_congr (f := isSeparator) (by decide +kernel) x

/-- A sign leads from the position in lower case to the position behind it in lower case. -/
theorem Sign.after?_lower (s : Sign) (c : Cursor) : s.after? c.lower = (s.after? c).map Cursor.lower := by
  obtain ⟨b, a⟩ := c
  cases s with
  | literal y =>
    cases a with
    | nil => rfl
    | cons x a =>
      simp only [Cursor.lower, Text.lower, List.map_cons, after?, sameFolded_toLower]
      split <;> rfl
  | separator =>
    cases a with
    | nil => rfl
    | cons x a =>
      simp only [Cursor.lower, Text.lower, List.map_cons, after?, isSeparator_toLower]
      split <;> rfl
  | textStart => cases b <;> rfl
  | textEnd => cases a <;> rfl

/-- A span ends at the same place in lower case. -/
theorem afterSpan?_lower (ss : List Sign) (c : Cursor) :
    afterSpan? ss c.lower = (afterSpan? ss c).map Cursor.lower := by
  induction ss generalizing c with
  | nil => rfl
  | cons s ss ih =>
    rw [afterSpan?, afterSpan?, s.after?_lower]
    cases s.after? c with
    | none => rfl
    | some d => exact ih d

/-- The nearest match of a span does not move. -/
theorem nearest?_lower (ss : List Sign) (c : Cursor) :
    nearest? ss c.lower = (nearest? ss c).map Cursor.lower := by
  unfold nearest?
  rw [Cursor.onwards_lower]
  induction c.onwards with
  | nil => rfl
  | cons d ds ih =>
    rw [List.map_cons, List.findSome?_cons, List.findSome?_cons, afterSpan?_lower]
    cases afterSpan? ss d with
    | none => exact ih
    | some e => rfl

/-- Spans one behind the other end at the same place in lower case. -/
theorem runSpans?_lower (sss : List (List Sign)) (c : Cursor) :
    runSpans? sss c.lower = (runSpans? sss c).map Cursor.lower := by
  induction sss generalizing c with
  | nil => rfl
  | cons ss sss ih =>
    rw [runSpans?, runSpans?, nearest?_lower]
    cases nearest? ss c with
    | none => rfl
    | some d => exact ih d

/-! ## Outlines -/

/-- A glob matches a text when it matches the text in lower case. -/
theorem Outline.isMatch_lower (o : Outline) (t : Text) : o.IsMatch (Text.lower t) ↔ o.IsMatch t := by
  have hruns (c : Cursor) : ((afterSpan? o.head c.lower).bind (runSpans? o.rest)).isSome =
      ((afterSpan? o.head c).bind (runSpans? o.rest)).isSome := by
    rw [afterSpan?_lower]
    cases afterSpan? o.head c with
    | none => rfl
    | some d => rw [Option.map_some, Option.bind_some, runSpans?_lower, Option.isSome_map, Option.bind_some]
  unfold IsMatch
  simp only [Cursor.start_lower, Cursor.onwards_lower, List.mem_map, exists_exists_and_eq_and, hruns]

/-- A glob matches a text in lower case when it matches the text. -/
theorem matches_lower {anchored : Bool} {pattern : Text} (t : Text) :
    Matches anchored pattern (Text.lower t) ↔ Matches anchored pattern t := by
  rw [← outline_isMatch_iff, ← outline_isMatch_iff, Outline.isMatch_lower]

end Glob

end UrlFilter
