import UrlFilter.Regex.Cursor
import Mathlib.Data.List.Basic

/-!
# The order of positions

The positions that follow a position in its text, the position itself among them. A later position has
the same text, so that of two positions behind a third one is behind the other.
-/

namespace UrlFilter.Regex.Cursor

/-- A position behind another is a number of characters further. -/
theorem mem_onwards {c d : Cursor} :
    d ∈ c.onwards ↔ ∃ w, c.after = w ++ d.after ∧ d.before = w.reverse ++ c.before := by
  obtain ⟨cb, ca⟩ := c
  obtain ⟨db, da⟩ := d
  simp only [onwards]
  induction ca generalizing cb with
  | nil =>
    simp only [onwardsFrom, List.mem_singleton, mk.injEq, List.nil_eq, List.append_eq_nil_iff]
    constructor
    · rintro ⟨rfl, rfl⟩
      exact ⟨[], by simp⟩
    · rintro ⟨w, ⟨rfl, rfl⟩, rfl⟩
      simp
  | cons x rest ih =>
    simp only [onwardsFrom, List.mem_cons, mk.injEq, ih]
    constructor
    · rintro (⟨rfl, rfl⟩ | ⟨w, hw, rfl⟩)
      · exact ⟨[], by simp⟩
      · exact ⟨x :: w, by simp [hw]⟩
    · rintro ⟨w, hw, rfl⟩
      cases w with
      | nil => exact Or.inl ⟨by simp, by simpa using hw.symm⟩
      | cons y w =>
        simp only [List.cons_append, List.cons.injEq] at hw
        obtain ⟨rfl, hw⟩ := hw
        exact Or.inr ⟨w, hw, by simp⟩

/-- A position comes from itself on. -/
@[simp] theorem onwards_refl (c : Cursor) : c ∈ c.onwards :=
  mem_onwards.mpr ⟨[], by simp⟩

/-- What comes from a later position on comes from an earlier one on. -/
theorem onwards_trans {c d e : Cursor} (hd : d ∈ c.onwards) (he : e ∈ d.onwards) :
    e ∈ c.onwards := by
  obtain ⟨v, hv, hdb⟩ := mem_onwards.mp hd
  obtain ⟨w, hw, heb⟩ := mem_onwards.mp he
  exact mem_onwards.mpr ⟨v ++ w, by simp [hv, hw], by simp [heb, hdb]⟩

/-- The next position comes behind this one. -/
theorem forward_mem_onwards (b : Text) (x : Char) (a : Text) :
    (⟨x :: b, a⟩ : Cursor) ∈ (⟨b, x :: a⟩ : Cursor).onwards :=
  mem_onwards.mpr ⟨[x], by simp⟩

/-- A position behind another is that one, or behind the one that follows it. -/
theorem onwards_cons {b : Text} {x : Char} {a : Text} {d : Cursor}
    (h : d ∈ (⟨b, x :: a⟩ : Cursor).onwards) :
    d = ⟨b, x :: a⟩ ∨ d ∈ (⟨x :: b, a⟩ : Cursor).onwards := by
  simpa [onwards, onwardsFrom] using h

/-- The text is the same from every position in it. -/
theorem text_eq_of_onwards {c d : Cursor} (h : d ∈ c.onwards) : d.text = c.text := by
  obtain ⟨w, hw, hb⟩ := mem_onwards.mp h
  simp [text, hw, hb]

end UrlFilter.Regex.Cursor
