import UrlFilter.Text

/-!
# Exact sets

A set of texts that keeps the order in which they came.
-/

namespace UrlFilter

/-- Texts in the order of their first appearance, each once. -/
structure ExactSet where
  entries : List Text
  nodup : entries.Nodup := by simp
  deriving Repr, DecidableEq

namespace ExactSet

/-- The set without entries. -/
def empty : ExactSet := { entries := [] }

/-- The text is in the set. -/
def contains (s : ExactSet) (t : Text) : Bool := s.entries.contains t

/-- The set with one more entry, which comes last unless it is there already. -/
def insert (s : ExactSet) (t : Text) : ExactSet :=
  if h : t ∈ s.entries then s
  else ⟨s.entries ++ [t], by
    simp only [List.nodup_append, s.nodup, List.nodup_cons, List.not_mem_nil, not_false_eq_true,
      List.nodup_nil, and_self, List.mem_singleton, ne_eq, true_and]
    rintro a ha b rfl rfl
    exact h ha⟩

/-- The set of the texts of a list. -/
def ofList (ts : List Text) : ExactSet := ts.foldl insert empty

/-- The number of entries. -/
def size (s : ExactSet) : Nat := s.entries.length

/-- A set contains its entries. -/
@[simp] theorem contains_iff {s : ExactSet} {t : Text} : s.contains t = true ↔ t ∈ s.entries := by
  simp [contains]

/-- An insertion adds one text at most to the entries. -/
theorem mem_entries_insert {s : ExactSet} {t u : Text} :
    u ∈ (s.insert t).entries ↔ u ∈ s.entries ∨ u = t := by
  unfold insert
  split
  · constructor
    · exact Or.inl
    · rintro (h | rfl) <;> assumption
  · simp

end ExactSet

end UrlFilter
