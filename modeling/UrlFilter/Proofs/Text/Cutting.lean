import UrlFilter.Proofs.Text.Trimming

/-!
# Cutting at a mark

Where a text is cut at the first or the last place of a mark, or at all of them, and what the pieces are made
of. The piece on the far side of the last mark has none, and this decides the cut (`splitLast_eq_some_iff`).
-/

namespace UrlFilter.Text

variable {c d : Char} {s t a b : Text}

/-! ## The first and the last mark -/

/-- A text is cut at the first mark, where none stands in front of it. -/
theorem splitFirst_append (h : d ∉ a) : splitFirst d (a ++ d :: b) = some (a, b) := by
  induction a with
  | nil => simp [splitFirst]
  | cons c a ih =>
    simp only [List.mem_cons, not_or] at h
    rw [List.cons_append, splitFirst, if_neg (Ne.symm h.1), ih h.2, Option.map_some]

/-- A text is not cut at a mark exactly when it has none. -/
theorem splitFirst_eq_none_iff : splitFirst d t = none ↔ d ∉ t := by
  induction t with
  | nil => simp [splitFirst]
  | cons c t ih =>
    rw [splitFirst]
    split
    · next hc => simp [hc]
    · next hc => simp [ih, Ne.symm hc]

/-- No mark is in front of the first one. -/
theorem notMem_of_splitFirst (h : splitFirst d t = some (a, b)) : d ∉ a := by
  induction t generalizing a with
  | nil => simp [splitFirst] at h
  | cons c t ih =>
    rw [splitFirst] at h
    split at h
    · obtain ⟨rfl, rfl⟩ := Prod.mk.inj (Option.some.inj h)
      exact List.not_mem_nil
    · next hc =>
      obtain ⟨⟨a', b'⟩, hsplit, heq⟩ := Option.map_eq_some_iff.mp h
      obtain ⟨rfl, rfl⟩ := Prod.mk.inj heq
      simp [Ne.symm hc, ih hsplit]

/-- A text is not cut at a last mark exactly when it has none. -/
theorem splitLast_eq_none_iff : splitLast d t = none ↔ d ∉ t := by
  rw [splitLast, Option.map_eq_none_iff, splitFirst_eq_none_iff, List.mem_reverse]

/-- A text is cut at its last mark exactly when no mark is behind it. -/
theorem splitLast_eq_some_iff : splitLast d t = some (a, b) ↔ t = a ++ d :: b ∧ d ∉ b := by
  constructor
  · intro h
    refine ⟨eq_append_of_splitLast h, ?_⟩
    obtain ⟨⟨b', a'⟩, hsplit, heq⟩ := Option.map_eq_some_iff.mp h
    obtain ⟨rfl, rfl⟩ := Prod.mk.inj heq
    simpa using notMem_of_splitFirst hsplit
  · rintro ⟨rfl, hb⟩
    have hreverse : (a ++ d :: b).reverse = b.reverse ++ d :: a.reverse := by simp
    rw [splitLast, hreverse, splitFirst_append (by simpa using hb)]
    simp

/-! ## The first character of a kind -/

section
variable {p : Char → Bool} (ha : ∀ c ∈ a, p c = true) (hb : ∀ c ∈ b.head?, p c = false)

include ha hb

/-- The beginning that satisfies a test stops at a mark that does not. -/
theorem takeWhile_append_mark : (a ++ b).takeWhile p = a := by
  rw [List.takeWhile_append_of_pos ha]
  cases b with
  | nil => simp
  | cons c b => simp [hb c rfl]

/-- The rest starts at a mark that does not satisfy the test. -/
theorem dropWhile_append_mark : (a ++ b).dropWhile p = b := by
  rw [List.dropWhile_append_of_pos ha]
  cases b with
  | nil => rfl
  | cons c b => simp [hb c rfl]

end

/-! ## All marks -/

/-- The parts have no mark. -/
theorem notMem_of_mem_parts {q : Text} (h : q ∈ parts d t) : d ∉ q := by
  induction t generalizing q with
  | nil =>
    rw [parts, List.mem_singleton] at h
    simp [h]
  | cons c t ih =>
    rw [parts] at h
    cases hparts : parts d t with
    | nil => exact absurd hparts (parts_ne_nil d t)
    | cons p ps =>
      simp only [hparts] at h ih
      split at h
      · rcases List.mem_cons.mp h with rfl | h
        · exact List.not_mem_nil
        · exact ih h
      · next hc =>
        rcases List.mem_cons.mp h with rfl | h
        · simp [Ne.symm hc, ih (List.mem_cons_self)]
        · exact ih (List.mem_cons_of_mem _ h)

/-- The part in front of the first mark is the first part. -/
theorem parts_append_mark (h : d ∉ s) : parts d (s ++ d :: t) = s :: parts d t := by
  induction s with
  | nil =>
    rw [List.nil_append, parts]
    cases hparts : parts d t with
    | nil => exact absurd hparts (parts_ne_nil d t)
    | cons p ps => simp
  | cons c s ih =>
    simp only [List.mem_cons, not_or] at h
    rw [List.cons_append, parts, ih h.2]
    simp [Ne.symm h.1]

/-- The parts of two texts around a mark are those of the first and those of the second. -/
theorem parts_append (c : Char) (s t : Text) : parts c (s ++ c :: t) = parts c s ++ parts c t := by
  induction s with
  | nil => exact parts_append_mark (List.not_mem_nil)
  | cons d s ih =>
    rw [List.cons_append, parts, parts, ih]
    cases hs : parts c s with
    | nil => exact absurd hs (parts_ne_nil c s)
    | cons q qs =>
      dsimp only [List.cons_append]
      split <;> rfl

/-- The parts behind the first one follow a mark each. -/
theorem eq_append_flatMap_of_parts {ss : List Text} (h : parts d t = s :: ss) :
    t = s ++ ss.flatMap (d :: ·) := by
  have hjoin (s : Text) (ss : List Text) : join [d] (s :: ss) = s ++ ss.flatMap (d :: ·) := by
    induction ss generalizing s with
    | nil => simp [join]
    | cons s' ss ih => simp [join, ih]
  rw [← hjoin, ← h, join_parts]

/-- A character other than the mark is in one of the parts. -/
theorem exists_mem_parts (hmem : c ∈ t) (hc : c ≠ d) : ∃ q ∈ parts d t, c ∈ q := by
  cases hparts : parts d t with
  | nil => exact absurd hparts (parts_ne_nil d t)
  | cons s ss =>
    rw [eq_append_flatMap_of_parts hparts, List.mem_append, List.mem_flatMap] at hmem
    rcases hmem with hmem | ⟨q, hq, hmem⟩
    · exact ⟨s, List.mem_cons_self, hmem⟩
    · exact ⟨q, List.mem_cons_of_mem s hq, (List.mem_cons.mp hmem).resolve_left hc⟩

/-! ## The last character -/

/-- A last character of the kind is dropped, and any other one stays. -/
theorem dropLastIf_concat {p : Char → Bool} : dropLastIf p (t ++ [c]) = if p c then t else t ++ [c] := by
  simp [dropLastIf]

/-- Nothing is dropped, or a character at the end that satisfies the test. -/
theorem dropLastIf_eq_or (p : Char → Bool) (t : Text) :
    dropLastIf p t = t ∨ ∃ c, p c = true ∧ dropLastIf p t ++ [c] = t := by
  rcases List.eq_nil_or_concat t with rfl | ⟨t, c, rfl⟩
  · exact .inl rfl
  · rw [List.concat_eq_append, dropLastIf_concat]
    cases hc : p c with
    | true => exact .inr ⟨c, hc, rfl⟩
    | false => exact .inl rfl

end UrlFilter.Text
