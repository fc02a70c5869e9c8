import UrlFilter.Proofs.Regex.Position
import UrlFilter.Proofs.Regex.Repetition
import UrlFilter.Regex.Basic

/-!
# Where matches end

The ends of the matches of composed patterns. The order of the ends matters only where the first of them
is asked for: behind a sequence, it is the first end of the first part from which the others match.
-/

namespace UrlFilter

/-! ## Lists without repetition -/

/-- A repeated element changes nothing for the first result of a function. -/
theorem findSome?_eraseDups {α β : Type} [BEq α] [LawfulBEq α] (f : α → Option β) (as : List α) :
    as.eraseDups.findSome? f = as.findSome? f := by
  induction h : as.length using Nat.strongRecOn generalizing as with
  | _ n ih =>
    cases as with
    | nil => rfl
    | cons a as =>
      rw [List.eraseDups_cons, List.findSome?_cons, List.findSome?_cons]
      cases hfa : f a with
      | some b => rfl
      | none =>
        have hlength := List.length_filter_le (fun b => !b == a) as
        simp only [List.length_cons] at h
        simp only
        rw [ih _ (by omega) _ rfl]
        -- what was left out gives no result either
        clear ih h hlength
        induction as with
        | nil => rfl
        | cons b as ih =>
          by_cases hb : b = a
          · simp [hb, hfa, ih]
          · rw [List.filter_cons_of_pos (by simpa using hb), List.findSome?_cons, List.findSome?_cons, ih]

/-- What is found first in lists one behind the other is found first in the first list that has it. -/
theorem findSome?_flatMap {α β γ : Type} (f : β → Option γ) (g : α → List β) (as : List α) :
    (as.flatMap g).findSome? f = as.findSome? fun a => (g a).findSome? f := by
  induction as with
  | nil => rfl
  | cons a as ih =>
    rw [List.flatMap_cons, List.findSome?_append, ih, List.findSome?_cons]
    cases (g a).findSome? f <;> rfl

namespace Regex

/-! ## Sequences and choices -/

/-- A sequence ends where its second part does behind an end of the first. -/
theorem mem_ends_seq {a b : Regex} {c e : Cursor} :
    e ∈ ends (seq a b) c ↔ ∃ d ∈ ends a c, e ∈ ends b d := by
  simp [ends, List.mem_eraseDups]

/-- A choice ends where one of its parts does. -/
theorem mem_ends_alt {a b : Regex} {c e : Cursor} :
    e ∈ ends (alt a b) c ↔ e ∈ ends a c ∨ e ∈ ends b c := by
  simp [ends, List.mem_eraseDups]

/-- A choice ends where one of its branches does. -/
theorem mem_ends_altAll {rs : List Regex} {c e : Cursor} :
    e ∈ ends (altAll rs) c ↔ ∃ r ∈ rs, e ∈ ends r c := by
  cases rs with
  | nil => cases h : c.after <;> simp [altAll, ends, h]
  | cons r rs =>
    have hfold (rs : List Regex) (r : Regex) :
        e ∈ ends (rs.foldl alt r) c ↔ e ∈ ends r c ∨ ∃ r' ∈ rs, e ∈ ends r' c := by
      induction rs generalizing r with
      | nil => simp
      | cons r' rs ih => simp [ih, mem_ends_alt, or_assoc]
    simp [altAll, hfold]

/-- A choice matches somewhere when one of its branches does. -/
theorem isMatch_altAll {rs : List Regex} {t : Text} :
    (altAll rs).isMatch t = true ↔ ∃ r ∈ rs, r.isMatch t = true := by
  simp only [isMatch, List.any_eq_true, Bool.not_eq_true', List.isEmpty_eq_false_iff_exists_mem,
    mem_ends_altAll]
  constructor
  · rintro ⟨s, hs, e, r, hr, he⟩
    exact ⟨r, hr, s, hs, e, he⟩
  · rintro ⟨r, hr, s, hs, e, he⟩
    exact ⟨s, hs, e, r, hr, he⟩

/-- A sequence matches when its first part does and, from where that ends, the others. -/
theorem mem_ends_seqAll {r : Regex} {rs : List Regex} {c e : Cursor} :
    e ∈ ends (seqAll (r :: rs)) c ↔ ∃ d ∈ ends r c, e ∈ ends (seqAll rs) d := by
  have hfold (rs : List Regex) (r : Regex) (c : Cursor) :
      e ∈ ends (rs.foldl seq r) c ↔ ∃ d ∈ ends r c, e ∈ ends (seqAll rs) d := by
    induction rs generalizing r c with
    | nil => simp [seqAll, ends]
    | cons r' rs ih =>
      rw [List.foldl_cons, ih, seqAll]
      simp only [mem_ends_seq, ih]
      constructor
      · rintro ⟨d, ⟨d', hd', hd⟩, he⟩
        exact ⟨d', hd', d, hd, he⟩
      · rintro ⟨d', hd', d, hd, he⟩
        exact ⟨d, ⟨d', hd', hd⟩, he⟩
  exact hfold rs r c

/-- A sequence in two halves leads where the second half leads from an end of the first one. -/
theorem mem_ends_seqAll_append {as bs : List Regex} {c e : Cursor} :
    e ∈ ends (seqAll (as ++ bs)) c ↔ ∃ d ∈ ends (seqAll as) c, e ∈ ends (seqAll bs) d := by
  induction as generalizing c with
  | nil => simp [seqAll, ends]
  | cons a as ih =>
    simp only [List.cons_append, mem_ends_seqAll, ih]
    constructor
    · rintro ⟨d, hd, d', hd', he⟩
      exact ⟨d', ⟨d, hd, hd'⟩, he⟩
    · rintro ⟨d', ⟨d, hd, hd'⟩, he⟩
      exact ⟨d, hd, d', hd', he⟩

/-- Where one part of a sequence matches as one of several does, so does the sequence. -/
theorem mem_ends_seqAll_of_part {r : Regex} {rs : List Regex}
    (hr : ∀ p q, q ∈ ends r p ↔ ∃ r' ∈ rs, q ∈ ends r' p) (as bs : List Regex) (p q : Cursor) :
    q ∈ ends (seqAll (as ++ r :: bs)) p ↔ ∃ r' ∈ rs, q ∈ ends (seqAll (as ++ r' :: bs)) p := by
  induction as generalizing p with
  | nil =>
    simp only [List.nil_append, mem_ends_seqAll, hr]
    constructor
    · rintro ⟨o, ⟨r', hr', ho⟩, hq⟩
      exact ⟨r', hr', o, ho, hq⟩
    · rintro ⟨r', hr', o, ho, hq⟩
      exact ⟨o, ⟨r', hr', ho⟩, hq⟩
  | cons a as ih =>
    simp only [List.cons_append, mem_ends_seqAll, ih]
    constructor
    · rintro ⟨o, ho, r', hr', hq⟩
      exact ⟨r', hr', o, ho, hq⟩
    · rintro ⟨r', hr', o, ho, hq⟩
      exact ⟨o, ho, r', hr', hq⟩

/-! ## Repetitions -/

/-- The positions behind a position are one more than the characters behind it. -/
theorem length_onwards (c : Cursor) : c.onwards.length = c.after.length + 1 := by
  obtain ⟨b, a⟩ := c
  induction a generalizing b with
  | nil => rfl
  | cons x a ih =>
    simp only [Cursor.onwards] at ih
    simp [Cursor.onwards, Cursor.onwardsFrom, ih]

/-- Steps of a pattern do not go back. -/
theorem onwards_of_steps {r : Regex} (hr : ∀ {c e : Cursor}, e ∈ ends r c → e ∈ c.onwards) {n : Nat}
    {c e : Cursor} (h : Turns.Steps (ends r) n c e) : e ∈ c.onwards := by
  induction n generalizing c with
  | zero => exact h ▸ Cursor.onwards_refl c
  | succ n ih =>
    obtain ⟨d, hd, h⟩ := h
    exact Cursor.onwards_trans (hr hd) (ih h)

/-- A repetition ends where enough turns and not too many do. -/
theorem mem_ends_turns_of_onwards {r : Regex} (hr : ∀ {c e : Cursor}, e ∈ ends r c → e ∈ c.onwards)
    {lo : Nat} {hi : Option Nat} {greedy : Bool} {c e : Cursor} :
    e ∈ ends (turns r lo hi greedy) c ↔
      ∃ m, hi.all (fun h => decide (m ≤ h - lo)) = true ∧ Turns.Steps (ends r) (lo + m) c e := by
  have hclosed : ∀ x ∈ c.onwards, ends r x ⊆ c.onwards := fun x hx y hy =>
    Cursor.onwards_trans hx (hr hy)
  exact Turns.mem_reached hclosed (Cursor.onwards_refl c) (Nat.le_of_eq (length_onwards c))

/-- A match ends at its start or behind it. -/
theorem onwards_of_mem_ends {r : Regex} {c e : Cursor} (h : e ∈ ends r c) : e ∈ c.onwards := by
  induction r generalizing c e with
  | empty => exact List.mem_singleton.mp h ▸ Cursor.onwards_refl c
  | one s =>
    obtain ⟨b, a⟩ := c
    cases a with
    | nil => simp [ends] at h
    | cons x a =>
      simp only [ends] at h
      split at h
      · exact List.mem_singleton.mp h ▸ Cursor.forward_mem_onwards b x a
      · simp at h
  | look l =>
    simp only [ends] at h
    split at h
    · exact List.mem_singleton.mp h ▸ Cursor.onwards_refl c
    · simp at h
  | seq a b iha ihb =>
    obtain ⟨d, hd, he⟩ := mem_ends_seq.mp h
    exact Cursor.onwards_trans (iha hd) (ihb he)
  | alt a b iha ihb => exact (mem_ends_alt.mp h).elim iha ihb
  | turns r lo hi greedy ih =>
    -- What a repetition reaches is known only where each turn goes onwards, which is the induction hypothesis.
    obtain ⟨m, -, hm⟩ := (mem_ends_turns_of_onwards ih).mp h
    exact onwards_of_steps ih hm

/-- A repetition matches as the turns in its bounds do. -/
theorem mem_ends_turns {r : Regex} {lo : Nat} {hi : Option Nat} {greedy : Bool} {c e : Cursor} :
    e ∈ ends (turns r lo hi greedy) c ↔
      ∃ m, hi.all (fun h => decide (m ≤ h - lo)) = true ∧ Turns.Steps (ends r) (lo + m) c e :=
  mem_ends_turns_of_onwards onwards_of_mem_ends

/-! ## Any run of characters -/

/-- A repetition of any character reaches all positions behind, the nearest one first. -/
theorem explore_any {s : CharClass} (hs : ∀ x, s.mem x = true) {n : Nat} {c : Cursor}
    {w : Turns.Walk Cursor} (hn : c.after.length < n)
    (hentered : ∀ d ∈ w.entered, c.after.length < d.after.length)
    (hreached : ∀ d ∈ w.reached, c.after.length ≤ d.after.length) :
    (Turns.explore (ends (one s)) false n c w).reached = c.onwards.tail.reverse ++ w.reached := by
  -- By induction on the characters behind the position: the walk goes through them one by one, and is at each
  -- position for the first time, for all it has been at are in front of it.
  obtain ⟨b, a⟩ := c
  induction a generalizing n b w with
  | nil =>
    cases n with
    | zero => simp at hn
    | succ n =>
      have hnew : (⟨b, []⟩ : Cursor) ∉ w.entered := fun hmem => by simpa using hentered _ hmem
      simp [Turns.explore, hnew, ends, Cursor.onwards, Cursor.onwardsFrom]
  | cons x a ih =>
    cases n with
    | zero => simp at hn
    | succ n =>
      have hnew : (⟨b, x :: a⟩ : Cursor) ∉ w.entered := fun hmem => by simpa using hentered _ hmem
      have hnext : (⟨x :: b, a⟩ : Cursor) ∉ w.reached := fun hmem => by
        have := hreached _ hmem
        simp only [List.length_cons] at this
        omega
      have hstep : ends (one s) ⟨b, x :: a⟩ = [⟨x :: b, a⟩] := by simp [ends, hs]
      rw [Turns.explore, if_neg hnew, hstep]
      simp only [List.foldl_cons, List.foldl_nil, Bool.false_eq_true, if_false, Turns.Walk.reach,
        if_neg hnext]
      rw [ih]
      · have htail : (⟨b, x :: a⟩ : Cursor).onwards.tail =
            ⟨x :: b, a⟩ :: (⟨x :: b, a⟩ : Cursor).onwards.tail := by
          cases a <;> rfl
        simp [htail]
      · simpa using hn
      · intro d hd
        rcases List.mem_cons.mp hd with rfl | hd
        · simp
        · have := hentered d hd
          simp only [List.length_cons] at this ⊢
          omega
      · intro d hd
        rcases List.mem_cons.mp hd with rfl | hd
        · simp
        · have := hreached d hd
          simp only [List.length_cons] at this ⊢
          omega

/-- A run of any characters, the shortest one first, ends at each position that follows. -/
theorem findSome?_ends_any {β : Type} {s : CharClass} (hs : ∀ x, s.mem x = true) (c : Cursor)
    (f : Cursor → Option β) :
    (ends (turns (one s) 0 none false) c).findSome? f = c.onwards.findSome? f := by
  have hexplore := explore_any hs (n := c.after.length + 1) (c := c) (w := ⟨[], [c]⟩) (by simp) (by simp)
    (by simp)
  have hclosure : Turns.closure (ends (one s)) false (c.after.length + 1) c = c.onwards := by
    rw [Turns.closure, if_neg (by simp), hexplore]
    cases h : c.onwards with
    | nil => exact absurd (h ▸ Cursor.onwards_refl c) (by simp)
    | cons d ds =>
      obtain ⟨b, a⟩ := c
      have hd : d = ⟨b, a⟩ := by
        cases a <;> simp_all [Cursor.onwards, Cursor.onwardsFrom]
      simp [hd]
  have hends : ends (turns (one s) 0 none false) c =
      ([c].flatMap (Turns.closure (ends (one s)) false (c.after.length + 1))).eraseDups := rfl
  rw [hends, findSome?_eraseDups, List.flatMap_cons, List.flatMap_nil, List.append_nil, hclosure]

/-! ## Sizes -/

/-- The size of a sequence is that of its parts. -/
theorem size_foldl_seq (rs : List Regex) (r : Regex) :
    (rs.foldl seq r).size = r.size + (rs.map size).sum := by
  induction rs generalizing r with
  | nil => simp
  | cons r' rs ih => simp [ih, size, Nat.add_assoc]

/-- The size of a sequence of a list is that of its patterns. -/
theorem size_seqAll (rs : List Regex) : (seqAll rs).size = (rs.map size).sum := by
  cases rs with
  | nil => rfl
  | cons r rs => simp [seqAll, size_foldl_seq]

/-- The size of a choice is that of its branches and of a state between each two. -/
theorem size_altAll (r : Regex) (rs : List Regex) :
    (altAll (r :: rs)).size = r.size + (rs.map fun r' => 32 + r'.size).sum := by
  simp only [altAll]
  induction rs generalizing r with
  | nil => simp
  | cons r' rs ih =>
    simp only [List.foldl_cons, ih, size, List.map_cons, List.sum_cons]
    omega

/-- A choice has the size of its branches and of the signs between them. -/
theorem size_altAll_add {rs : List Regex} (hne : rs ≠ []) :
    32 + (altAll rs).size = (rs.map fun r => 32 + r.size).sum := by
  cases rs with
  | nil => exact absurd rfl hne
  | cons r rs =>
    rw [size_altAll, List.map_cons, List.sum_cons]
    omega

end Regex

end UrlFilter
