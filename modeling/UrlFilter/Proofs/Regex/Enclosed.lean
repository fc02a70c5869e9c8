import UrlFilter.Proofs.Regex.Reading

/-!
# Reading a pattern in a group

A pattern in a group of its own, read behind others: as long as no sign of it closes the group, it is read as
it is alone, or not at all when it gives a group a name that is taken.
-/

namespace UrlFilter.Regex

/-- The names given in front of a pattern, and the groups that are open around it. -/
structure Surroundings where
  names : List Text
  frames : List Frame

namespace Reading

/-- The reading of a pattern in other surroundings. -/
def within (s : Reading) (c : Surroundings) : Reading :=
  { s with names := s.names ++ c.names, frames := s.frames ++ c.frames }

variable {c : Surroundings} {s s' : Reading}

/-- A class that is read joins the same choice in other surroundings. -/
theorem cls_within (k : Option CharClass) : (s.within c).cls k = (s.cls k).map (·.within c) := by
  have hmodes : (s.within c).modes = s.modes := rfl
  simp only [cls, hmodes, Option.map_map]
  rfl

/-- A sign that neither closes a group nor gives a name stands in other surroundings when it does alone. -/
theorem feed_within_eq {token : Token} (hclose : token ≠ .close) (hname : ∀ n, token ≠ .openCapture (some n)) :
    (s.within c).feed token = (s.feed token).map (·.within c) := by
  have hmodes : (s.within c).modes = s.modes := rfl
  cases token with
  | char _ | caret | dollar | look _ | openModes _ | setModes _ | bar => rfl
  | any => exact cls_within _
  | shorthand _ _ => exact cls_within _
  | bracket e => exact cls_within _
  | property k negated =>
    simp only [feed, hmodes]
    split
    · exact cls_within _
    · rfl
  | openCapture name =>
    cases name with
    | none => rfl
    | some name => exact absurd rfl (hname name)
  | close => exact absurd rfl hclose
  | turns lo hi greedy =>
    have hparts : (s.within c).choice.parts = s.choice.parts := rfl
    simp only [feed, hparts]
    split <;> rfl

/-- A name is given once. -/
theorem feed_name_of_mem {n : Text} (h : n ∈ s.names) : s.feed (.openCapture (some n)) = none :=
  if_pos (List.contains_iff_mem.mpr h)

/-- A group with a new name is opened under that name. -/
theorem feed_name_of_notMem {n : Text} (h : n ∉ s.names) :
    s.feed (.openCapture (some n)) = some { s.enter [] with names := n :: s.names } :=
  if_neg fun hmem => h (List.contains_iff_mem.mp hmem)

/-- A sign is read in other surroundings as it is alone, unless it gives a name that is taken there. -/
theorem feed_within {token : Token} (h : s.feed token = some s') :
    (s.within c).feed token = some (s'.within c) ∨
      (s.within c).feed token = none ∧ ∃ n ∈ s'.names, n ∈ c.names := by
  -- The two signs that look at what is around: one closes a group, which is the pattern's own, and one gives a name.
  by_cases hclose : token = .close
  · subst hclose
    cases hframes : s.frames with
    | nil => simp [feed, hframes] at h
    | cons x frames =>
      have hframes' : (s.within c).frames = x :: (frames ++ c.frames) := by simp [within, hframes]
      simp only [feed, hframes, Option.some.injEq] at h
      subst h
      simp only [feed, hframes']
      exact Or.inl rfl
  · by_cases hname : ∃ n, token = .openCapture (some n)
    · obtain ⟨n, rfl⟩ := hname
      simp only [feed, Option.ite_none_left_eq_some, Option.some.injEq] at h
      obtain ⟨hnew, rfl⟩ := h
      by_cases htaken : n ∈ c.names
      · have hmem : n ∈ (s.within c).names := List.mem_append_right _ htaken
        exact Or.inr ⟨feed_name_of_mem hmem, n, List.mem_cons_self .., htaken⟩
      · have hmem : n ∉ (s.within c).names := by
          rw [List.contains_iff_mem] at hnew
          simp [within, hnew, htaken]
        exact Or.inl (feed_name_of_notMem hmem)
    · rw [feed_within_eq hclose fun n hn => hname ⟨n, hn⟩, h]
      exact Or.inl rfl

/-- A sign that cannot stand alone, unless it closes a group, cannot stand in other surroundings. -/
theorem feed_within_eq_none {token : Token} (hclose : token ≠ .close) (h : s.feed token = none) :
    (s.within c).feed token = none := by
  by_cases hname : ∃ n, token = .openCapture (some n)
  · obtain ⟨n, rfl⟩ := hname
    by_cases hmem : n ∈ s.names
    · exact feed_name_of_mem (List.mem_append_left _ hmem)
    · rw [feed_name_of_notMem hmem] at h
      simp at h
  · rw [feed_within_eq hclose fun n hn => hname ⟨n, hn⟩, h]
    rfl

/-- Only a group with a name adds to the names. -/
theorem feed_names_eq {token : Token} (hname : ∀ n, token ≠ .openCapture (some n)) (h : s.feed token = some s') :
    s'.names = s.names := by
  -- What stands for one character is added to the branch alone.
  have hcls {k : Option CharClass} (h : s.cls k = some s') : s'.names = s.names := by
    simp only [cls, Option.map_eq_some_iff] at h
    obtain ⟨_, -, rfl⟩ := h
    rfl
  cases token with
  | char _ | caret | dollar | look _ | openModes _ | setModes _ | bar =>
    simp only [feed, Option.some.injEq] at h
    exact h ▸ rfl
  | any => exact hcls h
  | shorthand _ _ => exact hcls h
  | bracket e => exact hcls h
  | property k negated =>
    simp only [feed, Option.ite_none_right_eq_some] at h
    exact hcls h.2
  | openCapture name =>
    cases name with
    | none =>
      simp only [feed, Option.some.injEq] at h
      exact h ▸ rfl
    | some name => exact absurd rfl (hname name)
  | close =>
    cases hframes : s.frames with
    | nil => simp [feed, hframes] at h
    | cons x frames =>
      simp only [feed, hframes, Option.some.injEq] at h
      exact h ▸ rfl
  | turns lo hi greedy =>
    simp only [feed] at h
    split at h
    · simp only [Option.some.injEq] at h
      exact h ▸ rfl
    · simp at h

/-- A sign adds no name but that of a group that it opens. -/
theorem feed_names {token : Token} (h : s.feed token = some s') :
    s'.names = s.names ∨ ∃ n, token = .openCapture (some n) ∧ s'.names = n :: s.names := by
  by_cases hname : ∃ n, token = .openCapture (some n)
  · obtain ⟨n, rfl⟩ := hname
    simp only [feed, Option.ite_none_left_eq_some, Option.some.injEq] at h
    exact .inr ⟨n, rfl, h.2 ▸ rfl⟩
  · exact .inl (feed_names_eq (fun n hn => hname ⟨n, hn⟩) h)

/-- No sign takes a name away. -/
theorem feed_names_subset {token : Token} (h : s.feed token = some s') : s.names ⊆ s'.names := by
  rcases feed_names h with hsame | ⟨n, -, hnew⟩
  · exact hsame ▸ List.Subset.refl _
  · exact hnew ▸ List.subset_cons_self _ _

/-- Reading on from a state and a text, inside of a group, comes to another state and the rest of the text.
Each sign takes some of the text. -/
inductive Inside : Reading → Text → Reading → Text → Prop where
  | refl (s : Reading) (t : Text) : Inside s t s t
  | step {s s₁ s' : Reading} {t t₁ u v : Text} {token : Token} (skipped : skip s.modes.spaced t = t₁)
    (next : Token.next s.modes.spaced t₁ = some (token, u)) (feed : s.feed token = some s₁)
    (shorter : u.length < t.length) (rest : Inside s₁ u s' v) : Inside s t s' v

/-- The next sign cannot be read, or cannot stand where it stands; it does not close a group. -/
def Stuck (s : Reading) (t : Text) : Prop :=
  skip s.modes.spaced t ≠ [] ∧
    ∀ token u, Token.next s.modes.spaced (skip s.modes.spaced t) = some (token, u) →
      token ≠ .close ∧ s.feed token = none

/-- Reading on takes no name away. -/
theorem Inside.names {t u : Text} (h : Inside s t s' u) : s.names ⊆ s'.names := by
  induction h with
  | refl s t => exact List.Subset.refl _
  | step _ _ hfeed _ _ ih => exact List.Subset.trans (feed_names_subset hfeed) ih

/-- What is read alone is read in other surroundings, or fails there for a name that is given twice. -/
theorem Inside.leads {t u : Text} (h : Inside s t s' u) :
    (s.within c).Leads t (s'.within c) u ∨ (s.within c).Fails t ∧ ∃ n ∈ s'.names, n ∈ c.names := by
  -- By induction on the signs. The names only grow, so that a name that clashes at one sign clashes in the end.
  induction h with
  | refl s t => exact Or.inl (.refl _ _)
  | @step s s₁ s' t t₁ u v token hskip hnext hfeed hlength hrest ih =>
    rcases feed_within (c := c) hfeed with hfirst | ⟨hnone, n, hn, htaken⟩
    · have hstep : (s.within c).Leads t (s₁.within c) u := .step hskip hnext hfirst hlength
      rcases ih with hrest | ⟨hfails, hclash⟩
      · exact Or.inl (hstep.trans hrest)
      · exact Or.inr ⟨hstep.fails hfails, hclash⟩
    · exact Or.inr ⟨.of_feed hskip hnext hnone, n, hrest.names hn, htaken⟩

/-- Where a name is taken that is given inside, the reading fails. -/
theorem Inside.fails {t u : Text} (h : Inside s t s' u) {n : Text} (hn : n ∈ s'.names) (hnew : n ∉ s.names)
    (htaken : n ∈ c.names) : (s.within c).Fails t := by
  induction h with
  | refl s t => exact absurd hn hnew
  | @step s s₁ s' t t₁ u v token hskip hnext hfeed hlength hrest ih =>
    by_cases hfirst : n ∈ s₁.names
    · -- The sign gives the name.
      rcases feed_names hfeed with hsame | ⟨k, rfl, hnames⟩
      · exact absurd (hsame ▸ hfirst) hnew
      · obtain rfl : n = k := (List.mem_cons.mp (hnames ▸ hfirst)).resolve_right hnew
        exact .of_feed hskip hnext (feed_name_of_mem (List.mem_append_right _ htaken))
    · rcases feed_within (c := c) hfeed with hread | ⟨hnone, -⟩
      · exact Leads.fails (.step hskip hnext hread hlength) (ih hn hfirst)
      · exact .of_feed hskip hnext hnone

/-- Where reading is stuck alone it fails in other surroundings. -/
theorem Stuck.fails {t : Text} (h : s.Stuck t) : (s.within c).Fails t := by
  cases hnext : Token.next s.modes.spaced (skip s.modes.spaced t) with
  | none => exact .of_next rfl h.1 hnext
  | some p =>
    obtain ⟨hclose, hnone⟩ := h.2 p.1 p.2 hnext
    exact .of_feed rfl hnext (feed_within_eq_none hclose hnone)

end Reading

end UrlFilter.Regex
