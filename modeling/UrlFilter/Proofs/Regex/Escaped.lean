import UrlFilter.Proofs.Regex.Entries
import UrlFilter.Proofs.Regex.Position

/-!
# Escaped texts

An escaped text is read as its own characters, one after the other. So its pattern matches where the text occurs.
-/

namespace UrlFilter.Regex

open Reading (Leads)

/-- A sign behind a backslash is read as itself. -/
theorem next_sign {c : Char} (h : c ∈ signs) (u : Text) : Token.next false ('\\' :: c :: u) = some (.char c, u) := by
  have hall : signs.all fun c => escape? false [c] = some (.char c, []) ∧ (c ≠ 'x' ∧ c ≠ 'u' ∧ c ≠ 'U') ∧
      (c ≠ 'p' ∧ c ≠ 'P') ∧ c ≠ 'b' := by decide +kernel
  obtain ⟨hescape, hhex, hproperty, hboundary⟩ := of_decide_eq_true (List.all_eq_true.mp hall c h)
  rw [Token.next, escape?_cons_of_ne hhex hproperty hboundary, hescape]
  rfl

/-- A character that is no sign is read as itself. -/
theorem next_of_notMem_signs {c : Char} (h : c ∉ signs) (u : Text) : Token.next false (c :: u) = some (.char c, u) := by
  have hne {d : Char} (hd : d ∈ signs) : c = d → False := fun he => h (he ▸ hd)
  rw [Token.next]
  all_goals exact hne (by decide)

/-- What a character adds to a branch, where case counts. -/
def charPart (c : Char) : Part := .node (.one (.single c)) 0

/-- An escaped text leads to the characters of the text. -/
theorem leads_escape (t : Text) (parts : List Part) (u : Text) :
    (⟨{}, [], [], ⟨[], parts⟩⟩ : Reading).Leads (escape t ++ u)
      ⟨{}, [], [], ⟨[], (t.map charPart).reverse ++ parts⟩⟩ u := by
  induction t generalizing parts with
  | nil => exact .refl _ u
  | cons c t ih =>
    have hfirst : (⟨{}, [], [], ⟨[], parts⟩⟩ : Reading).Leads (escape (c :: t) ++ u)
        ⟨{}, [], [], ⟨[], charPart c :: parts⟩⟩ (escape t ++ u) := by
      by_cases hc : c ∈ signs
      · have htext : escape (c :: t) ++ u = '\\' :: c :: (escape t ++ u) := by simp [escape, hc]
        rw [htext]
        exact .sign rfl (next_sign hc _) rfl (Nat.lt_add_of_pos_right Nat.two_pos)
      · have htext : escape (c :: t) ++ u = c :: (escape t ++ u) := by simp [escape, hc]
        rw [htext]
        exact .sign rfl (next_of_notMem_signs hc _) rfl (Nat.lt_succ_self _)
    have hrest := hfirst.trans (ih (charPart c :: parts))
    simpa using hrest

/-- An escaped text is read as its characters. -/
theorem whole?_escape (t : Text) : whole? {} (escape t) = some ⟨{}, [], [], ⟨[], (t.map charPart).reverse⟩⟩ := by
  have hrun := leads_escape t [] []
  simp only [List.append_nil] at hrun
  rw [whole?, hrun.run_eq rfl]
  rfl

/-- An escaped text changes no modes. -/
theorem keeps_escape (t : Text) : Keeps {} (escape t) := by
  rw [Keeps, whole?_escape]
  rfl

/-- The characters of a text, one after the other. -/
def literally (t : Text) : Regex := seqAll (t.map fun c => one (.single c))

/-- The characters of a text are the pattern that finds it. -/
theorem finish_chars (t : Text) : (Choice.mk [] (t.map charPart).reverse).finish.1 = literally t := by
  simp only [Choice.finish, Choice.branch, List.reverse_reverse, literally]
  congr 1
  induction t with
  | nil => rfl
  | cons c t ih => simp [ih, charPart, Part.regex?]

/-- The pattern that finds a text ends behind the text. -/
theorem mem_ends_literally {t : Text} {p q : Cursor} :
    q ∈ ends (literally t) p ↔ p.after = t ++ q.after ∧ q.before = t.reverse ++ p.before := by
  induction t generalizing p with
  | nil => 
    obtain ⟨pb, pa⟩ := p
    obtain ⟨qb, qa⟩ := q
    simp [literally, seqAll, ends, eq_comm, and_comm]
  | cons c t ih =>
    have hcons : q ∈ ends (literally (c :: t)) p ↔ ∃ o ∈ ends (one (.single c)) p, q ∈ ends (literally t) o := by
      exact mem_ends_seqAll
    obtain ⟨pb, pa⟩ := p
    rw [hcons]
    simp only [ih]
    cases pa with
    | nil => simp [ends]
    | cons x pa =>
      by_cases hx : x = c
      · subst hx
        simp [ends, CharClass.mem_single]
      · simp [ends, CharClass.mem_single, hx]

/-- The characters of a text match where it occurs. -/
theorem isMatch_literally {t u : Text} : (literally t).isMatch u = true ↔ t <:+: u := by
  simp only [isMatch, List.any_eq_true, Bool.not_eq_true', List.isEmpty_eq_false_iff_exists_mem,
    mem_ends_literally, Cursor.mem_onwards]
  constructor
  · rintro ⟨p, ⟨w, hw, -⟩, q, hq, -⟩
    have hu : w ++ t ++ q.after = u := by
      rw [List.append_assoc, ← hq]
      exact hw.symm
    exact ⟨w, q.after, hu⟩
  · rintro ⟨w, v, rfl⟩
    refine ⟨⟨w.reverse, t ++ v⟩, ⟨w, ?_, ?_⟩, ⟨t.reverse ++ w.reverse, v⟩, rfl, rfl⟩
    · simp [Cursor.start]
    · simp [Cursor.start]

/-- An escaped text compiles to nothing but the pattern that finds it. -/
theorem eq_literally_of_compile? {limit : Nat} {t : Text} {r : Regex}
    (h : compile? false limit (escape t) = some r) : r = literally t := by
  have hparse : parse? {} (escape t) = some r := (Option.filter_eq_some_iff.mp h).1
  rw [parse?_eq, whole?_escape, Option.bind_some] at hparse
  obtain ⟨-, hr⟩ := Option.ite_none_right_eq_some.mp hparse
  exact (Option.some.inj hr).symm.trans (finish_chars t)

end UrlFilter.Regex
