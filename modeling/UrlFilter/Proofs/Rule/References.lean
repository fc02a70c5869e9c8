import UrlFilter.Proofs.Alternation.Expressions
import UrlFilter.Proofs.Backtrack.Mentions
import UrlFilter.Proofs.Backtrack.Pairs
import Mathlib.Data.List.Infix

/-!
# References in regular expressions

A regular expression that refers to its groups is no rule. The look for references (`hasReference`) takes each
backslash with the character behind it, and knows a reference by that character. The reader of regular expressions
takes more for a reference (`hidesReference`): a number that starts with zero, a name in parentheses and a condition
on a group. A rule refers to no group but in these ways.
-/

namespace UrlFilter

open Backtrack (InStep Mention Token skip spacing)

/-- The text starts as a reference does that is not looked for. -/
def hidesReference : Text → Bool
  | '\\' :: c :: _ => c == '0'
  | t => Token.startsReference t

variable {raw t u : Text}

/-! ## Looking for references -/

/-- Characters that are left off in step leave no reference that was not there. -/
theorem hasReference_of_inStep (h : InStep t u) (ht : hasReference t = false) : hasReference u = false := by
  induction h with
  | refl => exact ht
  | char hc _ ih => exact ih (by rwa [Alternation.hasReference_cons hc] at ht)
  | pair c _ ih =>
    rw [hasReference, Bool.or_eq_false_iff] at ht
    exact ih ht.2
  | all => rfl

/-- What starts as a reference is found or hidden. -/
theorem hidesReference_of_starts (h : Token.startsReference t = true) (ht : hasReference t = false) :
    hidesReference t = true := by
  unfold hidesReference
  split
  next c r =>
    simp only [hasReference, Bool.or_eq_false_iff, Bool.and_eq_false_iff, bne_eq_false_iff_eq] at ht
    simp only [Token.startsReference, ht.1.2, Bool.or_false] at h
    exact beq_iff_eq.mpr (ht.1.1.resolve_left (by simp [h]))
  next => exact h

namespace Backtrack

variable {size n : Nat} {s s' : Reading}

namespace Reading

/-- A sign that refers to no group adds none to those mentioned. -/
theorem group_notMem_mentionsOf {token : Token} (hrefers : token.refers = false) (k : Nat) :
    .group k ∉ s.mentionsOf token := by
  cases token with
  | openCondition asked => cases asked <;> simp [Token.refers, mentionsOf] at hrefers ⊢
  | _ => simp [Token.refers, mentionsOf] at hrefers ⊢

/-- Without a reference that is found or hidden no group is referred to, as long as no property has a backslash for
its name. -/
theorem mentions_run (h : run size n s t = some s') (hfound : hasReference t = false)
    (hhidden : ∀ u, u <:+ t → hidesReference u = false) :
    (∃ source ∈ Token.bareProperties, .set source ∈ s'.mentions) ∨
      ∀ k, .group k ∈ s'.mentions → .group k ∈ s.mentions := by
  -- By induction on the signs. The text is free of what opens a reference, so that a sign mentions a group only
  -- if it is a class whose text would hide one.
  induction n generalizing s t with
  | zero => cases h
  | succ n ih =>
    simp only [run, Option.bind_eq_some_iff] at h
    obtain ⟨r, hskip, h⟩ := h
    have hr : InStep t r := inStep_of_skip hskip
    have hfound' := hasReference_of_inStep hr hfound
    split at h
    · cases h
      exact .inr fun k hk => hk
    · simp only [Option.bind_eq_some_iff] at h
      obtain ⟨⟨token, r'⟩, hnext, s₁, hfeed, hrest⟩ := h
      rcases Token.next_cases hnext with hstarts | ⟨hrefers, hstep | ⟨source, hsource, rfl⟩⟩
      · have hhides := hidesReference_of_starts hstarts hfound'
        rw [hhidden r hr.suffix] at hhides
        cases hhides
      · refine (ih hrest (hasReference_of_inStep hstep hfound') fun u hu =>
          hhidden u (hu.trans (hstep.suffix.trans hr.suffix))).imp_right fun hgroups k hk => ?_
        exact ((mem_mentions_feed hfeed).mp (hgroups k hk)).resolve_left (group_notMem_mentionsOf hrefers k)
      · exact .inl ⟨source, hsource,
          mentions_subset_run hrest ((mem_mentions_feed hfeed).mpr (.inl (List.mem_singleton_self _)))⟩

end Reading

/-- No property has a backslash for its name. -/
theorem parse?_bareProperties (folds : Bool) :
    ∀ source ∈ Token.bareProperties, Regex.parse? { ignoreCase := folds } source = none := by
  cases folds <;> decide +kernel

/-! ## The group around an expression -/

/-- Spacing leaves of a text with a parenthesis behind it what it leaves of the text alone, unless it takes the
parenthesis. -/
theorem spacing_append_close {spaced : Bool} {k : Spacing} (h : spacing spaced k (t ++ [')']) = some u) :
    u = [] ∨ ∃ v, u = v ++ [')'] ∧ spacing spaced k t = some v := by
  -- The parenthesis is left over, unless it closes the comment that the text ends in.
  fun_induction spacing spaced k t with
  | case1 =>
    have hclose : spacing spaced .none [')'] = some [')'] := by simp [spacing]
    rw [List.nil_append, hclose, Option.some.injEq] at h
    exact .inr ⟨[], h.symm, rfl⟩
  | case2 | case3 =>
    left
    simpa [spacing, eq_comm] using h
  | case4 => simp [spacing] at h
  | case5 c r ih | case6 c r ih | case7 c r ih => exact ih h
  | case8 c r hc ih =>
    rw [List.cons_append, spacing.eq_def] at h
    simp only [hc, if_true] at h
    exact ih h
  | case9 c r hc hblank ih =>
    rw [List.cons_append, spacing.eq_def] at h
    simp only [hc, hblank, if_true, Bool.false_eq_true, if_false] at h
    exact ih h
  | case10 r hc hblank ih => exact ih (by simpa [spacing] using h)
  | case11 c r hc hblank hcomment =>
    have hcomment' : ∀ r', c = '(' → r ++ [')'] = '?' :: '#' :: r' → False := by
      intro r' hc hr
      rcases r with _ | ⟨d, _ | ⟨d', r⟩⟩
      · simp at hr
      · simp at hr
      · simp only [List.cons_append, List.cons.injEq] at hr
        exact hcomment r hc (by rw [hr.1, hr.2.1])
    rw [List.cons_append, spacing, if_neg hc, if_neg hblank, Option.some.injEq] at h
    · exact .inr ⟨c :: r, h.symm, rfl⟩
    · exact hcomment'

namespace Token

/-- A reference that starts in front of a closing parenthesis does so without it. -/
theorem opensReference_of_append (h : opensReference (t ++ [')']) = true) : opensReference t = true := by
  have hpeel {d : Char} {l v : Text} (hd : d ≠ ')') (h : d :: l = v ++ [')']) :
      ∃ v', v = d :: v' ∧ l = v' ++ [')'] := by
    rcases List.cons_eq_append_iff.mp h with ⟨-, h⟩ | h
    · cases h
      exact absurd rfl hd
    · exact h
  -- What opens a reference has no closing parenthesis, so that it ends in front of the last one.
  simp only [opensReference, List.any_eq_true] at h
  obtain ⟨spaced, -, h⟩ := h
  split at h
  next r hskip =>
    rcases spacing_append_close hskip with hnil | ⟨v, hv, hskip⟩
    · cases hnil
    · obtain ⟨v₁, rfl, h₁⟩ := hpeel (by decide) hv
      obtain ⟨v₂, rfl, h₂⟩ := hpeel (by decide) h₁
      obtain ⟨v₃, rfl, -⟩ := hpeel (by decide) h₂
      exact opensReference_of_name hskip
  next c r hskip =>
    rcases spacing_append_close hskip with hnil | ⟨v, hv, hskip⟩
    · cases hnil
    · obtain ⟨v₁, rfl, h₁⟩ := hpeel (by decide) hv
      obtain ⟨v₂, rfl, h₂⟩ := hpeel (by decide) h₁
      have hc : c ≠ ')' := by
        rintro rfl
        simp at h
      obtain ⟨v₃, rfl, -⟩ := hpeel hc h₂
      exact opensReference_of_condition hskip h
  next => cases h

end Token

end Backtrack

/-- Only a backslash and a parenthesis start a reference. -/
theorem hidesReference_cons {c : Char} (hback : c ≠ '\\') (hopen : c ≠ '(') (t : Text) :
    hidesReference (c :: t) = false := by
  simp [hidesReference, Token.startsReference, hback, hopen]

/-- A hidden reference in front of a closing parenthesis is one without it. -/
theorem hidesReference_of_append (h : hidesReference (t ++ [')']) = true) : hidesReference t = true := by
  cases t with
  | nil => cases h
  | cons c t =>
    by_cases hback : c = '\\'
    · subst hback
      cases t with
      | nil => cases h
      | cons d t => exact h
    by_cases hopen : c = '('
    · subst hopen
      exact Token.opensReference_of_append h
    · rw [List.cons_append, hidesReference_cons hback hopen] at h
      cases h

/-- The group around an expression hides no reference. -/
theorem hidesReference_of_suffix (hu : u <:+ "(?i)".toList ++ Glob.rawFragment raw) (h : hidesReference u = true) :
    ∃ t, t <:+ raw ∧ hidesReference t = true := by
  have hfront : "(?i)".toList ++ Glob.rawFragment raw =
      '(' :: '?' :: 'i' :: ')' :: '(' :: '?' :: ':' :: (raw ++ [')']) := rfl
  have hmodes (c : Char) (hc : c ≠ 'P' ∧ c ≠ '(') (r : Text) : hidesReference ('(' :: '?' :: c :: r) = false := by
    simp [hidesReference, Token.startsReference, Token.opensReference, skip, spacing, hc]
  -- None of the signs around the expression hides a reference.
  rw [hfront] at hu
  simp only [List.suffix_cons_iff] at hu
  rcases hu with rfl | rfl | rfl | rfl | rfl | rfl | rfl | hu
  · simp [hmodes] at h
  · simp [hidesReference_cons] at h
  · simp [hidesReference_cons] at h
  · simp [hidesReference_cons] at h
  · simp [hmodes] at h
  · simp [hidesReference_cons] at h
  · simp [hidesReference_cons] at h
  rcases List.suffix_concat_iff.mp hu with rfl | ⟨t, rfl, ht⟩
  · cases h
  · exact ⟨t, ht, hidesReference_of_append h⟩

/-! ## Regular expressions that are rules -/

/-- Without a reference that is found or hidden, an expression whose classes can be read mentions no group. -/
theorem Backtrack.mentions_parse? {e : Expr} {refs : List Nat} (h : parse? t = some (e, refs))
    (hfound : hasReference t = false) (hhidden : ∀ u, u <:+ t → hidesReference u = false) (hsets : e.ReadsSets) :
    ∀ k, .group k ∉ e.mentions := by
  simp only [parse?, Option.bind_eq_some_iff, Option.ite_none_right_eq_some, Option.map_eq_some_iff,
    Prod.mk.injEq] at h
  obtain ⟨s, hrun, hframes, e', hfinish, rfl, -⟩ := h
  -- Nothing is open at the end, so what has been mentioned is mentioned in the expression.
  have hmentions (m : Mention) : m ∈ e'.mentions ↔ m ∈ s.mentions := by
    rw [Reading.mem_mentions_finish hfinish, Reading.mentions, List.isEmpty_iff.mp hframes, List.flatMap_nil,
      List.append_nil]
  rcases Reading.mentions_run hrun hfound hhidden with ⟨source, hsource, hmention⟩ | hgroups
  · obtain ⟨folds, hread⟩ := hsets source ((hmentions _).mpr hmention)
    rw [parse?_bareProperties folds source hsource] at hread
    cases hread
  · intro k hk
    have hstart := hgroups k ((hmentions _).mp hk)
    cases hstart

/-- A raw pattern has no flaw exactly when no reference is seen in it and it compiles. -/
theorem rawFlaw?_eq_none_iff : rawFlaw? raw = none ↔
    hasReference raw = false ∧ ∃ p, Backtrack.compile? ("(?i)".toList ++ Glob.rawFragment raw) = some p := by
  rw [rawFlaw?, ← Option.isSome_iff_exists, ← Option.not_isNone]
  cases hasReference raw <;> cases (Backtrack.compile? ("(?i)".toList ++ Glob.rawFragment raw)).isNone <;> simp

/-- A regular expression that is a rule is read, and refers to no group, unless it hides a reference. -/
theorem group_notMem_mentions_of_rawFlaw? (h : rawFlaw? raw = none) :
    ∃ e refs, Backtrack.parse? ("(?i)".toList ++ Glob.rawFragment raw) = some (e, refs) ∧
      ((∀ k, .group k ∉ e.mentions) ∨ ∃ t, t <:+ raw ∧ hidesReference t = true) := by
  obtain ⟨hfound, p, hcompile⟩ := rawFlaw?_eq_none_iff.mp h
  simp only [Backtrack.compile?, Option.bind_eq_some_iff] at hcompile
  obtain ⟨⟨e, refs⟩, hparse, hcompile⟩ := hcompile
  refine ⟨e, refs, hparse, ?_⟩
  have hsets : e.ReadsSets := by
    split at hcompile
    · exact Backtrack.Expr.readsSets_of_compile hcompile
    · exact Backtrack.Expr.readsSets_of_whole? hcompile
  by_cases hhides : ∃ t, t <:+ raw ∧ hidesReference t = true
  · exact .inr hhides
  · have hfound' : hasReference ("(?i)".toList ++ Glob.rawFragment raw) = false := by
      rw [← hfound, ← Alternation.hasReference_rawFragment raw]
      rfl
    have hhidden (u : Text) (hu : u <:+ "(?i)".toList ++ Glob.rawFragment raw) : hidesReference u = false := by
      rw [Bool.eq_false_iff]
      exact fun hu' => hhides (hidesReference_of_suffix hu hu')
    exact .inl (Backtrack.mentions_parse? hparse hfound' hhidden hsets)

/-- A group, a class with an escaped bracket, and a backslash that is escaped in front of a digit. -/
theorem group_notMem_mentions_sample :
    rawFlaw? "(a)[\\]]\\\\1".toList = none ∧
      ∃ e refs, Backtrack.parse? ("(?i)".toList ++ Glob.rawFragment "(a)[\\]]\\\\1".toList) = some (e, refs) ∧
        ∀ k, .group k ∉ e.mentions := by
  have hflaw : rawFlaw? "(a)[\\]]\\\\1".toList = none := by decide +kernel
  have hhidden : ∀ t ∈ "(a)[\\]]\\\\1".toList.tails, hidesReference t = false := by decide +kernel
  obtain ⟨e, refs, hparse, hgroups | ⟨t, ht, hhides⟩⟩ := group_notMem_mentions_of_rawFlaw? hflaw
  · exact ⟨hflaw, e, refs, hparse, hgroups⟩
  · rw [hhidden t ((List.mem_tails t _).mpr ht)] at hhides
    cases hhides

/-- A name in parentheses, a number that starts with zero, and a condition on a group: all of them are rules, and
refer to a group. -/
theorem hidden_references_are_rules :
    (rawFlaw? "(?P<n>a)(?P=n)".toList = none ∧
      ∃ e refs, Backtrack.parse? ("(?i)".toList ++ Glob.rawFragment "(?P<n>a)(?P=n)".toList) = some (e, refs) ∧
        .group 1 ∈ e.mentions) ∧
    (rawFlaw? "(a)\\01".toList = none ∧
      ∃ e refs, Backtrack.parse? ("(?i)".toList ++ Glob.rawFragment "(a)\\01".toList) = some (e, refs) ∧
        .group 1 ∈ e.mentions) ∧
    (rawFlaw? "(a)?(?(1)b|c)".toList = none ∧
      ∃ e refs, Backtrack.parse? ("(?i)".toList ++ Glob.rawFragment "(a)?(?(1)b|c)".toList) = some (e, refs) ∧
        .group 1 ∈ e.mentions) := by
  have hrefers (t : Text) (h : (Backtrack.parse? t).map (fun q => decide (.group 1 ∈ q.1.mentions)) = some true) :
      ∃ e refs, Backtrack.parse? t = some (e, refs) ∧ .group 1 ∈ e.mentions := by
    obtain ⟨⟨e, refs⟩, hparse, hgroup⟩ := Option.map_eq_some_iff.mp h
    exact ⟨e, refs, hparse, of_decide_eq_true hgroup⟩
  exact ⟨⟨by decide +kernel, hrefers _ (by decide +kernel)⟩, ⟨by decide +kernel, hrefers _ (by decide +kernel)⟩,
    by decide +kernel, hrefers _ (by decide +kernel)⟩

end UrlFilter
