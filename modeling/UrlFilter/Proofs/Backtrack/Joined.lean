import UrlFilter.Alternation.Matcher
import UrlFilter.Proofs.Backtrack.Plain
import UrlFilter.Proofs.Backtrack.Reading

/-!
# Reading joined patterns

What the reader of patterns with memory makes of the text around the branches of a joined pattern: case is
ignored in one group around all of them, and the pattern is the choice between them. Its branches are compiled
one by one when one of them asks for memory, and handed over together when none does.
-/

namespace UrlFilter.Backtrack

/-! ## Signs around branches -/

/-- Only a comment between parentheses is skipped. -/
theorem skip_of_not_comment {c : Char} {u : Text} (h : ∀ r, c = '(' → u = '?' :: '#' :: r → False) :
    skip false (c :: u) = some (c :: u) := by
  rw [skip, spacing]
  · simp
  · exact h

/-- What does not begin with a parenthesis is nothing to be skipped. -/
theorem skip_of_ne {c : Char} (h : c ≠ '(') (u : Text) : skip false (c :: u) = some (c :: u) :=
  skip_of_not_comment fun _ hc => absurd hc h

/-- A group with no modes of its own begins. -/
theorem next_openModes (afterAtom : Bool) (size : Nat) (u : Text) :
    Token.next false afterAtom size ('(' :: '?' :: ':' :: u) = some (.openModes [], u) := by
  rw [Token.next, Token.group, skip_of_ne (by decide)]
  simp [Token.modeChanges, skip_of_ne]

/-- The sign that a joined pattern begins with. -/
theorem next_ignoreCase (size : Nat) (u : Text) :
    Token.next false false size ('(' :: '?' :: 'i' :: ')' :: u) =
      some (.setModes [(.ignoreCase, true)], u) := by
  have hclose (n : Nat) : Token.modeChanges (n + 1) false true 1 [(.ignoreCase, true)] (')' :: u) =
      some ([(.ignoreCase, true)], false, u) := by
    rw [Token.modeChanges, skip_of_ne (by decide), Option.bind_some]
    simp
  have hletter (n : Nat) : Token.modeChanges (n + 2) false true 0 [] ('i' :: ')' :: u) =
      some ([(.ignoreCase, true)], false, u) := by
    rw [Token.modeChanges, skip_of_ne (by decide), Option.bind_some]
    simp [Token.mode?, hclose]
  rw [Token.next, Token.group, skip_of_ne (by decide), Option.bind_some]
  simp [hletter]

/-- The opening of a joined pattern, character by character. -/
theorem opening_eq : Alternation.opening = ['(', '?', 'i', ')', '(', '?', ':'] := by decide

/-! ## The whole pattern -/

/-- Branches as one expression. -/
def choiceOf : List Expr → Expr
  | [e] => e
  | es => .alt es

/-- What is read of branches is the choice between them. -/
theorem finish_eq_choiceOf {s : Reading} (hnumbered : (s.numbered && !s.names.isEmpty) = false) :
    s.finish = some (choiceOf (s.choice.branches.reverse ++ [branchOf s.choice.parts.reverse])) := by
  cases hbranches : s.choice.branches with
  | nil => simp [Reading.finish, hbranches, choiceOf, hnumbered]
  | cons b bs =>
    have htwo (es : List Expr) (h : 2 ≤ es.length) : choiceOf es = .alt es := by
      match es, h with
      | _ :: _ :: _, _ => rfl
    rw [htwo _ (by simp)]
    simp [Reading.finish, hbranches]

/-- The group around all branches of a joined pattern. -/
def wholeGroup : List Frame := [⟨.modes { ignoreCase := true }, ⟨[], [.empty]⟩⟩]

/-- The reading of a joined pattern in front of its first branch. -/
def joinStart : Reading := { modes := { ignoreCase := true }, frames := wholeGroup }

/-- The opening of a joined pattern leads into the group around its branches. -/
theorem leads_opening (size : Nat) (body : Text) :
    Reading.Leads size {} (Alternation.opening ++ body) joinStart body := by
  have hmodes : Reading.Leads size {} ('(' :: '?' :: 'i' :: ')' :: '(' :: '?' :: ':' :: body)
      { modes := { ignoreCase := true }, choice := ⟨[], [.empty]⟩, afterAtom := true }
      ('(' :: '?' :: ':' :: body) := by
    refine .step _ (skip_of_not_comment ?_) (next_ignoreCase _ _) rfl (by simp)
    rintro r - hr
    simp at hr
  have hopen : Reading.Leads size
      { modes := { ignoreCase := true }, choice := ⟨[], [.empty]⟩, afterAtom := true }
      ('(' :: '?' :: ':' :: body) joinStart body := by
    refine .step _ (skip_of_not_comment ?_) (next_openModes _ _ _) rfl (by simp; omega)
    rintro r - hr
    simp at hr
  rw [opening_eq]
  exact hmodes.trans hopen

/-- Skipping leaves no more of a text than there was. -/
theorem length_skip {spaced : Bool} {t u : Text} (h : skip spaced t = some u) : u.length ≤ t.length := by
  have hspacing (m : Spacing) : spacing spaced m t = some u → u.length ≤ t.length := by
    clear h
    fun_induction spacing spaced m t <;> intro h <;> grind
  exact hspacing .none h

/-- The choice that has been read of joined branches is what the joined pattern is. -/
theorem parse?_join {branches : List Text} {s : Reading} {e : Expr} {v : Text}
    (h : joinStart.Leads (Text.byteLength (Alternation.join branches)) (Text.join ['|'] branches ++ [')']) s v)
    (hskip : skip s.modes.spaced v = some [')']) (hframes : s.frames = wholeGroup)
    (hnumbered : (s.numbered && !s.names.isEmpty) = false) (hfinish : s.finish = some e) :
    parse? (Alternation.join branches) = some (e, s.refs) := by
  -- The reading behind the group of the whole alternation.
  let s' : Reading :=
    { s with modes := { ignoreCase := true }, frames := [], choice := ⟨[], [e, .empty]⟩, afterAtom := true }
  have hlength := length_skip hskip
  have hclose : s.Leads (Text.byteLength (Alternation.join branches)) v s' [] := by
    refine .step .close hskip rfl ?_ (by simp at hlength ⊢; omega)
    simp only [Reading.feed, Reading.leave, hfinish, hframes, Option.bind_some, wholeGroup]
    rfl
  have hrun := ((leads_opening _ _).trans (h.trans hclose)).run_eq
    (by simp [skip, spacing])
  have htext : Alternation.opening ++ (Text.join ['|'] branches ++ [')']) = Alternation.join branches := by
    rw [Alternation.join, List.append_assoc]
  -- The part in front of that group, the mode of the alternation, is empty.
  have hlast : branchOf [.empty, e] = e := by
    cases he : e.isEmpty with
    | false =>
      have hempty : Expr.empty.isEmpty = true := rfl
      simp [branchOf, hempty, he]
    | true => cases e <;> simp_all [branchOf, Expr.isEmpty]
  have hfinish' : s'.finish = some e :=
    (finish_eq_choiceOf (s := s') hnumbered).trans (congrArg some hlast)
  rw [htext] at hrun
  simp only [parse?, hrun, Option.bind_some, hfinish']
  rfl

/-! ## Compiling the choice -/

/-- A choice asks for memory when one of its branches does. -/
theorem hard_choiceOf (refs : List Nat) (es : List Expr) :
    ((choiceOf es).info refs).hard = es.any fun e => (e.info refs).hard := by
  match es with
  | [e] => simp [choiceOf]
  | [] | _ :: _ :: _ => exact Expr.hard_alt refs _

/-- A choice is compiled branch by branch where another way may be asked for. -/
theorem compile_choiceOf (refs : List Nat) {es : List Expr} (hne : es ≠ []) :
    (choiceOf es).compile refs true = (Expr.compileBranches refs true es).map Pattern.altAll := by
  match es with
  | [] => exact absurd rfl hne
  | [e] =>
    simp only [choiceOf, Expr.compileBranches]
    cases e.compile refs true <;> rfl
  | e :: e' :: es =>
    rw [choiceOf, Expr.compile_true, Expr.compileParts]
    simp

/-- A choice without memory matches when one of its branches does. -/
theorem of_toRegex?_choiceOf {es : List Expr} (hne : es ≠ []) {r : Regex}
    (h : (choiceOf es).toRegex? = some r) :
    ∃ rs, Expr.toRegexes? es = some rs ∧ ∀ t, r.isMatch t = true ↔ ∃ r' ∈ rs, r'.isMatch t = true := by
  match es with
  | [] => exact absurd rfl hne
  | [e] =>
    have he : e.toRegex? = some r := h
    exact ⟨[r], by simp [Expr.toRegexes?, he], by simp⟩
  | e :: e' :: es =>
    rw [choiceOf, Expr.toRegex?, Option.map_eq_some_iff] at h
    · obtain ⟨rs, hrs, rfl⟩ := h
      exact ⟨rs, hrs, Expr.isMatch_choice (Expr.forall₂_isEmpty hrs)⟩
    · simp

/-- What a joined pattern is compiled to, branch by branch or handed over. -/
theorem of_compile?_choiceOf {t : Text} {refs : List Nat} {es : List Expr} (hne : es ≠ [])
    (hparse : parse? t = some (choiceOf es, refs)) {p : Pattern} (hp : compile? t = some p) :
    (∃ ps, Expr.compileBranches refs true es = some ps ∧ ∀ u, p.isMatch u = true ↔ ∃ q ∈ ps, q.isMatch u = true) ∨
      (∀ e ∈ es, (e.info refs).hard = false) ∧
        ∃ rs, Expr.toRegexes? es = some rs ∧ ∀ u, p.isMatch u = true ↔ ∃ r ∈ rs, r.isMatch u = true := by
  simp only [compile?, hparse, Option.bind_some, hard_choiceOf, compile_choiceOf refs hne] at hp
  split at hp
  · obtain ⟨ps, hps, rfl⟩ := Option.map_eq_some_iff.mp hp
    exact .inl ⟨ps, hps, fun u => Pattern.isMatch_altAll⟩
  · next hplain =>
    obtain ⟨r, hr, rfl⟩ := Expr.of_whole?_eq_some hp
    obtain ⟨rs, hrs, hmatch⟩ := of_toRegex?_choiceOf hne hr
    refine .inr ⟨by simpa using hplain, rs, hrs, fun u => ?_⟩
    rw [Pattern.isMatch_plain, hmatch]

end UrlFilter.Backtrack
