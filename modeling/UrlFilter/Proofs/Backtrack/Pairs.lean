import UrlFilter.Proofs.Backtrack.Joined

/-!
# Signs and escaped characters

A look through a text for something escaped takes each backslash together with the character behind it. The reader
of signs takes other pairs: in a comment of a line a backslash is a character like others, and in a class the name of
a property may be one. What ends a comment, a class or a name is no backslash, so that both go on from the same place
behind the sign (`Token.next_cases`). The one exception is a property outside of classes whose name is a backslash.
-/

namespace UrlFilter.Backtrack

/-- Characters are left off at the start of a text, each backslash together with the character behind it. -/
inductive InStep : Text → Text → Prop where
  | refl (t : Text) : InStep t t
  | char {c : Char} {t u : Text} (hc : c ≠ '\\') (rest : InStep t u) : InStep (c :: t) u
  | pair {t u : Text} (c : Char) (rest : InStep t u) : InStep ('\\' :: c :: t) u
  | all (t : Text) : InStep t []

namespace InStep

variable {t u v w : Text}

/-- What is left in step of what is left in step is left in step. -/
theorem trans (h₁ : InStep t u) (h₂ : InStep u v) : InStep t v := by
  induction h₁ with
  | refl => exact h₂
  | char hc _ ih => exact .char hc (ih h₂)
  | pair c _ ih => exact .pair c (ih h₂)
  | all t =>
    cases h₂ with
    | refl => exact .all t
    | all => exact .all t

/-- What is left in step is an end of the text. -/
theorem suffix (h : InStep t u) : u <:+ t := by
  induction h with
  | refl t => exact List.suffix_refl t
  | char _ _ ih => exact ih.trans (List.suffix_cons _ _)
  | pair c _ ih => exact ih.trans ((List.suffix_cons c _).trans (List.suffix_cons _ _))
  | all t => exact List.nil_suffix

/-- Behind a character that is no backslash no pair is cut. -/
theorem of_append {d : Char} (hd : d ≠ '\\') (w u : Text) : InStep (w ++ d :: u) u := by
  -- The pair of a backslash may end with the character itself, but not behind it.
  match w with
  | [] => exact .char hd (.refl u)
  | [c] =>
    by_cases hc : c = '\\'
    · subst hc
      exact .pair d (.refl u)
    · exact .char hc (.char hd (.refl u))
  | c :: c' :: w =>
    by_cases hc : c = '\\'
    · subst hc
      exact .pair c' (of_append hd w u)
    · exact .char hc (of_append hd (c' :: w) u)

/-- No pair is cut behind characters that are all no backslash. -/
theorem of_forall (h : ∀ c ∈ w, c ≠ '\\') (u : Text) : InStep (w ++ u) u := by
  induction w with
  | nil => exact .refl u
  | cons c w ih => exact .char (h c (by simp)) (ih fun d hd => h d (by simp [hd]))

/-- Characters other than backslashes are left off in step. -/
theorem of_dropWhile {p : Char → Bool} (hp : p '\\' = false) (t : Text) : InStep t (t.dropWhile p) := by
  have hclean : ∀ c ∈ t.takeWhile p, c ≠ '\\' := by
    rintro c hc rfl
    exact absurd (List.all_eq_true.mp List.all_takeWhile _ hc) (by rw [hp]; decide)
  have h := of_forall hclean (t.dropWhile p)
  rwa [List.takeWhile_append_dropWhile] at h

/-- What stands up to a character other than a backslash is left off in step. -/
theorem of_splitFirst {d : Char} (hd : d ≠ '\\') (h : Text.splitFirst d t = some (w, u)) : InStep t u := by
  rw [Text.eq_append_of_splitFirst h]
  exact of_append hd w u

end InStep

variable {spaced : Bool} {size : Nat} {t u : Text}

/-! ## Spacing -/

/-- What is left of a text is nothing, or stands behind a character that is no backslash. -/
def EndsBefore (t u : Text) : Prop := u = [] ∨ ∃ w d, d ≠ '\\' ∧ t = w ++ d :: u

namespace EndsBefore

/-- A character other than a backslash ends before what follows it. -/
theorem here {c : Char} (hc : c ≠ '\\') (u : Text) : EndsBefore (c :: u) u := .inr ⟨[], c, hc, rfl⟩

/-- A character in front changes nothing about the end. -/
theorem cons (h : EndsBefore t u) (c : Char) : EndsBefore (c :: t) u := by
  refine h.imp_right ?_
  rintro ⟨w, d, hd, rfl⟩
  exact ⟨c :: w, d, hd, rfl⟩

/-- What ends before a rest may leave it in step. -/
theorem inStep (h : EndsBefore t u) : InStep t u := by
  rcases h with rfl | ⟨w, d, hd, rfl⟩
  · exact .all t
  · exact .of_append hd w u

/-- Reading on behind one more character, which is no backslash where the reading stops at once. -/
theorem of_rest {k : Spacing} {c : Char} (h : (k = .none ∧ u = t) ∨ EndsBefore t u)
    (hc : k = .none → c ≠ '\\') : EndsBefore (c :: t) u := by
  rcases h with ⟨hk, rfl⟩ | h
  · exact here (hc hk) _
  · exact h.cons c

end EndsBefore

/-- Spacing that leaves something off ends with the text, or with a character that is no backslash. -/
theorem endsBefore_of_spacing {k : Spacing} (h : spacing spaced k t = some u) :
    (k = .none ∧ u = t) ∨ EndsBefore t u := by
  fun_induction spacing spaced k t with
  | case1 | case2 =>
    simp only [Option.some.injEq] at h
    exact .inr (.inl h.symm)
  | case3 | case4 => cases h
  | case5 c r ih =>
    refine .inr (.of_rest (ih h) ?_)
    rintro hk rfl
    cases hk
  | case6 c r ih => exact .inr (.of_rest (ih h) (by simp))
  | case7 c r ih =>
    refine .inr (.of_rest (ih h) ?_)
    rintro hk rfl
    cases hk
  | case8 c r hc ih => exact .inr (.of_rest (ih h) (by simp))
  | case9 c r _ hc ih =>
    refine .inr (.of_rest (ih h) ?_)
    rintro - rfl
    simp at hc
  | case10 r _ _ ih =>
    have hrest : EndsBefore ('#' :: r) u := .of_rest (ih h) (by simp)
    exact .inr ((hrest.cons '?').cons '(')
  | case11 =>
    simp only [Option.some.injEq] at h
    exact .inl ⟨rfl, h.symm⟩

/-- What is skipped is left off in step. -/
theorem inStep_of_skip (h : skip spaced t = some u) : InStep t u := by
  rcases endsBefore_of_spacing h with ⟨-, rfl⟩ | h
  · exact .refl u
  · exact h.inStep

namespace Token

/-! ## References -/

/-- The sign refers to a group. -/
def refers : Token → Bool
  | reference _ | namedReference _ | openCondition (.number _) | openCondition (.name _) => true
  | _ => false

/-- A reference by name or a condition on a group starts behind a parenthesis. -/
def opensReference (t : Text) : Bool :=
  [false, true].any fun spaced =>
    match skip spaced t with
    | some ('?' :: 'P' :: '=' :: _) => true
    | some ('?' :: '(' :: c :: _) => c.isDigit || c == '<' || c == '\''
    | _ => false

/-- The text starts as a sign does that refers to a group. -/
def startsReference : Text → Bool
  | '\\' :: c :: _ => c.isDigit || c == 'k'
  | '(' :: t => opensReference t
  | _ => false

/-- A reference by name behind a parenthesis is seen as one. -/
theorem opensReference_of_name {r : Text} (h : skip spaced t = some ('?' :: 'P' :: '=' :: r)) :
    opensReference t = true := by
  cases spaced <;> simp [opensReference, h]

/-- A condition on a number or a name behind a parenthesis is seen as one. -/
theorem opensReference_of_condition {c : Char} {r : Text} (h : skip spaced t = some ('?' :: '(' :: c :: r))
    (hc : (c.isDigit || c == '<' || c == '\'') = true) : opensReference t = true := by
  cases spaced <;> simp [opensReference, h, hc]

/-! ## Numbers, names and escapes -/

/-- A number is left off in step. -/
theorem inStep_of_number? {n : Nat} (h : number? t = some (n, u)) : InStep t u := by
  simp only [number?, Option.bind_eq_some_iff, Option.ite_none_right_eq_some, Option.some.injEq,
    Prod.mk.injEq] at h
  obtain ⟨n, -, -, -, rfl⟩ := h
  exact .of_dropWhile (by decide) t

/-- A name is left off in step. -/
theorem inStep_of_nameUpTo {close : Char} (hclose : close ≠ '\\') {relative : Bool} {name : Text}
    (h : nameUpTo close relative t = some (name, u)) : InStep t u := by
  simp only [nameUpTo, Option.bind_eq_some_iff, Option.ite_none_right_eq_some, Option.some.injEq] at h
  obtain ⟨⟨name', u'⟩, hsplit, -, heq⟩ := h
  cases heq
  exact .of_splitFirst hclose hsplit

/-- A character by its number is left off in step. -/
theorem inStep_of_hexChar {digits : Nat} {c : Char} (h : hexChar digits t = some (c, u)) : InStep t u := by
  unfold hexChar at h
  by_cases hfixed : (t.take digits).length = digits ∧ (t.take digits).all (fun c => (Text.hexDigit? c).isSome) = true
  · simp only [if_pos hfixed, Option.map_eq_some_iff, Prod.mk.injEq] at h
    obtain ⟨c', -, -, rfl⟩ := h
    have hclean : ∀ c ∈ t.take digits, c ≠ '\\' := by
      rintro c hc rfl
      exact absurd (List.all_eq_true.mp hfixed.2 _ hc) (by decide)
    have hdrop := InStep.of_forall hclean (t.drop digits)
    rwa [List.take_append_drop] at hdrop
  · simp only [if_neg hfixed] at h
    split at h
    next r =>
      split at h
      next r' hclose =>
        simp only [Option.ite_none_right_eq_some, Option.map_eq_some_iff, Prod.mk.injEq] at h
        obtain ⟨-, c', -, -, rfl⟩ := h
        have hdrop := InStep.of_dropWhile (p := fun c => (Text.hexDigit? c).isSome) (by decide) r
        rw [hclose] at hdrop
        exact .char (by decide) (hdrop.trans (.char (by decide) (.refl r')))
      next => cases h
    next => cases h

/-- The texts of a property whose name is a backslash. -/
def bareProperties : List Text := [['\\', 'p', '\\'], ['\\', 'P', '\\']]

/-- The name of a property is a pair of braces with what is between them, or one character. -/
theorem inStep_of_propertyText {name : Text} (h : propertyText t = some (name, u)) :
    InStep t u ∨ (t = '\\' :: u ∧ name = ['\\']) := by
  rw [propertyText.eq_def] at h
  split at h
  next => cases h
  next r =>
    simp only [Option.map_eq_some_iff, Prod.mk.injEq] at h
    obtain ⟨⟨name', r'⟩, hsplit, -, rfl⟩ := h
    exact .inl (.char (by decide) (.of_splitFirst (by decide) hsplit))
  next c r _ =>
    simp only [Option.some.injEq, Prod.mk.injEq] at h
    obtain ⟨rfl, rfl⟩ := h
    by_cases hc : c = '\\'
    · exact .inr ⟨by rw [hc], by rw [hc]⟩
    · exact .inl (.char hc (.refl r))

/-- An escape that stands for a character or a class refers to no group, and is read in step unless it is a
property whose name is a backslash. -/
theorem simpleEscape_cases {c : Char} {token : Token} (h : simpleEscape (c :: t) = some (token, u)) :
    token.refers = false ∧
      (InStep t u ∨ (t = '\\' :: u ∧ ∃ source ∈ bareProperties, token = .set source true)) := by
  have hletter {k : Token} (hk : k.refers = false) (h : some (k, t) = some (token, u)) :
      token.refers = false ∧
        (InStep t u ∨ (t = '\\' :: u ∧ ∃ source ∈ bareProperties, token = .set source true)) := by
    cases h
    exact ⟨hk, .inl (.refl t)⟩
  have hnumber {digits : Nat} (h : (hexChar digits t).map (fun q => (literal q.1 true, q.2)) = some (token, u)) :
      token.refers = false ∧
        (InStep t u ∨ (t = '\\' :: u ∧ ∃ source ∈ bareProperties, token = .set source true)) := by
    simp only [Option.map_eq_some_iff, Prod.mk.injEq] at h
    obtain ⟨⟨d, u'⟩, hchar, rfl, rfl⟩ := h
    exact ⟨rfl, .inl (inStep_of_hexChar hchar)⟩
  simp only [simpleEscape] at h
  -- Classes of characters, by one letter.
  split at h
  · exact hletter rfl h
  split at h
  · exact hletter rfl h
  split at h
  · exact hletter rfl h
  -- The number of a character, of two, four or eight digits.
  split at h
  · exact hnumber h
  split at h
  · exact hnumber h
  split at h
  · exact hnumber h
  -- A property: the only escape that may have a backslash behind its letter.
  split at h
  next hproperty =>
    simp only [Option.map_eq_some_iff, Prod.mk.injEq] at h
    obtain ⟨⟨name, u'⟩, hname, rfl, rfl⟩ := h
    refine ⟨rfl, (inStep_of_propertyText hname).imp_right ?_⟩
    rintro ⟨rfl, rfl⟩
    simp only [Bool.or_eq_true, decide_eq_true_eq] at hproperty
    rcases hproperty with rfl | rfl
    · exact ⟨rfl, _, by simp [bareProperties], rfl⟩
    · exact ⟨rfl, _, by simp [bareProperties], rfl⟩
  -- The name of a character, or the character itself.
  split at h
  · exact hletter rfl h
  split at h
  · cases h
  · exact hletter rfl h

/-- A simple escape leaves an end of the text. -/
theorem suffix_of_simpleEscape {c : Char} {token : Token} (h : simpleEscape (c :: t) = some (token, u)) :
    u <:+ t := by
  rcases (simpleEscape_cases h).2 with h | ⟨rfl, -⟩
  · exact h.suffix
  · exact List.suffix_cons _ u

/-- An escape starts a reference, or refers to nothing and is left off in step; only the texts of some properties are
not. -/
theorem escape_cases {token : Token} (h : escape size t = some (token, u)) :
    startsReference ('\\' :: t) = true ∨ (token.refers = false ∧
      (InStep ('\\' :: t) u ∨ ∃ source ∈ bareProperties, token = .set source true)) := by
  cases t with
  | nil => cases h
  | cons c r =>
    simp only [escape] at h
    split at h
    next hdigit => exact .inl (by simp [startsReference, hdigit])
    split at h
    next hname => exact .inl (by simp [startsReference, hname])
    right
    have hpair {k : Token} (hk : k.refers = false) (h : some (k, r) = some (token, u)) :
        token.refers = false ∧
          (InStep ('\\' :: c :: r) u ∨ ∃ source ∈ bareProperties, token = .set source true) := by
      cases h
      exact ⟨hk, .inl (.pair c (.refl _))⟩
    -- The ends of the text.
    split at h
    · exact hpair rfl h
    split at h
    · exact hpair rfl h
    -- The bounds of words, of which a brace behind the letter would name others.
    split at h
    · exact hpair rfl (Option.ite_none_left_eq_some.mp h).2
    split at h
    · exact hpair rfl (Option.ite_none_left_eq_some.mp h).2
    split at h
    · exact hpair rfl h
    split at h
    · exact hpair rfl h
    -- What is kept out of the match, and where the search starts.
    split at h
    · exact hpair rfl h
    split at h
    · exact hpair rfl h
    obtain ⟨hrefers, hstep⟩ := simpleEscape_cases h
    exact ⟨hrefers, hstep.imp (.pair c) And.right⟩

/-! ## Classes -/

/-- An escape in a class leaves an end of the text. -/
theorem suffix_of_classEscape {e : Text} (h : classEscape t = some (e, u)) : u <:+ t := by
  cases t with
  | nil => cases h
  | cons c r =>
    simp only [classEscape] at h
    split at h
    · cases h
    split at h
    · cases h
      exact List.suffix_cons c _
    split at h
    · cases h
      exact List.suffix_cons c _
    · simp only [Option.map_eq_some_iff] at h
      obtain ⟨⟨token, u'⟩, hescape, heq⟩ := h
      have hsuffix : u' <:+ c :: r := (suffix_of_simpleEscape hescape).trans (List.suffix_cons c r)
      split at heq <;> cases heq <;> exact hsuffix

/-- A class ends with its bracket. -/
theorem exists_of_classText {n nested : Nat} {source : Text} (h : classText n nested t = some (source, u)) :
    ∃ w, t = w ++ ']' :: u := by
  have hsuffix {r r' : Text} (hr : r' <:+ r) (h : ∃ w, r' = w ++ ']' :: u) : ∃ w, r = w ++ ']' :: u := by
    obtain ⟨v, rfl⟩ := hr
    obtain ⟨w, rfl⟩ := h
    exact ⟨v ++ w, by simp⟩
  -- By induction on the steps. Only the escape takes more than one character, and what it takes is in front of
  -- the bracket as well.
  induction n generalizing nested t source with
  | zero => cases h
  | succ n ih =>
    unfold classText at h
    split at h
    · cases h
    next r =>
      simp only [Option.bind_eq_some_iff, Option.map_eq_some_iff, Prod.mk.injEq] at h
      obtain ⟨⟨e, r'⟩, hescape, ⟨source', u'⟩, hrest, -, rfl⟩ := h
      exact hsuffix ((suffix_of_classEscape hescape).trans (List.suffix_cons _ r)) (ih hrest)
    next r =>
      simp only [Option.map_eq_some_iff, Prod.mk.injEq] at h
      obtain ⟨⟨source', u'⟩, hrest, -, rfl⟩ := h
      exact hsuffix (List.suffix_cons _ r) (ih hrest)
    next r =>
      split at h
      · cases h
        exact ⟨[], rfl⟩
      · simp only [Option.map_eq_some_iff, Prod.mk.injEq] at h
        obtain ⟨⟨source', u'⟩, hrest, -, rfl⟩ := h
        exact hsuffix (List.suffix_cons _ r) (ih hrest)
    next c r _ _ _ =>
      simp only [Option.map_eq_some_iff, Prod.mk.injEq] at h
      obtain ⟨⟨source', u'⟩, hrest, -, rfl⟩ := h
      exact hsuffix (List.suffix_cons c r) (ih hrest)

/-- A class is left off in step. -/
theorem inStep_of_classSource {source : Text} (h : classSource t = some (source, u)) : InStep t u := by
  have hbody {start r : Text} (hr : r <:+ t)
      (h : (classText (r.length + 1) 0 r).map (fun q => (start ++ q.1, q.2)) = some (source, u)) :
      InStep t u := by
    simp only [Option.map_eq_some_iff, Prod.mk.injEq] at h
    obtain ⟨⟨source', u'⟩, hrest, -, rfl⟩ := h
    obtain ⟨v, rfl⟩ := hr
    obtain ⟨w, rfl⟩ := exists_of_classText hrest
    rw [← List.append_assoc]
    exact .of_append (by decide) (v ++ w) u'
  simp only [classSource] at h
  split at h
  next r heq =>
    have hr : r <:+ t := by
      split at heq
      · cases heq
        exact (List.suffix_cons _ r).trans (List.suffix_cons _ _)
      · cases heq
        exact List.suffix_cons _ r
    exact hbody hr h
  next =>
    split at h
    · exact hbody (List.suffix_cons _ _) h
    · exact hbody (List.suffix_refl _) h

/-! ## Repetition -/

/-- The bounds of a repetition are left off in step. -/
theorem inStep_of_counted {lo : Nat} {hi : Option Nat} (h : counted spaced t = some (lo, hi, u)) :
    InStep t u := by
  simp only [counted, Option.bind_eq_some_iff] at h
  obtain ⟨t₁, h₁, ⟨lo', t₂⟩, h₂, t₃, h₃, ⟨hi', t₄⟩, h₄, t₅, h₅, h⟩ := h
  have hlo : InStep t₁ t₂ := by
    split at h₂
    · cases h₂
      exact .refl _
    · exact inStep_of_number? h₂
  have hhi : InStep t₃ t₄ := by
    split at h₄
    · cases h₄
      exact .refl _
    · simp only [Option.map_eq_some_iff] at h₄
      obtain ⟨r, hr, h₄⟩ := h₄
      refine .char (by decide) ((inStep_of_skip hr).trans ?_)
      split at h₄
      next hnumber =>
        cases h₄
        exact inStep_of_number? hnumber
      next =>
        cases h₄
        exact .refl _
    · cases h₄
  have hclose : InStep t₅ u := by
    split at h
    · cases h
      exact .char (by decide) (.refl _)
    · cases h
  exact (inStep_of_skip h₁).trans (hlo.trans ((inStep_of_skip h₃).trans (hhi.trans
    ((inStep_of_skip h₅).trans hclose))))

/-- A repetition refers to nothing and is left off in step. -/
theorem repetition_cases {lo : Nat} {hi : Option Nat} {token : Token}
    (h : repetition spaced lo hi t = some (token, u)) : token.refers = false ∧ InStep t u := by
  simp only [repetition, Option.map_eq_some_iff, Prod.mk.injEq] at h
  obtain ⟨r, hr, rfl, rfl⟩ := h
  refine ⟨rfl, (inStep_of_skip hr).trans ?_⟩
  split
  next r' heq =>
    split at heq
    · cases heq
      exact .char (by decide) (.char (by decide) (.refl r'))
    · cases heq
      exact .char (by decide) (.refl r')
  next =>
    split
    · exact .char (by decide) (.refl _)
    · exact .refl r

/-! ## Groups -/

/-- Changes of modes are left off in step. -/
theorem inStep_of_modeChanges {n length : Nat} {on opens : Bool} {acc changes : List (Mode × Bool)}
    (h : modeChanges n spaced on length acc t = some (changes, opens, u)) : InStep t u := by
  induction n generalizing spaced on length acc t with
  | zero => cases h
  | succ n ih =>
    simp only [modeChanges, Option.bind_eq_some_iff] at h
    obtain ⟨r, hr, h⟩ := h
    refine (inStep_of_skip hr).trans ?_
    split at h
    · cases h
    -- The colon or the parenthesis behind the letters.
    · split at h
      · cases h
      · cases h
        exact .char (by decide) (.refl _)
    · split at h
      · cases h
      · cases h
        exact .char (by decide) (.refl _)
    -- The hyphen, the letter that is no mode, and the letters of modes.
    · split at h
      · exact .char (by decide) (ih h)
      · cases h
    · split at h
      · exact .char (by decide) (ih h)
      · cases h
    next c r _ _ _ _ =>
      split at h
      · cases h
      next m hm =>
        have hc : c ≠ '\\' := by
          rintro rfl
          cases hm
        exact .char hc (ih h)

/-- A condition is on a group that its first character announces, or is an expression, which follows. -/
theorem condition_cases {token : Token} (h : condition spaced size t = some (token, u)) :
    (∃ c r, t = c :: r ∧ (c.isDigit || c == '<' || c == '\'') = true) ∨ (token.refers = false ∧ u = t) := by
  unfold condition at h
  split at h
  · cases h
  next r => exact .inl ⟨'\'', r, rfl, by decide⟩
  next r => exact .inl ⟨'<', r, rfl, by decide⟩
  next c r _ _ =>
    dsimp only at h
    split at h
    next hdigit => exact .inl ⟨c, r, rfl, by simp [hdigit]⟩
    next =>
      cases h
      exact .inr ⟨rfl, rfl⟩

/-- A group opens a reference, or refers to nothing and its opening is left off in step. -/
theorem group_cases {token : Token} (h : group spaced size t = some (token, u)) :
    opensReference t = true ∨ (token.refers = false ∧ InStep t u) := by
  have hopen (w : Text) (hw : ∀ c ∈ w, c ≠ '\\') {k : Token} (hk : k.refers = false) {v : Text}
      (h : some (k, v) = some (token, u)) : token.refers = false ∧ InStep (w ++ v) u := by
    cases h
    exact ⟨hk, .of_forall hw _⟩
  have hname (w : Text) (hw : ∀ c ∈ w, c ≠ '\\') {close : Char} (hclose : close ≠ '\\') {v : Text}
      (h : (nameUpTo close false v).map (fun q => (openCapture (some q.1), q.2)) = some (token, u)) :
      token.refers = false ∧ InStep (w ++ v) u := by
    simp only [Option.map_eq_some_iff, Prod.mk.injEq] at h
    obtain ⟨⟨name, v'⟩, hread, rfl, rfl⟩ := h
    exact ⟨rfl, (InStep.of_forall hw v).trans (inStep_of_nameUpTo hclose hread)⟩
  simp only [group, Option.bind_eq_some_iff] at h
  obtain ⟨r, hr, h⟩ := h
  have hskip : InStep t r := inStep_of_skip hr
  split at h
  -- Looks ahead and behind.
  · exact .inr ((hopen ['?', '='] (by simp) rfl h).imp_right hskip.trans)
  · exact .inr ((hopen ['?', '!'] (by simp) rfl h).imp_right hskip.trans)
  · exact .inr ((hopen ['?', '<', '='] (by simp) rfl h).imp_right hskip.trans)
  · exact .inr ((hopen ['?', '<', '!'] (by simp) rfl h).imp_right hskip.trans)
  -- Groups with a name.
  · exact .inr ((hname ['?', '<'] (by simp) (by decide) h).imp_right hskip.trans)
  · exact .inr ((hname ['?', '\''] (by simp) (by decide) h).imp_right hskip.trans)
  · exact .inr ((hname ['?', 'P', '<'] (by simp) (by decide) h).imp_right hskip.trans)
  -- A reference by name, and a group that no other way is asked for.
  · exact .inl (opensReference_of_name hr)
  · exact .inr ((hopen ['?', '>'] (by simp) rfl h).imp_right hskip.trans)
  -- A condition, on a group or on an expression.
  · rcases condition_cases h with ⟨c, r, rfl, hc⟩ | ⟨hrefers, rfl⟩
    · exact .inl (opensReference_of_condition hr hc)
    · exact .inr ⟨hrefers, hskip.trans (.of_forall (w := ['?', '(']) (by simp) u)⟩
  -- A change of modes, and a group without a name.
  · simp only [Option.map_eq_some_iff, Prod.mk.injEq] at h
    obtain ⟨⟨changes, opens, r'⟩, hmodes, rfl, rfl⟩ := h
    refine .inr ⟨?_, hskip.trans (.char (by decide) (inStep_of_modeChanges hmodes))⟩
    cases opens <;> rfl
  · exact .inr ((hopen [] (by simp) rfl h).imp_right hskip.trans)

/-- A sign that refers to a group starts as a reference does, and any other is read in step, unless it is a property
whose name is a backslash. -/
theorem next_cases {afterAtom : Bool} {token : Token} (h : next spaced afterAtom size t = some (token, u)) :
    startsReference t = true ∨ (token.refers = false ∧
      (InStep t u ∨ ∃ source ∈ bareProperties, token = .set source true)) := by
  have hchar {c : Char} {k : Token} {r : Text} (hc : c ≠ '\\') (hk : k.refers = false)
      (h : some (k, r) = some (token, u)) :
      token.refers = false ∧ (InStep (c :: r) u ∨ ∃ source ∈ bareProperties, token = .set source true) := by
    cases h
    exact ⟨hk, .inl (.char hc (.refl _))⟩
  have hrepetition {c : Char} {lo : Nat} {hi : Option Nat} {r : Text} (hc : c ≠ '\\')
      (h : repetition spaced lo hi r = some (token, u)) :
      token.refers = false ∧ (InStep (c :: r) u ∨ ∃ source ∈ bareProperties, token = .set source true) :=
    (repetition_cases h).imp_right fun hstep => .inl (.char hc hstep)
  unfold next at h
  split at h
  · cases h
  -- Any character, and the starts and ends of lines.
  · exact .inr (hchar (by decide) rfl h)
  · exact .inr (hchar (by decide) rfl h)
  · exact .inr (hchar (by decide) rfl h)
  -- Groups and bars.
  · exact (group_cases h).imp_right fun ⟨hrefers, hstep⟩ => ⟨hrefers, .inl (.char (by decide) hstep)⟩
  · exact .inr (hchar (by decide) rfl h)
  · exact .inr (hchar (by decide) rfl h)
  -- Escapes and classes.
  · exact escape_cases h
  · simp only [Option.map_eq_some_iff, Prod.mk.injEq] at h
    obtain ⟨⟨source, r⟩, hclass, rfl, rfl⟩ := h
    exact .inr ⟨rfl, .inl (.char (by decide) (inStep_of_classSource hclass))⟩
  -- Repetition; a brace that bounds none is a character like others.
  · exact .inr (hrepetition (by decide) h)
  · exact .inr (hrepetition (by decide) h)
  · exact .inr (hrepetition (by decide) h)
  · split at h
    next hcounted =>
      rw [Option.ite_none_right_eq_some] at hcounted
      obtain ⟨hrefers, hstep⟩ := repetition_cases h
      exact .inr ⟨hrefers, .inl (.char (by decide) ((inStep_of_counted hcounted.2).trans hstep))⟩
    next => exact .inr (hchar (by decide) rfl h)
  next c r _ _ _ _ _ _ hbackslash _ _ _ _ _ => exact .inr (hchar hbackslash rfl h)

end Token

end UrlFilter.Backtrack
