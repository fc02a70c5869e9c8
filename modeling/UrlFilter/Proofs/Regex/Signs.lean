import UrlFilter.Proofs.Regex.Classes

/-!
# Signs and what follows them

A sign of a pattern is read off the front of its text, and it is read the same whatever stands behind the text:
each reader comes to an end inside of it. Only a sign that takes the spacing behind it may go on, where a comment
runs to the end of the text (`next_append`). So a pattern is read in front of a bar or a closing parenthesis as it
is alone, unless a comment is open at its end.
-/

namespace UrlFilter.Regex

variable {spaced : Bool} {t r u : Text} {n m : Nat}

/-! ## Repetitions -/

/-- Nothing is skipped of nothing. -/
theorem skip_nil (spaced : Bool) : skip spaced [] = [] := by cases spaced <;> rfl

namespace Token

/-- Digits are read up to another character. -/
theorem digits_append {ds : Text} (h : digits spaced n t = (ds, r)) (hn : t.length ≤ n) (hr : r ≠ []) :
    r <:+ t ∧ ∀ u m, n ≤ m → digits spaced m (t ++ u) = (ds, r ++ u) := by
  -- By induction on the steps. Spacing that is left off behind a digit ends inside of the text, where `r` begins at
  -- the latest.
  induction n generalizing t ds with
  | zero =>
    obtain rfl := List.length_eq_zero_iff.mp (Nat.le_zero.mp hn)
    exact absurd (Prod.mk.inj h).2.symm hr
  | succ n ih =>
    cases t with
    | nil => exact absurd (Prod.mk.inj h).2.symm hr
    | cons c t =>
      rw [List.length_cons] at hn
      by_cases hc : c.isDigit = true
      · cases hskip : skip spaced t with
        | nil =>
          have hend : digits spaced n [] = ([], []) := by cases n <;> rfl
          simp only [digits, hc, if_true, hskip, hend, Prod.mk.injEq] at h
          exact absurd h.2.symm hr
        | cons d rest =>
          have hsuffix : d :: rest <:+ t := hskip ▸ skip_suffix spaced t
          simp only [digits, hc, if_true, hskip, Prod.mk.injEq] at h
          obtain ⟨rfl, hrest⟩ := h
          obtain ⟨hsuffix', hread⟩ := ih (Prod.ext rfl hrest) (by have := hsuffix.length_le; omega)
          refine ⟨hsuffix'.trans (hsuffix.trans (List.suffix_cons c t)), fun u m hm => ?_⟩
          obtain ⟨m, rfl⟩ := Nat.exists_eq_succ_of_ne_zero (by omega : m ≠ 0)
          have hread' := hread u m (by omega)
          rw [List.cons_append] at hread'
          simp only [List.cons_append, digits, hc, if_true, skip_append hskip, hread']
      · simp only [digits, hc, Bool.false_eq_true, if_false, Prod.mk.injEq] at h
        obtain ⟨rfl, rfl⟩ := h
        refine ⟨List.suffix_rfl, fun u m hm => ?_⟩
        obtain ⟨m, rfl⟩ := Nat.exists_eq_succ_of_ne_zero (by omega : m ≠ 0)
        simp [digits, hc]

/-- Blanks in front of a character are trimmed as before, whatever follows. -/
theorem trimStart_append_of_cons {c : Char} (h : Text.trimStart t = c :: r) (u : Text) :
    Text.trimStart (t ++ u) = c :: (r ++ u) := by
  rw [Text.trimStart_append, h]
  rfl

/-- Without a digit there is no bound. -/
theorem bound?_nil : bound? spaced [] = none := rfl

/-- A number is read up to a character that is neither a digit nor a blank. -/
theorem bound?_append {k : Nat} (h : bound? spaced t = some (k, r)) (hr : r ≠ []) :
    r <:+ t ∧ ∀ u, bound? spaced (t ++ u) = some (k, r ++ u) := by
  simp only [bound?, Option.bind_eq_some_iff] at h
  obtain ⟨k', hk, h⟩ := h
  obtain ⟨hmax, heq⟩ := Option.ite_none_right_eq_some.mp h
  obtain ⟨rfl, rfl⟩ := Prod.mk.inj (Option.some.inj heq)
  cases hread : digits spaced (Text.trimStart t).length (Text.trimStart t) with
  | mk ds rest =>
    rw [hread] at hk hr
    dsimp only at hk hr ⊢
    cases hrest : Text.trimStart rest with
    | nil => simp [hrest, skip_nil] at hr
    | cons c behind =>
      have hne : rest ≠ [] := by
        rintro rfl
        simp [Text.trimStart] at hrest
      obtain ⟨hsuffix, hread'⟩ := digits_append hread (Nat.le_refl _) hne
      -- Blanks, digits and blanks again are left off, and each leaves something of the text.
      have hblanks (t : Text) : Text.trimStart t <:+ t := List.dropWhile_suffix _
      have hsuffix' : c :: behind <:+ t := hrest ▸ ((hblanks rest).trans hsuffix).trans (hblanks t)
      rw [hrest] at hr
      refine ⟨(skip_suffix spaced _).trans hsuffix', fun u => ?_⟩
      cases hstart : Text.trimStart t with
      | nil => exact absurd (List.suffix_nil.mp (hstart ▸ hsuffix)) hne
      | cons d front =>
        have hread'' := hread' u (d :: (front ++ u)).length (by simp [hstart])
        rw [hstart, List.cons_append] at hread''
        cases hskip : skip spaced (c :: behind) with
        | nil => exact absurd hskip hr
        | cons e more =>
          have hskip' := skip_append hskip u
          rw [List.cons_append] at hskip'
          simp only [bound?, trimStart_append_of_cons hstart, hread'', hk, Option.bind_some, hmax, if_true,
            trimStart_append_of_cons hrest, hskip', List.cons_append]

/-! The rest of a repetition -/

/-- A preference is seen as before, whatever follows a character. -/
theorem preference_append (c : Char) (t u : Text) :
    preference (c :: (t ++ u)) = ((preference (c :: t)).1, (preference (c :: t)).2 ++ u) := by
  by_cases hc : c = '?'
  · subst hc
    rfl
  · simp [preference, hc]

/-- At the end of a branch a repetition is greedy. -/
theorem preference_of_endsBranch (hu : EndsBranch u) : preference u = (true, u) := by
  obtain ⟨v, rfl | rfl⟩ := hu <;> rfl

/-- What follows a preference is an end of the text. -/
theorem preference_suffix (t : Text) : (preference t).2 <:+ t := by
  unfold preference
  split
  · exact List.suffix_cons _ _
  · exact List.suffix_rfl

/-- The end of a counted repetition, behind its bounds. -/
def countedEnd (spaced : Bool) (lo : Nat) (hi : Option Nat) (s : Text) : Option (Token × Text) :=
  match s with
  | '\x7d' :: r =>
    let (greedy, r) := preference (skip spaced r)
    if hi.all (lo ≤ ·) then some (turns lo hi greedy, r) else none
  | _ => none

/-- What is behind the comma of a counted repetition. -/
def countedUpper (spaced : Bool) (lo : Nat) (s : Text) : Option (Token × Text) :=
  match s with
  | '\x7d' :: r => countedEnd spaced lo none ('\x7d' :: r)
  | s => (bound? spaced s).bind fun (hi, r) => countedEnd spaced lo (some hi) r

/-- Behind a comma the upper bound of a repetition is read. -/
theorem counted_of_comma {lo : Nat} (h : bound? spaced (skip spaced t) = some (lo, ',' :: r)) :
    counted spaced t = countedUpper spaced lo (skip spaced r) := by
  unfold counted
  rw [h]
  rfl

/-- Without a comma the bounds of a repetition are the same. -/
theorem counted_of_ne {lo : Nat} {c : Char} (hc : c ≠ ',')
    (h : bound? spaced (skip spaced t) = some (lo, c :: r)) :
    counted spaced t = countedEnd spaced lo (some lo) (c :: r) := by
  unfold counted
  rw [h]
  simp only [Option.bind_some]
  split
  · next heq => exact absurd (List.cons.inj heq).1 hc
  · rfl

/-- A brace closes the bounds of a repetition, if they are in order. -/
theorem countedEnd_close (lo : Nat) (hi : Option Nat) (t : Text) :
    countedEnd spaced lo hi ('\x7d' :: t) =
      if hi.all (lo ≤ ·) then
        some (.turns lo hi (preference (skip spaced t)).1, (preference (skip spaced t)).2)
      else none := rfl

/-- Nothing but a brace closes the bounds of a repetition. -/
theorem countedEnd_of_ne {lo : Nat} {hi : Option Nat} {c : Char} (hc : c ≠ '\x7d') :
    countedEnd spaced lo hi (c :: t) = none := by
  unfold countedEnd
  split
  · next heq => exact absurd (List.cons.inj heq).1 hc
  · rfl

/-- Where a comment runs to the end of the text, a repetition takes all of it. -/
theorem countedEnd_append {lo : Nat} {hi : Option Nat} {token : Token}
    (h : countedEnd spaced lo hi t = some (token, r)) :
    t ≠ [] ∧ r <:+ t ∧ (∃ lo hi greedy, token = .turns lo hi greedy) ∧
      ((∀ u, EndsBranch u → countedEnd spaced lo hi (t ++ u) = some (token, r ++ u)) ∨
        spaced = true ∧ r = []) := by
  cases t with
  | nil => simp [countedEnd] at h
  | cons c t =>
    by_cases hc : c = '\x7d'
    · subst hc
      rw [countedEnd_close] at h
      obtain ⟨hbounds, heq⟩ := Option.ite_none_right_eq_some.mp h
      obtain ⟨rfl, rfl⟩ := Prod.mk.inj (Option.some.inj heq)
      refine ⟨List.cons_ne_nil _ _, ((preference_suffix _).trans (skip_suffix spaced t)).trans
        (List.suffix_cons _ t), ⟨_, _, _, rfl⟩, ?_⟩
      -- Spacing behind the brace belongs to the sign, for a question mark may come after it.
      cases hskip : skip spaced t with
      | nil =>
        cases spaced with
        | true => exact .inr ⟨rfl, rfl⟩
        | false =>
          obtain rfl : t = [] := hskip
          refine .inl fun u hu => ?_
          have hpreference : preference (skip false u) = (true, u) := preference_of_endsBranch hu
          rw [List.cons_append, List.nil_append, countedEnd_close, hpreference, if_pos hbounds]
          rfl
      | cons c behind =>
        refine .inl fun u _ => ?_
        rw [List.cons_append, countedEnd_close, skip_append hskip, preference_append, if_pos hbounds]
    · simp [countedEnd_of_ne hc] at h

/-- The upper bound of a repetition is read as before at the end of a branch, unless blanks to be skipped end the
text. -/
theorem countedUpper_append {lo : Nat} {token : Token} (h : countedUpper spaced lo t = some (token, r)) :
    t ≠ [] ∧ r <:+ t ∧ (∃ lo hi greedy, token = .turns lo hi greedy) ∧
      ((∀ u, EndsBranch u → countedUpper spaced lo (t ++ u) = some (token, r ++ u)) ∨
        spaced = true ∧ r = []) := by
  cases t with
  | nil => simp [countedUpper, bound?_nil] at h
  | cons c t =>
    by_cases hc : c = '\x7d'
    · subst hc
      have hend : countedEnd spaced lo none ('\x7d' :: t) = some (token, r) := h
      exact countedEnd_append hend
    · have hupper (t : Text) : countedUpper spaced lo (c :: t) =
          (bound? spaced (c :: t)).bind fun (hi, r) => countedEnd spaced lo (some hi) r := by
        unfold countedUpper
        split
        · next heq => exact absurd (List.cons.inj heq).1 hc
        · rfl
      rw [hupper] at h
      obtain ⟨⟨hi, rest⟩, hhi, hend⟩ := Option.bind_eq_some_iff.mp h
      obtain ⟨hne, hsuffix, hturns, hread⟩ := countedEnd_append hend
      obtain ⟨hsuffix', hhi'⟩ := bound?_append hhi hne
      refine ⟨List.cons_ne_nil _ _, hsuffix.trans hsuffix', hturns, hread.imp_left fun hread u hu => ?_⟩
      have hhi'' := hhi' u
      rw [List.cons_append] at hhi''
      rw [List.cons_append, hupper, hhi'', Option.bind_some]
      exact hread u hu

/-- The bounds of a repetition are read as before at the end of a branch, unless blanks to be skipped end the text. -/
theorem counted_append {token : Token} (h : counted spaced t = some (token, r)) :
    r <:+ t ∧ (∃ lo hi greedy, token = .turns lo hi greedy) ∧
      ((∀ u, EndsBranch u → counted spaced (t ++ u) = some (token, r ++ u)) ∨ spaced = true ∧ r = []) := by
  cases hskip : skip spaced t with
  | nil => simp [counted, hskip, bound?_nil] at h
  | cons d behind =>
    cases hlo : bound? spaced (d :: behind) with
    | none => simp [counted, hskip, hlo] at h
    | some parts =>
      obtain ⟨lo, rest⟩ := parts
      have hlo' : bound? spaced (skip spaced t) = some (lo, rest) := hskip ▸ hlo
      cases rest with
      | nil => simp [counted, hlo'] at h
      | cons c rest =>
        obtain ⟨hsuffix, hbound⟩ := bound?_append hlo (List.cons_ne_nil c rest)
        have hsuffix' : c :: rest <:+ t := hsuffix.trans (hskip ▸ skip_suffix spaced t)
        -- The lower bound ends inside of the text, in front of a comma or of the closing brace.
        have hbound' (u : Text) : bound? spaced (skip spaced (t ++ u)) = some (lo, c :: (rest ++ u)) := by
          rw [skip_append hskip]
          exact hbound u
        by_cases hc : c = ','
        · subst hc
          rw [counted_of_comma hlo'] at h
          obtain ⟨hne, hsuffix'', hturns, hread⟩ := countedUpper_append h
          refine ⟨(hsuffix''.trans (skip_suffix spaced rest)).trans ((List.suffix_cons _ rest).trans hsuffix'),
            hturns, hread.imp_left fun hread u hu => ?_⟩
          obtain ⟨e, more, hmore⟩ := List.exists_cons_of_ne_nil hne
          have hread' := hread u hu
          rw [hmore, List.cons_append] at hread'
          rw [counted_of_comma (hbound' u), skip_append hmore, hread']
        · rw [counted_of_ne hc hlo'] at h
          obtain ⟨-, hsuffix'', hturns, hread⟩ := countedEnd_append h
          refine ⟨hsuffix''.trans hsuffix', hturns, hread.imp_left fun hread u hu => ?_⟩
          rw [counted_of_ne hc (hbound' u)]
          exact hread u hu

/-! ## Groups -/

/-- The name of a group is read as before, whatever follows. -/
theorem groupName_append {name : Text} (h : groupName t = some (name, r)) :
    r <:+ t ∧ ∀ u, groupName (t ++ u) = some (name, r ++ u) := by
  obtain ⟨⟨name', r'⟩, hsplit, h⟩ := Option.bind_eq_some_iff.mp h
  cases name' with
  | nil => simp at h
  | cons c rest =>
    obtain ⟨hname, heq⟩ := Option.ite_none_right_eq_some.mp h
    obtain ⟨rfl, rfl⟩ := Prod.mk.inj (Option.some.inj heq)
    refine ⟨suffix_of_splitFirst hsplit, fun u => ?_⟩
    simp only [groupName, splitFirst_append_right hsplit, Option.bind_some, hname, if_true]

/-- Changes of modes are read as before, whatever follows. -/
theorem modeChanges_append {on lastHyphen opens : Bool} {acc changes : List (Mode × Bool)}
    (h : modeChanges on lastHyphen acc t = some (changes, opens, r)) :
    r <:+ t ∧ ∀ u, modeChanges on lastHyphen acc (t ++ u) = some (changes, opens, r ++ u) := by
  fun_induction modeChanges on lastHyphen acc t with
  | case1 => simp at h
  | case2 => simp at h
  | case3 => simp_all [modeChanges]
  | case4 => simp at h
  | case5 => simp_all [modeChanges]
  | case6 _ _ _ ih =>
    obtain ⟨hsuffix, hread⟩ := ih h
    exact ⟨hsuffix.trans (List.suffix_cons _ _), fun u => by simp [modeChanges, hread u]⟩
  | case7 => simp at h
  | case8 => simp at h
  | case9 => simp at h
  | case10 _ _ _ _ _ _ _ _ m hm hnew ih =>
    obtain ⟨hsuffix, hread⟩ := ih h
    refine ⟨hsuffix.trans (List.suffix_cons _ _), fun u => ?_⟩
    rw [List.cons_append, modeChanges]
    · simp only [hm, hnew, Bool.false_eq_true, if_false, hread u]
    all_goals assumption

/-- A group with a name, behind the sign that the name follows. -/
def namedGroup (s : Text) : Option (Token × Text) :=
  (groupName s).map fun (name, r) => (openCapture (some name), r)

/-- A group that switches modes, behind its question mark. -/
def modesGroup (s : Text) : Option (Token × Text) :=
  (modeChanges true false [] s).bind fun (changes, opens, r) =>
    if opens then some (openModes changes, r)
    else if changes.isEmpty then none
    else some (setModes changes, r)

/-- A group behind its question mark. -/
def questioned : Text → Option (Token × Text)
  | '=' :: _ => none
  | '!' :: _ => none
  | '<' :: '=' :: _ => none
  | '<' :: '!' :: _ => none
  | 'P' :: '<' :: r => namedGroup r
  | '<' :: r => namedGroup r
  | r => modesGroup r

/-- A question mark behind a parenthesis says what the group is. -/
theorem group_of_question (h : skip spaced t = '?' :: r) : group spaced t = questioned r := by
  unfold group questioned
  rw [h]
  split <;> simp_all [namedGroup, modesGroup]

/-- A named group is opened as before, whatever follows. -/
theorem namedGroup_append {token : Token} (h : namedGroup t = some (token, r)) :
    t ≠ [] ∧ r <:+ t ∧ ∀ u, namedGroup (t ++ u) = some (token, r ++ u) := by
  obtain ⟨⟨name, rest⟩, hname, heq⟩ := Option.map_eq_some_iff.mp h
  obtain ⟨rfl, rfl⟩ := Prod.mk.inj heq
  obtain ⟨hsuffix, hread⟩ := groupName_append hname
  refine ⟨?_, hsuffix, fun u => by rw [namedGroup, hread u, Option.map_some]⟩
  rintro rfl
  simp [groupName, Text.splitFirst] at hname

/-- A group with modes is opened as before, whatever follows. -/
theorem modesGroup_append {token : Token} (h : modesGroup t = some (token, r)) :
    r <:+ t ∧ ∀ u, modesGroup (t ++ u) = some (token, r ++ u) := by
  obtain ⟨⟨changes, opens, rest⟩, hchanges, h⟩ := Option.bind_eq_some_iff.mp h
  obtain ⟨hsuffix, hread⟩ := modeChanges_append hchanges
  have hrest : rest = r := by
    dsimp only at h
    split_ifs at h <;> exact (Prod.mk.inj (Option.some.inj h)).2
  subst hrest
  refine ⟨hsuffix, fun u => ?_⟩
  rw [modesGroup, hread u, Option.bind_some]
  dsimp only at h ⊢
  split_ifs at h ⊢ <;> rw [(Prod.mk.inj (Option.some.inj h)).1]

/-- What is neither a condition nor a name changes modes. -/
theorem questioned_of_modes {c : Char} (hc : c ≠ '=' ∧ c ≠ '!' ∧ c ≠ '<' ∧ c ≠ 'P') :
    questioned (c :: t) = modesGroup (c :: t) := by
  unfold questioned
  split <;> simp_all

/-- What is no look behind is a name. -/
theorem questioned_of_angle {c : Char} (hc : c ≠ '=' ∧ c ≠ '!') :
    questioned ('<' :: c :: t) = namedGroup (c :: t) := by
  unfold questioned
  split <;> simp_all

/-- What a question mark says of a group is read as before, whatever follows. -/
theorem questioned_append {token : Token} (h : questioned t = some (token, r)) :
    r <:+ t ∧ ∀ u, questioned (t ++ u) = some (token, r ++ u) := by
  cases t with
  | nil => simp [questioned, modesGroup, modeChanges] at h
  | cons c t =>
    by_cases hc : c ≠ '=' ∧ c ≠ '!' ∧ c ≠ '<' ∧ c ≠ 'P'
    · rw [questioned_of_modes hc] at h
      obtain ⟨hsuffix, hread⟩ := modesGroup_append h
      refine ⟨hsuffix, fun u => ?_⟩
      rw [List.cons_append, questioned_of_modes hc]
      exact hread u
    · obtain rfl | rfl | rfl | rfl : c = '=' ∨ c = '!' ∨ c = '<' ∨ c = 'P' := by grind
      · simp [questioned] at h
      · simp [questioned] at h
      · cases t with
        | nil => simp [questioned, namedGroup, groupName, Text.splitFirst] at h
        | cons d t =>
          have hd : d ≠ '=' ∧ d ≠ '!' := by
            constructor
            all_goals
              rintro rfl
              simp [questioned] at h
          rw [questioned_of_angle hd] at h
          obtain ⟨-, hsuffix, hread⟩ := namedGroup_append h
          refine ⟨hsuffix.trans (List.suffix_cons _ _), fun u => ?_⟩
          rw [List.cons_append, List.cons_append, questioned_of_angle hd]
          exact hread u
      · by_cases hangle : ∃ s, t = '<' :: s
        · obtain ⟨s, rfl⟩ := hangle
          obtain ⟨-, hsuffix, hread⟩ := namedGroup_append h
          exact ⟨hsuffix.trans ((List.suffix_cons _ s).trans (List.suffix_cons _ _)), hread⟩
        · -- `P` names no mode.
          have hmodes : questioned ('P' :: t) = modesGroup ('P' :: t) := by
            unfold questioned
            split <;> simp_all
          rw [hmodes] at h
          simp [modesGroup, modeChanges, mode?] at h

/-- Without a question mark a group captures. -/
theorem group_of_capture {c : Char} (hc : c ≠ '?') (h : skip spaced t = c :: r) :
    group spaced t = some (openCapture none, c :: r) := by
  unfold group
  rw [h]
  split <;> simp_all

/-- A group is opened as before at the end of a branch, unless blanks to be skipped end the text. -/
theorem group_append {token : Token} (h : group spaced t = some (token, r)) :
    r <:+ t ∧ ((∀ u, EndsBranch u → group spaced (t ++ u) = some (token, r ++ u)) ∨
      spaced = true ∧ r = [] ∧ token = .openCapture none) := by
  cases hskip : skip spaced t with
  | nil =>
    have hgroup : group spaced t = some (openCapture none, []) := by
      unfold group
      rw [hskip]
    obtain ⟨rfl, rfl⟩ := Prod.mk.inj (Option.some.inj (hgroup.symm.trans h))
    refine ⟨List.nil_suffix, ?_⟩
    -- Nothing stands behind the parenthesis: with spacing, a comment may have taken it.
    cases spaced with
    | true => exact .inr ⟨rfl, rfl, rfl⟩
    | false =>
      obtain rfl : t = [] := hskip
      refine .inl fun u ⟨v, hu⟩ => ?_
      rcases hu with rfl | rfl
      all_goals exact group_of_capture (by decide) rfl
  | cons c rest =>
    by_cases hc : c = '?'
    · subst hc
      rw [group_of_question hskip] at h
      obtain ⟨hsuffix, hread⟩ := questioned_append h
      refine ⟨hsuffix.trans (suffix_of_skip hskip), .inl fun u _ => ?_⟩
      rw [group_of_question (skip_append hskip u), hread u]
    · rw [group_of_capture hc hskip] at h
      obtain ⟨rfl, rfl⟩ := Prod.mk.inj (Option.some.inj h)
      exact ⟨hskip ▸ skip_suffix spaced t, .inl fun u _ => group_of_capture hc (skip_append hskip u)⟩

/-! ## Any sign -/

/-- A sign is read the same whatever follows, unless it takes a comment that runs to the end of the text. -/
theorem next_append {token : Token} (h : next spaced t = some (token, r)) :
    r.length < t.length ∧ ((∀ u, EndsBranch u → next spaced (t ++ u) = some (token, r ++ u)) ∨
      spaced = true ∧ r = [] ∧ ((∃ lo hi greedy, token = .turns lo hi greedy) ∨ token = .openCapture none)) := by
  have hturns (s u : Text) (hu : EndsBranch u) :
      preference (s ++ u) = ((preference s).1, (preference s).2 ++ u) := by
    cases s with
    | nil => exact preference_of_endsBranch hu
    | cons c s => exact preference_append c s u
  unfold next at h
  split at h
  · simp at h
  · -- `(`
    obtain ⟨hsuffix, hread⟩ := group_append h
    refine ⟨Nat.lt_succ_of_le hsuffix.length_le, ?_⟩
    exact hread.imp id fun hend => ⟨hend.1, hend.2.1, .inr hend.2.2⟩
  iterate 2
    · -- `)` and `|`
      obtain ⟨rfl, rfl⟩ := Prod.mk.inj (Option.some.inj h)
      exact ⟨Nat.lt_succ_self _, .inl fun u _ => rfl⟩
  · -- `[`
    obtain ⟨⟨e, rest⟩, he, heq⟩ := Option.map_eq_some_iff.mp h
    obtain ⟨rfl, rfl⟩ := Prod.mk.inj heq
    obtain ⟨hsuffix, hread⟩ := bracketClass_append he
    refine ⟨Nat.lt_succ_of_le hsuffix.length_le, .inl fun u hu => ?_⟩
    rw [List.cons_append, next, hread u hu, Option.map_some]
  iterate 3
    · -- `?`, `*` and `+`
      next s =>
      have hlength := (preference_suffix s).length_le
      have happend := hturns s
      cases hp : preference s with
      | mk greedy rest =>
        rw [hp] at h hlength happend
        obtain ⟨rfl, rfl⟩ := Prod.mk.inj (Option.some.inj h)
        refine ⟨Nat.lt_succ_of_le hlength, .inl fun u hu => ?_⟩
        rw [List.cons_append, next, happend u hu]
  · -- An opening brace.
    obtain ⟨hsuffix, hcounted, hread⟩ := counted_append h
    refine ⟨Nat.lt_succ_of_le hsuffix.length_le, ?_⟩
    exact hread.imp id fun hend => ⟨hend.1, hend.2, .inl hcounted⟩
  · -- A backslash.
    obtain ⟨⟨e, rest⟩, he, heq⟩ := Option.map_eq_some_iff.mp h
    obtain ⟨rfl, rfl⟩ := Prod.mk.inj heq
    obtain ⟨hsuffix, hread⟩ := escape?_append he
    refine ⟨Nat.lt_succ_of_le hsuffix.length_le, .inl fun u hu => ?_⟩
    rw [List.cons_append, next, hread u hu, Option.map_some]
  iterate 3
    · -- `.`, `^` and `$`
      obtain ⟨rfl, rfl⟩ := Prod.mk.inj (Option.some.inj h)
      exact ⟨Nat.lt_succ_self _, .inl fun u _ => rfl⟩
  · -- Any other character.
    obtain ⟨rfl, rfl⟩ := Prod.mk.inj (Option.some.inj h)
    refine ⟨Nat.lt_succ_self _, .inl fun u _ => ?_⟩
    rw [List.cons_append, next]
    all_goals assumption

end Token

end UrlFilter.Regex
