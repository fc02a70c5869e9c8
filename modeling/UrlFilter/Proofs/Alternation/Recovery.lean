import UrlFilter.Proofs.Alternation.Structure
import UrlFilter.Proofs.Except
import UrlFilter.Rule.Admission

/-!
# Recovering fragments

When does a joined text split into the fragments that it was joined from? Splitting knows escapes,
parentheses and classes without classes in them, so it can take a bar inside of a class for one outside,
or the other way round. `branches_join_iff` says exactly which fragments come back. For regular expressions
of rules this decides whether their bucket can be loaded again; one with a class in a class may not come
back.
-/

namespace UrlFilter.Alternation

/-! ## Marks in front of a bar -/

/-- What a parenthesis opens does not depend on what stands behind a bar. -/
theorem GroupKind.of_append_bar (t u : Text) : GroupKind.of (t ++ '|' :: u) = GroupKind.of t := by
  fun_cases GroupKind.of t
  -- The kind is read off at most three signs, and a bar is none of them.
  case case8 t hahead hbehind =>
    cases t with
    | nil => rfl
    | cons c t =>
      rw [List.cons_append, List.cons_append, List.cons_append, GroupKind.of]
      · exact fun _ h => hahead t (by rw [(List.cons.inj h).1])
      · exact fun _ h => hbehind t (by rw [(List.cons.inj h).1])
  case case9 t hahead hnot _ _ hatomic hchoice hnamed hangle =>
    cases t with
    | nil => rfl
    | cons c t =>
      rw [List.cons_append, List.cons_append, GroupKind.of]
      · exact fun _ h => hahead t (by rw [(List.cons.inj h).1])
      · exact fun _ h => hnot t (by rw [(List.cons.inj h).1])
      · exact fun _ h => hangle t (by rw [(List.cons.inj h).1])
      · exact fun _ h => hangle t (by rw [(List.cons.inj h).1])
      · exact fun _ h => hatomic t (by rw [(List.cons.inj h).1])
      · exact fun _ h => hchoice t (by rw [(List.cons.inj h).1])
      · intro _ h
        cases t with
        | nil => simp at h
        | cons d t =>
          obtain ⟨rfl, hrest⟩ := List.cons.inj h
          exact hnamed t (by rw [(List.cons.inj hrest).1])
      · exact fun _ h => hangle t (by rw [(List.cons.inj h).1])
  case case10 _ _ _ _ _ _ _ _ hnone =>
    cases t with
    | nil => rfl
    | cons c t =>
      have hc : c ≠ '?' := fun h => hnone t (by rw [h])
      rw [List.cons_append, GroupKind.of]
      all_goals exact fun _ h => hc (List.cons.inj h).1
  all_goals rfl

namespace Mark

/-- The mark of a character that neither escapes nor opens a class. -/
theorem ofText_cons {c : Char} (hback : c ≠ '\\') (hbracket : c ≠ '[') (inClass : Bool) (t : Text) :
    ofText inClass (c :: t) =
      if inClass then .plain c :: ofText (c != ']') t
      else if c = '(' then .opening (.of t) :: ofText false t
      else if c = ')' then .closing :: ofText false t
      else if c = '|' then .bar :: ofText false t
      else .plain c :: ofText false t := by
  rw [ofText] <;> simp_all

/-- Digits stop at a mark that is none, whatever follows. -/
theorem takeDigits_append (ms : List Mark) {m : Mark} {ms' : List Mark}
    (hm : takeDigits (m :: ms') = ([], m :: ms')) :
    takeDigits (ms ++ m :: ms') = ((takeDigits ms).1, (takeDigits ms).2 ++ m :: ms') := by
  induction ms with
  | nil => exact hm
  | cons a ms ih =>
    cases a with
    | plain c =>
      simp only [List.cons_append, takeDigits]
      split
      · rw [ih]
      · rfl
    | _ => rfl

/-- An escape stops at a mark that is no digit, whatever follows. -/
theorem escape_append (c : Char) (ms : List Mark) {m : Mark} {ms' : List Mark}
    (hm : takeDigits (m :: ms') = ([], m :: ms')) : escape c (ms ++ m :: ms') = escape c ms ++ m :: ms' := by
  unfold escape
  split
  · rw [takeDigits_append ms hm]
    rfl
  · rfl

/-- The mark of a bar, in a class and outside. -/
def ofBar (inClass : Bool) : Mark := if inClass then .plain '|' else .bar

/-- A bar between rules is no digit. -/
theorem takeDigits_ofBar (inClass : Bool) (ms : List Mark) :
    takeDigits (ofBar inClass :: ms) = ([], ofBar inClass :: ms) := by
  cases inClass <;> rfl

/-- What a text leaves to the text behind it is whether that begins in a class, unless it ends with a
backslash. -/
theorem ofText_append_bar (inClass : Bool) (t : Text) (h : t.getLast? ≠ some '\\') :
    ∃ c, ∀ u, ofText inClass (t ++ '|' :: u) = ofText inClass t ++ ofBar c :: ofText c u := by
  have hlast {c : Char} {t : Text} (h : (c :: t).getLast? ≠ some '\\') : t.getLast? ≠ some '\\' := by
    cases t with
    | nil => simp
    | cons d t => rwa [List.getLast?_cons_cons] at h
  -- The cases are the signs that are read. Each looks no further than the text goes, for where the text ends
  -- the bar is no part of a sign; a backslash would take it as its own.
  fun_induction ofText inClass t
  case case1 inClass =>
    refine ⟨inClass, fun u => ?_⟩
    rw [List.nil_append, ofText_cons (by decide) (by decide)]
    cases inClass <;> rfl
  case case2 => exact absurd rfl h
  case case3 c t ih =>
    obtain ⟨c', hc'⟩ := ih (hlast (hlast h))
    exact ⟨c', fun u => by simp [ofText, hc']⟩
  case case4 inClass c t hclass ih =>
    obtain ⟨c', hc'⟩ := ih (hlast (hlast h))
    refine ⟨c', fun u => ?_⟩
    rw [List.cons_append, List.cons_append, ofText, if_neg hclass, hc', escape_append]
    exact takeDigits_ofBar c' _
  case case5 t ih =>
    obtain ⟨c', hc'⟩ := ih (hlast (hlast (hlast h)))
    exact ⟨c', fun u => by simp [ofText, hc']⟩
  case case6 inClass t hclass ih =>
    obtain ⟨c', hc'⟩ := ih (hlast (hlast (hlast h)))
    exact ⟨c', fun u => by simp [ofText, hc', hclass]⟩
  case case7 inClass t hbracket ih =>
    obtain ⟨c', hc'⟩ := ih (hlast (hlast h))
    refine ⟨c', fun u => ?_⟩
    rw [List.cons_append, List.cons_append, ofText, hc'] <;> cases t <;> simp_all
  case case8 t ih =>
    obtain ⟨c', hc'⟩ := ih (hlast (hlast h))
    exact ⟨c', fun u => by simp [ofText, hc']⟩
  case case9 inClass t hclass ih =>
    obtain ⟨c', hc'⟩ := ih (hlast (hlast h))
    exact ⟨c', fun u => by simp [ofText, hc', hclass]⟩
  case case10 inClass t _ hcaret hbracket ih =>
    obtain ⟨c', hc'⟩ := ih (hlast h)
    refine ⟨c', fun u => ?_⟩
    rw [List.cons_append, ofText, hc'] <;> cases t <;> simp_all
  case case11 c t hend hback _ _ _ hbracket ih =>
    have hc : c ≠ '\\' := fun hc => by cases t <;> simp_all
    obtain ⟨c', hc'⟩ := ih (hlast h)
    exact ⟨c', fun u => by rw [List.cons_append, ofText_cons hc hbracket, if_pos rfl, hc']; rfl⟩
  case case12 inClass t hclass _ _ _ _ _ _ ih =>
    obtain ⟨c', hc'⟩ := ih (hlast h)
    refine ⟨c', fun u => ?_⟩
    rw [List.cons_append, ofText_cons (by decide) (by decide), if_neg hclass, if_pos rfl, hc',
      GroupKind.of_append_bar]
    rfl
  case case13 inClass t hclass _ _ _ _ _ _ _ ih =>
    obtain ⟨c', hc'⟩ := ih (hlast h)
    refine ⟨c', fun u => ?_⟩
    rw [List.cons_append, ofText_cons (by decide) (by decide), if_neg hclass, if_neg (by decide),
      if_pos rfl, hc']
    rfl
  case case14 inClass t hclass _ _ _ _ _ _ _ _ ih =>
    obtain ⟨c', hc'⟩ := ih (hlast h)
    refine ⟨c', fun u => ?_⟩
    rw [List.cons_append, ofText_cons (by decide) (by decide), if_neg hclass, if_neg (by decide),
      if_neg (by decide), if_pos rfl, hc']
    rfl
  case case15 inClass c t hend hback _ _ _ hbracket hclass hopen hclose hbar ih =>
    have hc : c ≠ '\\' := fun hc => by cases t <;> simp_all
    obtain ⟨c', hc'⟩ := ih (hlast h)
    refine ⟨c', fun u => ?_⟩
    rw [List.cons_append, ofText_cons hc hbracket, if_neg hclass, if_neg hopen, if_neg hclose,
      if_neg hbar, hc']
    rfl

end Mark

/-! ## Splitting at the first bar -/

/-- A mark stands for at least one character. -/
theorem Mark.text_ne_nil (m : Mark) : m.text ≠ [] := by
  cases m <;> simp [text]

/-- Of the beginnings of a sequence of marks, the text tells which it is. -/
theorem eq_of_write_eq {ms ms' rest rest' : List Mark} (h : ms ++ rest = ms' ++ rest')
    (hwrite : Mark.write ms = Mark.write ms') : ms = ms' := by
  induction ms generalizing ms' with
  | nil =>
    cases ms' with
    | nil => rfl
    | cons m ms' => simp [Mark.write, m.text_ne_nil] at hwrite
  | cons m ms ih =>
    cases ms' with
    | nil => simp [Mark.write, m.text_ne_nil] at hwrite
    | cons m' ms' =>
      obtain ⟨rfl, hrest⟩ := List.cons.inj h
      have hwrite' : Mark.write ms = Mark.write ms' := by
        simpa [Mark.write] using hwrite
      rw [ih hrest hwrite']

/-- The depth behind a mark. -/
def Mark.behind (depth : Nat) : Mark → Nat
  | opening _ => depth + 1
  | closing => depth - 1
  | _ => depth

section

variable {depth : Nat} {m : Mark} {ms b b' : List Mark} {bs : List (List Mark)}

/-- A mark that is no bar between branches belongs to the first branch. -/
theorem branchesFrom_cons (h : ¬(m = .bar ∧ depth = 0))
    (hrest : branchesFrom (m.behind depth) ms = b :: bs) :
    branchesFrom depth (m :: ms) = (m :: b) :: bs := by
  cases m with
  | bar =>
    have hdepth : depth ≠ 0 := fun hd => h ⟨rfl, hd⟩
    simp only [Mark.behind] at hrest
    simp [branchesFrom, hdepth, hrest]
  | _ =>
    simp only [Mark.behind] at hrest
    simp [branchesFrom, hrest]

/-- A mark that is no bar between branches is passed on the way through a branch. -/
theorem through_cons (h : ¬(m = .bar ∧ depth = 0)) :
    through depth (m :: ms) = through (m.behind depth) ms := by
  cases m with
  | bar =>
    have hdepth : depth ≠ 0 := fun hd => h ⟨rfl, hd⟩
    rw [through, if_neg hdepth]
    rfl
  | _ => rfl

/-- The first of several branches ends in front of a bar that stands outside of groups. -/
theorem of_branchesFrom_cons (h : branchesFrom depth ms = b :: b' :: bs) :
    ∃ rest, ms = b ++ .bar :: rest ∧ through depth b = some 0 ∧ branchesFrom 0 rest = b' :: bs := by
  induction ms generalizing depth b with
  | nil => simp [branchesFrom] at h
  | cons m ms ih =>
    by_cases hbar : m = .bar ∧ depth = 0
    · obtain ⟨rfl, rfl⟩ := hbar
      simp only [branchesFrom, and_self, if_true, List.cons.injEq] at h
      obtain ⟨rfl, h⟩ := h
      exact ⟨ms, rfl, rfl, h⟩
    · obtain ⟨b₀, bs₀, hinner⟩ := List.exists_cons_of_ne_nil (branchesFrom_ne_nil (m.behind depth) ms)
      rw [branchesFrom_cons hbar hinner] at h
      obtain ⟨rfl, rfl⟩ := List.cons.inj h
      obtain ⟨rest, rfl, hthrough, hrest⟩ := ih hinner
      exact ⟨rest, rfl, through_cons hbar ▸ hthrough, hrest⟩

/-- Marks are one branch when no bar stands outside of groups. -/
theorem branchesFrom_eq_singleton_iff :
    branchesFrom depth ms = [b] ↔ b = ms ∧ (through depth ms).isSome = true := by
  induction ms generalizing depth b with
  | nil => simp [branchesFrom, through, eq_comm]
  | cons m ms ih =>
    by_cases hbar : m = .bar ∧ depth = 0
    · -- A bar outside of groups makes a second branch.
      obtain ⟨rfl, rfl⟩ := hbar
      simp [branchesFrom, through, branchesFrom_ne_nil]
    · obtain ⟨b₀, bs₀, hinner⟩ := List.exists_cons_of_ne_nil (branchesFrom_ne_nil (m.behind depth) ms)
      rw [branchesFrom_cons hbar hinner, through_cons hbar]
      constructor
      · intro h
        obtain ⟨rfl, rfl⟩ := List.cons.inj h
        obtain ⟨rfl, hthrough⟩ := ih.mp hinner
        exact ⟨rfl, hthrough⟩
      · rintro ⟨rfl, hthrough⟩
        obtain ⟨rfl, rfl⟩ := List.cons.inj (hinner.symm.trans (ih.mpr ⟨rfl, hthrough⟩))
        rfl

end

/-! ## Joined texts -/

/-- The first text of a joined list begins the whole. -/
theorem join_append_cons (sep s t : Text) (ts : List Text) :
    Text.join sep ((s ++ t) :: ts) = s ++ Text.join sep (t :: ts) := by
  cases ts with
  | nil => rfl
  | cons t' ts => simp [Text.join]

/-- The branches of marks, joined by bars, are what the marks stand for. -/
theorem join_branchesFrom (depth : Nat) (ms : List Mark) :
    Text.join ['|'] ((branchesFrom depth ms).map Mark.write) = Mark.write ms := by
  induction ms generalizing depth with
  | nil => rfl
  | cons m ms ih =>
    obtain ⟨b, bs, hrest⟩ := List.exists_cons_of_ne_nil (branchesFrom_ne_nil (m.behind depth) ms)
    have hjoin := ih (m.behind depth)
    rw [hrest] at hjoin
    by_cases hbar : m = .bar ∧ depth = 0
    · obtain ⟨rfl, rfl⟩ := hbar
      have hsplit : branchesFrom 0 (.bar :: ms) = [] :: b :: bs := by
        simp only [branchesFrom, and_self, if_true]
        exact congrArg _ hrest
      rw [hsplit]
      simp only [List.map_cons, Text.join] at hjoin ⊢
      rw [hjoin]
      rfl
    · rw [branchesFrom_cons hbar hrest]
      -- The mark belongs to the first branch of the rest.
      have hfirst := join_append_cons ['|'] m.text (Mark.write b) (bs.map Mark.write)
      rw [← List.map_cons, hjoin] at hfirst
      exact hfirst

/-- The branches of a text, joined by bars, are the text. -/
theorem join_branches (t : Text) : Text.join ['|'] (branches t) = t := by
  rw [branches, join_branchesFrom, write_marks]

/-- Splitting the texts joined by bars gives them back: it takes each but the last for a branch that
leaves nothing open, and finds no bar outside of groups in the last one. -/
def Recovered : List Text → Prop
  | [] => True
  | [t] => (through 0 (marks t)).isSome = true
  | t :: t' :: ts => IsBranch t ∧ Recovered (t' :: ts)

/-- Whether a text is a branch shows in front of a single bar. -/
theorem isBranch_iff {t : Text} (h : t.getLast? ≠ some '\\') :
    IsBranch t ↔ marks (t ++ ['|']) = marks t ++ [.bar] ∧ through 0 (marks t) = some 0 := by
  constructor
  · exact fun ⟨hmarks, hthrough⟩ => ⟨hmarks [], hthrough⟩
  · rintro ⟨hmarks, hthrough⟩
    obtain ⟨c, hc⟩ := Mark.ofText_append_bar false t h
    refine ⟨fun u => ?_, hthrough⟩
    have hone : marks t ++ .ofBar c :: Mark.ofText c [] = marks t ++ [.bar] := (hc []).symm.trans hmarks
    cases c with
    | false => exact hc u
    | true => simp [Mark.ofBar] at hone

/-- A text is its own only branch when a walk gets through it without meeting a bar. -/
theorem branches_eq_singleton_iff {t : Text} :
    branches t = [t] ↔ (through 0 (marks t)).isSome = true := by
  constructor
  · intro h
    obtain ⟨b, hb, -⟩ := List.map_eq_singleton_iff.mp h
    exact (branchesFrom_eq_singleton_iff.mp hb).2
  · intro h
    rw [branches, branchesFrom_eq_singleton_iff.mpr ⟨rfl, h⟩, List.map_singleton, write_marks]

/-- A text is the first of several branches when it is a branch wherever it stands. -/
theorem branches_bar_iff {t u : Text} {ts : List Text} (h : t.getLast? ≠ some '\\') (hne : ts ≠ []) :
    branches (t ++ '|' :: u) = t :: ts ↔ IsBranch t ∧ branches u = ts := by
  have hbar : branchesFrom 0 (.bar :: marks u) = [] :: branchesFrom 0 (marks u) := by
    simp [branchesFrom]
  constructor
  · intro hbranches
    obtain ⟨b, bs, hfrom, hwrite, hts⟩ := List.map_eq_cons_iff.mp hbranches
    obtain ⟨b', bs', rfl⟩ : ∃ b' bs', bs = b' :: bs' := by
      cases bs with
      | nil => exact absurd hts.symm hne
      | cons b' bs' => exact ⟨b', bs', rfl⟩
    obtain ⟨rest, hrest, hthrough, hbehind⟩ := of_branchesFrom_cons hfrom
    obtain ⟨c, hc⟩ := Mark.ofText_append_bar false t h
    -- The marks up to the bar write out the text, so they are its marks, and the bar is none in a class.
    have hsplit : b ++ .bar :: rest = marks t ++ .ofBar c :: Mark.ofText c u := hrest.symm.trans (hc u)
    have hb : b = marks t := eq_of_write_eq hsplit (by rw [hwrite, write_marks])
    subst hb
    obtain ⟨hmark, rfl⟩ := List.cons.inj (List.append_cancel_left hsplit)
    cases c with
    | true => simp [Mark.ofBar] at hmark
    | false => exact ⟨⟨hc, hthrough⟩, by rw [branches, marks, hbehind, hts]⟩
  · rintro ⟨ht, rfl⟩
    rw [branches, ht.marks_append, branchesFrom_append ht.through_marks hbar]
    simp [branches, write_marks]

/-- Exactly which texts splitting gives back. -/
theorem branches_join_iff {ts : List Text} (hne : ts ≠ []) (h : ∀ t ∈ ts, t.getLast? ≠ some '\\') :
    branches (Text.join ['|'] ts) = ts ↔ Recovered ts := by
  induction ts with
  | nil => exact absurd rfl hne
  | cons t ts ih =>
    cases ts with
    | nil => exact branches_eq_singleton_iff
    | cons t' ts =>
      have hjoin : Text.join ['|'] (t :: t' :: ts) = t ++ '|' :: Text.join ['|'] (t' :: ts) := by
        simp [Text.join]
      rw [hjoin, branches_bar_iff (h t (by simp)) (by simp),
        ih (by simp) fun s hs => h s (List.mem_cons_of_mem _ hs)]
      rfl

/-! ## Regular expressions of rules -/

/-- A raw fragment ends with its closing bracket, and so with no backslash. -/
theorem getLast?_rawFragment (raw : Text) : (Glob.rawFragment raw).getLast? ≠ some '\\' := by
  rw [Glob.rawFragment, List.getLast?_append]
  simp

/-- A compiled bucket of regular expressions is made again from its rules and its text, with the same
fragments and the same matches, exactly when splitting recovers the fragments. -/
theorem ofText_raws_iff {raws : List Text} (hne : raws ≠ []) {a : Alternation}
    (ha : ofFragments raws (raws.map Glob.rawFragment) = .ok a) :
    (∃ b, ofText raws a.text = .ok b ∧ branchesOf? a.text = some (raws.map Glob.rawFragment) ∧
        ∀ t, b.isMatch t = a.isMatch t) ↔
      Recovered (raws.map Glob.rawFragment) := by
  have hfragments : raws.map Glob.rawFragment ≠ [] := by simpa using hne
  have hlast : ∀ f ∈ raws.map Glob.rawFragment, f.getLast? ≠ some '\\' := by
    intro f hf
    obtain ⟨raw, -, rfl⟩ := List.mem_map.mp hf
    exact getLast?_rawFragment raw
  have hmade : a.rules = raws ∧ a.text = join (raws.map Glob.rawFragment) := by
    obtain ⟨m, -, rfl⟩ := (ofFragments_eq_ok_iff hfragments).mp ha
    exact ⟨rfl, rfl⟩
  obtain ⟨hrules, htext⟩ := hmade
  rw [← branches_join_iff hfragments hlast, htext, branchesOf?_join, Option.some.injEq]
  constructor
  · exact fun ⟨_, _, hbranches, _⟩ => hbranches
  · intro hbranches
    have hagain := ofText_ofFragments_of_branches (by simp) (fun _ => hbranches) ha
    rw [hrules, htext] at hagain
    exact ⟨a, hagain, hbranches, fun _ => rfl⟩

/-- Expressions with bars in a group, in classes and behind a backslash. -/
def barred : List Text := ["ad(b|c)+[x|]y".toList, "\\(a\\|[]|]".toList]

/-- Bars that are not between the expressions do not keep them from coming back. -/
theorem ofText_raws_sample :
    barred ≠ [] ∧ ∃ a b, ofFragments barred (barred.map Glob.rawFragment) = .ok a ∧
      ofText barred a.text = .ok b ∧ ∀ t, b.isMatch t = a.isMatch t := by
  have hne : barred ≠ [] := by simp [barred]
  have hrecovered : Recovered (barred.map Glob.rawFragment) := by
    refine ⟨(isBranch_iff (getLast?_rawFragment _)).mpr (by decide +kernel), ?_⟩
    show (through 0 (marks (Glob.rawFragment "\\(a\\|[]|]".toList))).isSome = true
    decide +kernel
  have hrules : (ofFragments barred (barred.map Glob.rawFragment)).toOption.map (·.rules) = some barred := by
    decide +kernel
  obtain ⟨a, ha, -⟩ := exists_of_toOption_map hrules
  obtain ⟨b, hb, -, hmatch⟩ := (ofText_raws_iff hne ha).mpr hrecovered
  exact ⟨hne, a, b, ha, hb, hmatch⟩

/-- A class within a class, and a letter. -/
def nested : List Text := ["[[a](]".toList, "b".toList]

/-- Both expressions are rules, and their alternation compiles. But its text is not split at the bar between
them, for the inner class is taken to end the outer one, and the parenthesis behind it to open a group. -/
theorem nested_class_not_reloaded :
    (∀ raw ∈ nested, rawFlaw? raw = none) ∧
      ∃ a, ofFragments nested (nested.map Glob.rawFragment) = .ok a ∧
        ofText nested a.text = .error (.malformedText 2) := by
  have htext : (ofFragments nested (nested.map Glob.rawFragment)).toOption.map (·.text) =
      some "(?i)(?:(?:[[a](])|(?:b))".toList := by
    decide +kernel
  obtain ⟨a, ha, htext⟩ := exists_of_toOption_map htext
  refine ⟨by decide +kernel, a, ha, ?_⟩
  rw [htext]
  rfl

end UrlFilter.Alternation
