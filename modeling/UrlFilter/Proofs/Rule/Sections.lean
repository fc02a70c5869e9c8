import UrlFilter.Proofs.Build.Buckets
import UrlFilter.Proofs.Text.Trimming

/-!
# Sections and their comments

A comment decides whether the rules below it are read, until the next comment. A reader takes the sign of an
exception and the options off a line before it looks for a comment, and a line with the sign of a selector is
none at all. So what it hears is a beginning of what the comment says, and all of it where no options were cut
(`follows_of_comment`); the other lines leave the section as it is, and the last comment counts
(`isIgnoring_behind`).
-/

namespace UrlFilter

namespace Line

/-! ## What a comment says -/

/-- A dollar sign ends the text, or an option follows it. -/
def hasOptions : Text → Bool
  | [] => false
  | c :: t => (c == '$' && (t.isEmpty || startsWithOption t)) || hasOptions t

/-- What the line says as a comment. -/
def commentText? (text : Text) : Option Text :=
  if isSelector text then none else comment? (splitException (Text.trimEnd text)).2

/-- The line is a comment. -/
def isComment (text : Text) : Bool := (commentText? text).isSome

/-- The last comment of the lines. -/
def lastComment? (lines : List Text) : Option Text := (lines.filter isComment).getLast?

/-- What a reader hears of the comment, without what it takes for options. -/
def heard? (text : Text) : Option Text :=
  if isSelector text then none else comment? (splitOptions (splitException (Text.trimEnd text)).2).1

/-- The parts of a line with a rule: whether it is an exception, its pattern and the text of its options. -/
def rule? (text : Text) : Option (Bool × Text × Text) :=
  let line := Text.trimEnd text
  let (isException, body) := splitException line
  let (pattern, options) := splitOptions body
  if isConfig line || isSelector line || (comment? pattern).isSome || (Text.trimChar '*' pattern).isEmpty then
    none
  else some (isException, pattern, options)

section
variable {t body pattern cut text rest said : Text}

/-- A comment starts with an exclamation mark behind blanks; what it says is trimmed. -/
theorem comment?_eq_some_iff :
    comment? t = some said ↔ ∃ rest, Text.trimStart t = '!' :: rest ∧ Text.trim rest = said := by
  unfold comment?
  split
  · next rest h => simp [h]
  · next h => simpa using fun rest hrest => absurd hrest (h rest)

/-- The signs of selectors end with a character that is no blank. -/
theorem isSelector_trimEnd (text : Text) : isSelector (Text.trimEnd text) = isSelector text := by
  have hsigns : ∀ sign ∈ selectorSigns, sign.dropLast ++ ['#'] = sign := by decide
  refine Bool.eq_iff_iff.mpr ?_
  simp only [isSelector, List.any_eq_true, Text.occursIn_iff]
  refine exists_congr fun sign => and_congr_right fun hsign => ?_
  rw [← hsigns sign hsign]
  exact Text.infix_trimEnd_iff (by decide)

/-! ## Options -/

/-- The options are cut off at a dollar sign. -/
theorem eq_append_of_splitAtOption {behind : Text} (h : splitAtOption body = some (pattern, behind)) :
    body = pattern ++ '$' :: behind := by
  induction body generalizing pattern with
  | nil => simp [splitAtOption] at h
  | cons c t ih =>
    rw [splitAtOption] at h
    split at h
    · next hc =>
      obtain ⟨rfl, rfl⟩ := Prod.mk.inj (Option.some.inj h)
      rw [hc.1, List.nil_append]
    · obtain ⟨⟨a, b⟩, hsplit, heq⟩ := Option.map_eq_some_iff.mp h
      obtain ⟨rfl, rfl⟩ := Prod.mk.inj heq
      rw [ih hsplit, List.cons_append]

/-- Without a dollar sign there are no options. -/
theorem splitAtOption_of_not_hasOptions (h : hasOptions body = false) : splitAtOption body = none := by
  induction body with
  | nil => rfl
  | cons c t ih =>
    simp only [hasOptions, Bool.or_eq_false_iff, Bool.and_eq_false_iff, beq_eq_false_iff_ne] at h
    rw [splitAtOption, if_neg, ih h.2, Option.map_none]
    rintro ⟨hc, hoption⟩
    simp [hc, hoption] at h

/-- A dollar sign at the end leaves room for options. -/
theorem hasOptions_concat (t : Text) : hasOptions (t ++ ['$']) = true := by
  induction t with
  | nil => rfl
  | cons c t ih => rw [List.cons_append, hasOptions, ih, Bool.or_true]

/-- What is cut from a line as its options begins with a dollar sign. -/
theorem exists_cut (body : Text) :
    ∃ cut, body = (splitOptions body).1 ++ cut ∧ (cut = [] ∨ ∃ behind, cut = '$' :: behind) := by
  unfold splitOptions
  split
  · exact ⟨[], by simp, .inl rfl⟩
  · cases hend : Text.before? ['$'] body with
    | some pattern => exact ⟨['$'], Text.before?_eq_some_iff.mp hend, .inr ⟨[], rfl⟩⟩
    | none =>
      cases hsplit : splitAtOption body with
      | none => exact ⟨[], by simp, .inl rfl⟩
      | some parts => exact ⟨'$' :: parts.2, eq_append_of_splitAtOption hsplit, .inr ⟨parts.2, rfl⟩⟩

/-- A text without a dollar sign is all pattern. -/
theorem splitOptions_of_not_hasOptions (h : hasOptions body = false) : (splitOptions body).1 = body := by
  unfold splitOptions
  split
  · rfl
  · cases hend : Text.before? ['$'] body with
    | some pattern =>
      rw [Text.before?_eq_some_iff.mp hend, hasOptions_concat] at h
      simp at h
    | none => rw [splitAtOption_of_not_hasOptions h, Option.getD_none]

/-- The sign of an exception has no options. -/
theorem hasOptions_splitException (line : Text) : hasOptions (splitException line).2 = hasOptions line := by
  unfold splitException
  cases hsign : Text.after? "@@".toList line with
  | none => rfl
  | some rest =>
    rw [Text.after?_eq_some_iff.mp hsign]
    rfl

/-! ## What is heard of it -/

/-- A line begins with an exclamation mark, behind its blanks, exactly when it does without its options. -/
theorem trimStart_cut (hcut : cut = [] ∨ ∃ behind, cut = '$' :: behind) :
    Text.trimStart (pattern ++ cut) = '!' :: t ↔
      ∃ rest, Text.trimStart pattern = '!' :: rest ∧ t = rest ++ cut := by
  rw [Text.trimStart_append]
  cases hpattern : Text.trimStart pattern with
  | nil =>
    -- Nothing but blanks is left of the line, and a dollar sign follows them.
    have hblank : Text.isBlank '$' = false := by decide
    obtain rfl | ⟨behind, rfl⟩ := hcut
    · simp [Text.trimStart]
    · simp [Text.trimStart, hblank]
  | cons c rest => simp [eq_comm]

/-- A reader hears a comment where there is one, and what it hears is a beginning of it. -/
theorem comment?_splitOptions (body : Text) :
    (comment? (splitOptions body).1 = none ∧ comment? body = none) ∨
      ∃ heard said, comment? (splitOptions body).1 = some heard ∧ comment? body = some said ∧
        heard <+: said := by
  -- Only what stands behind the sign of a comment can have been cut off.
  obtain ⟨cut, hbody, hcut⟩ := exists_cut body
  cases hheard : comment? (splitOptions body).1 with
  | some heard =>
    obtain ⟨rest, hrest, rfl⟩ := comment?_eq_some_iff.mp hheard
    have hsaid : comment? body = some (Text.trim (rest ++ cut)) := by
      rw [hbody]
      exact comment?_eq_some_iff.mpr ⟨_, (trimStart_cut hcut).mpr ⟨rest, hrest, rfl⟩, rfl⟩
    exact .inr ⟨_, _, rfl, hsaid, Text.trim_prefix_append rest cut⟩
  | none =>
    cases hsaid : comment? body with
    | none => exact .inl ⟨rfl, rfl⟩
    | some said =>
      obtain ⟨t, ht, -⟩ := comment?_eq_some_iff.mp hsaid
      rw [hbody] at ht
      obtain ⟨rest, hrest, -⟩ := (trimStart_cut hcut).mp ht
      simp [comment?_eq_some_iff.mpr ⟨rest, hrest, rfl⟩] at hheard

/-- A line is a comment for a reader exactly when it is one. -/
theorem isSome_heard? (text : Text) : (heard? text).isSome = isComment text := by
  unfold heard? isComment commentText?
  split
  · rfl
  · rcases comment?_splitOptions (splitException (Text.trimEnd text)).2 with
      ⟨hheard, hsaid⟩ | ⟨heard, said, hheard, hsaid, -⟩
    · rw [hheard, hsaid]
    · rw [hheard, hsaid]
      rfl

/-- What begins with another character, behind its blanks, has no sign of an exception. -/
theorem splitException_of_trimStart {c : Char} (h : Text.trimStart t = c :: rest) (hc : c ≠ '@') :
    splitException t = (false, t) := by
  unfold splitException
  cases hsign : Text.after? "@@".toList t with
  | none => rfl
  | some behind =>
    have hat : Text.isBlank '@' = false := by decide
    rw [Text.after?_eq_some_iff.mp hsign] at h
    simp [Text.trimStart, hat, hc.symm] at h

/-- A line whose first character but blanks is an exclamation mark says what is behind that, unless it has the
sign of a selector. -/
theorem commentText?_of_trimStart (h : Text.trimStart text = '!' :: rest)
    (hselector : isSelector text = false) : commentText? text = some (Text.trim rest) := by
  have hline := Text.trimStart_trimEnd h
  rw [commentText?, if_neg (by simp [hselector]), splitException_of_trimStart hline (by decide)]
  exact comment?_eq_some_iff.mpr ⟨_, hline, Text.trim_trimEnd rest⟩

/-- A setting of the list is no comment. -/
theorem isComment_of_isConfig (h : isConfig (Text.trimEnd text) = true) : isComment text = false := by
  unfold isConfig at h
  split at h
  · next rest hline =>
    have hnone : comment? (Text.trimEnd text) = none := by simp [comment?, hline]
    rw [isComment, commentText?, splitException_of_trimStart hline (by decide), hnone, ite_self]
    rfl
  · simp at h

end

end Line

/-- The section is without interest. -/
def Section.isIgnoring : Section → Bool
  | .scanning => false
  | .ignoring _ => true

namespace Policy

/-- Something is ignored as the comment of a line says: only where one of the marks occurs in it, and wherever
one does, but for lines that options are cut from. -/
structure Follows (p : Policy) (line said : Text) (ignored : Prop) : Prop where
  occurs : ignored → p.opensIgnored said = true
  opens : Line.hasOptions (Text.trimEnd line) = false → p.opensIgnored said = true → ignored

/-- What becomes of a rule below other lines: it is dropped with its section or judged by itself, as the last
comment says, and judged where there is none. -/
structure SortsBelow (p : Policy) (above : List Text) (judged result : Except Drop Rule) : Prop where
  differs : judged ≠ .error .ignoredSection
  sorts : result = .error .ignoredSection ∨ result = judged
  first : Line.lastComment? above = none → result = judged
  last : ∀ line said, Line.lastComment? above = some line → Line.commentText? line = some said →
    p.Follows line said (result = .error .ignoredSection)

/-- What becomes of each line, from a section on. -/
def results (p : Policy) : Section → Nat → List Text → List (Except Drop Rule)
  | _, _, [] => []
  | s, n, t :: ts => (p.readLine s t n).result :: p.results (p.readLine s t n).next (n + 1) ts

/-- The section behind lines. -/
def behind (p : Policy) : Section → Nat → List Text → Section
  | s, _, [] => s
  | s, n, t :: ts => p.behind (p.readLine s t n).next (n + 1) ts

variable {p : Policy} {s : Section} {n : Nat} {text said heard : Text}

/-- Marks that occur in a beginning of the text occur in the text. -/
theorem opensIgnored_mono (h : heard <+: said) (hopens : p.opensIgnored heard = true) :
    p.opensIgnored said = true := by
  obtain ⟨mark, hmark, hoccurs⟩ := List.any_eq_true.mp hopens
  exact List.any_eq_true.mpr
    ⟨mark, hmark, Text.occursIn_iff.mpr ((Text.occursIn_iff.mp hoccurs).trans h.isInfix)⟩

/-- What a reader hears of a comment makes it follow the comment. -/
theorem follows_of_comment (h : Line.commentText? text = some said) :
    ∃ heard, Line.heard? text = some heard ∧ p.Follows text said (p.opensIgnored heard = true) := by
  unfold Line.commentText? at h
  unfold Line.heard?
  split at h
  · simp at h
  · next hselector =>
    rw [if_neg hselector]
    rcases Line.comment?_splitOptions (Line.splitException (Text.trimEnd text)).2 with
      ⟨-, hnone⟩ | ⟨heard, said', hheard, hsaid, hbegins⟩
    · simp [hnone] at h
    · obtain rfl : said' = said := Option.some.inj (hsaid.symm.trans h)
      refine ⟨heard, hheard, opensIgnored_mono hbegins, fun hwhole hopens => ?_⟩
      -- Nothing was cut, so the reader hears all that is said.
      rw [← Line.hasOptions_splitException] at hwhole
      rw [Line.splitOptions_of_not_hasOptions hwhole, hsaid] at hheard
      rwa [← Option.some.inj hheard]

/-! ## One line -/

/-- A comment leads into an ignored section exactly when it opens one. -/
theorem isIgnoring_comment (opens : Bool) (s : Section) : (s.comment opens).isIgnoring = opens := by
  cases s <;> cases opens <;> rfl

/-- Blanks at the end of a line do not matter. -/
theorem readLine_congr {text' : Text} (h : Text.trimEnd text = Text.trimEnd text') :
    p.readLine s text n = p.readLine s text' n := by
  unfold readLine
  rw [h]

/-- An empty line is dropped as blank, in every section. -/
theorem readLine_nil (p : Policy) (s : Section) (n : Nat) : p.readLine s [] n = ⟨.error .blank, s⟩ := rfl

/-- A comment that is heard is dropped, and opens or ends an ignored section. -/
theorem readLine_of_heard (h : Line.heard? text = some heard) :
    p.readLine s text n = ⟨.error .comment, s.comment (p.opensIgnored heard)⟩ := by
  have hcomment : Line.isComment text = true := by rw [← Line.isSome_heard?, h, Option.isSome_some]
  have hconfig : Line.isConfig (Text.trimEnd text) = false := by
    refine Bool.eq_false_iff.mpr fun hconfig => ?_
    simp [Line.isComment_of_isConfig hconfig] at hcomment
  unfold Line.heard? at h
  split at h
  · simp at h
  · next hselector =>
    rw [← Line.isSelector_trimEnd] at hselector
    simp [readLine, hconfig, hselector, h]

/-- A line with the sign of a selector is none of the section's concern. -/
theorem readLine_of_isSelector (hconfig : Line.isConfig (Text.trimEnd text) = false)
    (h : Line.isSelector text = true) : p.readLine s text n = ⟨.error .selector, s⟩ := by
  rw [← Line.isSelector_trimEnd] at h
  simp [readLine, hconfig, h]

/-- A line that is no comment neither opens nor ends an ignored section. -/
theorem isIgnoring_of_not_heard (h : Line.heard? text = none) :
    (p.readLine s text n).next.isIgnoring = s.isIgnoring := by
  unfold Line.heard? at h
  rw [← Line.isSelector_trimEnd] at h
  unfold readLine
  dsimp only
  split
  · rfl
  split
  · rfl
  · next hselector =>
    rw [if_neg hselector] at h
    rw [h]
    dsimp only
    split
    · rfl
    · cases s <;> rfl

/-- A rule is dropped with its ignored section, or judged by itself. -/
theorem readLine_of_rule? {isException : Bool} {pattern options : Text}
    (h : Line.rule? text = some (isException, pattern, options)) :
    (p.readLine s text n).result =
      if s.isIgnoring then .error .ignoredSection else p.judge isException pattern options n := by
  unfold Line.rule? at h
  dsimp only at h
  split at h
  · simp at h
  · next hkind =>
    simp only [Bool.or_eq_true, not_or, Bool.not_eq_true, Option.isSome_eq_false_iff,
      Option.isNone_iff_eq_none] at hkind
    obtain ⟨⟨⟨hconfig, hselector⟩, hcomment⟩, hblank⟩ := hkind
    simp only [Option.some.injEq, Prod.mk.injEq] at h
    obtain ⟨rfl, rfl, rfl⟩ := h
    cases s <;> simp [readLine, hconfig, hselector, hcomment, hblank, Section.isIgnoring]

/-- A rule that is judged is not dropped with a section. -/
theorem judge_ne_ignoredSection (isException : Bool) (pattern options : Text) (n : Nat) :
    p.judge isException pattern options n ≠ .error .ignoredSection := by
  unfold judge
  split
  · simp
  · repeat' split
    all_goals simp

/-! ## Many lines -/

/-- The section behind lines is as the last comment of them is heard, and as before where there is none. -/
theorem isIgnoring_behind (p : Policy) (s : Section) (n : Nat) (lines : List Text) :
    (p.behind s n lines).isIgnoring =
      ((Line.lastComment? lines).map fun line => (Line.heard? line).any p.opensIgnored).getD s.isIgnoring := by
  induction lines generalizing s n with
  | nil => rfl
  | cons text lines ih =>
    rw [behind, ih, Line.lastComment?, Line.lastComment?]
    cases hheard : Line.heard? text with
    | none =>
      have hcomment : Line.isComment text = false := by rw [← Line.isSome_heard?, hheard, Option.isSome_none]
      rw [List.filter_cons_of_neg (by simp [hcomment]), isIgnoring_of_not_heard hheard]
    | some heard =>
      have hcomment : Line.isComment text = true := by rw [← Line.isSome_heard?, hheard, Option.isSome_some]
      -- The section that this comment leaves is the one the lines below it start from.
      rw [List.filter_cons_of_pos hcomment, List.getLast?_cons, readLine_of_heard hheard, isIgnoring_comment]
      cases (lines.filter Line.isComment).getLast? with
      | none => simp [hheard]
      | some line => rfl

/-- What becomes of a line is decided in the section behind the lines above it. -/
theorem getElem?_results (p : Policy) (s : Section) (n : Nat) (lines : List Text) (i : Nat) :
    (p.results s n lines)[i]? =
      lines[i]?.map fun text => (p.readLine (p.behind s n (lines.take i)) text (n + i)).result := by
  induction lines generalizing s n i with
  | nil => rfl
  | cons text lines ih =>
    cases i with
    | zero => rfl
    | succ i =>
      rw [results, List.getElem?_cons_succ, ih, List.getElem?_cons_succ, List.take_succ_cons, behind,
        Nat.add_right_comm, Nat.add_assoc]

/-- The rules of lines are those that the lines give, in their order. -/
theorem rules_readFrom (p : Policy) (r : Reader) (n : Nat) (lines : List Text) :
    (r.readFrom p n lines).2 = (p.results r.current n lines).filterMap (·.toOption) := by
  induction lines generalizing r n with
  | nil => rfl
  | cons text lines ih =>
    rw [Reader.readFrom, results]
    dsimp only
    rw [ih, Reader.read]
    cases hresult : (p.readLine r.current text n).result with
    | error d => simp [Except.toOption]
    | ok rule => simp [Except.toOption]

/-- A rule below other lines is sorted as the last comment above it says. -/
theorem sortsBelow_of_rule? {isException : Bool} {pattern options : Text}
    (h : Line.rule? text = some (isException, pattern, options)) (lines : List Text) :
    p.SortsBelow lines (p.judge isException pattern options n)
      (p.readLine (p.behind .scanning 0 lines) text n).result := by
  have hdiffers := judge_ne_ignoredSection (p := p) isException pattern options n
  rw [readLine_of_rule? h, isIgnoring_behind]
  refine ⟨hdiffers, ?_, fun hnone => ?_, fun line said hline hsaid => ?_⟩
  · split
    · exact .inl rfl
    · exact .inr rfl
  · rw [hnone]
    rfl
  · obtain ⟨heard, hheard, hfollows⟩ := follows_of_comment (p := p) hsaid
    rw [hline, Option.map_some, Option.getD_some, hheard, Option.any_some]
    cases hopens : p.opensIgnored heard with
    | true => simpa [hopens] using hfollows
    | false => simpa [hopens, hdiffers] using hfollows

/-- Comments decide what is read. A line whose first character but blanks is an exclamation mark is a comment,
and the section behind it is as it says; with the sign of a selector the line is dropped for that, and the
section stays. In a whole list, each line with a rule is sorted by the last comment above it. -/
theorem sections_follow_comments (p : Policy) :
    (∀ (r : Reader) (text rest : Text) (n : Nat), Text.trimStart text = '!' :: rest →
      (Line.isSelector text = true →
          r.read p text n = (⟨r.current, r.tally.line.drop .selector⟩, none)) ∧
        (Line.isSelector text = false →
          ∃ next, r.read p text n = (⟨next, r.tally.line.drop .comment⟩, none) ∧
            p.Follows text (Text.trim rest) (next.isIgnoring = true))) ∧
      ∀ source : Text,
        (Reader.readAll {} p (Text.lines source)).2 =
            (p.results .scanning 0 (Text.lines source)).filterMap (·.toOption) ∧
          ∀ i text isException pattern options, (Text.lines source)[i]? = some text →
            Line.rule? text = some (isException, pattern, options) →
            ∃ result, (p.results .scanning 0 (Text.lines source))[i]? = some result ∧
              p.SortsBelow ((Text.lines source).take i) (p.judge isException pattern options i)
                result := by
  refine ⟨fun r text rest n htext => ⟨fun hselector => ?_, fun hselector => ?_⟩, fun source => ⟨?_, ?_⟩⟩
  · have hconfig : Line.isConfig (Text.trimEnd text) = false := by
      rw [Line.isConfig, Text.trimStart_trimEnd htext]
      rfl
    simp only [Reader.read, readLine_of_isSelector hconfig hselector]
  · have hcomment := Line.commentText?_of_trimStart htext hselector
    obtain ⟨heard, hheard, hfollows⟩ := follows_of_comment (p := p) hcomment
    refine ⟨r.current.comment (p.opensIgnored heard), ?_, ?_⟩
    · simp only [Reader.read, readLine_of_heard hheard]
    · rwa [isIgnoring_comment]
  · exact rules_readFrom p {} 0 _
  · intro i text isException pattern options htext hrule
    rw [getElem?_results, htext, Option.map_some, Nat.zero_add]
    exact ⟨_, rfl, sortsBelow_of_rule? hrule _⟩

/-- A policy with a mark. -/
def marking : Policy := { Policy.permissive with ignoredSections := ["German".toList] }

/-- A list with a comment that opens a section, and one behind the sign of an exception, with an option, that
closes it. -/
def sectioned : Text := "||a.com^\n  ! *** German ***\n||b.de^\n@@! General $image\n||c.com^".toList

/-- The rule between the comments is dropped, and the others are read. -/
theorem sections_follow_comments_sample :
    (∃ next, Reader.read {} marking "  ! *** German ***".toList 1 =
          (⟨next, { lines := 1, comments := 1 }⟩, none) ∧
        next.isIgnoring = true) ∧
      (marking.results .scanning 0 (Text.lines sectioned))[0]? =
        some (.ok ⟨"||a.com^".toList, [], false, 0⟩) ∧
      (marking.results .scanning 0 (Text.lines sectioned))[2]? = some (.error .ignoredSection) ∧
      (marking.results .scanning 0 (Text.lines sectioned))[4]? =
        some (.ok ⟨"||c.com^".toList, [], false, 4⟩) := by
  obtain ⟨hcomments, hlists⟩ := sections_follow_comments marking
  obtain ⟨-, hrules⟩ := hlists sectioned
  refine ⟨?_, ?_, ?_, ?_⟩
  · obtain ⟨-, hcomment⟩ := hcomments {} "  ! *** German ***".toList " *** German ***".toList 1 (by decide)
    obtain ⟨next, hread, hfollows⟩ := hcomment (by decide)
    exact ⟨next, hread, hfollows.opens (by decide +kernel) (by decide +kernel)⟩
  · obtain ⟨result, hresult, hsorts⟩ :=
      hrules 0 "||a.com^".toList false "||a.com^".toList [] (by decide +kernel) (by decide +kernel)
    rw [hresult, hsorts.first (by decide +kernel)]
    decide +kernel
  · obtain ⟨result, hresult, hsorts⟩ :=
      hrules 2 "||b.de^".toList false "||b.de^".toList [] (by decide +kernel) (by decide +kernel)
    have hfollows := hsorts.last "  ! *** German ***".toList "*** German ***".toList (by decide +kernel)
      (by decide +kernel)
    rw [hresult, hfollows.opens (by decide +kernel) (by decide +kernel)]
  · obtain ⟨result, hresult, hsorts⟩ :=
      hrules 4 "||c.com^".toList false "||c.com^".toList [] (by decide +kernel) (by decide +kernel)
    have hfollows := hsorts.last "@@! General $image".toList "General $image".toList (by decide +kernel)
      (by decide +kernel)
    rw [hresult, hsorts.sorts.resolve_left fun hdropped => ?_]
    · decide +kernel
    · have hoccurs := hfollows.occurs hdropped
      revert hoccurs
      decide +kernel

/-- A comment with a mark and the sign of a selector is not dropped as a comment; no section begins, and the
rule below it is read. A line that is a comment behind the sign of an exception ends a section. -/
theorem selector_sign_hides_comment :
    Text.trimStart "! *** German ## sites ***".toList = '!' :: " *** German ## sites ***".toList ∧
      marking.opensIgnored " *** German ## sites ***".toList = true ∧
      Reader.read {} marking "! *** German ## sites ***".toList 0 =
        (⟨.scanning, { lines := 1, selectors := 1 }⟩, none) ∧
      marking.results .scanning 0 (Text.lines "! *** German ## sites ***\n||b.de^".toList) =
        [.error .selector, .ok ⟨"||b.de^".toList, [], false, 1⟩] ∧
      marking.results .scanning 0 (Text.lines "! German\n@@! General\n||b.de^".toList) =
        [.error .comment, .error .comment, .ok ⟨"||b.de^".toList, [], false, 2⟩] := by
  decide +kernel

end Policy

end UrlFilter
