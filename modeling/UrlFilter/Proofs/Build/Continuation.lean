import UrlFilter.Proofs.Build.Interleaving
import UrlFilter.Proofs.Build.Ordinals
import UrlFilter.Proofs.Rule.Runs
import UrlFilter.Proofs.Text.Cutting

/-!
# Lists that are continued

A list may go on in the next file, or be one file with it. Its lines are then the same, but for a blank one
where the files meet, and they have other positions, which nothing shows. So all that matters is the section in
which the first file ends: where it is of interest, nothing changes but for the blank line; otherwise the second
file loses its rules up to its first comment (`addSource_append`).
-/

namespace UrlFilter

namespace Text

variable {t : Text} {qs : List Text} {q : Text}

/-! ## Lines -/

/-- The lines of a text that a line feed follows. -/
def endedLines (t : Text) : List Text := (parts '\n' t).map (dropLastIf (· == '\r'))

/-- The last part is a line when it is not empty, and the others are ended. -/
theorem lines_of_parts (h : parts '\n' t = qs ++ [q]) :
    lines t = qs.map (dropLastIf (· == '\r')) ++ if q.isEmpty then [] else [q] := by
  unfold lines
  rw [h]
  cases q <;> simp

/-- The lines of two texts with a line feed between them are those of the one and of the other. -/
theorem lines_append_feed (s t : Text) : lines (s ++ '\n' :: t) = endedLines s ++ lines t := by
  obtain ⟨qs, q, hparts⟩ := (List.eq_nil_or_concat (parts '\n' t)).resolve_left (parts_ne_nil '\n' t)
  rw [List.concat_eq_append] at hparts
  have hall : parts '\n' (s ++ '\n' :: t) = (parts '\n' s ++ qs) ++ [q] := by
    rw [parts_append, hparts, List.append_assoc]
  rw [lines_of_parts hparts, lines_of_parts hall, endedLines, List.map_append, List.append_assoc]

/-- A carriage return at the end of a line is one of its blanks. -/
theorem trimEnd_dropLastIf (t : Text) : trimEnd (dropLastIf (· == '\r') t) = trimEnd t := by
  rcases dropLastIf_eq_or (· == '\r') t with hsame | ⟨c, hc, hdropped⟩
  · rw [hsame]
  · have hblank : trimEnd [c] = [] := by
      rw [eq_of_beq hc]
      decide
    nth_rewrite 2 [← hdropped]
    rw [trimEnd_append, hblank]
    rfl

/-! ## Parts -/

/-- Texts without the separating character are the parts of the text that they are joined to. -/
theorem parts_join {c : Char} (hne : qs ≠ []) (h : ∀ q ∈ qs, c ∉ q) : parts c (join [c] qs) = qs := by
  induction qs with
  | nil => exact absurd rfl hne
  | cons q qs ih =>
    obtain ⟨hq, hqs⟩ := List.forall_mem_cons.mp h
    cases qs with
    | nil => exact parts_of_notMem hq
    | cons q' qs =>
      simp only [join, List.append_assoc, List.singleton_append, parts_append_mark hq, ih (List.cons_ne_nil _ _) hqs]

/-- The last texts of a list are joined to an end of the whole. -/
theorem join_suffix (sep : Text) {ps qs : List Text} (h : qs <:+ ps) : join sep qs <:+ join sep ps := by
  induction ps with
  | nil =>
    obtain rfl := List.suffix_nil.mp h
    exact List.suffix_rfl
  | cons q ps ih =>
    rcases List.suffix_cons_iff.mp h with rfl | hqs
    · exact List.suffix_rfl
    · cases ps with
      | nil =>
        rw [List.suffix_nil.mp hqs]
        exact List.nil_suffix
      | cons q' ps => exact (ih hqs).trans (List.suffix_append _ _)

end Text

namespace Line

/-! ## From a comment on -/

/-- Blanks at the end of a line make it no comment, nor take that from it. -/
theorem isComment_congr {text text' : Text} (h : Text.trimEnd text = Text.trimEnd text') :
    isComment text = isComment text' := by
  unfold isComment commentText?
  rw [← isSelector_trimEnd, h, isSelector_trimEnd]

/-- A text from its first line on that is a comment. -/
def fromComment (t : Text) : Text :=
  Text.join ['\n'] ((Text.parts '\n' t).dropWhile fun line => !isComment line)

/-- What is left from the first comment on is an end of the text. -/
theorem fromComment_suffix (t : Text) : fromComment t <:+ t := by
  have hjoin := Text.join_suffix ['\n'] (List.dropWhile_suffix (fun line => !isComment line)
    (l := Text.parts '\n' t))
  rwa [Text.join_parts] at hjoin

/-- What is left from the first comment on are the lines from there on. -/
theorem lines_fromComment (t : Text) :
    Text.lines (fromComment t) = (Text.lines t).dropWhile fun line => !isComment line := by
  -- The last part is no line where it is empty, and loses no carriage return where it is one.
  obtain ⟨qs, q, hparts⟩ := (List.eq_nil_or_concat (Text.parts '\n' t)).resolve_left (Text.parts_ne_nil '\n' t)
  rw [List.concat_eq_append] at hparts
  have hended : ((fun line => !isComment line) ∘ Text.dropLastIf (· == '\r')) = fun line => !isComment line := by
    funext line
    exact congrArg not (isComment_congr (Text.trimEnd_dropLastIf line))
  have hmark : ∀ line ∈ (qs ++ [q]).dropWhile (fun line => !isComment line), '\n' ∉ line := by
    rw [← hparts]
    exact fun line hline => Text.notMem_of_mem_parts ((List.dropWhile_sublist _).mem hline)
  rw [List.dropWhile_append] at hmark
  rw [Text.lines_of_parts hparts, fromComment, hparts, List.dropWhile_append, List.dropWhile_append,
    List.dropWhile_map, hended, List.isEmpty_map]
  split
  -- No comment in front of the last part, which then decides alone.
  · next hall =>
    rw [if_pos hall] at hmark
    cases q with
    | nil => rfl
    | cons c q =>
      simp only [List.isEmpty_cons, Bool.false_eq_true, if_false]
      cases hcomment : isComment (c :: q) with
      | false =>
        rw [List.dropWhile_cons, hcomment]
        rfl
      | true =>
        rw [List.dropWhile_cons, hcomment] at hmark ⊢
        have honly : Text.parts '\n' (c :: q) = [] ++ [c :: q] :=
          Text.parts_of_notMem (hmark _ (List.mem_singleton_self _))
        exact Text.lines_of_parts honly
  · next hsome =>
    rw [if_neg hsome] at hmark
    rw [Text.lines_of_parts (Text.parts_join (by simp) hmark)]

end Line

namespace Policy

variable {p : Policy} {s s' : Section} {text text' : Text} {n m : Nat}

/-! ## Reading on -/

/-- Lines come to the same whether they are read in one go or in two. -/
theorem results_append (p : Policy) (s : Section) (n : Nat) (ts ts' : List Text) :
    p.results s n (ts ++ ts') = p.results s n ts ++ p.results (p.behind s n ts) (n + ts.length) ts' := by
  induction ts generalizing s n with
  | nil => rfl
  | cons t ts ih =>
    rw [List.cons_append, results, results, behind, ih, List.cons_append, List.length_cons, Nat.add_assoc,
      Nat.add_comm 1]

/-- The section behind lines is the same whether they are read in one go or in two. -/
theorem behind_append (p : Policy) (s : Section) (n : Nat) (ts ts' : List Text) :
    p.behind s n (ts ++ ts') = p.behind (p.behind s n ts) (n + ts.length) ts' := by
  induction ts generalizing s n with
  | nil => rfl
  | cons t ts ih => rw [List.cons_append, behind, behind, ih, List.length_cons, Nat.add_assoc, Nat.add_comm 1]

/-- A line feed behind a text ends its last line, or adds one that is blank. -/
theorem results_endedLines (p : Policy) (s : Section) (n : Nat) (t : Text) :
    ∃ added, (added = [] ∨ added = [.error .blank]) ∧
      p.results s n (Text.endedLines t) = p.results s n (Text.lines t) ++ added ∧
      p.behind s n (Text.endedLines t) = p.behind s n (Text.lines t) := by
  obtain ⟨qs, q, hparts⟩ := (List.eq_nil_or_concat (Text.parts '\n' t)).resolve_left (Text.parts_ne_nil '\n' t)
  rw [List.concat_eq_append] at hparts
  rw [Text.lines_of_parts hparts, Text.endedLines, hparts, List.map_append, List.map_singleton]
  cases q with
  | nil =>
    have hblank : Text.dropLastIf (· == '\r') [] = [] := rfl
    refine ⟨[.error .blank], .inr rfl, ?_, ?_⟩
    · rw [results_append, hblank, results, readLine_nil]
      simp [results]
    · rw [behind_append, hblank, behind, readLine_nil]
      simp [behind]
  | cons c q =>
    have hline := readLine_congr (p := p) (s := p.behind s n (qs.map (Text.dropLastIf (· == '\r'))))
      (n := n + (qs.map (Text.dropLastIf (· == '\r'))).length) (Text.trimEnd_dropLastIf (c :: q))
    refine ⟨[], .inl rfl, ?_, ?_⟩
    · rw [List.append_nil, results_append, results_append]
      simp only [results, hline, List.isEmpty_cons, Bool.false_eq_true, if_false]
    · rw [behind_append, behind_append]
      simp only [behind, hline, List.isEmpty_cons, Bool.false_eq_true, if_false]

/-! ## Positions -/

/-- A rule is judged in the same way wherever its line stands. -/
theorem judge_unnumbered {isException : Bool} {pattern options : Text} (n m : Nat) :
    (p.judge isException pattern options n).map Rule.unnumbered =
      (p.judge isException pattern options m).map Rule.unnumbered := by
  unfold judge
  split
  · rfl
  · repeat' split
    all_goals rfl

/-- Where and in which section of a kind a line stands matters for the position of its rule only. -/
theorem readLine_unnumbered (h : s.isIgnoring = s'.isIgnoring) (text : Text) :
    (p.readLine s text n).result.map Rule.unnumbered = (p.readLine s' text m).result.map Rule.unnumbered ∧
      (p.readLine s text n).next.isIgnoring = (p.readLine s' text m).next.isIgnoring := by
  rcases p.readLine_cases text with
    ⟨heard, -, hread⟩ | ⟨isException, pattern, options, -, hjudged, hpassed⟩ | ⟨-, -, d, -, -, hread⟩
  · rw [hread, hread, isIgnoring_comment, isIgnoring_comment]
    exact ⟨rfl, rfl⟩
  · cases s with
    | scanning =>
      cases s' with
      | ignoring k => simp [Section.isIgnoring] at h
      | scanning =>
        rw [hjudged, hjudged]
        exact ⟨judge_unnumbered n m, rfl⟩
    | ignoring k =>
      cases s' with
      | scanning => simp [Section.isIgnoring] at h
      | ignoring k' =>
        rw [hpassed, hpassed]
        exact ⟨rfl, rfl⟩
  · rw [hread, hread]
    exact ⟨rfl, h⟩

/-- Lines come to the same in sections of a kind, but for the positions of their rules. -/
theorem results_unnumbered (h : s.isIgnoring = s'.isIgnoring) (n m : Nat) (ts : List Text) :
    (p.results s n ts).map (·.map Rule.unnumbered) = (p.results s' m ts).map (·.map Rule.unnumbered) := by
  induction ts generalizing s s' n m with
  | nil => rfl
  | cons t ts ih =>
    obtain ⟨hresult, hnext⟩ := readLine_unnumbered (p := p) (n := n) (m := m) h t
    rw [results, results, List.map_cons, List.map_cons, hresult, ih hnext]

end Policy

/-! ## What lists add to a builder -/

namespace Tally

/-- The tally with one more line, and what became of it. -/
def note (t : Tally) : Except Drop Rule → Tally
  | .ok _ => t.line.accept
  | .error d => t.line.drop d

/-- Four tallies are added in pairs either way. -/
theorem add_add_add_comm (s t u v : Tally) : (s.add t).add (u.add v) = (s.add u).add (t.add v) := by
  simp only [add, Nat.add_add_add_comm]

/-- Tallies are added in any grouping. -/
theorem add_assoc (s t u : Tally) : (s.add t).add u = s.add (t.add u) := by
  simp only [add, Nat.add_assoc]

/-- Two tallies are added to a third in either order. -/
theorem add_right_comm (s t u : Tally) : (s.add t).add u = (s.add u).add t := by
  simp only [add, Nat.add_right_comm]

/-- A result may be noted before or after a tally is added. -/
theorem note_add (s t : Tally) (result : Except Drop Rule) : (s.add t).note result = s.add (t.note result) := by
  cases result with
  | ok rule => rfl
  | error d => cases d <;> rfl

/-- A drop may be counted before or after a tally is added. -/
theorem drop_add (s t : Tally) (d : Drop) : (s.add t).drop d = s.add (t.drop d) := by
  cases d <;> rfl

section
variable {α : Type} {count : Tally → α → Tally} (hcount : ∀ (s t : Tally) (a : α), count (s.add t) a = s.add (count t a))

include hcount

/-- What is counted one by one can be counted by itself and added. -/
theorem foldl_add (s t : Tally) (as : List α) : as.foldl count (s.add t) = s.add (as.foldl count t) := by
  induction as generalizing t with
  | nil => rfl
  | cons a as ih => rw [List.foldl_cons, List.foldl_cons, hcount, ih]

/-- Counting from a tally on is adding to it what is counted from nothing. -/
theorem foldl_eq_add (t : Tally) (as : List α) : as.foldl count t = t.add (as.foldl count {}) :=
  foldl_add hcount t {} as

/-- What is counted of two lists is counted of each and added. -/
theorem foldl_append_eq_add (as as' : List α) :
    (as ++ as').foldl count {} = (as.foldl count {}).add (as'.foldl count {}) := by
  rw [List.foldl_append, foldl_eq_add hcount]

end

end Tally

namespace Reader

/-- Reading a line goes on to the section behind it, notes what came of it, and gives the rule if there is one. -/
theorem read_eq (r : Reader) (p : Policy) (text : Text) (n : Nat) :
    r.read p text n = (⟨(p.readLine r.current text n).next, r.tally.note (p.readLine r.current text n).result⟩,
      (p.readLine r.current text n).result.toOption) := by
  unfold read
  dsimp only
  cases (p.readLine r.current text n).result <;> rfl

/-- A reader is left in the section behind the lines, and has noted what became of each. -/
theorem readFrom_fst (r : Reader) (p : Policy) (n : Nat) (ts : List Text) :
    (r.readFrom p n ts).1 =
      ⟨p.behind r.current n ts, (p.results r.current n ts).foldl Tally.note r.tally⟩ := by
  induction ts generalizing r n with
  | nil => rfl
  | cons t ts ih =>
    rw [readFrom]
    dsimp only
    rw [ih, read_eq]
    rfl

end Reader

/-! ## What lists add to a builder -/

namespace Policy

variable {p : Policy}

/-- The rules in their buckets that nothing keeps from there. -/
def admitted (p : Policy) (results : List (Except Drop Rule)) : List Placed :=
  ((results.filterMap (·.toOption)).map p.place).filter fun r => (p.obstacle? r).isNone

/-- What is counted of lines and of their rules. -/
def counted (p : Policy) (results : List (Except Drop Rule)) : Tally :=
  (results.foldl Tally.note {}).add
    ((((results.filterMap (·.toOption)).map p.place).filterMap p.obstacle?).foldl Tally.drop {})

/-- Results admit rules one behind the other. -/
theorem admitted_append (p : Policy) (rs rs' : List (Except Drop Rule)) :
    p.admitted (rs ++ rs') = p.admitted rs ++ p.admitted rs' := by
  simp [admitted]

/-- What is counted of results is counted of each part and added. -/
theorem counted_append (p : Policy) (rs rs' : List (Except Drop Rule)) :
    p.counted (rs ++ rs') = (p.counted rs).add (p.counted rs') := by
  simp only [counted, List.filterMap_append, List.map_append, Tally.foldl_append_eq_add Tally.note_add,
    Tally.foldl_append_eq_add Tally.drop_add]
  exact Tally.add_add_add_comm ..

/-- The rules of lines, in their buckets, without their positions. -/
theorem place_unnumbered (p : Policy) (rs : List (Except Drop Rule)) :
    ((rs.map (·.map Rule.unnumbered)).filterMap (·.toOption)).map p.place =
      ((rs.filterMap (·.toOption)).map p.place).map Placed.unnumbered := by
  induction rs with
  | nil => rfl
  | cons result rs ih =>
    cases result with
    | error d => exact ih
    | ok rule => exact congrArg ((p.place rule).unnumbered :: ·) ih

/-- Rules are admitted or not wherever their lines stand. -/
theorem admitted_unnumbered (p : Policy) (rs : List (Except Drop Rule)) :
    p.admitted (rs.map (·.map Rule.unnumbered)) = (p.admitted rs).map Placed.unnumbered := by
  rw [admitted, place_unnumbered, List.filter_map]
  rfl

/-- Results count the same wherever their lines stand. -/
theorem counted_unnumbered (p : Policy) (rs : List (Except Drop Rule)) :
    p.counted (rs.map (·.map Rule.unnumbered)) = p.counted rs := by
  have hnote : (fun t result => Tally.note t (result.map Rule.unnumbered)) = Tally.note := by
    funext t result
    cases result <;> rfl
  rw [counted, place_unnumbered, List.filterMap_map, List.foldl_map, hnote]
  rfl

section
variable {rs rs' : List (Except Drop Rule)}
  (h : rs.map (·.map Rule.unnumbered) = rs'.map (·.map Rule.unnumbered))

include h

/-- The same results up to places of lines admit the same rules up to places. -/
theorem admitted_congr : (p.admitted rs).map Placed.unnumbered = (p.admitted rs').map Placed.unnumbered := by
  rw [← admitted_unnumbered, h, admitted_unnumbered]

/-- The same results up to places of lines count the same. -/
theorem counted_congr : p.counted rs = p.counted rs' := by
  rw [← counted_unnumbered, h, counted_unnumbered]

end

end Policy

namespace Builder

/-- A list adds the rules that its lines admit to those that were there. -/
theorem rules_addSource (b : Builder) (p : Policy) (source : Text) :
    (b.addSource p source).rules = b.rules ++ p.admitted (p.results .scanning 0 (Text.lines source)) := by
  rw [Policy.admitted, ← Policy.rules_readFrom p {}]
  exact rules_foldl_push _ p _

/-- A list adds what its lines count to what was counted before. -/
theorem tally_addSource (b : Builder) (p : Policy) (source : Text) :
    (b.addSource p source).tally = b.tally.add (p.counted (p.results .scanning 0 (Text.lines source))) := by
  have hread := Reader.readFrom_fst {} p 0 (Text.lines source)
  have hrules := Policy.rules_readFrom p {} 0 (Text.lines source)
  rw [Policy.counted, ← Tally.add_assoc, ← hrules, ← Tally.foldl_eq_add Tally.drop_add]
  refine (tally_pushAll _ p _).trans ?_
  rw [hread]

end Builder

namespace Policy

variable {p : Policy} {s : Section} {n m : Nat}

/-- A line is dropped as a comment exactly when it is one. -/
theorem result_eq_comment_iff (p : Policy) (s : Section) (text : Text) (n : Nat) :
    (p.readLine s text n).result = .error .comment ↔ Line.isComment text = true := by
  rw [← Line.isSome_heard?]
  rcases p.readLine_cases text with
    ⟨heard, hheard, hread⟩ | ⟨isException, pattern, options, hrule, hjudged, hpassed⟩ |
      ⟨hheard, -, d, hcomment, -, hread⟩
  · simp [hread, hheard]
  · have hnone : Line.heard? text = none := by
      cases hheard : Line.heard? text with
      | none => rfl
      | some heard => simp [rule?_of_heard hheard] at hrule
    rw [hnone]
    cases s with
    | ignoring k => simp [hpassed]
    | scanning =>
      rw [hjudged]
      simp only [Option.isSome_none, Bool.false_eq_true, iff_false]
      exact fun hjudge => (judge_eq_error hjudge).1 rfl
  · simp [hread, hheard, hcomment]

/-- No line gives a rule in a section without interest. -/
theorem result_of_isIgnoring (h : s.isIgnoring = true) (text : Text) (n : Nat) :
    ∃ d, (p.readLine s text n).result = .error d := by
  rcases p.readLine_cases text with
    ⟨heard, -, hread⟩ | ⟨isException, pattern, options, -, -, hpassed⟩ | ⟨-, -, d, -, -, hread⟩
  · exact ⟨.comment, by rw [hread]⟩
  · cases s with
    | scanning => simp [Section.isIgnoring] at h
    | ignoring k => exact ⟨.ignoredSection, by rw [hpassed]⟩
  · exact ⟨d, by rw [hread]⟩

/-- Below a comment that opens a section no rule is read up to the next one. -/
theorem admitted_of_isIgnoring (h : s.isIgnoring = true) (n m : Nat) (ts : List Text) :
    (p.admitted (p.results s n ts)).map Placed.unnumbered =
      (p.admitted (p.results .scanning m (ts.dropWhile fun line => !Line.isComment line))).map
        Placed.unnumbered := by
  induction ts generalizing s n with
  | nil => rfl
  | cons t ts ih =>
    rw [List.dropWhile_cons]
    cases hcomment : Line.isComment t with
    | true =>
      -- Both readers hear the same comment, so they read on in sections of a kind.
      have hresult (s : Section) (n : Nat) := (p.result_eq_comment_iff s t n).mpr hcomment
      have hnext : (p.readLine s t n).next.isIgnoring = (p.readLine .scanning t m).next.isIgnoring := by
        obtain ⟨heard, hheard⟩ := Option.isSome_iff_exists.mp ((Line.isSome_heard? t).trans hcomment)
        rw [readLine_of_heard hheard, readLine_of_heard hheard, isIgnoring_comment, isIgnoring_comment]
      rw [Bool.not_true, if_neg Bool.false_ne_true, ← admitted_unnumbered, ← admitted_unnumbered, results, results,
        List.map_cons, List.map_cons, hresult, hresult, results_unnumbered hnext]
    | false =>
      have hheard : Line.heard? t = none := by
        rw [← Option.not_isSome_iff_eq_none, Line.isSome_heard?, hcomment]
        exact Bool.false_ne_true
      obtain ⟨d, hresult⟩ := result_of_isIgnoring (p := p) h t n
      rw [Bool.not_false, if_pos rfl, ← ih ((isIgnoring_of_not_heard (n := n) hheard).trans h) (n + 1), results, hresult]
      rfl

end Policy

namespace Builder

variable {p : Policy}

/-- What becomes of the lines of a list that is continued: as in the list alone, and then as in its
continuation, read in the section behind the list. -/
theorem results_continued (p : Policy) (A B : Text) :
    ∃ added n, (added = [] ∨ added = [.error .blank]) ∧
      p.results .scanning 0 (Text.lines (A ++ '\n' :: B)) =
        (p.results .scanning 0 (Text.lines A) ++ added) ++
          p.results (p.behind .scanning 0 (Text.lines A)) n (Text.lines B) := by
  obtain ⟨added, hadded, hresults, hbehind⟩ := p.results_endedLines .scanning 0 A
  refine ⟨added, 0 + (Text.endedLines A).length, hadded, ?_⟩
  rw [Text.lines_append_feed, Policy.results_append, hresults, hbehind]

/-- A list with its continuation fills a builder as the two lists do, one after the other: up to a blank line where
the list ends in a section of interest, and with the continuation from its first comment on where it does not. -/
structure Continues (p : Policy) (ranking : Ranking) (b : Builder) (A B : Text) : Prop where
  exported_scanning : (Reader.readAll {} p (Text.lines A)).1.current = .scanning →
    (b.addSource p (A ++ '\n' :: B)).exported p ranking = ((b.addSource p A).addSource p B).exported p ranking
  tally_scanning : (Reader.readAll {} p (Text.lines A)).1.current = .scanning →
    ∃ blank ≤ 1, (b.addSource p (A ++ '\n' :: B)).tally =
      ((b.addSource p A).addSource p B).tally.add { lines := blank, blank := blank }
  exported_ignoring : (Reader.readAll {} p (Text.lines A)).1.current.isIgnoring = true →
    (b.addSource p (A ++ '\n' :: B)).exported p ranking =
      ((b.addSource p A).addSource p (Line.fromComment B)).exported p ranking

/-- Where a list is split between files matters only in a section without interest. A ranking that looks at positions
might show it, but those by order and by merits do not. -/
theorem addSource_append (p : Policy) :
    Ranking.inOrder.IgnoresOrdinals ∧ (∀ m, (Ranking.byMerits m).IgnoresOrdinals) ∧
      (∀ s text n, (p.readLine s text n).result = .error .comment ↔ Line.isComment text = true) ∧
      (∀ B : Text, Line.fromComment B <:+ B ∧
        Text.lines (Line.fromComment B) = (Text.lines B).dropWhile fun line => !Line.isComment line) ∧
      ∀ ranking : Ranking, ranking.IgnoresOrdinals → ∀ (b : Builder) (A B : Text), b.Continues p ranking A B := by
  refine ⟨Ranking.ignoresOrdinals_inOrder, Ranking.ignoresOrdinals_byMerits, p.result_eq_comment_iff,
    fun B => ⟨Line.fromComment_suffix B, Line.lines_fromComment B⟩, fun ranking horder b A B => ?_⟩
  -- Line numbers aside, the continued list gives the results of both lists with at most one blank line between.
  obtain ⟨added, n, hadded, hresults⟩ := results_continued p A B
  have hcurrent : (Reader.readAll {} p (Text.lines A)).1.current = p.behind .scanning 0 (Text.lines A) := by
    rw [Reader.readAll, Reader.readFrom_fst]
  have hnone : p.admitted added = [] := by
    rcases hadded with rfl | rfl <;> rfl
  rw [← hcurrent] at hresults
  refine ⟨fun hscanning => ?_, fun hscanning => ?_, fun hignoring => ?_⟩
  · -- The section behind the list is the one at the start of another, and a blank line admits nothing.
    refine exported_unnumbered horder ?_ p
    have hrest := Policy.admitted_congr (p := p) (Policy.results_unnumbered (p := p) (s := .scanning) rfl n 0 (Text.lines B))
    rw [rules_addSource, rules_addSource, rules_addSource, hresults, hscanning, Policy.admitted_append,
      Policy.admitted_append, hnone, List.append_nil, ← List.append_assoc, List.map_append, hrest,
      ← List.map_append]
  · -- The same of the counts, where the blank line is one more.
    have hrest := Policy.counted_congr (p := p) (Policy.results_unnumbered (p := p) (s := .scanning) rfl n 0 (Text.lines B))
    have hcounted : ∃ blank ≤ 1, p.counted added = { lines := blank, blank := blank } := by
      rcases hadded with rfl | rfl
      · exact ⟨0, Nat.zero_le 1, rfl⟩
      · exact ⟨1, le_rfl, rfl⟩
    obtain ⟨blank, hblank, hcounted⟩ := hcounted
    refine ⟨blank, hblank, ?_⟩
    rw [tally_addSource, tally_addSource, tally_addSource, hresults, hscanning, Policy.counted_append,
      Policy.counted_append, hrest, hcounted, Tally.add_right_comm, ← Tally.add_assoc, ← Tally.add_assoc]
  · -- Without interest, nothing is admitted in front of the first comment.
    refine exported_unnumbered horder ?_ p
    rw [rules_addSource, rules_addSource, rules_addSource, hresults, Policy.admitted_append,
      Policy.admitted_append, hnone, List.append_nil, ← List.append_assoc, List.map_append,
      Policy.admitted_of_isIgnoring hignoring n 0, ← Line.lines_fromComment, ← List.map_append]

open Policy (marking)

/-- Hosts, with a lone carriage return at the end. -/
def unended : Text := "||a.com^\r\n||b.com^\r".toList

/-- A list that ends in a section without interest. -/
def ignoredEnd : Text := "||a.com^\n! German\n||b.de^\n".toList

/-- Hosts in front of a comment, and behind it. -/
def beyond : Text := "||c.de^\r\n! General\n||d.com^".toList

/-- Behind hosts, the continuation gives all its rules; behind the end of a section it gives those below its
comment. -/
theorem addSource_append_sample :
    Ranking.inOrder.IgnoresOrdinals ∧
      (Reader.readAll {} marking (Text.lines unended)).1.current = .scanning ∧
      (({} : Builder).addSource marking (unended ++ '\n' :: beyond)).exported marking .inOrder =
        ((({} : Builder).addSource marking unended).addSource marking beyond).exported marking .inOrder ∧
      ((({} : Builder).addSource marking unended).addSource marking beyond).rules.length = 4 ∧
      (Reader.readAll {} marking (Text.lines ignoredEnd)).1.current.isIgnoring = true ∧
      Line.fromComment beyond = "! General\n||d.com^".toList ∧
      (({} : Builder).addSource marking (ignoredEnd ++ '\n' :: beyond)).exported marking .inOrder =
        ((({} : Builder).addSource marking ignoredEnd).addSource marking
          (Line.fromComment beyond)).exported marking .inOrder ∧
      (({} : Builder).addSource marking (ignoredEnd ++ '\n' :: beyond)).rules.length = 2 := by
  obtain ⟨horder, -, -, -, hcontinues⟩ := addSource_append marking
  have hscanning : (Reader.readAll {} marking (Text.lines unended)).1.current = .scanning := by decide +kernel
  have hignoring : (Reader.readAll {} marking (Text.lines ignoredEnd)).1.current.isIgnoring = true := by
    decide +kernel
  exact ⟨horder, hscanning, (hcontinues _ horder {} unended beyond).exported_scanning hscanning, by decide +kernel,
    hignoring, by decide +kernel, (hcontinues _ horder {} ignoredEnd beyond).exported_ignoring hignoring,
    by decide +kernel⟩

end Builder

end UrlFilter
