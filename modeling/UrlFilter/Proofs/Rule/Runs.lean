import UrlFilter.Proofs.Build.Accounting
import UrlFilter.Proofs.Rule.Sections

/-!
# Runs of a reader

A reader is called for one line after the other, and to end a list. What each call comes to is an event, and the
events alone decide in which section the reader is (`current_run`): comments and ends of lists change it, and the
lines passed over are counted. So the count of a section is that of the lines dropped with it, and the tally of
such lines is the sum of these counts (`runs_keep_sections`).
-/

namespace UrlFilter

namespace Policy

variable {p : Policy} {s : Section} {text : Text} {n : Nat}

/-! ## One line -/

/-- What is judged is not dropped for the looks of its line. -/
theorem judge_eq_error {isException : Bool} {pattern options : Text} {d : Drop}
    (h : p.judge isException pattern options n = .error d) : d ≠ .comment ∧ d ≠ .ignoredSection := by
  unfold judge at h
  split at h
  · exact Except.error.inj h ▸ ⟨by simp, by simp⟩
  · repeat' split at h
    all_goals first
      | exact Except.error.inj h ▸ ⟨by simp, by simp⟩
      | simp at h

/-- A line that is heard as a comment gives no rule. -/
theorem rule?_of_heard {heard : Text} (h : Line.heard? text = some heard) : Line.rule? text = none := by
  unfold Line.heard? at h
  split at h
  · simp at h
  · simp [Line.rule?, h]

/-- A line is a comment, holds a rule, or is dropped for its looks and leaves the section as it is. A rule is
judged, or passed over and counted. -/
theorem readLine_cases (p : Policy) (text : Text) :
    (∃ heard, Line.heard? text = some heard ∧
      ∀ s n, p.readLine s text n = ⟨.error .comment, s.comment (p.opensIgnored heard)⟩) ∨
    (∃ isException pattern options, Line.rule? text = some (isException, pattern, options) ∧
      (∀ n, p.readLine .scanning text n = ⟨p.judge isException pattern options n, .scanning⟩) ∧
      ∀ k n, p.readLine (.ignoring k) text n = ⟨.error .ignoredSection, .ignoring (k + 1)⟩) ∨
    (Line.heard? text = none ∧ Line.rule? text = none ∧
      ∃ d, d ≠ .comment ∧ d ≠ .ignoredSection ∧ ∀ s n, p.readLine s text n = ⟨.error d, s⟩) := by
  cases hheard : Line.heard? text with
  | some heard => exact .inl ⟨heard, rfl, fun s n => readLine_of_heard hheard⟩
  | none =>
    refine .inr ?_
    unfold Line.heard? at hheard
    rw [← Line.isSelector_trimEnd] at hheard
    unfold readLine Line.rule?
    dsimp only
    by_cases hconfig : Line.isConfig (Text.trimEnd text) = true
    · exact .inr ⟨rfl, by simp [hconfig], .configLine, by simp, by simp, fun s n => by rw [if_pos hconfig]⟩
    by_cases hselector : Line.isSelector (Text.trimEnd text) = true
    · exact .inr ⟨rfl, by simp [hselector], .selector, by simp, by simp,
        fun s n => by rw [if_neg hconfig, if_pos hselector]⟩
    rw [if_neg hselector] at hheard
    simp only [if_neg hconfig, if_neg hselector, hheard]
    by_cases hblank : (Text.trimChar '*'
        (Line.splitOptions (Line.splitException (Text.trimEnd text)).2).1).isEmpty = true
    · exact .inr ⟨trivial, by simp [hblank], .blank, by simp, by simp, fun s n => by rw [if_pos hblank]⟩
    · refine .inl ⟨_, _, _, if_neg (by simp [hconfig, hselector, hblank]), fun n => ?_, fun k n => ?_⟩
      · rw [if_neg hblank]
      · rw [if_neg hblank]

end Policy

/-! ## Calls and events -/

namespace Reader

/-- What is asked of a reader. -/
inductive Call where
  | line (text : Text) (ordinal : Nat)
  /-- The list ends. -/
  | finish
  deriving Repr, DecidableEq

/-- What a call came to. -/
inductive Event where
  | line (text : Text) (result : Except Drop Rule)
  | finish

/-- The line was dropped for the reason. -/
def Event.isDrop (d : Drop) : Event → Bool
  | .line _ (.error d') => d' == d
  | _ => false

/-- A comment, or the end of a list: what went before it is of no more concern. -/
def Event.isMark : Event → Bool
  | .finish => true
  | e => e.isDrop .comment

/-- The line was dropped as a comment, and one of the policy's marks occurs in it. -/
def Event.opens (p : Policy) : Event → Bool
  | .line text (.error .comment) => (Line.heard? text).any p.opensIgnored
  | _ => false

/-- The reader behind a call. -/
def call (p : Policy) (r : Reader) : Call → Reader
  | .line text ordinal => (r.read p text ordinal).1
  | .finish => r.finish

/-- What a call comes to. -/
def event (p : Policy) (r : Reader) : Call → Event
  | .line text ordinal => .line text (p.readLine r.current text ordinal).result
  | .finish => .finish

/-- The reader behind calls. -/
def run (p : Policy) (r : Reader) (calls : List Call) : Reader := calls.foldl (call p) r

/-- What calls come to. -/
def events (p : Policy) : Reader → List Call → List Event
  | _, [] => []
  | r, c :: cs => event p r c :: events p (call p r c) cs

end Reader

/-! ## Sections -/

namespace Section

open Reader (Event)

/-- The section with one more rule passed over. -/
def pass : Section → Section
  | scanning => scanning
  | ignoring n => ignoring (n + 1)

/-- The section behind an event. -/
def after (p : Policy) (s : Section) : Event → Section
  | .finish => .scanning
  | .line text (.error .comment) => s.comment (Event.opens p (.line text (.error .comment)))
  | .line _ (.error .ignoredSection) => s.pass
  | .line _ _ => s

/-- The section behind events, from the start. -/
def behind (p : Policy) (es : List Event) : Section := es.foldl (after p) .scanning

/-- The number of rules that have been passed over. -/
def count? : Section → Option Nat
  | scanning => none
  | ignoring n => some n

variable {p : Policy} {s : Section} {n k : Nat} {e : Event} {es since : List Event}

/-- Other drops than those of comments and of passed rules leave the section. -/
theorem after_of_ne {d : Drop} (hcomment : d ≠ .comment) (hignored : d ≠ .ignoredSection) (text : Text) :
    s.after p (.line text (.error d)) = s := by
  cases d <;> first | rfl | contradiction

/-- A call leaves the section that its event does. -/
theorem current_call (p : Policy) (r : Reader) (c : Reader.Call) :
    (r.call p c).current = r.current.after p (r.event p c) := by
  cases c with
  | finish => rfl
  | line text ordinal =>
    have hnext : (r.call p (.line text ordinal)).current = (p.readLine r.current text ordinal).next := by
      rw [Reader.call, Reader.read]
      cases (p.readLine r.current text ordinal).result with
      | ok rule => rfl
      | error d => rfl
    rw [hnext, Reader.event]
    rcases p.readLine_cases text with
      ⟨heard, hheard, hread⟩ | ⟨isException, pattern, options, -, hjudged, hpassed⟩ |
        ⟨-, -, d, hcomment, hignored, hread⟩
    · simp [hread, after, Event.opens, hheard]
    -- A rule that is judged is neither a comment nor passed over, and leaves the section as it is.
    · cases r.current with
      | ignoring k =>
        rw [hpassed]
        rfl
      | scanning =>
        rw [hjudged]
        cases hjudge : p.judge isException pattern options ordinal with
        | ok rule => rfl
        | error d =>
          obtain ⟨hcomment, hignored⟩ := Policy.judge_eq_error hjudge
          exact (after_of_ne hcomment hignored text).symm
    · rw [hread]
      exact (after_of_ne hcomment hignored text).symm

/-- Only marks open an ignored section. -/
theorem isMark_of_opens (h : e.opens p = true) : e.isMark = true := by
  cases e with
  | finish => rfl
  | line text result =>
    rcases result with d | rule
    · cases d <;> first | rfl | simp [Event.opens] at h
    · simp [Event.opens] at h

/-- From outside an ignored section, an event that opens one leads into it, and no other does. -/
theorem after_scanning (p : Policy) (e : Event) :
    scanning.after p e = if e.opens p then ignoring 0 else scanning := by
  cases e with
  | finish => rfl
  | line text result =>
    rcases result with d | rule
    · cases d <;> rfl
    · rfl

/-- A mark that opens no section ends an ignored one; every other event goes on with it, a rule dropped with the
section being counted. -/
theorem after_ignoring (p : Policy) (k : Nat) (e : Event) :
    (ignoring k).after p e =
      if e.isMark && !e.opens p then scanning
      else ignoring (k + if e.isDrop .ignoredSection then 1 else 0) := by
  cases e with
  | finish => rfl
  | line text result =>
    rcases result with d | rule
    · cases d with
      | comment =>
        rw [after]
        generalize Event.opens p _ = opens
        cases opens <;> rfl
      | _ => rfl
    · rfl

/-- Behind a mark a section is ignored as the mark says, and behind any other event as before. -/
theorem isIgnoring_after (p : Policy) (s : Section) (e : Event) :
    (s.after p e).isIgnoring = if e.isMark then e.opens p else s.isIgnoring := by
  cases s with
  | scanning =>
    rw [after_scanning]
    cases hopens : e.opens p with
    | true => simp [isMark_of_opens hopens, isIgnoring]
    | false => simp [isIgnoring]
  | ignoring k =>
    rw [after_ignoring]
    cases e.isMark <;> cases e.opens p <;> rfl

/-- The section behind events and one more is the section after that one. -/
theorem behind_concat (p : Policy) (es : List Event) (e : Event) :
    behind p (es ++ [e]) = (behind p es).after p e := by simp [behind]

/-- Between marks, rules are passed over or not as before. -/
theorem isIgnoring_foldl_after (h : ∀ e ∈ since, e.isMark = false) :
    (since.foldl (after p) s).isIgnoring = s.isIgnoring := by
  induction since generalizing s with
  | nil => rfl
  | cons e since ih =>
    obtain ⟨he, hsince⟩ := List.forall_mem_cons.mp h
    rw [List.foldl_cons, ih hsince, isIgnoring_after, he, if_neg Bool.false_ne_true]

/-- The section is without interest exactly when the last mark opens one. -/
theorem isIgnoring_behind_iff : (behind p es).isIgnoring = true ↔
    ∃ before opening since, es = before ++ opening :: since ∧ opening.opens p = true ∧
      ∀ e ∈ since, e.isMark = false := by
  constructor
  · intro h
    -- The last mark of a section decides, so the induction is on the last event.
    induction es using List.reverseRecOn with
    | nil => simp [behind, isIgnoring] at h
    | append_singleton es e ih =>
      rw [behind_concat, isIgnoring_after] at h
      cases hmark : e.isMark with
      | true => exact ⟨es, e, [], rfl, by simpa [hmark] using h, by simp⟩
      | false =>
        obtain ⟨before, opening, since, rfl, hopening, hsince⟩ := ih (by simpa [hmark] using h)
        refine ⟨before, opening, since ++ [e], by simp, hopening, ?_⟩
        simpa [or_imp, forall_and, hmark] using hsince
  · rintro ⟨before, opening, since, rfl, hopening, hsince⟩
    rw [behind, List.foldl_append, List.foldl_cons, isIgnoring_foldl_after hsince, isIgnoring_after,
      isMark_of_opens hopening, if_pos rfl, hopening]

/-- Where each mark opens a section, the one that is open stays, and counts what is passed over. -/
theorem foldl_after_ignoring (h : ∀ e ∈ since, e.isMark = true → e.opens p = true) :
    since.foldl (after p) (ignoring k) = ignoring (k + since.countP (·.isDrop .ignoredSection)) := by
  induction since generalizing k with
  | nil => rfl
  | cons e since ih =>
    obtain ⟨he, hsince⟩ := List.forall_mem_cons.mp h
    have hstays : (e.isMark && !e.opens p) = false := by
      cases hmark : e.isMark with
      | false => rfl
      | true => rw [he hmark]; rfl
    rw [List.foldl_cons, after_ignoring, hstays, if_neg Bool.false_ne_true, ih hsince, List.countP_cons]
    congr 1
    omega

/-- A section is the work of the comment that opened it, and counts what has been passed over since then; other
comments that open one do not matter. -/
theorem behind_eq_ignoring_iff : behind p es = .ignoring n ↔
    ∃ before opening since, es = before ++ opening :: since ∧ behind p before = .scanning ∧
      opening.opens p = true ∧ (∀ e ∈ since, e.isMark = true → e.opens p = true) ∧
      n = since.countP (·.isDrop .ignoredSection) := by
  constructor
  · intro h
    -- The last event opened the section, or the section had been open before it and goes on.
    induction es using List.reverseRecOn generalizing n with
    | nil => simp [behind] at h
    | append_singleton es e ih =>
      rw [behind_concat] at h
      cases hs : behind p es with
      | scanning =>
        rw [hs, after_scanning] at h
        split at h
        · next hopens =>
          exact ⟨es, e, [], rfl, hs, hopens, by simp, by simpa using h.symm⟩
        · simp at h
      | ignoring k =>
        rw [hs, after_ignoring] at h
        split at h
        · simp at h
        · next hstays =>
          obtain ⟨before, opening, since, rfl, hbefore, hopening, hsince, rfl⟩ := ih hs
          refine ⟨before, opening, since ++ [e], by simp, hbefore, hopening, ?_, ?_⟩
          · intro e' he'
            rcases List.mem_append.mp he' with hmem | hmem
            · exact hsince e' hmem
            · obtain rfl := List.mem_singleton.mp hmem
              simpa using hstays
          · rw [List.countP_append, List.countP_singleton]
            exact (ignoring.inj h).symm
  · rintro ⟨before, opening, since, rfl, hbefore, hopening, hsince, rfl⟩
    have hopened : behind p (before ++ [opening]) = .ignoring 0 := by
      rw [behind_concat, hbefore, after_scanning, if_pos hopening]
    rw [List.append_cons, behind, List.foldl_append, ← behind, hopened, foldl_after_ignoring hsince,
      Nat.zero_add]

end Section

namespace Reader

variable {p : Policy} {n : Nat}

/-- The reader is in the section that the events of its calls lead to. -/
theorem current_run (p : Policy) (r : Reader) (calls : List Call) :
    (r.run p calls).current = (events p r calls).foldl (Section.after p) r.current := by
  induction calls generalizing r with
  | nil => rfl
  | cons c calls ih =>
    rw [run, List.foldl_cons, ← run, ih, Section.current_call]
    rfl

/-- The first events are those of the first calls. -/
theorem take_events (p : Policy) (r : Reader) (calls : List Call) (k : Nat) :
    (events p r calls).take k = events p r (calls.take k) := by
  induction calls generalizing r k with
  | nil => rw [List.take_nil, events, List.take_nil]
  | cons c calls ih =>
    cases k with
    | zero => rfl
    | succ k => rw [events, List.take_succ_cons, List.take_succ_cons, events, ih]

/-! ## Counts -/

/-- A call counts the reason for which it dropped a line. -/
theorem count_call (p : Policy) (r : Reader) (c : Call) (d : Drop) :
    (r.call p c).tally.count d = r.tally.count d + if (r.event p c).isDrop d then 1 else 0 := by
  cases c with
  | finish => rfl
  | line text ordinal =>
    rw [call, event, read]
    cases (p.readLine r.current text ordinal).result with
    | ok rule => cases d <;> rfl
    | error d' =>
      have hline : (r.tally.line.count d) = r.tally.count d := by cases d <;> rfl
      simp [Tally.count_drop, hline, Event.isDrop]

/-- A run counts as many drops for a reason as its events have. -/
theorem count_run (p : Policy) (r : Reader) (calls : List Call) (d : Drop) :
    (r.run p calls).tally.count d = r.tally.count d + (events p r calls).countP (·.isDrop d) := by
  induction calls generalizing r with
  | nil => rfl
  | cons c calls ih =>
    rw [run, List.foldl_cons, ← run, ih, count_call, events, List.countP_cons]
    omega

/-- Outside of sections no rule is passed over. -/
theorem isDrop_of_scanning {r : Reader} (h : r.current = .scanning) (c : Call) :
    (r.event p c).isDrop .ignoredSection = false := by
  cases c with
  | finish => rfl
  | line text ordinal =>
    -- Outside of a section without interest, no line is dropped for the section.
    rw [event, h]
    rcases p.readLine_cases text with
      ⟨heard, -, hread⟩ | ⟨isException, pattern, options, -, hjudged, -⟩ | ⟨-, -, d, -, hignored, hread⟩
    · rw [hread]
      rfl
    · rw [hjudged]
      cases hjudge : p.judge isException pattern options ordinal with
      | ok rule => rfl
      | error d => exact beq_false_of_ne (Policy.judge_eq_error hjudge).2
    · rw [hread]
      exact beq_false_of_ne hignored

/-- The counts of sections, each as it was when the section ended, and that of the open one. -/
def sectionCounts (p : Policy) : Reader → List Call → List Nat
  | r, [] => r.current.count?.toList
  | r, c :: cs =>
    (if (r.call p c).current.isIgnoring then [] else r.current.count?.toList) ++
      sectionCounts p (r.call p c) cs

/-- A mark is not dropped with a section. -/
theorem isDrop_of_isMark {e : Event} (h : e.isMark = true) : e.isDrop .ignoredSection = false := by
  cases e with
  | finish => rfl
  | line text result =>
    rcases result with d | rule
    · obtain rfl : d = .comment := eq_of_beq h
      rfl
    · rfl

/-- What is passed over is counted in one of the sections, the open one at the start included. -/
theorem sum_sectionCounts (p : Policy) (r : Reader) (calls : List Call) :
    (sectionCounts p r calls).sum =
      r.current.count?.getD 0 + (events p r calls).countP (·.isDrop .ignoredSection) := by
  induction calls generalizing r with
  | nil => cases hs : r.current <;> simp [sectionCounts, events, hs, Section.count?]
  | cons c calls ih =>
    rw [sectionCounts, List.sum_append, ih, events, List.countP_cons, Section.current_call]
    -- A section that ends hands in its count, and one that goes on is counted by what follows.
    cases hs : r.current with
    | scanning =>
      rw [Section.after_scanning, isDrop_of_scanning hs]
      split <;> simp [Section.isIgnoring, Section.count?]
    | ignoring k =>
      rw [Section.after_ignoring]
      split
      · next hends =>
        obtain ⟨hmark, -⟩ := Bool.and_eq_true_iff.mp hends
        simp [Section.isIgnoring, Section.count?, isDrop_of_isMark hmark]
      · simp only [Section.isIgnoring, Section.count?, if_true, List.sum_nil, Option.getD_some]
        omega

/-- While rules are passed over a line gives none, and those that hold one are counted. -/
theorem read_of_ignoring {r : Reader} (h : r.current = .ignoring n) (p : Policy) (text : Text) (ordinal : Nat) :
    (r.read p text ordinal).2 = none ∧
      ((r.read p text ordinal).1.current = .ignoring (n + 1) ↔ (Line.rule? text).isSome = true) := by
  unfold read
  rw [h]
  rcases p.readLine_cases text with
    ⟨heard, hheard, hread⟩ | ⟨isException, pattern, options, hrule, -, hpassed⟩ | ⟨-, hrule, d, -, -, hread⟩
  · rw [hread, Policy.rule?_of_heard hheard]
    cases p.opensIgnored heard <;> simp [Section.comment]
  · simp [hpassed, hrule]
  · simp [hread, hrule]

/-! ## Whole runs -/

/-- Every line that a call reads is accepted or dropped for a reason. -/
theorem lines_call {r : Reader}
    (h : r.tally.lines = r.tally.accepted + (r.tally.lineDrops + r.tally.ruleDrops)) (p : Policy) (c : Call) :
    (r.call p c).tally.lines =
      (r.call p c).tally.accepted + ((r.call p c).tally.lineDrops + (r.call p c).tally.ruleDrops) := by
  cases c with
  | finish => exact h
  | line text ordinal =>
    rw [call, read]
    cases (p.readLine r.current text ordinal).result with
    | ok rule =>
      simp only [Tally.line, Tally.accept, Tally.lineDrops, Tally.ruleDrops] at h ⊢
      omega
    | error d =>
      simp only [Tally.lines_drop, Tally.accepted_drop, Tally.lineDrops_drop, Tally.ruleDrops_drop]
      simp only [Tally.line, Tally.lineDrops, Tally.ruleDrops] at h ⊢
      cases d.ofLine <;> simp only [if_true, Bool.false_eq_true, if_false] <;> omega

/-- After a run, as before it, the lines are those accepted and those dropped. -/
theorem lines_run {r : Reader}
    (h : r.tally.lines = r.tally.accepted + (r.tally.lineDrops + r.tally.ruleDrops)) (p : Policy)
    (calls : List Call) : (r.run p calls).tally.lines =
      (r.run p calls).tally.accepted + ((r.run p calls).tally.lineDrops + (r.run p calls).tally.ruleDrops) := by
  induction calls generalizing r with
  | nil => exact h
  | cons c calls ih => exact ih (lines_call h p c)

/-- A run keeps its sections as its events tell. -/
structure KeepsSections (p : Policy) (calls : List Call) : Prop where
  /-- The section behind the first events is the one that is current behind the first calls, whose events these are. -/
  behind_take : ∀ k, (events p {} calls).take k = events p {} (calls.take k) ∧
    Section.behind p ((events p {} calls).take k) = (run p {} (calls.take k)).current
  /-- Rules are passed over exactly where a comment opened a section and neither a comment nor the end of a list
  followed it. -/
  isIgnoring_iff : (run p {} calls).current.isIgnoring = true ↔
    ∃ before opening since, events p {} calls = before ++ opening :: since ∧ opening.opens p = true ∧
      ∀ e ∈ since, e.isMark = false
  /-- The count is that of the lines dropped with the section since it was opened, by a comment outside of
  sections; comments that would open one again do not matter. -/
  current_eq_iff : ∀ n, (run p {} calls).current = .ignoring n ↔
    ∃ before opening since, events p {} calls = before ++ opening :: since ∧
      Section.behind p before = .scanning ∧ opening.opens p = true ∧
      (∀ e ∈ since, e.isMark = true → e.opens p = true) ∧
      n = since.countP (·.isDrop .ignoredSection)
  /-- No line gives a rule while rules are passed over, and only those that hold one add to the count. -/
  passes : ∀ n, (run p {} calls).current = .ignoring n → ∀ text ordinal,
    ((run p {} calls).read p text ordinal).2 = none ∧
      (((run p {} calls).read p text ordinal).1.current = .ignoring (n + 1) ↔ (Line.rule? text).isSome = true)
  /-- The drops of each reason are counted. -/
  count_eq : ∀ d, (run p {} calls).tally.count d = (events p {} calls).countP (·.isDrop d)
  /-- The tally of passed rules is that of all sections together. -/
  ignoredSections_eq : (run p {} calls).tally.ignoredSections = (sectionCounts p {} calls).sum
  /-- Every line was accepted or dropped for a reason. -/
  lines_eq : (run p {} calls).tally.lines = (run p {} calls).tally.accepted +
    ((run p {} calls).tally.lineDrops + (run p {} calls).tally.ruleDrops)

/-- Every run keeps its sections, whatever the policy and in whatever order lines and ends of lists come. -/
theorem runs_keep_sections (p : Policy) (calls : List Call) : KeepsSections p calls where
  behind_take k := by
    rw [current_run, take_events]
    exact ⟨rfl, rfl⟩
  isIgnoring_iff := by
    rw [current_run]
    exact Section.isIgnoring_behind_iff
  current_eq_iff n := by
    rw [current_run]
    exact Section.behind_eq_ignoring_iff
  passes n h := read_of_ignoring h p
  count_eq d := by
    rw [count_run]
    cases d <;> exact Nat.zero_add _
  ignoredSections_eq := by
    have hcount := count_run p {} calls .ignoredSection
    rw [sum_sectionCounts]
    exact hcount
  lines_eq := lines_run rfl p calls

/-- A list with a section that a second comment prolongs, cut short, and a rule of the next list. -/
def interrupted : List Call :=
  [.line "! German".toList 0, .line "||a.de^".toList 1, .line "! More German".toList 2, .line "".toList 3,
    .line "||b.de^".toList 4, .finish, .line "||c.com^".toList 0]

/-- The section counts both of its rules, from the first comment on, and the end of the list closes it. -/
theorem runs_keep_sections_sample :
    KeepsSections Policy.marking (interrupted.take 5) ∧ KeepsSections Policy.marking interrupted ∧
      (run Policy.marking {} (interrupted.take 5)).current = .ignoring 2 ∧
      (run Policy.marking {} interrupted).current = .scanning ∧
      sectionCounts Policy.marking {} interrupted = [2] ∧
      (run Policy.marking {} interrupted).tally.lines = 6 :=
  ⟨runs_keep_sections _ _, runs_keep_sections _ _, by decide +kernel, by decide +kernel, by decide +kernel,
    by decide +kernel⟩

end Reader

end UrlFilter
