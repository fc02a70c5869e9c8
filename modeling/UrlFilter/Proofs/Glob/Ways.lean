import UrlFilter.Proofs.Glob.Patterns

/-!
# Matching fragments with memory

A look ahead takes the nearest place where its span matches and remembers the text up to the end of the
span; the reference behind it runs over that text. So a fragment matches in one way at most, the way in
which its spans match without a second try.
-/

namespace UrlFilter.Glob

open Backtrack (Pattern State)
open Regex (Cursor)

/-- A pattern that matches in one way at most, up to a position that depends on nothing but the one where
the match starts. -/
structure Runs (p : Pattern) (f : Cursor → Option Cursor) : Prop where
  of_none : ∀ s : State, f s.cursor = none → p.ways s = []
  of_some : ∀ (s : State) (d : Cursor), f s.cursor = some d → ∃ groups, p.ways s = [⟨d, groups⟩]

/-- What runs has a way where it comes to an end. -/
theorem Runs.isEmpty_ways {p : Pattern} {f : Cursor → Option Cursor} (h : Runs p f) (s : State) :
    (p.ways s).isEmpty = (f s.cursor).isNone := by
  cases hf : f s.cursor with
  | none => rw [h.of_none s hf]; rfl
  | some d =>
    obtain ⟨groups, hd⟩ := h.of_some s d hf
    rw [hd]
    rfl

/-- The empty pattern stays where it is. -/
theorem runs_empty : Runs .empty some where
  of_none _ hs := by simp at hs
  of_some s d hs := ⟨s.groups, by rw [← Option.some.inj hs]; rfl⟩

/-- What runs one behind the other runs so as a sequence. -/
theorem Runs.seq {a b : Pattern} {f g : Cursor → Option Cursor} (ha : Runs a f) (hb : Runs b g) :
    Runs (.seq a b) fun c => (f c).bind g where
  of_none s hs := by
    cases hf : f s.cursor with
    | none => simp [Pattern.ways, ha.of_none s hf]
    | some d =>
      obtain ⟨groups, hd⟩ := ha.of_some s d hf
      have hg : g d = none := by simpa [hf] using hs
      simp [Pattern.ways, hd, hb.of_none ⟨d, groups⟩ hg]
  of_some s e hs := by
    obtain ⟨d, hf, hg⟩ := Option.bind_eq_some_iff.mp hs
    obtain ⟨groups, hd⟩ := ha.of_some s d hf
    obtain ⟨groups', he⟩ := hb.of_some ⟨d, groups⟩ e hg
    exact ⟨groups', by simp [Pattern.ways, hd, he, List.eraseDups_cons]⟩

/-- A pattern without memory runs when it matches in one way at most. -/
theorem runs_plain {r : Regex} {f : Cursor → Option Cursor} (h : ∀ c, r.ends c = (f c).toList) :
    Runs (.plain r) f where
  of_none s hs := by simp [Pattern.ways, h, hs]
  of_some s d hs := ⟨s.groups, by simp [Pattern.ways, h, hs]⟩

/-- The pattern of a sign runs as the sign does. -/
theorem Sign.runs_pattern (s : Sign) : Runs s.pattern s.after? := by
  cases s with
  | literal c => exact runs_plain ((Sign.literal c).ends_regex ignoresCase_foldsPlain)
  | separator =>
    have hways (st : State) : Sign.separator.pattern.ways st =
        (Sign.separator.after? st.cursor).toList.map fun d => { st with cursor := d } := by
      obtain ⟨⟨b, a⟩, groups⟩ := st
      cases a with
      | nil =>
        simp [pattern, Pattern.ways, Regex.ends, Regex.Look.holds, Cursor.next?, after?,
          List.eraseDups_cons]
      | cons x a =>
        cases hx : isSeparator x <;>
          simp [pattern, Pattern.ways, Regex.ends, mem_separatorClass, hx, Regex.Look.holds, Cursor.next?,
            after?, List.eraseDups_cons]
    exact ⟨fun st hs => by simp [hways, hs], fun st d hs => ⟨st.groups, by simp [hways, hs]⟩⟩
  | textStart => exact runs_plain (Sign.textStart.ends_regex ignoresCase_foldsPlain)
  | textEnd => exact runs_plain (Sign.textEnd.ends_regex ignoresCase_foldsPlain)

/-- The state at a position, with the text up to there remembered as that of a group. -/
def remembered (k : Nat) (s : State) (e : Cursor) : State :=
  { s with cursor := e }.remember k (State.textFrom { s with cursor := e } s.cursor)

/-- The look ahead remembers the text up to the end of the span, where the span matches somewhere. -/
theorem ways_runPattern (k : Nat) (ss : List Sign) (s : State) :
    (runPattern k ss).ways s =
      (nearest? ss s.cursor).toList.map fun e => { remembered k s e with cursor := s.cursor } := by
  have hfirst : (Pattern.first (.plain (runRegex foldsPlain ss))).ways s =
      (nearest? ss s.cursor).toList.map fun e => { s with cursor := e } := by
    rw [← head?_ends_runRegex ignoresCase_foldsPlain]
    simp only [Pattern.ways]
    cases (runRegex foldsPlain ss).ends s.cursor <;> rfl
  rw [runPattern, Pattern.ways, Pattern.ways, hfirst]
  cases nearest? ss s.cursor with
  | none => rfl
  | some e => simp [remembered, State.remember, List.eraseDups_cons]

/-- The reference behind a look ahead runs over the text that is remembered. -/
theorem ways_reference {k : Nat} {s : State} {e : Cursor} (he : e ∈ s.cursor.onwards) :
    (Pattern.reference k).ways { remembered k s e with cursor := s.cursor } = [remembered k s e] := by
  obtain ⟨w, hafter, hbefore⟩ := Cursor.mem_onwards.mp he
  have htext : State.textFrom { s with cursor := e } s.cursor = w := by
    simp [State.textFrom, hbefore]
  have hgroup : State.group? { remembered k s e with cursor := s.cursor } k = some w := by
    simp [State.group?, remembered, State.remember, htext]
  rw [Pattern.ways, hgroup, Option.bind_some, State.skipText?, hafter, Text.after?_append]
  simp [remembered, State.remember, ← hbefore]

/-- A look ahead with its reference, and what follows. -/
theorem runs_star {p : Pattern} {g : Cursor → Option Cursor} (k : Nat) (ss : List Sign) (hp : Runs p g) :
    Runs (.seq (runPattern k ss) (.seq (.reference k) p)) fun c => (nearest? ss c).bind g := by
  -- The run takes the text up to the nearest end of the span, and the reference goes there.
  have hways {s : State} {e : Cursor} (hnear : nearest? ss s.cursor = some e) :
      (Pattern.seq (runPattern k ss) (.seq (.reference k) p)).ways s =
        (p.ways (remembered k s e)).eraseDups.eraseDups := by
    have he : e ∈ s.cursor.onwards := by
      obtain ⟨d, hd, hend, -⟩ := findSome?_onwards hnear
      exact Cursor.onwards_trans hd (afterSpan?_mem_onwards hend)
    rw [Pattern.ways, ways_runPattern, hnear, Option.toList_some, List.map_cons, List.map_nil,
      List.flatMap_cons, List.flatMap_nil, List.append_nil, Pattern.ways, ways_reference he,
      List.flatMap_cons, List.flatMap_nil, List.append_nil]
  constructor
  · intro s hs
    cases hnear : nearest? ss s.cursor with
    | none => simp [Pattern.ways, ways_runPattern, hnear]
    | some e =>
      have hg : g e = none := by simpa [hnear] using hs
      rw [hways hnear, hp.of_none (remembered k s e) hg]
      rfl
  · intro s d hs
    obtain ⟨e, hnear, hg⟩ := Option.bind_eq_some_iff.mp hs
    obtain ⟨groups, hd⟩ := hp.of_some (remembered k s e) d hg
    refine ⟨groups, ?_⟩
    rw [hways hnear, hd]
    simp [List.eraseDups_cons]

/-- The pattern of a fragment runs as its spans do. -/
theorem Outline.runs_pattern (o : Outline) (used : Nat) :
    Runs (o.pattern used) fun c => (afterSpan? o.head c).bind (runSpans? o.rest) := by
  -- By induction on the spans behind asterisks, then on the signs from the first caret on. The front is one part.
  have hstars (rest : List (List Sign)) (used : Nat) :
      Runs (Pattern.seqAll (starPatterns used rest)) (runSpans? rest) := by
    induction rest generalizing used with
    | nil => exact runs_empty
    | cons ss rest ih => exact runs_star (used + 1) ss (ih (used + 1))
  have hback (ss : List Sign) : Runs (Pattern.seqAll (ss.map Sign.pattern ++ starPatterns used o.rest))
      fun c => (afterSpan? ss c).bind (runSpans? o.rest) := by
    induction ss with
    | nil => exact hstars o.rest used
    | cons s ss ih =>
      have h := s.runs_pattern.seq ih
      have heq : (fun c => (s.after? c).bind fun c => (afterSpan? ss c).bind (runSpans? o.rest)) =
          fun c => (afterSpan? (s :: ss) c).bind (runSpans? o.rest) := by
        funext c
        rw [afterSpan?, Option.bind_assoc]
      rw [heq] at h
      exact h
  have hfront := runs_plain (ends_spanRegex ignoresCase_foldsPlain (front o.head))
  have heq : (fun c => (afterSpan? (front o.head) c).bind fun d => (afterSpan? (back o.head) d).bind (runSpans? o.rest)) =
      fun c => (afterSpan? o.head c).bind (runSpans? o.rest) := by
    funext c
    rw [← Option.bind_assoc, ← afterSpan?_append, front, back, List.takeWhile_append_dropWhile]
  exact heq ▸ hfront.seq (hback (back o.head))

/-! ## Matching -/

/-- The spans of an outline match somewhere in the text. -/
def Outline.IsMatch (o : Outline) (t : Text) : Prop :=
  ∃ c ∈ (Cursor.start t).onwards, ((afterSpan? o.head c).bind (runSpans? o.rest)).isSome

/-- An outline matches as its pattern does. -/
theorem outline_isMatch_iff {anchored : Bool} {pattern t : Text} :
    (outline anchored pattern).IsMatch t ↔ Matches anchored pattern t := by
  rw [matches_iff]
  refine exists_congr fun c => and_congr_right fun hc => ?_
  cases anchored with
  | false => simp [Outline.head, outline]
  | true =>
    have hrest : (outline true pattern).rest = restSpans pattern := rfl
    have hhead : (outline true pattern).head = .textStart :: firstSpan pattern := rfl
    rw [hhead, hrest, afterSpan?]
    -- Only the start of the text has nothing in front of it.
    have hstart : c.before.isEmpty = true ↔ c = Cursor.start t := by
      have htext := Cursor.text_eq_of_onwards hc
      obtain ⟨b, a⟩ := c
      simp only [Cursor.start, Cursor.text, List.reverse_nil, List.nil_append] at htext
      simp only [List.isEmpty_iff, Cursor.start, Cursor.mk.injEq]
      constructor
      · rintro rfl
        exact ⟨rfl, by simpa using htext⟩
      · exact fun h => h.1
    by_cases hb : c.before.isEmpty = true
    · simp [Sign.after?, hstart.mp hb, Cursor.start]
    · have hne : c ≠ Cursor.start t := fun h => hb (hstart.mpr h)
      simp [Sign.after?, hb, hne]

/-- The pattern of a fragment matches as its outline does. -/
theorem Outline.isMatch_pattern (o : Outline) (used : Nat) (t : Text) :
    (o.pattern used).isMatch t = true ↔ o.IsMatch t := by
  simp only [Pattern.isMatch, List.any_eq_true, Bool.not_eq_true', (o.runs_pattern used).isEmpty_ways,
    Option.isNone_eq_false_iff, IsMatch]

/-- Fragments joined match when one of them does. -/
theorem isMatch_altAll_patternsFrom (os : List Outline) (used : Nat) (t : Text) :
    (Pattern.altAll (patternsFrom used os)).isMatch t = true ↔ ∃ o ∈ os, o.IsMatch t := by
  rw [Pattern.isMatch_altAll]
  induction os generalizing used with
  | nil => simp [patternsFrom]
  | cons o os ih =>
    simp only [patternsFrom, List.mem_cons, exists_eq_or_imp, o.isMatch_pattern, ih]

end UrlFilter.Glob
