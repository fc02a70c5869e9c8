import UrlFilter.Proofs.Regex.Position
import UrlFilter.Rule.Glob
import UrlFilter.Unicode.Basic

/-!
# The language of globs

What it means that a glob matches a text, said without regular expressions: its spans match one after
the other, the first one where the match starts and each later one somewhere behind the one before.

Every span that matches at a place ends at one place only, and an earlier start never has a later end.
Hence nothing is lost when each span takes the first place where it matches: `FollowedBy` and
`runSpans?`, which looks at no second place, agree.
-/

namespace UrlFilter.Glob

open Regex (Cursor)

/-! ## Signs and spans -/

/-- What a character of a span asks of the text. -/
inductive Sign where
  /-- A character that equals this one up to case. -/
  | literal (c : Char)
  /-- A separator, or the end of the text. -/
  | separator
  | textStart
  | textEnd
  deriving Repr, DecidableEq

/-- What a character asks for, by its place: a bar is an end of the text at either end of the pattern
and stands for itself elsewhere. -/
def signOf (first last : Bool) (c : Char) : Sign :=
  if c = '|' then
    if first then .textStart else if last then .textEnd else .literal '|'
  else if c = '^' then .separator
  else .literal c

/-- The signs of a span, which starts or ends the whole pattern or not. -/
def signs (first last : Bool) : Text → List Sign
  | [] => []
  | c :: t => signOf first (last && t.isEmpty) c :: signs false last t

/-- The first span of a pattern: what precedes its first asterisk. -/
def firstSpan (pattern : Text) : List Sign :=
  match Text.parts '*' pattern with
  | [] => []
  | s :: ss => signs true ss.isEmpty s

/-- The spans behind the asterisks of a pattern that are not empty. -/
def restSpans (pattern : Text) : List (List Sign) :=
  (laterSpans (Text.parts '*' pattern).tail).map fun (s, last) => signs false last s

/-- A character that `^` stands for: no word character, dot, percent sign or hyphen. -/
def isSeparator (x : Char) : Bool := !(Unicode.isWord x || x == '.' || x == '%' || x == '-')

/-- The sign matches between two positions. -/
inductive Sign.Matches : Sign → Cursor → Cursor → Prop
  | literal {c x : Char} {b a : Text} (h : Unicode.sameFolded x c = true) :
    Matches (.literal c) ⟨b, x :: a⟩ ⟨x :: b, a⟩
  | separator {x : Char} {b a : Text} (h : isSeparator x = true) :
    Matches .separator ⟨b, x :: a⟩ ⟨x :: b, a⟩
  | separatorAtEnd {b : Text} : Matches .separator ⟨b, []⟩ ⟨b, []⟩
  | textStart {a : Text} : Matches .textStart ⟨[], a⟩ ⟨[], a⟩
  | textEnd {b : Text} : Matches .textEnd ⟨b, []⟩ ⟨b, []⟩

/-- The signs of a span match one behind the other. -/
inductive SpanMatches : List Sign → Cursor → Cursor → Prop
  | nil (c : Cursor) : SpanMatches [] c c
  | cons {s : Sign} {ss : List Sign} {c d e : Cursor} (h : s.Matches c d)
    (hs : SpanMatches ss d e) : SpanMatches (s :: ss) c e

/-- The spans match in their order, each somewhere at or behind the end of the one before. -/
inductive FollowedBy : List (List Sign) → Cursor → Prop
  | nil (c : Cursor) : FollowedBy [] c
  | cons {s : List Sign} {ss : List (List Sign)} {c d e : Cursor} (hd : d ∈ c.onwards)
    (h : SpanMatches s d e) (hs : FollowedBy ss e) : FollowedBy (s :: ss) c

/-- The pattern matches somewhere in the text; an anchored one at its start. -/
def Matches (anchored : Bool) (pattern t : Text) : Prop :=
  ∃ c ∈ (Cursor.start t).onwards, (anchored = true → c = Cursor.start t) ∧
    ∃ d, SpanMatches (firstSpan pattern) c d ∧ FollowedBy (restSpans pattern) d

/-! ## Matching without a second try -/

/-- The position behind a sign that matches. -/
def Sign.after? : Sign → Cursor → Option Cursor
  | .literal c, ⟨b, x :: a⟩ => if Unicode.sameFolded x c then some ⟨x :: b, a⟩ else none
  | .literal _, ⟨_, []⟩ => none
  | .separator, ⟨b, x :: a⟩ => if isSeparator x then some ⟨x :: b, a⟩ else none
  | .separator, ⟨b, []⟩ => some ⟨b, []⟩
  | .textStart, c => if c.before.isEmpty then some c else none
  | .textEnd, c => if c.after.isEmpty then some c else none

/-- The position behind a span that matches. -/
def afterSpan? : List Sign → Cursor → Option Cursor
  | [], c => some c
  | s :: ss, c => (s.after? c).bind (afterSpan? ss)

/-- The position behind the first match of a span. -/
def nearest? (span : List Sign) (c : Cursor) : Option Cursor := c.onwards.findSome? (afterSpan? span)

/-- The position behind spans of which each takes the first place where it matches. -/
def runSpans? : List (List Sign) → Cursor → Option Cursor
  | [], c => some c
  | s :: ss, c => (nearest? s c).bind (runSpans? ss)

/-- A sign matches up to the position where it ends. -/
theorem Sign.matches_iff {s : Sign} {c d : Cursor} : s.Matches c d ↔ s.after? c = some d := by
  constructor
  · intro h
    cases h <;> simp_all [after?]
  · intro h
    -- The relation has one rule for each way that `after?` succeeds.
    obtain ⟨b, a⟩ := c
    cases s with
    | literal y =>
      cases a with
      | nil => simp [after?] at h
      | cons x a =>
        simp only [after?, Option.ite_none_right_eq_some, Option.some.injEq] at h
        obtain ⟨hx, rfl⟩ := h
        exact .literal hx
    | separator =>
      cases a with
      | nil =>
        simp only [after?, Option.some.injEq] at h
        subst h
        exact .separatorAtEnd
      | cons x a =>
        simp only [after?, Option.ite_none_right_eq_some, Option.some.injEq] at h
        obtain ⟨hx, rfl⟩ := h
        exact .separator hx
    | textStart =>
      simp only [after?, List.isEmpty_iff, Option.ite_none_right_eq_some, Option.some.injEq] at h
      obtain ⟨rfl, rfl⟩ := h
      exact .textStart
    | textEnd =>
      simp only [after?, List.isEmpty_iff, Option.ite_none_right_eq_some, Option.some.injEq] at h
      obtain ⟨rfl, rfl⟩ := h
      exact .textEnd

/-- A span matches up to the position where it ends. -/
theorem spanMatches_iff {ss : List Sign} {c d : Cursor} :
    SpanMatches ss c d ↔ afterSpan? ss c = some d := by
  induction ss generalizing c with
  | nil =>
    simp only [afterSpan?, Option.some.injEq]
    constructor
    · rintro ⟨⟩
      rfl
    · rintro rfl
      exact .nil c
  | cons s ss ih =>
    simp only [afterSpan?, Option.bind_eq_some_iff]
    constructor
    · rintro (_ | ⟨h, hs⟩)
      exact ⟨_, Sign.matches_iff.mp h, ih.mp hs⟩
    · rintro ⟨e, h, hs⟩
      exact .cons (Sign.matches_iff.mpr h) (ih.mpr hs)

/-- A span in two halves matches from one to the other. -/
theorem afterSpan?_append (as bs : List Sign) (c : Cursor) :
    afterSpan? (as ++ bs) c = (afterSpan? as c).bind (afterSpan? bs) := by
  induction as generalizing c with
  | nil => rfl
  | cons s as ih =>
    rw [List.cons_append, afterSpan?, afterSpan?, Option.bind_assoc]
    exact congrArg _ (funext ih)

/-- A sign matches onwards. -/
theorem Sign.after?_mem_onwards {s : Sign} {c d : Cursor} (h : s.after? c = some d) :
    d ∈ c.onwards := by
  cases Sign.matches_iff.mpr h with
  | literal => exact Cursor.forward_mem_onwards _ _ _
  | separator => exact Cursor.forward_mem_onwards _ _ _
  | separatorAtEnd => exact Cursor.onwards_refl _
  | textStart => exact Cursor.onwards_refl _
  | textEnd => exact Cursor.onwards_refl _

/-- A span ends no earlier than it starts. -/
theorem afterSpan?_mem_onwards {ss : List Sign} {c d : Cursor} (h : afterSpan? ss c = some d) :
    d ∈ c.onwards := by
  induction ss generalizing c with
  | nil =>
    simp only [afterSpan?, Option.some.injEq] at h
    exact h ▸ Cursor.onwards_refl c
  | cons s ss ih =>
    obtain ⟨e, he, hd⟩ := Option.bind_eq_some_iff.mp h
    exact Cursor.onwards_trans (Sign.after?_mem_onwards he) (ih hd)

/-- A sign that matches at two places ends at the earlier one no later. -/
theorem Sign.after?_mono {s : Sign} {c c' d d' : Cursor} (hc : c' ∈ c.onwards)
    (h : s.after? c = some d) (h' : s.after? c' = some d') : d' ∈ d.onwards := by
  have hd' := Sign.after?_mem_onwards h'
  cases Sign.matches_iff.mpr h with
  | literal hx =>
    rcases Cursor.onwards_cons hc with rfl | hc
    · exact Option.some.inj (h.symm.trans h') ▸ Cursor.onwards_refl _
    · exact Cursor.onwards_trans hc hd'
  | separator hx =>
    rcases Cursor.onwards_cons hc with rfl | hc
    · exact Option.some.inj (h.symm.trans h') ▸ Cursor.onwards_refl _
    · exact Cursor.onwards_trans hc hd'
  | separatorAtEnd => exact Cursor.onwards_trans hc hd'
  | textStart => exact Cursor.onwards_trans hc hd'
  | textEnd => exact Cursor.onwards_trans hc hd'

/-- A span that starts later ends no earlier. -/
theorem afterSpan?_mono {ss : List Sign} {c c' d d' : Cursor} (hc : c' ∈ c.onwards)
    (h : afterSpan? ss c = some d) (h' : afterSpan? ss c' = some d') : d' ∈ d.onwards := by
  induction ss generalizing c c' with
  | nil =>
    simp only [afterSpan?, Option.some.injEq] at h h'
    exact h ▸ h' ▸ hc
  | cons s ss ih =>
    obtain ⟨e, he, hd⟩ := Option.bind_eq_some_iff.mp h
    obtain ⟨e', he', hd'⟩ := Option.bind_eq_some_iff.mp h'
    exact ih (Sign.after?_mono hc he he') hd hd'

/-! ## The first place is the best -/

/-- The first place where a function on the positions gives a result. -/
theorem findSome?_onwards {β : Type} {f : Cursor → Option β} {c : Cursor} {r : β}
    (h : c.onwards.findSome? f = some r) :
    ∃ d ∈ c.onwards, f d = some r ∧ ∀ d' ∈ c.onwards, (f d').isSome → d' ∈ d.onwards := by
  obtain ⟨b, a⟩ := c
  -- The first position where `f` has a value is the one that all others are behind.
  induction a generalizing b with
  | nil =>
    simp only [Cursor.onwards, Cursor.onwardsFrom, List.findSome?_cons, List.findSome?_nil] at h
    cases hf : f ⟨b, []⟩ with
    | none => simp [hf] at h
    | some r' =>
      simp only [hf, Option.some.injEq] at h
      subst h
      refine ⟨_, Cursor.onwards_refl _, hf, ?_⟩
      intro d' hd' _
      exact hd'
  | cons x a ih =>
    have hstep : (⟨b, x :: a⟩ : Cursor).onwards = ⟨b, x :: a⟩ :: (⟨x :: b, a⟩ : Cursor).onwards := rfl
    rw [hstep, List.findSome?_cons] at h
    cases hf : f ⟨b, x :: a⟩ with
    | some r' =>
      simp only [hf, Option.some.injEq] at h
      subst h
      exact ⟨_, Cursor.onwards_refl _, hf, fun d' hd' _ => hd'⟩
    | none =>
      simp only [hf] at h
      obtain ⟨d, hd, hfd, hmin⟩ := ih (x :: b) h
      refine ⟨d, Cursor.onwards_trans (Cursor.forward_mem_onwards b x a) hd, hfd, ?_⟩
      intro d' hd' hs
      rcases Cursor.onwards_cons hd' with rfl | hd'
      · simp [hf] at hs
      · exact hmin d' hd' hs

/-- Spans that follow a position follow every position in front of it. -/
theorem FollowedBy.earlier {ss : List (List Sign)} {c d : Cursor} (hc : d ∈ c.onwards)
    (h : FollowedBy ss d) : FollowedBy ss c := by
  cases h with
  | nil => exact .nil c
  | cons hd h hs => exact .cons (Cursor.onwards_trans hc hd) h hs

/-- The exchange: when the spans match in some way, they match with each span at the first place. -/
theorem followedBy_iff {ss : List (List Sign)} {c : Cursor} :
    FollowedBy ss c ↔ (runSpans? ss c).isSome := by
  induction ss generalizing c with
  | nil => exact ⟨fun _ => rfl, fun _ => .nil c⟩
  | cons s ss ih =>
    constructor
    · rintro (_ | ⟨hd, h, hs⟩)
      rename_i d e
      have hend := spanMatches_iff.mp h
      have hsome : (c.onwards.findSome? (afterSpan? s)).isSome := by
        rw [List.findSome?_isSome_iff]
        exact ⟨d, hd, by simp [hend]⟩
      obtain ⟨e', he'⟩ := Option.isSome_iff_exists.mp hsome
      obtain ⟨d', hd', hend', hmin⟩ := findSome?_onwards he'
      -- The first place is no later than `d`, so the span ends there no later than at `e`.
      have hle : e ∈ e'.onwards := afterSpan?_mono (hmin d hd (by simp [hend])) hend' hend
      simpa [runSpans?, nearest?, he'] using ih.mp (hs.earlier hle)
    · intro h
      obtain ⟨r, hr⟩ := Option.isSome_iff_exists.mp h
      obtain ⟨e, he, hr⟩ := Option.bind_eq_some_iff.mp hr
      obtain ⟨d, hd, hend, -⟩ := findSome?_onwards he
      exact .cons hd (spanMatches_iff.mpr hend) (ih.mpr (by simp [hr]))

/-- A glob matches when, from some place, its spans do without a second try. -/
theorem matches_iff {anchored : Bool} {pattern t : Text} :
    Matches anchored pattern t ↔
      ∃ c ∈ (Cursor.start t).onwards, (anchored = true → c = Cursor.start t) ∧
        ((afterSpan? (firstSpan pattern) c).bind (runSpans? (restSpans pattern))).isSome := by
  unfold Matches
  refine exists_congr fun c => and_congr_right fun _ => and_congr_right fun _ => ?_
  rw [Option.isSome_bind]
  simp only [spanMatches_iff, followedBy_iff]
  cases afterSpan? (firstSpan pattern) c with
  | none => simp
  | some d => simp

end UrlFilter.Glob
