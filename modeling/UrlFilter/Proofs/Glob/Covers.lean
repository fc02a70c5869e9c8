import UrlFilter.Proofs.Glob.Language
import UrlFilter.Proofs.Text.Cutting
import Mathlib.Data.List.Infix

/-!
# Globs without carets and bars

Such a glob is made of literal characters and asterisks. Whether it covers a text, from the first character to the
last one, is said by recursion on the glob, without spans. Nothing in the glob asks for an end, so from the start of
a text it matches exactly when it covers some beginning of the text (`matches_iff_covers`).
-/

namespace UrlFilter.Glob

open Regex (Cursor)

/-- The glob of literal characters and asterisks covers the whole text, up to the case of letters. -/
def covers : Text → Text → Bool
  | [], t => t.isEmpty
  | '*' :: p, t => t.tails.any (covers p)
  | c :: p, x :: t => Unicode.sameFolded x c && covers p t
  | _ :: _, [] => false

variable {p q s t : Text} {ss : List Text} {c d : Cursor}

/-! ## Covering -/

/-- An asterisk covers any beginning of a text. -/
theorem covers_star : covers ('*' :: p) t = true ↔ ∃ a b, t = a ++ b ∧ covers p b = true := by
  rw [covers, List.any_eq_true]
  constructor
  · rintro ⟨b, hb, hcovers⟩
    obtain ⟨a, rfl⟩ := (List.mem_tails _ _).mp hb
    exact ⟨a, b, rfl, hcovers⟩
  · rintro ⟨a, b, rfl, hcovers⟩
    exact ⟨b, (List.mem_tails _ _).mpr (List.suffix_append a b), hcovers⟩

/-- Any other character covers one that is equal to it up to case. -/
theorem covers_literal {y : Char} (hy : y ≠ '*') : covers (y :: p) t = true ↔
    ∃ x b, t = x :: b ∧ Unicode.sameFolded x y = true ∧ covers p b = true := by
  cases t with
  | nil => simp [covers]
  | cons x t => simp [covers]

/-- Two globs, one behind the other, cover what is covered by both in this order. -/
theorem covers_append :
    covers (p ++ q) t = true ↔ ∃ a b, t = a ++ b ∧ covers p a = true ∧ covers q b = true := by
  induction p generalizing t with
  | nil => simp [covers]
  | cons y p ih =>
    rw [List.cons_append]
    by_cases hy : y = '*'
    · -- The run that the asterisk takes goes with what the first glob covers.
      subst hy
      simp only [covers_star, ih]
      constructor
      · rintro ⟨w, _, rfl, a, b, rfl, ha, hb⟩
        exact ⟨w ++ a, b, by simp, ⟨w, a, rfl, ha⟩, hb⟩
      · rintro ⟨_, b, rfl, ⟨w, a, rfl, ha⟩, hb⟩
        exact ⟨w, a ++ b, by simp, a, b, rfl, ha, hb⟩
    · simp only [covers_literal hy, ih]
      constructor
      · rintro ⟨x, _, rfl, hx, a, b, rfl, ha, hb⟩
        exact ⟨x :: a, b, rfl, ⟨x, a, rfl, hx, ha⟩, hb⟩
      · rintro ⟨_, b, rfl, ⟨x, a, rfl, hx, ha⟩, hb⟩
        exact ⟨x, a ++ b, rfl, hx, a, b, rfl, ha, hb⟩

/-! ## Literal spans -/

/-- The signs of literal characters lead over what the characters cover. -/
theorem spanMatches_literal (hs : '*' ∉ s) : SpanMatches (s.map .literal) c d ↔
    ∃ a, c.after = a ++ d.after ∧ d.before = a.reverse ++ c.before ∧ covers s a = true := by
  -- A literal takes the first character of what is covered.
  induction s generalizing c with
  | nil =>
    constructor
    · rintro ⟨⟩
      exact ⟨[], rfl, rfl, rfl⟩
    · rintro ⟨a, hafter, hbefore, ha⟩
      obtain rfl := List.isEmpty_iff.mp ha
      obtain rfl : c = d := by cases c; cases d; simp_all
      exact .nil c
  | cons y s ih =>
    obtain ⟨hy, hs⟩ := not_or.mp (List.mem_cons.not.mp hs)
    constructor
    · rintro (_ | ⟨⟨hx⟩, h⟩)
      obtain ⟨a, hafter, hbefore, ha⟩ := (ih hs).mp h
      exact ⟨_ :: a, congrArg _ hafter, by simpa using hbefore, (covers_literal (Ne.symm hy)).mpr ⟨_, a, rfl, hx, ha⟩⟩
    · rintro ⟨_, hafter, hbefore, ha⟩
      obtain ⟨x, a, rfl, hx, ha⟩ := (covers_literal (Ne.symm hy)).mp ha
      obtain ⟨b, _⟩ := c
      obtain rfl := hafter
      exact .cons (.literal hx) ((ih hs).mpr ⟨a, rfl, by simpa using hbefore, ha⟩)

/-- Spans are followed one by one, the first from any position on. -/
theorem followedBy_cons {ss : List Sign} {sss : List (List Sign)} : FollowedBy (ss :: sss) c ↔
    ∃ d ∈ c.onwards, ∃ e, SpanMatches ss d e ∧ FollowedBy sss e := by
  constructor
  · rintro (_ | ⟨hd, h, hs⟩)
    exact ⟨_, hd, _, h, hs⟩
  · rintro ⟨d, hd, e, h, hs⟩
    exact .cons hd h hs

/-- A span without signs follows everywhere. -/
theorem followedBy_nil_cons {sss : List (List Sign)} : FollowedBy ([] :: sss) c ↔ FollowedBy sss c := by
  rw [followedBy_cons]
  constructor
  · rintro ⟨d, hd, _, ⟨⟩, hs⟩
    exact hs.earlier hd
  · exact fun hs => ⟨c, Cursor.onwards_refl c, c, .nil c, hs⟩

/-- Literal spans behind asterisks follow a position when some beginning of what follows it is covered. -/
theorem followedBy_literals (hss : ∀ s ∈ ss, '*' ∉ s) : FollowedBy (ss.map (·.map .literal)) c ↔
    ∃ a, a <+: c.after ∧ covers (ss.flatMap ('*' :: ·)) a = true := by
  induction ss generalizing c with
  | nil => exact ⟨fun _ => ⟨[], List.nil_prefix, rfl⟩, fun _ => .nil c⟩
  | cons s ss ih =>
    obtain ⟨hs, hss⟩ := List.forall_mem_cons.mp hss
    rw [List.map_cons, followedBy_cons, List.flatMap_cons, List.cons_append]
    simp only [covers_star, covers_append, spanMatches_literal hs, ih hss]
    -- Below, `w` is the run of the asterisk, `a` the span, `b` what the later ones cover and `r` the rest of the text.
    constructor
    · rintro ⟨d, hd, e, ⟨a, hafter, -, ha⟩, b, ⟨r, hr⟩, hb⟩
      obtain ⟨w, hw, -⟩ := Cursor.mem_onwards.mp hd
      exact ⟨w ++ (a ++ b), ⟨r, by rw [hw, hafter, ← hr]; simp⟩, w, a ++ b, rfl, a, b, rfl, ha, hb⟩
    · rintro ⟨_, ⟨r, hr⟩, w, _, rfl, a, b, rfl, ha, hb⟩
      refine ⟨⟨w.reverse ++ c.before, a ++ (b ++ r)⟩, Cursor.mem_onwards.mpr ⟨w, by simp [← hr], rfl⟩,
        ⟨a.reverse ++ (w.reverse ++ c.before), b ++ r⟩, ⟨a, rfl, rfl, ha⟩, b, List.prefix_append b r, hb⟩

/-! ## Globs -/

section
variable (hbar : '|' ∉ p) (hcaret : '^' ∉ p)

include hbar hcaret

/-- Without bars and carets, the signs are literal. -/
theorem signs_of_notMem (first last : Bool) : signs first last p = p.map .literal := by
  induction p generalizing first with
  | nil => rfl
  | cons c p ih =>
    obtain ⟨hc, hbar⟩ := not_or.mp (List.mem_cons.not.mp hbar)
    obtain ⟨hc', hcaret⟩ := not_or.mp (List.mem_cons.not.mp hcaret)
    rw [signs, signOf, if_neg (Ne.symm hc), if_neg (Ne.symm hc'), ih hbar hcaret, List.map_cons]

end

/-- Leaving out the spans that are empty makes no difference. -/
theorem followedBy_laterSpans (hbar : ∀ s ∈ ss, '|' ∉ s) (hcaret : ∀ s ∈ ss, '^' ∉ s) :
    FollowedBy ((laterSpans ss).map fun (s, last) => signs false last s) c ↔
      FollowedBy (ss.map (·.map .literal)) c := by
  induction ss generalizing c with
  | nil => rfl
  | cons s ss ih =>
    have hrest {c : Cursor} := ih (c := c) (fun s hs => hbar s (List.mem_cons_of_mem _ hs))
      fun s hs => hcaret s (List.mem_cons_of_mem _ hs)
    cases s with
    | nil => rw [laterSpans, List.isEmpty_nil, if_pos rfl, List.map_cons, List.map_nil, followedBy_nil_cons, hrest]
    | cons x s =>
      have hsigns := signs_of_notMem (hbar _ List.mem_cons_self) (hcaret _ List.mem_cons_self)
      rw [laterSpans, List.isEmpty_cons, if_neg Bool.false_ne_true, List.map_cons, List.map_cons, followedBy_cons,
        followedBy_cons]
      simp only [hrest, hsigns]

section
variable (hparts : Text.parts '*' p = s :: ss) (hbar : '|' ∉ p) (hcaret : '^' ∉ p)

include hparts

/-- What the glob does not have is in none of its parts. -/
theorem notMem_of_parts {x : Char} (hx : x ∉ p) : x ∉ s ∧ ∀ q ∈ ss, x ∉ q := by
  rw [Text.eq_append_flatMap_of_parts hparts, List.mem_append, not_or, List.mem_flatMap] at hx
  exact ⟨hx.1, fun q hq h => hx.2 ⟨q, hq, List.mem_cons_of_mem _ h⟩⟩

/-- The parts at asterisks have none. -/
theorem notMem_star_of_parts : '*' ∉ s ∧ ∀ q ∈ ss, '*' ∉ q :=
  List.forall_mem_cons.mp fun _ hq => Text.notMem_of_mem_parts (hparts ▸ hq)

include hbar hcaret

/-- The first span without bars and carets is the characters in front of the first asterisk. -/
theorem firstSpan_of_parts : firstSpan p = s.map .literal := by
  rw [firstSpan, hparts]
  exact signs_of_notMem (notMem_of_parts hparts hbar).1 (notMem_of_parts hparts hcaret).1 true _

/-- The spans behind the first are followed where what is left is covered. -/
theorem followedBy_of_parts : FollowedBy (restSpans p) c ↔
    ∃ b, b <+: c.after ∧ covers (ss.flatMap ('*' :: ·)) b = true := by
  rw [restSpans, hparts, List.tail_cons, followedBy_laterSpans (notMem_of_parts hparts hbar).2
    (notMem_of_parts hparts hcaret).2, followedBy_literals (notMem_star_of_parts hparts).2]

end

/-- From its start on, a text is matched when the glob covers some beginning of it. -/
theorem matches_iff_covers (hbar : '|' ∉ p) (hcaret : '^' ∉ p) :
    Matches true p t ↔ ∃ a, a <+: t ∧ covers p a = true := by
  obtain ⟨s, ss, hparts⟩ := List.exists_cons_of_ne_nil (Text.parts_ne_nil '*' p)
  have hcovers (a : Text) : covers p a = true ↔
      ∃ b b', a = b ++ b' ∧ covers s b = true ∧ covers (ss.flatMap ('*' :: ·)) b' = true := by
    rw [Text.eq_append_flatMap_of_parts hparts, covers_append]
  have hmatches : Matches true p t ↔
      ∃ d, SpanMatches (firstSpan p) (Cursor.start t) d ∧ FollowedBy (restSpans p) d := by
    simp [Matches]
  rw [hmatches, firstSpan_of_parts hparts hbar hcaret]
  simp only [followedBy_of_parts hparts hbar hcaret, spanMatches_literal (notMem_star_of_parts hparts).1, hcovers]
  -- The first span covers `a`, and the later ones `b` behind it; nothing is said of the rest `r`.
  constructor
  · rintro ⟨d, ⟨a, hafter, -, ha⟩, b, ⟨r, hr⟩, hb⟩
    exact ⟨a ++ b, ⟨r, by rw [List.append_assoc, hr]; exact hafter.symm⟩, a, b, rfl, ha, hb⟩
  · rintro ⟨_, ⟨r, rfl⟩, a, b, rfl, ha, hb⟩
    exact ⟨⟨a.reverse, b ++ r⟩, ⟨a, by simp [Cursor.start], by simp [Cursor.start], ha⟩, b, List.prefix_append b r, hb⟩

end UrlFilter.Glob
