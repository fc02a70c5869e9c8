import UrlFilter.Alternation.Basic
import UrlFilter.Proofs.Text.Numeral

/-!
# Branches of joined patterns

When the bars of a pattern all stand inside of groups, joining it with others by bars puts it into one
branch, and splitting the joined text gives it back. Where a text ends without a half-read sign, its
marks are followed by those of the text behind it.
-/

namespace UrlFilter.Alternation

/-- The depth behind marks whose bars all stand inside of groups. -/
def through (depth : Nat) : List Mark → Option Nat
  | [] => some depth
  | .opening _ :: ms => through (depth + 1) ms
  | .closing :: ms => through (depth - 1) ms
  | .bar :: ms => if depth = 0 then none else through depth ms
  | .plain _ :: ms => through depth ms
  | .escaped _ :: ms => through depth ms
  | .reference _ :: ms => through depth ms

/-- A walk through one part goes on through the next from where it got to. -/
theorem through_append {depth d : Nat} {ms ms' : List Mark} (h : through depth ms = some d) :
    through depth (ms ++ ms') = through d ms' := by
  induction ms generalizing depth with
  | nil =>
    simp only [through, Option.some.injEq] at h
    rw [List.nil_append, h]
  | cons m ms ih =>
    cases m with
    | bar =>
      simp only [through, Option.ite_none_left_eq_some] at h
      simp only [List.cons_append, through, if_neg h.1, ih h.2]
    | _ => exact ih h

/-- Marks whose bars all stand inside of groups begin the first branch. -/
theorem branchesFrom_append {depth d : Nat} {ms rest : List Mark} {b : List Mark}
    {bs : List (List Mark)} (h : through depth ms = some d) (hr : branchesFrom d rest = b :: bs) :
    branchesFrom depth (ms ++ rest) = (ms ++ b) :: bs := by
  induction ms generalizing depth with
  | nil =>
    simp only [through, Option.some.injEq] at h
    rw [List.nil_append, h, hr, List.nil_append]
  | cons m ms ih =>
    cases m with
    | bar =>
      simp only [through, Option.ite_none_left_eq_some] at h
      simp [branchesFrom, ih h.2, h.1]
    | opening k => simp [branchesFrom, ih h]
    | closing => simp [branchesFrom, ih h]
    | plain c => simp [branchesFrom, ih h]
    | escaped c => simp [branchesFrom, ih h]
    | reference ds => simp [branchesFrom, ih h]

/-- A text that is a branch wherever it stands: its marks are the same whatever follows behind a bar,
and its bars all stand inside of groups. -/
structure IsBranch (t : Text) : Prop where
  marks_append : ∀ u, marks (t ++ '|' :: u) = marks t ++ .bar :: marks u
  through_marks : through 0 (marks t) = some 0

/-- The branches of joined texts are the texts, where each of them is a branch. -/
theorem branches_join {ts : List Text} (hne : ts ≠ []) (h : ∀ t ∈ ts, IsBranch t) :
    branches (Text.join ['|'] ts) = ts := by
  induction ts with
  | nil => exact absurd rfl hne
  | cons t ts ih =>
    have ht := h t (by simp)
    cases ts with
    | nil =>
      have hnil : branchesFrom 0 [] = [[]] := rfl
      have hb := branchesFrom_append ht.through_marks hnil
      simp only [List.append_nil] at hb
      simp [branches, Text.join, hb, write_marks]
    | cons t' ts =>
      have hbs := ih (by simp) fun s hs => h s (by simp [hs])
      have hjoin : Text.join ['|'] (t :: t' :: ts) = t ++ '|' :: Text.join ['|'] (t' :: ts) := by
        simp [Text.join]
      have hbar : branchesFrom 0 (.bar :: marks (Text.join ['|'] (t' :: ts))) =
          [] :: branchesFrom 0 (marks (Text.join ['|'] (t' :: ts))) := by
        simp [branchesFrom]
      rw [branches, hjoin, ht.marks_append, branchesFrom_append ht.through_marks hbar]
      simp only [List.append_nil, List.map_cons, write_marks]
      rw [← branches, hbs]

/-- A joined text splits as its branches do. -/
theorem branchesOf?_join (fragments : List Text) :
    branchesOf? (join fragments) = some (branches (Text.join ['|'] fragments)) := by
  have hopening : Text.after? opening (join fragments) = some (Text.join ['|'] fragments ++ [')']) := by
    rw [join, List.append_assoc]
    exact Text.after?_append opening _
  simp [branchesOf?, hopening, Text.before?_eq_some_iff.mpr rfl]

/-- An alternation whose text splits into its fragments is made again from its rules and that text. -/
theorem ofText_ofFragments_of_branches {rules fragments : List Text} {a : Alternation}
    (hlength : fragments.length = rules.length)
    (h : fragments ≠ [] → branches (Text.join ['|'] fragments) = fragments)
    (ha : ofFragments rules fragments = .ok a) : ofText a.rules a.text = .ok a := by
  cases fragments with
  | nil =>
    simp only [ofFragments, List.isEmpty_nil, if_true, Except.ok.injEq] at ha
    subst ha
    rfl
  | cons f fs =>
    obtain ⟨m, hm, rfl⟩ := (ofFragments_eq_ok_iff (List.cons_ne_nil f fs)).mp ha
    have hrules : rules ≠ [] := List.ne_nil_of_length_pos (hlength ▸ Nat.succ_pos _)
    refine (ofText_eq_ok_iff hrules).mpr ⟨f :: fs, ?_, hlength, m, hm, rfl⟩
    rw [branchesOf?_join, h (List.cons_ne_nil f fs)]

/-- An alternation of branches is made again from its rules and its text. -/
theorem ofText_ofFragments {rules fragments : List Text} {a : Alternation}
    (hlength : fragments.length = rules.length) (h : ∀ f ∈ fragments, IsBranch f)
    (ha : ofFragments rules fragments = .ok a) : ofText a.rules a.text = .ok a :=
  ofText_ofFragments_of_branches hlength (fun hne => branches_join hne h) ha

end UrlFilter.Alternation
