/-!
# Repetition

What a number of turns of a step leads to. A step lists the points that one turn leads to, the
preferred one first. The results list each point once, in order of preference: a greedy repetition
prefers more turns to fewer, the others fewer to more.
-/

namespace UrlFilter.Turns

variable {α : Type} [DecidableEq α]

/-- The points entered so far and the points reached so far, both with the latest first. -/
structure Walk (α : Type) where
  entered : List α
  reached : List α

/-- A walk with one more point reached; a point counts once. -/
def Walk.reach (w : Walk α) (a : α) : Walk α :=
  if a ∈ w.reached then w else { w with reached := a :: w.reached }

/-- Visits every point that one or more turns lead to from `a`, each point once. A greedy walk reaches
a point after all points beyond it. The number bounds the length of the paths. -/
def explore (step : α → List α) (greedy : Bool) : Nat → α → Walk α → Walk α
  | 0, _, w => w
  | n + 1, a, w =>
    if a ∈ w.entered then w
    else
      (step a).foldl
        (fun w b =>
          if greedy then (explore step greedy n b w).reach b
          else explore step greedy n b (w.reach b))
        { w with entered := a :: w.entered }

/-- The points that zero or more turns lead to from `a`. -/
def closure (step : α → List α) (greedy : Bool) (bound : Nat) (a : α) : List α :=
  if greedy then ((explore step true bound a ⟨[], []⟩).reach a).reached.reverse
  else (explore step false bound a ⟨[], [a]⟩).reached.reverse

/-- The points that exactly `n` turns lead to. -/
def exactly (step : α → List α) : Nat → List α → List α
  | 0, as => as
  | n + 1, as => if as.isEmpty then [] else exactly step n (as.flatMap step).eraseDups

/-- A turn of a repetition with a number of turns left. -/
def counted (step : α → List α) : Nat × α → List (Nat × α)
  | (0, _) => []
  | (k + 1, a) => (step a).map fun b => (k, b)

/-- The points that at most `n` turns lead to. -/
def atMost (step : α → List α) (greedy : Bool) (n : Nat) (a : α) : List α :=
  ((closure (counted step) greedy (n + 1) (n, a)).map Prod.snd).eraseDups

/-- The points that at least `lo` and at most `hi` turns lead to; `bound` bounds the length of the
paths where `hi` is absent. -/
def reached (step : α → List α) (bound lo : Nat) (hi : Option Nat) (greedy : Bool) (a : α) : List α :=
  let further := match hi with
    | none => closure step greedy bound
    | some h => atMost step greedy (h - lo)
  ((exactly step lo [a]).flatMap further).eraseDups

end UrlFilter.Turns
