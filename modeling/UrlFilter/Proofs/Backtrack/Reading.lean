import UrlFilter.Backtrack.Parser

/-!
# Readings of patterns with memory

A reading goes from one state and text to another state and a rest of the text, whatever the number of
steps that bounds it. `size` is the number of bytes of the whole pattern, which bounds the numbers of the
groups that may be referred to.
-/

namespace UrlFilter.Backtrack.Reading

variable {size : Nat}

/-- Reading on from a state and a text comes to another state and the rest of the text. -/
def Leads (size : Nat) (s : Reading) (t : Text) (s' : Reading) (u : Text) : Prop :=
  ∃ k, k + u.length ≤ t.length ∧ ∀ n, run size (n + k) s t = run size n s' u

/-- Reading comes to where it stands. -/
theorem Leads.refl (s : Reading) (t : Text) : Leads size s t s t := ⟨0, by simp, fun _ => rfl⟩

/-- Reading goes on from where it has come to. -/
theorem Leads.trans {s₁ s₂ s₃ : Reading} {t₁ t₂ t₃ : Text} (h₁ : Leads size s₁ t₁ s₂ t₂)
    (h₂ : Leads size s₂ t₂ s₃ t₃) : Leads size s₁ t₁ s₃ t₃ := by
  obtain ⟨k₁, hk₁, hrun₁⟩ := h₁
  obtain ⟨k₂, hk₂, hrun₂⟩ := h₂
  refine ⟨k₂ + k₁, by omega, fun n => ?_⟩
  rw [← Nat.add_assoc, hrun₁, hrun₂]

/-- One sign is read behind the spacing. -/
theorem Leads.step {s s' : Reading} {t t' u : Text} (token : Token)
    (hskip : skip s.modes.spaced t = some t')
    (hnext : Token.next s.modes.spaced s.afterAtom size t' = some (token, u))
    (hfeed : s.feed token = some s') (hlength : u.length < t.length) : Leads size s t s' u := by
  refine ⟨1, by omega, fun n => ?_⟩
  cases t' with
  | nil => simp [Token.next] at hnext
  | cons c t' => simp only [run, hskip, Option.bind_some, hnext, hfeed]

/-- A reading that has come to the end of the text. -/
theorem Leads.run_eq {s s' : Reading} {t : Text} (h : Leads size s t s' [])
    (hskip : skip s'.modes.spaced [] = some []) : run size (t.length + 1) s t = some s' := by
  obtain ⟨k, hk, hrun⟩ := h
  simp only [List.length_nil, Nat.add_zero] at hk
  have hsteps : t.length + 1 = (t.length - k + 1) + k := by omega
  rw [hsteps, hrun]
  simp only [run, hskip, Option.bind_some]

/-! ## Closing a group -/

/-- What a closed group becomes, as a part of the choice around it, and the modes behind it. A condition does not
close: it waits for its branches. -/
def closed? (s : Reading) (e : Expr) : Group → Option (Expr × Modes)
  | .capture k => some (.group k e, s.modes)
  | .modes saved => some (e, saved)
  | .around k => some (.around k e, s.modes)
  | .atomic => some (.atomic e, s.modes)
  | .condition => none
  | .branches c =>
    if s.choice.branches.isEmpty && s.choice.parts.isEmpty then
      if isReference c then some (conditionOf c, s.modes) else none
    else some (conditionalOf c e, s.modes)

section

variable {s s' : Reading} {e : Expr} {g : Group} {outer : Choice} {frames : List Frame}

/-- A condition that has been read is left for its branches. -/
theorem leave_of_condition (hfinish : s.finish = some e) (hframes : s.frames = ⟨.condition, outer⟩ :: frames) :
    s.leave = some { s with frames := ⟨.branches e, outer⟩ :: frames, choice := {}, afterAtom := false } := by
  simp only [leave, hfinish, hframes, Option.bind_some]

/-- Any other group that has been read is closed, and becomes a part of the choice around it. -/
theorem leave_of_ne_condition (hfinish : s.finish = some e) (hframes : s.frames = ⟨g, outer⟩ :: frames)
    (hg : g ≠ .condition) :
    s.leave = (s.closed? e g).map fun r =>
      ({ s with modes := r.2, frames := frames, choice := outer } : Reading).part r.1 := by
  simp only [leave, hfinish, hframes, Option.bind_some]
  cases g with
  | condition => exact absurd rfl hg
  | branches c =>
    dsimp only [closed?]
    split
    · split <;> rfl
    · rfl
  | _ => rfl

/-- The innermost group becomes a part of the choice around it, or it has been a condition and waits for its
branches. -/
theorem leave_cases (h : s.leave = some s') :
    ∃ e g outer frames, s.finish = some e ∧ s.frames = ⟨g, outer⟩ :: frames ∧
      ((∃ e' modes, s.closed? e g = some (e', modes) ∧
        s' = ({ s with modes := modes, frames := frames, choice := outer } : Reading).part e') ∨
      (g = .condition ∧
        s' = { s with frames := ⟨.branches e, outer⟩ :: frames, choice := {}, afterAtom := false })) := by
  obtain ⟨e, he, hclose⟩ := Option.bind_eq_some_iff.mp h
  cases hframes : s.frames with
  | nil => simp [hframes] at hclose
  | cons x frames =>
    obtain ⟨g, outer⟩ := x
    refine ⟨e, g, outer, frames, he, rfl, ?_⟩
    by_cases hg : g = .condition
    · subst hg
      rw [leave_of_condition he hframes, Option.some.injEq] at h
      exact .inr ⟨rfl, h.symm⟩
    · rw [leave_of_ne_condition he hframes hg, Option.map_eq_some_iff] at h
      obtain ⟨⟨e', modes⟩, hclosed, rfl⟩ := h
      exact .inl ⟨e', modes, hclosed, rfl⟩

end

/-! ## Readings that fail -/

/-- Reading on from a state and a text does not come to the end of the text. -/
def Fails (size : Nat) (s : Reading) (t : Text) : Prop := ∀ n, t.length < n → run size n s t = none

/-- Reading does not come to the end of a text when it does not from where it comes to. -/
theorem Leads.fails {s s' : Reading} {t u : Text} (h : Leads size s t s' u) (hu : Fails size s' u) :
    Fails size s t := by
  obtain ⟨k, hk, hrun⟩ := h
  intro n hn
  rw [show n = n - k + k by omega, hrun]
  exact hu _ (by omega)

/-- A sign that cannot be read. -/
theorem Fails.of_next {s : Reading} {t : Text} (hne : t ≠ []) (hskip : skip s.modes.spaced t = some t)
    (hnext : Token.next s.modes.spaced s.afterAtom size t = none) : Fails size s t := by
  intro n hn
  cases n with
  | zero => rfl
  | succ n =>
    cases t with
    | nil => exact absurd rfl hne
    | cons c t => simp only [run, hskip, Option.bind_some, hnext, Option.bind_none]

end UrlFilter.Backtrack.Reading
