import UrlFilter.Regex.Parser

/-!
# Readings of patterns without memory

A reading goes from one state and text to another state and a rest of the text, whatever the number of
steps that bounds it. Readings follow one another; one that has come to the end of the text is what the
pattern is made of.
-/

namespace UrlFilter.Regex.Reading

/-- Reading on from a state and a text comes to another state and the rest of the text. -/
def Leads (s : Reading) (t : Text) (s' : Reading) (u : Text) : Prop :=
  ∃ k, k + u.length ≤ t.length ∧ ∀ n, run (n + k) s t = run n s' u

/-- Reading comes to where it stands. -/
theorem Leads.refl (s : Reading) (t : Text) : Leads s t s t := ⟨0, by simp, fun _ => rfl⟩

/-- Reading goes on from where it has come to. -/
theorem Leads.trans {s₁ s₂ s₃ : Reading} {t₁ t₂ t₃ : Text} (h₁ : Leads s₁ t₁ s₂ t₂)
    (h₂ : Leads s₂ t₂ s₃ t₃) : Leads s₁ t₁ s₃ t₃ := by
  obtain ⟨k₁, hk₁, hrun₁⟩ := h₁
  obtain ⟨k₂, hk₂, hrun₂⟩ := h₂
  refine ⟨k₂ + k₁, by omega, fun n => ?_⟩
  rw [← Nat.add_assoc, hrun₁, hrun₂]

/-- One sign is read behind the spacing. -/
theorem Leads.step {s s' : Reading} {t t' u : Text} {token : Token} (hskip : skip s.modes.spaced t = t')
    (hnext : Token.next s.modes.spaced t' = some (token, u)) (hfeed : s.feed token = some s')
    (hlength : u.length < t.length) : Leads s t s' u := by
  refine ⟨1, by omega, fun n => ?_⟩
  cases t' with
  | nil => simp [Token.next] at hnext
  | cons c t' => simp only [run, hskip, hnext, Option.bind_some, hfeed]

/-- A reading that has come to the end of the text. -/
theorem Leads.run_eq {s s' : Reading} {t : Text} (h : Leads s t s' []) (hspaced : s'.modes.spaced = false) :
    run (t.length + 1) s t = some s' := by
  obtain ⟨k, hk, hrun⟩ := h
  simp only [List.length_nil, Nat.add_zero] at hk
  have hsteps : t.length + 1 = (t.length - k + 1) + k := by omega
  rw [hsteps, hrun]
  simp [run, hspaced, skip]

/-! ## Readings that fail -/

/-- Reading on from a state and a text does not come to the end of the text. -/
def Fails (s : Reading) (t : Text) : Prop := ∀ n, t.length < n → run n s t = none

/-- Reading fails when it fails from where it comes to. -/
theorem Leads.fails {s s' : Reading} {t u : Text} (h : Leads s t s' u) (hu : Fails s' u) : Fails s t := by
  obtain ⟨k, hk, hrun⟩ := h
  intro n hn
  rw [show n = n - k + k by omega, hrun]
  exact hu _ (by omega)

/-- A sign that cannot be read. -/
theorem Fails.of_next {s : Reading} {t t' : Text} (hskip : skip s.modes.spaced t = t') (hne : t' ≠ [])
    (hnext : Token.next s.modes.spaced t' = none) : Fails s t := by
  intro n _
  cases n with
  | zero => rfl
  | succ n =>
    cases t' with
    | nil => exact absurd rfl hne
    | cons c t' => simp only [run, hskip, hnext, Option.bind_none]

/-- A sign that cannot stand there. -/
theorem Fails.of_feed {s : Reading} {t t' u : Text} {token : Token} (hskip : skip s.modes.spaced t = t')
    (hnext : Token.next s.modes.spaced t' = some (token, u)) (hfeed : s.feed token = none) : Fails s t := by
  intro n _
  cases n with
  | zero => rfl
  | succ n =>
    cases t' with
    | nil => simp [Token.next] at hnext
    | cons c t' => simp only [run, hskip, hnext, Option.bind_some, hfeed, Option.bind_none]

end UrlFilter.Regex.Reading

/-! ## What is read of a choice -/

namespace UrlFilter.Regex

/-- The deepest of some depths is no deeper than a bound when each is. -/
theorem foldl_max_le {ds : List Nat} {d k : Nat} : ds.foldl max d ≤ k ↔ d ≤ k ∧ ∀ e ∈ ds, e ≤ k := by
  induction ds generalizing d with
  | nil => simp
  | cons e ds ih => rw [List.foldl_cons, ih, Nat.max_le, List.forall_mem_cons, and_assoc]

namespace Choice

/-- What has been read is the choice between the branches in their order. -/
theorem finish_fst (c : Choice) :
    c.finish.1 = altAll ((c.branch :: c.branches).reverse.map Prod.fst) := by
  cases hbranches : c.branches with
  | nil => simp only [finish, hbranches]; rfl
  | cons b bs => simp only [finish, hbranches]

/-- No branch is deeper than the choice. -/
theorem le_finish_snd (c : Choice) : ∀ b ∈ c.branch :: c.branches, b.2 ≤ c.finish.2 := by
  cases hbranches : c.branches with
  | nil => simp [finish, hbranches]
  | cons b bs =>
    intro b' hb'
    have hmem : b'.2 ∈ (c.branch :: b :: bs).reverse.map Prod.snd :=
      List.mem_map.mpr ⟨b', List.mem_reverse.mpr hb', rfl⟩
    have := ((foldl_max_le (d := 0)).mp (Nat.le_refl _)).2 _ hmem
    simp only [finish, hbranches]
    omega

/-- A choice is one deeper than its branches at most. -/
theorem finish_snd_le {c : Choice} {k : Nat} (h : ∀ b ∈ c.branch :: c.branches, b.2 ≤ k) : c.finish.2 ≤ k + 1 := by
  cases hbranches : c.branches with
  | nil =>
    have := h c.branch List.mem_cons_self
    simp only [finish, hbranches]
    omega
  | cons b bs =>
    simp only [finish, hbranches]
    refine Nat.succ_le_succ (foldl_max_le.mpr ⟨Nat.zero_le k, fun d hd => ?_⟩)
    obtain ⟨b', hb', rfl⟩ := List.mem_map.mp hd
    exact h b' (hbranches ▸ List.mem_reverse.mp hb')

end Choice

end UrlFilter.Regex
