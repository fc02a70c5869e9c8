import UrlFilter.Regex.Turns
import Mathlib.Data.List.Basic
import Mathlib.Data.Prod.Basic

/-!
# What a repetition reaches

A walk visits each point once, and yet it reaches all that any number of turns leads to: a point that was
entered before has been, or is being, followed further. So what a repetition reaches depends on the turns
alone, and neither on the order of the visits nor on the bound, once that is large enough. A walk over other
names of the points is the same walk.
-/

namespace UrlFilter.Turns

variable {α : Type}

/-- The second point is `n` turns from the first. -/
def Steps (step : α → List α) : Nat → α → α → Prop
  | 0, a, b => a = b
  | n + 1, a, b => ∃ c ∈ step a, Steps step n c b

/-- Turns can be taken in two parts. -/
theorem steps_add {step : α → List α} {m n : Nat} {a b : α} :
    Steps step (m + n) a b ↔ ∃ c, Steps step m a c ∧ Steps step n c b := by
  induction m generalizing a with
  | zero =>
    rw [Nat.zero_add]
    exact ⟨fun h => ⟨a, rfl, h⟩, fun ⟨_, h, h'⟩ => h ▸ h'⟩
  | succ m ih =>
    rw [Nat.succ_add]
    constructor
    · rintro ⟨d, hd, h⟩
      obtain ⟨c, hc, h⟩ := ih.mp h
      exact ⟨c, ⟨d, hd, hc⟩, h⟩
    · rintro ⟨c, ⟨d, hd, hc⟩, h⟩
      exact ⟨d, hd, ih.mpr ⟨c, hc, h⟩⟩

/-- Where no turn leaves some points, no number of turns does. -/
theorem Steps.mem {step : α → List α} {points : List α} (hclosed : ∀ x ∈ points, step x ⊆ points) {n : Nat}
    {a b : α} (ha : a ∈ points) (h : Steps step n a b) : b ∈ points := by
  induction n generalizing a with
  | zero => exact h ▸ ha
  | succ n ih =>
    obtain ⟨c, hc, h⟩ := h
    exact ih (hclosed a ha hc) h

/-- Steps that are counted down are steps, as many as the count falls. -/
theorem steps_counted {step : α → List α} {m n k : Nat} {a b : α} :
    Steps (counted step) m (n, a) (k, b) ↔ m + k = n ∧ Steps step m a b := by
  induction m generalizing n a with
  | zero =>
    simp only [Steps, Prod.mk.injEq, Nat.zero_add]
    exact and_congr_left fun _ => eq_comm
  | succ m ih =>
    cases n with
    | zero => simp [Steps, counted]
    | succ n =>
      simp only [Steps, counted, List.mem_map]
      constructor
      · rintro ⟨_, ⟨c, hc, rfl⟩, hn⟩
        obtain ⟨hk, hn⟩ := ih.mp hn
        exact ⟨by omega, c, hc, hn⟩
      · rintro ⟨hk, c, hc, hn⟩
        exact ⟨_, ⟨c, hc, rfl⟩, ih.mpr ⟨by omega, hn⟩⟩

/-! ## Walks -/

/-- The length of paths that a walk from `a` may need, behind points that it has entered. -/
structure Enough (step : α → List α) (enough : Nat → List α → α → Prop) : Prop where
  zero : ∀ {entered a}, enough 0 entered a → a ∈ entered
  succ : ∀ {n entered a b entered'}, enough (n + 1) entered a → a ∉ entered → b ∈ step a →
    a :: entered ⊆ entered' → enough n entered' b

/-- A walk by counted turns is long enough when it is longer than the number of turns. -/
theorem enough_counted {step : α → List α} : Enough (counted step) fun n _ a => a.1 < n where
  zero h := absurd h (Nat.not_lt_zero _)
  succ := by
    rintro n entered ⟨k, a⟩ ⟨k', b⟩ entered' h - hb -
    cases k with
    | zero => simp [counted] at hb
    | succ k =>
      simp only [counted, List.mem_map, Prod.mk.injEq] at hb
      obtain ⟨c, -, rfl, -⟩ := hb
      simp only at h ⊢
      omega

/-- What a walk over some points has added to an earlier one. -/
structure Extends (step : α → List α) (starts : List α) (w w' : Walk α) : Prop where
  entered : w.entered ⊆ w'.entered
  reached : w.reached ⊆ w'.reached
  closed : ∀ x ∈ w'.entered, x ∉ w.entered → ∀ y ∈ step x, y ∈ w'.entered ∧ y ∈ w'.reached
  sound : ∀ y ∈ w'.reached, y ∈ w.reached ∨ ∃ a ∈ starts, ∃ n, Steps step n a y

/-- A walk extends itself. -/
theorem Extends.refl {step : α → List α} (starts : List α) (w : Walk α) : Extends step starts w w :=
  ⟨fun _ hx => hx, fun _ hx => hx, fun _ hx hnew => absurd hx hnew, fun _ hy => Or.inl hy⟩

/-- From a point that a first walk has entered, it reaches all that turns lead to. -/
theorem Extends.mem_reached_of_steps {step : α → List α} {starts : List α} {w w' : Walk α}
    (h : Extends step starts w w') (hfirst : w.entered = []) {n : Nat} {a b : α} (ha : a ∈ w'.entered) (hsteps : Steps step n a b) :
    b = a ∨ b ∈ w'.reached := by
  induction n generalizing a with
  | zero => exact Or.inl hsteps.symm
  | succ n ih =>
    obtain ⟨c, hc, hsteps⟩ := hsteps
    obtain ⟨hentered, hreached⟩ := h.closed a ha (by simp [hfirst]) c hc
    rcases ih hentered hsteps with rfl | hb
    · exact Or.inr hreached
    · exact Or.inr hb

/-- A walk that has reached its start alone before reaches nothing that turns do not lead to. -/
theorem Extends.exists_steps {step : α → List α} {a b : α} {w w' : Walk α} (h : Extends step (step a) w w')
    (hstart : ∀ y ∈ w.reached, y = a) (hb : b ∈ w'.reached) : ∃ n, Steps step n a b := by
  rcases h.sound b hb with hb | ⟨c, hc, n, hn⟩
  · exact ⟨0, (hstart b hb).symm⟩
  · exact ⟨n + 1, c, hc, hn⟩

section

variable [DecidableEq α]

/-- Reaching a place adds that place. -/
theorem Walk.mem_reach {w : Walk α} {a x : α} : x ∈ (w.reach a).reached ↔ x = a ∨ x ∈ w.reached := by
  unfold Walk.reach
  split
  · exact ⟨Or.inr, fun h => h.elim (fun h => h ▸ by assumption) id⟩
  · exact List.mem_cons

/-- Reaching a place enters none. -/
theorem Walk.entered_reach (w : Walk α) (a : α) : (w.reach a).entered = w.entered := by
  unfold Walk.reach
  split <;> rfl

variable {step : α → List α} {enough : Nat → List α → α → Prop}

namespace Extends

variable {w w₁ w₂ : Walk α} {b : α} {bs : List α}

/-- One walk after the other. -/
theorem cons (h₁ : Extends step [b] w w₁) (h₂ : Extends step bs w₁ w₂) : Extends step (b :: bs) w w₂ where
  entered := List.Subset.trans h₁.entered h₂.entered
  reached := List.Subset.trans h₁.reached h₂.reached
  closed := by
    intro x hx hnew y hy
    by_cases hx₁ : x ∈ w₁.entered
    · obtain ⟨hin, hreached⟩ := h₁.closed x hx₁ hnew y hy
      exact ⟨h₂.entered hin, h₂.reached hreached⟩
    · exact h₂.closed x hx hx₁ y hy
  sound := by
    intro y hy
    rcases h₂.sound y hy with hy | ⟨c, hc, m, hm⟩
    · refine (h₁.sound y hy).imp id ?_
      rintro ⟨c, hc, m, hm⟩
      exact ⟨b, by simp, m, by rwa [List.mem_singleton.mp hc] at hm⟩
    · exact Or.inr ⟨c, List.mem_cons_of_mem _ hc, m, hm⟩

/-- A point that is reached behind what follows it. -/
theorem reach (h : Extends step (step b) w w₁) : Extends step [b] w (w₁.reach b) where
  entered := by
    rw [Walk.entered_reach]
    exact h.entered
  reached _ hx := Walk.mem_reach.mpr (Or.inr (h.reached hx))
  closed := by
    intro x hx hnew y hy
    rw [Walk.entered_reach] at hx ⊢
    obtain ⟨hin, hreached⟩ := h.closed x hx hnew y hy
    exact ⟨hin, Walk.mem_reach.mpr (Or.inr hreached)⟩
  sound := by
    intro y hy
    rcases Walk.mem_reach.mp hy with rfl | hy
    · exact Or.inr ⟨y, by simp, 0, rfl⟩
    · refine (h.sound y hy).imp id ?_
      rintro ⟨c, hc, m, hm⟩
      exact ⟨b, by simp, m + 1, c, hc, hm⟩

/-- A point that is reached in front of what follows it. -/
theorem of_reach (h : Extends step (step b) (w.reach b) w₁) : Extends step [b] w w₁ where
  entered := Walk.entered_reach w b ▸ h.entered
  reached _ hx := h.reached (Walk.mem_reach.mpr (Or.inr hx))
  closed x hx hnew := h.closed x hx (Walk.entered_reach w b ▸ hnew)
  sound := by
    intro y hy
    rcases h.sound y hy with hy | ⟨c, hc, m, hm⟩
    · rcases Walk.mem_reach.mp hy with rfl | hy
      · exact Or.inr ⟨y, by simp, 0, rfl⟩
      · exact Or.inl hy
    · exact Or.inr ⟨b, by simp, m + 1, c, hc, hm⟩

end Extends

/-- One visit of a walk: the point is reached behind what follows it, or in front of that. -/
def visit (step : α → List α) (greedy : Bool) (n : Nat) (w : Walk α) (b : α) : Walk α :=
  if greedy then (explore step greedy n b w).reach b else explore step greedy n b (w.reach b)

/-- A walk enters a place once, and goes on from it by each step. -/
theorem explore_succ (step : α → List α) (greedy : Bool) (n : Nat) (a : α) (w : Walk α) :
    explore step greedy (n + 1) a w =
      if a ∈ w.entered then w
      else (step a).foldl (visit step greedy n) { w with entered := a :: w.entered } := rfl

/-- A visit enters its point and reaches it, and adds nothing else than what follows the point. -/
structure Visits (step : α → List α) (w w' : Walk α) (b : α) : Prop where
  entered : b ∈ w'.entered
  reached : b ∈ w'.reached
  adds : Extends step [b] w w'

/-- Points are visited one after the other, where some have been entered before. -/
theorem extends_foldl {visit : Walk α → α → Walk α} {before bs : List α}
    (hvisit : ∀ b ∈ bs, ∀ v : Walk α, before ⊆ v.entered → Visits step v (visit v b) b) {v : Walk α}
    (hv : before ⊆ v.entered) :
    Extends step bs v (bs.foldl visit v) ∧
      ∀ b ∈ bs, b ∈ (bs.foldl visit v).entered ∧ b ∈ (bs.foldl visit v).reached := by
  induction bs generalizing v with
  | nil => exact ⟨.refl _ v, by simp⟩
  | cons b bs ih =>
    have hfirst := hvisit b (List.mem_cons_self ..) v hv
    obtain ⟨hrest, hall⟩ := ih (fun x hx => hvisit x (List.mem_cons_of_mem _ hx))
      (List.Subset.trans hv hfirst.adds.entered)
    refine ⟨hfirst.adds.cons hrest, fun x hx => ?_⟩
    rcases List.mem_cons.mp hx with rfl | hx
    · exact ⟨hrest.entered hfirst.entered, hrest.reached hfirst.reached⟩
    · exact hall x hx

/-- A walk enters its start, follows every point that it enters, and reaches nothing else. -/
theorem extends_explore (henough : Enough step enough) (greedy : Bool) {n : Nat} {a : α} {w : Walk α}
    (h : enough n w.entered a) :
    a ∈ (explore step greedy n a w).entered ∧
      Extends step (step a) w (explore step greedy n a w) := by
  -- The induction is on the length of the walk, for the walks over the points that follow are shorter.
  induction n generalizing a w with
  | zero => exact ⟨henough.zero h, .refl _ w⟩
  | succ n ih =>
    rw [explore_succ]
    by_cases hmem : a ∈ w.entered
    · rw [if_pos hmem]
      exact ⟨hmem, .refl _ w⟩
    · rw [if_neg hmem]
      have hvisit (b : α) (hb : b ∈ step a) (v : Walk α) (hv : a :: w.entered ⊆ v.entered) :
          Visits step v (visit step greedy n v b) b := by
        cases greedy with
        | true =>
          obtain ⟨hin, hext⟩ := ih (henough.succ h hmem hb hv)
          exact ⟨by rwa [← Walk.entered_reach] at hin, Walk.mem_reach.mpr (Or.inl rfl), hext.reach⟩
        | false =>
          have hentered : (v.reach b).entered = v.entered := Walk.entered_reach v b
          obtain ⟨hin, hext⟩ := ih (w := v.reach b) (henough.succ h hmem hb (hentered ▸ hv))
          exact ⟨hin, hext.reached (Walk.mem_reach.mpr (Or.inl rfl)), hext.of_reach⟩
      obtain ⟨hext, hall⟩ := extends_foldl hvisit (v := { w with entered := a :: w.entered }) (fun _ hx => hx)
      refine ⟨hext.entered (List.mem_cons_self ..), ?_, hext.reached, ?_, hext.sound⟩
      · exact fun x hx => hext.entered (List.mem_cons_of_mem _ hx)
      · -- The start is followed by these visits, and every other new point by the walk that enters it.
        intro x hx hnew y hy
        by_cases hxa : x = a
        · exact hall y (hxa ▸ hy)
        · exact hext.closed x hx (by simp [hxa, hnew]) y hy

/-! ## What walks reach -/

/-- A walk that is long enough reaches what any number of turns leads to. -/
theorem mem_closure (henough : Enough step enough) {greedy : Bool} {bound : Nat} {a b : α}
    (h : enough bound [] a) : b ∈ closure step greedy bound a ↔ ∃ n, Steps step n a b := by
  cases greedy with
  | true =>
    -- The start itself is reached last.
    obtain ⟨hin, hext⟩ := extends_explore henough true (w := ⟨[], []⟩) h
    rw [closure, if_pos rfl, List.mem_reverse, Walk.mem_reach]
    constructor
    · rintro (rfl | hb)
      · exact ⟨0, rfl⟩
      · exact hext.exists_steps (by simp) hb
    · rintro ⟨n, hn⟩
      exact hext.mem_reached_of_steps rfl hin hn
  | false =>
    -- The start is reached before the walk begins.
    obtain ⟨hin, hext⟩ := extends_explore henough false (w := ⟨[], [a]⟩) h
    rw [closure, if_neg (by simp), List.mem_reverse]
    constructor
    · exact fun hb => hext.exists_steps (by simp) hb
    · rintro ⟨n, hn⟩
      rcases hext.mem_reached_of_steps rfl hin hn with rfl | hb
      · exact hext.reached (by simp)
      · exact hb

/-- Among finitely many points that no turn leaves, a walk is long enough when it is as long as they are
many. -/
theorem enough_of_closed {points : List α} (hclosed : ∀ x ∈ points, step x ⊆ points) :
    Enough step fun n entered a => a ∈ points ∧ (points.filter (· ∉ entered)).length ≤ n where
  zero := by
    rintro entered a ⟨ha, hlength⟩
    by_contra hnot
    have hmem : a ∈ points.filter (· ∉ entered) := List.mem_filter.mpr ⟨ha, by simpa using hnot⟩
    rw [List.length_eq_zero_iff.mp (Nat.le_zero.mp hlength)] at hmem
    simp at hmem
  succ := by
    rintro n entered a b entered' ⟨ha, hlength⟩ hnew hb hsub
    refine ⟨hclosed a ha hb, ?_⟩
    -- The start of the walk is one point less that is not entered.
    have hless : (points.filter (· ∉ entered')).length < (points.filter (· ∉ entered)).length := by
      have hfilter : points.filter (· ∉ entered') =
          (points.filter (· ∉ entered)).filter (· ∉ entered') := by
        rw [List.filter_filter]
        refine List.filter_congr fun x _ => ?_
        by_cases hx : x ∈ entered'
        · simp [hx]
        · have hx' : x ∉ entered := fun h => hx (hsub (List.mem_cons_of_mem _ h))
          simp [hx, hx']
      rw [hfilter, List.length_filter_lt_length_iff_exists]
      exact ⟨a, List.mem_filter.mpr ⟨ha, by simpa using hnew⟩, by simp [hsub (List.mem_cons_self ..)]⟩
    omega

/-- Exactly so many steps lead to what is reached by as many. -/
theorem mem_exactly {n : Nat} {as : List α} {b : α} :
    b ∈ exactly step n as ↔ ∃ a ∈ as, Steps step n a b := by
  induction n generalizing as with
  | zero =>
    constructor
    · exact fun hb => ⟨b, hb, rfl⟩
    · rintro ⟨a, ha, rfl⟩
      exact ha
  | succ n ih =>
    rw [exactly]
    split
    · next hnil => simp [List.isEmpty_iff.mp hnil]
    · rw [ih]
      simp only [List.mem_eraseDups, List.mem_flatMap]
      constructor
      · rintro ⟨c, ⟨a, ha, hc⟩, hn⟩
        exact ⟨a, ha, c, hc, hn⟩
      · rintro ⟨a, ha, c, hc, hn⟩
        exact ⟨c, ⟨a, ha, hc⟩, hn⟩

/-! ## Counted turns -/

/-- At most `n` turns lead to what some number of turns up to `n` leads to. -/
theorem mem_atMost {greedy : Bool} {n : Nat} {a b : α} :
    b ∈ atMost step greedy n a ↔ ∃ m, m ≤ n ∧ Steps step m a b := by
  simp only [atMost, List.mem_eraseDups, List.mem_map, Prod.exists, exists_eq_right]
  have hclosure (k : Nat) : (k, b) ∈ closure (counted step) greedy (n + 1) (n, a) ↔
      ∃ m, m + k = n ∧ Steps step m a b := by
    rw [mem_closure enough_counted (Nat.lt_succ_self n)]
    simp only [steps_counted]
  simp only [hclosure]
  constructor
  · rintro ⟨k, m, hk, hm⟩
    exact ⟨m, by omega, hm⟩
  · rintro ⟨m, hmn, hm⟩
    exact ⟨n - m, m, by omega, hm⟩

/-- What a repetition reaches: at least `lo` turns, and no more than its upper bound allows. -/
theorem mem_reached {points : List α} (hclosed : ∀ x ∈ points, step x ⊆ points) {bound lo : Nat}
    {hi : Option Nat} {greedy : Bool} {a b : α} (ha : a ∈ points) (hbound : points.length ≤ bound) :
    b ∈ reached step bound lo hi greedy a ↔
      ∃ m, hi.all (fun h => decide (m ≤ h - lo)) = true ∧ Steps step (lo + m) a b := by
  simp only [reached, List.mem_eraseDups, List.mem_flatMap, mem_exactly, List.mem_singleton,
    exists_eq_left, steps_add]
  cases hi with
  | none =>
    simp only [Option.all_none, true_and]
    -- What the first turns lead to is among the points, so the walk from there is long enough.
    have hwalk {c : α} (hc : Steps step lo a c) :
        b ∈ closure step greedy bound c ↔ ∃ n, Steps step n c b :=
      mem_closure (enough_of_closed hclosed)
        ⟨hc.mem hclosed ha, Nat.le_trans (List.length_filter_le _ _) hbound⟩
    constructor
    · rintro ⟨c, hc, hb⟩
      obtain ⟨m, hm⟩ := (hwalk hc).mp hb
      exact ⟨m, c, hc, hm⟩
    · rintro ⟨m, c, hc, hm⟩
      exact ⟨c, hc, (hwalk hc).mpr ⟨m, hm⟩⟩
  | some h =>
    simp only [Option.all_some, decide_eq_true_eq, mem_atMost]
    constructor
    · rintro ⟨c, hc, m, hmh, hm⟩
      exact ⟨m, hmh, c, hc, hm⟩
    · rintro ⟨m, hmh, c, hc, hm⟩
      exact ⟨c, hc, m, hmh, hm⟩

end

/-! ## Other names of the points -/

section

variable {β : Type} [DecidableEq α] [DecidableEq β] {g : α → β} {step : α → List α} {step' : β → List β}

/-- The walk over other names of the points. -/
def Walk.map (g : α → β) (w : Walk α) : Walk β := ⟨w.entered.map g, w.reached.map g⟩

/-- Repetitions are left out alike under different names that stay different. -/
theorem eraseDups_map (hg : Function.Injective g) (as : List α) :
    (as.map g).eraseDups = as.eraseDups.map g := by
  induction h : as.length using Nat.strongRecOn generalizing as with
  | _ n ih =>
    cases as with
    | nil => rfl
    | cons a as =>
      have hfilter : (as.map g).filter (fun b => !b == g a) = (as.filter fun b => !b == a).map g := by
        rw [List.filter_map]
        congr 1
        refine List.filter_congr fun b _ => ?_
        by_cases hb : b = a
        · simp [hb]
        · simp [hb, hg.ne hb]
      have hlength := List.length_filter_le (fun b => !b == a) as
      simp only [List.length_cons] at h
      rw [List.map_cons, List.eraseDups_cons, List.eraseDups_cons, List.map_cons, hfilter,
        ih _ (by omega) _ rfl]

/-- Reaching a place is the same under other names. -/
theorem Walk.map_reach (hg : Function.Injective g) (w : Walk α) (a : α) :
    (w.map g).reach (g a) = (w.reach a).map g := by
  simp only [Walk.reach, Walk.map, List.mem_map_of_injective hg]
  split <;> rfl

variable (hg : Function.Injective g) (hstep : ∀ a, step' (g a) = (step a).map g)

include hg hstep

/-- A walk is the same under other names. -/
theorem explore_map (greedy : Bool) (n : Nat) (a : α) (w : Walk α) :
    explore step' greedy n (g a) (w.map g) = (explore step greedy n a w).map g := by
  induction n generalizing a w with
  | zero => rfl
  | succ n ih =>
    have hmem : g a ∈ (w.map g).entered ↔ a ∈ w.entered := List.mem_map_of_injective hg
    have hvisit (w : Walk α) (b : α) :
        visit step' greedy n (w.map g) (g b) = (visit step greedy n w b).map g := by
      cases greedy with
      | true => simp only [visit, if_true, ih, Walk.map_reach hg]
      | false => simp only [visit, Bool.false_eq_true, if_false, ih, Walk.map_reach hg]
    rw [explore_succ, explore_succ]
    by_cases ha : a ∈ w.entered
    · rw [if_pos ha, if_pos (hmem.mpr ha)]
    · have hfold : (step a).foldl (fun w b => visit step' greedy n w (g b))
          (Walk.map g ⟨a :: w.entered, w.reached⟩) =
            ((step a).foldl (visit step greedy n) ⟨a :: w.entered, w.reached⟩).map g :=
        List.foldl_hom (Walk.map g) hvisit
      rw [if_neg ha, if_neg (fun h => ha (hmem.mp h)), hstep, List.foldl_map]
      exact hfold

/-- What is reached by any number of steps is the same under other names. -/
theorem closure_map (greedy : Bool) (bound : Nat) (a : α) :
    closure step' greedy bound (g a) = (closure step greedy bound a).map g := by
  cases greedy with
  | true =>
    have h := explore_map hg hstep true bound a ⟨[], []⟩
    simp only [closure, if_true, List.map_reverse]
    rw [show (⟨[], []⟩ : Walk β) = Walk.map g ⟨[], []⟩ from rfl, h, Walk.map_reach hg]
    rfl
  | false =>
    have h := explore_map hg hstep false bound a ⟨[], [a]⟩
    simp only [closure, Bool.false_eq_true, if_false, List.map_reverse]
    rw [show (⟨[], [g a]⟩ : Walk β) = Walk.map g ⟨[], [a]⟩ from rfl, h]
    rfl

/-- What is reached by exactly so many steps is the same under other names. -/
theorem exactly_map (n : Nat) (as : List α) : exactly step' n (as.map g) = (exactly step n as).map g := by
  induction n generalizing as with
  | zero => rfl
  | succ n ih =>
    have hflat : (as.map g).flatMap step' = (as.flatMap step).map g := by
      rw [List.flatMap_map, List.map_flatMap]
      simp only [hstep]
    rw [exactly, exactly, List.isEmpty_map]
    split
    · rfl
    · rw [hflat, eraseDups_map hg, ih]

/-- What is reached by at most so many steps is the same under other names. -/
theorem atMost_map (greedy : Bool) (n : Nat) (a : α) :
    atMost step' greedy n (g a) = (atMost step greedy n a).map g := by
  have hpair : Function.Injective (Prod.map id g : Nat × α → Nat × β) :=
    Function.Injective.prodMap Function.injective_id hg
  have hcounted : ∀ p : Nat × α, counted step' (Prod.map id g p) = (counted step p).map (Prod.map id g) := by
    rintro ⟨k, a⟩
    cases k with
    | zero => rfl
    | succ k => simp [counted, hstep]
  have hclosure := closure_map hpair hcounted greedy (n + 1) (n, a)
  rw [atMost, atMost, ← eraseDups_map hg, show (n, g a) = Prod.map id g (n, a) from rfl, hclosure,
    List.map_map, List.map_map]
  rfl

/-- A repetition over other names of the points reaches the same points. -/
theorem reached_map (bound lo : Nat) (hi : Option Nat) (greedy : Bool) (a : α) :
    reached step' bound lo hi greedy (g a) = (reached step bound lo hi greedy a).map g := by
  have hexactly := exactly_map hg hstep lo [a]
  rw [List.map_singleton] at hexactly
  have hmap {further : α → List α} {further' : β → List β}
      (hfurther : ∀ b, further' (g b) = (further b).map g) :
      ((exactly step' lo [g a]).flatMap further').eraseDups =
        ((exactly step lo [a]).flatMap further).eraseDups.map g := by
    rw [hexactly, ← eraseDups_map hg, List.flatMap_map, List.map_flatMap]
    simp only [hfurther]
  cases hi with
  | none => exact hmap (closure_map hg hstep greedy bound)
  | some h => exact hmap (atMost_map hg hstep greedy (h - lo))

end

end UrlFilter.Turns
