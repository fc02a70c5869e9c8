import UrlFilter.Cli.Disk
import UrlFilter.Proofs.Except
import Mathlib.Data.List.Basic

/-!
# Reading what was written

A file that was written holds what was written to it: writing makes or replaces a file, which no path
passes through, so every path that led somewhere before leads there still.
-/

namespace UrlFilter.Cli.Disk

/-- What is put at a path stands there, unless that is the whole disk. -/
theorem node?_put_self {d : Disk} {p : List Text} {n : Node} (hp : p ≠ []) :
    (d.put p n).node? p = some n := by
  simp [node?, put, hp]

/-- Leaving out what stands at one path changes nothing at another. -/
theorem lookup_filter_of_ne {es : List (List Text × Node)} {p q : List Text} (h : q ≠ p) :
    (es.filter fun e => e.1 ≠ p).lookup q = es.lookup q := by
  induction es with
  | nil => rfl
  | cons e es ih =>
    obtain ⟨r, n⟩ := e
    by_cases hr : r = p
    · have hq : (q == r) = false := by simpa [hr] using h
      rw [List.filter_cons_of_neg (by simpa using hr), ih, List.lookup_cons, hq]
    · rw [List.filter_cons_of_pos (by simpa using hr), List.lookup_cons, List.lookup_cons, ih]

/-- What is put at one path changes nothing at another. -/
theorem node?_put_of_ne {d : Disk} {p q : List Text} {n : Node} (h : q ≠ p) :
    (d.put p n).node? q = d.node? q := by
  have hq : (q == p) = false := by simpa using h
  simp only [node?, put, List.lookup_cons, hq, lookup_filter_of_ne h]

/-- What passes through a disk passes through it after a file was put where no directory is. -/
theorem walk_put {d : Disk} {p : List Text} {c : Option Text} (hp : d.node? p ≠ some .directory)
    {dir e : List Text} {parts : List Text} (h : d.walk dir parts = .ok e) :
    (d.put p (.file c)).walk dir parts = .ok e := by
  induction parts generalizing dir with
  | nil => exact h
  | cons part parts ih =>
    rw [walk, bind_eq_ok_iff] at h ⊢
    obtain ⟨dir', henter, h⟩ := h
    refine ⟨dir', ?_, ih h⟩
    unfold enter at henter ⊢
    by_cases hdot : part = ['.']
    · simpa [hdot] using henter
    by_cases hdots : part = ['.', '.']
    · simpa [hdots] using henter
    simp only [hdot, hdots, if_false] at henter ⊢
    by_cases hq : dir ++ [part] = p
    · -- The file would have to be where a directory is passed through.
      rw [hq] at henter
      cases hn : d.node? p with
      | none => simp [hn] at henter
      | some n =>
        cases n with
        | directory => exact absurd hn hp
        | file c' => simp [hn] at henter
    · rw [node?_put_of_ne hq]
      exact henter

/-- A path that leads to a name leads to it after a file was put where no directory is. -/
theorem target_put {d : Disk} {p : List Text} {c : Option Text} (hp : d.node? p ≠ some .directory)
    {path : Text} {t : Target} (h : d.target path = .ok t) :
    (d.put p (.file c)).target path = .ok t := by
  unfold target at h ⊢
  cases hlast : (Path.parts path).getLast? with
  | none => simp [hlast] at h
  | some last =>
    simp only [hlast] at h ⊢
    by_cases hroot : path.head? = some '/'
    · simp [hroot] at h
    simp only [hroot, if_false] at h ⊢
    by_cases hdots : last = ['.'] ∨ last = ['.', '.']
    · simp only [hdots, if_true] at h ⊢
      rw [map_eq_ok_iff] at h ⊢
      exact h.imp fun dir hdir => ⟨walk_put hp hdir.1, hdir.2⟩
    · simp only [hdots, if_false] at h ⊢
      rw [map_eq_ok_iff] at h ⊢
      exact h.imp fun dir hdir => ⟨walk_put hp hdir.1, hdir.2⟩

/-- A file is written to the name that its path leads to, where no directory is. -/
theorem exists_of_write {d d' : Disk} {path content : Text} (h : d.write path content = .ok d') :
    ∃ p, d.target path = .ok (.name p false) ∧ d.node? p ≠ some .directory ∧
      d' = d.put p (.file (some content)) := by
  rw [write, bind_eq_ok_iff] at h
  obtain ⟨t, ht, h⟩ := h
  cases t with
  | here dir => simp at h
  | name p slash =>
    have hput : slash = false ∧ d.node? p ≠ some .directory ∧ d' = d.put p (.file (some content)) := by
      cases hn : d.node? p with
      | none => cases slash <;> simp_all
      | some n => cases n <;> cases slash <;> simp_all
    obtain ⟨rfl, hput⟩ := hput
    exact ⟨p, ht, hput⟩

/-- A file that was written reads as it was written. -/
theorem read_of_write {d d' : Disk} {path content : Text} (h : d.write path content = .ok d') :
    d'.read path = .ok content := by
  obtain ⟨p, ht, hp, rfl⟩ := exists_of_write h
  -- The root is a directory, so that the file is somewhere else.
  have hne : p ≠ [] := by
    rintro rfl
    exact hp (by simp [node?])
  simp only [read, target_put hp ht, Except.bind, node?_put_self hne, Bool.false_eq_true, if_false]

/-- What is read along one path is not changed by writing along a path that leads elsewhere. -/
theorem read_of_write_of_target_ne {d d' : Disk} {path path' content text : Text}
    (h : d.write path content = .ok d') (hread : d.read path' = .ok text)
    (hne : d'.target path ≠ d'.target path') : d'.read path' = .ok text := by
  obtain ⟨p, ht, hp, rfl⟩ := exists_of_write h
  rw [target_put hp ht] at hne
  rw [read, bind_eq_ok_iff] at hread ⊢
  obtain ⟨t', ht', hread⟩ := hread
  refine ⟨t', target_put hp ht', ?_⟩
  cases t' with
  | here dir => exact hread
  | name p' slash =>
    rw [target_put hp ht'] at hne
    cases slash with
    | false =>
      have hp' : p' ≠ p := fun h => hne (h ▸ rfl)
      dsimp only at hread ⊢
      rwa [node?_put_of_ne hp']
    | true =>
      -- Behind a slash there would have to be a directory, and that has no text.
      cases hn : d.node? p' with
      | none => simp [hn] at hread
      | some n => cases n <;> simp [hn] at hread

end UrlFilter.Cli.Disk
