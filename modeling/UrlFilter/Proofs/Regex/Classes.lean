import UrlFilter.Proofs.Regex.Reading
import UrlFilter.Proofs.Text.Cutting

/-!
# Spacing, escapes and bracketed classes, and what follows them

What these readers take off the front of a text they take whatever stands behind the text, as long as they come to an
end inside of it: what they leave is an end of the text, and with more text they leave the same and that text. Spacing
comes to an end where something is left of the text, a bracketed class where it is closed.
-/

namespace UrlFilter.Regex

variable {spaced : Bool} {t r u : Text} {n m : Nat}

/-! ## Spacing -/

/-- Blanks and comments are skipped as before where something is left. -/
theorem skipSpacing_append {inComment : Bool} (h : skipSpacing inComment t ≠ []) (u : Text) :
    skipSpacing inComment (t ++ u) = skipSpacing inComment t ++ u := by
  fun_induction skipSpacing inComment t with
  | case1 => exact absurd rfl h
  | case2 c r ih => simp_all [skipSpacing]
  | case3 _ c r hcomment hblank ih => simp_all [skipSpacing]
  | case4 _ r hcomment hblank ih => simp_all [skipSpacing]
  | case5 _ c r hcomment hblank hsign => simp_all [skipSpacing]

/-- What is left when blanks are skipped is an end of the text. -/
theorem skip_suffix (spaced : Bool) (t : Text) : skip spaced t <:+ t := by
  have hspacing (inComment : Bool) : skipSpacing inComment t <:+ t := by
    fun_induction skipSpacing inComment t with
    | case1 => exact List.suffix_rfl
    | case2 c r ih => exact ih.trans (List.suffix_cons c r)
    | case3 _ c r _ _ ih => exact ih.trans (List.suffix_cons c r)
    | case4 _ r _ _ ih => exact ih.trans (List.suffix_cons _ r)
    | case5 _ c r _ _ _ => exact List.suffix_rfl
  cases spaced with
  | true => exact hspacing false
  | false => exact List.suffix_rfl

/-- Blanks are skipped as before in front of a character. -/
theorem skip_append {c : Char} (h : skip spaced t = c :: r) (u : Text) : skip spaced (t ++ u) = c :: (r ++ u) := by
  cases spaced with
  | true =>
    have hne : skipSpacing false t ≠ [] := by
      rw [show skipSpacing false t = c :: r from h]
      exact List.cons_ne_nil _ _
    exact (skipSpacing_append hne u).trans (congrArg (· ++ u) h)
  | false => exact congrArg (· ++ u) h

/-- What is behind the first character that counts stands at the end of the text. -/
theorem suffix_of_skip {c : Char} (h : skip spaced t = c :: r) : r <:+ t :=
  (List.suffix_cons c r).trans (h ▸ skip_suffix spaced t)

/-! ## Escapes -/

/-- What stands up to a brace is read as before, whatever follows. -/
theorem upToBrace_append {name : Text} (h : upToBrace spaced n t = some (name, r)) :
    r <:+ t ∧ ∀ u m, n ≤ m → upToBrace spaced m (t ++ u) = some (name, r ++ u) := by
  induction n generalizing t name with
  | zero => simp [upToBrace] at h
  | succ n ih =>
    rw [upToBrace] at h
    split at h
    · simp at h
    · next r' hskip =>
      obtain ⟨rfl, rfl⟩ := Prod.mk.inj (Option.some.inj h)
      refine ⟨suffix_of_skip hskip, fun u m hm => ?_⟩
      cases m with
      | zero => omega
      | succ m => simp [upToBrace, skip_append hskip]
    · next c r' hbrace hskip =>
      obtain ⟨⟨name', r''⟩, hrest, heq⟩ := Option.map_eq_some_iff.mp h
      obtain ⟨rfl, rfl⟩ := Prod.mk.inj heq
      obtain ⟨hsuffix, hread⟩ := ih hrest
      refine ⟨hsuffix.trans (suffix_of_skip hskip), fun u m hm => ?_⟩
      cases m with
      | zero => omega
      | succ m =>
        simp [upToBrace, skip_append hskip, hread u m (by omega)]

/-- Hexadecimal digits are read as before, whatever follows. -/
theorem hexDigits_append {digits : Text} (h : hexDigits spaced n t = some (digits, r)) :
    r <:+ t ∧ ∀ u, hexDigits spaced n (t ++ u) = some (digits, r ++ u) := by
  induction n generalizing t digits with
  | zero =>
    obtain ⟨rfl, rfl⟩ := Prod.mk.inj (Option.some.inj h)
    exact ⟨List.suffix_rfl, fun u => rfl⟩
  | succ n ih =>
    rw [hexDigits] at h
    split at h
    · simp at h
    · next c r' hskip =>
      obtain ⟨hdigit, h⟩ := Option.ite_none_right_eq_some.mp h
      obtain ⟨⟨digits', r''⟩, hrest, heq⟩ := Option.map_eq_some_iff.mp h
      obtain ⟨rfl, rfl⟩ := Prod.mk.inj heq
      obtain ⟨hsuffix, hread⟩ := ih hrest
      exact ⟨hsuffix.trans (suffix_of_skip hskip), fun u => by simp [hexDigits, skip_append hskip, hdigit, hread u]⟩

/-- A hexadecimal escape is read as before, whatever follows. -/
theorem hexEscape_append {e : Escape} (h : hexEscape spaced n t = some (e, r)) :
    r <:+ t ∧ ∀ u, hexEscape spaced n (t ++ u) = some (e, r ++ u) := by
  simp only [hexEscape, Option.bind_eq_some_iff] at h
  obtain ⟨⟨number, r'⟩, hnumber, hchar⟩ := h
  obtain ⟨c, hc, heq⟩ := Option.map_eq_some_iff.mp hchar
  obtain ⟨k, hk, hc⟩ := Option.bind_eq_some_iff.mp hc
  obtain ⟨rfl, rfl⟩ := Prod.mk.inj heq
  cases hskip : skip spaced t with
  | nil =>
    -- No digits are no number.
    have hnone : number = [] := by
      rw [hskip] at hnumber
      cases n with
      | zero => exact (Prod.mk.inj (Option.some.inj hnumber)).1.symm
      | succ n => cases spaced <;> simp [hexDigits, skip, skipSpacing] at hnumber
    simp [hnone, Text.hexToNat?] at hk
  | cons d rest =>
    rw [hskip] at hnumber
    by_cases hd : d = '\x7b'
    · subst hd
      obtain ⟨hsuffix, hread⟩ := upToBrace_append hnumber
      refine ⟨hsuffix.trans (suffix_of_skip hskip), fun u => ?_⟩
      simp [hexEscape, skip_append hskip, hread u (rest.length + u.length) (by omega), hk, hc]
    · have hdigits : hexDigits spaced n (d :: rest) = some (number, r') := by simpa [hd] using hnumber
      obtain ⟨hsuffix, hread⟩ := hexDigits_append hdigits
      refine ⟨hsuffix.trans (hskip ▸ skip_suffix spaced t), fun u => ?_⟩
      have hread' : hexDigits spaced n (d :: (rest ++ u)) = some (number, r' ++ u) := hread u
      simp [hexEscape, skip_append hskip, hd, hread', hk, hc]

/-- A property is read as before, whatever follows. -/
theorem propertyEscape_append {negated : Bool} {e : Escape} (h : propertyEscape spaced negated t = some (e, r)) :
    r <:+ t ∧ ∀ u, propertyEscape spaced negated (t ++ u) = some (e, r ++ u) := by
  unfold propertyEscape at h
  split at h
  · simp at h
  · next r' hskip =>
    obtain ⟨⟨name, rest⟩, hname, hproperty⟩ := Option.bind_eq_some_iff.mp h
    obtain ⟨cls, hcls, heq⟩ := Option.map_eq_some_iff.mp hproperty
    obtain ⟨rfl, rfl⟩ := Prod.mk.inj heq
    obtain ⟨hsuffix, hread⟩ := upToBrace_append hname
    refine ⟨hsuffix.trans (suffix_of_skip hskip), fun u => ?_⟩
    simp [propertyEscape, skip_append hskip, hread u (r'.length + u.length) (by omega), hcls]
  · simp at h
  · next c r' hbrace hback hskip =>
    obtain ⟨cls, hcls, heq⟩ := Option.map_eq_some_iff.mp h
    obtain ⟨rfl, rfl⟩ := Prod.mk.inj heq
    refine ⟨suffix_of_skip hskip, fun u => ?_⟩
    simp [propertyEscape, skip_append hskip, hcls]

/-- A pattern goes on behind a branch of a group: with a bar, or with the end of the group. -/
def EndsBranch (u : Text) : Prop := ∃ v, u = '|' :: v ∨ u = ')' :: v

/-- A boundary is read as before at the end of a branch. -/
theorem boundaryEscape_append {e : Escape} (h : boundaryEscape spaced t = some (e, r)) :
    r <:+ t ∧ ∀ u, EndsBranch u → boundaryEscape spaced (t ++ u) = some (e, r ++ u) := by
  unfold boundaryEscape at h
  split at h
  · next t' =>
    cases hskip : skip spaced t' with
    | nil => simp [hskip] at h
    | cons c rest =>
      simp only [hskip] at h
      -- A brace behind the letter opens the name of a condition only when a name can follow.
      by_cases hc : isConditionChar c = true
      · simp only [hc, Bool.not_true, Bool.false_eq_true, if_false] at h
        obtain ⟨⟨name, r'⟩, hname, h⟩ := Option.bind_eq_some_iff.mp h
        obtain ⟨hsuffix, hread⟩ := upToBrace_append hname
        have hr : r' = r := by
          dsimp only at h
          split_ifs at h <;> exact (Prod.mk.inj (Option.some.inj h)).2
        subst hr
        refine ⟨hsuffix.trans (List.suffix_cons _ _), fun u _ => ?_⟩
        have hbehind := hread u (t'.length + u.length) (by omega)
        simp only [boundaryEscape, List.cons_append, skip_append hskip, hc, Bool.not_true, Bool.false_eq_true,
          if_false, List.length_append, hbehind, Option.bind_some]
        dsimp only at h
        split_ifs at h ⊢ <;> rw [(Prod.mk.inj (Option.some.inj h)).1]
      · simp only [hc, Bool.not_false, if_true] at h
        obtain ⟨rfl, rfl⟩ := Prod.mk.inj (Option.some.inj h)
        exact ⟨List.suffix_rfl, fun u _ => by simp [boundaryEscape, skip_append hskip, hc]⟩
  · next hbrace =>
    -- Behind the text there is a bar or a parenthesis, which is no brace either.
    obtain ⟨rfl, rfl⟩ := Prod.mk.inj (Option.some.inj h)
    refine ⟨List.suffix_rfl, fun u ⟨v, hu⟩ => ?_⟩
    cases t with
    | nil => rcases hu with rfl | rfl <;> rfl
    | cons c t =>
      have hc : c ≠ '\x7b' := fun hc => hbrace t (hc ▸ rfl)
      simp [boundaryEscape, hc]

/-- Most escapes are one character. -/
theorem escape?_cons_of_ne {c : Char} (hhex : c ≠ 'x' ∧ c ≠ 'u' ∧ c ≠ 'U') (hproperty : c ≠ 'p' ∧ c ≠ 'P')
    (hboundary : c ≠ 'b') (t : Text) :
    escape? spaced (c :: t) = (escape? spaced [c]).map fun e => (e.1, t) := by
  simp only [escape?, if_neg hhex.1, if_neg hhex.2.1, if_neg hhex.2.2, if_neg hproperty.1, if_neg hproperty.2,
    if_neg hboundary, apply_ite (Option.map fun e => (Prod.fst e, t)), Option.map_some, Option.map_none]

/-- An escape is read as before at the end of a branch. -/
theorem escape?_append {e : Escape} (h : escape? spaced t = some (e, r)) :
    r <:+ t ∧ ∀ u, EndsBranch u → escape? spaced (t ++ u) = some (e, r ++ u) := by
  cases t with
  | nil => simp [escape?] at h
  | cons c t =>
    have hcons : t <:+ c :: t := List.suffix_cons c t
    by_cases hhex : c = 'x' ∨ c = 'u' ∨ c = 'U'
    · rcases hhex with rfl | rfl | rfl
      all_goals
        obtain ⟨hsuffix, hread⟩ := hexEscape_append h
        exact ⟨hsuffix.trans hcons, fun u _ => hread u⟩
    by_cases hproperty : c = 'p' ∨ c = 'P'
    · rcases hproperty with rfl | rfl
      all_goals
        obtain ⟨hsuffix, hread⟩ := propertyEscape_append h
        exact ⟨hsuffix.trans hcons, fun u _ => hread u⟩
    by_cases hboundary : c = 'b'
    · subst hboundary
      obtain ⟨hsuffix, hread⟩ := boundaryEscape_append h
      exact ⟨hsuffix.trans hcons, hread⟩
    simp only [not_or] at hhex hproperty
    rw [escape?_cons_of_ne hhex hproperty hboundary] at h
    obtain ⟨e', he', heq⟩ := Option.map_eq_some_iff.mp h
    obtain ⟨rfl, rfl⟩ := Prod.mk.inj heq
    refine ⟨hcons, fun u _ => ?_⟩
    rw [List.cons_append, escape?_cons_of_ne hhex hproperty hboundary, he', Option.map_some]

/-! ## Bracketed classes -/

/-- What follows a beginning is left as before, whatever follows. -/
theorem after?_append_right {p : Text} (h : Text.after? p t = some r) (u : Text) :
    Text.after? p (t ++ u) = some (r ++ u) := by
  rw [Text.after?_eq_some_iff.mp h, List.append_assoc, Text.after?_append]

/-- A text is split at a character as before, whatever follows. -/
theorem splitFirst_append_right {c : Char} {a : Text} (h : Text.splitFirst c t = some (a, r)) (u : Text) :
    Text.splitFirst c (t ++ u) = some (a, r ++ u) := by
  have hc := Text.notMem_of_splitFirst h
  rw [Text.eq_append_of_splitFirst h, List.append_assoc, List.cons_append, Text.splitFirst_append hc]

/-- What stands behind a character is an end of the text. -/
theorem suffix_of_splitFirst {c : Char} {a : Text} (h : Text.splitFirst c t = some (a, r)) : r <:+ t := by
  rw [Text.eq_append_of_splitFirst h]
  exact (List.suffix_cons c r).trans (List.suffix_append a _)

/-- Whether a class with a name is negated, and what is behind that. -/
def posixSign (s : Text) : Bool × Text :=
  match Text.after? ['^'] s with
  | some r => (true, r)
  | none => (false, s)

/-- A named class between colons is read part by part. -/
theorem posixClass?_eq (t : Text) : posixClass? t = (Text.after? [':'] t).bind fun s =>
    (Text.splitFirst ':' (posixSign s).2).bind fun (name, r) =>
      (Text.after? [']'] r).bind fun r =>
        (posixRanges.find? fun (n, _) => n.toList == name).map fun (_, rs) => (.posix rs (posixSign s).1, r) := rfl

/-- The sign of a named class is read as before, whatever follows. -/
theorem posixSign_append {s : Text} (h : s ≠ []) (u : Text) :
    posixSign (s ++ u) = ((posixSign s).1, (posixSign s).2 ++ u) ∧ (posixSign s).2 <:+ s := by
  cases s with
  | nil => exact absurd rfl h
  | cons c s =>
    by_cases hc : '^' = c
    · subst hc
      exact ⟨rfl, List.suffix_cons _ s⟩
    · simp [posixSign, Text.after?, hc]

/-- A named class is read as before, whatever follows. -/
theorem posixClass?_append {e : ClassExpr} (h : posixClass? t = some (e, r)) :
    r <:+ t ∧ ∀ u, posixClass? (t ++ u) = some (e, r ++ u) := by
  rw [posixClass?_eq] at h
  obtain ⟨s, hs, h⟩ := Option.bind_eq_some_iff.mp h
  obtain ⟨⟨name, r'⟩, hname, h⟩ := Option.bind_eq_some_iff.mp h
  obtain ⟨r'', hr'', h⟩ := Option.bind_eq_some_iff.mp h
  obtain ⟨⟨_, rs⟩, hrs, heq⟩ := Option.map_eq_some_iff.mp h
  obtain ⟨rfl, rfl⟩ := Prod.mk.inj heq
  have hne : s ≠ [] := by
    rintro rfl
    simp [posixSign, Text.after?, Text.splitFirst] at hname
  constructor
  · have hclose : r'' <:+ r' := ⟨_, (Text.after?_eq_some_iff.mp hr'').symm⟩
    have hopen : s <:+ t := ⟨_, (Text.after?_eq_some_iff.mp hs).symm⟩
    exact ((hclose.trans (suffix_of_splitFirst hname)).trans (posixSign_append hne []).2).trans hopen
  · intro u
    rw [posixClass?_eq, after?_append_right hs, Option.bind_some, (posixSign_append hne u).1,
      splitFirst_append_right hname, Option.bind_some]
    simp only [after?_append_right hr'', hrs, Option.bind_some, Option.map_some]

/-- A closing bracket stays behind the sign of a named class. -/
theorem close_mem_posixSign (h : ']' ∈ t) : ']' ∈ (posixSign t).2 := by
  unfold posixSign
  split
  · next rest hrest =>
    rw [Text.after?_eq_some_iff.mp hrest] at h
    simpa using h
  · exact h

/-- No class has a name with a bracket in it. -/
theorem close_notMem_name {name : Text} {p : String × List (Nat × Nat)}
    (h : (posixRanges.find? fun (n, _) => n.toList == name) = some p) : ']' ∉ name := by
  have hnames : ∀ p ∈ posixRanges, ']' ∉ p.1.toList := by decide
  have hfound := List.find?_some h
  rw [beq_iff_eq] at hfound
  exact hfound ▸ hnames p (List.mem_of_find?_eq_some h)

/-- What is split off at a character behind the text has all of the text in it. -/
theorem mem_of_splitFirst_append {c d : Char} {name : Text} (h : Text.splitFirst d t = none) (hc : c ∈ t)
    (hsplit : Text.splitFirst d (t ++ u) = some (name, r)) : c ∈ name := by
  have hnone := Text.splitFirst_eq_none_iff.mp h
  rcases List.append_eq_append_iff.mp (Text.eq_append_of_splitFirst hsplit) with
    ⟨more, rfl, -⟩ | ⟨more, hfront, hbehind⟩
  · exact List.mem_append_left _ hc
  · cases more with
    | nil => simpa [hfront] using hc
    | cons d' more =>
      obtain ⟨rfl, -⟩ := List.cons.inj hbehind
      exact absurd (hfront ▸ by simp) hnone

/-- Behind a closing bracket a class with a name does not begin, whatever follows. -/
theorem posixClass?_append_eq_none (h : posixClass? t = none) (hclose : ']' ∈ t) (hu : EndsBranch u) :
    posixClass? (t ++ u) = none := by
  rw [Option.eq_none_iff_forall_ne_some]
  rintro ⟨e, r⟩ hsome
  rw [posixClass?_eq] at hsome
  obtain ⟨s, hs, hsome⟩ := Option.bind_eq_some_iff.mp hsome
  obtain ⟨⟨name, r'⟩, hname, hsome⟩ := Option.bind_eq_some_iff.mp hsome
  obtain ⟨r'', hr'', hsome⟩ := Option.bind_eq_some_iff.mp hsome
  obtain ⟨⟨n, rs⟩, hrs, -⟩ := Option.map_eq_some_iff.mp hsome
  cases t with
  | nil => simp at hclose
  | cons c t =>
    obtain rfl : c = ':' := (List.cons.inj (Text.after?_eq_some_iff.mp hs)).1
    obtain rfl : t ++ u = s := (List.cons.inj (Text.after?_eq_some_iff.mp hs)).2
    have hmem : ']' ∈ t := (List.mem_cons.mp hclose).resolve_left (by decide)
    rw [(posixSign_append (List.ne_nil_of_mem hmem) u).1] at hname
    -- The name is in front of the first closing bracket, so it ends inside of the text already.
    cases hsplit : Text.splitFirst ':' (posixSign t).2 with
    | none =>
      have hbracket := mem_of_splitFirst_append hsplit (close_mem_posixSign hmem) hname
      exact close_notMem_name hrs hbracket
    | some parts =>
      obtain ⟨name', rest⟩ := parts
      rw [splitFirst_append_right hsplit] at hname
      obtain ⟨rfl, rfl⟩ := Prod.mk.inj (Option.some.inj hname)
      cases rest with
      | nil =>
        obtain ⟨v, rfl | rfl⟩ := hu <;> simp [Text.after?] at hr''
      | cons d rest =>
        obtain rfl : d = ']' := (List.cons.inj (Text.after?_eq_some_iff.mp hr'')).1
        simp [posixClass?_eq, Text.after?, hsplit, hrs] at h

/-- The first items of a class are read as before, whatever follows. -/
theorem leadingItems_append {isFirst : Bool} {acc e : ClassExpr}
    (h : leadingItems spaced n isFirst acc t = some (e, r)) :
    r <:+ t ∧ ∀ u m, n ≤ m → leadingItems spaced m isFirst acc (t ++ u) = some (e, r ++ u) := by
  -- By induction on the hyphens. Something is left of the text behind each of them, or the class would not close.
  induction n generalizing isFirst acc t with
  | zero => simp [leadingItems] at h
  | succ n ih =>
    have hsucc {m : Nat} (hm : n + 1 ≤ m) : ∃ k, n ≤ k ∧ m = k + 1 := ⟨m - 1, by omega, by omega⟩
    cases t with
    | nil => simp [leadingItems] at h
    | cons c t =>
      by_cases hhyphen : c = '-'
      · subst hhyphen
        cases hskip : skip spaced t with
        | nil => cases n <;> simp [hskip, leadingItems] at h
        | cons c rest =>
          rw [leadingItems, hskip] at h
          obtain ⟨hsuffix, hread⟩ := ih h
          refine ⟨hsuffix.trans ((hskip ▸ skip_suffix spaced t).trans (List.suffix_cons _ t)), fun u m hm => ?_⟩
          obtain ⟨k, hk, rfl⟩ := hsucc hm
          rw [List.cons_append, leadingItems, skip_append hskip]
          exact hread u k hk
      by_cases hclose : c = ']' ∧ isFirst = true
      · obtain ⟨rfl, rfl⟩ := hclose
        cases hskip : skip spaced t with
        | nil => simp [leadingItems, hskip] at h
        | cons c rest =>
          simp only [leadingItems, hskip, if_true, List.isEmpty_cons, Bool.false_eq_true, if_false] at h
          obtain ⟨rfl, rfl⟩ := Prod.mk.inj (Option.some.inj h)
          refine ⟨(hskip ▸ skip_suffix spaced t).trans (List.suffix_cons _ t), fun u m hm => ?_⟩
          obtain ⟨k, hk, rfl⟩ := hsucc hm
          simp [leadingItems, skip_append hskip]
      · have hitem (k : Nat) (t : Text) : leadingItems spaced (k + 1) isFirst acc (c :: t) = some (acc, c :: t) := by
          by_cases hbracket : c = ']'
          · subst hbracket
            have hfirst : isFirst = false := by simpa using hclose
            simp [leadingItems, hfirst]
          · simp [leadingItems, hhyphen, hbracket]
        rw [hitem] at h
        obtain ⟨rfl, rfl⟩ := Prod.mk.inj (Option.some.inj h)
        refine ⟨List.suffix_rfl, fun u m hm => ?_⟩
        obtain ⟨k, hk, rfl⟩ := hsucc hm
        exact hitem k _

/-- A caret in front complements a class. -/
theorem bracketStart_of_caret {rest : Text} (h : skip spaced t = '^' :: rest) : bracketStart spaced t =
    (leadingItems spaced ((skip spaced rest).length + 1) true .nothing (skip spaced rest)).map
      fun (e, r) => (true, e, r) := by
  simp [bracketStart, h]

/-- Without a caret in front a class is none of the others. -/
theorem bracketStart_of_ne {c : Char} {rest : Text} (h : skip spaced t = c :: rest) (hc : c ≠ '^') :
    bracketStart spaced t =
      (leadingItems spaced ((c :: rest).length + 1) true .nothing (c :: rest)).map fun (e, r) => (false, e, r) := by
  simp [bracketStart, h, hc]

/-- The start of a class is read as before, whatever follows. -/
theorem bracketStart_append {negated : Bool} {e : ClassExpr} (h : bracketStart spaced t = some (negated, e, r)) :
    r <:+ t ∧ ∀ u, bracketStart spaced (t ++ u) = some (negated, e, r ++ u) := by
  cases hskip : skip spaced t with
  | nil => simp [bracketStart, hskip, leadingItems] at h
  | cons c rest =>
    by_cases hc : c = '^'
    · subst hc
      rw [bracketStart_of_caret hskip] at h
      obtain ⟨⟨e', r'⟩, hitems, heq⟩ := Option.map_eq_some_iff.mp h
      obtain ⟨rfl, rfl, rfl⟩ : true = negated ∧ e' = e ∧ r' = r := by simpa using heq
      obtain ⟨hsuffix, hread⟩ := leadingItems_append hitems
      refine ⟨(hsuffix.trans (skip_suffix spaced rest)).trans (suffix_of_skip hskip), fun u => ?_⟩
      cases hrest : skip spaced rest with
      | nil => simp [hrest, leadingItems] at hitems
      | cons d behind =>
        have hread' := hread u ((d :: (behind ++ u)).length + 1) (by simp [hrest])
        rw [hrest, List.cons_append] at hread'
        rw [bracketStart_of_caret (skip_append hskip u), skip_append hrest, hread', Option.map_some]
    · rw [bracketStart_of_ne hskip hc] at h
      obtain ⟨⟨e', r'⟩, hitems, heq⟩ := Option.map_eq_some_iff.mp h
      obtain ⟨rfl, rfl, rfl⟩ : false = negated ∧ e' = e ∧ r' = r := by simpa using heq
      obtain ⟨hsuffix, hread⟩ := leadingItems_append hitems
      refine ⟨hsuffix.trans (hskip ▸ skip_suffix spaced t), fun u => ?_⟩
      have hread' := hread u ((c :: (rest ++ u)).length + 1) (by simp)
      rw [List.cons_append] at hread'
      rw [bracketStart_of_ne (skip_append hskip u) hc, hread', Option.map_some]

/-- An item of a class is read as before at the end of a branch. -/
theorem classItem_append {e : Escape} (h : classItem spaced t = some (e, r)) :
    r <:+ t ∧ ∀ u, EndsBranch u → classItem spaced (t ++ u) = some (e, r ++ u) := by
  cases t with
  | nil => simp [classItem] at h
  | cons c t =>
    by_cases hc : c = '\\'
    · subst hc
      obtain ⟨hsuffix, hread⟩ := escape?_append h
      exact ⟨hsuffix.trans (List.suffix_cons _ t), hread⟩
    · have hchar (t : Text) : classItem spaced (c :: t) = some (.char c, t) := by simp [classItem]
      rw [hchar] at h
      obtain ⟨rfl, rfl⟩ := Prod.mk.inj (Option.some.inj h)
      exact ⟨List.suffix_cons c t, fun u _ => hchar _⟩

section
variable {first : Escape} {rest behind : Text} {c d : Char}

/-- An item in front of something else than a hyphen. -/
theorem classRange_of_ne (hfirst : classItem spaced t = some (first, rest)) (hskip : skip spaced rest = c :: behind)
    (hc : c ≠ '-') : classRange spaced t = first.toItem.map fun e => (e, c :: behind) := by
  simp [classRange, hfirst, hskip, hc]

/-- An item in front of a hyphen that stands for itself. -/
theorem classRange_of_hyphen (hfirst : classItem spaced t = some (first, rest))
    (hskip : skip spaced rest = '-' :: behind) {more : Text} (hmore : skip spaced behind = d :: more)
    (hd : d = ']' ∨ d = '-') : classRange spaced t = first.toItem.map fun e => (e, '-' :: behind) := by
  rcases hd with rfl | rfl <;> simp [classRange, hfirst, hskip, hmore]

/-- The range between two characters, unless it is empty. -/
def Escape.range? : Escape → Escape → Option ClassExpr
  | .char lo, .char hi => if lo ≤ hi then some (.range lo hi) else none
  | _, _ => none

/-- A range goes from one character to another, and leaves the rest as it is. -/
theorem Escape.map_range? (first second : Escape) (r : Text) : (match first, second with
    | .char lo, .char hi => if lo ≤ hi then some (ClassExpr.range lo hi, r) else none
    | _, _ => none) = (first.range? second).map fun e => (e, r) := by
  cases first <;> cases second <;> simp only [Escape.range?, Option.map_none]
  split <;> rfl

/-- An item in front of a hyphen and another item. -/
theorem classRange_of_range (hfirst : classItem spaced t = some (first, rest))
    (hskip : skip spaced rest = '-' :: behind) {more : Text} (hmore : skip spaced behind = d :: more)
    (hd : ¬(d = ']' ∨ d = '-')) : classRange spaced t =
      (classItem spaced (d :: more)).bind fun (second, r) => (first.range? second).map fun e => (e, r) := by
  rw [not_or] at hd
  simp only [classRange, hfirst, hskip, hmore, Option.bind_some, List.head?_cons]
  split
  · next h => simp at h
  · next h => exact absurd (Option.some.inj h) hd.1
  · next h => exact absurd (Option.some.inj h) hd.2
  · exact congrArg (Option.bind _) (funext fun (second, r) => first.map_range? second r)

/-- A range cannot end a text. -/
theorem classRange_singleton (c : Char) : classRange spaced [c] = none := by
  have hskip : skip spaced [] = [] := by cases spaced <;> rfl
  by_cases hc : c = '\\'
  · subst hc
    rfl
  · have hitem : classItem spaced [c] = some (.char c, []) := by simp [classItem]
    simp [classRange, hitem, hskip]

/-- A range is read as before at the end of a branch. -/
theorem classRange_append {e : ClassExpr} (h : classRange spaced t = some (e, r)) :
    r <:+ t ∧ ∀ u, EndsBranch u → classRange spaced (t ++ u) = some (e, r ++ u) := by
  obtain ⟨⟨first, rest⟩, hfirst, -⟩ := Option.bind_eq_some_iff.mp h
  obtain ⟨hsuffix, hfirst'⟩ := classItem_append hfirst
  -- Behind the item is a hyphen with another item, a hyphen that stands for itself, or no hyphen.
  cases hskip : skip spaced rest with
  | nil => simp [classRange, hfirst, hskip] at h
  | cons c behind =>
    have hrest : c :: behind <:+ t := (hskip ▸ skip_suffix spaced rest).trans hsuffix
    by_cases hc : c = '-'
    · subst hc
      cases hmore : skip spaced behind with
      | nil => simp [classRange, hfirst, hskip, hmore] at h
      | cons d more =>
        by_cases hd : d = ']' ∨ d = '-'
        · rw [classRange_of_hyphen hfirst hskip hmore hd] at h
          obtain ⟨e', he, heq⟩ := Option.map_eq_some_iff.mp h
          obtain ⟨rfl, rfl⟩ := Prod.mk.inj heq
          refine ⟨hrest, fun u hu => ?_⟩
          rw [classRange_of_hyphen (hfirst' u hu) (skip_append hskip u) (skip_append hmore u) hd, he, Option.map_some]
          rfl
        · rw [classRange_of_range hfirst hskip hmore hd] at h
          obtain ⟨⟨second, r'⟩, hsecond, h⟩ := Option.bind_eq_some_iff.mp h
          obtain ⟨hsuffix', hsecond'⟩ := classItem_append hsecond
          obtain ⟨e', he, heq⟩ := Option.map_eq_some_iff.mp h
          obtain ⟨rfl, rfl⟩ := Prod.mk.inj heq
          refine ⟨(hsuffix'.trans (hmore ▸ skip_suffix spaced behind)).trans ((List.suffix_cons _ _).trans hrest),
            fun u hu => ?_⟩
          have hsecond'' := hsecond' u hu
          rw [List.cons_append] at hsecond''
          rw [classRange_of_range (hfirst' u hu) (skip_append hskip u) (skip_append hmore u) hd, hsecond'']
          simp only [Option.bind_some, he, Option.map_some]
    · rw [classRange_of_ne hfirst hskip hc] at h
      obtain ⟨e', he, heq⟩ := Option.map_eq_some_iff.mp h
      obtain ⟨rfl, rfl⟩ := Prod.mk.inj heq
      refine ⟨hrest, fun u hu => ?_⟩
      rw [classRange_of_ne (hfirst' u hu) (skip_append hskip u) hc, he, Option.map_some]
      rfl

end

/-- The operation that two characters stand for, and what is behind them. -/
def setOp? : Text → Option (SetOp × Text)
  | '&' :: '&' :: r => some (.inter, r)
  | '-' :: '-' :: r => some (.diff, r)
  | '~' :: '~' :: r => some (.symmDiff, r)
  | _ => none

/-- An operation on classes is seen as before by its two characters. -/
theorem setOp?_append (c d : Char) (t u : Text) :
    setOp? (c :: d :: (t ++ u)) = (setOp? (c :: d :: t)).map fun (k, r) => (k, r ++ u) := by
  by_cases hsign : c = d ∧ (d = '&' ∨ d = '-' ∨ d = '~')
  · obtain ⟨rfl, rfl | rfl | rfl⟩ := hsign <;> rfl
  · have hnone (s : Text) : setOp? (c :: d :: s) = none := by
      unfold setOp?
      split <;> simp_all
    rw [hnone, hnone, Option.map_none]

/-- What follows an operation on classes is an end of the text. -/
theorem suffix_of_setOp? {k : SetOp} (h : setOp? t = some (k, r)) : r <:+ t := by
  unfold setOp? at h
  split at h
  iterate 3
    · obtain ⟨rfl, rfl⟩ := Prod.mk.inj (Option.some.inj h)
      exact (List.suffix_cons _ _).trans (List.suffix_cons _ _)
  · simp at h

section
variable {acc : ClassExpr} {pending : Option (SetOp × ClassExpr)} {rest : Text} {c : Char}

/-- A closing bracket closes a class. -/
theorem classItems_of_close (hskip : skip spaced t = ']' :: rest) :
    classItems spaced (n + 1) acc pending t = some (applyPending pending acc, rest) := by
  simp [classItems, hskip]

/-- A named class in a class joins it. -/
theorem classItems_of_posix (hskip : skip spaced t = '[' :: rest) {e : ClassExpr}
    (hposix : posixClass? rest = some (e, r)) :
    classItems spaced (n + 1) acc pending t = classItems spaced n (.union acc e) pending r := by
  simp [classItems, hskip, hposix]

/-- An opening bracket in a class opens another, which joins it. -/
theorem classItems_of_open (hskip : skip spaced t = '[' :: rest) (hposix : posixClass? rest = none) :
    classItems spaced (n + 1) acc pending t = (bracketStart spaced rest).bind fun (negated, first, r) =>
      (classItems spaced n first none r).bind fun (e, r) =>
        classItems spaced n (.union acc (.bracket negated e)) pending r := by
  simp [classItems, hskip, hposix]

/-- An operation waits for the items that follow it. -/
theorem classItems_of_op {k : SetOp} (hskip : skip spaced t = rest) (hop : setOp? rest = some (k, r)) :
    classItems spaced (n + 1) acc pending t =
      classItems spaced n .nothing (some (k, applyPending pending acc)) r := by
  unfold setOp? at hop
  split at hop
  iterate 3
    · obtain ⟨rfl, rfl⟩ := Prod.mk.inj (Option.some.inj hop)
      simp [classItems, hskip]
  · simp at hop

/-- Any other item joins its class. -/
theorem classItems_of_item (hskip : skip spaced t = c :: rest) (hc : c ≠ ']' ∧ c ≠ '[')
    (hop : setOp? (c :: rest) = none) : classItems spaced (n + 1) acc pending t =
      (classRange spaced (c :: rest)).bind fun (e, r) => classItems spaced n (.union acc e) pending r := by
  rw [classItems, hskip]
  split <;> simp_all [setOp?]

end

/-- The items of a class are read up to the bracket that closes it, and up to the same one where a pattern goes on
behind the text. -/
structure ItemsClose (spaced : Bool) (n : Nat) (acc : ClassExpr) (pending : Option (SetOp × ClassExpr)) (t : Text)
    (e : ClassExpr) (r : Text) : Prop where
  suffix : r <:+ t
  close : ']' ∈ t
  append : ∀ u, EndsBranch u → ∀ m, n ≤ m → classItems spaced m acc pending (t ++ u) = some (e, r ++ u)

/-- A step inside of the class, to the items behind it. -/
theorem ItemsClose.step {acc acc' e : ClassExpr} {pending pending' : Option (SetOp × ClassExpr)} {t' : Text}
    (h : ItemsClose spaced n acc' pending' t' e r) (ht : t' <:+ t)
    (hstep : ∀ u, EndsBranch u → ∀ m, n ≤ m →
      classItems spaced (m + 1) acc pending (t ++ u) = classItems spaced m acc' pending' (t' ++ u)) :
    ItemsClose spaced (n + 1) acc pending t e r where
  suffix := h.suffix.trans ht
  close := ht.mem h.close
  append u hu m hm := by
    obtain ⟨m, rfl⟩ := Nat.exists_eq_succ_of_ne_zero (by omega : m ≠ 0)
    rw [Nat.succ_eq_add_one, hstep u hu m (by omega)]
    exact h.append u hu m (by omega)

/-- A class that is read closes, as the calls of its reading do. -/
theorem itemsClose_of_classItems {acc e : ClassExpr} {pending : Option (SetOp × ClassExpr)}
    (h : classItems spaced n acc pending t = some (e, r)) : ItemsClose spaced n acc pending t e r := by
  -- By induction on the steps; a class inside of the class is closed by a bracket of its own.
  induction n generalizing acc pending t e r with
  | zero => simp [classItems] at h
  | succ n ih =>
    cases hskip : skip spaced t with
    | nil => simp [classItems, hskip] at h
    | cons c rest =>
      have hrest : c :: rest <:+ t := hskip ▸ skip_suffix spaced t
      by_cases hclose : c = ']'
      · subst hclose
        rw [classItems_of_close hskip] at h
        obtain ⟨rfl, rfl⟩ := Prod.mk.inj (Option.some.inj h)
        refine ⟨suffix_of_skip hskip, hrest.mem List.mem_cons_self, fun u _ m hm => ?_⟩
        obtain ⟨m, rfl⟩ := Nat.exists_eq_succ_of_ne_zero (by omega : m ≠ 0)
        exact classItems_of_close (skip_append hskip u)
      by_cases hopen : c = '['
      · subst hopen
        cases hposix : posixClass? rest with
        | some parts =>
          obtain ⟨e', r'⟩ := parts
          rw [classItems_of_posix hskip hposix] at h
          obtain ⟨hsuffix, hposix'⟩ := posixClass?_append hposix
          exact (ih h).step (hsuffix.trans (suffix_of_skip hskip)) fun u _ m _ =>
            classItems_of_posix (skip_append hskip u) (hposix' u)
        | none =>
          rw [classItems_of_open hskip hposix] at h
          obtain ⟨⟨negated, first, r₁⟩, hstart, h⟩ := Option.bind_eq_some_iff.mp h
          obtain ⟨⟨e', r₂⟩, hnested, h⟩ := Option.bind_eq_some_iff.mp h
          obtain ⟨hsuffix, hstart'⟩ := bracketStart_append hstart
          have hinner := ih hnested
          -- The bracket that closes the inner class keeps what follows from being read as a name.
          have hposix' {u : Text} (hu : EndsBranch u) : posixClass? (rest ++ u) = none :=
            posixClass?_append_eq_none hposix (hsuffix.mem hinner.close) hu
          refine (ih h).step ((hinner.suffix.trans hsuffix).trans (suffix_of_skip hskip)) fun u hu m hm => ?_
          rw [classItems_of_open (skip_append hskip u) (hposix' hu), hstart' u, Option.bind_some]
          simp only [hinner.append u hu m hm, Option.bind_some]
      cases rest with
      | nil =>
        have hop : setOp? [c] = none := by
          unfold setOp?
          split <;> simp_all
        simp [classItems_of_item hskip ⟨hclose, hopen⟩ hop, classRange_singleton] at h
      | cons d rest =>
        -- Whether two signs are an operation does not depend on what follows them.
        have hop' (u : Text) := setOp?_append c d rest u
        cases hop : setOp? (c :: d :: rest) with
        | some parts =>
          obtain ⟨k, r'⟩ := parts
          rw [classItems_of_op hskip hop] at h
          rw [hop] at hop'
          exact (ih h).step ((suffix_of_setOp? hop).trans hrest) fun u _ m _ =>
            classItems_of_op (skip_append hskip u) (hop' u)
        | none =>
          rw [classItems_of_item hskip ⟨hclose, hopen⟩ hop] at h
          rw [hop] at hop'
          obtain ⟨⟨e', r'⟩, hitem, h⟩ := Option.bind_eq_some_iff.mp h
          obtain ⟨hsuffix, hitem'⟩ := classRange_append hitem
          refine (ih h).step (hsuffix.trans hrest) fun u hu m _ => ?_
          have hitem'' : classRange spaced (c :: d :: (rest ++ u)) = some (e', r' ++ u) := hitem' u hu
          rw [classItems_of_item (skip_append hskip u) ⟨hclose, hopen⟩ (hop' u), List.cons_append, hitem'',
            Option.bind_some]

/-- A class is read as before at the end of a branch. -/
theorem bracketClass_append {e : ClassExpr} (h : bracketClass spaced t = some (e, r)) :
    r <:+ t ∧ ∀ u, EndsBranch u → bracketClass spaced (t ++ u) = some (e, r ++ u) := by
  obtain ⟨⟨negated, first, r'⟩, hstart, h⟩ := Option.bind_eq_some_iff.mp h
  obtain ⟨⟨e', r''⟩, hitems, heq⟩ := Option.map_eq_some_iff.mp h
  obtain ⟨rfl, rfl⟩ := Prod.mk.inj heq
  obtain ⟨hsuffix, hstart'⟩ := bracketStart_append hstart
  have hclose := itemsClose_of_classItems hitems
  refine ⟨hclose.suffix.trans hsuffix, fun u hu => ?_⟩
  have hread := hclose.append u hu ((r' ++ u).length + 1) (by simp)
  simp only [bracketClass, hstart', Option.bind_some, hread, Option.map_some]

end UrlFilter.Regex
