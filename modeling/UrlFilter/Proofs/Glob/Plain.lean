import UrlFilter.Alternation.Matcher
import UrlFilter.Proofs.Glob.Compiled
import UrlFilter.Proofs.Regex.Reading

/-!
# Spans without memory

Spans joined by bars are read as the choice between their patterns. So patterns without asterisks become
one pattern without memory that matches when one of them does, as long as it is not too large. A span with a
run of any characters in front of it is read as the sequence of both.
-/

namespace UrlFilter.Glob

open Regex (Cursor Modes Part Choice Frame Reading Token)

/-! ## Reading a span -/

/-- What a sign adds to the branch that is read. A separator is a group of two branches. -/
def Sign.part (s : Sign) : Part :=
  .node (s.regex foldsAll)
    (match s with
      | .separator => 2
      | _ => 0)

/-- The state that reads spans: only case is ignored. -/
def readingWith (names : List Text) (frames : List Frame) (choice : Choice) : Reading :=
  ⟨{ ignoreCase := true }, names, frames, choice⟩

section

variable (names : List Text) (frames : List Frame)

/-- A character that is not escaped is read as itself. -/
theorem next_plain {c : Char} (h : isEscaped c = false) (u : Text) :
    Token.next false (c :: u) = some (.char c, u) := by
  obtain ⟨hbar, hcaret, hback, hdot, hplus, hstar, hquestion, hopen, hclose, hbracket, hend, hbrace, -,
    hdollar⟩ := isEscaped_eq_false h
  rw [Token.next] <;> simp_all

/-- A character that is escaped is read as itself. -/
theorem next_escaped {c : Char} (h : isEscaped c = true) (u : Text) :
    Token.next false ('\\' :: c :: u) = some (.char c, u) := by
  rw [isEscaped, special_eq] at h
  simp only [Bool.or_eq_true, beq_iff_eq, List.contains_iff_mem, List.mem_cons, List.not_mem_nil,
    or_false] at h
  rcases h with (rfl | rfl) | rfl | rfl | rfl | rfl | rfl | rfl | rfl | rfl | rfl | rfl | rfl | rfl <;>
    rfl

/-- A sign adds its pattern to the branch. -/
theorem Sign.leads (s : Sign) (choice : Choice) (u : Text) :
    (readingWith names frames choice).Leads (s.text ++ u) (readingWith names frames (choice.push s.part))
      u := by
  cases s with
  | literal c =>
    cases h : isEscaped c with
    | true =>
      refine .step rfl (by rw [text, h]; exact next_escaped h u) rfl ?_
      simp only [text, h, if_true, List.cons_append, List.nil_append, List.length_cons]
      omega
    | false => exact .step rfl (by rw [text, h]; exact next_plain h u) rfl (by simp [text, h])
  | separator => exact ⟨5, by simp [text, separator_eq]; omega, fun n => by rw [text, separator_eq]; rfl⟩
  | textStart => exact .step rfl rfl rfl (by simp [text])
  | textEnd => exact .step rfl rfl rfl (by simp [text])

/-- A span adds its parts to the branch. -/
theorem span_leads (ss : List Sign) (branches : List (Regex × Nat)) (parts : List Part) (u : Text) :
    (readingWith names frames ⟨branches, parts⟩).Leads (spanOf ss ++ u)
      (readingWith names frames ⟨branches, (ss.map Sign.part).reverse ++ parts⟩) u := by
  induction ss generalizing parts with
  | nil => exact .refl _ _
  | cons s ss ih =>
    have hs := s.leads names frames ⟨branches, parts⟩ (spanOf ss ++ u)
    have hss := ih (s.part :: parts)
    have h := hs.trans hss
    simpa [spanOf] using h

/-- What the parts of a branch make: the sequence of their patterns, one deeper than they are. -/
theorem branch_parts (branches : List (Regex × Nat)) {parts : List Part} (hdepth : ∀ p ∈ parts, p.depth ≤ 2) :
    ∃ depth ≤ 3, (Choice.mk branches parts.reverse).branch = (Regex.seqAll (parts.filterMap Part.regex?), depth) := by
  have hle : (parts.map Part.depth).foldl max 0 ≤ 2 := by
    refine Regex.foldl_max_le.mpr ⟨Nat.zero_le 2, fun d hd => ?_⟩
    obtain ⟨p, hp, rfl⟩ := List.mem_map.mp hd
    exact hdepth p hp
  rw [Choice.branch]
  simp only [List.reverse_reverse]
  split
  · exact ⟨_, by omega, rfl⟩
  · exact ⟨_, by omega, rfl⟩

/-- A literal and an anchor nest nothing, and the group of a separator is two deep. -/
theorem Sign.depth_part (s : Sign) : s.part.depth ≤ 2 := by
  cases s <;> simp [Sign.part, Part.depth]

/-- The parts that are read of a span are the patterns of its signs. -/
theorem regex?_parts (ss : List Sign) : (ss.map Sign.part).filterMap Part.regex? = ss.map (Sign.regex foldsAll) := by
  induction ss with
  | nil => rfl
  | cons s ss ih => simp [ih, Sign.part, Part.regex?]

/-- A span that begins a branch makes the branch. -/
theorem branch_span (branches : List (Regex × Nat)) (ss : List Sign) :
    ∃ depth ≤ 3, (Choice.mk branches ((ss.map Sign.part).reverse ++ [])).branch =
      (spanRegex foldsAll ss, depth) := by
  obtain ⟨depth, hdepth, hbranch⟩ := @branch_parts branches (ss.map Sign.part) (by simp [Sign.depth_part])
  exact ⟨depth, hdepth, by rw [List.append_nil, hbranch, regex?_parts, spanRegex]⟩

end

/-! ## Reading spans joined by bars -/

/-- What has been read of spans joined by bars: their patterns are the branches, none of which is deep. -/
theorem join_leads (names : List Text) (frames : List Frame) (branches : List (Regex × Nat))
    {sss : List (List Sign)} (hne : sss ≠ []) (hbranches : ∀ b ∈ branches, b.2 ≤ 3) (u : Text) :
    ∃ choice : Choice, (readingWith names frames ⟨branches, []⟩).Leads
        (Text.join ['|'] (sss.map spanOf) ++ u) (readingWith names frames choice) u ∧
      (choice.branch :: choice.branches).reverse.map Prod.fst =
        branches.reverse.map Prod.fst ++ sss.map (spanRegex foldsAll) ∧
      ∀ b ∈ choice.branch :: choice.branches, b.2 ≤ 3 := by
  -- By induction on the spans: each becomes a branch, in front of which the branches before it are finished.
  induction sss generalizing branches with
  | nil => exact absurd rfl hne
  | cons ss sss ih =>
    have hspan := span_leads names frames ss branches []
    obtain ⟨depth, hdepth, hbranch⟩ := branch_span branches ss
    have hdepths : ∀ b ∈ (spanRegex foldsAll ss, depth) :: branches, b.2 ≤ 3 :=
      List.forall_mem_cons.mpr ⟨hdepth, hbranches⟩
    cases sss with
    | nil =>
      refine ⟨_, hspan u, ?_, by rwa [hbranch]⟩
      rw [hbranch]
      simp
    | cons ss' sss =>
      let rest := Text.join ['|'] ((ss' :: sss).map spanOf) ++ u
      have hbar : (readingWith names frames ⟨branches, (ss.map Sign.part).reverse ++ []⟩).Leads ('|' :: rest)
          (readingWith names frames ⟨(spanRegex foldsAll ss, depth) :: branches, []⟩) rest := by
        refine .step rfl rfl ?_ (by simp)
        simp only [Reading.feed, readingWith, hbranch]
      obtain ⟨choice, hrest, hregex, hfinal⟩ := ih ((spanRegex foldsAll ss, depth) :: branches) (by simp) hdepths
      refine ⟨choice, ?_, by simpa using hregex, hfinal⟩
      have h := (hspan ('|' :: rest)).trans (hbar.trans hrest)
      simpa [Text.join, rest] using h

/-- Spans joined by bars are read as the choice between them. -/
theorem parse?_join {sss : List (List Sign)} (hne : sss ≠ []) :
    Regex.parse? { ignoreCase := true } (Text.join ['|'] (sss.map spanOf)) =
      some (Regex.altAll (sss.map (spanRegex foldsAll))) := by
  obtain ⟨choice, hleads, hregex, hdepths⟩ := join_leads [] [] [] hne (by simp) []
  rw [List.append_nil] at hleads
  have hrun := hleads.run_eq rfl
  have hmodes : readingWith [] [] ⟨[], []⟩ = { modes := { ignoreCase := true } } := rfl
  have hle : choice.finish.2 ≤ Regex.maxDepth := Nat.le_trans (Choice.finish_snd_le hdepths) (by decide)
  rw [Regex.parse?, ← hmodes, hrun]
  simp only [Option.bind_some, readingWith, List.isEmpty_nil, if_true, if_pos hle]
  rw [Choice.finish_fst, hregex]
  rfl

/-- A span is read as its pattern. -/
theorem parse?_span (ss : List Sign) :
    Regex.parse? { ignoreCase := true } (spanOf ss) = some (spanRegex foldsAll ss) :=
  @parse?_join [ss] (by simp)

/-! ## Reading a run and a span -/

/-- The run of any characters in front of a span behind an asterisk. -/
def runOpening : Text := "[\\s\\S]*?".toList

/-- The opening of a run, character by character. -/
theorem runOpening_eq : runOpening = ['[', '\\', 's', '\\', 'S', ']', '*', '?'] := by decide

/-- The run is read as a class and a sign that repeats it. -/
theorem runOpening_leads (u : Text) : (readingWith [] [] {}).Leads (runOpening ++ u)
    (readingWith [] [] ⟨[], [.node (.turns (.one anyClass) 0 none false) 1]⟩) u :=
  ⟨2, by simp [runOpening_eq]; omega, fun n => by rw [runOpening_eq]; rfl⟩

/-- A run and a span are read as the pattern of both. -/
theorem parse?_run (ss : List Sign) :
    Regex.parse? { ignoreCase := true } (runOpening ++ spanOf ss) = some (runRegex foldsAll ss) := by
  let run : Part := .node (.turns (.one anyClass) 0 none false) 1
  have hspan := span_leads [] [] ss [] [run] []
  rw [List.append_nil] at hspan
  have hrun := ((runOpening_leads (spanOf ss)).trans hspan).run_eq rfl
  have hparts : (ss.map Sign.part).reverse ++ [run] = (run :: ss.map Sign.part).reverse := by simp
  obtain ⟨depth, hdepth, hbranch⟩ := @branch_parts [] (run :: ss.map Sign.part)
    (List.forall_mem_cons.mpr ⟨by decide, by simp [Sign.depth_part]⟩)
  have hregex : (run :: ss.map Sign.part).filterMap Part.regex? =
      .turns (.one anyClass) 0 none false :: ss.map (Sign.regex foldsAll) := congrArg _ (regex?_parts ss)
  have hmodes : readingWith [] [] {} = { modes := { ignoreCase := true } } := rfl
  have hle : depth ≤ Regex.maxDepth := Nat.le_trans hdepth (by decide)
  rw [hregex] at hbranch
  rw [Regex.parse?, ← hmodes, hrun]
  simp only [Option.bind_some, readingWith, List.isEmpty_nil, if_true, hparts, Choice.finish, hbranch, if_pos hle]
  rfl

end UrlFilter.Glob
