import UrlFilter.Regex.Parser

/-!
# Expressions of patterns with memory

What a pattern with look-around, back-references, atomic groups and conditions says, as it is read.
An expression is plain when it uses none of these; a plain one is a pattern without memory.
-/

namespace UrlFilter.Backtrack

open Regex (Look)

/-- What a group around a position asks of the text there. -/
inductive Around where
  | ahead
  | notAhead
  | behind
  | notBehind
  deriving Repr, DecidableEq

/-- A pattern as it is read. -/
inductive Expr where
  | empty
  /-- Any character, a line feed among them or not. -/
  | any (lineFeeds : Bool)
  | look (l : Look)
  | literal (c : Char) (folds : Bool)
  /-- A class, by its text. -/
  | set (source : Text) (folds : Bool)
  | concat (es : List Expr)
  | alt (es : List Expr)
  | group (k : Nat) (e : Expr)
  | around (k : Around) (e : Expr)
  | turns (e : Expr) (lo : Nat) (hi : Option Nat) (greedy : Bool)
  /-- The text that group `k` matched last. -/
  | reference (k : Nat)
  /-- The first way in which `e` matches, and no other. -/
  | atomic (e : Expr)
  /-- Moves the start of the reported match; whether there is one does not change. -/
  | keepOut
  /-- The position where the search began. -/
  | searchStart
  /-- Group `k` has matched. -/
  | captured (k : Nat)
  | conditional (c t f : Expr)
  deriving Repr

namespace Expr

/-- The expression matches a condition on the position alone, or nothing: it takes no repetition. -/
def isRepeatable : Expr → Bool
  | empty | look _ | around _ _ => false
  | _ => true

/-- Whether an expression is the empty one. -/
def isEmpty : Expr → Bool
  | empty => true
  | _ => false

/-! ## Sizes -/

/-- The least number of characters an expression matches, whether it matches no other number, and
whether it needs memory. -/
structure Info where
  least : Nat
  fixed : Bool
  hard : Bool
  deriving Repr, DecidableEq

/-- A condition on words; it is not handed over as part of a pattern without memory. -/
def isWordLook : Look → Bool
  | .wordBoundary _ | .notWordBoundary _ | .wordStart _ | .wordEnd _ | .wordStartHalf _
  | .wordEndHalf _ => true
  | .textStart | .textEnd | .lineStart _ | .lineEnd _ => false

/-- What a branch adds to the sizes of the branches in front of it. -/
def Info.orElse (a b : Info) : Info :=
  ⟨min a.least b.least, a.fixed && (b.fixed && a.least == b.least), a.hard || b.hard⟩

/-- What a part adds to the sizes of the parts in front of it. -/
def Info.andThen (a b : Info) : Info :=
  ⟨a.least + b.least, a.fixed && b.fixed, a.hard || b.hard⟩

mutual

/-- The sizes of an expression; `refs` are the groups that something refers to. -/
def info (refs : List Nat) : Expr → Info
  | empty => ⟨0, true, false⟩
  | any _ => ⟨1, true, false⟩
  | look l => ⟨0, true, isWordLook l⟩
  | literal _ _ => ⟨1, true, false⟩
  | set _ _ => ⟨1, true, false⟩
  | concat es => (infos refs es).foldl Info.andThen ⟨0, true, false⟩
  | alt es =>
    match infos refs es with
    | [] => ⟨0, true, false⟩
    | i :: is => is.foldl Info.orElse i
  | group k e => let i := info refs e; { i with hard := i.hard || refs.contains k }
  | around _ _ => ⟨0, true, true⟩
  | turns e lo hi _ => let i := info refs e; ⟨i.least * lo, i.fixed && hi == some lo, i.hard⟩
  | reference _ => ⟨0, false, true⟩
  | atomic e => { info refs e with hard := true }
  | keepOut => ⟨0, true, true⟩
  | searchStart => ⟨0, true, true⟩
  | captured _ => ⟨0, true, true⟩
  | conditional c t f =>
    let c := info refs c
    let t := info refs t
    let f := info refs f
    ⟨c.least + min t.least f.least,
      c.fixed && t.fixed && f.fixed && c.least + t.least == f.least, true⟩

/-- The sizes of the expressions of a list. -/
def infos (refs : List Nat) : List Expr → List Info
  | [] => []
  | e :: es => info refs e :: infos refs es

end

/-! ## Plain expressions -/

mutual

/-- The expression is a text, compared letter by letter. -/
def isText : Expr → Bool
  | literal _ folds => !folds
  | concat es => areTexts es
  | _ => false

/-- All expressions of a list are texts. -/
def areTexts : List Expr → Bool
  | [] => true
  | e :: es => isText e && areTexts es

end

/-- A choice between branches, some of which are empty: an empty branch comes last wherever it
stood. -/
def choice (empties : List Bool) (rs : List Regex) : Regex :=
  if empties.any id then
    let others := ((empties.zip rs).filter (!·.1)).map Prod.snd
    .turns (if others.isEmpty then .empty else Regex.altAll others) 0 (some 1) true
  else Regex.altAll rs

mutual

/-- The pattern without memory that a plain expression stands for. -/
def toRegex? : Expr → Option Regex
  | empty => some .empty
  | any lineFeeds => some (.one ({ dotAll := lineFeeds : Regex.Modes }.dot))
  | look l => some (.look l)
  | literal c folds => some (.one (.literal folds c))
  | set source folds => Regex.parse? { ignoreCase := folds } source
  | concat es => (toRegexes? es).map Regex.seqAll
  | alt es => (toRegexes? es).map fun rs => choice (es.map isEmpty) rs
  | group _ e => toRegex? e
  | turns e lo hi greedy =>
    if hi.all (lo ≤ ·) && lo ≤ Regex.Token.maxTurns && hi.all (· ≤ Regex.Token.maxTurns) then
      (toRegex? e).map fun r => .turns r lo hi greedy
    else none
  | _ => none

/-- The patterns of a list of plain expressions. -/
def toRegexes? : List Expr → Option (List Regex)
  | [] => some []
  | e :: es => (toRegex? e).bind fun r => (toRegexes? es).map (r :: ·)

end

end Expr

end UrlFilter.Backtrack
