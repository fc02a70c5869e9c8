import UrlFilter.Unicode.PropertyTables
import UrlFilter.Regex.CharClass

/-!
# Named character properties

What stands between the braces of `\p{…}`: the name of a general category, a script or a binary
property, or a property and its value. Names are compared without case, blanks, hyphens and
underscores, and without `is` in front.
-/

namespace UrlFilter.Unicode

open Regex (CharClass)

/-- The ranges of a table entry: hexadecimal numbers and pairs of them with a hyphen, between blanks. -/
def rangesOfEntry (entry : Text) : List (Nat × Nat) :=
  let words := (Text.parts ' ' (entry.map fun c => if Text.isBlank c then ' ' else c)).filter (· ≠ [])
  words.filterMap fun w =>
    match Text.splitFirst '-' w with
    | some (lo, hi) => (Text.hexToNat? lo).bind fun lo => (Text.hexToNat? hi).map fun hi => (lo, hi)
    | none => (Text.hexToNat? w).map fun n => (n, n)

/-- The name as it is compared. -/
def looseName (name : Text) : Text :=
  let bare := (name.map Char.toLower).filter fun c =>
    c.toNat < 128 && c != '_' && c != '-' && !Text.isBlank c
  match Text.after? "is".toList bare with
  | some rest => if rest = "c".toList then bare else rest
  | none => bare

/-- The class of the table entry that goes by a name. -/
def row? (table : List (List String × String)) (name : Text) : Option CharClass :=
  (table.find? fun (names, _) => names.any fun n => n.toList == name).map fun (_, entry) =>
    .ranges (rangesOfEntry entry.toList)

/-- The names of the categories that are unions, with the first letters of their parts. -/
def unionCategories : List (List String × List String) := [
  (["l", "letter"], ["lu", "ll", "lt", "lm", "lo"]),
  (["lc", "casedletter"], ["lu", "ll", "lt"]),
  (["m", "mark", "combiningmark"], ["mn", "mc", "me"]),
  (["n", "number"], ["nd", "nl", "no"]),
  (["p", "punctuation", "punct"], ["pc", "pd", "ps", "pe", "pi", "pf", "po"]),
  (["s", "symbol"], ["sm", "sc", "sk", "so"]),
  (["z", "separator"], ["zs", "zl", "zp"])]

/-- The union of all entries of the table of categories. -/
def assigned : CharClass :=
  .ranges (categoryTable.flatMap fun (_, entry) => rangesOfEntry entry.toList)

/-- The characters in no category of the table. -/
def unassigned : CharClass := .compl assigned

/-- The class of a general category. -/
def category? (name : Text) : Option CharClass :=
  if name = "any".toList then some .all
  else if name = "ascii".toList then some (.ranges [(0, 127)])
  else if name = "assigned".toList then some assigned
  else if name = "cn".toList || name = "unassigned".toList then some unassigned
  else if name = "c".toList || name = "other".toList then
    ["cc", "cf", "co"].foldlM (fun acc n => (row? categoryTable n.toList).map (.union acc))
      unassigned
  else
    match unionCategories.find? fun (names, _) => names.any fun n => n.toList == name with
    | some (_, members) =>
      members.foldlM (fun acc n => (row? categoryTable n.toList).map (.union acc)) .none
    | none => row? categoryTable name

/-- The class of a script. -/
def script? (name : Text) : Option CharClass := row? scriptTable name

/-- The class that a lone name stands for: a binary property before a category before a script, but
`cf`, `sc` and `lc` are categories. -/
def named? (name : Text) : Option CharClass :=
  let name := looseName name
  let shared := ["cf", "sc", "lc"].any fun n => n.toList == name
  ((if shared then none else row? binaryTable name).or (category? name)).or (script? name)

/-- The class of a property and its value. -/
def valued? (property value : Text) : Option CharClass :=
  let property := looseName property
  let is (names : List String) : Bool := names.any fun n => n.toList == property
  if is ["gc", "generalcategory"] then category? (looseName value)
  else if is ["sc", "script", "scx", "scriptextensions"] then script? (looseName value)
  else none

/-- The text `op` in `t`, with what stands before and after its first occurrence. -/
def splitAtOperator (op : Text) : Text → Option (Text × Text)
  | [] => none
  | c :: t =>
    match Text.after? op (c :: t) with
    | some rest => some ([], rest)
    | none => (splitAtOperator op t).map fun (a, b) => (c :: a, b)

/-- The class that the text between the braces stands for. The operator `!=` comes before `:` and that
before `=`. -/
def property? (query : Text) : Option CharClass :=
  match splitAtOperator "!=".toList query with
  | some (p, v) => (valued? p v).map .compl
  | none =>
    match Text.splitFirst ':' query with
    | some (p, v) => valued? p v
    | none =>
      match Text.splitFirst '=' query with
      | some (p, v) => valued? p v
      | none => named? query

end UrlFilter.Unicode
