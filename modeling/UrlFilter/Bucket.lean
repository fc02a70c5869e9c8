import UrlFilter.Text

/-!
# Buckets

Rules are kept in fourteen buckets: seven categories, each for the two polarities. A category says how
its rules are matched, a polarity what a match means.
-/

namespace UrlFilter

/-- What happens to a request. -/
inductive Decision where
  | allow
  | block
  deriving Repr, DecidableEq

/-- The word for a decision. -/
def Decision.word : Decision → Text
  | allow => "ALLOW".toList
  | block => "BLOCK".toList

/-- Whether a rule is an exception or blocks. -/
inductive Polarity where
  | good
  | bad
  deriving Repr, DecidableEq

namespace Polarity

/-- Both polarities, in the order in which they are consulted. -/
def all : List Polarity := [good, bad]

/-- The name of the polarity, such as `good`. -/
def name : Polarity → Text
  | good => "good".toList
  | bad => "bad".toList

/-- The decision that a match brings about. -/
def decision : Polarity → Decision
  | good => .allow
  | bad => .block

/-- The polarity of a rule, by whether it is an exception. -/
def ofException (isException : Bool) : Polarity := if isException then good else bad

end Polarity

/-- The way in which a rule is matched. -/
inductive Category where
  /-- `||a.b^`: the host is in a set. -/
  | domainExact
  /-- `||a.b/c.js`: host and path are in a set. -/
  | hostPathExact
  /-- `||a.*.b^`: a pattern over the host. -/
  | domainPattern
  /-- `||a.b/*/c`: a pattern over host and path. -/
  | hostPathPattern
  /-- `||a.b/c?d=*`: a pattern over host, path and query. -/
  | domainGenericPattern
  /-- `/banner/*/img^`: a pattern over the URL, anywhere in it. -/
  | urlFragment
  /-- `/regex/`: a regular expression over the URL. -/
  | rawPattern
  deriving Repr, DecidableEq

namespace Category

/-- All categories, in the order in which they are consulted. -/
def all : List Category :=
  [domainExact, hostPathExact, domainPattern, hostPathPattern, domainGenericPattern, urlFragment,
    rawPattern]

/-- The categories that look at the host alone. -/
def hostOnly : List Category := [domainExact, domainPattern]

/-- The rules of the category are texts of a set. -/
def isExact : Category → Bool
  | domainExact | hostPathExact => true
  | _ => false

/-- The patterns of the category match from the start of the text. -/
def isAnchored : Category → Bool
  | domainPattern | hostPathPattern | domainGenericPattern => true
  | _ => false

/-- The category looks at the host alone. -/
def isHostOnly : Category → Bool
  | domainExact | domainPattern => true
  | _ => false

/-- The name of the category, such as `domain_exact`. -/
def name : Category → Text
  | domainExact => "domain_exact".toList
  | hostPathExact => "host_path_exact".toList
  | domainPattern => "domain_pattern".toList
  | hostPathPattern => "host_path_pattern".toList
  | domainGenericPattern => "domain_generic_pattern".toList
  | urlFragment => "url_fragment".toList
  | rawPattern => "raw_pattern".toList

/-- The category of a name. -/
def ofName? (t : Text) : Option Category := all.find? (·.name == t)

/-- The position among all categories. -/
def index : Category → Nat
  | domainExact => 0
  | hostPathExact => 1
  | domainPattern => 2
  | hostPathPattern => 3
  | domainGenericPattern => 4
  | urlFragment => 5
  | rawPattern => 6

end Category

/-- The bucket of a category and a polarity. -/
structure Bucket where
  category : Category
  polarity : Polarity
  deriving Repr, DecidableEq

namespace Bucket

/-- All buckets, the good ones first. -/
def all : List Bucket := Polarity.all.flatMap fun p => Category.all.map fun c => ⟨c, p⟩

/-- The position among all buckets. -/
def index (b : Bucket) : Nat :=
  match b.polarity with
  | .good => b.category.index
  | .bad => 7 + b.category.index

/-- The name of the bucket, such as `bad_domain_exact`. -/
def name (b : Bucket) : Text := b.polarity.name ++ ['_'] ++ b.category.name

/-- The bucket of a name. -/
def ofName? (t : Text) : Option Bucket := all.find? (·.name == t)

/-- Every bucket is among all of them. -/
theorem mem_all (b : Bucket) : b ∈ all := by
  obtain ⟨c, p⟩ := b
  cases p <;> cases c <;> decide

/-- No bucket is listed twice. -/
theorem nodup_all : all.Nodup := by decide

/-- The buckets are listed by their positions. -/
theorem map_index_all : all.map index = List.range 14 := by decide

/-- A name leads back to its bucket. -/
theorem ofName?_name (b : Bucket) : ofName? b.name = some b := by
  obtain ⟨c, p⟩ := b
  cases p <;> cases c <;> decide

end Bucket

end UrlFilter
