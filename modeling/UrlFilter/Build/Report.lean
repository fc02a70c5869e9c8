import UrlFilter.Bucket
import UrlFilter.Rule.Drop

/-!
# Reports

What became of the lines of all lists and of the rules of each bucket.
-/

namespace UrlFilter

/-- What became of the rules of a bucket. -/
structure BucketReport where
  bucket : Bucket
  /-- The rules that reached the bucket. -/
  admitted : Nat := 0
  /-- Those that do not repeat another. -/
  unique : Nat := 0
  /-- Those cut by the limit on their number. -/
  truncated : Nat := 0
  /-- Those cut by the limit on wildcards. -/
  wildcardDropped : Nat := 0
  /-- Those whose patterns could not be joined. -/
  compileDropped : Nat := 0
  /-- Those that are left. -/
  finalCount : Nat := 0
  /-- The wildcards of the rules. -/
  wildcards : Nat := 0
  deriving Repr, DecidableEq

/-- What became of the lines and rules of a compilation. -/
structure Report where
  /-- The number of lists. -/
  sources : Nat := 0
  tally : Tally := {}
  buckets : List BucketReport := []
  deriving Repr, DecidableEq

/-- The report on a bucket as a JSON value. -/
def BucketReport.toJson (r : BucketReport) : Json :=
  .record [
    ("bucket", .text r.bucket.name),
    ("admitted", .nat r.admitted),
    ("unique", .nat r.unique),
    ("truncated", .nat r.truncated),
    ("wildcard_dropped", .nat r.wildcardDropped),
    ("compile_dropped", .nat r.compileDropped),
    ("final_count", .nat r.finalCount),
    ("wildcards", .nat r.wildcards)]

namespace Report

/-- The report on a bucket. -/
def bucket? (r : Report) (b : Bucket) : Option BucketReport := r.buckets.find? (·.bucket == b)

/-- The rules that are left in all buckets. -/
def totalRules (r : Report) : Nat := (r.buckets.map (·.finalCount)).sum

/-- The report as a JSON value. -/
def toJson (r : Report) : Json :=
  .record [
    ("sources", .nat r.sources),
    ("drops", r.tally.toJson),
    ("buckets", .array (r.buckets.map BucketReport.toJson))]

end Report

end UrlFilter
