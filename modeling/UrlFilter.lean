import UrlFilter.Cli.Disk
import UrlFilter.Main
import UrlFilter.Proofs.Alternation.Expressions
import UrlFilter.Proofs.Alternation.Making
import UrlFilter.Proofs.Alternation.Recovery
import UrlFilter.Proofs.Alternation.Scanner
import UrlFilter.Proofs.Alternation.Slices
import UrlFilter.Proofs.Alternation.Splitting
import UrlFilter.Proofs.Alternation.Structure
import UrlFilter.Proofs.Backtrack.Branches
import UrlFilter.Proofs.Backtrack.Enclosed
import UrlFilter.Proofs.Backtrack.Joined
import UrlFilter.Proofs.Backtrack.Mentions
import UrlFilter.Proofs.Backtrack.Pairs
import UrlFilter.Proofs.Backtrack.Plain
import UrlFilter.Proofs.Backtrack.Reading
import UrlFilter.Proofs.Backtrack.Renumbering
import UrlFilter.Proofs.Backtrack.Separate
import UrlFilter.Proofs.Build.Accounting
import UrlFilter.Proofs.Build.Buckets
import UrlFilter.Proofs.Build.Budget
import UrlFilter.Proofs.Build.Continuation
import UrlFilter.Proofs.Build.Cuts
import UrlFilter.Proofs.Build.Feeds
import UrlFilter.Proofs.Build.Interleaving
import UrlFilter.Proofs.Build.Jobs
import UrlFilter.Proofs.Build.Ordinals
import UrlFilter.Proofs.Build.Priority
import UrlFilter.Proofs.Build.Repeats
import UrlFilter.Proofs.Build.Scan
import UrlFilter.Proofs.Build.Selection
import UrlFilter.Proofs.Build.Success
import UrlFilter.Proofs.Build.Wildcards
import UrlFilter.Proofs.Cli.Sessions
import UrlFilter.Proofs.Cli.Storage
import UrlFilter.Proofs.Glob.Accepted
import UrlFilter.Proofs.Glob.Alternation
import UrlFilter.Proofs.Glob.Case
import UrlFilter.Proofs.Glob.Chunk
import UrlFilter.Proofs.Glob.Compiled
import UrlFilter.Proofs.Glob.Covers
import UrlFilter.Proofs.Glob.Language
import UrlFilter.Proofs.Glob.Marks
import UrlFilter.Proofs.Glob.Numbering
import UrlFilter.Proofs.Glob.Outline
import UrlFilter.Proofs.Glob.Patterns
import UrlFilter.Proofs.Glob.Plain
import UrlFilter.Proofs.Glob.Renumbered
import UrlFilter.Proofs.Glob.Single
import UrlFilter.Proofs.Glob.Starred
import UrlFilter.Proofs.Glob.Trimmed
import UrlFilter.Proofs.Glob.Ways
import UrlFilter.Proofs.Lookup.Case
import UrlFilter.Proofs.Lookup.Http
import UrlFilter.Proofs.Lookup.Names
import UrlFilter.Proofs.Lookup.Offsets
import UrlFilter.Proofs.Policy.Settings
import UrlFilter.Proofs.Policy.Unions
import UrlFilter.Proofs.Regex.Classes
import UrlFilter.Proofs.Regex.Enclosed
import UrlFilter.Proofs.Regex.Ends
import UrlFilter.Proofs.Regex.Entries
import UrlFilter.Proofs.Regex.Escaped
import UrlFilter.Proofs.Regex.Position
import UrlFilter.Proofs.Regex.Reading
import UrlFilter.Proofs.Regex.Repetition
import UrlFilter.Proofs.Regex.Separate
import UrlFilter.Proofs.Regex.Signs
import UrlFilter.Proofs.Rule.Anchors
import UrlFilter.Proofs.Rule.Grammar
import UrlFilter.Proofs.Rule.Indentation
import UrlFilter.Proofs.Rule.Placement
import UrlFilter.Proofs.Rule.References
import UrlFilter.Proofs.Rule.Runs
import UrlFilter.Proofs.Rule.Sections
import UrlFilter.Proofs.Rule.Shape
import UrlFilter.Proofs.Rule.Trimmed
import UrlFilter.Proofs.RuleBase.Assembly
import UrlFilter.Proofs.RuleBase.BlockedHosts
import UrlFilter.Proofs.RuleBase.Case
import UrlFilter.Proofs.RuleBase.Hosts
import UrlFilter.Proofs.RuleBase.Layout
import UrlFilter.Proofs.RuleBase.Pages
import UrlFilter.Proofs.RuleBase.Precedence
import UrlFilter.Proofs.RuleBase.Representation
import UrlFilter.Proofs.RuleBase.StarredHosts
import UrlFilter.Proofs.RuleBase.Subdomains
import UrlFilter.Proofs.Snapshot.Canonical
import UrlFilter.Proofs.Snapshot.RoundTrip
import UrlFilter.Proofs.Text.Bytes
import UrlFilter.Proofs.Text.Cutting
import UrlFilter.Proofs.Text.Lower
import UrlFilter.Proofs.Text.Numeral
import UrlFilter.Proofs.Text.Trimming
import UrlFilter.Proofs.Unicode.Folding
