/-
Documentation that may be stale after a change of code: what changed, which documentation is
about it, whether a judge finds the two in agreement, and how that is reported.
-/
import StaleDocs.Files.Disk
import StaleDocs.Judge.Scripted
import StaleDocs.Main
import StaleDocs.Report.Json
import StaleDocs.Repository.Snapshot
import StaleDocs.Proofs.Symbol.Modified
import StaleDocs.Proofs.Diff.RoundTrip
import StaleDocs.Proofs.Docs.StartLines
import StaleDocs.Proofs.Relevance.Grouping
import StaleDocs.Proofs.Relevance.Mentions
import StaleDocs.Proofs.Relevance.Passes
import StaleDocs.Proofs.Relevance.FencedCode
import StaleDocs.Proofs.Check.Pairs
import StaleDocs.Proofs.Check.Verdicts
import StaleDocs.Proofs.Diff.Listing
import StaleDocs.Proofs.Diff.Concat
import StaleDocs.Proofs.Diff.NormalForm
import StaleDocs.Proofs.Diff.Patterns
import StaleDocs.Proofs.Diff.Faults
import StaleDocs.Proofs.Diff.Stability
import StaleDocs.Proofs.Repository.Uncommitted
import StaleDocs.Proofs.Docs.Fences
import StaleDocs.Proofs.Docs.Sections
import StaleDocs.Proofs.Docs.Blocks
import StaleDocs.Proofs.Report.Escapes
import StaleDocs.Proofs.Report.Annotations
import StaleDocs.Proofs.Check.Candidates
import StaleDocs.Proofs.Check.Bindings
import StaleDocs.Proofs.Symbol.Locality
import StaleDocs.Proofs.Symbol.OldCode
import StaleDocs.Proofs.Go.TopLevel
import StaleDocs.Proofs.Check.BoundNames
import StaleDocs.Proofs.Json.Tokens
import StaleDocs.Proofs.Json.RoundTrip
import StaleDocs.Proofs.Json.Records
import StaleDocs.Proofs.Relevance.Reducing
import StaleDocs.Proofs.Docs.Rescan
import StaleDocs.Proofs.Docs.BoundBlocks
import StaleDocs.Proofs.Docs.WrittenBlocks
import StaleDocs.Proofs.Go.Remainder
import StaleDocs.Proofs.Go.Placement
import StaleDocs.Proofs.Docs.Attachment
import StaleDocs.Proofs.Symbol.GroupMembers
import StaleDocs.Proofs.Symbol.BlankNames
import StaleDocs.Proofs.Settings.JudgeKey
import StaleDocs.Proofs.Relevance.CodeNames
import StaleDocs.Proofs.Json.Objects
import StaleDocs.Proofs.Judge.Replies
import StaleDocs.Proofs.Go.Endings
import StaleDocs.Proofs.Go.SourceEndings
import StaleDocs.Proofs.Go.LexemeEnds
import StaleDocs.Proofs.Go.Siblings
import StaleDocs.Proofs.Go.DeclaredText
import StaleDocs.Proofs.Text.Encoding
import StaleDocs.Proofs.Diff.Decoding
import StaleDocs.Proofs.Relevance.SubWords
