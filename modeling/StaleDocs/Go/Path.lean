/-
Which paths hold hand-written Go source: those with the extension `go`, apart from tests,
generated files, and everything below a vendored or test data directory.
-/
import StaleDocs.Text.Path

namespace StaleDocs.Go

/-- Endings of the names of tests and generated files. -/
def derivedEndings : List String :=
  ["_test.go", ".pb.go", ".pb.gw.go", "_gen.go", "_generated.go"]

/-- Directories whose files are not read. -/
def skippedDirectories : List String := ["vendor", "testdata"]

/-- Whether a path names a hand-written source file; a backslash separates like a slash. -/
def isSourcePath (path : String) : Bool :=
  match (Text.components (Text.slashed path)).reverse with
  | [] => false
  | file :: directories =>
    Text.afterLastPoint? file.toList = some "go".toList &&
      !derivedEndings.any (Text.endsWith file) && !Text.startsWith file "zz_generated" &&
      !directories.any skippedDirectories.contains

end StaleDocs.Go
