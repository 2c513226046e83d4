/-
Scalars without quotes. One ends before a colon or a comment that stands apart, at brackets
and commas inside brackets, and where a line is no longer indented far enough.
-/
import StaleDocs.Yaml.Cursor

namespace StaleDocs.Yaml

/-- A word of a plain scalar onto the characters in `out`, last first. Inside brackets a colon
right before some marks is an error. -/
def plainWord? (flow : Bool) (out : List Char) : List Char → Option (List Char)
  | [] => some out
  | c :: cs =>
    if isSpace c then some out
    else if c = ':' && flow && (cs.head?.any fun x => [',', '?', '[', ']', '{', '}'].contains x) then
      none
    else if c = ':' && startsBlank cs then some out
    else if flow && [',', '[', ']', '{', '}'].contains c then some out
    else plainWord? flow (c :: out) cs

/-- Whether a tab stands in the indentation of a line; the run starts at a column. -/
def tabInIndent (indent : Int) (column : Nat) (newLine : Bool) : List Char → Bool
  | [] => false
  | c :: cs =>
    if isBreak c then tabInIndent indent 0 true cs
    else (c = '\t' && newLine && column < indent) || tabInIndent indent (column + 1) newLine cs

/-- A plain scalar: its text, and whether it ended after the end of a line. -/
structure PlainScan where
  text : List Char
  endedLine : Bool
  cursor : Cursor

/-- The rest of a plain scalar onto the characters in `out`, last first, after the blanks
`pending`, in at most `fuel` words. -/
def scanPlain (flow : Bool) (indent : Int) (out pending : List Char) :
    (fuel : Nat) → Cursor → Option PlainScan
  | 0, _ => none
  | fuel + 1, c =>
    let done : PlainScan := ⟨out.reverse, pending.any isBreak, c⟩
    if c.atDocumentMark || c.sees '#' then some done
    else
      match plainWord? flow [] c.rest with
      | none => none
      | some [] => some done
      | some word =>
        let out := word ++ (foldSpace pending).reverse ++ out
        let c := c.skip word.length
        let (run, next) := c.span isSpace
        if tabInIndent indent c.column false run then none
        else if run.isEmpty || (!flow && next.column < indent) then
          some ⟨out.reverse, run.any isBreak, next⟩
        else scanPlain flow indent out run fuel next

end StaleDocs.Yaml
