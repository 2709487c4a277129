import DocWeaver.Model.Declaration
import DocWeaver.Data.Slice
import DocWeaver.Text.Lines

/-!
The code around a declaration that a prompt shows: the declaration's own lines first, then as
many of the lines before it, up to `lines` of them, as fit in the character budget. When the
declaration alone reaches the budget it is cut to the budget.
-/

namespace DocWeaver.Extract

def fitLeading (budget : Int) : List String → List String → List String
  | acc, [] => acc
  | acc, l :: rest =>
    if (l.length : Int) + 1 > budget then acc
    else fitLeading (budget - l.length - 1) (l :: acc) rest

/-- The context of a declaration in a text cut into the lines `ls`: its full lines, preceded by
up to `lines` earlier lines as the budget of `chars` characters allows. -/
def contextInLines (ls : List String) (d : Declaration) (lines chars : Int) : String :=
  let start : Int := (d.full.startLine : Int) - 1
  let stop : Int := min (ls.length : Int) d.full.endLine
  let body := "\n".intercalate (List.sliceBy ls start stop)
  if (body.length : Int) ≥ chars then String.sliceBy body 0 chars
  else
    let before := List.sliceBy ls (max 0 (start - lines)) start
    "\n".intercalate (fitLeading (chars - body.length) [] before.reverse ++ [body])

def declarationContext (text : String) (d : Declaration) (lines chars : Int) : String :=
  contextInLines (Text.splitLines text) d lines chars

end DocWeaver.Extract
