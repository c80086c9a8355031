import CodeIndex.Chunk.Grouping
import CodeIndex.Chunk.Merging
import CodeIndex.Chunk.Splitting

/-! From a syntax tree to fragments: structural fragments, or else the whole file; then splitting
the large ones and joining the small ones. -/

namespace CodeIndex.Chunk

open CodeIndex.Syntax

def wholeFile (source : List Char) (tree : Tree) : Fragment :=
  ⟨0, source, 1, max (Text.lineCount source) 1, .code, tree.label.kind⟩

/-- The fragments before splitting: those of the structure, or the whole file when there is none
and it is not blank. -/
def fragments (source : List Char) (tree : Tree) : List Fragment :=
  match structural source (matches_ source tree) with
  | [] => if Text.isAllBlank source then [] else [wholeFile source tree]
  | found => found

def number (fs : List Fragment) : List Fragment := fs.zipIdx.map fun (f, i) => { f with id := i }

/-- The fragments of a parsed source. -/
def chunk (o : Options) (source : List Char) (tree : Tree) : Except Fault (List Fragment) := do
  let pieces ← (fragments source tree).mapM (split o)
  return number (← merge o pieces.flatten)

end CodeIndex.Chunk
