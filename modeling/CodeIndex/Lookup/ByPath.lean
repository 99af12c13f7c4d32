import CodeIndex.Index.Cache
import CodeIndex.Language.Blocks
import CodeIndex.Lookup.Comparison
import CodeIndex.Lookup.InDocument

/-!
# CodeIndex.Lookup.ByPath

The lookups by path. Each of them asks for the document of the path first, and so parses a file that
is not in the cache.
-/

namespace CodeIndex
namespace Action

def captures (path query : String) : Action (List Capture) := do
  let d ← document path none none
  ofExcept (Capture.list (← setup).engine.queryFault? d query)

def elements (path kind : String) : Action (List Element) := do
  let d ← document path none none
  return Element.list d kind

def enclosing (path : String) (p : Point) : Action (Option String) := do
  let d ← document path none none
  return Enclosing.text? d (Language.blocks (← setup).blocks d.language) p

def comparison (path : String) (language content : Option String) : Action Comparison := do
  let d ← document path language content
  Comparison.ofNode d.textOf d.tree.root d.text

end Action
end CodeIndex
