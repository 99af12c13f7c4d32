import CodeIndex.Index.TokenCount
import CodeIndex.Syntax.Concrete
import CodeIndex.Syntax.Thin

/-!
# CodeIndex.Lookup.Comparison

The token counts of a source, of its concrete tree and of its thin tree, with both trees.
-/

namespace CodeIndex

structure Comparison where
  sourceTokens : Nat
  concreteTokens : Nat
  thinTokens : Nat
  concrete : Concrete
  thin : Option Thin

namespace Comparison

def toValue (c : Comparison) : Value :=
  .obj ([("original_token_count", .int c.sourceTokens),
    ("cst_token_count", .int c.concreteTokens), ("ast_token_count", .int c.thinTokens),
    ("cst", c.concrete.data)] ++ Thin.field "ast" (c.thin.map Thin.data))

/-- The trees start at `root`; the source that they are compared with is given apart. -/
def ofNode (text : Node → String) (root : Node) (source : String) : Action Comparison := do
  let concrete := Concrete.ofNode text root
  let thin := Thin.ofNode? text root
  let sourceTokens ← Action.tokensOf source
  let concreteTokens ← Action.tokensOf concrete.compactText
  let thinTokens ← Action.tokensOf (Thin.compactText thin)
  return ⟨sourceTokens, concreteTokens, thinTokens, concrete, thin⟩

end Comparison
end CodeIndex
