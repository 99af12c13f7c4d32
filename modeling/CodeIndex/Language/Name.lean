import CodeIndex.Path
import CodeIndex.Table
import CodeIndex.Text.Case
import CodeIndex.Text.Space

/-!
# CodeIndex.Language.Name

Names of languages, and the language of a file by the suffix of its name.

* `normalize` brings every spelling and alias of a language to the name of its grammar; a name without an
  alias is only trimmed and put into lower case.
* `detect` goes by the suffix, in any case, and gives it back when no language is known for it; `choose`
  prefers a language that is named.
-/

namespace CodeIndex
namespace Language

def aliases : Table String := [
  ("c#", "csharp"), ("csharp", "csharp"), ("cpp", "cpp"), ("c++", "cpp"), ("cs", "csharp"),
  ("css", "css"), ("go", "go"), ("golang", "go"), ("html", "html"), ("java", "java"),
  ("javascript", "javascript"), ("js", "javascript"), ("json", "json"), ("python", "python"),
  ("py", "python"), ("rb", "ruby"), ("ruby", "ruby"), ("rs", "rust"), ("rust", "rust"),
  ("ts", "typescript"), ("tsx", "tsx"), ("typescript", "typescript"), ("c", "c")]

/-- Without blanks at the ends, and in lower case. -/
def fold (name : String) : String := String.ofList (lower (trim name.toList))

def normalize (name : String) : String := (aliases.get? (fold name)).getD (fold name)

def suffixes : Table String := [
  (".c", "c"), (".cc", "cpp"), (".cpp", "cpp"), (".cs", "csharp"), (".cxx", "cpp"), (".go", "go"),
  (".h", "c"), (".hh", "cpp"), (".hpp", "cpp"), (".htm", "html"), (".html", "html"),
  (".java", "java"), (".js", "javascript"), (".json", "json"), (".jsx", "javascript"),
  (".mjs", "javascript"), (".cjs", "javascript"), (".py", "python"), (".rb", "ruby"),
  (".rs", "rust"), (".css", "css"), (".ts", "typescript"), (".tsx", "tsx")]

def suffixOf (path : String) : String := String.ofList (lower (Path.suffix (Path.fileName path)))

def detect (path : String) : Except String String :=
  match suffixes.get? (suffixOf path) with
  | some language => .ok language
  | none => .error (suffixOf path)

/-- An empty name counts as none. -/
def choose (named : Option String) (path : String) : Except String String :=
  match named with
  | some name => if name = "" then detect path else .ok (normalize name)
  | none => detect path

end Language
end CodeIndex
