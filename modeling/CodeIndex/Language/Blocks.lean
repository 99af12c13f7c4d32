import CodeIndex.Table

/-!
# CodeIndex.Language.Blocks

The kinds of nodes that count as a block, such as a function or a class. Some kinds are blocks in
every language and each language adds its own. A setting for a language replaces both.
-/

namespace CodeIndex
namespace Language

def commonBlocks : List String :=
  ["function_declaration", "method_definition", "class_declaration", "arrow_function"]

def ownBlocks : Table (List String) := [
  ("javascript", ["function_expression", "generator_function_declaration"]),
  ("typescript", ["function_expression", "generator_function_declaration", "interface_declaration",
    "abstract_class_declaration"]),
  ("tsx", ["function_expression", "generator_function_declaration", "interface_declaration",
    "abstract_class_declaration"]),
  ("python", ["function_definition", "class_definition"]),
  ("go", ["method_declaration", "func_literal", "type_declaration"]),
  ("java", ["method_declaration", "constructor_declaration", "interface_declaration",
    "enum_declaration", "record_declaration"]),
  ("rust", ["function_item", "impl_item", "struct_item", "enum_item", "trait_item",
    "closure_expression"]),
  ("ruby", ["method", "singleton_method", "class", "module"]),
  ("c", ["function_definition", "struct_specifier"]),
  ("cpp", ["function_definition", "class_specifier", "struct_specifier", "lambda_expression"]),
  ("csharp", ["method_declaration", "constructor_declaration", "interface_declaration",
    "struct_declaration"])]

def blocks (settings : Table (List String)) (language : String) : List String :=
  (settings.get? language).getD (commonBlocks ++ (ownBlocks.get? language).getD [])

end Language
end CodeIndex
