/-!
# CodeIndex.Text.Space

Characters that take up space, and no more.

* Blank characters: the white space of Unicode together with the four information separators U+001C to
  U+001F. `trim` removes them at both ends of a text.
* Line ends of a file: a carriage return with the line feed after it, or alone, is one line feed.
-/

namespace CodeIndex

def isBlank (c : Char) : Bool :=
  let n := c.toNat
  (0x09 ≤ n && n ≤ 0x0D) || (0x1C ≤ n && n ≤ 0x20) || n == 0x85 || n == 0xA0 || n == 0x1680 ||
    (0x2000 ≤ n && n ≤ 0x200A) || n == 0x2028 || n == 0x2029 || n == 0x202F || n == 0x205F ||
    n == 0x3000

def trim (text : List Char) : List Char :=
  ((text.dropWhile isBlank).reverse.dropWhile isBlank).reverse

namespace Newline

def normalize : List Char → List Char
  | [] => []
  | '\r' :: '\n' :: text => '\n' :: normalize text
  | c :: text => (if c = '\r' then '\n' else c) :: normalize text

theorem not_mem_normalize (text : List Char) : '\r' ∉ normalize text := by
  fun_induction normalize text with
  | case1 => simp
  | case2 text ih => simpa using ih
  | case3 c text _ ih =>
    simp only [List.mem_cons, not_or]
    refine ⟨?_, ih⟩
    split
    · decide
    · rename_i hc
      exact fun h => hc h.symm

end Newline
end CodeIndex
