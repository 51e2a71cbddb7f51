/-!
# White space

The Unicode property White_Space decides what is trimmed from the ends of a text. The script
language itself separates its tokens by four ASCII characters only; those belong to the script's
lexer.
-/

namespace Snippet.Text

/-- The Unicode property White_Space. -/
def isBlank (c : Char) : Bool :=
  let n := c.toNat
  0x09 ≤ n && n ≤ 0x0d || n == 0x20 || n == 0x85 || n == 0xa0 || n == 0x1680 ||
    0x2000 ≤ n && n ≤ 0x200a || n == 0x2028 || n == 0x2029 || n == 0x202f || n == 0x205f ||
    n == 0x3000

/-- The text without the white space in front of it. -/
def trimStart (s : List Char) : List Char :=
  s.dropWhile isBlank

/-- The text without the white space around it. -/
def trim (s : String) : String :=
  String.ofList (trimStart (trimStart s.toList).reverse).reverse

end Snippet.Text
