/-!
# White space

The characters with the Unicode property `White_Space`.  They are more than
the blanks that separate tokens: a text may be blank to a reader and still
hold characters that no token can start with.
-/

namespace ScopedLisp

/-- Whether a character has the Unicode property `White_Space`. -/
def isWhiteSpace (character : Char) : Bool :=
  let code := character.toNat
  (0x09 ≤ code && code ≤ 0x0d) || code == 0x20 || code == 0x85 ||
    code == 0xa0 || code == 0x1680 || (0x2000 ≤ code && code ≤ 0x200a) ||
    code == 0x2028 || code == 0x2029 || code == 0x202f || code == 0x205f ||
    code == 0x3000

/-- Whether a text is nothing but white space. -/
def isAllWhiteSpace (text : String) : Bool :=
  text.toList.all isWhiteSpace

end ScopedLisp
