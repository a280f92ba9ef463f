/-!
Blank characters, and text without the blanks around it.

`isBlank` is the Unicode notion of white space together with the four
information separators U+001C to U+001F.  The zero width space and the byte
order mark are not blank.
-/

namespace SageNotation.Text

def isBlank (character : Char) : Bool :=
  let code := character.toNat
  (9 ≤ code && code ≤ 13) || (28 ≤ code && code ≤ 32) ||
    code == 0x85 || code == 0xA0 || code == 0x1680 ||
    (0x2000 ≤ code && code ≤ 0x200A) ||
    code == 0x2028 || code == 0x2029 || code == 0x202F ||
    code == 0x205F || code == 0x3000

def trimStart (text : List Char) : List Char :=
  text.dropWhile isBlank

def trimEnd (text : List Char) : List Char :=
  (text.reverse.dropWhile isBlank).reverse

def trimChars (text : List Char) : List Char :=
  trimEnd (trimStart text)

def trim (text : String) : String :=
  String.ofList (trimChars text.toList)

def allBlank (text : String) : Bool :=
  text.toList.all isBlank

theorem toList_trim (text : String) :
    (trim text).toList = trimChars text.toList := by
  simp [trim]

end SageNotation.Text
