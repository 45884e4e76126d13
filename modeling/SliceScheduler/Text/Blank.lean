/-!
# Blank characters

Which characters count as white space, and the text that is left when white space is taken off
both ends. A field of a job or of a configuration is missing when it has nothing but blanks.
-/
namespace SliceScheduler.Text

/-- The characters that have the White_Space property. -/
def isBlank (c : Char) : Bool :=
  let n := c.toNat
  (0x09 ≤ n && n ≤ 0x0D) || n == 0x20 || n == 0x85 || n == 0xA0 || n == 0x1680 ||
    (0x2000 ≤ n && n ≤ 0x200A) || n == 0x2028 || n == 0x2029 || n == 0x202F || n == 0x205F ||
    n == 0x3000

/-- Takes the blanks off the front. -/
def dropBlanks (cs : List Char) : List Char :=
  cs.dropWhile isBlank

/-- Takes the blanks off both ends. -/
def stripChars (cs : List Char) : List Char :=
  (dropBlanks (dropBlanks cs).reverse).reverse

/-- The text without the blanks at either end. -/
def strip (s : String) : String :=
  String.ofList (stripChars s.toList)

/-- No character other than blanks. -/
def isBlankText (s : String) : Bool :=
  s.toList.all isBlank

end SliceScheduler.Text
