/-!
# Characters of YAML texts

A YAML text is made of printable characters, tabs and line breaks. The classes here decide where a
token ends and what a name or a tag may hold. A text that ends is `none` where a character is
expected, and counts as the end of a word.
-/
namespace SliceScheduler.Yaml

/-- The characters that a text may have. -/
def isAllowed (c : Char) : Bool :=
  let n := c.toNat
  n == 0x09 || n == 0x0A || n == 0x0D || (0x20 ≤ n && n ≤ 0x7E) || n == 0x85 ||
    (0xA0 ≤ n && n ≤ 0xD7FF) || (0xE000 ≤ n && n ≤ 0xFFFD) || 0x10000 ≤ n

/-- The mark that tells the order of bytes. Where a line starts it is passed over, and takes a
column. -/
def byteOrderMark : Char := '\uFEFF'

/-- A space or a tab. -/
def isSpace (c : Char) : Bool := c == ' ' || c == '\t'

/-- The characters that end a line. -/
def isBreak (c : Char) : Bool :=
  c == '\n' || c == '\r' || c == '\u0085' || c == '\u2028' || c == '\u2029'

/-- A space, a tab or the end of a line. -/
def isGap (c : Char) : Bool := isSpace c || isBreak c

/-- The end of a line or of the text. -/
def endsLine (c : Option Char) : Bool := c.all isBreak

/-- The end of a word: a space, a tab, the end of the line or of the text. -/
def endsWord (c : Option Char) : Bool := c.all isGap

/-- The characters of names of anchors, directives and tag handles. -/
def isNameChar (c : Char) : Bool := c.isAlphanum || c == '_' || c == '-'

/-- The characters of a tag beside those of names. Brackets and commas may stand only where the tag
is set apart from what follows it. -/
def isTagChar (enclosed : Bool) (c : Char) : Bool :=
  isNameChar c || ";/?:@&=+$.%!~*'()".contains c || (enclosed && ",[]".contains c)

/-- The characters that may follow the name of an anchor, beside the end of a word. -/
def isAnchorStop (c : Char) : Bool := "?:,]\x7d%@\x60".contains c

/-- The characters that begin, end or part the entries of a flow collection. -/
def isFlowMark (c : Char) : Bool := ",[]\x7b\x7d".contains c

/-- The characters that no plain scalar starts with, unless what follows them makes up for it. -/
def isIndicator (c : Char) : Bool := "-?:,[]\x7b\x7d#&*!|>'\"%@\x60".contains c

end SliceScheduler.Yaml
