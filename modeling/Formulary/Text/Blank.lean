import Formulary.Text.CodeRanges

/-!
# Blank characters and line ends

Two sets of layout characters. The blanks are the characters that trimming removes around a name
or a number; the line ends are the characters at which a text falls into lines. A carriage return
and the line feed after it end one line together.
-/

namespace Formulary.Text

/-- The **blank ranges**: white space and the separators of every script. -/
def blankRanges : CodeRanges :=
  [(0x09, 0x0D), (0x1C, 0x20), (0x85, 0x85), (0xA0, 0xA0), (0x1680, 0x1680), (0x2000, 0x200A),
   (0x2028, 0x2029), (0x202F, 0x202F), (0x205F, 0x205F), (0x3000, 0x3000)]

/-- Whether the character is blank. -/
def isBlank (c : Char) : Bool :=
  blankRanges.holds c

/-- Drops the characters of a class at both ends of a text. -/
def trimBy (p : Char → Bool) (cs : List Char) : List Char :=
  ((cs.dropWhile p).reverse.dropWhile p).reverse

/-- The text without blanks at its ends. -/
def trim (s : String) : String :=
  String.ofList (trimBy isBlank s.toList)

/-- The **line-end ranges**: line feed, vertical tab, form feed, carriage return, the information
separators, next line, and the line and paragraph separators. -/
def lineEndRanges : CodeRanges :=
  [(0x0A, 0x0D), (0x1C, 0x1E), (0x85, 0x85), (0x2028, 0x2029)]

/-- Whether the character ends a line. -/
def isLineEnd (c : Char) : Bool :=
  lineEndRanges.holds c

/-- The **lines** of a text, without the characters that end them. A carriage return and line
feed in a row leave an empty line between them here, so the result suits readers that skip empty
lines. -/
def looseLines (cs : List Char) : List (List Char) :=
  go [] [] cs
where
  /-- Collects the current line and the finished lines, both in reverse. -/
  go (line : List Char) (lines : List (List Char)) : List Char → List (List Char)
    | [] => (line.reverse :: lines).reverse
    | c :: rest =>
      if isLineEnd c then go [] (line.reverse :: lines) rest else go (c :: line) lines rest

end Formulary.Text
