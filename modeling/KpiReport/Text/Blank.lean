/-!
# Blank characters

The characters that are trimmed from both ends of a name: the ASCII white space, the next-line
control, and the spaces and separators of Unicode that are not format characters.
-/

namespace KpiReport.Text

/-- White space in the wide sense, used for trimming names. -/
def isBlank (c : Char) : Bool :=
  let n := c.toNat
  (0x9 ≤ n && n ≤ 0xd) || n == 0x20 || n == 0x85 || n == 0xa0 || n == 0x1680
    || (0x2000 ≤ n && n ≤ 0x200a) || n == 0x2028 || n == 0x2029 || n == 0x202f || n == 0x205f
    || n == 0x3000

/-- The text without the blanks at its two ends. -/
def trim (s : String) : String :=
  String.ofList ((s.toList.dropWhile isBlank).reverse.dropWhile isBlank).reverse

end KpiReport.Text
