/-
  LayeredConfig/Text/Blank.lean
  =============================
  **White space.**

  Trimming, token bodies and argument lists all speak of the same white space:
  the 25 characters with Unicode's `White_Space` property.  Zero-width space,
  the byte-order mark and the ASCII separators U+001C–U+001F are not among
  them.
-/

namespace LayeredConfig.Text

/-- The characters with Unicode's `White_Space` property. -/
def isBlank (c : Char) : Bool :=
  let n := c.toNat
  (0x09 ≤ n && n ≤ 0x0D) || n == 0x20 || n == 0x85 || n == 0xA0 || n == 0x1680
    || (0x2000 ≤ n && n ≤ 0x200A) || n == 0x2028 || n == 0x2029 || n == 0x202F
    || n == 0x205F || n == 0x3000

def allBlank (s : List Char) : Bool := s.all isBlank

def trimStart (s : List Char) : List Char := s.dropWhile isBlank

def trimEnd (s : List Char) : List Char := (s.reverse.dropWhile isBlank).reverse

def trim (s : List Char) : List Char := trimEnd (trimStart s)

theorem trimStart_cons (c : Char) (s : List Char) :
    trimStart (c :: s) = if isBlank c then trimStart s else c :: s := by
  simp only [trimStart, List.dropWhile_cons]

end LayeredConfig.Text
