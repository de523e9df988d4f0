import DocScaffold.Text.Range

/-!
# Blanks and line breaks

The whitespace of Unicode 14, together with the four ASCII separators `U+001C` to `U+001F`, and the
characters that end a line.
-/

namespace DocScaffold.Text

def blankRanges : Ranges := [
    (0x09, 0x0D), (0x1C, 0x20), (0x85, 0x85), (0xA0, 0xA0), (0x1680, 0x1680), (0x2000, 0x200A),
    (0x2028, 0x2029), (0x202F, 0x202F), (0x205F, 0x205F), (0x3000, 0x3000)]

def isBlank (c : Char) : Bool := blankRanges.has c.toNat

def lineBreakRanges : Ranges := [
    (0x0A, 0x0D), (0x1C, 0x1E), (0x85, 0x85), (0x2028, 0x2029)]

def isLineBreak (c : Char) : Bool := lineBreakRanges.has c.toNat

theorem isBlank_of_isLineBreak (c : Char) (h : isLineBreak c = true) : isBlank c = true := by
  simp only [isLineBreak, isBlank, lineBreakRanges, blankRanges, Ranges.has] at h ⊢
  repeat' split at h
  all_goals simp_all
  all_goals omega

end DocScaffold.Text
