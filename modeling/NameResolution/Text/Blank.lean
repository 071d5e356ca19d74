/-!
# Blanks — the characters that separate tokens

The white space of Unicode together with the four information separators of ASCII. Zero-width
characters are no blanks.
-/

namespace NameResolution.Text

/-- Whether `c` is white space. -/
def isBlank (c : Char) : Bool :=
  ('\t' ≤ c && c ≤ '\r') || ('\x1c' ≤ c && c ≤ ' ') || c = '\x85' || c = '\u00a0' || c = '\u1680' ||
    ('\u2000' ≤ c && c ≤ '\u200a') || c = '\u2028' || c = '\u2029' || c = '\u202f' ||
    c = '\u205f' || c = '\u3000'

end NameResolution.Text
