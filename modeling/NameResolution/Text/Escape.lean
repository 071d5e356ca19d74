/-!
# Hexadecimal escapes — a code point in a fixed number of digits
-/

namespace NameResolution.Text

/-- The hexadecimal digits of `n`, in lower case, with zeros in front up to `width` digits. -/
def hexDigits (width n : Nat) : List Char :=
  let digits := Nat.toDigits 16 n
  List.replicate (width - digits.length) '0' ++ digits

end NameResolution.Text
