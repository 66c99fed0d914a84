import LexStream.Unicode.RangeTable

/-!
# White space

The runes with the property White_Space, as Unicode 17.0.0 lists them.  The separators U+001C to
U+001F are not among them; the next line control U+0085 is.
-/

namespace LexStream.Unicode

/-- The ranges of the property `White_Space`. -/
def whiteSpace : RangeTable := [
  (0x09, 0x0D), (0x20, 0x20), (0x85, 0x85), (0xA0, 0xA0), (0x1680, 0x1680), (0x2000, 0x200A),
  (0x2028, 0x2029), (0x202F, 0x202F), (0x205F, 0x205F), (0x3000, 0x3000)]

end LexStream.Unicode
