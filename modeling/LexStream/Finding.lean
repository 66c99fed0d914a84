import LexStream.LexError

/-!
# Findings

What one step of a scan finds: an item and, when the item is illegal, the remark that says why.
-/

namespace LexStream

/-- Why an item is illegal. -/
inductive Remark where
  /-- The rune `r` at `pos` starts no token. -/
  | strayRune (pos : Position) (r : Char)
  /-- The numeral has the mark `r` already and is dropped. -/
  | repeatedMark (pos : Position) (r : Char) (numeral : String)
deriving DecidableEq

/-- The wording of a remark, which starts with its `pos`. -/
def Remark.message : Remark → String
  | .strayRune pos r => toString pos ++ ": unexpected character " ++ Text.quotedRune r
  | .repeatedMark pos r numeral =>
    toString pos ++ ": repeated " ++ Text.quotedRune r ++ " in number literal " ++
      Text.quoted numeral

/-- An `item` and the `remark` that explains it, if its token is `illegal`. -/
structure Finding where
  item : Item
  remark : Option Remark := none
deriving DecidableEq

namespace Finding

/-- The finding of a token that starts at `start`. -/
def ofToken (start : Position) (token : Token) (text : String) : Finding :=
  ⟨⟨start, token, text⟩, none⟩

/-- The finding of the illegal rune `r`. -/
def illegal (pos : Position) (r : Char) (remark : Remark) : Finding :=
  ⟨⟨pos, .illegal, String.singleton r⟩, some remark⟩

end Finding

end LexStream
