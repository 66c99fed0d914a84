import LexStream.Position
import LexStream.Text.Quoted
import LexStream.Token

/-!
# Items

A token where it stands in a text: its position, its kind and its spelling.  The spelling is exact,
so a literal keeps its sentinel and its brackets.
-/

namespace LexStream

/-- One token of a text: where it starts (`pos`), its kind (`token`) and how it is spelled
(`text`). -/
structure Item where
  pos : Position
  token : Token
  text : String
deriving DecidableEq, Inhabited

/-- An item is shown as its `pos`, its `token` and its `text` in quotes. -/
instance : ToString Item where
  toString i := toString i.pos ++ " " ++ i.token.name ++ " " ++ Text.quoted i.text

end LexStream
