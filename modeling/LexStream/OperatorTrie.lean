import LexStream.Text.Quoted
import LexStream.Token.Spelling

/-!
# Operator tries

The lexemes of a table of operators, shared rune by rune: a node is reached by the runes from the
root, carries the kind of the lexeme that ends there, if one does, and leads on to longer ones.  The
longest lexeme at the front of a text is found by going down as long as runes match and falling back
to the last kind passed (`OperatorTrie.longestMatch`).

The branches below a node stand in ascending order of their runes, so tables with the same rows in
any order build the same trie.

Main fact: `OperatorTrie.build_operators`: the operators of `Token.operators` build the trie
`OperatorTrie.standard`.
-/

namespace LexStream

/-- What is wrong with a table of operators that `OperatorTrie.build` is given, or with a trie. -/
inductive TrieError where
  /-- The row for the kind `token` has no rune. -/
  | emptyLexeme (token : Token)
  /-- Two rows spell the same `lexeme`, one for the kind `first` and one for `second`. -/
  | duplicateLexeme (lexeme : String) (first second : Token)
  /-- The node reached by `path` neither ends a lexeme nor leads to one. -/
  | danglingNode (path : String)
deriving DecidableEq

/-- The wording of an error, which names the `lexeme`, the `path` or the kinds at fault. -/
def TrieError.message : TrieError → String
  | .emptyLexeme token => "operator table entry for " ++ token.name ++ " has an empty lexeme"
  | .duplicateLexeme lexeme first second =>
    "lexeme " ++ Text.quoted lexeme ++ " assigned to both " ++ first.name ++ " and " ++ second.name
  | .danglingNode path =>
    "trie node at prefix " ++ Text.quoted path ++ " has no token and no children"

/-- The longest lexeme found at the front of a text: its kind `token` and its number of runes,
`length`. -/
structure OperatorMatch where
  token : Token
  length : Nat
deriving DecidableEq

namespace OperatorTrie

/-- The branches below a node: the first one, with the `children` below it, and the `siblings`
beside it. -/
inductive Branches where
  /-- No branch. -/
  | nil
  /-- A branch for `rune` to a node that carries `token`. -/
  | node (rune : Char) (token : Option Token) (children siblings : Branches)
deriving DecidableEq, Inhabited

/-- A node without the rune that leads to it: its `token`, if a lexeme ends there, and its
`children`. -/
structure Node where
  token : Option Token
  children : Branches

namespace Branches

/-- Whether there is no branch, which is so for `nil` alone. -/
def isEmpty : Branches → Bool
  | .nil => true
  | .node .. => false

/-- The number of branches beside each other, the `children` below them not counted. -/
def size : Branches → Nat
  | .nil => 0
  | .node _ _ _ siblings => siblings.size + 1

/-- The number of runes of the longest way down, over all branches. -/
def depth : Branches → Nat
  | .nil => 0
  | .node _ _ children siblings => max (children.depth + 1) siblings.depth

/-- The node that the rune `r` leads to. -/
def find? (r : Char) : Branches → Option Node
  | .nil => none
  | .node rune token children siblings =>
    if rune = r then some ⟨token, children⟩ else siblings.find? r

/-- The node that a row of runes leads to; `[]` leads to no node. -/
def walk? (b : Branches) : List Char → Option Node
  | [] => none
  | [r] => b.find? r
  | r :: rs => (b.find? r).bind fun node => node.children.walk? rs

/-- A single way down along the runes `r :: rs`, with `siblings` beside its first branch. -/
def path (r : Char) (rs : List Char) (t : Token) (siblings : Branches) : Branches :=
  match rs with
  | [] => .node r (some t) .nil siblings
  | r' :: rs' => .node r none (path r' rs' t .nil) siblings

/-- Adds the lexeme `r :: rs` of the kind `t`.  Fails with the kind that the lexeme has already. -/
def insert (r : Char) (rs : List Char) (t : Token) : Branches → Except Token Branches
  | .nil => .ok (path r rs t .nil)
  | .node rune token children siblings =>
    if r = rune then
      match rs with
      | [] =>
        match token with
        | none => .ok (.node rune (some t) children siblings)
        | some first => .error first
      | r' :: rs' => (children.insert r' rs' t).map fun b => .node rune token b siblings
    else if r < rune then .ok (path r rs t (.node rune token children siblings))
    else (siblings.insert r rs t).map fun b => .node rune token children b

/-- The runes to the first node that neither carries a kind nor leads on, from a node that is
reached by `path`. -/
def dangling? (path : List Char) : Branches → Option (List Char)
  | .nil => none
  | .node rune token children siblings =>
    let here := path ++ [rune]
    if token.isNone && children.isEmpty then some here
    else (children.dangling? here).or (siblings.dangling? path)

/-- Goes down along the rune `r` and the runes that `peek` shows after it.  The node that `r` leads
to is `length` runes deep, and `best` is the longest lexeme passed before.  A rune is looked at only
where some lexeme goes on. -/
def descend {m : Type → Type} [Monad m] (peek : Nat → m (Option Char)) (length : Nat)
    (best : Option OperatorMatch) (r : Char) : Branches → m (Option OperatorMatch)
  | .nil => pure best
  | .node rune token children siblings =>
    if rune = r then
      let best := (token.map fun t => ⟨t, length⟩).or best
      if children.isEmpty then pure best
      else do
        match ← peek (length - 1) with
        | some next => children.descend peek (length + 1) best next
        | none => pure best
    else siblings.descend peek length best r

end Branches

end OperatorTrie

/-- The lexemes of a table of operators as a tree of runes.  `build` makes one. -/
structure OperatorTrie where
  /-- The branches for the first runes. -/
  roots : OperatorTrie.Branches
  /-- The number of runes of the longest lexeme, the `depth` of `roots`. -/
  maxDepth : Nat
deriving DecidableEq, Inhabited

namespace OperatorTrie

/-- The trie without lexemes, whose `roots` are `nil`. -/
def empty : OperatorTrie := ⟨.nil, 0⟩

/-- Adds the rows of a table to `b` one after the other, up to the first one whose lexeme is empty
or repeated. -/
def insertAll (b : Branches) : List (String × Token) → Except TrieError Branches
  | [] => .ok b
  | (lexeme, t) :: rows =>
    match lexeme.toList with
    | [] => .error (.emptyLexeme t)
    | r :: rs =>
      match b.insert r rs t with
      | .ok b' => insertAll b' rows
      | .error first => .error (.duplicateLexeme lexeme first t)

/-- The trie with the branches `b`, if every one of them leads to a lexeme. -/
def ofBranches (b : Branches) : Except TrieError OperatorTrie :=
  match b.dangling? [] with
  | none => .ok ⟨b, b.depth⟩
  | some path => .error (.danglingNode (String.ofList path))

/-- The trie of the `table`, or the first offence in it. -/
def build (table : List (String × Token)) : Except TrieError OperatorTrie :=
  match insertAll .nil table with
  | .ok b => ofBranches b
  | .error e => .error e

/-- The number of runes that start a lexeme: the `size` of `roots`. -/
def size (t : OperatorTrie) : Nat :=
  t.roots.size

/-- Whether there is no lexeme: whether `roots` is `nil`. -/
def isEmpty (t : OperatorTrie) : Bool :=
  t.roots.isEmpty

/-- The node that the runes `rs` lead to from the `roots`. -/
def walk? (t : OperatorTrie) (rs : List Char) : Option Node :=
  t.roots.walk? rs

/-- Finds the longest lexeme that starts with the rune `first` and goes on with the runes that
`peek` shows, of which the first has the number zero. -/
def longestMatch {m : Type → Type} [Monad m] (t : OperatorTrie) (first : Char)
    (peek : Nat → m (Option Char)) : m (Option OperatorMatch) :=
  t.roots.descend peek 1 none first

/-- The trie of the operators and the punctuation, the table `Token.operators`. -/
def standard : OperatorTrie :=
  match build Token.operators with
  | .ok t => t
  | .error _ => empty

/-- The table `Token.operators` builds a trie, so `standard` is no stand-in. -/
theorem build_operators : build Token.operators = .ok standard := by
  have h : (build Token.operators).isOk = true := by decide +kernel
  unfold standard
  split
  next t ht => exact ht
  next e he => rw [he] at h; cases h

end OperatorTrie

end LexStream
