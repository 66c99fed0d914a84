import LexStream.Proofs.Restart
import Mathlib.Data.List.TakeWhile

/-!
# Words and symbols

A name, a reserved word or a truth value is a row of name runes that nothing lengthens: the rune
behind it, if there is one, is no name rune.  The first rune of it is neither the underscore, which
is an operator, nor an ASCII digit, which starts a numeral; any other letter or number may start it.
What kind it has is read off its spelling.  A symbol is a colon and such a row, which may be empty
and may start with any name rune, and no equals sign stands behind the colon.

A word is found wherever a rune that starts words is the next one behind the blanks
(`Scanner.gives_item_of_word`).  The scan of an item gives only one item there, so every word among
the items of a text is the longest one that starts at its place.

Main facts:

* `Token.classifies_ofWord`: the kind of a word says how it is spelled, and its spelling which kind
  it has;
* `Scanner.nameRow_of_word`, `Scanner.nameRow_of_symbol`: the words and symbols that are found go on
  as far as name runes do;
* `Lexer.words_of_results`: the words and symbols among the items of a text, and the texts that are
  one word.
-/

namespace LexStream

open Grammar

/-! ### The kinds of words -/

namespace Token

/-- Whether words have the kind `t`: names, truth values and reserved words. -/
def isWord (t : Token) : Bool :=
  t == .ident || t == .bool || t.isKeyword

/-- The kind `t` is the one of the word `word`. -/
structure Classifies (t : Token) (word : String) : Prop where
  bool : t = .bool ↔ word = "true" ∨ word = "false"
  reserved : ∀ kind : Token, kind.isKeyword = true →
    (t = kind ↔ kind.reservedWord? = some word)
  ident : t = .ident ↔
    word ≠ "true" ∧ word ≠ "false" ∧ ∀ kind : Token, kind.reservedWord? ≠ some word

theorem isBoolWord_iff {word : String} :
    isBoolWord word = true ↔ word = "true" ∨ word = "false" := by
  unfold isBoolWord boolWords
  simp

/-- Each reserved word has one kind, and each kind one reserved word: `ofReservedWord?` and
`reservedWord?` are inverse to each other. -/
theorem ofReservedWord?_eq_some_iff {word : String} {t : Token} :
    ofReservedWord? word = some t ↔ t.reservedWord? = some word := by
  rw [reservedWord?_eq_some_iff]
  constructor
  · intro h
    obtain ⟨before, behind, hrows, -⟩ := List.lookup_eq_some_iff.1 h
    rw [hrows]
    exact List.mem_append_right before List.mem_cons_self
  · intro h
    have hall : ∀ row ∈ reservedWords, ofReservedWord? row.1 = some row.2 := by decide
    exact hall _ h

/-- No reserved `word` is a truth value, and none stands for `ident` or `bool`. -/
theorem of_reservedWord? {word : String} {t : Token} (h : t.reservedWord? = some word) :
    isBoolWord word = false ∧ t ≠ .bool ∧ t ≠ .ident := by
  have hall : ∀ row ∈ reservedWords,
      isBoolWord row.1 = false ∧ row.2 ≠ .bool ∧ row.2 ≠ .ident := by decide
  exact hall _ ((reservedWord?_eq_some_iff t word).1 h)

/-- The kind `ofWord word` of a `word` is the one that its spelling has. -/
theorem classifies_ofWord (word : String) : (ofWord word).Classifies word := by
  unfold ofWord
  by_cases hbool : isBoolWord word = true
  · have hspelled := isBoolWord_iff.1 hbool
    have hnone : ∀ kind : Token, kind.reservedWord? ≠ some word := by
      intro kind hkind
      have hfalse := (of_reservedWord? hkind).1
      cases hfalse.symm.trans hbool
    rw [if_pos hbool]
    refine ⟨iff_of_true rfl hspelled, fun kind hkeyword => ?_, iff_of_false (by decide) ?_⟩
    · refine iff_of_false ?_ (hnone kind)
      rintro rfl
      cases hkeyword
    · rintro ⟨htrue, hfalse, -⟩
      exact hspelled.elim htrue hfalse
  · have hspelled : ¬(word = "true" ∨ word = "false") := fun h => hbool (isBoolWord_iff.2 h)
    rw [if_neg hbool]
    cases hword : ofReservedWord? word with
    | none =>
      have hnone : ∀ kind : Token, kind.reservedWord? ≠ some word := by
        intro kind hkind
        cases hword.symm.trans (ofReservedWord?_eq_some_iff.2 hkind)
      refine ⟨iff_of_false (by decide) hspelled, fun kind hkeyword => ?_, ?_⟩
      · refine iff_of_false ?_ (hnone kind)
        rintro rfl
        cases hkeyword
      · exact iff_of_true rfl ⟨fun h => hspelled (.inl h), fun h => hspelled (.inr h), hnone⟩
    | some t =>
      have ht := ofReservedWord?_eq_some_iff.1 hword
      obtain ⟨-, hnotBool, hnotIdent⟩ := of_reservedWord? ht
      refine ⟨iff_of_false hnotBool hspelled, fun kind _ => ⟨?_, fun hkind => ?_⟩,
        iff_of_false hnotIdent fun h => h.2.2 t ht⟩
      · rintro rfl
        exact ht
      · have hsome := ofReservedWord?_eq_some_iff.2 hkind
        exact Option.some.inj (hword.symm.trans hsome)

theorem isWord_ofWord (word : String) : (ofWord word).isWord = true := by
  have hall : ∀ t ∈ Token.bool :: .ident :: reservedWords.map (·.2), t.isWord = true := by decide
  exact hall _ (ofWord_mem word)

end Token

/-! ### Rows of name runes -/

/-- Whether a word may start with the rune `r`. -/
def Rune.startsWord (r : Char) : Bool :=
  isNameRune r && r != '_' && !r.isDigit

namespace Grammar

/-- The row `name` of name runes is followed by the runes `behind`, of which the first, if there is
one, is no name rune. -/
structure NameRow (name behind : List Char) : Prop where
  runes : ∀ r ∈ name, Rune.isNameRune r = true
  ends : ∀ r ∈ behind.head?, Rune.isNameRune r = false

/-- Every `text` starts with the longest row of name runes, which `List.takeWhile` gives. -/
theorem nameRow_takeWhile (text : List Char) :
    NameRow (text.takeWhile Rune.isNameRune) (text.dropWhile Rune.isNameRune) where
  runes := fun r hr => List.mem_takeWhile_imp hr
  ends := by
    intro r hr
    have hhead := List.head?_dropWhile_not Rune.isNameRune text
    rw [Option.mem_def.1 hr] at hhead
    exact hhead

theorem startsWord_iff {r : Char} :
    Rune.startsWord r = true ↔ Rune.isNameRune r = true ∧ r ≠ '_' ∧ r.isDigit = false := by
  simp [Rune.startsWord, and_assoc]

/-- A token whose kind `isWord` is a word. -/
theorem Lexeme.exists_word {rs : List Char} {token : Token} (h : Lexeme rs token)
    (htoken : token.isWord = true) :
    ∃ first rest, rs = first :: rest ∧ Rune.startsWord first = true ∧
      (∀ r ∈ rest, Rune.isNameRune r = true) ∧ token = Token.ofWord (String.ofList rs) := by
  cases h with
  | newline => cases htoken
  | operator h =>
    have hall : ∀ row ∈ Token.operators, row.2.isWord = false := by decide
    cases (hall _ h).symm.trans htoken
  | @literal kind rs h => cases kind <;> cases htoken
  | symbol => cases htoken
  | whole => cases htoken
  | decimal => split at htoken <;> cases htoken
  | @word first rest hfirst hunderscore hdigit hrest =>
    exact ⟨first, rest, rfl, startsWord_iff.2 ⟨hfirst, hunderscore, hdigit⟩, hrest, rfl⟩

/-- A token of the kind `symbol` is a colon and a row of name runes. -/
theorem Lexeme.exists_symbol {rs : List Char} {token : Token} (h : Lexeme rs token)
    (htoken : token = .symbol) :
    ∃ name, rs = ':' :: name ∧ ∀ r ∈ name, Rune.isNameRune r = true := by
  cases h with
  | newline => cases htoken
  | operator h =>
    have hall : ∀ row ∈ Token.operators, row.2 ≠ .symbol := by decide
    exact absurd htoken (hall _ h)
  | @literal kind rs h => cases kind <;> cases htoken
  | @symbol name h => exact ⟨name, rfl, h⟩
  | whole => cases htoken
  | decimal => split at htoken <;> cases htoken
  | @word first rest =>
    have hword := Token.isWord_ofWord (String.ofList (first :: rest))
    rw [htoken] at hword
    cases hword

end Grammar

/-! ### What is found at a place -/

namespace Scanner

variable {start p : Position} {first : Char} {bs rest name behind : List Char}

theorem gives_word (h : NameRow rest behind) (p : Position) :
    (word start first).Gives p rest behind
      (.ofToken start (Token.ofWord (String.ofList (first :: rest)))
        (String.ofList (first :: rest))) := by
  rw [← singleton_append_ofList]
  exact (Run.gives_scanClass h.runes h.ends p).bind_stay (Scan.gives_pure _ _ behind)

theorem gives_symbol (h : NameRow name behind) (p : Position) :
    (symbol start).Gives p name behind
      (.ofToken start .symbol (String.ofList (':' :: name))) := by
  rw [← singleton_append_ofList]
  exact (Run.gives_scanClass h.runes h.ends p).bind_stay (Scan.gives_pure _ _ behind)

/-- A rune `first` that starts words and is the next one behind the blanks `bs` starts a word, which
goes on as far as name runes do. -/
theorem gives_item_of_word (hblanks : ∀ r ∈ bs, Rune.isBlank r = true)
    (hfirst : Rune.startsWord first = true) (h : NameRow rest behind) :
    item.Gives p (bs ++ first :: rest) behind
      (.ofToken (p.advanceAll bs) (Token.ofWord (String.ofList (first :: rest)))
        (String.ofList (first :: rest))) := by
  obtain ⟨hname, hunderscore, hdigit⟩ := startsWord_iff.1 hfirst
  have hspace : Rune.isSpace first = false := by
    refine eq_false_of_ne_true fun hspace => ?_
    cases (Rune.not_isNameRune_of_isSpace hspace).symm.trans hname
  have hnewline : first ≠ '\n' := by
    rintro rfl
    cases hspace
  have hblank : Rune.isBlank first = false := by
    rw [Rune.isBlank, hspace, Bool.and_false]
  refine gives_item_of_token hblanks hblank (gives_token_of_none hnewline ?_ ?_)
  · exact no_operator_starts (.inr (.inr ⟨hname, hunderscore⟩))
  · rw [otherToken_of_isNameRune hdigit hname]
    exact gives_word h _

/-- A colon behind the blanks `bs` starts a symbol, unless `=` follows. -/
theorem gives_item_of_symbol (hblanks : ∀ r ∈ bs, Rune.isBlank r = true) (h : NameRow name behind)
    (hnext : (name ++ behind).head? ≠ some '=') :
    item.Gives p (bs ++ ':' :: name) behind
      (.ofToken (p.advanceAll bs) .symbol (String.ofList (':' :: name))) := by
  refine gives_item_of_token hblanks (by decide) (gives_token_of_none (by decide) ?_ ?_)
  · intro row hrow hpre
    obtain ⟨rs, hruns, hrs⟩ := exists_rest_of_operator hrow hpre
    -- The operator would go on with the equals sign.
    obtain rfl := colon_operator hrow hruns
    obtain ⟨rest, hrest⟩ := hrs
    rw [← hrest] at hnext
    exact hnext rfl
  · exact gives_symbol h _

/-- A colon and `=` behind the blanks `bs` are the operator `define`. -/
theorem gives_item_of_define (hblanks : ∀ r ∈ bs, Rune.isBlank r = true) :
    item.Gives p (bs ++ [':', '=']) behind (.ofToken (p.advanceAll bs) .define ":=") := by
  refine gives_item_of_token hblanks (by decide) ?_
  have hlongest : ∀ row ∈ Token.operators, row.1.toList <+: ':' :: ['='] ++ behind →
      row.1.length ≤ (':' :: ['=']).length := by
    intro row hrow hpre
    obtain ⟨rs, hruns, -⟩ := exists_rest_of_operator hrow hpre
    obtain rfl := colon_operator hrow hruns
    rw [← String.length_toList, hruns]
  have hdefine : (":=", Token.define) ∈ Token.operators := by decide
  have hoperator : (operator? (p.advanceAll bs) ':').Gives ((p.advanceAll bs).advance ':') ['=']
      behind (some (.ofToken (p.advanceAll bs) .define ":=")) :=
    Scan.Local.gives_operator _ hdefine rfl hlongest
  unfold token
  rw [if_neg (by decide)]
  exact hoperator.bind_stay (Scan.gives_pure _ _ behind)

/-! ### What stands behind words and symbols -/

variable {c c' : Cursor Source} {us : List Char} {kind : Token} {found found' : Finding}

/-- The scan of an item finds one thing at a place: what `item` has `found` is what it gives
there. -/
theorem found_eq_of_gives (hc : c.Faces p (us ++ behind)) (hgives : item.Gives p us behind found')
    (hrun : item.run c = (.ok found, c')) : found = found' := by
  obtain ⟨d, hrun', -⟩ := hgives c hc
  exact Except.ok.inj (Prod.mk.inj (hrun.symm.trans hrun')).1

/-- The row of name runes that stands in front of `behind` is the longest one if it is the one that
the scan has found. -/
theorem nameRow_of_spelled (h : String.ofList (first :: name) =
      String.ofList (first :: (name ++ behind).takeWhile Rune.isNameRune)) :
    NameRow name behind := by
  have hname : name = (name ++ behind).takeWhile Rune.isNameRune :=
    (List.cons.inj (String.ofList_injective h)).2
  have hrow := nameRow_takeWhile (name ++ behind)
  have hsplit : (name ++ behind).takeWhile Rune.isNameRune ++
      (name ++ behind).dropWhile Rune.isNameRune = name ++ behind :=
    List.takeWhile_append_dropWhile
  rw [← hname] at hrow hsplit
  rwa [List.append_cancel_left hsplit] at hrow

/-- A word `first :: rest` that is found goes on as far as name runes do. -/
theorem nameRow_of_word (hc : c.Faces p (bs ++ first :: rest ++ behind))
    (hblanks : ∀ r ∈ bs, Rune.isBlank r = true) (hfirst : Rune.startsWord first = true)
    (hrun : item.run c =
      (.ok (.ofToken (p.advanceAll bs) kind (String.ofList (first :: rest))), c')) :
    NameRow rest behind := by
  have htext : bs ++ first :: rest ++ behind =
      bs ++ first :: (rest ++ behind).takeWhile Rune.isNameRune ++
        (rest ++ behind).dropWhile Rune.isNameRune := by
    simp
  rw [htext] at hc
  have hword := gives_item_of_word (p := p) hblanks hfirst (nameRow_takeWhile (rest ++ behind))
  have hfound := found_eq_of_gives hc hword hrun
  exact nameRow_of_spelled (congrArg (·.item.text) hfound)

/-- A symbol with the `name` that is found goes on as far as name runes do, and no `=` stands behind
its colon. -/
theorem nameRow_of_symbol (hc : c.Faces p (bs ++ ':' :: name ++ behind))
    (hblanks : ∀ r ∈ bs, Rune.isBlank r = true)
    (hrun : item.run c =
      (.ok (.ofToken (p.advanceAll bs) .symbol (String.ofList (':' :: name))), c')) :
    NameRow name behind ∧ (name ++ behind).head? ≠ some '=' := by
  have hnext : (name ++ behind).head? ≠ some '=' := by
    intro hequals
    obtain ⟨rest, hrest⟩ := List.head?_eq_some_iff.1 hequals
    have htext : bs ++ ':' :: name ++ behind = bs ++ [':', '='] ++ rest := by
      simp [hrest]
    rw [htext] at hc
    have hfound := found_eq_of_gives hc (gives_item_of_define (p := p) hblanks) hrun
    -- The operator would have been found, and it is no symbol.
    cases congrArg (·.item.token) hfound
  refine ⟨?_, hnext⟩
  have htext : bs ++ ':' :: name ++ behind =
      bs ++ ':' :: (name ++ behind).takeWhile Rune.isNameRune ++
        (name ++ behind).dropWhile Rune.isNameRune := by
    simp
  rw [htext] at hc
  have hsymbol := gives_item_of_symbol (p := p) hblanks (nameRow_takeWhile (name ++ behind))
    (by rwa [List.takeWhile_append_dropWhile])
  have hfound := found_eq_of_gives hc hsymbol hrun
  exact nameRow_of_spelled (congrArg (·.item.text) hfound)

end Scanner

/-! ### The items of a text -/

/-- What the runes of an item say when it is a word or a symbol, where the runes `behind` follow it
in the text. -/
structure Item.Named (item : Item) (behind : List Char) : Prop where
  word : item.token.isWord = true →
    (∃ first rest, item.text.toList = first :: rest ∧ Rune.startsWord first = true ∧
      NameRow rest behind) ∧ item.token.Classifies item.text
  symbol : item.token = .symbol →
    ∃ name, item.text.toList = ':' :: name ∧ NameRow name behind ∧
      (name ++ behind).head? ≠ some '='

/-- Of items of another kind `Named` says nothing. -/
theorem Item.Named.of_token {item : Item} {behind : List Char} (hword : item.token.isWord = false)
    (hsymbol : item.token ≠ .symbol) : item.Named behind where
  word := fun h => by cases hword.symm.trans h
  symbol := fun h => absurd h hsymbol

/-- Behind the blanks `bs`, a word or a symbol that is found is the longest row there. -/
theorem Scanner.named_of_lexeme {c c' : Cursor Source} {p : Position} {bs rs behind : List Char}
    {token : Token} (hblanks : ∀ r ∈ bs, Rune.isBlank r = true) (hlexeme : Lexeme rs token)
    (hc : c.Faces p (bs ++ rs ++ behind))
    (hrun : Scanner.item.run c =
      (.ok (.ofToken (p.advanceAll bs) token (String.ofList rs)), c')) :
    Item.Named ⟨p.advanceAll bs, token, String.ofList rs⟩ behind where
  word := by
    intro hword
    obtain ⟨first, rest, rfl, hfirst, -, rfl⟩ := hlexeme.exists_word hword
    have hrow : NameRow rest behind := nameRow_of_word hc hblanks hfirst hrun
    exact ⟨⟨first, rest, String.toList_ofList, hfirst, hrow⟩, Token.classifies_ofWord _⟩
  symbol := by
    intro (hsymbol : token = .symbol)
    obtain ⟨name, rfl, -⟩ := hlexeme.exists_symbol hsymbol
    rw [hsymbol] at hrun
    exact ⟨name, String.toList_ofList, nameRow_of_symbol hc hblanks hrun⟩

/-- An item that is found behind the runes `before` stands at its position in the text. -/
theorem Scanner.exists_named {c c' : Cursor Source} {before left : List Char} {found : Finding}
    (hc : c.Faces (.after before) left) (hrun : Scanner.item.run c = (.ok found, c')) :
    ∃ pre post, before ++ left = pre ++ found.item.text.toList ++ post ∧
      found.item.pos = .after pre ∧ found.item.Named post := by
  have hline : 1 ≤ c.position.line := hc.position ▸ hc.one_le_line
  obtain ⟨bs, hblanks, ⟨rfl, rfl⟩ | ⟨rs, behind, rfl, -, -, hfound⟩⟩ :=
    finds_item_of_holds hline hc.holds hrun
  · -- At the end there is no word.
    have htext : before ++ left = before ++ left ++ "".toList ++ [] := by simp
    refine ⟨before ++ left, [], htext, ?_, .of_token rfl nofun⟩
    rw [hc.position, Position.after_advanceAll]
    rfl
  · rw [hc.position, Position.after_advanceAll] at hfound
    obtain ⟨dropped, hdropped, hpos, -⟩ := hfound.gap hblanks
    refine ⟨before ++ bs ++ dropped, behind, ?_, ?_, ?_⟩
    · nth_rewrite 1 [hdropped]
      simp only [List.append_assoc]
    · rw [hpos, Position.after_advanceAll]
    · cases hfound with
      | @lexeme rs token hlexeme =>
        rw [← Position.after_advanceAll] at hrun ⊢
        exact named_of_lexeme hblanks hlexeme hc hrun
      -- A rune that starts nothing, and one mark too many, are illegal.
      | repeatedMark => exact .of_token rfl nofun
      | stray => exact .of_token rfl nofun

namespace Lexer

/-- The scan of an item finds `item` at some place in the text. -/
def FoundIn (text : String) (item : Item) : Prop :=
  ∃ before left c c' found, text.toList = before ++ left ∧ c.Faces (.after before) left ∧
    Scanner.item.run c = (.ok found, c') ∧ found.item = item

/-- Every `item` among the results of a `text` was found at a place in it. -/
theorem foundIn_of_mem {text : String} {item : Item} (h : .ok item ∈ (ofString text).results) :
    FoundIn text item := by
  have hplaces : ∀ before left, text.toList = before ++ left →
      (ofString text).cursor.Faces (.after before) left →
      ∀ item, .ok item ∈ (ofString text).results → FoundIn text item := by
    refine results_induction (l := ofString text) (P := fun c rs => ∀ before left,
      text.toList = before ++ left → c.Faces (.after before) left →
      ∀ item, .ok item ∈ rs → FoundIn text item) ?_ ?_ ?_ rfl
    · intro c c' found hrun _ before left htext hc item hmem
      have heq : item = found.item := by simpa using hmem
      exact ⟨before, left, c, c', found, htext, hc, hrun, heq.symm⟩
    · intro c c' e _ before left _ _ item hmem
      simp at hmem
    · intro c c' found rs hrun _ ih before left htext hc item hmem
      rcases List.mem_cons.1 hmem with heq | hmem
      · exact ⟨before, left, c, c', found, htext, hc, hrun, (Except.ok.inj heq).symm⟩
      · -- The next items are found behind the runes that this one has passed.
        obtain ⟨us, rest, rfl, hc', -⟩ := (Scan.Local.item .start).ok hc hrun
        rw [Position.after_advanceAll] at hc'
        exact ih (before ++ us) rest (by rw [htext, List.append_assoc]) hc' item hmem
  exact hplaces [] text.toList rfl (faces_ofString text).cursor item h

/-- A `text` that is one word has this item and `eof`. -/
theorem tokenize_word {text : String} {first : Char} {rest : List Char}
    (htext : text.toList = first :: rest) (hfirst : Rune.startsWord first = true)
    (hrest : ∀ r ∈ rest, Rune.isNameRune r = true) :
    tokenize text = .ok [⟨.start, Token.ofWord text, text⟩, ⟨.after text.toList, .eof, ""⟩] := by
  have hrow : NameRow rest [] := ⟨hrest, by simp⟩
  have hspelled : String.ofList (first :: rest) = text := by
    rw [← htext, String.ofList_toList]
  have hnoBlanks : ∀ r ∈ ([] : List Char), Rune.isBlank r = true := by simp
  have hgives := Scanner.gives_item_of_word (p := .start) hnoBlanks hfirst hrow
  rw [hspelled] at hgives
  -- Nothing is left behind the word, so the end is the next item.
  have hfaces := (faces_ofString text).cursor
  rw [htext, ← List.append_nil (first :: rest)] at hfaces
  obtain ⟨c, hrun, hc⟩ := hgives _ hfaces
  obtain ⟨c', hend⟩ := Scanner.item_of_blanks hnoBlanks hc.holds
  have hne : Token.ofWord text ≠ .eof := by
    intro heof
    have hword := Token.isWord_ofWord text
    rw [heof] at hword
    cases hword
  have hstart : (Finding.ofToken ((Position.start).advanceAll []) (Token.ofWord text) text).item =
      ⟨.start, Token.ofWord text, text⟩ := rfl
  have hlast : (Finding.ofToken (c.position.advanceAll []) .eof "").item =
      ⟨.after text.toList, .eof, ""⟩ := by
    rw [hc.position, htext]
    rfl
  rw [tokenize_eq_ok_iff, results_of_open rfl, nextItem_of_ok rfl hrun,
    results_of_eof (decide_eq_false hne) hend rfl, hstart, hlast]
  rfl

/-- The words and symbols among the items of a `text` are the longest rows of name runes at their
places, and the kind of a word is the one that its spelling has (`Item.Named`).  A text
`first :: rest` that is such a row, and could be a word, is one. -/
theorem words_of_results (text : String) :
    (∀ item, .ok item ∈ (ofString text).results →
      ∃ pre post, text.toList = pre ++ item.text.toList ++ post ∧ item.pos = .after pre ∧
        item.Named post) ∧
    ∀ first rest, text.toList = first :: rest → Rune.startsWord first = true →
      (∀ r ∈ rest, Rune.isNameRune r = true) →
      tokenize text =
        .ok [⟨⟨1, 0⟩, Token.ofWord text, text⟩, ⟨.after text.toList, .eof, ""⟩] ∧
      (Token.ofWord text).isWord = true ∧ (Token.ofWord text).Classifies text := by
  constructor
  · intro item hmem
    obtain ⟨before, left, c, c', found, htext, hc, hrun, rfl⟩ := foundIn_of_mem hmem
    rw [htext]
    exact Scanner.exists_named hc hrun
  · intro first rest htext hfirst hrest
    have htokens := tokenize_word htext hfirst hrest
    exact ⟨htokens, Token.isWord_ofWord text, Token.classifies_ofWord text⟩

/-- A name that starts with a digit of another script stands behind the operator that an underscore
is, and is a text of its own: `٣_é` behind `_`, and alone. -/
theorem words_of_results_underscore :
    .ok ⟨⟨1, 1⟩, .ident, "٣_é"⟩ ∈ (ofString "_٣_é:x").results ∧
      (∃ pre post, "_٣_é:x".toList = pre ++ "٣_é".toList ++ post ∧ ⟨1, 1⟩ = Position.after pre ∧
        Item.Named ⟨⟨1, 1⟩, .ident, "٣_é"⟩ post) ∧
      tokenize "٣_é" = .ok [⟨⟨1, 0⟩, .ident, "٣_é"⟩, ⟨⟨1, 3⟩, .eof, ""⟩] := by
  have hmem : .ok ⟨⟨1, 1⟩, .ident, "٣_é"⟩ ∈ (ofString "_٣_é:x").results := by decide +kernel
  have hstarts : Rune.startsWord '٣' = true := by decide +kernel
  have hrest : ['_', 'é'].all Rune.isNameRune = true := by decide +kernel
  have hkind : Token.ofWord "٣_é" = .ident := by decide
  have hword := ((words_of_results "٣_é").2 '٣' ['_', 'é'] rfl hstarts (List.all_eq_true.1 hrest)).1
  rw [hkind] at hword
  exact ⟨hmem, (words_of_results "_٣_é:x").1 _ hmem, hword⟩

end Lexer

end LexStream
