import PropertyWrapper.Proofs.Source.Layout
import PropertyWrapper.Proofs.Source.Quotation

/-!
# Tokens between brackets

The single tokens of a line whose brackets may be open, told from an index on by the text that is left.

* `EnclosedAt` : from an index on stand the tokens of a text, with brackets open;
* `TakesToken` : one step of the lexer, by the characters in front;
* `takesToken_word`, `takesToken_quoted` and others : the steps for words, literals and symbols;
* `EnclosedAt.token` : a step of the lexer gives a token and what is left.
-/

namespace PropertyWrapper.Source

open Reader PropertyWrapper.Text

variable {tokens : Array Token} {index : Nat} {indents : List Indent} {closers closers' : List Char}
  {text rest : List Char} {kind : TokenKind}

/-! ## Steps of the lexer -/

/-- The lexer takes a token from a text and leaves the rest of it; so it goes from the brackets that
`closers` close to those that `closers'` close. -/
def TakesToken (closers text : List Char) (kind : TokenKind) (closers' rest : List Char) : Prop :=
  ∀ reading : Reading, reading.rest = text → reading.brackets.map Prod.fst = closers →
    ∃ next, nextToken reading = .ok (kind, next) ∧ next.rest = rest
      ∧ next.indents = reading.indents ∧ next.brackets.map Prod.fst = closers'

/-- A word in front of a character that is neither part of it nor a quote. -/
theorem takesToken_word {word : String} {c : Char} (hword : isWord word = true)
    (hkind : wordToken word.toList = kind) (hfault : ∀ fault, kind ≠ .fault fault)
    (hc : isWordCharacter c = false) (hquote : isQuote c = false) :
    TakesToken closers (word.toList ++ c :: rest) kind closers (c :: rest) := by
  intro reading hrest hbrackets
  obtain ⟨hafter, heq⟩ := nextToken_isWord hrest hword hc hquote
  refine ⟨reading.afterWord, ?_, hafter, rfl, hbrackets⟩
  rw [heq, hkind]
  cases kind with
  | fault fault => exact absurd rfl (hfault fault)
  | _ => rfl

/-- A quoted text, unless another quote follows. -/
theorem takesToken_quoted {quote : Char} (hquote : isQuote quote = true) (points : Points)
    (hrest : rest.head? ≠ some quote) :
    TakesToken closers (quote :: (quotedBody quote points ++ quote :: rest))
      (.text { raw := false, bytes := false, formatted := false, marked := false
               body := quotedBody quote points }) closers rest := by
  intro reading heq hbrackets
  have hscan := (singleBody_quotedBody hquote points).scanText_eq (ne_backslash_of_isQuote hquote)
    (fun _ => hrest) reading.pos.line
  rw [nextToken_quote heq hquote, textToken, hscan]
  exact ⟨_, rfl, rfl, rfl, hbrackets⟩

/-- A symbol of one character that is no bracket. -/
theorem takesToken_symbol {c : Char} {symbol : Symbol} (hc : startsSymbol c = true)
    (hscan : scanSymbol (c :: rest) = some (symbol, 1)) (hopen : closingOf symbol = none)
    (hclose : closerOf symbol = none) :
    TakesToken closers (c :: rest) (.symbol symbol) closers rest := by
  intro reading hrest hbrackets
  refine ⟨reading.advance 1, ?_, ?_, rfl, hbrackets⟩
  · rw [nextToken_symbol hrest hc hscan, symbolToken_of_plain hopen hclose]
  · rw [Reading.advance, hrest, List.drop_one, List.tail_cons]

theorem takesToken_comma : TakesToken closers (',' :: rest) (.symbol .comma) closers rest :=
  takesToken_symbol (by decide) rfl rfl rfl

/-- A single sign of equality. -/
theorem takesToken_assign {c : Char} (hc : c ≠ '=') :
    TakesToken closers ('=' :: c :: rest) (.symbol .assign) closers (c :: rest) := by
  have hne : '=' ≠ c := Ne.symm hc
  refine takesToken_symbol (by decide) ?_ rfl rfl
  simp [scanSymbol, symbolTable, hne, List.isPrefixOf]

/-- An arrow. -/
theorem takesToken_arrow : TakesToken closers ('-' :: '>' :: rest) (.symbol .arrow) closers rest := by
  intro reading hrest hbrackets
  have hscan : scanSymbol ('-' :: '>' :: rest) = some (.arrow, 2) := rfl
  refine ⟨reading.advance 2, ?_, ?_, rfl, hbrackets⟩
  · rw [nextToken_symbol hrest (by decide) hscan, symbolToken_of_plain rfl rfl]
  · rw [Reading.advance, hrest]
    rfl

/-- An opening bracket, as long as there are not too many of them. -/
theorem takesToken_opening {c closing : Char} {symbol : Symbol} (hc : startsSymbol c = true)
    (hscan : scanSymbol (c :: rest) = some (symbol, 1)) (hopen : closingOf symbol = some closing)
    (hlimit : closers.length < bracketLimit) :
    TakesToken closers (c :: rest) (.symbol symbol) (closing :: closers) rest := by
  intro reading hrest hbrackets
  have hlength : ¬ bracketLimit ≤ reading.brackets.length := by
    rw [← hbrackets, List.length_map] at hlimit
    exact Nat.not_le_of_lt hlimit
  refine ⟨{ reading.advance 1 with brackets := (closing, reading.pos.line) :: reading.brackets }, ?_, ?_, rfl,
    ?_⟩
  · rw [nextToken_symbol hrest hc hscan]
    unfold symbolToken
    simp only [hopen, if_neg hlength]
    rfl
  · rw [Reading.advance, hrest, List.drop_one, List.tail_cons]
  · rw [List.map_cons, hbrackets]

/-- The closing parenthesis of the innermost open one. -/
theorem takesToken_rparen : TakesToken (')' :: closers) (')' :: rest) (.symbol .rparen) closers rest := by
  intro reading hrest hbrackets
  obtain ⟨⟨closing, line⟩, outer, hstack, rfl, houter⟩ := List.map_eq_cons_iff.1 hbrackets
  have hscan : scanSymbol (')' :: rest) = some (.rparen, 1) := rfl
  refine ⟨{ reading.advance 1 with brackets := outer }, ?_, ?_, rfl, houter⟩
  · rw [nextToken_symbol hrest (by decide) hscan, symbolToken_of_closing rfl hstack]
  · rw [Reading.advance, hrest, List.drop_one, List.tail_cons]

/-! ## From index to index -/

namespace EnclosedAt

/-- A blank between tokens. -/
theorem space (h : EnclosedAt tokens index indents closers (' ' :: text)) :
    EnclosedAt tokens index indents closers text := by
  obtain ⟨fuel, reading, htokens, hrest, hindents, hbrackets, hfuel⟩ := h
  obtain ⟨fuel, rfl⟩ : ∃ n, fuel = n + 1 := ⟨fuel - 1, by omega⟩
  rw [tokensFrom_space hrest rfl] at htokens
  refine ⟨fuel, _, htokens, rfl, hindents, hbrackets, ?_⟩
  rw [List.length_cons] at hfuel
  omega

/-- The token at an index is the one that the lexer takes, and the next index stands behind it. -/
theorem token {c : Char} (h : EnclosedAt tokens index indents closers (c :: text))
    (hc : startsToken c = true) (htakes : TakesToken closers (c :: text) kind closers' rest)
    (hlength : rest.length ≤ text.length) :
    (tokenAt tokens index).kind = kind ∧ EnclosedAt tokens (index + 1) indents closers' rest := by
  obtain ⟨fuel, reading, htokens, hrest, rfl, hbrackets, hfuel⟩ := h
  obtain ⟨fuel, rfl⟩ : ∃ n, fuel = n + 1 := ⟨fuel - 1, by omega⟩
  obtain ⟨next, hnext, hrest', hindents, hbrackets'⟩ := htakes reading hrest hbrackets
  rw [tokensFrom_of_startsToken hrest hc, hnext] at htokens
  obtain ⟨htoken, hdrop⟩ := tokenAt_of_drop htokens
  refine ⟨by rw [htoken], fuel, next, hdrop, hrest', hindents, hbrackets', ?_⟩
  rw [List.length_cons] at hfuel
  omega

/-- A word in front of a character that is neither part of it nor a quote. -/
theorem word {word : String} {c : Char}
    (h : EnclosedAt tokens index indents closers (word.toList ++ c :: text)) (hword : isWord word = true)
    (hkind : wordToken word.toList = kind) (hfault : ∀ fault, kind ≠ .fault fault)
    (hc : isWordCharacter c = false) (hquote : isQuote c = false) :
    (tokenAt tokens index).kind = kind ∧ EnclosedAt tokens (index + 1) indents closers (c :: text) := by
  have htakes := @takesToken_word closers text kind word c hword hkind hfault hc hquote
  obtain ⟨d, tail, hcons, hd, -⟩ := isWord_iff.1 hword
  rw [hcons, List.cons_append] at h htakes
  exact h.token (startsToken_of_isWordCharacter hd) htakes (by simp)

/-- A quoted text, unless another quote follows. -/
theorem quoted {quote c : Char} {points : Points}
    (h : EnclosedAt tokens index indents closers (quote :: (quotedBody quote points ++ quote :: c :: text)))
    (hquote : isQuote quote = true) (hc : c ≠ quote) :
    (tokenAt tokens index).kind = .text { raw := false, bytes := false, formatted := false, marked := false
                                          body := quotedBody quote points }
      ∧ EnclosedAt tokens (index + 1) indents closers (c :: text) := by
  have hstarts : startsToken quote = true := by
    simp only [isQuote, Bool.or_eq_true, decide_eq_true_eq] at hquote
    rcases hquote with rfl | rfl <;> decide
  exact h.token hstarts (takesToken_quoted hquote points (by simp [hc])) (by simp; omega)

/-- A comma. -/
theorem comma (h : EnclosedAt tokens index indents closers (',' :: text)) :
    (tokenAt tokens index).kind = .symbol .comma ∧ EnclosedAt tokens (index + 1) indents closers text :=
  h.token (by decide) takesToken_comma (Nat.le_refl _)

/-- A single sign of equality. -/
theorem assign {c : Char} (h : EnclosedAt tokens index indents closers ('=' :: c :: text)) (hc : c ≠ '=') :
    (tokenAt tokens index).kind = .symbol .assign
      ∧ EnclosedAt tokens (index + 1) indents closers (c :: text) :=
  h.token (by decide) (takesToken_assign hc) (Nat.le_refl _)

/-- An opening parenthesis, as long as there are not too many brackets. -/
theorem lparen (h : EnclosedAt tokens index indents closers ('(' :: text))
    (hlimit : closers.length < bracketLimit) :
    (tokenAt tokens index).kind = .symbol .lparen
      ∧ EnclosedAt tokens (index + 1) indents (')' :: closers) text :=
  h.token (by decide) (takesToken_opening (by decide) rfl rfl hlimit) (Nat.le_refl _)

/-- An opening square bracket, as long as there are not too many brackets. -/
theorem lbracket (h : EnclosedAt tokens index indents closers ('[' :: text))
    (hlimit : closers.length < bracketLimit) :
    (tokenAt tokens index).kind = .symbol .lbracket
      ∧ EnclosedAt tokens (index + 1) indents (']' :: closers) text :=
  h.token (by decide) (takesToken_opening (by decide) rfl rfl hlimit) (Nat.le_refl _)

/-- An arrow. -/
theorem arrow (h : EnclosedAt tokens index indents closers ('-' :: '>' :: text)) :
    (tokenAt tokens index).kind = .symbol .arrow ∧ EnclosedAt tokens (index + 1) indents closers text :=
  h.token (by decide) takesToken_arrow (by simp)

/-- The closing parenthesis of the innermost open one. -/
theorem rparen (h : EnclosedAt tokens index indents (')' :: closers) (')' :: text)) :
    (tokenAt tokens index).kind = .symbol .rparen ∧ EnclosedAt tokens (index + 1) indents closers text :=
  h.token (by decide) takesToken_rparen (Nat.le_refl _)

/-- The end of a line ends the text. -/
theorem finish (h : EnclosedAt tokens index [⟨0, 0⟩] [] ['\n']) :
    (tokenAt tokens index).kind = .newline ∧ (tokenAt tokens (index + 1)).kind = .finish := by
  obtain ⟨hnewline, hline⟩ := (enclosedAt_nil.1 h).newline
  exact ⟨hnewline, hline.finish⟩

end EnclosedAt

end PropertyWrapper.Source
