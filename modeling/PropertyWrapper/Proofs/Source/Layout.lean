import PropertyWrapper.Proofs.Source.Levels

/-!
# The layout of tokens

What the tokens of a text are, told from an index on by the text that is left. Each step of the lexer
that matters for generated code is a lemma that goes from one index to the next.

* `LineAt`, `LexedAt` : from an index on stand the tokens of a text, at the start of a line or inside it;
* `nextToken_isWord` : what the lexer does with a word;
* `LexedAt.word`, `LexedAt.symbol`, `LexedAt.newline` : single tokens;
* `LineAt.dedent`, `LineAt.indent` : the start of a line that opens or closes a block;
* `LexedAt.closes` : the rest of a closed line as a whole.
-/

namespace PropertyWrapper.Source

open Reader PropertyWrapper.Text

variable {tokens : Array Token} {index : Nat} {indents : List Indent} {text following : List Char}

/-- From an index on stand the tokens of a text whose first line is indented by blanks that still have
to be compared with `indents`. -/
def LineAt (tokens : Array Token) (index : Nat) (indents : List Indent) (text : List Char) : Prop :=
  ∃ fuel reading, tokens.toList.drop index = tokensFrom fuel true reading
    ∧ reading.rest = text ∧ reading.indents = indents ∧ reading.brackets = []
    ∧ 2 * text.length + 2 ≤ fuel

/-- From an index on stand the tokens of a text inside a line. -/
def LexedAt (tokens : Array Token) (index : Nat) (indents : List Indent) (text : List Char) : Prop :=
  ∃ fuel reading, tokens.toList.drop index = tokensFrom fuel false reading
    ∧ reading.rest = text ∧ reading.indents = indents ∧ reading.brackets = []
    ∧ 2 * text.length + 1 ≤ fuel

/-- From an index on stand the tokens of a text inside a line, where the open brackets are those that
the characters `closers` close, the innermost one first. -/
def EnclosedAt (tokens : Array Token) (index : Nat) (indents : List Indent) (closers text : List Char) :
    Prop :=
  ∃ fuel reading, tokens.toList.drop index = tokensFrom fuel false reading
    ∧ reading.rest = text ∧ reading.indents = indents ∧ reading.brackets.map Prod.fst = closers
    ∧ 2 * text.length + 1 ≤ fuel

/-- Outside of all brackets the text stands inside a line. -/
theorem enclosedAt_nil :
    EnclosedAt tokens index indents [] text ↔ LexedAt tokens index indents text := by
  simp only [EnclosedAt, LexedAt, List.map_eq_nil_iff]

/-- The token at an index, told by the tokens from there on. -/
theorem tokenAt_of_drop {token : Token} {rest : List Token}
    (h : tokens.toList.drop index = token :: rest) :
    tokenAt tokens index = token ∧ tokens.toList.drop (index + 1) = rest := by
  constructor
  · have hget : tokens[index]? = some token := by
      rw [← Array.getElem?_toList, ← List.head?_drop, h, List.head?_cons]
    rw [tokenAt, hget, Option.getD_some]
  · rw [← List.drop_drop, h, List.drop_one, List.tail_cons]

theorem lineAt_tokens (text : List Char) : LineAt (Source.tokens text) 0 [⟨0, 0⟩] text := by
  refine ⟨2 * text.length + 2, ⟨text, ⟨1, 0⟩, [⟨0, 0⟩], []⟩, ?_, rfl, rfl, rfl, Nat.le_refl _⟩
  rw [List.drop_zero, Source.tokens, List.toList_toArray]

/-! ## Starts of lines -/

theorem scanIndent_of_startsToken {indent : Indent} {pos : Position} {c : Char}
    (hc : startsToken c = true) (rest : List Char) :
    scanIndent indent ⟨0, 0⟩ pos (c :: rest) = .ok (indent, pos, c :: rest) := by
  simp only [startsToken, isSpace, Bool.and_eq_true, Bool.not_eq_true', Bool.or_eq_false_iff,
    decide_eq_false_iff_not, bne_iff_ne] at hc
  obtain ⟨⟨⟨⟨⟨hblank, htab⟩, hfeed⟩, hline⟩, hhash⟩, hslash⟩ := hc
  unfold scanIndent
  split <;> simp_all

/-- What a line with a token does to the enclosing indentations. -/
theorem LineAt.indented (spaces : List Char) {c : Char} {indent : Indent} {kinds : List TokenKind}
    {indents' : List Indent} (h : LineAt tokens index indents (spaces ++ c :: text))
    (hc : startsToken c = true)
    (hscan : ∀ pos, ∃ pos', scanIndent ⟨0, 0⟩ ⟨0, 0⟩ pos (spaces ++ c :: text)
      = .ok (indent, pos', c :: text))
    (hindent : indentTokens indents indent = .ok (kinds, indents')) :
    ∃ pos, tokens.toList.drop index = kinds.map (⟨·, pos⟩) ++ tokens.toList.drop (index + kinds.length)
      ∧ LexedAt tokens (index + kinds.length) indents' (c :: text) := by
  obtain ⟨fuel, reading, htokens, hrest, rfl, hbrackets, hfuel⟩ := h
  obtain ⟨pos, hscan⟩ := hscan reading.pos
  obtain ⟨fuel, rfl⟩ : ∃ n, fuel = n + 1 := ⟨fuel - 1, by omega⟩
  simp only [startsToken, Bool.and_eq_true, Bool.not_eq_true', bne_iff_ne] at hc
  have hrun : tokensFrom (fuel + 1) true reading = kinds.map (⟨·, pos⟩) ++
      tokensFrom fuel false { reading with rest := c :: text, pos, indents := indents' } := by
    rw [tokensFrom, hrest, hscan]
    dsimp only
    split
    · rename_i heq
      exact absurd (List.cons.inj heq).1 hc.1.1.2
    · rename_i heq
      exact absurd (List.cons.inj heq).1 hc.1.2
    · rw [hindent]
  rw [hrun] at htokens
  have hdrop : tokens.toList.drop (index + kinds.length) =
      tokensFrom fuel false { reading with rest := c :: text, pos, indents := indents' } := by
    rw [← List.drop_drop, htokens, List.drop_left' (by simp)]
  refine ⟨pos, ?_, fuel, _, hdrop, rfl, rfl, hbrackets, ?_⟩
  · rw [hdrop, htokens]
  · simp only [List.length_append, List.length_cons] at hfuel ⊢
    omega

/-- A line of the outermost block. -/
theorem LineAt.start {c : Char} (h : LineAt tokens index [⟨0, 0⟩] (c :: text))
    (hc : startsToken c = true) : LexedAt tokens index [⟨0, 0⟩] (c :: text) := by
  have hscan : ∀ pos, ∃ pos', scanIndent ⟨0, 0⟩ ⟨0, 0⟩ pos ([] ++ c :: text)
      = .ok (⟨0, 0⟩, pos', c :: text) :=
    fun pos => ⟨pos, scanIndent_of_startsToken hc text⟩
  obtain ⟨_, -, h⟩ := LineAt.indented [] h hc hscan rfl
  exact h

/-- The indentation of the body of a generated function. -/
def bodyIndent : Indent := ⟨4, 4⟩

/-- A line that opens a block. -/
theorem LineAt.indent {c : Char} (h : LineAt tokens index [⟨0, 0⟩] ("    ".toList ++ c :: text))
    (hc : startsToken c = true) :
    (tokenAt tokens index).kind = .indent
      ∧ LexedAt tokens (index + 1) [bodyIndent, ⟨0, 0⟩] (c :: text) := by
  have hscan : ∀ pos, ∃ pos', scanIndent ⟨0, 0⟩ ⟨0, 0⟩ pos ("    ".toList ++ c :: text)
      = .ok (bodyIndent, pos', c :: text) :=
    fun pos => ⟨_, scanIndent_of_startsToken hc text⟩
  obtain ⟨pos, htokens, h⟩ := h.indented _ hc hscan rfl
  exact ⟨by rw [(tokenAt_of_drop htokens).1], h⟩

/-- A line that closes a block. -/
theorem LineAt.dedent {c : Char} (h : LineAt tokens index [bodyIndent, ⟨0, 0⟩] (c :: text))
    (hc : startsToken c = true) :
    (tokenAt tokens index).kind = .dedent ∧ LexedAt tokens (index + 1) [⟨0, 0⟩] (c :: text) := by
  have hscan : ∀ pos, ∃ pos', scanIndent ⟨0, 0⟩ ⟨0, 0⟩ pos ([] ++ c :: text)
      = .ok (⟨0, 0⟩, pos', c :: text) :=
    fun pos => ⟨pos, scanIndent_of_startsToken hc text⟩
  obtain ⟨pos, htokens, h⟩ := LineAt.indented [] h hc hscan rfl
  exact ⟨by rw [(tokenAt_of_drop htokens).1], h⟩

/-- The end of the text closes a block too. -/
theorem LineAt.dedent_end (h : LineAt tokens index [bodyIndent, ⟨0, 0⟩] []) :
    (tokenAt tokens index).kind = .dedent ∧ LexedAt tokens (index + 1) [⟨0, 0⟩] [] := by
  obtain ⟨fuel, reading, htokens, hrest, hindents, hbrackets, hfuel⟩ := h
  obtain ⟨fuel, rfl⟩ : ∃ n, fuel = n + 1 := ⟨fuel - 1, by omega⟩
  have hrun : tokensFrom (fuel + 1) true reading = ⟨.dedent, reading.pos⟩ ::
      tokensFrom fuel false { reading with rest := [], indents := [⟨0, 0⟩] } := by
    have hscan : scanIndent ⟨0, 0⟩ ⟨0, 0⟩ reading.pos [] = .ok (⟨0, 0⟩, reading.pos, []) := rfl
    rw [tokensFrom, hrest, hscan]
    dsimp only
    rw [hindents]
    rfl
  rw [hrun] at htokens
  obtain ⟨htoken, hdrop⟩ := tokenAt_of_drop htokens
  exact ⟨by rw [htoken], fuel, _, hdrop, rfl, rfl, hbrackets, by simp at hfuel ⊢; omega⟩

/-- An empty line. -/
theorem LineAt.blank (h : LineAt tokens index indents ('\n' :: text)) :
    LineAt tokens index indents text := by
  obtain ⟨fuel, reading, htokens, hrest, hindents, hbrackets, hfuel⟩ := h
  obtain ⟨fuel, rfl⟩ : ∃ n, fuel = n + 1 := ⟨fuel - 1, by omega⟩
  have hrun : tokensFrom (fuel + 1) true reading =
      tokensFrom fuel true { reading with rest := text, pos := reading.pos.after '\n' } := by
    have hscan : scanIndent ⟨0, 0⟩ ⟨0, 0⟩ reading.pos ('\n' :: text)
        = .ok (⟨0, 0⟩, reading.pos, '\n' :: text) := rfl
    rw [tokensFrom, hrest, hscan]
    rfl
  rw [hrun] at htokens
  refine ⟨fuel, _, htokens, rfl, hindents, hbrackets, ?_⟩
  simp only [List.length_cons] at hfuel
  omega

/-! ## Inside a line -/

/-- The next step of the lexer inside a line. -/
theorem LexedAt.step {text' : List Char} (h : LexedAt tokens index indents text)
    (hstep : ∀ fuel reading, reading.rest = text → reading.brackets = [] → ∃ next,
      tokensFrom (fuel + 1) false reading = tokensFrom fuel false next ∧ next.rest = text'
        ∧ next.indents = reading.indents ∧ next.brackets = [])
    (hlength : text'.length < text.length) : LexedAt tokens index indents text' := by
  obtain ⟨fuel, reading, htokens, hrest, rfl, hbrackets, hfuel⟩ := h
  obtain ⟨fuel, rfl⟩ : ∃ n, fuel = n + 1 := ⟨fuel - 1, by omega⟩
  obtain ⟨next, hrun, hrest', hindents, hbrackets'⟩ := hstep fuel reading hrest hbrackets
  rw [hrun] at htokens
  exact ⟨fuel, next, htokens, hrest', hindents, hbrackets', by omega⟩

/-- The next token of a line. -/
theorem LexedAt.token {text' : List Char} {kind : TokenKind} (h : LexedAt tokens index indents text)
    (hstep : ∀ fuel reading, reading.rest = text → reading.brackets = [] → ∃ next,
      tokensFrom (fuel + 1) false reading = ⟨kind, reading.pos⟩ :: tokensFrom fuel false next
        ∧ next.rest = text' ∧ next.indents = reading.indents ∧ next.brackets = [])
    (hlength : text'.length < text.length) :
    (tokenAt tokens index).kind = kind ∧ LexedAt tokens (index + 1) indents text' := by
  obtain ⟨fuel, reading, htokens, hrest, rfl, hbrackets, hfuel⟩ := h
  obtain ⟨fuel, rfl⟩ : ∃ n, fuel = n + 1 := ⟨fuel - 1, by omega⟩
  obtain ⟨next, hrun, hrest', hindents, hbrackets'⟩ := hstep fuel reading hrest hbrackets
  rw [hrun] at htokens
  obtain ⟨htoken, hdrop⟩ := tokenAt_of_drop htokens
  exact ⟨by rw [htoken], fuel, next, hdrop, hrest', hindents, hbrackets', by omega⟩

/-- A blank between tokens. -/
theorem LexedAt.space (h : LexedAt tokens index indents (' ' :: text)) :
    LexedAt tokens index indents text := by
  refine h.step (fun fuel reading hrest hbrackets => ?_) (by simp)
  exact ⟨_, tokensFrom_space hrest rfl, rfl, rfl, hbrackets⟩

/-- A symbol that is no bracket. -/
theorem LexedAt.symbol {c : Char} {symbol : Symbol} (h : LexedAt tokens index indents (c :: text))
    (hnext : ∀ reading : Reading, reading.rest = c :: text →
      nextToken reading = .ok (.symbol symbol, reading.advance 1))
    (hc : startsToken c = true) :
    (tokenAt tokens index).kind = .symbol symbol ∧ LexedAt tokens (index + 1) indents text := by
  refine h.token (fun fuel reading hrest hbrackets => ?_) (by simp)
  refine ⟨reading.advance 1, ?_, ?_, rfl, hbrackets⟩
  · rw [tokensFrom_of_startsToken hrest hc, hnext reading hrest]
  · simp [Reading.advance, hrest]

/-- The end of a line. -/
theorem LexedAt.newline (h : LexedAt tokens index indents ('\n' :: text)) :
    (tokenAt tokens index).kind = .newline ∧ LineAt tokens (index + 1) indents text := by
  obtain ⟨fuel, reading, htokens, hrest, rfl, hbrackets, hfuel⟩ := h
  obtain ⟨fuel, rfl⟩ : ∃ n, fuel = n + 1 := ⟨fuel - 1, by omega⟩
  rw [tokensFrom_newline hrest hbrackets] at htokens
  obtain ⟨htoken, hdrop⟩ := tokenAt_of_drop htokens
  refine ⟨by rw [htoken], fuel, _, hdrop, rfl, rfl, hbrackets, ?_⟩
  simp only [List.length_cons] at hfuel
  omega

/-- The end of the text. -/
theorem LexedAt.finish (h : LexedAt tokens index indents []) :
    (tokenAt tokens index).kind = .finish := by
  obtain ⟨fuel, reading, htokens, hrest, rfl, hbrackets, hfuel⟩ := h
  obtain ⟨fuel, rfl⟩ : ∃ n, fuel = n + 1 := ⟨fuel - 1, by omega⟩
  have hrun : tokensFrom (fuel + 1) false reading = [⟨.finish, reading.pos⟩] := by
    rw [tokensFrom, hrest]
    dsimp only
    rw [hbrackets]
  rw [hrun] at htokens
  rw [(tokenAt_of_drop htokens).1]

/-- The end of the text at the start of a line of the outermost block. -/
theorem LineAt.finish (h : LineAt tokens index [⟨0, 0⟩] []) : (tokenAt tokens index).kind = .finish := by
  obtain ⟨fuel, reading, htokens, hrest, hindents, hbrackets, hfuel⟩ := h
  obtain ⟨fuel, rfl⟩ : ∃ n, fuel = n + 1 := ⟨fuel - 1, by omega⟩
  have hrun : tokensFrom (fuel + 1) true reading
      = tokensFrom fuel false { reading with rest := [], indents := [⟨0, 0⟩] } := by
    have hscan : scanIndent ⟨0, 0⟩ ⟨0, 0⟩ reading.pos [] = .ok (⟨0, 0⟩, reading.pos, []) := rfl
    rw [tokensFrom, hrest, hscan]
    dsimp only
    rw [hindents]
    rfl
  rw [hrun] at htokens
  exact LexedAt.finish ⟨fuel, _, htokens, rfl, rfl, hbrackets, by simp at hfuel ⊢; omega⟩

/-- What the lexer does with a word in front of a character that is neither part of it nor a quote. -/
theorem nextToken_isWord {reading : Reading} {word : String} {c : Char} {rest : List Char}
    (hrest : reading.rest = word.toList ++ c :: rest) (hword : isWord word = true)
    (hc : isWordCharacter c = false) (hquote : isQuote c = false) :
    reading.afterWord.rest = c :: rest
      ∧ nextToken reading = match wordToken word.toList with
        | .fault fault => .error fault
        | kind => .ok (kind, reading.afterWord) := by
  obtain ⟨d, tail, hcons, hd, hdigit, htail⟩ := isWord_iff.1 hword
  have hall : ∀ e ∈ word.toList, isWordCharacter e = true := by
    rw [hcons]
    exact List.forall_mem_cons.2 ⟨hd, htail⟩
  have htake : reading.rest.takeWhile isWordCharacter = word.toList := by
    rw [hrest, List.takeWhile_append_of_pos hall, List.takeWhile_cons_of_neg (by simp [hc]),
      List.append_nil]
  have hdrop : reading.rest.dropWhile isWordCharacter = c :: rest := by
    rw [hrest, List.dropWhile_append_of_pos hall, List.dropWhile_cons_of_neg (by simp [hc])]
  have hrest' : reading.rest = d :: (tail ++ c :: rest) := by rw [hrest, hcons, List.cons_append]
  refine ⟨hdrop, ?_⟩
  have hmark : literalMark? word.toList (c :: rest) = none := by
    rw [literalMark?, hquote, Bool.false_and]
    rfl
  rewrite [nextToken_word_eq hrest' hd hdigit, htake, hdrop, hmark]
  cases wordToken word.toList <;> rfl

/-- A word in front of another character is a token of its own, unless it is no identifier. -/
theorem LexedAt.word {word : String} {c : Char}
    (h : LexedAt tokens index indents (word.toList ++ c :: text)) (hword : isWord word = true)
    (hc : isWordCharacter c = false) (hquote : isQuote c = false) :
    (tokenAt tokens index).kind = wordToken word.toList
      ∧ (wordToken word.toList = .fault .badIdentifier
        ∨ LexedAt tokens (index + 1) indents (c :: text)) := by
  obtain ⟨d, tail, hcons, hd, -⟩ := isWord_iff.1 hword
  obtain ⟨fuel, reading, htokens, hrest, rfl, hbrackets, hfuel⟩ := h
  obtain ⟨fuel, rfl⟩ : ∃ n, fuel = n + 1 := ⟨fuel - 1, by omega⟩
  obtain ⟨hafter, heq⟩ := nextToken_isWord hrest hword hc hquote
  have hrest' : reading.rest = d :: (tail ++ c :: text) := by rw [hrest, hcons, List.cons_append]
  rw [tokensFrom_of_startsToken hrest' (startsToken_of_isWordCharacter hd), heq] at htokens
  have hnext : ∀ kind, wordToken word.toList = kind →
      tokens.toList.drop index = ⟨kind, reading.pos⟩ :: tokensFrom fuel false reading.afterWord →
      (tokenAt tokens index).kind = kind ∧
        LexedAt tokens (index + 1) reading.indents (c :: text) := by
    intro kind hkind htokens
    obtain ⟨htoken, hdrop⟩ := tokenAt_of_drop htokens
    refine ⟨by rw [htoken], fuel, reading.afterWord, hdrop, hafter, rfl, hbrackets, ?_⟩
    rw [List.length_append, hcons, List.length_cons] at hfuel
    omega
  rcases wordToken_cases word.toList with h | ⟨reserved, h⟩ | h
  · rw [h] at htokens ⊢
    obtain ⟨hkind, hlexed⟩ := hnext _ h htokens
    exact ⟨hkind, .inr hlexed⟩
  · rw [h] at htokens ⊢
    obtain ⟨hkind, hlexed⟩ := hnext _ h htokens
    exact ⟨hkind, .inr hlexed⟩
  · rw [h] at htokens ⊢
    exact ⟨by rw [(tokenAt_of_drop htokens).1], .inl rfl⟩

/-! ## Inside brackets -/

section Enclosed

variable {outer awaited behind : List Char}

/-- One step of the lexer between tokens. -/
theorem EnclosedAt.step {text' : List Char} (h : EnclosedAt tokens index indents awaited text)
    (hstep : ∀ fuel reading, reading.rest = text → reading.brackets.map Prod.fst = awaited → ∃ next,
      tokensFrom (fuel + 1) false reading = tokensFrom fuel false next ∧ next.rest = text'
        ∧ next.indents = reading.indents ∧ next.brackets = reading.brackets)
    (hlength : text'.length < text.length) : EnclosedAt tokens index indents awaited text' := by
  obtain ⟨fuel, reading, htokens, hrest, rfl, hbrackets, hfuel⟩ := h
  obtain ⟨fuel, rfl⟩ : ∃ n, fuel = n + 1 := ⟨fuel - 1, by omega⟩
  obtain ⟨next, hrun, hrest', hindents, hbrackets'⟩ := hstep fuel reading hrest hbrackets
  rw [hrun] at htokens
  exact ⟨fuel, next, htokens, hrest', hindents, by rw [hbrackets', hbrackets], by omega⟩

theorem EnclosedAt.blank {c : Char} (h : EnclosedAt tokens index indents awaited (c :: text))
    (hc : isSpace c = true) : EnclosedAt tokens index indents awaited text :=
  h.step (fun _ _ hrest _ => ⟨_, tokensFrom_space hrest hc, rfl, rfl, rfl⟩) (by simp)

theorem EnclosedAt.joined (h : EnclosedAt tokens index indents awaited ('\\' :: '\n' :: text))
    (hne : text ≠ []) : EnclosedAt tokens index indents awaited text :=
  h.step (fun _ _ hrest _ => ⟨_, tokensFrom_joined hrest hne, rfl, rfl, rfl⟩) (by simp)

/-- A line end inside brackets. -/
theorem EnclosedAt.lineEnd {c : Char} (h : EnclosedAt tokens index indents (c :: awaited) ('\n' :: text)) :
    EnclosedAt tokens index indents (c :: awaited) text := by
  refine h.step (fun fuel reading hrest hbrackets => ?_) (by simp)
  have hne : reading.brackets ≠ [] := by
    rintro hnil
    rw [hnil] at hbrackets
    cases hbrackets
  exact ⟨_, tokensFrom_lineEnd hrest hne, rfl, rfl, rfl⟩

/-- A comment goes up to the end of its line. -/
theorem EnclosedAt.comment {note : List Char} (hnote : '\n' ∉ note)
    (h : EnclosedAt tokens index indents awaited ('#' :: note ++ '\n' :: text)) :
    EnclosedAt tokens index indents awaited ('\n' :: text) := by
  refine h.step (fun fuel reading hrest _ => ⟨_, tokensFrom_comment hrest, dropWhile_note hnote, rfl, rfl⟩) ?_
  simp

/-- A comment on the last line goes up to the end of the text. -/
theorem EnclosedAt.comment_end {note : List Char} (hnote : '\n' ∉ note)
    (h : EnclosedAt tokens index indents awaited ('#' :: note)) :
    EnclosedAt tokens index indents awaited [] := by
  exact h.step (fun fuel reading hrest _ =>
    ⟨_, tokensFrom_comment hrest, dropWhile_of_not_mem hnote, rfl, rfl⟩) (by simp)

/-- The token that the lexer takes, unless it finds a fault. -/
theorem EnclosedAt.at_token {c : Char} (h : EnclosedAt tokens index indents awaited (c :: text))
    (hc : startsToken c = true) :
    (∃ reading kind next, reading.rest = c :: text ∧ reading.brackets.map Prod.fst = awaited
      ∧ nextToken reading = .ok (kind, next) ∧ (tokenAt tokens index).kind = kind
      ∧ EnclosedAt tokens (index + 1) indents (next.brackets.map Prod.fst) next.rest)
      ∨ ∃ fault, (tokenAt tokens index).kind = .fault fault := by
  obtain ⟨fuel, reading, htokens, hrest, rfl, hbrackets, hfuel⟩ := h
  obtain ⟨fuel, rfl⟩ : ∃ n, fuel = n + 1 := ⟨fuel - 1, by omega⟩
  rw [tokensFrom_of_startsToken hrest hc] at htokens
  cases hnext : nextToken reading with
  | error fault =>
    rw [hnext] at htokens
    exact .inr ⟨fault, by rw [(tokenAt_of_drop htokens).1]⟩
  | ok result =>
    obtain ⟨kind, next⟩ := result
    rw [hnext] at htokens
    obtain ⟨htoken, hdrop⟩ := tokenAt_of_drop htokens
    have hconsumes := nextToken_consumes hrest hc hnext
    have hlength := hconsumes.length_lt
    refine .inl ⟨reading, kind, next, hrest, hbrackets, hnext, by rw [htoken], fuel, next, hdrop, rfl,
      hconsumes.indents_eq, rfl, ?_⟩
    rw [hrest, List.length_cons] at hlength
    rw [List.length_cons] at hfuel
    omega

/-- The tokens of a closed text, inside the brackets `outer`: they close the brackets that the text closes, unless
a fault cuts them off. -/
theorem EnclosedAt.closes (hat : EnclosedAt tokens index indents (awaited ++ outer) (text ++ behind))
    (hclosed : Closes awaited text) (hbehind : Bounded behind) :
    ∃ kinds, (∀ kind ∈ kinds, kind.isInline = true) ∧ deepens kinds awaited.length = some 0
      ∧ Leads tokens (fun stop => EnclosedAt tokens stop indents outer behind) index kinds := by
  -- Every step takes a character of the text, so its length carries the induction.
  generalize hlength : text.length = length
  induction length using Nat.strong_induction_on generalizing index awaited text with
  | _ length ih =>
    cases text with
    | nil =>
      obtain rfl := hclosed.eq_nil
      exact ⟨[], by simp, rfl, .done hat⟩
    | cons c text =>
      rw [List.length_cons] at hlength
      by_cases hspace : isSpace c = true
      · refine ih _ (by omega) (hat.blank hspace) ?_ rfl
        have hplain : ∀ d ∈ [c], isPlain d = true := by simp [isPlain_of_isSpace hspace]
        exact Closes.of_plains hplain hclosed
      rcases hclosed.cases_gap with hgap | ⟨rfl, hne, hrest⟩ | ⟨rfl, note, left, hnote, rfl, hrest⟩ |
        ⟨rfl, left, rfl, hrest⟩
      · have hc : startsToken c = true := by
          simp only [List.mem_cons, List.not_mem_nil, or_false, not_or] at hgap
          simp [startsToken, hspace, hgap]
        rcases hat.at_token hc with ⟨reading, kind, next, hreading, hbrackets, hnext, hkind, hat'⟩ |
          ⟨fault, hfault⟩
        · have hconsumes := nextToken_consumes hreading hc hnext
          obtain ⟨awaited', left, hleaves⟩ :=
            nextToken_closes hbehind hreading hbrackets hclosed hconsumes
          have hlt := hconsumes.length_lt
          have hwhole : reading.rest = c :: text ++ behind := hreading
          rw [hwhole, hleaves.rest_eq, List.length_append, List.length_append, List.length_cons] at hlt
          rw [hleaves.rest_eq, hleaves.brackets_eq] at hat'
          obtain ⟨kinds, hinline, hdepth, hleads⟩ := ih _ (by omega) hat' hleaves.closes rfl
          refine ⟨kind :: kinds, List.forall_mem_cons.2 ⟨hconsumes.isInline, hinline⟩, ?_,
            .token hkind hleads⟩
          rw [deepens_cons, hleaves.deepen_eq, Option.bind_some, hdepth]
        · -- No token is told behind a fault, so closing brackets can stand for those that are left out.
          exact ⟨_, inline_replicate_rparen _, deepens_replicate_rparen _, .fault hfault⟩
      · obtain ⟨closing, awaited, rfl⟩ := List.exists_cons_of_ne_nil hne
        exact ih _ (by omega) hat.lineEnd hrest rfl
      · refine ih _ ?_ (EnclosedAt.comment hnote (by simpa using hat)) hrest rfl
        simp only [List.length_append, List.length_cons] at hlength ⊢
        omega
      · refine ih _ ?_ (hat.joined ?_) hrest rfl
        · rw [List.length_cons] at hlength
          omega
        · obtain ⟨b, more, rfl, -⟩ := hbehind
          simp

end Enclosed

/-- The rest of a closed line: tokens inside the line, then its end unless a fault cuts it off. -/
theorem LexedAt.closes (h : LexedAt tokens index indents (text ++ '\n' :: following))
    (hclosed : Closes [] text) :
    ∃ last, index ≤ last ∧ InLine tokens index last
      ∧ ((∃ fault, (tokenAt tokens last).kind = .fault fault)
        ∨ (tokenAt tokens last).kind = .newline ∧ LineAt tokens (last + 1) indents following) := by
  have hat : EnclosedAt tokens index indents ([] ++ []) (text ++ '\n' :: following) := enclosedAt_nil.2 h
  obtain ⟨kinds, hinline, -, hleads⟩ := hat.closes hclosed (bounded_newline following)
  rcases hleads.cases_spans with ⟨stop, hspans, hat'⟩ | ⟨front, back, stop, fault, rfl, hspans, hfault⟩
  · exact ⟨stop, by rw [hspans.2]; omega, hspans.inLine hinline, .inr (enclosedAt_nil.1 hat').newline⟩
  · refine ⟨stop, by rw [hspans.2]; omega, hspans.inLine fun kind hkind => ?_, .inl ⟨fault, hfault⟩⟩
    exact hinline kind (List.mem_append_left _ hkind)

end PropertyWrapper.Source
