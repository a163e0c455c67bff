import PropertyWrapper.Proofs.Source.Enclosed
import PropertyWrapper.Source.Module

/-!
# Tokens with names in normal form

A text is cut into tokens as it is written, and the names among them are brought into a normal form
afterwards. So the tokens of a line are told by the text that is left in the same way, and only names change.

* `apply_of_ascii` : ASCII characters are in normal form;
* `NormalAt` : from an index on stand the tokens of a text, with names in normal form;
* `NormalAt.token` : a token of the text, in normal form, and what is left.
-/

namespace PropertyWrapper.Source

open Reader PropertyWrapper.Text

variable {normal : NormalForm} {tokens : Array Token} {index : Nat} {indents : List Indent}
  {closers closers' : List Char} {text rest : List Char} {kind : TokenKind}

/-! ## Normal forms -/

/-- What consists of ASCII characters is in normal form. -/
theorem apply_of_ascii (normal : NormalForm) {name : String}
    (h : name.toList.all (·.toNat < 0x80) = true) : normal.apply name = name := by
  have happly := normal.apply_append "" name h
  rwa [String.empty_append, normal.apply_empty, String.empty_append] at happly

/-- The token at an index is the one as written with its name in normal form. -/
theorem tokenAt_normalized (normal : NormalForm) (written : Array Token) (index : Nat) :
    tokenAt (written.map (Token.normalized normal)) index = (tokenAt written index).normalized normal := by
  simp only [tokenAt, Array.getElem?_map]
  cases written[index]? <;> rfl

theorem normalized_asWritten (kind : TokenKind) : kind.normalized .asWritten = kind := by
  cases kind <;> rfl

/-- With names as they are written the tokens are the ones of the text. -/
theorem normalizedTokens_asWritten : normalizedTokens .asWritten = Source.tokens := by
  have htoken : Token.normalized .asWritten = id :=
    funext fun token => by rw [Token.normalized, normalized_asWritten]; rfl
  funext text
  rw [normalizedTokens, htoken, Array.map_id]

/-- A module is read with names as they are written. -/
theorem parseNormalized_asWritten (source : String) : parseNormalized .asWritten source = parseModule source := by
  rw [parseNormalized, normalizedTokens_asWritten]
  rfl

/-! ## From index to index -/

/-- From an index on stand the tokens of a text with names in normal form, inside brackets that the
characters `closers` close. -/
def NormalAt (normal : NormalForm) (tokens : Array Token) (index : Nat) (indents : List Indent)
    (closers text : List Char) : Prop :=
  ∃ written : Array Token, tokens = written.map (Token.normalized normal)
    ∧ EnclosedAt written index indents closers text

namespace NormalAt

/-- A token of the text and what is left behind it. -/
theorem token (h : NormalAt normal tokens index indents closers text)
    (hstep : ∀ {written : Array Token}, EnclosedAt written index indents closers text →
      (tokenAt written index).kind = kind ∧ EnclosedAt written (index + 1) indents closers' rest) :
    (tokenAt tokens index).kind = kind.normalized normal
      ∧ NormalAt normal tokens (index + 1) indents closers' rest := by
  obtain ⟨written, rfl, hwritten⟩ := h
  obtain ⟨hkind, hrest⟩ := hstep hwritten
  refine ⟨?_, written, rfl, hrest⟩
  rw [tokenAt_normalized, Token.normalized, hkind]

/-- A blank between tokens. -/
theorem space (h : NormalAt normal tokens index indents closers (' ' :: text)) :
    NormalAt normal tokens index indents closers text := by
  obtain ⟨written, htokens, hwritten⟩ := h
  exact ⟨written, htokens, hwritten.space⟩

/-- A word in front of a character that is neither part of it nor a quote. -/
theorem word {word : String} {c : Char}
    (h : NormalAt normal tokens index indents closers (word.toList ++ c :: text)) (hword : isWord word = true)
    (hkind : wordToken word.toList = kind) (hfault : ∀ fault, kind ≠ .fault fault)
    (hc : isWordCharacter c = false) (hquote : isQuote c = false) :
    (tokenAt tokens index).kind = kind.normalized normal
      ∧ NormalAt normal tokens (index + 1) indents closers (c :: text) :=
  h.token fun hwritten => hwritten.word hword hkind hfault hc hquote

/-- A name in front of a character that is neither part of it nor a quote. -/
theorem name {name : String} {c : Char}
    (h : NormalAt normal tokens index indents closers (name.toList ++ c :: text)) (hword : isWord name = true)
    (hname : wordToken name.toList = .name name) (hc : isWordCharacter c = false) (hquote : isQuote c = false) :
    (tokenAt tokens index).kind = .name (normal.apply name)
      ∧ NormalAt normal tokens (index + 1) indents closers (c :: text) :=
  h.word hword hname (fun fault => by simp) hc hquote

/-- A quoted text, unless another quote follows. -/
theorem quoted {quote c : Char} {points : Points}
    (h : NormalAt normal tokens index indents closers
      (quote :: (quotedBody quote points ++ quote :: c :: text)))
    (hquote : isQuote quote = true) (hc : c ≠ quote) :
    (tokenAt tokens index).kind = .text { raw := false, bytes := false, formatted := false, marked := false
                                          body := quotedBody quote points }
      ∧ NormalAt normal tokens (index + 1) indents closers (c :: text) :=
  h.token fun hwritten => hwritten.quoted hquote hc

/-- A comma. -/
theorem comma (h : NormalAt normal tokens index indents closers (',' :: text)) :
    (tokenAt tokens index).kind = .symbol .comma
      ∧ NormalAt normal tokens (index + 1) indents closers text :=
  h.token EnclosedAt.comma

/-- A single sign of equality. -/
theorem assign {c : Char} (h : NormalAt normal tokens index indents closers ('=' :: c :: text))
    (hc : c ≠ '=') :
    (tokenAt tokens index).kind = .symbol .assign
      ∧ NormalAt normal tokens (index + 1) indents closers (c :: text) :=
  h.token fun hwritten => hwritten.assign hc

/-- An opening parenthesis, as long as there are not too many brackets. -/
theorem lparen (h : NormalAt normal tokens index indents closers ('(' :: text))
    (hlimit : closers.length < bracketLimit) :
    (tokenAt tokens index).kind = .symbol .lparen
      ∧ NormalAt normal tokens (index + 1) indents (')' :: closers) text :=
  h.token fun hwritten => hwritten.lparen hlimit

/-- The closing parenthesis of the innermost open one. -/
theorem rparen (h : NormalAt normal tokens index indents (')' :: closers) (')' :: text)) :
    (tokenAt tokens index).kind = .symbol .rparen
      ∧ NormalAt normal tokens (index + 1) indents closers text :=
  h.token EnclosedAt.rparen

/-- The end of a line ends the text. -/
theorem finish (h : NormalAt normal tokens index [⟨0, 0⟩] [] ['\n']) :
    (tokenAt tokens index).kind = .newline ∧ (tokenAt tokens (index + 1)).kind = .finish := by
  obtain ⟨written, rfl, hwritten⟩ := h
  obtain ⟨hnewline, hfinish⟩ := hwritten.finish
  rw [tokenAt_normalized, tokenAt_normalized, Token.normalized, Token.normalized, hnewline, hfinish]
  exact ⟨rfl, rfl⟩

end NormalAt

end PropertyWrapper.Source
