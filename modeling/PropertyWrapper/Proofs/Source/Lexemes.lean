import PropertyWrapper.Proofs.Result
import PropertyWrapper.Proofs.Source.Closed

/-!
# The characters of a token

What a token takes of the text that is read, told by the classes of characters that closed texts are made of:
numbers, words and operators consist of plain characters, a bracket is a single character, and a literal is
taken with its quotes.

* `PlainPrefix`, `scanNumber_plainPrefix` : numbers consist of plain characters;
* `scanText_eq_ok` : what the lexer takes for a literal is one;
* `nextToken_word_eq`, `nextToken_of_not_word` : the lexer where a word starts and where none does;
* `nextToken_consumes` : the characters of any token, and the brackets that it opens or closes.
-/

namespace PropertyWrapper.Source

open PropertyWrapper.Text

/-! ## Kinds of tokens -/

/-- Whether a token stands inside a line. -/
def TokenKind.isInline : TokenKind → Bool
  | .newline | .indent | .dedent | .finish | .fault _ => false
  | _ => true

/-- Whether a token opens a bracket. -/
def TokenKind.opens : TokenKind → Bool
  | .symbol .lparen | .symbol .lbracket | .symbol .lbrace => true
  | _ => false

/-- Whether a token closes a bracket. -/
def TokenKind.closes : TokenKind → Bool
  | .symbol .rparen | .symbol .rbracket | .symbol .rbrace => true
  | _ => false

/-- How many brackets are open behind a token, if it closes none that is not open. -/
def TokenKind.deepen (kind : TokenKind) (depth : Nat) : Option Nat :=
  if kind.opens then some (depth + 1)
  else if kind.closes then if depth = 0 then none else some (depth - 1)
  else some depth

/-- How many brackets are open behind some tokens, if they close none that is not open. -/
def deepens (kinds : List TokenKind) (depth : Nat) : Option Nat :=
  kinds.foldlM (fun depth kind => kind.deepen depth) depth

theorem deepens_cons (kind : TokenKind) (kinds : List TokenKind) (depth : Nat) :
    deepens (kind :: kinds) depth = (kind.deepen depth).bind (deepens kinds) := rfl

theorem inline_replicate_rparen (count : Nat) :
    ∀ kind ∈ List.replicate count (TokenKind.symbol .rparen), kind.isInline = true := by
  intro kind hkind
  rw [List.eq_of_mem_replicate hkind]
  rfl

theorem deepens_replicate_rparen (count : Nat) :
    deepens (List.replicate count (TokenKind.symbol .rparen)) count = some 0 := by
  induction count with
  | zero => rfl
  | succ count ih =>
    rw [List.replicate_succ, deepens_cons]
    exact ih

/-! ## Numbers -/

/-- `PlainPrefix rest text` says that `rest` is what remains of `text` behind some plain characters. -/
def PlainPrefix (rest text : List Char) : Prop :=
  ∃ word, (∀ c ∈ word, isPlain c = true) ∧ text = word ++ rest

namespace PlainPrefix

variable {rest text : List Char}

theorem refl (text : List Char) : PlainPrefix text text := ⟨[], by simp, rfl⟩

theorem cons {c : Char} (hc : isPlain c = true) (h : PlainPrefix rest text) :
    PlainPrefix rest (c :: text) := by
  obtain ⟨word, hword, rfl⟩ := h
  refine ⟨c :: word, ?_, rfl⟩
  intro d hd
  rcases List.mem_cons.1 hd with rfl | hd
  · exact hc
  · exact hword d hd

theorem trans {middle : List Char} (h : PlainPrefix rest middle) (h' : PlainPrefix middle text) :
    PlainPrefix rest text := by
  obtain ⟨word, hword, rfl⟩ := h
  obtain ⟨word', hword', rfl⟩ := h'
  refine ⟨word' ++ word, ?_, (List.append_assoc _ _ _).symm⟩
  intro c hc
  rcases List.mem_append.1 hc with hc | hc
  · exact hword' c hc
  · exact hword c hc

theorem length_le (h : PlainPrefix rest text) : rest.length ≤ text.length := by
  obtain ⟨word, -, rfl⟩ := h
  simp

end PlainPrefix

theorem isPlain_of_isDigit {c : Char} (h : c.isDigit = true) : isPlain c = true :=
  isPlain_of_isWordCharacter (by simp [isWordCharacter, h])

theorem digitTail_plainPrefix {isDigit : Char → Bool}
    (hdigit : ∀ c, isDigit c = true → isPlain c = true) {text : List Char} {run : Digits}
    (h : digitTail isDigit text = some run) : PlainPrefix run.rest text := by
  fun_induction digitTail isDigit text generalizing run with
  | case1 =>
    obtain rfl := Option.some.inj h
    exact .refl _
  | case2 => cases h
  | case3 d rest hd ih =>
    obtain ⟨tail, htail, rfl⟩ := Option.map_eq_some_iff.1 h
    have hrest : PlainPrefix tail.rest rest := ih htail
    exact .cons (by decide) (.cons (hdigit d hd) hrest)
  | case4 => cases h
  | case5 d rest _ _ hd ih =>
    obtain ⟨tail, htail, rfl⟩ := Option.map_eq_some_iff.1 h
    have hrest : PlainPrefix tail.rest rest := ih htail
    exact .cons (hdigit d hd) hrest
  | case6 =>
    obtain rfl := Option.some.inj h
    exact .refl _

/-- Digits take at least one character. -/
theorem digitRun_plainPrefix {isDigit : Char → Bool}
    (hdigit : ∀ c, isDigit c = true → isPlain c = true) {text : List Char} {run : Digits}
    (h : digitRun isDigit text = some run) :
    ∃ d tail, text = d :: tail ∧ isPlain d = true ∧ PlainPrefix run.rest tail := by
  unfold digitRun at h
  split at h
  · rename_i d tail
    split at h
    · rename_i hd
      obtain ⟨run', hrun, rfl⟩ := Option.map_eq_some_iff.1 h
      have hrest : PlainPrefix run'.rest tail := digitTail_plainPrefix hdigit hrun
      exact ⟨d, tail, rfl, hdigit d hd, hrest⟩
    · cases h
  · cases h

theorem digitRun_plainPrefix' {isDigit : Char → Bool}
    (hdigit : ∀ c, isDigit c = true → isPlain c = true) {text : List Char} {run : Digits}
    (h : digitRun isDigit text = some run) : PlainPrefix run.rest text := by
  obtain ⟨d, tail, rfl, hd, htail⟩ := digitRun_plainPrefix hdigit h
  exact .cons hd htail

/-- The tokens that numbers give: numbers, and what no rule takes. -/
def TokenKind.isNumeric : TokenKind → Bool
  | .number _ | .stray => true
  | _ => false

/-- `NumberEnds result text` says that a number, if it was read, took plain characters of `text`. -/
def NumberEnds (result : NumberResult) (text : List Char) : Prop :=
  ∀ token count rest, result = .ok (token, count, rest) →
    token.isNumeric = true ∧ PlainPrefix rest text

theorem NumberEnds.error (fault : LexicalFault) (text : List Char) :
    NumberEnds (.error fault) text := by
  intro token count rest h
  cases h

theorem NumberEnds.trans {result : NumberResult} {middle text : List Char}
    (h : NumberEnds result middle) (hmiddle : PlainPrefix middle text) : NumberEnds result text := by
  intro token count rest hresult
  obtain ⟨htoken, hrest⟩ := h token count rest hresult
  exact ⟨htoken, hrest.trans hmiddle⟩

theorem numberEnds_endNumber {kind : NumberKind} {token : TokenKind} {count : Nat}
    {rest : List Char} (htoken : token.isNumeric = true) :
    NumberEnds (endNumber kind token count rest) rest := by
  intro token' count' rest' h
  unfold endNumber at h
  split at h
  · cases h
    exact ⟨htoken, .refl _⟩
  · cases h

theorem numberEnds_radixNumber {kind : NumberKind} {base : Nat} {isDigit : Char → Bool}
    (hdigit : ∀ c, isDigit c = true → isPlain c = true) (text : List Char) :
    NumberEnds (radixNumber kind base isDigit text) text := by
  unfold radixNumber
  split
  rename_i skipped rest heq
  have hinitial : PlainPrefix rest text := by
    split at heq
    · cases heq
      exact .cons (by decide) (.refl _)
    · cases heq
      exact .refl _
  split
  · exact .error _ _
  · rename_i run hrun
    have htail := (digitRun_plainPrefix' hdigit hrun).trans hinitial
    split
    · exact .error _ _
    · exact (numberEnds_endNumber rfl).trans htail

theorem numberEnds_endFloat (digits : List Char) (scale : Int) (count : Nat) (rest : List Char) :
    NumberEnds (endFloat digits scale count rest) rest := by
  unfold endFloat
  simp only
  split
  · rename_i c tail
    split
    · rename_i hc
      have hplain : isPlain c = true := by
        simp only [Bool.or_eq_true, decide_eq_true_eq] at hc
        rcases hc with rfl | rfl <;> decide
      exact (numberEnds_endNumber rfl).trans (.cons hplain (.refl _))
    · exact numberEnds_endNumber rfl
  · intro token count rest h
    cases h
    exact ⟨rfl, .refl _⟩

theorem exponentPart_plainPrefix {text rest : List Char} {exponent : Int} {length : Nat}
    (h : exponentPart text = some (some (exponent, length, rest))) : PlainPrefix rest text := by
  have hdigits : ∀ {tail : List Char} {run : Digits}, digitRun Char.isDigit tail = some run →
      PlainPrefix run.rest tail := fun hrun => digitRun_plainPrefix' (fun _ => isPlain_of_isDigit) hrun
  unfold exponentPart at h
  dsimp only at h
  split at h
  · split at h
    · cases h
    · rename_i run hrun
      cases h
      exact .cons (by decide) (hdigits hrun)
  · split at h
    · cases h
    · rename_i run hrun
      cases h
      exact .cons (by decide) (hdigits hrun)
  · split at h
    · obtain ⟨run, hrun, heq⟩ := Option.map_eq_some_iff.1 h
      cases heq
      exact hdigits hrun
    · cases h
  · cases h

theorem isPlain_of_exponentMark {c : Char} (hc : (c = 'e' || c = 'E') = true) :
    isPlain c = true := by
  simp only [Bool.or_eq_true, decide_eq_true_eq] at hc
  rcases hc with rfl | rfl <;> decide

theorem numberEnds_afterFraction (digits : List Char) (places count : Nat) (rest : List Char) :
    NumberEnds (afterFraction digits places count rest) rest := by
  unfold afterFraction
  simp only
  split
  · rename_i c tail
    split
    · rename_i hc
      split
      · exact .error _ _
      · exact numberEnds_endNumber rfl
      · rename_i hexp
        refine (numberEnds_endFloat _ _ _ _).trans ?_
        exact .cons (isPlain_of_exponentMark hc) (exponentPart_plainPrefix hexp)
    · exact numberEnds_endFloat _ _ _ _
  · exact numberEnds_endFloat _ _ _ _

theorem numberEnds_afterPoint (whole : List Char) (count : Nat) (rest : List Char) :
    NumberEnds (afterPoint whole count rest) rest := by
  unfold afterPoint
  split
  · split
    · split
      · exact .error _ _
      · rename_i run hrun
        exact (numberEnds_afterFraction _ _ _ _).trans
          (digitRun_plainPrefix' (fun _ => isPlain_of_isDigit) hrun)
    · exact numberEnds_afterFraction _ _ _ _
  · exact numberEnds_afterFraction _ _ _ _

theorem isNumeric_decimalToken (digits : List Char) : (decimalToken digits).isNumeric = true := by
  unfold decimalToken
  split <;> rfl

theorem numberEnds_afterWhole (digits : List Char) (count : Nat) (rest : List Char) :
    NumberEnds (afterWhole digits count rest) rest := by
  have hinteger : NumberEnds
      (if hasSuperfluousZeros digits then .error .leadingZeros
        else endNumber .decimal (decimalToken digits) count rest) rest := by
    split
    · exact .error _ _
    · exact numberEnds_endNumber (isNumeric_decimalToken digits)
  unfold afterWhole
  simp only
  split
  · exact (numberEnds_afterPoint _ _ _).trans (.cons (by decide) (.refl _))
  · split
    · split
      · split
        · exact numberEnds_afterFraction _ _ _ _
        · exact numberEnds_endNumber (isNumeric_decimalToken digits)
      · exact numberEnds_afterFraction _ _ _ _
    · split
      · exact numberEnds_afterFraction _ _ _ _
      · exact hinteger
  · exact hinteger

theorem isWordCharacter_of_hexDigit {c : Char}
    (h : (c.isDigit || ('a' ≤ c && c ≤ 'f') || ('A' ≤ c && c ≤ 'F')) = true) :
    isWordCharacter c = true := by
  have hletter : ∀ a b : Char, ('a' ≤ a ∧ b ≤ 'z') ∨ ('A' ≤ a ∧ b ≤ 'Z') → a ≤ c → c ≤ b →
      c.isAlpha = true := by
    intro a b hab ha hb
    simp only [Char.isAlpha, Char.isUpper, Char.isLower, Bool.or_eq_true, Bool.and_eq_true,
      decide_eq_true_eq]
    rcases hab with ⟨h1, h2⟩ | ⟨h1, h2⟩
    · exact .inr ⟨Char.le_trans h1 ha, Char.le_trans hb h2⟩
    · exact .inl ⟨Char.le_trans h1 ha, Char.le_trans hb h2⟩
  simp only [Bool.or_eq_true, Bool.and_eq_true, decide_eq_true_eq] at h
  rcases h with (h | h) | h
  · simp [isWordCharacter, h]
  · simp [isWordCharacter, isAsciiStart, hletter 'a' 'f' (by decide) h.1 h.2]
  · simp [isWordCharacter, isAsciiStart, hletter 'A' 'F' (by decide) h.1 h.2]

theorem isWordCharacter_of_octalDigit {c : Char} (h : ('0' ≤ c && c ≤ '7') = true) :
    isWordCharacter c = true := by
  have hdigit : c.isDigit = true := by
    simp only [Bool.and_eq_true, decide_eq_true_eq] at h
    simp only [Char.isDigit, Bool.and_eq_true, decide_eq_true_eq]
    exact ⟨h.1, Char.le_trans h.2 (by decide)⟩
  simp [isWordCharacter, hdigit]

theorem isWordCharacter_of_binaryDigit {c : Char} (h : (c = '0' || c = '1') = true) :
    isWordCharacter c = true := by
  simp only [Bool.or_eq_true, decide_eq_true_eq] at h
  rcases h with rfl | rfl <;> decide

/-- A number takes at least one character, and only plain ones. -/
theorem scanNumber_plainPrefix {text rest : List Char} {token : TokenKind} {count : Nat}
    (h : scanNumber text = .ok (token, count, rest)) :
    token.isNumeric = true ∧
      ∃ c tail, text = c :: tail ∧ isPlain c = true ∧ PlainPrefix rest tail := by
  have hwhole : ∀ {text : List Char} {run : Digits}, digitRun Char.isDigit text = some run →
      afterWhole run.digits run.count run.rest = .ok (token, count, rest) →
      token.isNumeric = true ∧
        ∃ c tail, text = c :: tail ∧ isPlain c = true ∧ PlainPrefix rest tail := by
    intro text run hrun h
    obtain ⟨htoken, hrest⟩ := numberEnds_afterWhole _ _ _ _ _ _ h
    obtain ⟨c, tail, htext, hc, htail⟩ :=
      digitRun_plainPrefix (fun _ => isPlain_of_isDigit) hrun
    exact ⟨htoken, c, tail, htext, hc, hrest.trans htail⟩
  have hradix : ∀ {mark : Char} {tail : List Char} {kind : NumberKind} {base : Nat}
      {isDigit : Char → Bool}, isPlain mark = true → (∀ c, isDigit c = true → isPlain c = true) →
      radixNumber kind base isDigit tail = .ok (token, count, rest) →
      token.isNumeric = true ∧ ∃ c tail', '0' :: mark :: tail = c :: tail' ∧ isPlain c = true
        ∧ PlainPrefix rest tail' := by
    intro mark tail kind base isDigit hmark hdigit h
    obtain ⟨htoken, hrest⟩ := numberEnds_radixNumber hdigit tail _ _ _ h
    exact ⟨htoken, '0', mark :: tail, rfl, by decide, .cons hmark hrest⟩
  have hmark : ∀ {c a b : Char}, (c = a || c = b) = true → isPlain a = true → isPlain b = true →
      isPlain c = true := by
    intro c a b hc ha hb
    simp only [Bool.or_eq_true, decide_eq_true_eq] at hc
    rcases hc with rfl | rfl
    · exact ha
    · exact hb
  unfold scanNumber at h
  split at h
  · rename_i tail
    obtain ⟨htoken, hrest⟩ := numberEnds_afterPoint _ _ _ _ _ _ h
    exact ⟨htoken, '.', tail, rfl, by decide, hrest⟩
  · rename_i mark tail
    split at h
    · rename_i hx
      exact hradix (hmark hx (by decide) (by decide))
        (fun _ hc => isPlain_of_isWordCharacter (isWordCharacter_of_hexDigit hc)) h
    · split at h
      · rename_i ho
        exact hradix (hmark ho (by decide) (by decide))
          (fun _ hc => isPlain_of_isWordCharacter (isWordCharacter_of_octalDigit hc)) h
      · split at h
        · rename_i hb
          exact hradix (hmark hb (by decide) (by decide))
            (fun _ hc => isPlain_of_isWordCharacter (isWordCharacter_of_binaryDigit hc)) h
        · split at h
          · cases h
          · rename_i run hrun
            exact hwhole hrun h
  · split at h
    · cases h
    · rename_i run hrun
      exact hwhole hrun h

/-! ## Symbols -/

/-- The character of a closing bracket. -/
def closerOf : Symbol → Option Char
  | .rparen => some ')'
  | .rbracket => some ']'
  | .rbrace => some '\x7d'
  | _ => none

theorem scanSymbol_opening {c closing : Char} (h : closingBracket? c = some closing)
    (rest : List Char) :
    ∃ symbol, scanSymbol (c :: rest) = some (symbol, 1) ∧ closingOf symbol = some closing := by
  unfold closingBracket? at h
  split at h
  · exact ⟨.lparen, rfl, h⟩
  · exact ⟨.lbracket, rfl, h⟩
  · exact ⟨.lbrace, rfl, h⟩
  · cases h

theorem scanSymbol_closing {c : Char} (h : isClosing c = true) (rest : List Char) :
    ∃ symbol, scanSymbol (c :: rest) = some (symbol, 1) ∧ closerOf symbol = some c := by
  simp only [isClosing, Bool.or_eq_true, decide_eq_true_eq] at h
  rcases h with (rfl | rfl) | rfl
  · exact ⟨.rparen, rfl, rfl⟩
  · exact ⟨.rbracket, rfl, rfl⟩
  · exact ⟨.rbrace, rfl, rfl⟩

/-- The state of reading behind a number of characters of a line. -/
def Reading.advance (reading : Reading) (length : Nat) : Reading :=
  { reading with rest := reading.rest.drop length, pos := reading.pos.forward length }

theorem symbolToken_of_plain {symbol : Symbol} {length : Nat} {reading : Reading}
    (hopen : closingOf symbol = none) (hclose : closerOf symbol = none) :
    symbolToken symbol length reading = .ok (.symbol symbol, reading.advance length) := by
  unfold symbolToken Reading.advance
  cases symbol <;> simp_all [closingOf, closerOf]

theorem symbolToken_of_opening {symbol : Symbol} {length : Nat} {reading : Reading}
    {closing : Char} (hopen : closingOf symbol = some closing) :
    symbolToken symbol length reading = .error .tooManyBrackets ∨
      symbolToken symbol length reading = .ok (.symbol symbol,
        { reading.advance length with
          brackets := (closing, reading.pos.line) :: reading.brackets }) := by
  unfold symbolToken Reading.advance
  by_cases hlimit : bracketLimit ≤ reading.brackets.length
  · left
    simp only [hopen, if_pos hlimit]
  · right
    simp only [hopen, if_neg hlimit]

theorem symbolToken_of_closing {symbol : Symbol} {length : Nat} {reading : Reading} {c : Char}
    {line : Nat} {outer : List (Char × Nat)} (hclose : closerOf symbol = some c)
    (hbrackets : reading.brackets = (c, line) :: outer) :
    symbolToken symbol length reading =
      .ok (.symbol symbol, { reading.advance length with brackets := outer }) := by
  unfold symbolToken Reading.advance
  cases symbol <;> cases hclose <;> simp [closingOf, hbrackets]

theorem opens_symbol (symbol : Symbol) : (TokenKind.symbol symbol).opens = (closingOf symbol).isSome := by
  cases symbol <;> rfl

theorem closes_symbol (symbol : Symbol) : (TokenKind.symbol symbol).closes = (closerOf symbol).isSome := by
  cases symbol <;> rfl

theorem closingOf_of_closerOf {symbol : Symbol} {c : Char} (h : closerOf symbol = some c) :
    closingOf symbol = none := by
  cases symbol <;> first | rfl | cases h

/-- Each symbol consists of plain characters or is a bracket. -/
theorem symbolTable_cases : ∀ entry ∈ symbolTable,
    (entry.1 ≠ [] ∧ (∀ c ∈ entry.1, isPlain c = true) ∧ closingOf entry.2 = none ∧ closerOf entry.2 = none)
      ∨ ∃ c, entry.1 = [c] ∧ ((∃ closing, closingBracket? c = some closing ∧ closingOf entry.2 = some closing)
        ∨ isClosing c = true ∧ closerOf entry.2 = some c) := by
  have hall : symbolTable.all (fun entry =>
      entry.1 != [] && entry.1.all isPlain && (closingOf entry.2).isNone && (closerOf entry.2).isNone
        || entry.1.length == 1 && entry.1.any fun c =>
          (closingBracket? c).isSome && closingOf entry.2 == closingBracket? c
            || isClosing c && closerOf entry.2 == some c) = true := by
    decide +kernel
  intro entry hentry
  have hone := List.all_eq_true.1 hall entry hentry
  simp only [Bool.or_eq_true, Bool.and_eq_true, List.all_eq_true, Option.isNone_iff_eq_none,
    bne_iff_ne, beq_iff_eq, List.length_eq_one_iff] at hone
  rcases hone with ⟨⟨⟨hne, hplain⟩, hopen⟩, hclose⟩ | ⟨⟨c, hc⟩, hbracket⟩
  · exact .inl ⟨hne, hplain, hopen, hclose⟩
  · refine .inr ⟨c, hc, ?_⟩
    simp only [hc, List.any_cons, List.any_nil, Bool.or_false, Bool.or_eq_true, Bool.and_eq_true,
      beq_iff_eq, Option.isSome_iff_exists] at hbracket
    rcases hbracket with ⟨⟨closing, hclosing⟩, heq⟩ | hclose
    · exact .inl ⟨closing, hclosing, heq.trans hclosing⟩
    · exact .inr hclose

/-- A closing bracket is read only where it closes the innermost open one. -/
theorem exists_brackets_of_closing {reading next : Reading} {symbol : Symbol} {length : Nat} {c : Char}
    {kind : TokenKind} (hclose : closerOf symbol = some c)
    (h : symbolToken symbol length reading = .ok (kind, next)) :
    ∃ line outer, reading.brackets = (c, line) :: outer := by
  cases hstack : reading.brackets with
  | nil =>
    unfold symbolToken at h
    cases symbol <;> cases hclose <;> simp [closingOf, hstack] at h
  | cons entry outer =>
    obtain ⟨expected, line⟩ := entry
    by_cases hexpected : expected = c
    · exact ⟨line, outer, by rw [hexpected]⟩
    · unfold symbolToken at h
      cases symbol <;> cases hclose <;> simp [closingOf, hstack, hexpected] at h

/-! ## Literals -/

theorem singleBody_eq_ok {mark : Char} {passed : Nat} {text body rest : List Char}
    (h : singleBody mark passed text = .ok (body, rest)) :
    text = body ++ mark :: rest ∧ SingleBody mark body := by
  fun_induction singleBody mark passed text generalizing body rest with
  | case1 => cases h
  | case2 passed c tail ih =>
    obtain ⟨⟨body', rest'⟩, htail, heq⟩ := map_eq_ok_iff.1 h
    cases heq
    obtain ⟨rfl, hbody⟩ := ih htail
    exact ⟨rfl, .escape hbody⟩
  | case3 passed tail hescape =>
    cases h
    exact ⟨rfl, .nil⟩
  | case4 => cases h
  | case5 passed c tail hescape hmark hline ih =>
    obtain ⟨⟨body', rest'⟩, htail, heq⟩ := map_eq_ok_iff.1 h
    cases heq
    obtain ⟨rfl, hbody⟩ := ih htail
    refine ⟨rfl, .char hmark ?_ hline hbody⟩
    rintro rfl
    obtain ⟨d, tail, hcons⟩ : ∃ d tail, body' ++ mark :: rest = d :: tail :=
      List.exists_cons_of_ne_nil (by simp)
    exact hescape d tail rfl hcons

theorem tripleBody_eq_some {mark : Char} {text body rest : List Char}
    (h : tripleBody mark text = some (body, rest)) :
    text = body ++ mark :: mark :: mark :: rest ∧ TripleBody mark body := by
  fun_induction tripleBody mark text generalizing body rest with
  | case1 => cases h
  | case2 c tail ih =>
    obtain ⟨⟨body', rest'⟩, htail, heq⟩ := Option.map_eq_some_iff.1 h
    cases heq
    obtain ⟨rfl, hbody⟩ := ih htail
    exact ⟨rfl, .escape hbody⟩
  | case3 a tail hescape hend =>
    cases h
    simp only [Bool.and_eq_true, decide_eq_true_eq, List.isPrefixOf_iff_prefix] at hend
    obtain ⟨rfl, more, rfl⟩ := hend
    exact ⟨rfl, .nil⟩
  | case4 a tail hescape hend ih =>
    obtain ⟨⟨body', rest'⟩, htail, heq⟩ := Option.map_eq_some_iff.1 h
    cases heq
    obtain ⟨rfl, hbody⟩ := ih htail
    refine ⟨rfl, .char ?_ (fun ha hprefix => hend ?_) hbody⟩
    · rintro rfl
      obtain ⟨d, tail, hcons⟩ : ∃ d tail, body' ++ mark :: mark :: mark :: rest = d :: tail :=
        List.exists_cons_of_ne_nil (by simp)
      exact hescape d tail rfl hcons
    · have hlonger : [mark, mark] <+: body' ++ mark :: mark :: mark :: rest := by
        have happend := hprefix.trans (List.prefix_append (body' ++ [mark, mark]) (mark :: rest))
        simpa using happend
      simp only [Bool.and_eq_true, decide_eq_true_eq, List.isPrefixOf_iff_prefix]
      exact ⟨ha, hlonger⟩

/-- What the lexer takes for a literal is one, and an empty one is not followed by its mark. -/
theorem scanText_eq_ok {line : Nat} {mark : Char} (hmark : isQuote mark = true)
    {text body characters rest : List Char} (h : scanText line mark text = .ok (body, characters, rest)) :
    mark :: text = characters ++ rest ∧ IsLiteral mark characters
      ∧ (characters = [mark, mark] → rest.head? ≠ some mark) := by
  have hslash : mark ≠ '\\' := by
    rintro rfl
    exact absurd hmark (by decide)
  unfold scanText at h
  split at h
  · rename_i hpair
    obtain ⟨more, rfl⟩ := List.isPrefixOf_iff_prefix.1 hpair
    split at h
    · rename_i htriple
      cases h
      obtain ⟨heq, hbody⟩ := tripleBody_eq_some htriple
      have hmore : more = body ++ mark :: mark :: mark :: rest := heq
      refine ⟨by simp [hmore], .triple hbody, fun hlength => ?_⟩
      have := congrArg List.length hlength
      simp at this
    · cases h
  · rename_i hpair
    split at h
    · rename_i hsingle
      cases h
      obtain ⟨rfl, hbody⟩ := singleBody_eq_ok hsingle
      refine ⟨by simp, .single hbody, fun hempty hhead => hpair ?_⟩
      obtain rfl : body = [] := by simpa using hempty
      obtain ⟨tail, rfl⟩ := List.head?_eq_some_iff.1 hhead
      simp
    · cases h

/-! ## One token -/

/-- Whether a character stands between tokens of a line. -/
def isSpace (c : Char) : Bool := c = ' ' || c = '\t' || c = '\x0c'

theorem isPlain_of_isSpace {c : Char} (h : isSpace c = true) : isPlain c = true := by
  simp only [isSpace, Bool.or_eq_true, decide_eq_true_eq] at h
  rcases h with (rfl | rfl) | rfl <;> decide

/-- A character that can start the first token of a line: no blank, line end, comment or backslash. -/
def startsToken (c : Char) : Bool :=
  !isSpace c && c != '\n' && c != '#' && c != '\\'

theorem startsToken_of_isWordCharacter {c : Char} (h : isWordCharacter c = true) :
    startsToken c = true := by
  have hne : ∀ d : Char, isWordCharacter d = false → c ≠ d := by
    rintro d hd rfl
    rw [h] at hd
    cases hd
  simp [startsToken, isSpace, hne ' ' (by decide), hne '\t' (by decide), hne '\x0c' (by decide),
    hne '\n' (by decide), hne '#' (by decide), hne '\\' (by decide)]

theorem wordToken_cases (word : List Char) :
    wordToken word = .name (String.ofList word) ∨ (∃ reserved, wordToken word = .reserved reserved)
      ∨ wordToken word = .fault .badIdentifier := by
  unfold wordToken
  split
  · simp only
    split
    · exact .inr (.inl ⟨_, rfl⟩)
    · exact .inl rfl
  · exact .inr (.inr rfl)

/-- The state of reading behind a word. -/
def Reading.afterWord (reading : Reading) : Reading :=
  { reading with
    rest := reading.rest.dropWhile isWordCharacter
    pos := reading.pos.afterAll (reading.rest.takeWhile isWordCharacter) }

/-- The quote with which a word goes on to a literal. -/
def literalMark? (word : List Char) : List Char → Option (Char × List Char)
  | [] => none
  | c :: rest =>
    if isQuote c && literalMarks.contains (String.ofList (word.map Char.toLower)) then some (c, rest)
    else none

/-- The quote behind the marks of a literal is one. -/
theorem isQuote_of_literalMark? {word rest found : List Char} {mark : Char}
    (hfound : literalMark? word rest = some (mark, found)) : isQuote mark = true := by
  cases rest with
  | nil => cases hfound
  | cons c rest =>
    rw [literalMark?] at hfound
    split at hfound
    · rename_i hc
      cases hfound
      exact (Bool.and_eq_true_iff.1 hc).1
    · cases hfound

theorem eq_cons_of_literalMark? {word rest found : List Char} {mark : Char}
    (h : literalMark? word rest = some (mark, found)) : rest = mark :: found := by
  cases rest with
  | nil => cases h
  | cons c rest =>
    rw [literalMark?] at h
    split at h
    · cases h
      rfl
    · cases h

/-- What the lexer does where a word starts. -/
theorem nextToken_word_eq {reading : Reading} {c : Char} {text : List Char}
    (hrest : reading.rest = c :: text) (hc : isWordCharacter c = true) (hdigit : c.isDigit = false) :
    nextToken reading =
      match literalMark? (reading.rest.takeWhile isWordCharacter)
        (reading.rest.dropWhile isWordCharacter) with
      | some (mark, rest) => textToken (reading.rest.takeWhile isWordCharacter) mark reading rest
      | none =>
        match wordToken (reading.rest.takeWhile isWordCharacter) with
        | .fault fault => .error fault
        | kind => .ok (kind, reading.afterWord) := by
  unfold nextToken
  split
  · rename_i hnil
    rw [hrest] at hnil
    cases hnil
  · rename_i c' tail' hcons
    obtain ⟨rfl, -⟩ := List.cons.inj (hrest.symm.trans hcons)
    rw [if_pos (by simp [hc, hdigit])]
    dsimp only
    split
    · rename_i hmark hdrop
      rw [hdrop, literalMark?, hmark]
      rfl
    · rename_i hmark hdrop
      rw [hdrop, literalMark?, hmark]
      rfl
    · rename_i hsingle hdouble
      have hnone : literalMark? (reading.rest.takeWhile isWordCharacter)
          (reading.rest.dropWhile isWordCharacter) = none := by
        unfold literalMark?
        split
        · rfl
        · rename_i d rest hdrop
          rw [if_neg]
          simp only [isQuote, Bool.and_eq_true, Bool.or_eq_true, decide_eq_true_eq, not_and]
          rintro (rfl | rfl) hmark
          · exact hsingle _ hmark hdrop
          · exact hdouble _ hmark hdrop
      rw [hnone]
      rfl

/-- What `nextToken` does when no word starts. -/
theorem nextToken_of_not_word {reading : Reading} {c : Char} {tail : List Char}
    (hrest : reading.rest = c :: tail) (hc : (isWordCharacter c && !c.isDigit) = false) :
    nextToken reading =
      if c.isDigit || (c = '.' && (tail.head?.map Char.isDigit).getD false) then do
        let (token, count, rest) ← scanNumber reading.rest
        return (token, { reading with rest, pos := reading.pos.forward count })
      else if c = '\x27' || c = '\x22' then textToken [] c reading tail
      else if ['<', '>'].isPrefixOf reading.rest then
        .ok (.stray, { reading with rest := tail.drop 1, pos := reading.pos.forward 2 })
      else
        match scanSymbol reading.rest with
        | some (symbol, length) => symbolToken symbol length reading
        | none =>
          if isPrintable c.toNat then
            .ok (.stray, { reading with rest := tail, pos := reading.pos.after c })
          else .error (.badCharacter c.toNat) := by
  obtain ⟨rest, pos, indents, brackets⟩ := reading
  obtain rfl : rest = c :: tail := hrest
  have hne : ¬ (isWordCharacter c && !c.isDigit) = true := by
    rw [hc]
    exact Bool.false_ne_true
  exact if_neg hne

/-- Whether a character starts a symbol or nothing: no word, number or literal starts with it. -/
def startsSymbol (c : Char) : Bool := !isWordCharacter c && !isQuote c && c != '.' && c != '<'

/-- Where only a symbol can start the lexer takes the one that stands there. -/
theorem nextToken_symbol {reading : Reading} {c : Char} {tail : List Char} {symbol : Symbol}
    {length : Nat} (hrest : reading.rest = c :: tail) (hc : startsSymbol c = true)
    (hsymbol : scanSymbol (c :: tail) = some (symbol, length)) :
    nextToken reading = symbolToken symbol length reading := by
  simp only [startsSymbol, Bool.and_eq_true, Bool.not_eq_true', bne_iff_ne] at hc
  obtain ⟨⟨⟨hword, hquote⟩, hdot⟩, hless⟩ := hc
  have hdigit : c.isDigit = false := by
    simp only [isWordCharacter, Bool.or_eq_false_iff] at hword
    exact hword.1.2
  have hmark : ¬ (decide (c = '\x27') || decide (c = '\x22')) = true := Bool.eq_false_iff.1 hquote
  have hpair : ['<', '>'].isPrefixOf (c :: tail) = false := by
    rw [Bool.eq_false_iff]
    intro h
    rw [List.isPrefixOf_iff_prefix, List.cons_prefix_cons] at h
    exact hless h.1.symm
  rw [nextToken_of_not_word hrest (by simp [hword]), if_neg (by simp [hdigit, hdot]),
    if_neg hmark, hrest, hpair, if_neg Bool.false_ne_true, hsymbol]

theorem nextToken_quote {reading : Reading} {c : Char} {tail : List Char}
    (hrest : reading.rest = c :: tail) (hc : isQuote c = true) :
    nextToken reading = textToken [] c reading tail := by
  have hfacts : (isWordCharacter c && !c.isDigit) = false ∧ c.isDigit = false ∧ c ≠ '.' := by
    simp only [isQuote, Bool.or_eq_true, decide_eq_true_eq] at hc
    rcases hc with rfl | rfl <;> decide
  obtain ⟨hword, hdigit, hdot⟩ := hfacts
  rw [nextToken_of_not_word hrest hword, if_neg (by simp [hdigit, hdot])]
  exact if_pos hc

/-- The characters that a token takes in front of `rest`, with the brackets that are open in front of them
and behind them. -/
inductive Taken (rest : List Char) : TokenKind → List Char → List Char → List Char → Prop where
  | plain {kind : TokenKind} {awaited word : List Char} : kind.opens = false → kind.closes = false →
      (∀ c ∈ word, isPlain c = true) → Taken rest kind awaited word awaited
  | opening {kind : TokenKind} {awaited : List Char} {c closing : Char} : kind.opens = true →
      closingBracket? c = some closing → Taken rest kind awaited [c] (closing :: awaited)
  | closing {kind : TokenKind} {awaited : List Char} {c : Char} : kind.opens = false → kind.closes = true →
      isClosing c = true → Taken rest kind (c :: awaited) [c] awaited
  | literal {text : TextLiteral} {awaited marks lit : List Char} {mark : Char} :
      (∀ c ∈ marks, isPlain c = true) → isQuote mark = true → IsLiteral mark lit →
        (lit = [mark, mark] → rest.head? ≠ some mark) → Taken rest (.text text) awaited (marks ++ lit) awaited

/-- What a token takes goes in front of what closes the brackets that are open behind it. -/
theorem Taken.closes {rest awaited piece awaited' text : List Char} {kind : TokenKind}
    (h : Taken rest kind awaited piece awaited') (hreturn : '\r' ∉ piece) (htext : Closes awaited' text)
    (hfront : text <+: rest) : Closes awaited (piece ++ text) := by
  cases h with
  | plain _ _ hword => exact .plains hword htext
  | opening _ hopen => exact .opening hopen htext
  | closing _ _ hclose => exact .closing hclose htext
  | literal hmarks hmark hlit hempty =>
    rw [List.append_assoc]
    rw [List.mem_append, not_or] at hreturn
    refine .plains hmarks (.literal hmark hlit hreturn.2 (fun hpair hhead => hempty hpair ?_) htext)
    obtain ⟨tail, rfl⟩ := List.head?_eq_some_iff.1 hhead
    obtain ⟨more, rfl⟩ := hfront
    rfl

/-- A token was read: it stands inside a line and takes characters from the front of what is left. -/
structure Consumes (reading : Reading) (kind : TokenKind) (next : Reading) : Prop where
  isInline : kind.isInline = true
  indents_eq : next.indents = reading.indents
  taken : ∃ piece, piece ≠ [] ∧ reading.rest = piece ++ next.rest
    ∧ Taken next.rest kind (reading.brackets.map Prod.fst) piece (next.brackets.map Prod.fst)

theorem Consumes.length_lt {reading next : Reading} {kind : TokenKind} (h : Consumes reading kind next) :
    next.rest.length < reading.rest.length := by
  obtain ⟨piece, hne, hsplit, -⟩ := h.taken
  have hpos := List.length_pos_of_ne_nil hne
  rw [hsplit, List.length_append]
  omega

/-- A character that no rule of the lexer takes is plain. -/
theorem isPlain_of_stray {c : Char} {text : List Char} (hc : startsToken c = true)
    (hquote : isQuote c = false) (hnone : scanSymbol (c :: text) = none)
    (hprintable : isPrintable c.toNat = true) : isPlain c = true := by
  have hclosing : isClosing c = false := by
    rw [Bool.eq_false_iff]
    intro hclose
    obtain ⟨symbol, hsymbol, -⟩ := scanSymbol_closing hclose text
    rw [hnone] at hsymbol
    cases hsymbol
  have hopening : closingBracket? c = none := by
    rw [Option.eq_none_iff_forall_ne_some]
    intro closing hopen
    obtain ⟨symbol, hsymbol, -⟩ := scanSymbol_opening hopen text
    rw [hnone] at hsymbol
    cases hsymbol
  have hreturn : c ≠ '\r' := by
    rintro rfl
    exact absurd hprintable (by decide +kernel)
  simp only [startsToken, Bool.and_eq_true, bne_iff_ne] at hc
  simp [isPlain, hquote, hclosing, hopening, hreturn, hc.1.1.2, hc.1.2, hc.2]

section Tokens

variable {reading next : Reading} {kind : TokenKind}

theorem textToken_consumes {marks rest : List Char} {mark : Char}
    (hmarks : ∀ c ∈ marks, isPlain c = true) (hmark : isQuote mark = true)
    (hrest : reading.rest = marks ++ mark :: rest)
    (h : textToken marks mark reading rest = .ok (kind, next)) :
    Consumes reading kind next := by
  rw [textToken] at h
  cases hscan : scanText reading.pos.line mark rest with
  | error fault =>
    rw [hscan] at h
    cases h
  | ok result =>
    obtain ⟨body, characters, left⟩ := result
    rw [hscan] at h
    cases h
    obtain ⟨heq, hlit, hempty⟩ := scanText_eq_ok hmark hscan
    obtain ⟨tail, rfl⟩ := hlit.exists_tail
    refine ⟨rfl, rfl, marks ++ mark :: tail, by simp, ?_, .literal hmarks hmark hlit hempty⟩
    rw [hrest, heq, List.append_assoc]

theorem symbolToken_consumes {symbol : Symbol} {length : Nat}
    (hscan : scanSymbol reading.rest = some (symbol, length))
    (h : symbolToken symbol length reading = .ok (kind, next)) :
    Consumes reading kind next := by
  obtain ⟨entry, hfind, heq⟩ := Option.map_eq_some_iff.1 hscan
  cases heq
  have hmem := List.mem_of_find?_eq_some hfind
  have hprefix := List.find?_some hfind
  rw [List.isPrefixOf_iff_prefix] at hprefix
  have hrest : reading.rest = entry.1 ++ reading.rest.drop entry.1.length := by
    obtain ⟨tail, htail⟩ := hprefix
    rw [← htail, List.drop_left]
  rcases symbolTable_cases entry hmem with ⟨hne, hplain, hopen, hclose⟩ | ⟨c, hc,
    ⟨closing, hclosing, hopen⟩ | ⟨hclosing, hclose⟩⟩
  · rw [symbolToken_of_plain hopen hclose] at h
    cases h
    refine ⟨rfl, rfl, entry.1, hne, hrest, .plain ?_ ?_ hplain⟩
    · rw [opens_symbol, hopen]
      rfl
    · rw [closes_symbol, hclose]
      rfl
  · rcases @symbolToken_of_opening entry.2 entry.1.length reading closing hopen with heq | heq
    · rw [heq] at h
      cases h
    · rw [heq] at h
      cases h
      refine ⟨rfl, rfl, entry.1, by simp [hc], hrest, ?_⟩
      rw [hc]
      exact .opening (by rw [opens_symbol, hopen]; rfl) hclosing
  · have hbrackets : ∃ line outer, reading.brackets = (c, line) :: outer := exists_brackets_of_closing hclose h
    obtain ⟨line, outer, hbrackets⟩ := hbrackets
    rw [symbolToken_of_closing hclose hbrackets] at h
    cases h
    refine ⟨rfl, rfl, entry.1, by simp [hc], hrest, ?_⟩
    rw [hc, hbrackets]
    exact .closing (by rw [opens_symbol, closingOf_of_closerOf hclose]; rfl)
      (by rw [closes_symbol, hclose]; rfl) hclosing

/-- The characters that a token takes, which stands inside a line. -/
theorem nextToken_consumes {c : Char} {text : List Char} (hrest : reading.rest = c :: text)
    (hc : startsToken c = true) (h : nextToken reading = .ok (kind, next)) :
    Consumes reading kind next := by
  by_cases hword : (isWordCharacter c && !c.isDigit) = true
  · rw [Bool.and_eq_true, Bool.not_eq_true'] at hword
    have hplain : ∀ d ∈ reading.rest.takeWhile isWordCharacter, isPlain d = true := fun d hd =>
      isPlain_of_isWordCharacter (List.all_eq_true.1 List.all_takeWhile d hd)
    have hsplit : reading.rest = reading.rest.takeWhile isWordCharacter
        ++ reading.rest.dropWhile isWordCharacter := List.takeWhile_append_dropWhile.symm
    rw [nextToken_word_eq hrest hword.1 hword.2] at h
    split at h
    · rename_i mark found hfound
      have hmark := isQuote_of_literalMark? hfound
      rw [eq_cons_of_literalMark? hfound] at hsplit
      exact textToken_consumes hplain hmark hsplit h
    · have hne : reading.rest.takeWhile isWordCharacter ≠ [] := by
        rw [hrest, List.takeWhile_cons_of_pos hword.1]
        exact List.cons_ne_nil _ _
      rcases wordToken_cases (reading.rest.takeWhile isWordCharacter) with heq | ⟨reserved, heq⟩ | heq
      · rw [heq] at h
        cases h
        exact ⟨rfl, rfl, _, hne, hsplit, .plain rfl rfl hplain⟩
      · rw [heq] at h
        cases h
        exact ⟨rfl, rfl, _, hne, hsplit, .plain rfl rfl hplain⟩
      · rw [heq] at h
        cases h
  · rw [nextToken_of_not_word hrest (Bool.eq_false_iff.2 hword)] at h
    split at h
    · cases hscan : scanNumber reading.rest with
      | error fault =>
        rw [hscan] at h
        cases h
      | ok result =>
        obtain ⟨token, count, rest⟩ := result
        rw [hscan] at h
        cases h
        obtain ⟨htoken, d, tail, htail, hd, word, hplain, rfl⟩ := scanNumber_plainPrefix hscan
        have hall : ∀ c ∈ d :: word, isPlain c = true := List.forall_mem_cons.2 ⟨hd, hplain⟩
        have hkind : kind.isInline = true ∧ kind.opens = false ∧ kind.closes = false := by
          cases kind <;> first | exact ⟨rfl, rfl, rfl⟩ | cases htoken
        exact ⟨hkind.1, rfl, d :: word, List.cons_ne_nil _ _, htail, .plain hkind.2.1 hkind.2.2 hall⟩
    · split at h
      · rename_i hquote
        exact textToken_consumes (List.forall_mem_nil _) hquote hrest h
      · rename_i hquote
        split at h
        · rename_i hpair
          cases h
          rw [hrest, List.isPrefixOf_iff_prefix] at hpair
          obtain ⟨more, hmore⟩ := hpair
          obtain ⟨rfl, rfl⟩ := List.cons.inj hmore
          refine ⟨rfl, rfl, ['<', '>'], by simp, hrest, .plain rfl rfl ?_⟩
          exact List.forall_mem_cons.2 ⟨by decide, List.forall_mem_singleton.2 (by decide)⟩
        · split at h
          · rename_i hsymbol
            exact symbolToken_consumes hsymbol h
          · rename_i hnone
            split at h
            · rename_i hprintable
              cases h
              refine ⟨rfl, rfl, [c], by simp, hrest, .plain rfl rfl ?_⟩
              rw [List.forall_mem_singleton]
              exact isPlain_of_stray hc (Bool.eq_false_iff.2 hquote) (hrest ▸ hnone) hprintable
            · cases h

end Tokens

end PropertyWrapper.Source
