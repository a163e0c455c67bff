import PropertyWrapper.Source.Module

/-!
# Evaluating readings

What a given text is read as is found by computation. Texts are decoded by a recursion that opens slowly,
and words are looked up as encoded texts. The readers here are equal to those of the language and compare
characters with characters.
-/

namespace PropertyWrapper.Source

open Reader PropertyWrapper.Text

/-! ## Characters -/

theorem toList_toByteArray (text : String) :
    text.toByteArray.data.toList = text.toList.flatMap String.utf8EncodeChar := by
  conv => lhs; rw [← String.ofList_toList (s := text)]
  rw [String.toByteArray_ofList, List.utf8Encode, List.toList_data_toByteArray]

theorem utf8EncodeChar_of_lt {c : Char} (h : c.toNat < 128) :
    String.utf8EncodeChar c = [UInt8.ofNat c.toNat] := by
  have hle : c.val.toNat ≤ 127 := Nat.le_of_lt_succ h
  simp only [String.utf8EncodeChar, if_pos hle]
  rfl

/-- The first byte of a character beyond ASCII is beyond ASCII. -/
theorem exists_byte_of_le {c : Char} (h : 128 ≤ c.toNat) :
    ∃ b ∈ String.utf8EncodeChar c, ¬b < 128 := by
  have hgt : ¬c.val.toNat ≤ 127 := Nat.not_le.2 h
  have hlead : ∀ n lead : Nat, 128 ≤ lead → n + lead < 256 → ¬UInt8.ofNat (n + lead) < 128 := by
    intro n lead hlead hlt hbyte
    have hnat : (UInt8.ofNat (n + lead)).toNat < 128 := hbyte
    rw [UInt8.toNat_ofNat'] at hnat
    omega
  simp only [String.utf8EncodeChar, if_neg hgt]
  split
  · exact ⟨_, List.mem_cons_self, hlead _ _ (by decide) (by omega)⟩
  · split
    · exact ⟨_, List.mem_cons_self, hlead _ _ (by decide) (by omega)⟩
    · exact ⟨_, List.mem_cons_self, hlead _ _ (by decide) (by omega)⟩

/-- The character of an ASCII byte. -/
def asciiCharacter (b : UInt8) : Char := Char.ofNat b.toNat

theorem asciiCharacter_ofNat {c : Char} (h : c.toNat < 128) :
    asciiCharacter (UInt8.ofNat c.toNat) = c := by
  have hnat : (UInt8.ofNat c.toNat).toNat = c.toNat := by
    rw [UInt8.toNat_ofNat']
    omega
  rw [asciiCharacter, hnat, Char.ofNat_toNat]

theorem map_asciiCharacter {characters : List Char}
    (h : ∀ b ∈ characters.flatMap String.utf8EncodeChar, b < 128) :
    (characters.flatMap String.utf8EncodeChar).map asciiCharacter = characters := by
  induction characters with
  | nil => rfl
  | cons c rest ih =>
    rw [List.flatMap_cons, List.forall_mem_append] at h
    have hc : c.toNat < 128 := by
      rcases Nat.lt_or_ge c.toNat 128 with hlt | hge
      · exact hlt
      · obtain ⟨b, hb, hnot⟩ := exists_byte_of_le hge
        exact absurd (h.1 b hb) hnot
    rw [List.flatMap_cons, List.map_append, ih h.2, utf8EncodeChar_of_lt hc, List.map_singleton,
      asciiCharacter_ofNat hc, List.singleton_append]

namespace Direct

/-- The characters of a text, from its bytes if these are ASCII. -/
def characters (text : String) : List Char :=
  let bytes := text.toByteArray.data.toList
  if bytes.all (· < 128) then bytes.map asciiCharacter else text.toList

theorem toList_eq_characters (text : String) : text.toList = characters text := by
  unfold characters
  dsimp only
  split
  · rename_i hascii
    rw [toList_toByteArray] at hascii ⊢
    exact (map_asciiCharacter fun b hb => of_decide_eq_true (List.all_eq_true.1 hascii b hb)).symm
  · rfl

/-! ## Words -/

/-- The reserved words by their characters. -/
def reservedWords : List (List Char × Reserved) := [
    (['F', 'a', 'l', 's', 'e'], .kwFalse), (['N', 'o', 'n', 'e'], .kwNone),
    (['T', 'r', 'u', 'e'], .kwTrue), (['a', 'n', 'd'], .kwAnd), (['a', 's'], .kwAs),
    (['a', 's', 's', 'e', 'r', 't'], .kwAssert), (['a', 's', 'y', 'n', 'c'], .kwAsync),
    (['a', 'w', 'a', 'i', 't'], .kwAwait), (['b', 'r', 'e', 'a', 'k'], .kwBreak),
    (['c', 'l', 'a', 's', 's'], .kwClass), (['c', 'o', 'n', 't', 'i', 'n', 'u', 'e'], .kwContinue),
    (['d', 'e', 'f'], .kwDef), (['d', 'e', 'l'], .kwDel), (['e', 'l', 'i', 'f'], .kwElif),
    (['e', 'l', 's', 'e'], .kwElse), (['e', 'x', 'c', 'e', 'p', 't'], .kwExcept),
    (['f', 'i', 'n', 'a', 'l', 'l', 'y'], .kwFinally), (['f', 'o', 'r'], .kwFor),
    (['f', 'r', 'o', 'm'], .kwFrom), (['g', 'l', 'o', 'b', 'a', 'l'], .kwGlobal),
    (['i', 'f'], .kwIf), (['i', 'm', 'p', 'o', 'r', 't'], .kwImport), (['i', 'n'], .kwIn),
    (['i', 's'], .kwIs), (['l', 'a', 'm', 'b', 'd', 'a'], .kwLambda),
    (['n', 'o', 'n', 'l', 'o', 'c', 'a', 'l'], .kwNonlocal), (['n', 'o', 't'], .kwNot),
    (['o', 'r'], .kwOr), (['p', 'a', 's', 's'], .kwPass), (['r', 'a', 'i', 's', 'e'], .kwRaise),
    (['r', 'e', 't', 'u', 'r', 'n'], .kwReturn), (['t', 'r', 'y'], .kwTry),
    (['w', 'h', 'i', 'l', 'e'], .kwWhile), (['w', 'i', 't', 'h'], .kwWith),
    (['y', 'i', 'e', 'l', 'd'], .kwYield)
  ]

theorem reservedWords_eq :
    Source.reservedWords = reservedWords.map fun entry => (String.ofList entry.1, entry.2) := by
  rfl

end Direct

/-- Texts are looked up as their characters are. -/
theorem lookup_map_ofList {β : Type} (word : List Char) (entries : List (List Char × β)) :
    (entries.map fun entry => (String.ofList entry.1, entry.2)).lookup (String.ofList word)
      = entries.lookup word := by
  induction entries with
  | nil => rfl
  | cons entry rest ih =>
    have hbeq : (String.ofList word == String.ofList entry.1) = (word == entry.1) := by
      rw [Bool.eq_iff_iff, beq_iff_eq, beq_iff_eq, String.ofList_inj]
    rw [List.map_cons, List.lookup_cons, List.lookup_cons, hbeq, ih]

namespace Direct

/-- The token of a word. -/
def wordToken (word : List Char) : TokenKind :=
  if isIdentifier word then
    match reservedWords.lookup word with
    | some reserved => .reserved reserved
    | none => .name (String.ofList word)
  else .fault .badIdentifier

theorem wordToken_eq (word : List Char) : Source.wordToken word = wordToken word := by
  have h := Source.wordToken.eq_1 word
  simp only [reservedWords_eq, lookup_map_ofList] at h
  exact h

/-- The letters in front of a quote that make it a text literal. -/
def literalMarks : List (List Char) :=
  [[], ['r'], ['u'], ['b'], ['f'], ['b', 'r'], ['r', 'b'], ['f', 'r'], ['r', 'f']]

theorem contains_literalMarks (letters : List Char) :
    Source.literalMarks.contains (String.ofList letters) = literalMarks.contains letters := by
  have hmarks : Source.literalMarks = literalMarks.map String.ofList := by rfl
  rw [hmarks, Bool.eq_iff_iff, List.contains_iff_mem, List.contains_iff_mem, List.mem_map]
  constructor
  · rintro ⟨mark, hmark, heq⟩
    exact String.ofList_inj.1 heq ▸ hmark
  · exact fun h => ⟨letters, h, rfl⟩

/-! ## Tokens -/

/-- The token at the start of what is left, which starts with neither a blank nor a line end. -/
def nextToken (reading : Reading) : Except LexicalFault (TokenKind × Reading) :=
  match reading.rest with
  | [] => .ok (.finish, reading)
  | c :: _ =>
    if isWordCharacter c && !c.isDigit then
      let word := reading.rest.takeWhile isWordCharacter
      let rest := reading.rest.dropWhile isWordCharacter
      match literalMarks.contains (word.map Char.toLower), rest with
      | true, '\x27' :: rest => textToken word '\x27' reading rest
      | true, '\x22' :: rest => textToken word '\x22' reading rest
      | _, rest =>
        match wordToken word with
        | .fault fault => .error fault
        | kind => .ok (kind, { reading with rest, pos := reading.pos.afterAll word })
    else Source.nextToken reading

theorem nextToken_eq (reading : Reading) : Source.nextToken reading = nextToken reading := by
  unfold nextToken
  split
  · rename_i hrest
    rw [Source.nextToken, hrest]
  · rename_i c tail hrest
    split
    · rename_i hword
      have h := Source.nextToken.eq_1 reading
      simp only [hrest, if_pos hword, contains_literalMarks, wordToken_eq] at h
      rw [← hrest] at h
      exact h
    · rfl

/-- All tokens from a state of reading on. -/
def tokensFrom : Nat → Bool → Reading → List Token
  | 0, _, reading => [⟨.finish, reading.pos⟩]
  | fuel + 1, true, reading =>
    match scanIndent ⟨0, 0⟩ ⟨0, 0⟩ reading.pos reading.rest with
    | .error fault => [⟨.fault fault, reading.pos⟩]
    | .ok (indent, pos, rest) =>
      let here := { reading with rest, pos }
      match rest with
      | '\n' :: rest => tokensFrom fuel true { here with rest, pos := pos.after '\n' }
      | '#' :: _ =>
        let rest := rest.dropWhile (· != '\n')
        tokensFrom fuel true { here with rest := rest.drop 1, pos := ⟨pos.line + 1, 0⟩ }
      | _ =>
        match indentTokens reading.indents indent with
        | .error fault => [⟨.fault fault, pos⟩]
        | .ok (kinds, indents) =>
          kinds.map (⟨·, pos⟩) ++ tokensFrom fuel false { here with indents }
  | fuel + 1, false, reading =>
    match reading.rest with
    | [] =>
      match reading.brackets with
      | [] => [⟨.finish, reading.pos⟩]
      | (closing, line) :: _ => [⟨.fault (.unclosedBracket (openingFor closing)), ⟨line, 0⟩⟩]
    | '\n' :: rest =>
      let next := { reading with rest, pos := reading.pos.after '\n' }
      if reading.brackets.isEmpty then ⟨.newline, reading.pos⟩ :: tokensFrom fuel true next
      else tokensFrom fuel false next
    | '#' :: rest => tokensFrom fuel false { reading with rest := rest.dropWhile (· != '\n') }
    | ['\\', '\n'] => [⟨.fault .continuationAtEnd, reading.pos⟩]
    | '\\' :: '\n' :: rest =>
      tokensFrom fuel false { reading with rest, pos := reading.pos.after '\n' }
    | '\\' :: _ => [⟨.fault .strayContinuation, reading.pos⟩]
    | c :: rest =>
      if c = ' ' || c = '\t' || c = '\x0c' then
        tokensFrom fuel false { reading with rest, pos := reading.pos.after c }
      else
        match nextToken reading with
        | .error fault => [⟨.fault fault, reading.pos⟩]
        | .ok (kind, next) => ⟨kind, reading.pos⟩ :: tokensFrom fuel false next

theorem tokensFrom_eq (fuel : Nat) (fresh : Bool) (reading : Reading) :
    Source.tokensFrom fuel fresh reading = tokensFrom fuel fresh reading := by
  induction fuel generalizing fresh reading with
  | zero => cases fresh <;> rfl
  | succ fuel ih =>
    cases fresh with
    | false =>
      have h := Source.tokensFrom.eq_3 reading fuel
      simp only [ih, nextToken_eq] at h
      exact h
    | true =>
      have h := Source.tokensFrom.eq_2 reading fuel
      simp only [ih] at h
      exact h

/-- All tokens of a text whose line ends are line feeds. -/
def tokens (text : List Char) : Array Token :=
  (tokensFrom (2 * text.length + 2) true
    { rest := text, pos := ⟨1, 0⟩, indents := [⟨0, 0⟩], brackets := [] }).toArray

theorem tokens_eq (text : List Char) : Source.tokens text = tokens text := by
  rw [Source.tokens, tokensFrom_eq, tokens]

/-! ## Whole texts -/

/-- The value that a reader finds in all tokens of a text. -/
def readAll {α : Type} (reader : Bool → Nat → Reader α) (text : List Char) : Except SourceError α :=
  readAllWith tokens reader text

theorem readAll_eq {α : Type} (reader : Bool → Nat → Reader α) (text : List Char) :
    Source.readAll reader text = readAll reader text := by
  have htokens : Source.tokens = tokens := funext tokens_eq
  rw [Source.readAll, htokens, readAll]

/-- The statements of the module with a given text. -/
def parseModule (source : String) : Except SourceError (List Stmt) :=
  readAll moduleReader (closedLines (characters source))

theorem parseModule_eq (source : String) : Source.parseModule source = parseModule source := by
  rw [Source.parseModule, readAll_eq, toList_eq_characters, parseModule]

end Direct

end PropertyWrapper.Source
