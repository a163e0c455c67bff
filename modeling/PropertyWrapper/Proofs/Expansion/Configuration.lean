import PropertyWrapper.Proofs.Expansion.Facts
import PropertyWrapper.Proofs.Source.Assignments
import PropertyWrapper.Proofs.Source.Definitions
import PropertyWrapper.Proofs.Source.Normalized

/-!
# Generated configurations are read back

The text of a generated configuration is read as one assignment of a call, and the arguments of that
call build the configuration again: every text stands between quotes as it is, and nothing is lost by
leaving out the facts that have their default. The reader may bring names into a normal form.

* `factsText` : the characters of the named arguments;
* `expression_of_literal`, `keywords_of_enclosed` : a value, and the facts one after the other, as read;
* `moduleReader_of_rendered` : the assignment as read;
* `rendered_config_denotes` : the text of a generated configuration denotes the configuration.
-/

namespace PropertyWrapper

open Source Source.Reader Text

variable {normal : NormalForm} {tokens : Array Token} {index : Nat} {indents : List Indent}
  {rest following : List Char} {c : Char}

/-! ## The characters of facts -/

/-- The characters of a named argument that states a fact. -/
def factText (fact : Field × FactValue) : List Char :=
  fact.1.name.toList ++ '=' :: fact.2.literal.toList

/-- The characters of further facts, each behind a comma. -/
def furtherFacts : List (Field × FactValue) → List Char
  | [] => []
  | fact :: rest => ',' :: ' ' :: (factText fact ++ furtherFacts rest)

/-- The characters of facts. -/
def factsText : List (Field × FactValue) → List Char
  | [] => []
  | fact :: rest => factText fact ++ furtherFacts rest

theorem toList_factList (config : WrapperConfig) : config.factList.toList = factsText config.facts := by
  rw [WrapperConfig.factList]
  induction config.facts with
  | nil => rfl
  | cons fact rest ih =>
    cases rest with
    | nil => simp [factsText, furtherFacts, factText]
    | cons next rest =>
      rw [List.map_cons] at ih
      -- the separator is counted to the fact behind it
      rw [List.map_cons, List.map_cons, String.intercalate_cons_cons, String.toList_append,
        String.toList_append, ih]
      simp [factsText, furtherFacts, factText]

/-- Behind a fact stands a comma or the closing parenthesis. -/
theorem exists_furtherFacts_cons (facts : List (Field × FactValue)) (following : List Char) :
    ∃ c rest, furtherFacts facts ++ ')' :: following = c :: rest ∧ (c = ',' ∨ c = ')') := by
  cases facts with
  | nil => exact ⟨_, _, rfl, .inr rfl⟩
  | cons fact rest => exact ⟨_, _, rfl, .inl rfl⟩

/-- What ends a named argument ends its value. -/
theorem mem_operandEnds_of_enclosed (hc : c = ',' ∨ c = ')')
    (h : NormalAt normal tokens index indents [')'] (c :: rest)) :
    (tokenAt tokens index).kind ∈ operandEnds := by
  rcases hc with rfl | rfl
  · rw [h.comma.1]
    decide
  · rw [h.rparen.1]
    decide

/-! ## Values -/

theorem isWord_flagWord (flag : Bool) : isWord (flagWord flag) = true := by
  cases flag <;> decide

/-- A truth value as it is read. -/
theorem flagWord_of_enclosed {flag : Bool} (hc : c = ',' ∨ c = ')')
    (h : NormalAt normal tokens index indents [')'] ((flagWord flag).toList ++ c :: rest)) :
    (tokenAt tokens index).kind = .reserved (if flag then .kwTrue else .kwFalse)
      ∧ NormalAt normal tokens (index + 1) indents [')'] (c :: rest) := by
  have hend : isWordCharacter c = false ∧ isQuote c = false := by rcases hc with rfl | rfl <;> decide
  cases flag with
  | false => exact h.word (by decide) (by decide : _ = .reserved .kwFalse) (fun fault => by simp) hend.1 hend.2
  | true => exact h.word (by decide) (by decide : _ = .reserved .kwTrue) (fun fault => by simp) hend.1 hend.2

/-- A quoted text as it is read. -/
theorem quoted_of_enclosed {text : LooseText} (hc : c = ',' ∨ c = ')')
    (h : NormalAt normal tokens index indents [')'] (text.quoted.toList ++ c :: rest)) :
    (tokenAt tokens index).kind = .text { raw := false, bytes := false, formatted := false, marked := false
                                          body := quotedBody (quoteFor text.points) text.points }
      ∧ NormalAt normal tokens (index + 1) indents [')'] (c :: rest) := by
  have hquote := isQuote_quoteFor text.points
  have hne : c ≠ quoteFor text.points := by
    rintro heq
    rw [← heq] at hquote
    rcases hc with rfl | rfl <;> exact absurd hquote (by decide)
  have htext : text.quoted.toList ++ c :: rest = quoteFor text.points ::
      (quotedBody (quoteFor text.points) text.points ++ quoteFor text.points :: c :: rest) := by
    simp [LooseText.quoted, quotedPoints]
  rw [htext] at h
  exact h.quoted hquote hne

/-- The value of a fact is read as the constant that it was written for. -/
theorem expression_of_literal (lexer : Lexer) (fuel : Nat) {value : FactValue} (hc : c = ',' ∨ c = ')')
    (h : NormalAt normal tokens index indents [')'] (value.literal.toList ++ c :: rest)) :
    (grammarWith lexer false (fuel + 2)).expression tokens index
        = .ok (.constant (tokenAt tokens index).pos value.constant, index + 1)
      ∧ NormalAt normal tokens (index + 1) indents [')'] (c :: rest) := by
  cases value with
  | flag flag =>
    obtain ⟨hkind, hnext⟩ := flagWord_of_enclosed hc h
    have hend := mem_operandEnds_of_enclosed hc hnext
    refine ⟨expression_of_primary lexer fuel ?_ (primary_of_atom (atom_of_flag rfl hkind) hend) hend, hnext⟩
    rw [hkind]
    cases flag <;> rfl
  | text text =>
    obtain ⟨hkind, hnext⟩ := quoted_of_enclosed hc h
    have hend := mem_operandEnds_of_enclosed hc hnext
    have hatom := atom_of_text (g := grammarWith lexer false fuel) hkind rfl rfl
      (literalText_quotedBody (isQuote_quoteFor text.points) (areCodePoints_looseText text)) hend
    refine ⟨expression_of_primary lexer fuel ?_ (primary_of_atom hatom hend) hend, hnext⟩
    rw [hkind]
    rfl

/-! ## Named arguments -/

theorem wordToken_fieldName (field : Field) : wordToken field.name.toList = .name field.name := by
  cases field <;> decide

theorem isWord_fieldName (field : Field) : isWord field.name = true := by
  cases field <;> decide

theorem apply_fieldName (normal : NormalForm) (field : Field) : normal.apply field.name = field.name := by
  refine apply_of_ascii normal ?_
  cases field <;> decide

/-- A literal does not start with a sign of equality. -/
theorem exists_literal_cons (value : FactValue) :
    ∃ d tail, value.literal.toList = d :: tail ∧ d ≠ '=' := by
  cases value with
  | flag flag => cases flag <;> exact ⟨_, _, rfl, by decide⟩
  | text text =>
    refine ⟨quoteFor text.points, _, by simp [FactValue.literal, LooseText.quoted, quotedPoints]; rfl, ?_⟩
    unfold quoteFor
    split <;> decide

/-- A fact is read as a named argument. -/
theorem keyword_of_enclosed (lexer : Lexer) (fuel : Nat) {fact : Field × FactValue} (hc : c = ',' ∨ c = ')')
    (h : NormalAt normal tokens index indents [')'] (factText fact ++ c :: rest)) :
    (tokenAt tokens index).kind = .name fact.1.name
      ∧ (tokenAt tokens (index + 1)).kind = .symbol .assign
      ∧ (grammarWith lexer false (fuel + 2)).expression tokens (index + 2)
        = .ok (.constant (tokenAt tokens (index + 2)).pos fact.2.constant, index + 3)
      ∧ NormalAt normal tokens (index + 3) indents [')'] (c :: rest) := by
  rw [factText, List.append_assoc, List.cons_append] at h
  obtain ⟨hname, h⟩ := h.name (isWord_fieldName _) (wordToken_fieldName _) (by decide) (by decide)
  rw [apply_fieldName] at hname
  obtain ⟨d, tail, hliteral, hd⟩ := exists_literal_cons fact.2
  rw [hliteral, List.cons_append] at h
  obtain ⟨hassign, h⟩ := h.assign hd
  rw [← List.cons_append, ← hliteral] at h
  obtain ⟨hvalue, h⟩ := expression_of_literal lexer fuel hc h
  exact ⟨hname, hassign, hvalue, h⟩

theorem furtherKeywords_of_enclosed (lexer : Lexer) (fuel : Nat) {facts : List (Field × FactValue)}
    (h : NormalAt normal tokens index indents [')'] (furtherFacts facts ++ ')' :: following)) :
    ∃ stop keywords, FurtherKeywords (grammarWith lexer false (fuel + 2)) tokens stop keywords index
      ∧ List.Forall₂ States keywords facts ∧ NormalAt normal tokens stop indents [')'] (')' :: following) := by
  induction facts generalizing index with
  | nil => exact ⟨index, [], .nil, .nil, h⟩
  | cons fact facts ih =>
    -- the reader of a value has to see what stands behind it
    obtain ⟨c, rest, hend, hc⟩ := exists_furtherFacts_cons facts following
    rw [furtherFacts, List.cons_append, List.cons_append, List.append_assoc, hend] at h
    obtain ⟨hcomma, h⟩ := h.comma
    obtain ⟨hname, hassign, hvalue, h⟩ := keyword_of_enclosed lexer fuel hc h.space
    rw [← hend] at h
    obtain ⟨stop, keywords, hkeywords, hstates, h⟩ := ih h
    exact ⟨stop, _, .cons hcomma hname hassign hvalue (by omega) hkeywords,
      .cons ⟨_, _, rfl⟩ hstates, h⟩

/-- The facts are read as named arguments, one after the other. -/
theorem keywords_of_enclosed (lexer : Lexer) (fuel : Nat) {facts : List (Field × FactValue)}
    (h : NormalAt normal tokens index indents [')'] (factsText facts ++ ')' :: following)) :
    ∃ stop keywords, Keywords (grammarWith lexer false (fuel + 2)) tokens stop keywords index
      ∧ List.Forall₂ States keywords facts ∧ NormalAt normal tokens stop indents [')'] (')' :: following) := by
  cases facts with
  | nil => exact ⟨index, [], .nil, .nil, h⟩
  | cons fact facts =>
    obtain ⟨c, rest, hend, hc⟩ := exists_furtherFacts_cons facts following
    rw [factsText, List.append_assoc, hend] at h
    obtain ⟨hname, hassign, hvalue, h⟩ := keyword_of_enclosed lexer fuel hc h
    rw [← hend] at h
    obtain ⟨stop, keywords, hkeywords, hstates, h⟩ := furtherKeywords_of_enclosed lexer fuel h
    exact ⟨stop, _, .cons hname hassign hvalue hkeywords, .cons ⟨_, _, rfl⟩ hstates, h⟩

/-! ## The assignment -/

theorem toList_render (declaration : ConfigDeclaration) :
    declaration.render.toList = declaration.name.toList ++ ' ' :: '=' :: ' ' ::
      (configConstructor.toList ++ '(' :: (factsText declaration.config.facts ++ [')'])) := by
  simp [ConfigDeclaration.render, toList_factList]

/-- A call of the constructor of configurations at a place. -/
def constructorCall (place : Position) (keywords : List Keyword) : Expr :=
  .call place (.name place configConstructor) [] keywords

/-- The line of a generated configuration is read as the assignment of a call, whose named arguments
state the facts. -/
theorem moduleReader_of_rendered (lexer : Lexer) (fuel : Nat) {declaration : ConfigDeclaration}
    (hword : isWord declaration.name = true)
    (hname : wordToken declaration.name.toList = .name declaration.name)
    (hmatch : normal.apply declaration.name ≠ "match")
    (h : NormalAt normal tokens 0 [⟨0, 0⟩] [] (declaration.render.toList ++ ['\n'])) :
    ∃ pos place keywords stop, moduleReaderWith lexer false (fuel + 4) tokens 0
        = .ok ([assignmentAt pos (normal.apply declaration.name) (constructorCall place keywords)], stop)
      ∧ List.Forall₂ States keywords declaration.config.facts := by
  have htext : declaration.render.toList ++ ['\n'] = declaration.name.toList ++ ' ' :: '=' :: ' ' ::
      (configConstructor.toList ++ '(' ::
        (factsText declaration.config.facts ++ ')' :: ['\n'])) := by
    simp [toList_render]
  have hconstructor : wordToken configConstructor.toList = .name configConstructor := by decide
  rw [htext] at h
  -- the tokens of the line from left to right
  obtain ⟨hkind, h⟩ := h.name hword hname (by decide) (by decide)
  obtain ⟨hassign, h⟩ := h.space.assign (by decide)
  obtain ⟨hcallee, h⟩ := h.space.name (by decide) hconstructor (by decide) (by decide)
  rw [apply_of_ascii normal (by decide)] at hcallee
  obtain ⟨hopen, h⟩ := h.lparen (by decide)
  obtain ⟨stop, keywords, hkeywords, hstates, h⟩ := keywords_of_enclosed lexer fuel h
  obtain ⟨hclose, h⟩ := h.rparen
  obtain ⟨hnewline, hfinish⟩ := h.finish
  have hend : (tokenAt tokens (stop + 1)).kind ∈ operandEnds := by
    rw [hnewline]
    decide
  have hassignEnd : (tokenAt tokens 1).kind ∈ operandEnds := by
    rw [hassign]
    decide
  have hoperand : (tokenAt tokens 2).kind.isOperand = true := by
    rw [hcallee]
    rfl
  -- the call is read two levels below the statement, and its arguments two levels below the call
  have hassigns : AssignsName (grammarWith lexer false (fuel + 4)) tokens 0 (normal.apply declaration.name)
      (constructorCall (tokenAt tokens 2).pos keywords) (stop + 1) :=
    { plain := rfl
      name := hkind
      assign := hassign
      operand := hoperand
      target := expression_of_primary lexer (fuel + 2) (by rw [hkind]; rfl)
        (primary_of_atom (atom_of_name hkind) hassignEnd) hassignEnd
      value := expression_of_primary lexer (fuel + 2) hoperand
        (primary_of_call hcallee hopen hkeywords hclose hend) hend
      newline := hnewline }
  exact ⟨_, _, keywords, _, hassigns.moduleReader_eq rfl hmatch hfinish, hstates⟩

/-! ## Names -/

/-- No digit starts an identifier. -/
theorem isIdentifierStart_of_isDigit (h : c.isDigit = true) : isIdentifierStart c = false := by
  have hall : ∀ n : Fin 58, (Char.ofNat n).isDigit = true → isIdentifierStart (Char.ofNat n) = false := by
    decide
  have hlast : c.toNat < 58 := by
    simp only [Char.isDigit, Bool.and_eq_true, decide_eq_true_eq, UInt32.le_iff_toNat_le] at h
    exact Nat.lt_succ_of_le h.2
  have hc := hall ⟨c.toNat, hlast⟩
  rw [Char.ofNat_toNat] at hc
  exact hc h

theorem isWordCharacter_of_isIdentifierStart (h : isIdentifierStart c = true) :
    isWordCharacter c = true := by
  unfold isIdentifierStart at h
  split at h
  · simp only [isWordCharacter, h, Bool.true_or]
  · simp only [isWordCharacter, Bool.or_eq_true, decide_eq_true_eq]
    omega

theorem isWordCharacter_of_isIdentifierTail (h : isIdentifierTail c = true) :
    isWordCharacter c = true := by
  unfold isIdentifierTail at h
  split at h
  · simp only [isWordCharacter, h, Bool.true_or]
  · simp only [isWordCharacter, Bool.or_eq_true, decide_eq_true_eq]
    omega

theorem isWord_of_isIdentifier {name : String} (h : isIdentifier name.toList = true) :
    isWord name = true := by
  unfold isIdentifier at h
  split at h
  · cases h
  · rename_i c rest heq
    rw [Bool.and_eq_true, List.all_eq_true] at h
    obtain ⟨hstart, hrest⟩ := h
    have hdigit : c.isDigit = false := by
      rw [Bool.eq_false_iff]
      intro hdigit
      rw [isIdentifierStart_of_isDigit hdigit] at hstart
      cases hstart
    exact isWord_iff.2 ⟨c, rest, heq, isWordCharacter_of_isIdentifierStart hstart, hdigit,
      fun d hd => isWordCharacter_of_isIdentifierTail (hrest d hd)⟩

/-- The name of a generated configuration is no word that ends otherwise. -/
theorem configName_ne (type : String) {word : String} (h : ¬ "Macro".toList <:+ word.toList) :
    configName type ≠ word := by
  rintro rfl
  refine h ?_
  rw [configName, String.toList_append]
  exact List.suffix_append _ _

/-- An identifier that names a generated configuration is read as a name. -/
theorem wordToken_configName {type : String} (h : isIdentifier (configName type).toList = true) :
    wordToken (configName type).toList = .name (configName type) := by
  have hreserved : ∀ entry ∈ reservedWords, ¬ "Macro".toList <:+ entry.1.toList := by decide
  have hlookup : reservedWords.lookup (configName type) = none := by
    rw [List.lookup_eq_none_iff]
    exact fun entry hentry => bne_iff_ne.2 (configName_ne type (hreserved entry hentry))
  rw [wordToken, if_pos h]
  dsimp only
  rw [String.ofList_toList, hlookup]

/-! ## The text -/

/-- A character of a word or a printable one. -/
def IsVisible (c : Char) : Prop := isWordCharacter c = true ∨ isPrintable c.toNat = true

theorem isVisible_of_isWord {word : String} (hword : isWord word = true) (h : c ∈ word.toList) :
    IsVisible c := by
  obtain ⟨first, tail, hcons, hfirst, -, htail⟩ := isWord_iff.1 hword
  rw [hcons] at h
  rcases List.mem_cons.1 h with rfl | h
  · exact .inl hfirst
  · exact .inl (htail c h)

theorem isVisible_of_mem_factText {fact : Field × FactValue} (h : c ∈ factText fact) : IsVisible c := by
  rcases List.mem_append.1 h with h | h
  · exact isVisible_of_isWord (isWord_fieldName _) h
  rcases List.mem_cons.1 h with rfl | h
  · exact .inr (by decide)
  obtain ⟨field, value⟩ := fact
  cases value with
  | flag flag => exact isVisible_of_isWord (isWord_flagWord flag) h
  | text text => exact .inr (isPrintable_of_mem_quotedPoints (areCodePoints_looseText text) h)

theorem isVisible_of_mem_furtherFacts {facts : List (Field × FactValue)} (h : c ∈ furtherFacts facts) :
    IsVisible c := by
  induction facts with
  | nil => cases h
  | cons fact facts ih =>
    rcases List.mem_cons.1 h with rfl | h
    · exact .inr (by decide)
    rcases List.mem_cons.1 h with rfl | h
    · exact .inr (by decide)
    rcases List.mem_append.1 h with h | h
    · exact isVisible_of_mem_factText h
    · exact ih h

theorem isVisible_of_mem_factsText {facts : List (Field × FactValue)} (h : c ∈ factsText facts) :
    IsVisible c := by
  cases facts with
  | nil => cases h
  | cons fact facts =>
    rcases List.mem_append.1 h with h | h
    · exact isVisible_of_mem_factText h
    · exact isVisible_of_mem_furtherFacts h

/-- The text of a generated configuration consists of the characters of its name and printable ones. -/
theorem isVisible_of_mem_render {declaration : ConfigDeclaration} (hword : isWord declaration.name = true)
    (h : c ∈ declaration.render.toList) : IsVisible c := by
  rw [toList_render] at h
  simp only [List.mem_append, List.mem_cons, List.not_mem_nil, or_false] at h
  rcases h with h | rfl | rfl | rfl | h | rfl | h | rfl
  · exact isVisible_of_isWord hword h
  · exact .inr (by decide)
  · exact .inr (by decide)
  · exact .inr (by decide)
  · exact isVisible_of_isWord (by decide) h
  · exact .inr (by decide)
  · exact isVisible_of_mem_factsText h
  · exact .inr (by decide)

/-- A generated configuration is one line of text, as far as the reader is concerned. -/
theorem closedLines_render {declaration : ConfigDeclaration} (hword : isWord declaration.name = true) :
    closedLines declaration.render.toList = declaration.render.toList ++ ['\n']
      ∧ '\x00' ∉ declaration.render.toList ++ ['\n'] := by
  have habsent : ∀ d : Char, isWordCharacter d = false → isPrintable d.toNat = false →
      d ∉ declaration.render.toList := by
    intro d hd hprint hmem
    rcases isVisible_of_mem_render hword hmem with h | h
    · rw [hd] at h
      cases h
    · rw [hprint] at h
      cases h
  obtain ⟨text, htext⟩ : ∃ text, declaration.render.toList = text ++ [')'] :=
    ⟨declaration.name.toList ++ ' ' :: '=' :: ' ' ::
      (configConstructor.toList ++ '(' :: factsText declaration.config.facts), by simp [toList_render]⟩
  have hreturn := habsent '\r' (by decide) (by decide)
  have hnull := habsent '\x00' (by decide) (by decide)
  refine ⟨?_, by simp [hnull]⟩
  rw [htext] at hreturn ⊢
  exact closedLines_of_open hreturn (by decide)

/-- The tokens of the line of a generated configuration. -/
theorem normalAt_render (normal : NormalForm) {declaration : ConfigDeclaration}
    (hword : isWord declaration.name = true) :
    NormalAt normal (normalizedTokens normal (declaration.render.toList ++ ['\n'])) 0 [⟨0, 0⟩] []
      (declaration.render.toList ++ ['\n']) := by
  obtain ⟨first, tail, hname, hfirst, -, -⟩ := isWord_iff.1 hword
  obtain ⟨rest, htext⟩ : ∃ rest, declaration.render.toList ++ ['\n'] = first :: rest :=
    ⟨_, by rw [toList_render, hname]; rfl⟩
  have hline := lineAt_tokens (declaration.render.toList ++ ['\n'])
  refine ⟨_, rfl, enclosedAt_nil.2 ?_⟩
  rw [htext] at hline ⊢
  exact hline.start (startsToken_of_isWordCharacter hfirst)

/-! ## The declaration as a whole -/

/-- The normal form of the name of a generated configuration is such a name. -/
theorem apply_configName (normal : NormalForm) (type : String) :
    normal.apply (configName type) = configName (normal.apply type) :=
  normal.apply_append type "Macro" (by decide)

/-- A generated configuration is read as the assignment of a call that builds it. -/
theorem parseNormalized_render (normal : NormalForm) {declaration : ConfigDeclaration}
    (hidentifier : isIdentifier declaration.name.toList = true)
    (hname : ∃ type, declaration.name = configName type) :
    ∃ pos place keywords,
      parseNormalized normal declaration.render
          = .ok [assignmentAt pos (normal.apply declaration.name) (constructorCall place keywords)]
        ∧ List.Forall₂ States keywords declaration.config.facts := by
  obtain ⟨type, htype⟩ := hname
  have hword := isWord_of_isIdentifier hidentifier
  have htoken : wordToken declaration.name.toList = .name declaration.name := by
    rw [htype] at hidentifier ⊢
    exact wordToken_configName hidentifier
  have hmatch : normal.apply declaration.name ≠ "match" := by
    rw [htype, apply_configName]
    exact configName_ne _ (by decide)
  obtain ⟨hlines, hnull⟩ := closedLines_render hword
  -- the fuel of the reader is the number of characters, which is more than enough
  obtain ⟨fuel, hfuel⟩ : ∃ fuel, (declaration.render.toList ++ ['\n']).length + 2 = fuel + 4 :=
    ⟨declaration.render.toList.length - 1, by simp [toList_render]; omega⟩
  obtain ⟨pos, place, keywords, stop, hread, hstates⟩ :=
    moduleReader_of_rendered (normalizedTokens normal) fuel hword htoken hmatch (normalAt_render normal hword)
  refine ⟨pos, place, keywords, ?_, hstates⟩
  rw [parseNormalized, hlines, readAllWith, if_neg (by simpa using hnull), hfuel]
  dsimp only
  rw [hread]

/-- The text of a generated configuration, which is named by an identifier, is read as one statement: the
assignment of a call of the constructor to that name, where the named arguments of the call build the
configuration. As everywhere in a source, the name is read in normal form. -/
theorem rendered_config_denotes (normal : NormalForm) (declaration : ConfigDeclaration)
    (hidentifier : isIdentifier declaration.name.toList = true)
    (hname : ∃ type, declaration.name = configName type) :
    ∃ pos place keywords,
      parseNormalized normal declaration.render
          = .ok [.assign pos.line [.name pos (normal.apply declaration.name)]
              (.call place (.name place configConstructor) [] keywords)]
        ∧ BuildsConfig keywords declaration.config := by
  obtain ⟨pos, place, keywords, hparse, hstates⟩ := parseNormalized_render normal hidentifier hname
  exact ⟨pos, place, keywords, hparse, buildsConfig_of_states hstates⟩

/-- A ligature as the letters it is made of. -/
def spelledOut : NormalForm where
  apply name := String.ofList (name.toList.flatMap fun c => if c = 'ﬁ' then ['f', 'i'] else [c])
  apply_empty := rfl
  apply_append name tail ascii := by
    have htail : (tail.toList.flatMap fun c => if c = 'ﬁ' then ['f', 'i'] else [c]) = tail.toList := by
      have hletter : ∀ c ∈ tail.toList, (if c = 'ﬁ' then ['f', 'i'] else [c]) = [c] := fun c hc =>
        if_neg (by rintro rfl; exact absurd (List.all_eq_true.1 ascii _ hc) (by decide))
      rw [List.flatMap_congr hletter, List.flatMap_singleton']
    rw [String.toList_append, List.flatMap_append, htail, String.ofList_append, String.ofList_toList]

/-- A configuration under a name with a ligature, whose texts are an empty one and one with quotes of both
kinds, a backslash, a line feed, a null character, a lone surrogate and a letter beyond ASCII. -/
def intricateDeclaration : ConfigDeclaration where
  name := "ÉﬁMacro"
  config :=
    { isReference := true
      wrapperType := some ""
      projectedType := some (.ofPoints (points "a'b\"c\\d\n\x00é" ++ [0xdc80])) }

theorem rendered_config_denotes_intricate :
    isIdentifier intricateDeclaration.name.toList = true
      ∧ spelledOut.apply intricateDeclaration.name = "ÉfiMacro"
      ∧ ∃ pos place keywords,
        parseNormalized spelledOut intricateDeclaration.render
            = .ok [.assign pos.line [.name pos (spelledOut.apply intricateDeclaration.name)]
                (.call place (.name place configConstructor) [] keywords)]
          ∧ BuildsConfig keywords intricateDeclaration.config :=
  ⟨by decide +kernel, by decide,
    rendered_config_denotes spelledOut intricateDeclaration (by decide +kernel) ⟨"Éﬁ", by decide⟩⟩

/-- A configuration in a module stands for its text: where the text is read as it is written, the statement
is the one that is generated for the configuration. -/
theorem readRendered_render {declaration : ConfigDeclaration}
    (hidentifier : isIdentifier declaration.name.toList = true)
    (hname : ∃ type, declaration.name = configName type) :
    ∃ statement, readRendered [declaration.render] = .ok [statement]
      ∧ statement.unplaced = declaration.statement.unplaced := by
  obtain ⟨pos, place, keywords, hparse, hstates⟩ :=
    parseNormalized_render .asWritten hidentifier hname
  rw [parseNormalized_asWritten] at hparse
  have hblank : declaration.render.toList.all isBlank = false := by
    rw [List.all_eq_false]
    exact ⟨'(', by simp [toList_render], by decide⟩
  refine ⟨assignmentAt pos declaration.name (constructorCall place keywords), ?_, ?_⟩
  · have htexts : [LooseText.whole declaration.render].mapM LooseText.string? = some [declaration.render] :=
      rfl
    rw [readRendered, htexts]
    dsimp only
    rw [String.intercalate_singleton, hblank, if_neg Bool.false_ne_true, hparse]
    rfl
  · simp only [assignmentAt, constructorCall, ConfigDeclaration.statement, Stmt.unplaced, Expr.unplaced,
      unplacedAll, unplacedKeywords_of_states hstates]

end PropertyWrapper
