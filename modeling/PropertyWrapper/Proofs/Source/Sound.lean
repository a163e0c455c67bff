import PropertyWrapper.Proofs.Source.Quotation

/-!
# Sound trees

A tree is sound when its names are words and no two texts of a formatted literal stand side by side.
Every tree that is read from a source is sound, and the text of a sound tree can be put into a line.

* `isWord` : the characters of a text form a single word;
* `Expr.isSound`, `Stmt.isSound` : all names that can reach generated code are words.

Soundness is about characters only. Whether a word is reserved or has a forbidden character decides
the lexer, which then stops.
-/

namespace PropertyWrapper.Source

open PropertyWrapper.Text

/-! ## Words -/

/-- Whether the characters of a text form one word that does not start with a digit. -/
def isWord (text : String) : Bool :=
  match text.toList with
  | [] => false
  | c :: rest => isWordCharacter c && !c.isDigit && rest.all isWordCharacter

/-- The characters of a word. -/
theorem isWord_iff {text : String} :
    isWord text = true ↔ ∃ c rest, text.toList = c :: rest ∧ isWordCharacter c = true
      ∧ c.isDigit = false ∧ ∀ d ∈ rest, isWordCharacter d = true := by
  unfold isWord
  constructor
  · intro h
    split at h
    · cases h
    · rename_i c rest heq
      simp only [Bool.and_eq_true, Bool.not_eq_true', List.all_eq_true] at h
      exact ⟨c, rest, heq, h.1.1, h.1.2, h.2⟩
  · rintro ⟨c, rest, heq, hc, hdigit, hrest⟩
    simp only [heq, hc, hdigit, Bool.not_false, Bool.and_self, Bool.true_and, List.all_eq_true]
    exact hrest

theorem isPlain_of_isWord {text : String} (h : isWord text = true) :
    ∀ c ∈ text.toList, isPlain c = true := by
  obtain ⟨c, rest, heq, hc, -, hrest⟩ := isWord_iff.1 h
  intro d hd
  rw [heq, List.mem_cons] at hd
  rcases hd with rfl | hd
  · exact isPlain_of_isWordCharacter hc
  · exact isPlain_of_isWordCharacter (hrest d hd)

/-! ## Expressions -/

/-- Whether no two texts stand side by side. -/
def textsApart : List FormatPart → Bool
  | .text _ :: .text _ :: _ => false
  | _ :: rest => textsApart rest
  | [] => true

mutual

/-- Whether an expression is sound. -/
def Expr.isSound : Expr → Bool
  | .name _ id => isWord id
  | .constant .. => true
  | .formatted _ parts => textsApart parts && partsSound parts
  | .attribute _ value attr => value.isSound && isWord attr
  | .subscript _ value index => value.isSound && index.isSound
  | .call _ func args keywords => func.isSound && allSound args && keywordsSound keywords
  | .starred _ value => value.isSound
  | .slice _ lower upper step => optionSound lower && optionSound upper && optionSound step
  | .tuple _ elements => allSound elements
  | .list _ elements => allSound elements
  | .set _ elements => allSound elements
  | .dict _ items => itemsSound items
  | .listComp _ element clauses => element.isSound && clausesSound clauses
  | .setComp _ element clauses => element.isSound && clausesSound clauses
  | .generator _ element clauses => element.isSound && clausesSound clauses
  | .dictComp _ key value clauses => key.isSound && value.isSound && clausesSound clauses
  | .unary _ _ operand => operand.isSound
  | .binary _ _ left right => left.isSound && right.isSound
  | .boolean _ _ operands => allSound operands
  | .compare _ left rest => left.isSound && stepsSound rest
  | .conditional _ body test orelse => body.isSound && test.isSound && orelse.isSound
  | .lambda _ params body => params.isSound && body.isSound
  | .assigned _ target value => target.isSound && value.isSound
  | .await _ value => value.isSound
  | .yield _ value => optionSound value
  | .yieldFrom _ value => value.isSound

/-- Whether all of some expressions are sound. -/
def allSound : List Expr → Bool
  | [] => true
  | e :: rest => e.isSound && allSound rest

/-- Whether an optional expression is sound. -/
def optionSound : Option Expr → Bool
  | none => true
  | some e => e.isSound

/-- Whether a part of a formatted literal is sound. -/
def FormatPart.isSound : FormatPart → Bool
  | .text _ => true
  | .field value _ spec => value.isSound && specSound spec

/-- Whether a format is sound. -/
def specSound : Option (List FormatPart) → Bool
  | none => true
  | some parts => partsSound parts

/-- Whether the parts of a formatted literal are sound. -/
def partsSound : List FormatPart → Bool
  | [] => true
  | part :: rest => part.isSound && partsSound rest

/-- Whether a named argument is sound. -/
def Keyword.isSound : Keyword → Bool
  | .mk _ none value => value.isSound
  | .mk _ (some name) value => isWord name && value.isSound

/-- Whether named arguments are sound. -/
def keywordsSound : List Keyword → Bool
  | [] => true
  | keyword :: rest => keyword.isSound && keywordsSound rest

/-- Whether an item of a dictionary is sound. -/
def DictItem.isSound : DictItem → Bool
  | .pair key value => key.isSound && value.isSound
  | .unpack value => value.isSound

/-- Whether the items of a dictionary are sound. -/
def itemsSound : List DictItem → Bool
  | [] => true
  | item :: rest => item.isSound && itemsSound rest

/-- Whether a clause of a comprehension is sound. -/
def Comprehension.isSound : Comprehension → Bool
  | .mk _ target iterable conditions => target.isSound && iterable.isSound && allSound conditions

/-- Whether the clauses of a comprehension are sound. -/
def clausesSound : List Comprehension → Bool
  | [] => true
  | clause :: rest => clause.isSound && clausesSound rest

/-- Whether a step of a comparison is sound. -/
def CompareStep.isSound : CompareStep → Bool
  | .mk _ operand => operand.isSound

/-- Whether the steps of a comparison are sound. -/
def stepsSound : List CompareStep → Bool
  | [] => true
  | step :: rest => step.isSound && stepsSound rest

/-- Whether a parameter is sound. -/
def Parameter.isSound : Parameter → Bool
  | .mk name hint default => isWord name && optionSound hint && optionSound default

/-- Whether parameters are sound. -/
def paramsSound : List Parameter → Bool
  | [] => true
  | param :: rest => param.isSound && paramsSound rest

/-- Whether an optional parameter is sound. -/
def paramSound : Option Parameter → Bool
  | none => true
  | some param => param.isSound

/-- Whether the parameters of a function are sound. -/
def Parameters.isSound : Parameters → Bool
  | .mk positionalOnly regular variadic keywordOnly keywords =>
    paramsSound positionalOnly && paramsSound regular && paramSound variadic
      && paramsSound keywordOnly && paramSound keywords

end

section Lists

theorem allSound_eq (es : List Expr) : allSound es = es.all Expr.isSound := by
  induction es with
  | nil => rfl
  | cons e es ih => rw [allSound, List.all_cons, ih]

theorem partsSound_eq (parts : List FormatPart) :
    partsSound parts = parts.all FormatPart.isSound := by
  induction parts with
  | nil => rfl
  | cons part parts ih => rw [partsSound, List.all_cons, ih]

theorem keywordsSound_eq (keywords : List Keyword) :
    keywordsSound keywords = keywords.all Keyword.isSound := by
  induction keywords with
  | nil => rfl
  | cons keyword keywords ih => rw [keywordsSound, List.all_cons, ih]

theorem itemsSound_eq (items : List DictItem) : itemsSound items = items.all DictItem.isSound := by
  induction items with
  | nil => rfl
  | cons item items ih => rw [itemsSound, List.all_cons, ih]

theorem clausesSound_eq (clauses : List Comprehension) :
    clausesSound clauses = clauses.all Comprehension.isSound := by
  induction clauses with
  | nil => rfl
  | cons clause clauses ih => rw [clausesSound, List.all_cons, ih]

theorem stepsSound_eq (steps : List CompareStep) :
    stepsSound steps = steps.all CompareStep.isSound := by
  induction steps with
  | nil => rfl
  | cons step steps ih => rw [stepsSound, List.all_cons, ih]

theorem paramsSound_eq (params : List Parameter) :
    paramsSound params = params.all Parameter.isSound := by
  induction params with
  | nil => rfl
  | cons param params ih => rw [paramsSound, List.all_cons, ih]

end Lists

/-! ## Statements -/

mutual

/-- Whether a statement is sound: its names and types, and those of the statements in it, can reach
generated code. -/
def Stmt.isSound : Stmt → Bool
  | .function _ _ name _ body decorators returns =>
    isWord name && bodySound body && decorators.all Expr.isSound && returns.all Expr.isSound
  | .classDef _ name _ _ body decorators =>
    isWord name && bodySound body && decorators.all Expr.isSound
  | .annAssign _ target hint value _ =>
    target.isSound && hint.isSound && value.all Expr.isSound
  | .loop _ _ _ _ body orelse => bodySound body && bodySound orelse
  | .whileLoop _ _ body orelse => bodySound body && bodySound orelse
  | .branch _ _ body orelse => bodySound body && bodySound orelse
  | .withBlock _ _ _ body => bodySound body
  | .tryBlock _ _ body handlers orelse final =>
    bodySound body && handlersSound handlers && bodySound orelse && bodySound final
  | _ => true

/-- Whether all statements of a block are sound. -/
def bodySound : List Stmt → Bool
  | [] => true
  | stmt :: rest => stmt.isSound && bodySound rest

/-- Whether the handlers of a `try` are sound. -/
def handlersSound : List Handler → Bool
  | [] => true
  | handler :: rest => handler.isSound && handlersSound rest

/-- Whether a handler is sound. -/
def Handler.isSound : Handler → Bool
  | .mk _ _ body => bodySound body

end

theorem bodySound_eq (body : List Stmt) : bodySound body = body.all Stmt.isSound := by
  induction body with
  | nil => rfl
  | cons stmt body ih => rw [bodySound, List.all_cons, ih]

theorem handlersSound_eq (handlers : List Handler) :
    handlersSound handlers = handlers.all Handler.isSound := by
  induction handlers with
  | nil => rfl
  | cons handler handlers ih => rw [handlersSound, List.all_cons, ih]

end PropertyWrapper.Source
