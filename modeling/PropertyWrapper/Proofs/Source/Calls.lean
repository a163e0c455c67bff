import PropertyWrapper.Source.Tree

/-!
# Calls in trees

The calls that occur in a tree, wherever they stand: in operands, in arguments of other calls, in
replacement fields, in annotations and defaults, and in all blocks of a statement.

* `Expr.calls`, `Stmt.calls` : the calls of a tree;
* `CallsHave` : all of some calls have a property;
* `allCalls_eq`, `bodyCalls_eq` and so on : the calls of a list are those of its items.
-/

namespace PropertyWrapper.Source

/-- The arguments of a call as the tree keeps them: positional and unpacked ones, and named ones with
unpacked mappings. -/
structure Call where
  args : List Expr
  keywords : List Keyword

/-- The names of the named arguments of a call. -/
def Call.labels (call : Call) : List String := call.keywords.filterMap Keyword.name

/-! ## Expressions -/

mutual

/-- The calls in an expression. -/
def Expr.calls : Expr → List Call
  | .name .. => []
  | .constant .. => []
  | .formatted _ parts => partsCalls parts
  | .attribute _ value _ => value.calls
  | .subscript _ value index => value.calls ++ index.calls
  | .call _ func args keywords =>
    ⟨args, keywords⟩ :: (func.calls ++ (allCalls args ++ keywordsCalls keywords))
  | .starred _ value => value.calls
  | .slice _ lower upper step => optionCalls lower ++ (optionCalls upper ++ optionCalls step)
  | .tuple _ elements => allCalls elements
  | .list _ elements => allCalls elements
  | .set _ elements => allCalls elements
  | .dict _ items => itemsCalls items
  | .listComp _ element clauses => element.calls ++ clausesCalls clauses
  | .setComp _ element clauses => element.calls ++ clausesCalls clauses
  | .generator _ element clauses => element.calls ++ clausesCalls clauses
  | .dictComp _ key value clauses => key.calls ++ (value.calls ++ clausesCalls clauses)
  | .unary _ _ operand => operand.calls
  | .binary _ _ left right => left.calls ++ right.calls
  | .boolean _ _ operands => allCalls operands
  | .compare _ left rest => left.calls ++ stepsCalls rest
  | .conditional _ body test orelse => body.calls ++ (test.calls ++ orelse.calls)
  | .lambda _ params body => params.calls ++ body.calls
  | .assigned _ target value => target.calls ++ value.calls
  | .await _ value => value.calls
  | .yield _ value => optionCalls value
  | .yieldFrom _ value => value.calls

/-- The calls in some expressions. -/
def allCalls : List Expr → List Call
  | [] => []
  | e :: rest => e.calls ++ allCalls rest

/-- The calls in an optional expression. -/
def optionCalls : Option Expr → List Call
  | none => []
  | some e => e.calls

/-- The calls in a part of a formatted literal. -/
def FormatPart.calls : FormatPart → List Call
  | .text _ => []
  | .field value _ spec => value.calls ++ specCalls spec

/-- The calls in a format. -/
def specCalls : Option (List FormatPart) → List Call
  | none => []
  | some parts => partsCalls parts

/-- The calls in the parts of a formatted literal. -/
def partsCalls : List FormatPart → List Call
  | [] => []
  | part :: rest => part.calls ++ partsCalls rest

/-- The calls in a named argument. -/
def Keyword.calls : Keyword → List Call
  | .mk _ _ value => value.calls

/-- The calls in named arguments. -/
def keywordsCalls : List Keyword → List Call
  | [] => []
  | keyword :: rest => keyword.calls ++ keywordsCalls rest

/-- The calls in an item of a dictionary. -/
def DictItem.calls : DictItem → List Call
  | .pair key value => key.calls ++ value.calls
  | .unpack value => value.calls

/-- The calls in the items of a dictionary. -/
def itemsCalls : List DictItem → List Call
  | [] => []
  | item :: rest => item.calls ++ itemsCalls rest

/-- The calls in a clause of a comprehension. -/
def Comprehension.calls : Comprehension → List Call
  | .mk _ target iterable conditions => target.calls ++ (iterable.calls ++ allCalls conditions)

/-- The calls in the clauses of a comprehension. -/
def clausesCalls : List Comprehension → List Call
  | [] => []
  | clause :: rest => clause.calls ++ clausesCalls rest

/-- The calls in a step of a comparison. -/
def CompareStep.calls : CompareStep → List Call
  | .mk _ operand => operand.calls

/-- The calls in the steps of a comparison. -/
def stepsCalls : List CompareStep → List Call
  | [] => []
  | step :: rest => step.calls ++ stepsCalls rest

/-- The calls in a parameter. -/
def Parameter.calls : Parameter → List Call
  | .mk _ hint default => optionCalls hint ++ optionCalls default

/-- The calls in parameters. -/
def paramsCalls : List Parameter → List Call
  | [] => []
  | param :: rest => param.calls ++ paramsCalls rest

/-- The calls in an optional parameter. -/
def paramCalls : Option Parameter → List Call
  | none => []
  | some param => param.calls

/-- The calls in the parameters of a function. -/
def Parameters.calls : Parameters → List Call
  | .mk positionalOnly regular variadic keywordOnly keywords =>
    paramsCalls positionalOnly ++ (paramsCalls regular ++ (paramCalls variadic
      ++ (paramsCalls keywordOnly ++ paramCalls keywords)))

end

/-! ## Statements -/

mutual

/-- The calls in a match pattern. -/
def Pattern.calls : Pattern → List Call
  | .value value => value.calls
  | .singleton _ => []
  | .sequence patterns => patternsCalls patterns
  | .mapping keys patterns _ => allCalls keys ++ patternsCalls patterns
  | .constructor cls positional _ named =>
    cls.calls ++ (patternsCalls positional ++ patternsCalls named)
  | .star _ => []
  | .bind none _ => []
  | .bind (some pattern) _ => pattern.calls
  | .or alternatives => patternsCalls alternatives

/-- The calls in some match patterns. -/
def patternsCalls : List Pattern → List Call
  | [] => []
  | pattern :: rest => pattern.calls ++ patternsCalls rest

end

/-- The calls in a context manager and its target. -/
def WithItem.calls (item : WithItem) : List Call := item.manager.calls ++ optionCalls item.target

mutual

/-- The calls in a statement and in all its blocks. -/
def Stmt.calls : Stmt → List Call
  | .function _ _ _ params body decorators returns =>
    allCalls decorators ++ (params.calls ++ (optionCalls returns ++ bodyCalls body))
  | .classDef _ _ bases keywords body decorators =>
    allCalls decorators ++ (allCalls bases ++ (keywordsCalls keywords ++ bodyCalls body))
  | .ret _ value => optionCalls value
  | .delete _ targets => allCalls targets
  | .assign _ targets value => allCalls targets ++ value.calls
  | .augAssign _ target _ value => target.calls ++ value.calls
  | .annAssign _ target hint value _ => target.calls ++ (hint.calls ++ optionCalls value)
  | .loop _ _ target iterable body orelse =>
    target.calls ++ (iterable.calls ++ (bodyCalls body ++ bodyCalls orelse))
  | .whileLoop _ test body orelse => test.calls ++ (bodyCalls body ++ bodyCalls orelse)
  | .branch _ test body orelse => test.calls ++ (bodyCalls body ++ bodyCalls orelse)
  | .withBlock _ _ items body => items.flatMap WithItem.calls ++ bodyCalls body
  | .matchOn _ subject cases => subject.calls ++ casesCalls cases
  | .raise _ exception cause => optionCalls exception ++ optionCalls cause
  | .tryBlock _ _ body handlers orelse final =>
    bodyCalls body ++ (handlersCalls handlers ++ (bodyCalls orelse ++ bodyCalls final))
  | .assert _ test message => test.calls ++ optionCalls message
  | .expr _ value => value.calls
  | _ => []

/-- The calls in a block. -/
def bodyCalls : List Stmt → List Call
  | [] => []
  | stmt :: rest => stmt.calls ++ bodyCalls rest

/-- The calls in a handler. -/
def Handler.calls : Handler → List Call
  | .mk exception _ body => optionCalls exception ++ bodyCalls body

/-- The calls in the handlers of a `try`. -/
def handlersCalls : List Handler → List Call
  | [] => []
  | handler :: rest => handler.calls ++ handlersCalls rest

/-- The calls in a case of a `match`. -/
def MatchCase.calls : MatchCase → List Call
  | .mk pattern guard body => pattern.calls ++ (optionCalls guard ++ bodyCalls body)

/-- The calls in the cases of a `match`. -/
def casesCalls : List MatchCase → List Call
  | [] => []
  | case :: rest => case.calls ++ casesCalls rest

end

/-! ## Calls of lists -/

/-- A function that goes through a list item by item. -/
theorem eq_flatMap {α β : Type} {f : List α → List β} {g : α → List β} (hnil : f [] = [])
    (hcons : ∀ item rest, f (item :: rest) = g item ++ f rest) (items : List α) :
    f items = items.flatMap g := by
  induction items with
  | nil => exact hnil
  | cons item items ih => rw [hcons, List.flatMap_cons, ih]

theorem allCalls_eq (es : List Expr) : allCalls es = es.flatMap Expr.calls :=
  eq_flatMap rfl (fun _ _ => rfl) es

theorem partsCalls_eq (parts : List FormatPart) : partsCalls parts = parts.flatMap FormatPart.calls :=
  eq_flatMap rfl (fun _ _ => rfl) parts

theorem keywordsCalls_eq (keywords : List Keyword) :
    keywordsCalls keywords = keywords.flatMap Keyword.calls :=
  eq_flatMap rfl (fun _ _ => rfl) keywords

theorem itemsCalls_eq (items : List DictItem) : itemsCalls items = items.flatMap DictItem.calls :=
  eq_flatMap rfl (fun _ _ => rfl) items

theorem clausesCalls_eq (clauses : List Comprehension) :
    clausesCalls clauses = clauses.flatMap Comprehension.calls :=
  eq_flatMap rfl (fun _ _ => rfl) clauses

theorem stepsCalls_eq (steps : List CompareStep) : stepsCalls steps = steps.flatMap CompareStep.calls :=
  eq_flatMap rfl (fun _ _ => rfl) steps

theorem paramsCalls_eq (params : List Parameter) : paramsCalls params = params.flatMap Parameter.calls :=
  eq_flatMap rfl (fun _ _ => rfl) params

theorem patternsCalls_eq (patterns : List Pattern) :
    patternsCalls patterns = patterns.flatMap Pattern.calls :=
  eq_flatMap rfl (fun _ _ => rfl) patterns

theorem bodyCalls_eq (body : List Stmt) : bodyCalls body = body.flatMap Stmt.calls :=
  eq_flatMap rfl (fun _ _ => rfl) body

theorem handlersCalls_eq (handlers : List Handler) :
    handlersCalls handlers = handlers.flatMap Handler.calls :=
  eq_flatMap rfl (fun _ _ => rfl) handlers

theorem casesCalls_eq (cases : List MatchCase) : casesCalls cases = cases.flatMap MatchCase.calls :=
  eq_flatMap rfl (fun _ _ => rfl) cases

/-! ## Properties of all calls -/

/-- All of some calls have a property. -/
def CallsHave (Q : Call → Prop) (calls : List Call) : Prop := ∀ call ∈ calls, Q call

namespace CallsHave

variable {Q : Call → Prop} {a b : List Call}

theorem nil : CallsHave Q [] := by
  intro call hmem
  cases hmem

theorem append (ha : CallsHave Q a) (hb : CallsHave Q b) : CallsHave Q (a ++ b) :=
  List.forall_mem_append.2 ⟨ha, hb⟩

theorem cons {call : Call} (hcall : Q call) (ha : CallsHave Q a) : CallsHave Q (call :: a) :=
  List.forall_mem_cons.2 ⟨hcall, ha⟩

theorem flatMap {α : Type} {items : List α} {calls : α → List Call}
    (h : ∀ item ∈ items, CallsHave Q (calls item)) : CallsHave Q (items.flatMap calls) := by
  intro call hmem
  obtain ⟨item, hitem, hcall⟩ := List.mem_flatMap.1 hmem
  exact h item hitem call hcall

theorem all {es : List Expr} (h : ∀ e ∈ es, CallsHave Q e.calls) : CallsHave Q (allCalls es) := by
  rw [allCalls_eq]
  exact flatMap h

end CallsHave

section Bodies

variable {Q : Call → Prop}

end Bodies

end PropertyWrapper.Source
