import PropertyWrapper.Proofs.Source.CallReaders
import PropertyWrapper.Proofs.Source.Statements

/-!
# Calls of modules

Patterns and statements have no calls of their own: all calls in a module stand in the expressions that
are read for it, so they have the property of all argument lists.

* `calls_pattern`, `calls_simpleStatement`, `calls_statement` : the calls in a pattern or a statement;
* `calls_parseModule`, `calls_parseExpression` : the calls in a module and in an expression.
-/

namespace PropertyWrapper.Source

open Reader

variable {T : Array Token → Prop} {Q : Call → Prop} {g : Grammar}

/-! ## Patterns -/

/-- A reader of patterns in which all calls have a property. -/
abbrev YieldsPattern (T : Array Token → Prop) (Q : Call → Prop) (reader : Reader Pattern) : Prop :=
  Yields T (fun pattern => CallsHave Q pattern.calls) reader

theorem CallsHave.patterns {patterns : List Pattern} (h : ∀ pattern ∈ patterns, CallsHave Q pattern.calls) :
    CallsHave Q (patternsCalls patterns) := by
  rw [patternsCalls_eq]
  exact .flatMap h

theorem calls_signedNumber : YieldsCalls T Q signedNumber := by
  refine .skip fun pos => .skip fun negative => .skip fun inner => .skip fun value => .skip fun kind => ?_
  have hleft : CallsHave Q (Expr.calls (if negative then .unary pos .minus (.constant inner value)
      else .constant pos value)) := by
    split
    · exact .nil
    · exact .nil
  split
  · refine .ite ?_ (.pure hleft)
    exact .skip fun _ => .skip fun second => .skip fun other => .ite .fail (.pure (hleft.append .nil))
  · exact .pure hleft

theorem calls_dottedExpr : YieldsCalls T Q dottedExpr := by
  refine .skip fun pos => .skip fun first => .repeatStep (fun value hvalue => ?_) .nil
  refine .skip fun _ => .ite (.skip fun attr => .pure ?_) .none_of
  rintro _ ⟨⟩
  exact hvalue

theorem calls_mappingKey (hg : g.HasCalls T Q) : YieldsCalls T Q (mappingKey g) := by
  have hconstant : ∀ (pos : Position) (value : Constant), YieldsCalls T Q (do
      advance
      return .constant pos value) := fun pos value => .skip fun _ => .pure .nil
  refine .skip fun pos => .skip fun kind => ?_
  dsimp only
  split
  · exact calls_signedNumber
  · exact calls_signedNumber
  · exact calls_literals hg
  · exact hconstant _ _
  · exact hconstant _ _
  · exact hconstant _ _
  · refine (calls_dottedExpr (Q := Q)).bind fun value hvalue => ?_
    split
    · exact .pure hvalue
    · exact .fail

section Whole

variable {whole : Reader Pattern}

theorem calls_itemPattern (h : YieldsPattern T Q whole) : YieldsPattern T Q (itemPattern whole) := by
  refine .skip fun _ => .ite (.skip fun kind => ?_) h
  split
  · exact .skip fun _ => .pure .nil
  · exact .skip fun _ => .pure .nil

theorem calls_openSequence (h : YieldsPattern T Q whole) : YieldsPattern T Q (openSequence whole) := by
  refine (calls_itemPattern h).bind fun first hfirst => ?_
  refine (Yields.afterCommas (calls_itemPattern h)).bind fun found hrest => ?_
  exact .ite (.pure (.append hfirst (.patterns hrest))) (.ite .fail (.pure hfirst))

theorem calls_mappingPattern (hg : g.HasCalls T Q) (h : YieldsPattern T Q whole) :
    YieldsPattern T Q (mappingPattern g whole) := by
  refine Yields.bind (P := fun state : List Expr × List Pattern × Option String =>
      (∀ key ∈ state.1, CallsHave Q key.calls) ∧ ∀ pattern ∈ state.2.1, CallsHave Q pattern.calls)
    (.repeatStep (fun state hstate => ?_) (by simp)) fun state hstate => .skip fun _ => .pure ?_
  · obtain ⟨keys, patterns, rest⟩ := state
    have hnext : ∀ state : List Expr × List Pattern × Option String,
        (∀ key ∈ state.1, CallsHave Q key.calls) ∧ (∀ pattern ∈ state.2.1, CallsHave Q pattern.calls) →
        Yields T (fun next => ∀ state ∈ next, (∀ key ∈ state.1, CallsHave Q (Expr.calls key))
          ∧ ∀ pattern ∈ state.2.1, CallsHave Q (Pattern.calls pattern)) (do
            if ← accept (.symbol .comma) then return some state
            else if ← at? (.symbol .rbrace) then return some state
            else fail) := by
      intro state hstate
      have hsome : Yields T (fun next => ∀ state ∈ next, (∀ key ∈ state.1, CallsHave Q (Expr.calls key))
          ∧ ∀ pattern ∈ state.2.1, CallsHave Q (Pattern.calls pattern)) (pure (some state)) := by
        refine .pure ?_
        rintro _ ⟨⟩
        exact hstate
      exact .skip fun _ => .ite hsome (.skip fun _ => .ite hsome .fail)
    refine .skip fun _ => .ite .none_of (.ite .fail (.skip fun _ => .ite ?_ ?_))
    · exact .skip fun name => hnext _ hstate
    · refine (calls_mappingKey hg).bind fun key hkey => .skip fun _ => h.bind fun pattern hpattern => ?_
      refine hnext _ ⟨?_, ?_⟩
      · exact List.forall_mem_append.2 ⟨hstate.1, List.forall_mem_singleton.2 hkey⟩
      · exact List.forall_mem_append.2 ⟨hstate.2, List.forall_mem_singleton.2 hpattern⟩
  · exact .append (.all hstate.1) (.patterns hstate.2)

theorem calls_constructorPattern (h : YieldsPattern T Q whole) {cls : Expr} (hcls : CallsHave Q cls.calls) :
    YieldsPattern T Q (constructorPattern whole cls) := by
  refine Yields.bind (P := fun state : List Pattern × List String × List Pattern =>
      (∀ pattern ∈ state.1, CallsHave Q pattern.calls) ∧ ∀ pattern ∈ state.2.2, CallsHave Q pattern.calls)
    (.repeatStep (fun state hstate => ?_) (by simp)) fun state hstate => .skip fun _ => .pure ?_
  · obtain ⟨positional, names, named⟩ := state
    have hnext : ∀ state : List Pattern × List String × List Pattern,
        (∀ pattern ∈ state.1, CallsHave Q pattern.calls)
          ∧ (∀ pattern ∈ state.2.2, CallsHave Q pattern.calls) →
        Yields T (fun next => ∀ state ∈ next, (∀ pattern ∈ state.1, CallsHave Q (Pattern.calls pattern))
          ∧ ∀ pattern ∈ state.2.2, CallsHave Q (Pattern.calls pattern)) (do
            if ← accept (.symbol .comma) then return some state
            else if ← at? (.symbol .rparen) then return some state
            else fail) := by
      intro state hstate
      have hsome : Yields T (fun next => ∀ state ∈ next,
          (∀ pattern ∈ state.1, CallsHave Q (Pattern.calls pattern))
          ∧ ∀ pattern ∈ state.2.2, CallsHave Q (Pattern.calls pattern)) (pure (some state)) := by
        refine .pure ?_
        rintro _ ⟨⟩
        exact hstate
      exact .skip fun _ => .ite hsome (.skip fun _ => .ite hsome .fail)
    refine .skip fun _ => .ite .none_of (.skip fun kind => .skip fun kind' => ?_)
    dsimp only
    split
    · refine .skip fun _ => .skip fun _ => h.bind fun pattern hpattern => ?_
      exact hnext _ ⟨hstate.1, List.forall_mem_append.2 ⟨hstate.2, List.forall_mem_singleton.2 hpattern⟩⟩
    · refine .ite (h.bind fun pattern hpattern => ?_) .fail
      exact hnext _ ⟨List.forall_mem_append.2 ⟨hstate.1, List.forall_mem_singleton.2 hpattern⟩, hstate.2⟩
  · exact hcls.append (.append (.patterns hstate.1) (.patterns hstate.2))

theorem calls_closedPattern (hg : g.HasCalls T Q) (h : YieldsPattern T Q whole) :
    YieldsPattern T Q (closedPattern g whole) := by
  have hsingleton : ∀ value : Constant, YieldsPattern T Q (do
      advance
      return .singleton value) := fun value => .skip fun _ => .pure .nil
  refine .skip fun kind => .skip fun kind' => ?_
  dsimp only
  split
  · exact (calls_signedNumber (Q := Q)).bind fun _ h => .pure h
  · exact (calls_signedNumber (Q := Q)).bind fun _ h => .pure h
  · exact (calls_literals hg).bind fun _ h => .pure h
  · exact hsingleton _
  · exact hsingleton _
  · exact hsingleton _
  · exact .skip fun _ => .pure .nil
  · refine (calls_dottedExpr (Q := Q)).bind fun value hvalue => .skip fun kind => ?_
    split
    · exact .skip fun _ => calls_constructorPattern h hvalue
    · exact .fail
    · exact .pure hvalue
  · refine (calls_dottedExpr (Q := Q)).bind fun value hvalue => .skip fun kind => ?_
    split
    · exact .skip fun _ => calls_constructorPattern h hvalue
    · exact .fail
    · exact .pure hvalue
  · exact .skip fun _ => .pure .nil
  · exact .skip fun _ => .skip fun _ => .ite (.pure .nil)
      ((calls_openSequence h).bind fun _ h => .skip fun _ => .pure h)
  · exact .skip fun _ => (Yields.commaList (calls_itemPattern h)).bind fun items hitems =>
      .skip fun _ => .pure (.patterns hitems)
  · exact .skip fun _ => calls_mappingPattern hg h
  · exact .fail

theorem calls_wholePattern (hg : g.HasCalls T Q) (h : YieldsPattern T Q whole) :
    YieldsPattern T Q (wholePattern g whole) := by
  refine (Yields.separatedBy (calls_closedPattern hg h)).bind fun alternatives halternatives => ?_
  have hend : ∀ value : Pattern, CallsHave Q value.calls → YieldsPattern T Q (do
      if ← accept (.reserved .kwAs) then return .bind (some value) (some (← captureName))
      else return value) :=
    fun value hvalue => .skip fun _ => .ite (.skip fun name => .pure hvalue) (.pure hvalue)
  refine hend _ ?_
  split
  · exact halternatives _ (by simp)
  · exact .patterns halternatives

end Whole

/-- The calls in a pattern. -/
theorem calls_pattern (hg : g.HasCalls T Q) (fuel : Nat) : YieldsPattern T Q (pattern g fuel) := by
  induction fuel with
  | zero => exact .fail
  | succ fuel ih => exact calls_wholePattern hg ih

theorem calls_casePattern (hg : g.HasCalls T Q) (fuel : Nat) : YieldsPattern T Q (casePattern g fuel) :=
  calls_openSequence (calls_pattern hg fuel)

/-! ## Simple statements -/

/-- A reader of statements in which all calls have a property. -/
abbrev YieldsStmtCalls (T : Array Token → Prop) (Q : Call → Prop) (reader : Reader Stmt) : Prop :=
  Yields T (fun stmt => CallsHave Q stmt.calls) reader

theorem calls_parenthesizedPlace (hg : g.HasCalls T Q) : YieldsCalls T Q (parenthesizedPlace g) :=
  .skip fun _ => hg.primary.bind fun _ h => .skip fun _ => .ite (.pure h) .fail

theorem calls_annotatedTail (hg : g.HasCalls T Q) {line : Nat} {target : Expr} {bare : Bool}
    (htarget : CallsHave Q target.calls) : YieldsStmtCalls T Q (annotatedTail g line target bare) := by
  refine .skip fun _ => hg.expression.bind fun hint hhint => .skip fun _ => .ite ?_ ?_
  · exact (calls_assignedValue hg).bind fun value hvalue => .pure (htarget.append (hhint.append hvalue))
  · exact .pure (htarget.append (hhint.append .nil))

theorem calls_assignmentTail (hg : g.HasCalls T Q) {line : Nat} {first : Expr}
    (hfirst : CallsHave Q first.calls) : YieldsStmtCalls T Q (assignmentTail g line first) := by
  refine Yields.bind (P := fun state : List Expr × Expr =>
      (∀ target ∈ state.1, CallsHave Q target.calls) ∧ CallsHave Q state.2.calls)
    (.repeatStep (fun state hstate => ?_) ⟨by simp, hfirst⟩) fun state hstate => .pure ?_
  · obtain ⟨targets, value⟩ := state
    refine .skip fun _ => .ite (.ite (.skip fun _ => ?_) .fail) .none_of
    refine (calls_assignedValue hg).bind fun next hnext => .pure ?_
    rintro _ ⟨⟩
    exact ⟨List.forall_mem_cons.2 ⟨hstate.2, hstate.1⟩, hnext⟩
  · exact .append (.all (by simpa using hstate.1)) hstate.2

theorem calls_expressionTail (hg : g.HasCalls T Q) {line : Nat} {mayAnnotate : Bool} {value : Expr}
    (hvalue : CallsHave Q value.calls) :
    YieldsStmtCalls T Q (expressionTail g line mayAnnotate value) := by
  refine .skip fun kind => ?_
  split
  · exact .ite (calls_annotatedTail hg hvalue) .fail
  · exact calls_assignmentTail hg hvalue
  · refine .ite (.skip fun _ => ?_) .fail
    exact (calls_assignedValue hg).bind fun _ h => .pure (hvalue.append h)
  · exact .pure hvalue

theorem calls_expressionStatement (hg : g.HasCalls T Q) : YieldsStmtCalls T Q (expressionStatement g) := by
  refine .skip fun pos => .skip fun kind => .skip fun kind' => ?_
  split
  · exact .skip fun _ => calls_annotatedTail hg .nil
  · refine .skip fun place => .ite ?_ (.skip fun found => .ite ?_ ?_)
    · exact (calls_parenthesizedPlace hg).bind fun _ h => calls_annotatedTail hg h
    · exact (calls_starTargets hg).bind fun _ h => calls_expressionTail hg h
    · exact (calls_assignedValue hg).bind fun _ h => calls_expressionTail hg h

theorem calls_expression? (hg : g.HasCalls T Q) :
    Yields T (fun value => CallsHave Q (optionCalls value)) (expression? g) :=
  .skip fun _ => .ite (hg.expression.bind fun _ h => .pure h) (.pure .nil)

theorem calls_expressionAfter (hg : g.HasCalls T Q) {kind : TokenKind} :
    Yields T (fun value => CallsHave Q (optionCalls value)) (expressionAfter g kind) :=
  .skip fun _ => .ite (hg.expression.bind fun _ h => .pure h) (.pure .nil)

theorem calls_deleteStatement (hg : g.HasCalls T Q) {line : Nat} :
    YieldsStmtCalls T Q (deleteStatement g line) := by
  refine .skip fun _ => (Yields.commaList (P := fun e : Expr => CallsHave Q e.calls) ?_).bind
    fun targets htargets => .ite .fail (.pure (.all htargets))
  exact hg.primary.bind fun _ h => .ite (.pure h) .fail

theorem calls_simpleStatement (hg : g.HasCalls T Q) : YieldsStmtCalls T Q (simpleStatement g) := by
  -- Statements without expressions have no calls.
  have hplain : ∀ {α : Type} (reader : Reader α) (stmt : α → Stmt), (∀ a, (stmt a).calls = []) →
      YieldsStmtCalls T Q (do return stmt (← reader)) := by
    refine fun reader stmt hstmt => .skip fun a => .pure ?_
    rw [hstmt]
    exact .nil
  refine .skip fun pos => .skip fun kind => ?_
  split
  · refine .skip fun _ => .skip fun _ => .ite ?_ (.pure .nil)
    exact (calls_starExpressions hg).bind fun _ h => .pure h
  · exact .skip fun _ => hplain _ _ fun _ => rfl
  · refine .skip fun _ => .skip fun level => .skip fun _ => ?_
    have hend : ∀ module, YieldsStmtCalls T Q (do
        expect (.reserved .kwImport)
        return .importFrom pos.line level module (← importedNames)) :=
      fun module => .skip fun _ => hplain _ _ fun _ => rfl
    exact .ite (.skip fun _ => hend _) (.ite .fail (hend _))
  · refine .skip fun _ => (calls_expression? hg).bind fun exception hexception => ?_
    split
    · exact .pure .nil
    · exact (calls_expressionAfter hg).bind fun _ h => .pure (hexception.append h)
  · exact .skip fun _ => .pure .nil
  · exact .skip fun _ => .pure .nil
  · exact .skip fun _ => .pure .nil
  · exact calls_deleteStatement hg
  · refine .skip fun _ => hg.expression.bind fun test htest => ?_
    exact (calls_expressionAfter hg).bind fun _ h => .pure (htest.append h)
  · exact .skip fun _ => hplain _ _ fun _ => rfl
  · exact .skip fun _ => hplain _ _ fun _ => rfl
  · exact calls_expressionStatement hg

/-! ## Compound statements -/

/-- A reader of blocks in which all calls have a property. -/
abbrev YieldsBodyCalls (T : Array Token → Prop) (Q : Call → Prop) (reader : Reader (List Stmt)) : Prop :=
  Yields T (fun body => CallsHave Q (bodyCalls body)) reader

theorem CallsHave.body {body : List Stmt} (h : ∀ stmt ∈ body, CallsHave Q stmt.calls) :
    CallsHave Q (bodyCalls body) := by
  rw [bodyCalls_eq]
  exact .flatMap h

theorem calls_simpleStatements (hg : g.HasCalls T Q) : YieldsBodyCalls T Q (simpleStatements g) := by
  refine (calls_simpleStatement hg).bind fun first hfirst => ?_
  refine Yields.bind (P := fun rest : List Stmt => ∀ stmt ∈ rest, CallsHave Q stmt.calls)
    (.repeatStep (fun rest hrest => ?_) (by simp)) fun rest hrest => .skip fun _ => .pure ?_
  · refine .skip fun _ => .ite (.skip fun _ => .ite .none_of ?_) .none_of
    refine (calls_simpleStatement hg).bind fun stmt hstmt => .pure ?_
    rintro _ ⟨⟩
    exact List.forall_mem_cons.2 ⟨hstmt, hrest⟩
  · exact .append hfirst (.body (by simpa using hrest))

/-- All calls that the readers of compound statements give have a property. -/
structure Blocks.HasCalls (T : Array Token → Prop) (Q : Call → Prop) (b : Blocks) : Prop where
  g : b.g.HasCalls T Q
  block : YieldsBodyCalls T Q b.block

section Blocks

variable {b : Blocks}

theorem calls_suite (hb : b.HasCalls T Q) : YieldsBodyCalls T Q b.suite := .skip fun _ => hb.block

theorem calls_sectionAfter (hb : b.HasCalls T Q) (word : Reserved) :
    YieldsBodyCalls T Q (b.sectionAfter word) :=
  .skip fun _ => .ite (calls_suite hb) (.pure .nil)

theorem calls_branchStatement (hb : b.HasCalls T Q) {line : Nat} :
    YieldsStmtCalls T Q (branchStatement b line) := by
  refine .skip fun _ => (calls_namedExpression hb.g).bind fun test htest => ?_
  refine (calls_suite hb).bind fun body hbody => ?_
  refine (Yields.many (P := fun step : Nat × Expr × List Stmt => CallsHave Q step.2.1.calls
      ∧ CallsHave Q (bodyCalls step.2.2)) ?_).bind fun chain hchain =>
    (calls_sectionAfter hb _).bind fun orelse horelse => .pure ?_
  · refine .skip fun _ => .skip fun _ => (calls_namedExpression hb.g).bind fun test htest => ?_
    exact (calls_suite hb).bind fun body hbody => .pure ⟨htest, hbody⟩
  · have hfold : CallsHave Q (bodyCalls (chain.foldr (fun step orelse =>
        [Stmt.branch step.1 step.2.1 step.2.2 orelse]) orelse)) := by
      induction chain with
      | nil => exact horelse
      | cons step chain ih =>
        obtain ⟨hstep, hrest⟩ := List.forall_mem_cons.1 hchain
        exact .append (hstep.1.append (hstep.2.append (ih hrest))) .nil
    exact htest.append (hbody.append hfold)

theorem calls_whileStatement (hb : b.HasCalls T Q) {line : Nat} :
    YieldsStmtCalls T Q (whileStatement b line) :=
  .skip fun _ => (calls_namedExpression hb.g).bind fun _ htest => (calls_suite hb).bind fun _ hbody =>
    (calls_sectionAfter hb _).bind fun _ horelse => .pure (htest.append (hbody.append horelse))

theorem calls_forStatement (hb : b.HasCalls T Q) {line : Nat} {isAsync : Bool} :
    YieldsStmtCalls T Q (forStatement b line isAsync) := by
  refine .skip fun _ => (calls_starTargets hb.g).bind fun target htarget => .skip fun _ => ?_
  refine (calls_starExpressions hb.g).bind fun iterable hiterable => ?_
  refine (calls_suite hb).bind fun body hbody => (calls_sectionAfter hb _).bind fun orelse horelse => ?_
  exact .pure (htarget.append (hiterable.append (hbody.append horelse)))

theorem calls_withItem (hg : g.HasCalls T Q) :
    Yields T (fun item => CallsHave Q item.calls) (withItem g) := by
  refine hg.expression.bind fun manager hmanager => .skip fun _ => .ite ?_ (.pure (hmanager.append .nil))
  refine (calls_starTarget hg).bind fun target htarget => .skip fun kind => ?_
  split
  · exact .pure (hmanager.append htarget)
  · exact .pure (hmanager.append htarget)
  · exact .pure (hmanager.append htarget)
  · exact .fail

theorem calls_withStatement (hb : b.HasCalls T Q) {line : Nat} {isAsync : Bool} :
    YieldsStmtCalls T Q (withStatement b line isAsync) := by
  refine .skip fun _ => Yields.bind (P := fun items => ∀ item ∈ items, CallsHave Q (WithItem.calls item))
    (.orElse ?_ (.separatedBy (calls_withItem hb.g))) fun items hitems =>
      (calls_suite hb).bind fun body hbody => .pure (.append (.flatMap hitems) hbody)
  refine .skip fun _ => (Yields.commaList (calls_withItem hb.g)).bind fun items hitems => ?_
  exact .skip fun _ => .skip fun _ => .ite .fail (.pure hitems)

theorem calls_handler (hb : b.HasCalls T Q) {isGroup : Bool} :
    Yields T (fun handler => CallsHave Q handler.calls) (handler b isGroup) := by
  refine .skip fun _ => .ite ?_ ?_
  · refine .skip fun _ => hb.g.expression.bind fun exception hexception => .skip fun _ => ?_
    exact (calls_suite hb).bind fun _ hbody => .pure (.append hexception hbody)
  · refine (calls_expression? hb.g).bind fun exception hexception => ?_
    split
    · exact (calls_suite hb).bind fun _ hbody => .pure (.append .nil hbody)
    · exact .skip fun _ => (calls_suite hb).bind fun _ hbody => .pure (.append hexception hbody)

theorem calls_handlers (hb : b.HasCalls T Q) {isGroup : Bool} :
    Yields T (fun found => CallsHave Q (handlersCalls found)) (handlers b isGroup) := by
  have hmany : Yields T (fun found => ∀ handler ∈ found, CallsHave Q (Handler.calls handler))
      (handlers b isGroup) := .many (.skip fun _ => .ite (calls_handler hb) .misformed)
  intro tokens index found stop htokens h
  rw [handlersCalls_eq]
  exact .flatMap (hmany tokens index found stop htokens h)

theorem calls_tryStatement (hb : b.HasCalls T Q) {line : Nat} :
    YieldsStmtCalls T Q (tryStatement b line) := by
  refine .skip fun _ => (calls_suite hb).bind fun body hbody => .skip fun kind => ?_
  split
  · refine .skip fun kind => (calls_handlers hb).bind fun found hfound => ?_
    refine (calls_sectionAfter hb _).bind fun orelse horelse => ?_
    refine (calls_sectionAfter hb _).bind fun final hfinal => ?_
    exact .pure (hbody.append (hfound.append (horelse.append hfinal)))
  · refine .skip fun _ => (calls_suite hb).bind fun final hfinal => ?_
    exact .pure (hbody.append (.append .nil (.append .nil hfinal)))
  · exact .failMisformed

theorem calls_functionStatement (hb : b.HasCalls T Q) {line : Nat} {isAsync : Bool}
    {decorators : List Expr} (hdecorators : ∀ e ∈ decorators, CallsHave Q e.calls) :
    YieldsStmtCalls T Q (functionStatement b line isAsync decorators) := by
  refine .skip fun _ => .skip fun name => .skip fun _ => (calls_parameters hb.g).bind fun _ hparams => ?_
  refine .skip fun _ => (calls_expressionAfter hb.g).bind fun returns hreturns => ?_
  refine (calls_suite hb).bind fun body hbody => .pure ?_
  exact .append (.all hdecorators) (hparams.append (hreturns.append hbody))

theorem calls_classStatement (hb : b.HasCalls T Q) {line : Nat} {decorators : List Expr}
    (hdecorators : ∀ e ∈ decorators, CallsHave Q e.calls) :
    YieldsStmtCalls T Q (classStatement b line decorators) := by
  refine .skip fun _ => .skip fun name => .skip fun found => ?_
  have hend : ∀ bases keywords, CallsHave Q (allCalls bases) → CallsHave Q (keywordsCalls keywords) →
      YieldsStmtCalls T Q (do return .classDef line name bases keywords (← b.suite) decorators) := by
    refine fun bases keywords hbases hkeywords => (calls_suite hb).bind fun body hbody => .pure ?_
    exact .append (.all hdecorators) (hbases.append (hkeywords.append hbody))
  cases found
  · exact hend _ _ .nil .nil
  · exact (calls_arguments hb.g).bind fun found hfound => hend _ _ hfound.1 hfound.2

theorem calls_definition (hb : b.HasCalls T Q) : YieldsStmtCalls T Q (definition b) := by
  refine (Yields.many (P := fun e : Expr => CallsHave Q e.calls) ?_).bind fun decorators hdecorators =>
    .skip fun pos => .skip fun kind => ?_
  · exact .skip fun _ => (calls_namedExpression hb.g).bind fun _ h => .skip fun _ => .pure h
  · split
    · exact calls_classStatement hb hdecorators
    · exact calls_functionStatement hb hdecorators
    · exact .skip fun _ => calls_functionStatement hb hdecorators
    · exact .fail

theorem calls_asyncStatement (hb : b.HasCalls T Q) {line : Nat} :
    YieldsStmtCalls T Q (asyncStatement b line) := by
  refine .skip fun kind => ?_
  split
  · exact .skip fun _ => calls_forStatement hb
  · exact .skip fun _ => calls_withStatement hb
  · exact calls_definition hb

theorem calls_matchCase (hb : b.HasCalls T Q) :
    Yields T (fun case => CallsHave Q case.calls) (matchCase b) := by
  refine .skip fun _ => (calls_casePattern hb.g _).bind fun pattern hpattern => .skip fun _ => ?_
  refine .ite ?_ ?_
  · refine (calls_namedExpression hb.g).bind fun guard hguard => ?_
    exact (calls_suite hb).bind fun body hbody => .pure (hpattern.append (.append hguard hbody))
  · exact (calls_suite hb).bind fun body hbody => .pure (hpattern.append (.append .nil hbody))

theorem calls_matchSubject (hg : g.HasCalls T Q) : YieldsCalls T Q (matchSubject g) := by
  refine .skip fun _ => .skip fun pos => (calls_starNamed hg).bind fun first hfirst => ?_
  refine (Yields.afterCommas (calls_starNamed hg)).bind fun found hrest => .ite .fail ?_
  refine .skip fun _ => .ite (yields_refuse g) (.skip fun _ => .skip fun _ => .pure ?_)
  split
  · exact hfirst.append (.all hrest)
  · exact hfirst

theorem calls_matchCases (hb : b.HasCalls T Q) :
    Yields T (fun cases => CallsHave Q (casesCalls cases)) (matchCases b) := by
  refine .skip fun _ => .ite ((calls_matchCase hb).bind fun first hfirst => ?_) .failBlock
  refine (Yields.many (calls_matchCase hb)).bind fun rest hrest => .skip fun _ => .pure ?_
  refine .append hfirst ?_
  rw [casesCalls_eq]
  exact .flatMap hrest

theorem calls_matchStatement (hb : b.HasCalls T Q) {line : Nat} :
    YieldsBodyCalls T Q (matchStatement b line) := by
  refine .skip fun isMatch => .ite ?_ (.orElse (.skip fun _ => .fail) (calls_simpleStatements hb.g))
  refine (calls_matchSubject hb.g).bind fun subject hsubject => ?_
  exact (calls_matchCases hb).bind fun cases hcases => .pure (.append (hsubject.append hcases) .nil)

theorem calls_statement (hb : b.HasCalls T Q) : YieldsBodyCalls T Q (statement b) := by
  have hsingle : ∀ {reader : Reader Stmt}, YieldsStmtCalls T Q reader →
      YieldsBodyCalls T Q (do return [← reader]) :=
    fun h => h.bind fun _ hstmt => .pure (hstmt.append .nil)
  refine .skip fun pos => .skip fun kind => ?_
  split
  · exact hsingle (calls_branchStatement hb)
  · exact hsingle (calls_whileStatement hb)
  · exact hsingle (calls_forStatement hb)
  · exact hsingle (calls_withStatement hb)
  · exact hsingle (calls_tryStatement hb)
  · exact hsingle (calls_asyncStatement hb)
  · exact hsingle (calls_definition hb)
  · exact hsingle (calls_definition hb)
  · exact hsingle (calls_definition hb)
  · exact calls_matchStatement hb
  · exact calls_simpleStatements hb.g

theorem calls_statements (hb : b.HasCalls T Q) : YieldsBodyCalls T Q (statements b) := by
  refine (Yields.many (calls_statement hb)).bind fun bodies hbodies => .pure (.body ?_)
  intro stmt hstmt
  obtain ⟨body, hbody, hstmt⟩ := List.mem_flatten.1 hstmt
  specialize hbodies body hbody
  rw [bodyCalls_eq] at hbodies
  exact fun call hcall => hbodies call (List.mem_flatMap.2 ⟨stmt, hstmt, hcall⟩)

end Blocks

/-- The calls in blocks of any depth. -/
theorem calls_block (hg : g.HasCalls T Q) (depth fuel : Nat) : YieldsBodyCalls T Q (block g depth fuel) := by
  induction fuel with
  | zero => exact .fail
  | succ fuel ih =>
    have hb : Blocks.HasCalls T Q { g, depth, block := block g depth fuel } := ⟨hg, ih⟩
    refine .skip fun _ => .ite (.skip fun _ => .ite ?_ .failBlock) (calls_simpleStatements hg)
    refine (calls_statement hb).bind fun first hfirst => ?_
    refine (calls_statements hb).bind fun rest hrest => .skip fun _ => .pure ?_
    rw [bodyCalls_eq] at hfirst hrest ⊢
    rw [List.flatMap_append]
    exact hfirst.append hrest

/-! ## Whole texts -/

section Texts

variable (hT : ∀ text, T (tokens text))
  (harguments : ∀ fuel generators pos, Yields T (fun found => Q ⟨found.1, found.2⟩)
    (arguments (grammar false fuel) generators pos))

include hT harguments

/-- All calls in a module have the property of all argument lists. -/
theorem calls_parseModule {source : String} {body : List Stmt} (h : parseModule source = .ok body) :
    CallsHave Q (bodyCalls body) := by
  obtain ⟨stop, hread⟩ := readAll_eq_ok h
  have hg := hasCalls_grammar false hT harguments ((Text.closedLines source.toList).length + 2)
  have hmodule : YieldsBodyCalls T Q (moduleReader false ((Text.closedLines source.toList).length + 2)) :=
    (calls_statements ⟨hg, calls_block hg _ _⟩).bind fun body hbody => .skip fun _ => .pure hbody
  exact hmodule _ _ _ _ (hT _) hread

/-- All calls in an expression have the property of all argument lists. -/
theorem calls_parseExpression {source : String} {value : Expr} (h : parseExpression source = .ok value) :
    CallsHave Q value.calls := by
  obtain ⟨stop, hread⟩ := readAll_eq_ok h
  have hg := hasCalls_grammar false hT harguments ((Text.unifyNewlines source.toList).length + 2)
  have hexpression : YieldsCalls T Q
      (expressionReader false ((Text.unifyNewlines source.toList).length + 2)) :=
    (calls_tupleOr hg.expression).bind fun value hvalue => .skip fun _ => .skip fun _ => .pure hvalue
  exact hexpression _ _ _ _ (hT _) hread

end Texts

end PropertyWrapper.Source
