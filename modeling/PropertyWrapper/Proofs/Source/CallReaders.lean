import PropertyWrapper.Proofs.Source.Calls
import PropertyWrapper.Proofs.Source.Expressions

/-!
# Calls of what is read

A call gets its arguments from one reader, wherever it stands in an expression. So what holds of all
argument lists that this reader gives holds of all calls in the expressions that are read. There is one
lemma for each reader, in the order of the grammar.

* `Grammar.HasCalls` : the calls that the recursive readers of a grammar give have a property;
* `hasCalls_grammar` : they have the property of all argument lists.
-/

namespace PropertyWrapper.Source

open Reader

variable {T : Array Token → Prop} {Q : Call → Prop}

/-- A reader of expressions in which all calls have a property. -/
abbrev YieldsCalls (T : Array Token → Prop) (Q : Call → Prop) (reader : Reader Expr) : Prop :=
  Yields T (fun e => CallsHave Q e.calls) reader

/-- All calls that the recursive readers of a grammar give have a property, and so have the argument
lists that are read with it. -/
structure Grammar.HasCalls (T : Array Token → Prop) (Q : Call → Prop) (g : Grammar) : Prop where
  expression : YieldsCalls T Q g.expression
  inversion : YieldsCalls T Q g.inversion
  factor : YieldsCalls T Q g.factor
  primary : YieldsCalls T Q g.primary
  field : ∀ source value, g.field source = some value → CallsHave Q value.calls
  arguments : ∀ generators pos,
    Yields T (fun found => Q ⟨found.1, found.2⟩) (arguments g generators pos)

/-! ## Operators -/

theorem calls_leftAssociative {operators : List BinaryOp} {operand : Reader Expr}
    (h : YieldsCalls T Q operand) : YieldsCalls T Q (leftAssociative operators operand) := by
  refine .skip fun pos => h.bind fun first hfirst => .repeatStep (fun left hleft => ?_) hfirst
  refine .skip fun kind => ?_
  split
  · refine .ite (.skip fun _ => h.bind fun right hright => .pure ?_) .none_of
    rintro _ ⟨⟩
    exact hleft.append hright
  · exact .none_of

section Grammar

variable {g : Grammar}

theorem calls_bitwiseOr (hg : g.HasCalls T Q) : YieldsCalls T Q (bitwiseOr g) :=
  calls_leftAssociative <| calls_leftAssociative <| calls_leftAssociative <|
    calls_leftAssociative <| calls_leftAssociative <| calls_leftAssociative hg.factor

theorem calls_comparison (hg : g.HasCalls T Q) : YieldsCalls T Q (comparison g) := by
  refine .skip fun pos => (calls_bitwiseOr hg).bind fun left hleft => ?_
  refine Yields.bind (P := fun steps => ∀ step ∈ steps, CallsHave Q (CompareStep.calls step))
    (.repeatStep (fun steps hsteps => .skip fun found => ?_) (by simp)) fun steps hsteps => .pure ?_
  · split
    · exact .none_of
    · rename_i op count
      have hstep : Yields T (fun next => ∀ steps ∈ next, ∀ step ∈ steps, CallsHave Q (CompareStep.calls step))
          (do return some (.mk op (← bitwiseOr g) :: steps)) := by
        refine (calls_bitwiseOr hg).bind fun operand hoperand => .pure ?_
        rintro _ ⟨⟩
        exact List.forall_mem_cons.2 ⟨hoperand, hsteps⟩
      exact .skip fun _ => .ite (.skip fun _ => hstep) hstep
  · split
    · exact hleft
    · refine hleft.append ?_
      rw [stepsCalls_eq]
      exact .flatMap (by simpa using hsteps)

theorem calls_inversion (hg : g.HasCalls T Q) : YieldsCalls T Q (inversion g) :=
  .skip fun _ => .skip fun _ => .ite (hg.inversion.bind fun _ h => .pure h) (calls_comparison hg)

theorem calls_booleanChain {op : BoolOp} {word : Reserved} {operand : Reader Expr}
    (h : YieldsCalls T Q operand) : YieldsCalls T Q (booleanChain op word operand) := by
  refine .skip fun pos => (Yields.separatedBy h).bind fun operands hoperands => ?_
  split
  · exact .pure (hoperands _ (by simp))
  · exact .pure (.all hoperands)

theorem calls_disjunction (hg : g.HasCalls T Q) : YieldsCalls T Q (disjunction g) :=
  calls_booleanChain (calls_booleanChain (calls_inversion hg))

/-! ## Lists of expressions -/

theorem yields_refuse {α : Type} {P : α → Prop} (g : Grammar) : Yields T P (g.refuse : Reader α) :=
  .ite .failMisformed .fail

theorem calls_namedExpression (hg : g.HasCalls T Q) : YieldsCalls T Q (namedExpression g) := by
  refine .skip fun pos => .skip fun kind => .skip fun kind' => ?_
  split
  · exact .skip fun _ => .skip fun _ => hg.expression.bind fun _ h => .pure (.append .nil h)
  · exact .skip fun _ => yields_refuse g
  · exact hg.expression.bind fun _ h => .skip fun _ => .ite .fail (.pure h)

theorem calls_starredOr (hg : g.HasCalls T Q) {plain : Reader Expr} (h : YieldsCalls T Q plain) :
    YieldsCalls T Q (starredOr g plain) :=
  .skip fun _ => .skip fun _ => .ite ((calls_bitwiseOr hg).bind fun _ h => .pure h) h

theorem calls_tupleOr {starts : TokenKind → Bool} {item : Reader Expr} (h : YieldsCalls T Q item) :
    YieldsCalls T Q (tupleOr starts item) := by
  refine .skip fun pos => h.bind fun first hfirst => (Yields.afterCommas h).bind fun found hrest => ?_
  refine .pure ?_
  split
  · exact hfirst.append (.all hrest)
  · exact hfirst

theorem calls_starExpressions (hg : g.HasCalls T Q) : YieldsCalls T Q (starExpressions g) :=
  calls_tupleOr (calls_starredOr hg hg.expression)

theorem calls_starNamed (hg : g.HasCalls T Q) : YieldsCalls T Q (starNamed g) :=
  calls_starredOr hg (calls_namedExpression hg)

theorem calls_yieldExpression (hg : g.HasCalls T Q) : YieldsCalls T Q (yieldExpression g) :=
  .skip fun _ => .skip fun _ => .skip fun _ => .ite (hg.expression.bind fun _ h => .pure h) <|
    .skip fun _ => .ite ((calls_starExpressions hg).bind fun _ h => .pure h) (.pure .nil)

theorem calls_assignedValue (hg : g.HasCalls T Q) : YieldsCalls T Q (assignedValue g) :=
  .skip fun _ => .ite (calls_yieldExpression hg) (calls_starExpressions hg)

/-! ## Parameters -/

/-- All calls in the parameters read so far have a property. -/
structure ParameterState.HasCalls (Q : Call → Prop) (s : ParameterState) : Prop where
  positionalOnly : CallsHave Q (paramsCalls s.positionalOnly)
  regular : CallsHave Q (paramsCalls s.regular)
  variadic : CallsHave Q (paramCalls s.variadic)
  keywordOnly : CallsHave Q (paramsCalls s.keywordOnly)
  keywords : CallsHave Q (paramCalls s.keywords)

theorem calls_hint? {annotated : Bool} {value : Reader Expr} (h : YieldsCalls T Q value) :
    Yields T (fun hint => CallsHave Q (optionCalls hint)) (hint? annotated value) :=
  .ite (.skip fun _ => .ite (h.bind fun _ hhint => .pure hhint) (.pure .nil)) (.pure .nil)

theorem CallsHave.params_concat {params : List Parameter} {param : Parameter}
    (hparams : CallsHave Q (paramsCalls params)) (hparam : CallsHave Q param.calls) :
    CallsHave Q (paramsCalls (params ++ [param])) := by
  rw [paramsCalls_eq, List.flatMap_append, ← paramsCalls_eq, List.flatMap_singleton]
  exact hparams.append hparam

theorem calls_parameterItem (hg : g.HasCalls T Q) {annotated : Bool} {s : ParameterState}
    (hs : s.HasCalls Q) : Yields T (ParameterState.HasCalls Q) (parameterItem g annotated s) := by
  refine .skip fun kind => ?_
  split
  · exact .ite .fail (.skip fun _ =>
      .pure { hs with positionalOnly := hs.regular, regular := .nil })
  · refine .ite .fail (.skip fun _ => .skip fun _ => .ite (.pure { hs with }) (.skip fun name => ?_))
    refine (calls_hint? (calls_starredOr hg hg.expression)).bind fun hint hhint => .pure ?_
    exact { hs with variadic := hhint.append .nil }
  · refine .ite .fail (.skip fun _ => .skip fun name => ?_)
    refine (calls_hint? hg.expression).bind fun hint hhint => .pure ?_
    exact { hs with keywords := hhint.append .nil }
  · refine .skip fun name => (calls_hint? hg.expression).bind fun hint hhint => ?_
    have hend : ∀ default, CallsHave Q (optionCalls default) → Yields T (ParameterState.HasCalls Q)
        (if s.hasStar then
          pure { s with keywordOnly := s.keywordOnly ++ [.mk name hint default], pending := false }
        else if s.hasDefault && default.isNone then fail
        else
          pure { s with
            regular := s.regular ++ [.mk name hint default]
            hasDefault := s.hasDefault || default.isSome }) := by
      intro default hdefault
      have hparam : CallsHave Q (Parameter.mk name hint default).calls := hhint.append hdefault
      refine .ite (.pure { hs with keywordOnly := hs.keywordOnly.params_concat hparam }) (.ite .fail ?_)
      exact .pure { hs with regular := hs.regular.params_concat hparam }
    exact .skip fun _ => .ite (hg.expression.bind fun value hvalue => hend (some value) hvalue)
      (hend none .nil)

theorem calls_parameters (hg : g.HasCalls T Q) {annotated : Bool} {closing : TokenKind} :
    Yields T (fun params => CallsHave Q params.calls) (parameters g annotated closing) := by
  refine Yields.bind (P := ParameterState.HasCalls Q) (.repeatStep (fun s hs => ?_)
    ⟨.nil, .nil, .nil, .nil, .nil⟩) fun s hs => .ite .fail (.pure ?_)
  · refine .skip fun _ => .ite .none_of (.ite .fail ?_)
    refine (calls_parameterItem hg hs).bind fun s' hs' => ?_
    have hnext : Yields T (fun next => ∀ a ∈ next, ParameterState.HasCalls Q a)
        (pure (some s') : Reader (Option ParameterState)) := .pure (by rintro _ ⟨⟩; exact hs')
    exact .skip fun _ => .ite hnext (.skip fun _ => .ite hnext .fail)
  · exact hs.positionalOnly.append (hs.regular.append (hs.variadic.append
      (hs.keywordOnly.append hs.keywords)))

/-! ## Comprehensions -/

theorem calls_starTarget (hg : g.HasCalls T Q) : YieldsCalls T Q (starTarget g) := by
  have hend : ∀ value : Expr, CallsHave Q value.calls → YieldsCalls T Q
      (if value.isTarget true then pure value else fail) := fun value h => .ite (.pure h) .fail
  exact .skip fun _ => .skip fun _ => .ite (hg.primary.bind fun _ h => hend _ h)
    (hg.primary.bind fun _ h => hend _ h)

theorem calls_starTargets (hg : g.HasCalls T Q) : YieldsCalls T Q (starTargets g) :=
  calls_tupleOr (calls_starTarget hg)

theorem calls_comprehensionClauses (hg : g.HasCalls T Q) :
    Yields T (fun clauses => CallsHave Q (clausesCalls clauses)) (comprehensionClauses g) := by
  have hclauses : Yields T (fun clauses => ∀ clause ∈ clauses, CallsHave Q (Comprehension.calls clause))
      (comprehensionClauses g) := by
    refine .many (.skip fun _ => .skip fun _ => (calls_starTargets hg).bind fun target htarget => ?_)
    refine .skip fun _ => (calls_disjunction hg).bind fun iterable hiterable => ?_
    refine (Yields.many (.skip fun _ => calls_disjunction hg)).bind fun conditions hconditions => ?_
    exact .pure (htarget.append (hiterable.append (.all hconditions)))
  intro tokens index clauses stop htokens heq
  rw [clausesCalls_eq]
  exact .flatMap (hclauses tokens index clauses stop htokens heq)

/-! ## Arguments and subscripts -/

/-- All calls in the arguments read so far have a property. -/
structure ArgumentState.HasCalls (Q : Call → Prop) (s : ArgumentState) : Prop where
  args : CallsHave Q (allCalls s.args)
  keywords : CallsHave Q (keywordsCalls s.keywords)

theorem calls_argument (hg : g.HasCalls T Q) {s : ArgumentState} (hs : s.HasCalls Q) :
    Yields T (ArgumentState.HasCalls Q) (argument g s) := by
  refine .skip fun pos => .skip fun kind => .skip fun kind' => ?_
  split
  · exact .ite .fail (.skip fun _ => hg.expression.bind fun _ h =>
      .pure ⟨CallsHave.append h hs.args, hs.keywords⟩)
  · exact .skip fun _ => hg.expression.bind fun _ h => .pure ⟨hs.args, CallsHave.append h hs.keywords⟩
  · exact .skip fun _ => .skip fun _ => hg.expression.bind fun _ h =>
      .pure ⟨hs.args, CallsHave.append h hs.keywords⟩
  · exact .ite ((calls_namedExpression hg).bind fun _ h =>
      .pure ⟨CallsHave.append h hs.args, hs.keywords⟩) .fail

theorem calls_moreArguments (hg : g.HasCalls T Q) {s : ArgumentState} (hs : s.HasCalls Q) :
    Yields T (ArgumentState.HasCalls Q) (moreArguments g s) := by
  refine Yields.bind (P := ArgumentState.HasCalls Q) (.repeatStep (fun s hs => ?_) hs)
    fun s hs => .skip fun _ => .pure hs
  refine .skip fun _ => .ite (.skip fun _ => .ite ?_ .none_of) .none_of
  exact .some_of (calls_argument hg hs)

/-- The calls inside the arguments of a call. -/
theorem calls_arguments (hg : g.HasCalls T Q) {generators : Bool} {pos : Position} :
    Yields T (fun found => CallsHave Q (allCalls found.1) ∧ CallsHave Q (keywordsCalls found.2))
      (arguments g generators pos) := by
  refine .skip fun _ => .ite (.pure ⟨.nil, .nil⟩) ?_
  refine (calls_argument hg ⟨.nil, .nil⟩).bind fun s hs => .skip fun kind => ?_
  split
  · rename_i element _ hargs
    refine .ite .fail ((calls_comprehensionClauses hg).bind fun clauses hclauses => ?_)
    refine .skip fun _ => .pure ⟨.append ?_ .nil, .nil⟩
    have helement := hs.args
    rw [hargs, allCalls, allCalls, List.append_nil] at helement
    exact helement.append hclauses
  · refine (calls_moreArguments hg hs).bind fun s' hs' => .pure ⟨?_, ?_⟩
    · have hargs := hs'.args
      rw [allCalls_eq] at hargs ⊢
      intro call hmem
      exact hargs call (by simpa using hmem)
    · have hkeywords := hs'.keywords
      rw [keywordsCalls_eq] at hkeywords ⊢
      intro call hmem
      exact hkeywords call (by simpa using hmem)

theorem calls_sliceBound (hg : g.HasCalls T Q) :
    Yields T (fun bound => CallsHave Q (optionCalls bound)) (sliceBound g) :=
  .skip fun _ => .ite (hg.expression.bind fun _ h => .pure h) (.pure .nil)

theorem calls_sliceTail (hg : g.HasCalls T Q) {pos : Position} {lower : Option Expr}
    (hlower : CallsHave Q (optionCalls lower)) : YieldsCalls T Q (sliceTail g pos lower) := by
  refine .skip fun _ => (calls_sliceBound hg).bind fun upper hupper => .skip fun _ => .ite ?_ ?_
  · exact (calls_sliceBound hg).bind fun step hstep => .pure (hlower.append (hupper.append hstep))
  · exact .pure (hlower.append (hupper.append .nil))

theorem calls_subscriptItem (hg : g.HasCalls T Q) : YieldsCalls T Q (subscriptItem g) := by
  refine .skip fun pos => .skip fun kind => .skip fun kind' => ?_
  split
  · exact .skip fun _ => hg.expression.bind fun _ h => .pure h
  · exact calls_sliceTail hg .nil
  · exact calls_namedExpression hg
  · refine hg.expression.bind fun value hvalue => .skip fun kind => ?_
    split
    · exact @calls_sliceTail T Q g hg pos (some value) hvalue
    · exact .fail
    · exact .pure hvalue

theorem calls_subscriptIndex (hg : g.HasCalls T Q) : YieldsCalls T Q (subscriptIndex g) := by
  refine .skip fun pos => (calls_subscriptItem hg).bind fun first hfirst => ?_
  refine (Yields.afterCommas (calls_subscriptItem hg)).bind fun found hrest => .pure ?_
  split
  · exact hfirst.append (.all hrest)
  · exact hfirst

/-! ## Atoms -/

theorem calls_parenthesized (hg : g.HasCalls T Q) : YieldsCalls T Q (parenthesized g) := by
  refine .skip fun pos => .skip fun _ => .skip fun kind => ?_
  split
  · exact .skip fun _ => .pure .nil
  · exact (calls_yieldExpression hg).bind fun _ h => .skip fun _ => .pure h
  · refine (calls_starNamed hg).bind fun first hfirst => .skip fun kind => .ite (.ite .fail ?_) ?_
    · exact (calls_comprehensionClauses hg).bind fun _ h => .skip fun _ => .pure (hfirst.append h)
    · refine (Yields.afterCommas (calls_starNamed hg)).bind fun found hrest => .skip fun _ => ?_
      exact .ite (.pure (hfirst.append (.all hrest))) (.ite (yields_refuse g) (.pure hfirst))

theorem calls_bracketed (hg : g.HasCalls T Q) : YieldsCalls T Q (bracketed g) := by
  refine .skip fun pos => .skip fun _ => .skip fun _ => .ite (.pure .nil) ?_
  refine (calls_starNamed hg).bind fun first hfirst => .skip fun kind => .ite (.ite .fail ?_) ?_
  · exact (calls_comprehensionClauses hg).bind fun _ h => .skip fun _ => .pure (hfirst.append h)
  · refine (Yields.afterCommas (calls_starNamed hg)).bind fun found hrest => .skip fun _ => ?_
    exact .pure (hfirst.append (.all hrest))

theorem calls_dictItem (hg : g.HasCalls T Q) :
    Yields T (fun item => CallsHave Q item.calls) (dictItem g) :=
  .skip fun _ => .ite ((calls_bitwiseOr hg).bind fun _ h => .pure h) <|
    hg.expression.bind fun _ hkey => .skip fun _ => hg.expression.bind fun _ hvalue =>
      .pure (hkey.append hvalue)

theorem calls_dictTail (hg : g.HasCalls T Q) {pos : Position} {first : DictItem}
    (hfirst : CallsHave Q first.calls) : YieldsCalls T Q (dictTail g pos first) := by
  refine (Yields.afterCommas (calls_dictItem hg)).bind fun found hrest => .skip fun _ => .pure ?_
  refine hfirst.append ?_
  rw [itemsCalls_eq]
  exact .flatMap hrest

theorem calls_dictFrom (hg : g.HasCalls T Q) {pos : Position} {key : Expr}
    (hkey : CallsHave Q key.calls) : YieldsCalls T Q (dictFrom g pos key) := by
  refine .skip fun _ => hg.expression.bind fun value hvalue => .skip fun kind => .ite ?_ ?_
  · exact (calls_comprehensionClauses hg).bind fun _ h => .skip fun _ =>
      .pure (hkey.append (hvalue.append h))
  · exact calls_dictTail hg (hkey.append hvalue)

theorem calls_setFrom (hg : g.HasCalls T Q) {pos : Position} {first : Expr}
    (hfirst : CallsHave Q first.calls) : YieldsCalls T Q (setFrom g pos first) := by
  refine .skip fun kind => .ite (.ite .fail ?_) ?_
  · exact (calls_comprehensionClauses hg).bind fun _ h => .skip fun _ => .pure (hfirst.append h)
  · refine (Yields.afterCommas (calls_starNamed hg)).bind fun found hrest => .skip fun _ => ?_
    exact .pure (hfirst.append (.all hrest))

theorem calls_braced (hg : g.HasCalls T Q) : YieldsCalls T Q (braced g) := by
  refine .skip fun pos => .skip fun _ => .skip fun kind => ?_
  split
  · exact .skip fun _ => .pure .nil
  · exact (calls_dictItem hg).bind fun _ h => calls_dictTail hg h
  · refine .skip fun isElement => (calls_starNamed hg).bind fun first hfirst => .skip fun _ => ?_
    exact .ite (calls_dictFrom hg hfirst) (calls_setFrom hg hfirst)

/-! ## Literals -/

theorem calls_parts_append {a b : List FormatPart} (ha : CallsHave Q (partsCalls a))
    (hb : CallsHave Q (partsCalls b)) : CallsHave Q (partsCalls (a ++ b)) := by
  rw [partsCalls_eq] at ha hb ⊢
  rw [List.flatMap_append]
  exact ha.append hb

theorem calls_formatParts {expression : List Char → Option Expr} {raw : Bool}
    (hexpression : ∀ source value, expression source = some value → CallsHave Q value.calls)
    {fuel depth : Nat} {characters rest : List Char} {parts : List FormatPart}
    (h : formatParts expression raw fuel depth characters = some (parts, rest)) :
    CallsHave Q (partsCalls parts) := by
  induction fuel generalizing depth characters rest parts with
  | zero => simp [formatParts] at h
  | succ fuel ih =>
    unfold formatParts at h
    generalize scanLiteral raw (depth != 0) characters = scanned at h
    obtain ⟨text, stop, rest'⟩ := scanned
    dsimp only at h
    obtain ⟨literal, -, h⟩ := Option.bind_eq_some_iff.1 h
    have hlead : CallsHave Q (partsCalls (if literal.isEmpty then [] else [.text literal])) := by
      split
      · exact .nil
      · exact .nil
    split at h
    · cases h
    · cases h
      exact hlead
    · obtain ⟨⟨others, rest''⟩, hothers, h⟩ := Option.bind_eq_some_iff.1 h
      cases h
      exact calls_parts_append hlead (ih hothers)
    · split at h
      · cases h
      · obtain ⟨⟨source, behind⟩, -, h⟩ := Option.bind_eq_some_iff.1 h
        dsimp only at h
        split at h
        · cases h
        · obtain ⟨value, hvalue, h⟩ := Option.bind_eq_some_iff.1 h
          have hfield : ∀ (echo : Option (List Char)) conversion spec others,
              CallsHave Q (specCalls spec) → CallsHave Q (partsCalls others) →
              CallsHave Q (partsCalls ((if literal.isEmpty then [] else [.text literal])
                ++ (echo.map fun text => [FormatPart.text (text.map Char.toNat)]).getD []
                ++ .field value conversion spec :: others)) := by
            intro echo conversion spec others hspec hothers
            refine calls_parts_append (calls_parts_append hlead ?_) ?_
            · cases echo
              · exact .nil
              · exact .nil
            · exact ((hexpression source value hvalue).append hspec).append hothers
          obtain ⟨⟨conversion, afterConversion⟩, -, h⟩ := Option.bind_eq_some_iff.1 h
          dsimp only at h
          split at h
          · obtain ⟨⟨spec, afterSpec⟩, hspec, h⟩ := Option.bind_eq_some_iff.1 h
            obtain ⟨result, hresult, h⟩ := Option.bind_eq_some_iff.1 h
            cases hresult
            dsimp only at h
            split at h
            · obtain ⟨⟨others, _⟩, hothers, h⟩ := Option.bind_eq_some_iff.1 h
              cases h
              exact hfield _ _ (some spec) _ (ih hspec) (ih hothers)
            · cases h
          · obtain ⟨result, hresult, h⟩ := Option.bind_eq_some_iff.1 h
            cases hresult
            dsimp only at h
            split at h
            · obtain ⟨⟨others, _⟩, hothers, h⟩ := Option.bind_eq_some_iff.1 h
              cases h
              exact hfield _ _ none _ .nil (ih hothers)
            · cases h
    · cases h
      exact hlead

theorem calls_joinTexts (parts : List FormatPart) :
    partsCalls (joinTexts parts) = partsCalls parts := by
  fun_induction joinTexts parts with
  | case1 => rfl
  | case2 a rest b rest' hjoin ih =>
    rw [hjoin] at ih
    exact ih
  | case3 a rest hne ih => exact ih
  | case4 part rest hne ih => rw [partsCalls, partsCalls, ih]

theorem calls_literalParts {expression : List Char → Option Expr}
    (hexpression : ∀ source value, expression source = some value → CallsHave Q value.calls)
    {literal : TextLiteral} {parts : List FormatPart}
    (h : literalParts expression literal = some parts) : CallsHave Q (partsCalls parts) := by
  unfold literalParts at h
  split at h
  · split at h
    · rename_i hparts
      cases h
      exact calls_formatParts hexpression hparts
    · cases h
  · obtain ⟨text, -, rfl⟩ := Option.map_eq_some_iff.1 h
    split
    · exact .nil
    · exact .nil

theorem calls_literalExpr {expression : List Char → Option Expr}
    (hexpression : ∀ source value, expression source = some value → CallsHave Q value.calls)
    {pos : Position} {literals : List TextLiteral} {value : Expr}
    (h : literalExpr expression pos literals = some value) : CallsHave Q value.calls := by
  unfold literalExpr at h
  split at h
  · split at h
    · obtain ⟨bytes, -, h⟩ := Option.bind_eq_some_iff.1 h
      cases h
      exact .nil
    · cases h
  · split at h
    · obtain ⟨parts, hparts, h⟩ := Option.bind_eq_some_iff.1 h
      cases h
      have hcalls := forall_of_mapM_eq_some hparts fun literal parts hparts =>
        calls_literalParts hexpression hparts
      rw [Expr.calls, calls_joinTexts, partsCalls_eq]
      refine .flatMap fun part hpart => ?_
      obtain ⟨parts, hmem, hpart⟩ := List.mem_flatten.1 hpart
      specialize hcalls parts hmem
      rw [partsCalls_eq] at hcalls
      exact fun call hcall => hcalls call (List.mem_flatMap.2 ⟨part, hpart, hcall⟩)
    · obtain ⟨texts, -, h⟩ := Option.bind_eq_some_iff.1 h
      cases h
      exact .nil

theorem calls_literals (hg : g.HasCalls T Q) : YieldsCalls T Q (literals g) := by
  refine .skip fun pos => .skip fun found => ?_
  split
  · rename_i value hvalue
    exact .pure (calls_literalExpr hg.field hvalue)
  · exact .fail

/-! ## Primaries -/

theorem calls_atom (hg : g.HasCalls T Q) : YieldsCalls T Q (atom g) := by
  have hconstant : ∀ (pos : Position) (value : Constant), YieldsCalls T Q (do
      advance
      return .constant pos value) := fun pos value => .skip fun _ => .pure .nil
  refine .skip fun pos => .skip fun kind => ?_
  dsimp only
  split
  · exact .skip fun _ => .pure .nil
  · exact hconstant _ _
  · exact hconstant _ _
  · exact hconstant _ _
  · exact hconstant _ _
  · exact calls_literals hg
  · exact hconstant _ _
  · exact calls_parenthesized hg
  · exact calls_bracketed hg
  · exact calls_braced hg
  · exact .fail

theorem calls_primary (hg : g.HasCalls T Q) : YieldsCalls T Q (primary g) := by
  refine .skip fun pos => (calls_atom hg).bind fun first hfirst => .repeatStep (fun value hvalue => ?_)
    hfirst
  refine .skip fun inner => .skip fun kind => ?_
  split
  · refine .skip fun _ => .skip fun attr => .pure ?_
    rintro _ ⟨⟩
    exact hvalue
  · -- The new call has the property, and so have the calls in its arguments.
    refine .skip fun _ => ?_
    have hfound : Yields T (fun found => Q ⟨found.1, found.2⟩ ∧ CallsHave Q (allCalls found.1)
        ∧ CallsHave Q (keywordsCalls found.2)) (arguments g true inner) :=
      fun tokens index found stop htokens heq =>
        ⟨hg.arguments true inner tokens index found stop htokens heq,
          calls_arguments hg tokens index found stop htokens heq⟩
    refine hfound.bind fun found hfound => .pure ?_
    rintro _ ⟨⟩
    exact .cons hfound.1 (hvalue.append (hfound.2.1.append hfound.2.2))
  · refine .skip fun _ => (calls_subscriptIndex hg).bind fun index hindex => .skip fun _ => .pure ?_
    rintro _ ⟨⟩
    exact hvalue.append hindex
  · exact .none_of

theorem calls_power (hg : g.HasCalls T Q) : YieldsCalls T Q (power g) := by
  have hend : ∀ (pos : Position) (base : Expr), CallsHave Q base.calls → YieldsCalls T Q (do
      if ← accept doubleStarToken then return .binary pos .pow base (← g.factor)
      else return base) :=
    fun pos base hbase => .skip fun _ => .ite (hg.factor.bind fun _ h => .pure (hbase.append h))
      (.pure hbase)
  exact .skip fun pos => .skip fun _ => .ite
    ((calls_primary hg).bind fun base hbase => hend pos (.await pos base) hbase)
    ((calls_primary hg).bind fun base hbase => hend pos base hbase)

theorem calls_factor (hg : g.HasCalls T Q) : YieldsCalls T Q (factor g) := by
  have hsigned : ∀ (pos : Position) (op : UnaryOp), YieldsCalls T Q (do
      advance
      return .unary pos op (← g.factor)) :=
    fun pos op => .skip fun _ => hg.factor.bind fun _ h => .pure h
  refine .skip fun pos => .skip fun kind => ?_
  dsimp only
  split
  · exact hsigned _ _
  · exact hsigned _ _
  · exact hsigned _ _
  · exact calls_power hg

/-! ## Whole expressions -/

theorem calls_lambdaExpression (hg : g.HasCalls T Q) : YieldsCalls T Q (lambdaExpression g) :=
  .skip fun _ => .skip fun _ => (calls_parameters hg).bind fun _ hparams => .skip fun _ =>
    hg.expression.bind fun _ hbody => .pure (hparams.append hbody)

theorem calls_expression (hg : g.HasCalls T Q) : YieldsCalls T Q (expression g) := by
  refine .skip fun pos => .skip fun _ => .ite .failMisformed (.skip fun _ => ?_)
  refine .ite (calls_lambdaExpression hg) ?_
  refine (calls_disjunction hg).bind fun body hbody => .skip fun _ => .ite ?_ (.pure hbody)
  refine (calls_disjunction hg).bind fun test htest => .skip fun _ => ?_
  exact hg.expression.bind fun orelse horelse => .pure (hbody.append (htest.append horelse))

theorem calls_fieldExpression (hg : g.HasCalls T Q) (hT : ∀ text, T (tokens text)) {source : List Char}
    {value : Expr} (h : fieldExpression tokens g source = some value) : CallsHave Q value.calls := by
  unfold fieldExpression at h
  split at h
  · rename_i stop heq
    cases h
    exact calls_starExpressions hg _ _ _ _ (hT _) heq
  · cases h

end Grammar

/-- All calls that a grammar gives have the property of the argument lists that are read with grammars of
all depths. -/
theorem hasCalls_grammar (suspicious : Bool) (hT : ∀ text, T (tokens text))
    (harguments : ∀ fuel generators pos, Yields T (fun found => Q ⟨found.1, found.2⟩)
      (arguments (grammar suspicious fuel) generators pos)) (fuel : Nat) :
    (grammar suspicious fuel).HasCalls T Q := by
  induction fuel with
  | zero =>
    refine ⟨.fail, .fail, .fail, .fail, ?_, harguments 0⟩
    intro source value h
    cases h
  | succ fuel ih =>
    refine ⟨calls_expression ih, calls_inversion ih, calls_factor ih, calls_primary ih, ?_,
      harguments (fuel + 1)⟩
    exact fun source value h => calls_fieldExpression ih hT h

end PropertyWrapper.Source
