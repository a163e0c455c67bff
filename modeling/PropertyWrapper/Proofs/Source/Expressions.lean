import PropertyWrapper.Proofs.Source.Readers
import PropertyWrapper.Source.ExprReader

/-!
# Reading sound expressions

Each reader of the expression grammar takes at least one token, stays in its line and gives a sound
tree. There is one lemma for each reader, in the order of the grammar; the readers through which the
grammar is recursive are assumed to have the property (`Grammar.IsSound`), and `isSound_grammar` ties
the knot by induction on the fuel.

* `wordTokens_tokens` : the names that the lexer finds are words;
* `isSound_grammar` : the grammar gives sound expressions, whatever the fuel.
-/

namespace PropertyWrapper.Source

open Reader PropertyWrapper.Text

/-! ## Names among tokens -/

theorem isWord_ofList_takeWhile {c : Char} {rest : List Char} (hc : isWordCharacter c = true)
    (hdigit : c.isDigit = false) :
    isWord (String.ofList ((c :: rest).takeWhile isWordCharacter)) = true := by
  rw [isWord_iff]
  refine ⟨c, rest.takeWhile isWordCharacter, ?_, hc, hdigit, ?_⟩
  · rw [String.toList_ofList, List.takeWhile_cons_of_pos hc]
  · exact List.all_eq_true.1 List.all_takeWhile

theorem TokenKind.isWordy_of_ne {kind : TokenKind} (h : ∀ id, kind ≠ .name id) : kind.IsWordy :=
  fun id hid => absurd hid (h id)

theorem textToken_isWordy {marks rest : List Char} {mark : Char} {reading next : Reading}
    {kind : TokenKind} (h : textToken marks mark reading rest = .ok (kind, next)) :
    kind.IsWordy := by
  unfold textToken at h
  cases hscan : scanText reading.pos.line mark rest with
  | error fault => simp [hscan, bind, Except.bind] at h
  | ok result =>
    rw [hscan] at h
    cases h
    exact TokenKind.isWordy_of_ne (by simp)

theorem symbolToken_isWordy {symbol : Symbol} {length : Nat} {reading next : Reading}
    {kind : TokenKind} (h : symbolToken symbol length reading = .ok (kind, next)) :
    kind.IsWordy := by
  obtain rfl : kind = .symbol symbol := by
    unfold symbolToken at h
    cases hbrackets : reading.brackets <;> cases symbol <;> simp_all [closingOf] <;> grind
  exact TokenKind.isWordy_of_ne (by simp)

/-- A name that the lexer finds is a word. -/
theorem nextToken_isWordy {reading next : Reading} {kind : TokenKind}
    (h : nextToken reading = .ok (kind, next)) : kind.IsWordy := by
  obtain ⟨rest, pos, indents, brackets⟩ := reading
  match rest with
  | [] =>
    cases h
    exact TokenKind.isWordy_of_ne (by simp)
  | c :: tail =>
    by_cases hword : (isWordCharacter c && !c.isDigit) = true
    · rw [Bool.and_eq_true, Bool.not_eq_true'] at hword
      obtain ⟨hc, hdigit⟩ := hword
      have hrest : (⟨c :: tail, pos, indents, brackets⟩ : Reading).rest = c :: tail := rfl
      rw [nextToken_word_eq hrest hc hdigit] at h
      split at h
      · exact textToken_isWordy h
      · rcases wordToken_cases ((c :: tail).takeWhile isWordCharacter) with hw | ⟨reserved, hw⟩ | hw
        · rw [hw] at h
          cases h
          rintro id ⟨⟩
          exact isWord_ofList_takeWhile hc hdigit
        · rw [hw] at h
          cases h
          exact TokenKind.isWordy_of_ne (by simp)
        · rw [hw] at h
          cases h
    · rw [nextToken_of_not_word rfl (Bool.eq_false_iff.2 hword)] at h
      split at h
      · cases hnumber : scanNumber (c :: tail) with
        | error fault => simp [hnumber, bind, Except.bind] at h
        | ok result =>
          obtain ⟨token, count, rest⟩ := result
          obtain ⟨hnumeric, -⟩ := scanNumber_plainPrefix hnumber
          simp only [hnumber] at h
          cases h
          rintro id rfl
          cases hnumeric
      · split at h
        · exact textToken_isWordy h
        · split at h
          · cases h
            exact TokenKind.isWordy_of_ne (by simp)
          · split at h
            · exact symbolToken_isWordy h
            · split at h
              · cases h
                exact TokenKind.isWordy_of_ne (by simp)
              · cases h

theorem mem_indentTokens {indents indents' : List Indent} {indent : Indent}
    {kinds : List TokenKind} {kind : TokenKind}
    (h : indentTokens indents indent = .ok (kinds, indents')) (hmem : kind ∈ kinds) :
    kind = .indent ∨ kind = .dedent := by
  unfold indentTokens at h
  simp only at h
  split at h
  · split at h
    · cases h
      simp at hmem
    · cases h
  · split at h
    · split at h
      · cases h
      · split at h
        · cases h
        · cases h
          exact .inl (by simpa using hmem)
    · split at h
      · cases h
      · split at h
        · cases h
        · cases h
          exact .inr (List.eq_of_mem_replicate hmem)

theorem isWordy_of_mem_tokensFrom {fuel : Nat} {fresh : Bool} {reading : Reading} {token : Token}
    (h : token ∈ tokensFrom fuel fresh reading) : token.kind.IsWordy := by
  have hother : ∀ {kind : TokenKind} {pos : Position} {token : Token}, (∀ id, kind ≠ .name id) →
      token ∈ [(⟨kind, pos⟩ : Token)] → token.kind.IsWordy := by
    intro kind pos token hkind hmem
    obtain rfl := List.mem_singleton.1 hmem
    exact TokenKind.isWordy_of_ne hkind
  fun_induction tokensFrom fuel fresh reading with
  | case1 => exact hother (by simp) h
  | case2 => exact hother (by simp) h
  | case3 =>
    rename_i ih
    exact ih h
  | case4 =>
    rename_i ih
    exact ih h
  | case5 => exact hother (by simp) h
  | case6 =>
    rename_i hindents _ _ ih
    rcases List.mem_append.1 h with h | h
    · obtain ⟨kind, hkind, rfl⟩ := List.mem_map.1 h
      rcases mem_indentTokens hindents hkind with rfl | rfl
      · exact TokenKind.isWordy_of_ne (by simp)
      · exact TokenKind.isWordy_of_ne (by simp)
    · exact ih h
  | case7 => exact hother (by simp) h
  | case8 => exact hother (by simp) h
  | case9 =>
    rename_i ih
    rcases List.mem_cons.1 h with rfl | h
    · exact TokenKind.isWordy_of_ne (by simp)
    · exact ih h
  | case10 =>
    rename_i ih
    exact ih h
  | case11 =>
    rename_i ih
    exact ih h
  | case12 => exact hother (by simp) h
  | case13 =>
    rename_i ih
    exact ih h
  | case14 => exact hother (by simp) h
  | case15 =>
    rename_i ih
    exact ih h
  | case16 => exact hother (by simp) h
  | case17 =>
    rename_i htoken ih
    rcases List.mem_cons.1 h with rfl | h
    · exact nextToken_isWordy htoken
    · exact ih h

/-- All names that the lexer finds are words. -/
theorem wordTokens_tokens (text : List Char) : WordTokens (tokens text) := by
  intro index id hid
  unfold tokenAt at hid
  cases htoken : (tokens text)[index]? with
  | none =>
    rw [htoken] at hid
    cases hid
  | some token =>
    rw [htoken] at hid
    have hmem := Array.mem_of_getElem? htoken
    rw [tokens, List.mem_toArray] at hmem
    exact isWordy_of_mem_tokensFrom hmem id hid

/-! ## Operators -/

/-- A reader of expressions: it takes tokens of a line, and the expression is sound. -/
abbrev ReadsExpr (reader : Reader Expr) : Prop := Reads [] 1 (fun e => e.isSound = true) reader

/-- The readers through which the grammar is recursive read sound expressions. -/
structure Grammar.IsSound (g : Grammar) : Prop where
  expression : ReadsExpr g.expression
  inversion : ReadsExpr g.inversion
  factor : ReadsExpr g.factor
  primary : ReadsExpr g.primary
  field : ∀ source value, g.field source = some value → value.isSound = true

theorem reads_refuse {α : Type} {known : List TokenKind} {least : Nat} {P : α → Prop} (g : Grammar) :
    Reads known least P (g.refuse : Reader α) := by
  unfold Grammar.refuse
  split
  · exact .failMisformed
  · exact .fail

theorem reads_leftAssociative {operators : List BinaryOp} {operand : Reader Expr}
    (h : ReadsExpr operand) : ReadsExpr (leftAssociative operators operand) := by
  refine .here fun pos => h.bind fun first hfirst => .repeatStep (fun left hleft => ?_) hfirst
  refine .peek fun kind _ => ?_
  split
  · split
    · refine .advance rfl (h.bind fun right hright => .pure ?_)
      rintro _ ⟨⟩
      rw [Expr.isSound, Bool.and_eq_true]
      exact ⟨hleft, hright⟩
    · exact .none_of
  · exact .none_of

section Grammar

variable {g : Grammar}

theorem reads_bitwiseOr (hg : g.IsSound) : ReadsExpr (bitwiseOr g) :=
  reads_leftAssociative <| reads_leftAssociative <| reads_leftAssociative <|
    reads_leftAssociative <| reads_leftAssociative <| reads_leftAssociative hg.factor

/-- The tokens of a comparison operator stand inside a line. -/
theorem compareOp_eq_ok {tokens : Array Token} {index stop : Nat} {found : Option (CompareOp × Nat)}
    (h : compareOp tokens index = .ok (found, stop)) :
    stop = index ∧ ∀ op count, found = some (op, count) →
      (tokenAt tokens index).kind.isInline = true
        ∧ (count = 1 ∨ count = 2 ∧ (tokenAt tokens (index + 1)).kind.isInline = true) := by
  obtain ⟨kind, middle, hpeek, hahead⟩ := Reads.bind_eq_ok h
  obtain ⟨kind', middle', hahead, hmatch⟩ := Reads.bind_eq_ok hahead
  obtain ⟨rfl, hkind⟩ : middle = index ∧ (tokenAt tokens index).kind = kind := by
    cases hpeek
    exact ⟨rfl, rfl⟩
  obtain ⟨rfl, hkind'⟩ : middle' = middle ∧ (tokenAt tokens (middle + 1)).kind = kind' := by
    cases hahead
    exact ⟨rfl, rfl⟩
  rw [hkind, hkind']
  split at hmatch <;> cases hmatch <;> refine ⟨rfl, fun op count hfound => ?_⟩ <;> cases hfound <;>
    simp [TokenKind.isInline]

theorem Reads.compareOp {β : Type} {least : Nat} {Q : β → Prop}
    {next : Option (CompareOp × Nat) → Reader β} (hnone : Reads [] least Q (next none))
    (hone : ∀ op (kind : TokenKind), kind.isInline = true → Reads [kind] least Q (next (some (op, 1))))
    (htwo : ∀ op (kind kind' : TokenKind), kind.isInline = true → kind'.isInline = true →
      Reads [kind, kind'] least Q (next (some (op, 2)))) :
    Reads [] least Q (Source.compareOp >>= next) := by
  intro tokens index b stop hwords _ heq
  obtain ⟨found, middle, hop, heq⟩ := bind_eq_ok heq
  obtain ⟨rfl, hline⟩ := compareOp_eq_ok hop
  match found with
  | none => exact hnone tokens middle b stop hwords trivial heq
  | some (op, count) =>
    obtain ⟨hfirst, rfl | ⟨rfl, hsecond⟩⟩ := hline op count rfl
    · exact hone op _ hfirst tokens middle b stop hwords ⟨rfl, trivial⟩ heq
    · exact htwo op _ _ hfirst hsecond tokens middle b stop hwords ⟨rfl, rfl, trivial⟩ heq

theorem reads_comparison (hg : g.IsSound) : ReadsExpr (comparison g) := by
  refine .here fun pos => (reads_bitwiseOr hg).bind fun left hleft => ?_
  refine Reads.bind (P := fun steps => stepsSound steps = true) (.repeatStep (fun steps hsteps => ?_)
    rfl) fun steps hsteps => .pure ?_
  · have hoperand : ∀ op, Reads [] 0 (fun next => ∀ steps' ∈ next, stepsSound steps' = true)
        (bitwiseOr g >>= fun operand => pure (some (CompareStep.mk op operand :: steps))) := by
      refine fun op => (reads_bitwiseOr hg).bind fun operand hoperand => .pure ?_
      rintro _ ⟨⟩
      rw [stepsSound, CompareStep.isSound, hoperand, hsteps]
      rfl
    refine .compareOp .none_of (fun op kind hkind => ?_) fun op kind kind' hkind hkind' => ?_
    · exact .advance hkind (hoperand op)
    · exact .advance hkind (.advance hkind' (hoperand op))
  · split
    · exact hleft
    · rw [Expr.isSound, hleft, stepsSound_eq, List.all_reverse, ← stepsSound_eq, hsteps]
      rfl

theorem reads_inversion (hg : g.IsSound) : ReadsExpr (inversion g) := by
  refine .here fun pos => .accept rfl ?_ (reads_comparison hg)
  exact hg.inversion.bind fun operand hoperand => .pure hoperand

theorem reads_booleanChain {op : BoolOp} {word : Reserved} {operand : Reader Expr}
    (h : ReadsExpr operand) : ReadsExpr (booleanChain op word operand) := by
  refine .here fun pos => (Reads.separatedBy rfl h).bind fun operands hoperands => ?_
  split
  · exact .pure (hoperands _ (by simp))
  · refine .pure ?_
    rw [Expr.isSound, allSound_eq, List.all_eq_true]
    exact hoperands

theorem reads_disjunction (hg : g.IsSound) : ReadsExpr (disjunction g) :=
  reads_booleanChain (reads_booleanChain (reads_inversion hg))

/-! ## Lists of expressions -/

theorem reads_namedExpression (hg : g.IsSound) : ReadsExpr (namedExpression g) := by
  refine .here fun pos => .peek fun kind hkind => .ahead fun kind' => ?_
  split
  · rename_i id
    refine .advance rfl (.advance rfl ?_)
    refine hg.expression.bind fun value hvalue => .pure ?_
    rw [Expr.isSound, Expr.isSound, hkind id rfl, hvalue]
    rfl
  · exact .advance rfl (reads_refuse g)
  · refine (Reads.of_nil hg.expression).bind fun value hvalue => .at? fun b => ?_
    split
    · exact .fail
    · exact .pure hvalue

theorem reads_starredOr (hg : g.IsSound) {plain : Reader Expr} (h : ReadsExpr plain) :
    ReadsExpr (starredOr g plain) := by
  refine .here fun pos => .accept rfl ?_ h
  exact (reads_bitwiseOr hg).bind fun value hvalue => .pure hvalue

theorem allSound_cons {first : Expr} {rest : List Expr} (hfirst : first.isSound = true)
    (hrest : ∀ e ∈ rest, e.isSound = true) : allSound (first :: rest) = true := by
  rw [allSound, hfirst, allSound_eq, List.all_eq_true.2 hrest]
  rfl

theorem reads_tupleOr {starts : TokenKind → Bool} {item : Reader Expr} (h : ReadsExpr item) :
    ReadsExpr (tupleOr starts item) := by
  refine .here fun pos => h.bind fun first hfirst => ?_
  refine (Reads.afterCommas h).bind fun rest hrest => .pure ?_
  split
  · exact allSound_cons hfirst hrest
  · exact hfirst

theorem reads_starExpressions (hg : g.IsSound) : ReadsExpr (starExpressions g) :=
  reads_tupleOr (reads_starredOr hg hg.expression)

theorem reads_starNamed (hg : g.IsSound) : ReadsExpr (starNamed g) :=
  reads_starredOr hg (reads_namedExpression hg)

theorem reads_yieldExpression (hg : g.IsSound) : ReadsExpr (yieldExpression g) := by
  refine .here fun pos => .expect rfl (.accept rfl ?_ (.peek fun kind _ => ?_))
  · exact hg.expression.bind fun value hvalue => .pure hvalue
  · split
    · exact (Reads.of_nil (reads_starExpressions hg)).bind
        fun value hvalue => .pure hvalue
    · exact .pure rfl

theorem reads_assignedValue (hg : g.IsSound) : ReadsExpr (assignedValue g) := by
  refine .at? fun b => ?_
  split
  · exact reads_yieldExpression hg
  · exact reads_starExpressions hg

/-! ## Parameters -/

/-- The parameters read so far are sound. -/
structure ParameterState.IsSound (s : ParameterState) : Prop where
  positionalOnly : paramsSound s.positionalOnly = true
  regular : paramsSound s.regular = true
  variadic : paramSound s.variadic = true
  keywordOnly : paramsSound s.keywordOnly = true
  keywords : paramSound s.keywords = true

theorem reads_hint? {annotated : Bool} {value : Reader Expr} (h : ReadsExpr value) :
    Reads [] 0 (fun hint => optionSound hint = true) (hint? annotated value) := by
  unfold hint?
  split
  · refine .accept rfl ?_ (.pure rfl)
    exact h.bind fun hint hhint => .pure hhint
  · exact .pure rfl

theorem paramsSound_concat {params : List Parameter} {param : Parameter}
    (hparams : paramsSound params = true) (hparam : param.isSound = true) :
    paramsSound (params ++ [param]) = true := by
  rw [paramsSound_eq, List.all_append, ← paramsSound_eq, hparams, List.all_cons, hparam]
  rfl

theorem reads_parameterItem (hg : g.IsSound) {annotated : Bool} {s : ParameterState}
    (hs : s.IsSound) : Reads [] 0 ParameterState.IsSound (parameterItem g annotated s) := by
  refine .peek fun kind _ => ?_
  split
  · split
    · exact .fail
    · exact .advance rfl (.pure { hs with positionalOnly := hs.regular, regular := rfl })
  · split
    · exact .fail
    · refine .advance rfl (.at? fun b => ?_)
      split
      · exact .pure { hs with }
      · refine Reads.name.bind fun name hname => ?_
        refine (reads_hint? (reads_starredOr hg hg.expression)).bind fun hint hhint => .pure ?_
        exact { hs with variadic := by simp [paramSound, Parameter.isSound, hname, hhint, optionSound] }
  · split
    · exact .fail
    · refine .advance rfl (Reads.name.bind fun name hname => ?_)
      refine (reads_hint? hg.expression).bind fun hint hhint => .pure ?_
      exact { hs with keywords := by simp [paramSound, Parameter.isSound, hname, hhint, optionSound] }
  · refine (Reads.of_nil Reads.name).bind fun name hname => ?_
    refine (reads_hint? hg.expression).bind fun hint hhint => ?_
    have hend : ∀ default, optionSound default = true → Reads [] 0 ParameterState.IsSound
        (if s.hasStar then
          pure { s with keywordOnly := s.keywordOnly ++ [.mk name hint default], pending := false }
        else if s.hasDefault && default.isNone then fail
        else
          pure { s with
            regular := s.regular ++ [.mk name hint default]
            hasDefault := s.hasDefault || default.isSome }) := by
      intro default hdefault
      have hparam : (Parameter.mk name hint default).isSound = true := by
        simp [Parameter.isSound, hname, hhint, hdefault]
      split
      · exact .pure { hs with keywordOnly := paramsSound_concat hs.keywordOnly hparam }
      · split
        · exact .fail
        · exact .pure { hs with regular := paramsSound_concat hs.regular hparam }
    refine Reads.accept rfl ?_ (hend none rfl)
    exact hg.expression.bind fun value hvalue => hend (some value) hvalue

theorem reads_parameters (hg : g.IsSound) {annotated : Bool} {closing : TokenKind} :
    Reads [] 0 (fun params => params.isSound = true) (parameters g annotated closing) := by
  refine Reads.bind (P := ParameterState.IsSound) (.repeatStep (fun s hs => ?_)
    ⟨rfl, rfl, rfl, rfl, rfl⟩) fun s hs => ?_
  · refine .at? fun b => ?_
    split
    · exact .none_of
    · split
      · exact .fail
      · refine (reads_parameterItem hg hs).bind fun s' hs' => .accept rfl ?_ (.at? fun b => ?_)
        · exact .pure (by rintro _ ⟨⟩; exact hs')
        · split
          · exact .pure (by rintro _ ⟨⟩; exact hs')
          · exact .fail
  · split
    · exact .fail
    · refine .pure ?_
      simp [Parameters.isSound, hs.positionalOnly, hs.regular, hs.variadic, hs.keywordOnly, hs.keywords]

/-! ## Comprehensions -/

theorem reads_starTarget (hg : g.IsSound) : ReadsExpr (starTarget g) := by
  have hend : ∀ value : Expr, value.isSound = true → Reads [] 0 (fun e => e.isSound = true)
      (if value.isTarget true then pure value else fail) := by
    intro value hvalue
    split
    · exact .pure hvalue
    · exact .fail
  refine .here fun pos => .accept rfl ?_ ?_
  · exact hg.primary.bind fun value hvalue => hend (.starred pos value) hvalue
  · exact hg.primary.bind fun value hvalue => hend value hvalue

theorem reads_starTargets (hg : g.IsSound) : ReadsExpr (starTargets g) :=
  reads_tupleOr (reads_starTarget hg)

theorem reads_comprehensionClauses (hg : g.IsSound) :
    Reads [] 0 (fun clauses => clausesSound clauses = true) (comprehensionClauses g) := by
  refine (Reads.many (P := fun clause : Comprehension => clause.isSound = true)
    fun kind _ _ => .of_nil ?_).weaken (Nat.le_refl _) fun clauses hclauses => ?_
  · have hclause : ∀ isAsync, Reads [] 0 (fun clause => clause.isSound = true) (do
        expect (.reserved .kwFor)
        let target ← starTargets g
        expect (.reserved .kwIn)
        let iterable ← disjunction g
        let conditions ← many (· = .reserved .kwIf) (do advance; disjunction g)
        return Comprehension.mk isAsync target iterable conditions) := by
      refine fun isAsync => .expect rfl ((reads_starTargets hg).bind fun target htarget => ?_)
      refine .expect rfl ((reads_disjunction hg).bind fun iterable hiterable => ?_)
      refine (Reads.many (P := fun e : Expr => e.isSound = true) fun kind _ hkind => ?_).bind
        fun conditions hconditions => .pure ?_
      · obtain rfl : kind = .reserved .kwIf := by simpa using hkind
        exact .advance rfl ((reads_disjunction hg).weaken (by omega) fun _ h => h)
      · rw [Comprehension.isSound, htarget, hiterable, allSound_eq, List.all_eq_true.2 hconditions]
        rfl
    exact .accept rfl (hclause true) (hclause false)
  · rw [clausesSound_eq, List.all_eq_true]
    exact hclauses

/-! ## Arguments and subscripts -/

/-- The arguments read so far are sound. -/
structure ArgumentState.IsSound (s : ArgumentState) : Prop where
  args : allSound s.args = true
  keywords : keywordsSound s.keywords = true

theorem ArgumentState.IsSound.withArg {s : ArgumentState} (hs : s.IsSound) {e : Expr}
    (he : e.isSound = true) (unpacked : Bool) :
    ArgumentState.IsSound { args := e :: s.args, keywords := s.keywords, unpacked } :=
  ⟨by rw [allSound, he, hs.args]; rfl, hs.keywords⟩

theorem ArgumentState.IsSound.withKeyword {s : ArgumentState} (hs : s.IsSound) {keyword : Keyword}
    (hkeyword : keyword.isSound = true) (unpacked : Bool) :
    ArgumentState.IsSound { args := s.args, keywords := keyword :: s.keywords, unpacked } :=
  ⟨hs.args, by rw [keywordsSound, hkeyword, hs.keywords]; rfl⟩

theorem reads_argument (hg : g.IsSound) {s : ArgumentState} (hs : s.IsSound) :
    Reads [] 1 ArgumentState.IsSound (argument g s) := by
  refine .here fun pos => .peek fun kind hkind => .ahead fun kind' => ?_
  split
  · split
    · exact .fail
    · refine .advance rfl (.of_nil (hg.expression.bind fun value hvalue => .pure ?_))
      exact hs.withArg (show (Expr.starred pos value).isSound = true from hvalue) _
  · refine .advance rfl (.of_nil (hg.expression.bind fun value hvalue => .pure ?_))
    exact hs.withKeyword (show (Keyword.mk pos none value).isSound = true from hvalue) _
  · rename_i id
    refine .advance rfl (.advance rfl (hg.expression.bind fun value hvalue => .pure ?_))
    refine hs.withKeyword ?_ _
    rw [Keyword.isSound, hkind id rfl, hvalue]
    rfl
  · split
    · refine (Reads.of_nil (reads_namedExpression hg)).bind fun value hvalue => .pure ?_
      exact hs.withArg hvalue _
    · exact .fail

theorem reads_moreArguments (hg : g.IsSound) {s : ArgumentState} (hs : s.IsSound) :
    Reads [] 0 ArgumentState.IsSound (moreArguments g s) := by
  refine Reads.bind (P := ArgumentState.IsSound) (.repeatStep (fun s hs => ?_) hs) fun s hs => ?_
  · refine .accept rfl (.peek fun kind _ => ?_) .none_of
    split
    · refine (Reads.of_nil (reads_argument hg hs)).bind fun s' hs' => .pure ?_
      rintro _ ⟨⟩
      exact hs'
    · exact .none_of
  · exact .expect rfl (.pure hs)

/-- The arguments of a call are sound. -/
def ArgumentsSound (found : List Expr × List Keyword) : Prop :=
  allSound found.1 = true ∧ keywordsSound found.2 = true

theorem reads_arguments (hg : g.IsSound) {generators : Bool} {pos : Position} :
    Reads [] 1 ArgumentsSound (arguments g generators pos) := by
  refine .accept rfl (.pure ⟨rfl, rfl⟩) ?_
  refine (reads_argument hg ⟨rfl, rfl⟩).bind fun s hs => .peek fun kind _ => ?_
  split
  · rename_i element _ hargs
    split
    · exact .fail
    · refine .of_nil ((reads_comprehensionClauses hg).bind fun clauses hclauses => ?_)
      refine .expect rfl (.pure ⟨?_, rfl⟩)
      have helement : element.isSound = true := by
        have := hs.args
        rw [hargs, allSound, Bool.and_eq_true] at this
        exact this.1
      simp [allSound, Expr.isSound, helement, hclauses]
  · refine .of_nil ((reads_moreArguments hg hs).bind fun s' hs' => .pure ⟨?_, ?_⟩)
    · rw [allSound_eq, List.all_reverse, ← allSound_eq, hs'.args]
    · rw [keywordsSound_eq, List.all_reverse, ← keywordsSound_eq, hs'.keywords]

theorem reads_sliceBound (hg : g.IsSound) :
    Reads [] 0 (fun bound => optionSound bound = true) (sliceBound g) := by
  refine .peek fun kind _ => ?_
  split
  · exact (Reads.of_nil hg.expression).bind fun value hvalue => .pure hvalue
  · exact .pure rfl

theorem reads_sliceTail (hg : g.IsSound) {pos : Position} {lower : Option Expr}
    (hlower : optionSound lower = true) : ReadsExpr (sliceTail g pos lower) := by
  refine .expect rfl ((reads_sliceBound hg).bind fun upper hupper => .accept rfl ?_ ?_)
  · refine (reads_sliceBound hg).bind fun step hstep => .pure ?_
    rw [Expr.isSound, hlower, hupper, hstep]
    rfl
  · refine .pure ?_
    rw [Expr.isSound, hlower, hupper]
    rfl

theorem reads_subscriptItem (hg : g.IsSound) : ReadsExpr (subscriptItem g) := by
  refine .here fun pos => .peek fun kind _ => .ahead fun kind' => ?_
  split
  · exact .advance rfl (.of_nil (hg.expression.bind fun value hvalue => .pure hvalue))
  · exact .of_nil (reads_sliceTail hg rfl)
  · exact .of_nil (reads_namedExpression hg)
  · refine .of_nil (hg.expression.bind fun value hvalue => .peek fun kind _ => ?_)
    split
    · have hlower : optionSound (some value) = true := hvalue
      exact .of_nil ((reads_sliceTail hg hlower).weaken (by omega) fun _ h => h)
    · exact .fail
    · exact .pure hvalue

theorem reads_subscriptIndex (hg : g.IsSound) : ReadsExpr (subscriptIndex g) := by
  refine .here fun pos => (reads_subscriptItem hg).bind fun first hfirst => ?_
  refine (Reads.afterCommas (reads_subscriptItem hg)).bind fun rest hrest => .pure ?_
  split
  · exact allSound_cons hfirst hrest
  · exact hfirst

/-! ## Atoms -/

theorem reads_parenthesized (hg : g.IsSound) :
    Reads [.symbol .lparen] 1 (fun e => e.isSound = true) (parenthesized g) := by
  refine .here fun pos => .advance rfl (.peek fun kind _ => ?_)
  split
  · exact .advance rfl (.pure rfl)
  · refine .of_nil ((reads_yieldExpression hg).bind fun value hvalue => .expect rfl ?_)
    exact .pure hvalue
  · refine .of_nil ((reads_starNamed hg).bind fun first hfirst => .peek fun kind _ => ?_)
    split
    · split
      · exact .fail
      · refine .of_nil ((reads_comprehensionClauses hg).bind fun clauses hclauses => ?_)
        refine .expect rfl (.pure ?_)
        rw [Expr.isSound, hfirst, hclauses]
        rfl
    · refine .of_nil ((Reads.afterCommas (reads_starNamed hg)).bind fun rest hrest => ?_)
      refine .expect rfl ?_
      split
      · exact .pure (allSound_cons hfirst hrest)
      · split
        · exact reads_refuse g
        · exact .pure hfirst

theorem reads_bracketed (hg : g.IsSound) :
    Reads [.symbol .lbracket] 1 (fun e => e.isSound = true) (bracketed g) := by
  refine .here fun pos => .advance rfl (.accept rfl (.pure rfl) ?_)
  refine (reads_starNamed hg).bind fun first hfirst => .peek fun kind _ => ?_
  split
  · split
    · exact .fail
    · refine .of_nil ((reads_comprehensionClauses hg).bind fun clauses hclauses => ?_)
      refine .expect rfl (.pure ?_)
      rw [Expr.isSound, hfirst, hclauses]
      rfl
  · refine .of_nil ((Reads.afterCommas (reads_starNamed hg)).bind fun rest hrest => ?_)
    exact .expect rfl (.pure (allSound_cons hfirst hrest))

theorem reads_dictItem (hg : g.IsSound) :
    Reads [] 1 (fun item => item.isSound = true) (dictItem g) := by
  refine .accept rfl ?_ ?_
  · exact (reads_bitwiseOr hg).bind fun value hvalue => .pure hvalue
  · refine hg.expression.bind fun key hkey => .expect rfl ?_
    refine hg.expression.bind fun value hvalue => .pure ?_
    rw [DictItem.isSound, hkey, hvalue]
    rfl

theorem reads_dictTail (hg : g.IsSound) {pos : Position} {first : DictItem}
    (hfirst : first.isSound = true) : ReadsExpr (dictTail g pos first) := by
  refine (Reads.afterCommas (reads_dictItem hg)).bind fun rest hrest => .expect rfl (.pure ?_)
  rw [Expr.isSound, itemsSound, hfirst, itemsSound_eq, List.all_eq_true.2 hrest]
  rfl

theorem reads_dictFrom (hg : g.IsSound) {pos : Position} {key : Expr} (hkey : key.isSound = true) :
    ReadsExpr (dictFrom g pos key) := by
  refine .expect rfl (hg.expression.bind fun value hvalue => .peek fun kind _ => ?_)
  split
  · refine .of_nil ((reads_comprehensionClauses hg).bind fun clauses hclauses => ?_)
    refine .expect rfl (.pure ?_)
    rw [Expr.isSound, hkey, hvalue, hclauses]
    rfl
  · have hpair : (DictItem.pair key value).isSound = true := by
      rw [DictItem.isSound, hkey, hvalue]
      rfl
    exact .of_nil ((reads_dictTail hg hpair).weaken (by omega) fun _ h => h)

theorem reads_setFrom (hg : g.IsSound) {pos : Position} {first : Expr}
    (hfirst : first.isSound = true) : ReadsExpr (setFrom g pos first) := by
  refine .peek fun kind _ => ?_
  split
  · split
    · exact .fail
    · refine .of_nil ((reads_comprehensionClauses hg).bind fun clauses hclauses => ?_)
      refine .expect rfl (.pure ?_)
      rw [Expr.isSound, hfirst, hclauses]
      rfl
  · refine .of_nil ((Reads.afterCommas (reads_starNamed hg)).bind fun rest hrest => ?_)
    exact .expect rfl (.pure (allSound_cons hfirst hrest))

theorem startsElement_looks (tokens : Array Token) (index : Nat) :
    ∃ found, startsElement tokens index = .ok (found, index) := by
  simp only [startsElement, peek, ahead, bind, Reader.andThen]
  refine Reads.looks_of_eq_pure ?_ tokens index
  split
  · exact .inl rfl
  · exact .inl rfl
  · exact .inr rfl

theorem reads_braced (hg : g.IsSound) :
    Reads [.symbol .lbrace] 1 (fun e => e.isSound = true) (braced g) := by
  refine .here fun pos => .advance rfl (.peek fun kind _ => ?_)
  split
  · exact .advance rfl (.pure rfl)
  · refine .of_nil ((reads_dictItem hg).bind fun first hfirst => ?_)
    exact (reads_dictTail hg hfirst).weaken (by omega) fun _ h => h
  · refine .look startsElement_looks fun isElement => ?_
    refine .of_nil ((reads_starNamed hg).bind fun first hfirst => .at? fun b => ?_)
    split
    · exact (reads_dictFrom hg hfirst).weaken (by omega) fun _ h => h
    · exact (reads_setFrom hg hfirst).weaken (by omega) fun _ h => h

/-! ## Literals -/

theorem partsSound_append {a b : List FormatPart} (ha : partsSound a = true)
    (hb : partsSound b = true) : partsSound (a ++ b) = true := by
  rw [partsSound_eq, List.all_append, ← partsSound_eq, ← partsSound_eq, ha, hb]
  rfl

/-- The parts of a formatted literal are sound if the expressions of its fields are. -/
theorem partsSound_formatParts {expression : List Char → Option Expr} {raw : Bool}
    (hexpression : ∀ source value, expression source = some value → value.isSound = true)
    {fuel depth : Nat} {characters rest : List Char} {parts : List FormatPart}
    (h : formatParts expression raw fuel depth characters = some (parts, rest)) :
    partsSound parts = true := by
  induction fuel generalizing depth characters rest parts with
  | zero => simp [formatParts] at h
  | succ fuel ih =>
    unfold formatParts at h
    generalize scanLiteral raw (depth != 0) characters = scanned at h
    obtain ⟨text, stop, rest'⟩ := scanned
    dsimp only at h
    obtain ⟨literal, -, h⟩ := Option.bind_eq_some_iff.1 h
    have hlead : partsSound (if literal.isEmpty then [] else [FormatPart.text literal]) = true := by
      split <;> rfl
    split at h
    · cases h
    · cases h
      exact hlead
    · obtain ⟨⟨others, rest''⟩, hothers, h⟩ := Option.bind_eq_some_iff.1 h
      cases h
      exact partsSound_append hlead (ih hothers)
    · split at h
      · cases h
      · obtain ⟨⟨source, behind⟩, -, h⟩ := Option.bind_eq_some_iff.1 h
        dsimp only at h
        split at h
        · cases h
        · obtain ⟨value, hvalue, h⟩ := Option.bind_eq_some_iff.1 h
          have hfield : ∀ (echo : Option (List Char)) conversion spec others,
              specSound spec = true → partsSound others = true →
              partsSound ((if literal.isEmpty then [] else [FormatPart.text literal])
                ++ (echo.map fun text => [FormatPart.text (text.map Char.toNat)]).getD []
                ++ .field value conversion spec :: others) = true := by
            intro echo conversion spec others hspec hothers
            refine partsSound_append (partsSound_append hlead ?_) ?_
            · cases echo <;> rfl
            · rw [partsSound, FormatPart.isSound, hexpression source value hvalue, hspec, hothers]
              rfl
          obtain ⟨⟨conversion, afterConversion⟩, -, h⟩ := Option.bind_eq_some_iff.1 h
          dsimp only at h
          split at h
          · obtain ⟨⟨spec, afterSpec⟩, hspec, h⟩ := Option.bind_eq_some_iff.1 h
            obtain ⟨result, hresult, h⟩ := Option.bind_eq_some_iff.1 h
            cases hresult
            dsimp only at h
            split at h
            · obtain ⟨⟨others, _⟩, hothers, h⟩ := Option.bind_eq_some_iff.1 h
              cases h
              exact hfield _ _ (some spec) _ (ih hspec) (ih hothers)
            · cases h
          · obtain ⟨result, hresult, h⟩ := Option.bind_eq_some_iff.1 h
            cases hresult
            dsimp only at h
            split at h
            · obtain ⟨⟨others, _⟩, hothers, h⟩ := Option.bind_eq_some_iff.1 h
              cases h
              exact hfield _ _ none _ rfl (ih hothers)
            · cases h
    · cases h
      exact hlead

/-- Joined texts stand apart. -/
theorem textsApart_joinTexts (parts : List FormatPart) : textsApart (joinTexts parts) = true := by
  fun_induction joinTexts parts with
  | case1 => rfl
  | case2 a rest b rest' hjoin ih =>
    rw [hjoin] at ih
    cases rest' with
    | nil => rfl
    | cons part rest' =>
      cases part with
      | text c => cases ih
      | field => exact ih
  | case3 a rest hne ih =>
    generalize joinTexts rest = joined at hne ih
    cases joined with
    | nil => rfl
    | cons part joined =>
      cases part with
      | text b => exact absurd rfl (hne b joined)
      | field => exact ih
  | case4 part rest hne ih =>
    cases part with
    | text a => exact absurd rfl (hne a)
    | field => exact ih

theorem partsSound_joinTexts {parts : List FormatPart} (h : partsSound parts = true) :
    partsSound (joinTexts parts) = true := by
  fun_induction joinTexts parts with
  | case1 => rfl
  | case2 a rest b rest' hjoin ih =>
    rw [hjoin] at ih
    exact ih h
  | case3 a rest hne ih => exact ih h
  | case4 part rest hne ih =>
    rw [partsSound, Bool.and_eq_true] at h ⊢
    exact ⟨h.1, ih h.2⟩

theorem partsSound_literalParts {expression : List Char → Option Expr}
    (hexpression : ∀ source value, expression source = some value → value.isSound = true)
    {literal : TextLiteral} {parts : List FormatPart}
    (h : literalParts expression literal = some parts) : partsSound parts = true := by
  unfold literalParts at h
  split at h
  · split at h
    · rename_i hparts
      cases h
      exact partsSound_formatParts hexpression hparts
    · cases h
  · obtain ⟨text, -, rfl⟩ := Option.map_eq_some_iff.1 h
    split <;> rfl

theorem partsSound_flatten {found : List (List FormatPart)}
    (h : ∀ parts ∈ found, partsSound parts = true) : partsSound found.flatten = true := by
  induction found with
  | nil => rfl
  | cons parts found ih =>
    rw [List.flatten_cons]
    exact partsSound_append (h parts (by simp)) (ih fun parts hparts => h parts (by simp [hparts]))

theorem forall_of_mapM_eq_some {α β : Type} {step : α → Option β} {items : List α}
    {values : List β} {P : β → Prop} (h : items.mapM step = some values)
    (hstep : ∀ item value, step item = some value → P value) : ∀ value ∈ values, P value := by
  induction items generalizing values with
  | nil =>
    rw [List.mapM_nil] at h
    cases h
    simp
  | cons item items ih =>
    rw [List.mapM_cons] at h
    obtain ⟨first, hfirst, h⟩ := Option.bind_eq_some_iff.1 h
    obtain ⟨others, hothers, h⟩ := Option.bind_eq_some_iff.1 h
    cases h
    intro value hvalue
    rcases List.mem_cons.1 hvalue with rfl | hvalue
    · exact hstep item _ hfirst
    · exact ih hothers value hvalue

/-- The value of adjacent literals is sound. -/
theorem isSound_literalExpr {expression : List Char → Option Expr}
    (hexpression : ∀ source value, expression source = some value → value.isSound = true)
    {pos : Position} {literals : List TextLiteral} {value : Expr}
    (h : literalExpr expression pos literals = some value) : value.isSound = true := by
  unfold literalExpr at h
  split at h
  · split at h
    · obtain ⟨bytes, -, h⟩ := Option.bind_eq_some_iff.1 h
      cases h
      rfl
    · cases h
  · split at h
    · obtain ⟨parts, hparts, h⟩ := Option.bind_eq_some_iff.1 h
      cases h
      have hsound := forall_of_mapM_eq_some hparts fun literal parts hparts =>
        partsSound_literalParts hexpression hparts
      rw [Expr.isSound, textsApart_joinTexts, partsSound_joinTexts (partsSound_flatten hsound)]
      rfl
    · obtain ⟨texts, -, h⟩ := Option.bind_eq_some_iff.1 h
      cases h
      rfl

theorem reads_literals (hg : g.IsSound) (literal : TextLiteral) :
    Reads [.text literal] 1 (fun e => e.isSound = true) (literals g) := by
  refine .here fun pos => ?_
  refine Reads.bind (P := fun _ => True) (.repeatStep_first (by simp) (fun found _ => ?_) ?_)
    fun found _ => ?_
  · refine .peek fun kind _ => ?_
    split
    · exact .advance rfl (.pure (by simp))
    · exact .none_of
  · exact .peek_known (.advance rfl (.pure ⟨_, rfl, trivial⟩))
  · split
    · rename_i value hvalue
      exact .pure (isSound_literalExpr hg.field hvalue)
    · exact .fail

/-! ## Primaries -/

theorem reads_atom (hg : g.IsSound) : ReadsExpr (atom g) := by
  refine .here fun pos => .peek fun kind hkind => ?_
  have hconstant : ∀ (kind : TokenKind) (value : Constant), kind.isInline = true →
      Reads [kind] 1 (fun e => e.isSound = true) (do advance; return Expr.constant pos value) :=
    fun kind value hkind => .advance hkind (.pure rfl)
  dsimp only
  split
  · rename_i id
    exact .advance rfl (.pure (hkind id rfl))
  · exact hconstant _ _ rfl
  · exact hconstant _ _ rfl
  · exact hconstant _ _ rfl
  · exact hconstant _ _ rfl
  · exact reads_literals hg _
  · exact hconstant _ _ rfl
  · exact reads_parenthesized hg
  · exact reads_bracketed hg
  · exact reads_braced hg
  · exact .fail

theorem reads_primary (hg : g.IsSound) : ReadsExpr (primary g) := by
  refine .here fun pos => (reads_atom hg).bind fun first hfirst => .repeatStep (fun value hvalue => ?_)
    hfirst
  refine .here fun inner => .peek fun kind _ => ?_
  split
  · refine .advance rfl (Reads.name.bind fun attr hattr => .pure ?_)
    rintro _ ⟨⟩
    rw [Expr.isSound, hvalue, hattr]
    rfl
  · refine .advance rfl ((reads_arguments hg).bind fun found hfound => .pure ?_)
    rintro _ ⟨⟩
    rw [Expr.isSound, hvalue, hfound.1, hfound.2]
    rfl
  · refine .advance rfl ((reads_subscriptIndex hg).bind fun index hindex => .expect rfl (.pure ?_))
    rintro _ ⟨⟩
    rw [Expr.isSound, hvalue, hindex]
    rfl
  · exact .none_of

theorem reads_power (hg : g.IsSound) : ReadsExpr (power g) := by
  have hend : ∀ (pos : Position) (base : Expr), base.isSound = true →
      Reads [] 0 (fun e => e.isSound = true) (do
        if ← accept doubleStarToken then return .binary pos .pow base (← g.factor)
        else return base) := by
    intro pos base hbase
    refine .accept rfl ?_ (.pure hbase)
    refine hg.factor.bind fun exponent hexponent => .pure ?_
    rw [Expr.isSound, hbase, hexponent]
    rfl
  refine .here fun pos => .accept rfl ?_ ?_
  · exact (reads_primary hg).bind fun base hbase => hend pos (.await pos base) hbase
  · exact (reads_primary hg).bind fun base hbase => hend pos base hbase

theorem reads_factor (hg : g.IsSound) : ReadsExpr (factor g) := by
  refine .here fun pos => .peek fun kind _ => ?_
  have hsigned : ∀ (kind : TokenKind) (op : UnaryOp), kind.isInline = true →
      Reads [kind] 1 (fun e => e.isSound = true) (do advance; return Expr.unary pos op (← g.factor)) := by
    refine fun kind op hkind => .advance hkind (hg.factor.bind fun operand hoperand => ?_)
    exact .pure hoperand
  dsimp only
  split
  · exact hsigned _ _ rfl
  · exact hsigned _ _ rfl
  · exact hsigned _ _ rfl
  · exact .of_nil (reads_power hg)

/-! ## Whole expressions -/

theorem reads_lambdaExpression (hg : g.IsSound) : ReadsExpr (lambdaExpression g) := by
  refine .here fun pos => .expect rfl ((reads_parameters hg).bind fun params hparams => ?_)
  refine .expect rfl (hg.expression.bind fun body hbody => .pure ?_)
  rw [Expr.isSound, hparams, hbody]
  rfl

theorem startsStatementLike_looks (tokens : Array Token) (index : Nat) :
    ∃ found, startsStatementLike g tokens index = .ok (found, index) := by
  have hlooks : ∀ (condition : Bool) (reader : Reader Bool),
      (∃ found, reader tokens index = .ok (found, index)) →
      ∃ found, (if condition then reader else pure false) tokens index = .ok (found, index) := by
    intro condition reader hreader
    cases condition
    · exact ⟨false, rfl⟩
    · exact hreader
  exact hlooks _ (do
    let operands ← foresee (do advance; starExpressions g)
    return operands.isSome) ⟨_, rfl⟩

theorem reads_expression (hg : g.IsSound) : ReadsExpr (expression g) := by
  refine .here fun pos => .look startsStatementLike_looks fun b => ?_
  split
  · exact .failMisformed
  · refine .at? fun b => ?_
    split
    · exact reads_lambdaExpression hg
    · refine (reads_disjunction hg).bind fun body hbody => .accept rfl ?_ (.pure hbody)
      refine (reads_disjunction hg).bind fun test htest => .expect rfl ?_
      refine hg.expression.bind fun orelse horelse => .pure ?_
      rw [Expr.isSound, hbody, htest, horelse]
      rfl

theorem isSound_fieldExpression (hg : g.IsSound) {source : List Char} {value : Expr}
    (h : fieldExpression tokens g source = some value) : value.isSound = true := by
  unfold fieldExpression at h
  split at h
  · rename_i stop heq
    cases h
    exact (reads_starExpressions hg _ _ _ _ (wordTokens_tokens _) trivial heq).2.2
  · cases h

end Grammar

/-- The grammar reads sound expressions of any depth. -/
theorem isSound_grammar (suspicious : Bool) (fuel : Nat) : (grammar suspicious fuel).IsSound := by
  induction fuel with
  | zero =>
    refine ⟨.fail, .fail, .fail, .fail, ?_⟩
    intro source value h
    cases h
  | succ fuel ih =>
    refine ⟨reads_expression ih, reads_inversion ih, reads_factor ih, reads_primary ih, ?_⟩
    exact fun source value h => isSound_fieldExpression ih h

end PropertyWrapper.Source
