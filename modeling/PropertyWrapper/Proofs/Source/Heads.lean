import PropertyWrapper.Proofs.Source.Expressions

/-!
# Where expressions start

An expression has the place of one of the tokens that it is read from. Mostly this is its first token;
an expression in parentheses has the place that it has without them. Apart from unpacked ones, no
expression starts with a star, nor does its text.

* `Places A known P reader` : where the tokens `known` stand, the expression that `reader` gives has a
  place in `A` or that of a token it takes, and has the property `P`;
* `Expr.leads` : whether the leftmost operand of an expression starts with something else than a star;
* `heads_grammar` : the expressions of the grammar have the place of a token and start without a star.
-/

namespace PropertyWrapper.Source

open Reader

/-! ## Leftmost operands -/

mutual

/-- Whether an expression starts with a word, a literal, a sign or a bracket. -/
def Expr.leads : Expr → Bool
  | .name _ id => isWord id
  | .starred .. => false
  | .slice .. => false
  | .attribute _ value _ => value.leads
  | .subscript _ value _ => value.leads
  | .call _ func _ _ => func.leads
  | .binary _ _ left _ => left.leads
  | .boolean _ _ operands => firstLeads operands
  | .compare _ left _ => left.leads
  | .conditional _ body _ _ => body.leads
  | _ => true

/-- Whether the first of some expressions starts with something else than a star. -/
def firstLeads : List Expr → Bool
  | [] => false
  | first :: _ => first.leads

end

/-! ## Places -/

/-- A sequence of three steps. -/
theorem Reader.bind_bind {α β γ : Type} (first : Reader α) (second : α → Reader β)
    (third : β → Reader γ) : (first >>= second) >>= third = first >>= fun a => second a >>= third := by
  funext tokens index
  change Reader.andThen (Reader.andThen first second) third tokens index
    = Reader.andThen first (fun a => Reader.andThen (second a) third) tokens index
  unfold Reader.andThen
  cases first tokens index with
  | ok result => rfl
  | error failure => rfl

/-- Whether a place is that of one of the tokens from one index up to another one. -/
def StartsIn (tokens : Array Token) (start stop : Nat) (pos : Position) : Prop :=
  ∃ index, start ≤ index ∧ index < stop ∧ (tokenAt tokens index).pos = pos

theorem StartsIn.widen {tokens : Array Token} {start stop start' stop' : Nat} {pos : Position}
    (h : StartsIn tokens start stop pos) (hstart : start' ≤ start) (hstop : stop ≤ stop') :
    StartsIn tokens start' stop' pos := by
  obtain ⟨index, hindex, hindex', hpos⟩ := h
  exact ⟨index, by omega, by omega, hpos⟩

/-- An expression that goes on from another one has a place in `A` or that of the other one, and has the
property `P`. -/
def GoesOn (A : Position → Prop) (P : Expr → Prop) (e e' : Expr) : Prop :=
  (A e'.pos ∨ e'.pos = e.pos) ∧ P e'

/-- Where tokens of the kinds `known` stand, a reader gives expressions with the property `P`, which have
a place in `A` or that of a token that the reader takes. -/
def Places (A : Position → Prop) (known : List TokenKind) (P : Expr → Prop) (reader : Reader Expr) :
    Prop :=
  ∀ tokens index e stop, WordTokens tokens → StandsAt tokens index known →
    reader tokens index = .ok (e, stop) → (A e.pos ∨ StartsIn tokens index stop e.pos) ∧ P e

namespace Places

variable {α : Type} {A : Position → Prop} {known : List TokenKind} {P P' : Expr → Prop}

theorem of_yields {reader : Reader Expr} (h : Yields WordTokens (fun e => A e.pos ∧ P e) reader) :
    Places A known P reader := by
  intro tokens index e stop hwords _ heq
  obtain ⟨hpos, he⟩ := h tokens index e stop hwords heq
  exact ⟨.inl hpos, he⟩

theorem of_nil {reader : Reader Expr} (h : Places A [] P reader) : Places A known P reader :=
  fun tokens index e stop hwords _ heq => h tokens index e stop hwords trivial heq

/-- Where the place is that of a token, it need not be in `A`. -/
theorem anywhere {reader : Reader Expr} (h : Places (fun _ => False) known P reader) :
    Places A known P reader := by
  intro tokens index e stop hwords hknown heq
  obtain ⟨hpos, he⟩ := h tokens index e stop hwords hknown heq
  exact ⟨.inr (hpos.resolve_left id), he⟩

theorem mono {reader : Reader Expr} (h : Places A known P' reader) (hP : ∀ e, P' e → P e) :
    Places A known P reader := by
  intro tokens index e stop hwords hknown heq
  obtain ⟨hpos, he⟩ := h tokens index e stop hwords hknown heq
  exact ⟨hpos, hP e he⟩

theorem fail : Places A known P Reader.fail := of_yields .fail

/-- The place where a reader starts is that of a token that it takes. -/
theorem here {next : Position → Reader Expr} {R : Expr → Prop}
    (hreads : Reads known 1 R (Reader.here >>= next))
    (hnext : ∀ pos, Places (fun p => A p ∨ p = pos) known P (next pos)) :
    Places A known P (Reader.here >>= next) := by
  intro tokens index e stop hwords hknown heq
  have hindex : index + 1 ≤ stop := (hreads tokens index e stop hwords hknown heq).1
  obtain ⟨pos, middle, hrun, heq⟩ := Reads.bind_eq_ok heq
  cases hrun
  obtain ⟨hpos, he⟩ := hnext _ tokens index e stop hwords hknown heq
  refine ⟨?_, he⟩
  rcases hpos with (hpos | hpos) | hpos
  · exact .inl hpos
  · exact .inr ⟨index, Nat.le_refl _, hindex, hpos.symm⟩
  · exact .inr hpos

/-- An expression that goes on from a first one, of which it may take the place. -/
theorem bind {first : Reader Expr} {next : Expr → Reader Expr} (hfirst : Places A known P' first)
    (hnext : ∀ e, P' e → Reads [] 0 (GoesOn A P e) (next e)) :
    Places A known P (first >>= next) := by
  intro tokens index e' stop hwords hknown heq
  obtain ⟨e, middle, hrun, heq⟩ := Reads.bind_eq_ok heq
  obtain ⟨hpos, he⟩ := hfirst tokens index e middle hwords hknown hrun
  obtain ⟨hmiddle, -, hpos', he'⟩ := hnext e he tokens middle e' stop hwords trivial heq
  refine ⟨?_, he'⟩
  rcases hpos' with hpos' | hpos'
  · exact .inl hpos'
  · rw [hpos']
    exact hpos.imp_right fun h => h.widen (Nat.le_refl _) (by omega)

theorem look {first : Reader α} {next : α → Reader Expr}
    (hfirst : ∀ tokens index, ∃ a, first tokens index = .ok (a, index))
    (hnext : ∀ a, Places A known P (next a)) : Places A known P (first >>= next) := by
  intro tokens index e stop hwords hknown heq
  obtain ⟨a, middle, hrun, heq⟩ := Reads.bind_eq_ok heq
  obtain ⟨a', hrun'⟩ := hfirst tokens index
  rw [hrun'] at hrun
  cases hrun
  exact hnext _ tokens _ e stop hwords hknown heq

theorem peek {next : TokenKind → Reader Expr}
    (hnext : ∀ kind : TokenKind, kind.IsWordy → Places A [kind] P (next kind)) :
    Places A [] P (Reader.peek >>= next) := by
  intro tokens index e stop hwords _ heq
  have hwordy : (tokenAt tokens index).kind.IsWordy := fun id hid => hwords index id hid
  exact hnext _ hwordy tokens index e stop hwords ⟨rfl, trivial⟩ heq

/-- Behind a token the rest takes what stands there. -/
theorem advance {next : Unit → Reader Expr} (hnext : Places A [] P (next ())) :
    Places A known P (Reader.advance >>= next) := by
  intro tokens index e stop hwords _ heq
  obtain ⟨hpos, he⟩ := hnext tokens (index + 1) e stop hwords trivial heq
  exact ⟨hpos.imp_right fun h => h.widen (Nat.le_succ _) (Nat.le_refl _), he⟩

theorem accept {kind : TokenKind} {next : Bool → Reader Expr} (htrue : Places A [] P (next true))
    (hfalse : Places A [] P (next false)) : Places A [] P (Reader.accept kind >>= next) := by
  intro tokens index e stop hwords _ heq
  obtain ⟨found, middle, hrun, heq⟩ := Reads.bind_eq_ok heq
  obtain ⟨kind', middle', hpeek, hrun⟩ := Reads.bind_eq_ok hrun
  cases hpeek
  split at hrun
  · cases hrun
    obtain ⟨hpos, he⟩ := htrue tokens (index + 1) e stop hwords trivial heq
    exact ⟨hpos.imp_right fun h => h.widen (Nat.le_succ _) (Nat.le_refl _), he⟩
  · cases hrun
    exact hfalse tokens _ e stop hwords trivial heq

end Places

/-- A reader of expressions that have the place of a token and do not start with a star. -/
abbrev PlacesExpr (reader : Reader Expr) : Prop :=
  Places (fun _ => False) [] (fun e => e.leads = true) reader

/-- The readers through which the grammar is recursive give sound expressions that have the place of a
token and do not start with a star. -/
structure Grammar.Heads (g : Grammar) : Prop where
  sound : g.IsSound
  expression : PlacesExpr g.expression
  inversion : PlacesExpr g.inversion
  factor : PlacesExpr g.factor
  primary : PlacesExpr g.primary

/-! ## Operators -/

section Operators

variable {operand : Reader Expr} (hreads : ReadsExpr operand) (h : PlacesExpr operand)

include hreads h

theorem heads_leftAssociative {operators : List BinaryOp} :
    PlacesExpr (leftAssociative operators operand) := by
  refine .here (reads_leftAssociative hreads) fun pos => ?_
  refine Places.bind h.anywhere fun first hfirst => ?_
  refine .repeatStep (fun left hleft => .peek fun kind _ => ?_) ⟨.inr rfl, hfirst⟩
  split
  · split
    · refine .advance rfl (hreads.bind fun right _ => .pure ?_)
      rintro _ ⟨⟩
      exact ⟨.inl (.inr rfl), hleft.2⟩
    · exact .none_of
  · exact .none_of

theorem heads_booleanChain {op : BoolOp} {word : Reserved} :
    PlacesExpr (booleanChain op word operand) := by
  refine .here (reads_booleanChain hreads) fun pos => ?_
  -- The first operand is read on its own.
  rw [separatedBy, Reader.bind_bind]
  refine Places.bind h.anywhere fun first hfirst => ?_
  rw [Reader.bind_bind]
  have hrest : Reads [] 0 (fun rest => ∀ e ∈ rest, e.isSound = true)
      (many (· = .reserved word) (do advance; operand)) := by
    refine .many fun kind _ hkind => ?_
    obtain rfl : kind = .reserved word := by simpa using hkind
    exact .advance rfl (hreads.weaken (by omega) fun _ h => h)
  refine hrest.bind fun rest _ => ?_
  cases rest with
  | nil =>
    change Reads _ _ _ (pure first)
    exact .pure ⟨.inr rfl, hfirst⟩
  | cons second rest =>
    change Reads _ _ _ (pure (Expr.boolean pos op (first :: second :: rest)))
    exact .pure ⟨.inl (.inr rfl), hfirst⟩

end Operators

section Grammar

variable {g : Grammar}

theorem heads_bitwiseOr (hg : g.Heads) : PlacesExpr (bitwiseOr g) := by
  have hlevel : ∀ {operand : Reader Expr} (operators : List BinaryOp),
      ReadsExpr operand ∧ PlacesExpr operand → ReadsExpr (leftAssociative operators operand)
        ∧ PlacesExpr (leftAssociative operators operand) :=
    fun operators h => ⟨reads_leftAssociative h.1, heads_leftAssociative h.1 h.2⟩
  exact (hlevel _ <| hlevel _ <| hlevel _ <| hlevel _ <| hlevel _ <| hlevel _
    ⟨hg.sound.factor, hg.factor⟩).2

theorem heads_comparison (hg : g.Heads) : PlacesExpr (comparison g) := by
  refine .here (reads_comparison hg.sound) fun pos => ?_
  refine Places.bind (heads_bitwiseOr hg).anywhere fun left hleft => ?_
  refine Reads.bind (P := fun _ => True) (.repeatStep (fun steps _ => ?_) trivial) fun steps _ => .pure ?_
  · have hoperand : ∀ op, Reads [] 0 (fun next => ∀ steps' ∈ next, True)
        (bitwiseOr g >>= fun operand => pure (some (CompareStep.mk op operand :: steps))) :=
      fun op => (reads_bitwiseOr hg.sound).bind fun operand _ => .pure (by simp)
    refine .compareOp .none_of (fun op kind hkind => ?_) fun op kind kind' hkind hkind' => ?_
    · exact .advance hkind (hoperand op)
    · exact .advance hkind (.advance hkind' (hoperand op))
  · split
    · exact ⟨.inr rfl, hleft⟩
    · exact ⟨.inl (.inr rfl), hleft⟩

theorem heads_inversion (hg : g.Heads) : PlacesExpr (inversion g) := by
  refine .here (reads_inversion hg.sound) fun pos => .accept (.of_yields ?_) ?_
  · exact .skip fun operand => .pure ⟨.inr rfl, rfl⟩
  · exact (heads_comparison hg).anywhere

theorem heads_disjunction (hg : g.Heads) : PlacesExpr (disjunction g) :=
  heads_booleanChain (reads_booleanChain (reads_inversion hg.sound))
    (heads_booleanChain (reads_inversion hg.sound) (heads_inversion hg))

/-! ## Elements -/

theorem heads_namedExpression (hg : g.Heads) : PlacesExpr (namedExpression g) := by
  refine .here (reads_namedExpression hg.sound) fun pos => .peek fun kind _ => ?_
  refine .look (fun _ _ => ⟨_, rfl⟩) fun kind' => ?_
  split
  · exact .of_yields (.skip fun _ => .skip fun _ => .skip fun value => .pure ⟨.inr rfl, rfl⟩)
  · exact .of_yields (.skip fun _ => .ite .failMisformed .fail)
  · refine .of_nil (Places.bind hg.expression.anywhere
      fun value hvalue => .at? fun found => ?_)
    split
    · exact .fail
    · exact .pure ⟨.inr rfl, hvalue⟩

/-- An element is unpacked or does not start with a star. -/
theorem heads_starNamed (hg : g.Heads) :
    Places (fun _ => False) [] (fun e => e.isStarred = true ∨ e.leads = true) (starNamed g) := by
  refine .here (reads_starNamed hg.sound) fun pos => .accept (.of_yields ?_) ?_
  · exact .skip fun value => .pure ⟨.inr rfl, .inl rfl⟩
  · exact (heads_namedExpression hg).anywhere.mono fun _ h => .inr h

theorem heads_yieldExpression (hg : g.Heads) : PlacesExpr (yieldExpression g) := by
  refine .here (reads_yieldExpression hg.sound) fun pos => .of_yields (.skip fun _ => .skip fun _ => ?_)
  refine .ite (.skip fun value => .pure ⟨.inr rfl, rfl⟩) (.skip fun kind => .ite ?_ ?_)
  · exact .skip fun value => .pure ⟨.inr rfl, rfl⟩
  · exact .pure ⟨.inr rfl, rfl⟩

/-! ## Atoms -/

/-- What stands in parentheses keeps its place, unless the parentheses make a tuple or a generator. -/
theorem heads_parenthesized (hg : g.Heads) :
    Places (fun _ => False) [.symbol .lparen] (fun e => e.leads = true) (parenthesized g) := by
  refine .here (reads_parenthesized hg.sound) fun pos => .advance (.peek fun kind _ => ?_)
  split
  · exact .of_yields (.skip fun _ => .pure ⟨.inr rfl, rfl⟩)
  · refine .of_nil (Places.bind (heads_yieldExpression hg).anywhere
      fun value hvalue => ?_)
    exact .expect rfl (.pure ⟨.inr rfl, hvalue⟩)
  · refine .of_nil (Places.bind (heads_starNamed hg).anywhere
      fun first hfirst => .peek fun kind _ => ?_)
    split
    · split
      · exact .fail
      · refine .of_nil ((reads_comprehensionClauses hg.sound).bind fun clauses _ => ?_)
        exact .expect rfl (.pure ⟨.inl (.inr rfl), rfl⟩)
    · refine .of_nil ((Reads.afterCommas (reads_starNamed hg.sound)).bind fun found _ => .expect rfl ?_)
      split
      · exact .pure ⟨.inl (.inr rfl), rfl⟩
      · split
        · exact reads_refuse g
        · rename_i hstarred
          exact .pure ⟨.inr rfl, hfirst.resolve_left hstarred⟩

theorem leads_literalExpr {expression : List Char → Option Expr} {pos : Position}
    {literals : List TextLiteral} {value : Expr} (h : literalExpr expression pos literals = some value) :
    value.pos = pos ∧ value.leads = true := by
  unfold literalExpr at h
  split at h
  · split at h
    · obtain ⟨bytes, -, h⟩ := Option.bind_eq_some_iff.1 h
      cases h
      exact ⟨rfl, rfl⟩
    · cases h
  · split at h
    · obtain ⟨parts, -, h⟩ := Option.bind_eq_some_iff.1 h
      cases h
      exact ⟨rfl, rfl⟩
    · obtain ⟨texts, -, h⟩ := Option.bind_eq_some_iff.1 h
      cases h
      exact ⟨rfl, rfl⟩

theorem heads_literals (hg : g.Heads) (literal : TextLiteral) :
    Places (fun _ => False) [.text literal] (fun e => e.leads = true) (literals g) := by
  refine .here (reads_literals hg.sound literal) fun pos => .of_yields (.skip fun found => ?_)
  split
  · rename_i value hvalue
    obtain ⟨hpos, hleads⟩ := leads_literalExpr hvalue
    exact .pure ⟨.inr hpos, hleads⟩
  · exact .fail

theorem heads_bracketed (hg : g.Heads) :
    Places (fun _ => False) [.symbol .lbracket] (fun e => e.leads = true) (bracketed g) := by
  refine .here (reads_bracketed hg.sound) fun pos => .of_yields (.skip fun _ => .skip fun _ => ?_)
  refine .ite (.pure ⟨.inr rfl, rfl⟩) (.skip fun first => .skip fun kind => .ite (.ite .fail ?_) ?_)
  · exact .skip fun clauses => .skip fun _ => .pure ⟨.inr rfl, rfl⟩
  · exact .skip fun found => .skip fun _ => .pure ⟨.inr rfl, rfl⟩

theorem heads_braced (hg : g.Heads) :
    Places (fun _ => False) [.symbol .lbrace] (fun e => e.leads = true) (braced g) := by
  refine .here (reads_braced hg.sound) fun pos => .of_yields (.skip fun _ => .skip fun kind => ?_)
  have htail : ∀ first : DictItem, Yields WordTokens
      (fun e => (False ∨ e.pos = pos) ∧ e.leads = true) (dictTail g pos first) :=
    fun first => .skip fun found => .skip fun _ => .pure ⟨.inr rfl, rfl⟩
  split
  · exact .skip fun _ => .pure ⟨.inr rfl, rfl⟩
  · exact .skip fun first => htail first
  · refine .skip fun isElement => .skip fun first => .skip fun found => .ite ?_ ?_
    · refine .skip fun _ => .skip fun value => .skip fun kind => .ite ?_ (htail _)
      exact .skip fun clauses => .skip fun _ => .pure ⟨.inr rfl, rfl⟩
    · refine .skip fun kind => .ite (.ite .fail ?_) ?_
      · exact .skip fun clauses => .skip fun _ => .pure ⟨.inr rfl, rfl⟩
      · exact .skip fun found => .skip fun _ => .pure ⟨.inr rfl, rfl⟩

theorem heads_atom (hg : g.Heads) : PlacesExpr (atom g) := by
  refine .here (reads_atom hg.sound) fun pos => .peek fun kind hkind => ?_
  have hconstant : ∀ (kind : TokenKind) (value : Constant),
      Places (fun p => False ∨ p = pos) [kind] (fun e => e.leads = true) (do
        advance
        return .constant pos value) :=
    fun kind value => .of_yields (.skip fun _ => .pure ⟨.inr rfl, rfl⟩)
  dsimp only
  split
  · rename_i id
    exact .of_yields (.skip fun _ => .pure ⟨.inr rfl, hkind id rfl⟩)
  · exact hconstant _ _
  · exact hconstant _ _
  · exact hconstant _ _
  · exact hconstant _ _
  · exact (heads_literals hg _).anywhere
  · exact hconstant _ _
  · exact (heads_parenthesized hg).anywhere
  · exact (heads_bracketed hg).anywhere
  · exact (heads_braced hg).anywhere
  · exact .fail

/-! ## Primaries -/

theorem heads_primary (hg : g.Heads) : PlacesExpr (primary g) := by
  refine .here (reads_primary hg.sound) fun pos => ?_
  refine Places.bind (heads_atom hg).anywhere fun first hfirst => ?_
  refine .repeatStep (fun value hvalue => .here fun inner => .peek fun kind _ => ?_) ⟨.inr rfl, hfirst⟩
  split
  · refine .advance rfl (Reads.name.bind fun attr _ => .pure ?_)
    rintro _ ⟨⟩
    exact ⟨.inl (.inr rfl), hvalue.2⟩
  · refine .advance rfl ((reads_arguments hg.sound).bind fun found _ => .pure ?_)
    rintro _ ⟨⟩
    exact ⟨.inl (.inr rfl), hvalue.2⟩
  · refine .advance rfl ((reads_subscriptIndex hg.sound).bind fun index _ => .expect rfl (.pure ?_))
    rintro _ ⟨⟩
    exact ⟨.inl (.inr rfl), hvalue.2⟩
  · exact .none_of

theorem heads_power (hg : g.Heads) : PlacesExpr (power g) := by
  refine .here (reads_power hg.sound) fun pos => .accept (.of_yields ?_) ?_
  · have hend : ∀ base : Expr, Yields WordTokens
        (fun e : Expr => (False ∨ e.pos = pos) ∧ e.leads = true) (do
        if ← accept doubleStarToken then return .binary pos .pow (.await pos base) (← g.factor)
        else return .await pos base) :=
      fun base => .skip fun _ => .ite (.skip fun exponent => .pure ⟨.inr rfl, rfl⟩)
        (.pure ⟨.inr rfl, rfl⟩)
    exact .skip hend
  · refine Places.bind (heads_primary hg).anywhere fun base hbase => ?_
    refine .accept rfl ?_ (.pure ⟨.inr rfl, hbase⟩)
    exact hg.sound.factor.bind fun exponent _ => .pure ⟨.inl (.inr rfl), hbase⟩

theorem heads_factor (hg : g.Heads) : PlacesExpr (factor g) := by
  refine .here (reads_factor hg.sound) fun pos => .peek fun kind _ => ?_
  have hsigned : ∀ (kind : TokenKind) (op : UnaryOp),
      Places (fun p => False ∨ p = pos) [kind] (fun e => e.leads = true) (do
        advance
        return .unary pos op (← g.factor)) :=
    fun kind op => .of_yields (.skip fun _ => .skip fun operand => .pure ⟨.inr rfl, rfl⟩)
  dsimp only
  split
  · exact hsigned _ _
  · exact hsigned _ _
  · exact hsigned _ _
  · exact .of_nil (heads_power hg).anywhere

/-! ## Whole expressions -/

theorem heads_lambdaExpression (hg : g.Heads) : PlacesExpr (lambdaExpression g) := by
  refine .here (reads_lambdaExpression hg.sound) fun pos => .of_yields ?_
  exact .skip fun _ => .skip fun params => .skip fun _ => .skip fun body => .pure ⟨.inr rfl, rfl⟩

theorem heads_expression (hg : g.Heads) : PlacesExpr (expression g) := by
  refine .here (reads_expression hg.sound) fun pos => .look startsStatementLike_looks fun found => ?_
  split
  · exact .of_yields .failMisformed
  · refine .look (fun _ _ => ⟨_, rfl⟩) fun found => ?_
    split
    · exact (heads_lambdaExpression hg).anywhere
    · refine Places.bind (heads_disjunction hg).anywhere
        fun body hbody => .accept rfl ?_ (.pure ⟨.inr rfl, hbody⟩)
      refine (reads_disjunction hg.sound).bind fun test _ => .expect rfl ?_
      exact hg.sound.expression.bind fun orelse _ => .pure ⟨.inl (.inr rfl), hbody⟩

end Grammar

/-- The grammar gives expressions that have the place of a token and do not start with a star. -/
theorem heads_grammar (suspicious : Bool) (fuel : Nat) : (grammar suspicious fuel).Heads := by
  induction fuel with
  | zero => exact ⟨isSound_grammar suspicious 0, .fail, .fail, .fail, .fail⟩
  | succ fuel ih =>
    exact ⟨isSound_grammar suspicious (fuel + 1), heads_expression ih, heads_inversion ih,
      heads_factor ih, heads_primary ih⟩

end PropertyWrapper.Source
