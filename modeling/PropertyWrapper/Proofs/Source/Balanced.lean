import PropertyWrapper.Proofs.Source.Expressions
import PropertyWrapper.Proofs.Source.Levels

/-!
# Expressions leave open brackets as they are

What a reader of expressions takes closes the brackets that it opens, and names in front of single signs of
equality stand inside of brackets or belong to the parameters of a lambda. There is one lemma for each
reader, in the order of the grammar.

* `Grammar.IsBalanced` : the recursive readers of a grammar leave open brackets as they are;
* `arguments_eq_ok` : the names by which a call passes arguments are those of its bracket;
* `isBalanced_grammar` : the grammar leaves open brackets as they are.
-/

namespace PropertyWrapper.Source

open Reader

/-- A reader leaves any open brackets as they are. -/
abbrev Balances {α : Type} (reader : Reader α) : Prop := Keeps Anywhere [] reader

/-- The readers through which the grammar is recursive leave open brackets as they are. -/
structure Grammar.IsBalanced (g : Grammar) : Prop where
  expression : Balances g.expression
  inversion : Balances g.inversion
  factor : Balances g.factor
  primary : Balances g.primary

section Grammar

variable {g : Grammar} {G : Levels → Prop} {f : Levels → Levels} {known : List TokenKind}

theorem Moves.refuse {α : Type} : Moves G f known (g.refuse : Reader α) := by
  unfold Grammar.refuse
  split
  · exact .failMisformed
  · exact .fail

/-! ## Operators -/

theorem balances_leftAssociative {operators : List BinaryOp} {operand : Reader Expr}
    (h : Balances operand) : Balances (leftAssociative operators operand) := by
  refine .here fun pos => h.bind fun first => .repeatStep fun left => .peek fun kind => ?_
  split
  · split
    · exact .advance (fun _ _ => ⟨_, rfl, rfl⟩) (h.bind fun _ => .pure)
    · exact .pure
  · exact .pure

theorem balances_bitwiseOr (hg : g.IsBalanced) : Balances (bitwiseOr g) :=
  balances_leftAssociative <| balances_leftAssociative <| balances_leftAssociative <|
    balances_leftAssociative <| balances_leftAssociative <| balances_leftAssociative hg.factor

/-- The tokens of a comparison operator are no brackets. -/
theorem inert_of_compareOp {tokens : Array Token} {index stop : Nat} {found : Option (CompareOp × Nat)}
    (h : compareOp tokens index = .ok (found, stop)) :
    stop = index ∧ ∀ op count, found = some (op, count) →
      Inert Anywhere (tokenAt tokens index).kind
        ∧ (count = 1 ∨ count = 2 ∧ Inert Anywhere (tokenAt tokens (index + 1)).kind) := by
  obtain ⟨kind, middle, hpeek, hahead⟩ := Reads.bind_eq_ok h
  obtain ⟨kind', middle', hahead, hmatch⟩ := Reads.bind_eq_ok hahead
  obtain ⟨rfl, hkind⟩ : middle = index ∧ (tokenAt tokens index).kind = kind := by
    cases hpeek
    exact ⟨rfl, rfl⟩
  obtain ⟨rfl, hkind'⟩ : middle' = middle ∧ (tokenAt tokens (middle + 1)).kind = kind' := by
    cases hahead
    exact ⟨rfl, rfl⟩
  rw [hkind, hkind']
  split at hmatch <;> cases hmatch <;> refine ⟨rfl, fun op count hfound => ?_⟩ <;> cases hfound <;>
    simp [Inert, Scan.step, TokenKind.isForeign, TokenKind.isInline]

theorem Moves.compareOp {β : Type} {next : Option (CompareOp × Nat) → Reader β}
    (hnone : Moves Anywhere f [] (next none))
    (hone : ∀ op (kind : TokenKind), Inert Anywhere kind → Moves Anywhere f [kind] (next (some (op, 1))))
    (htwo : ∀ op (kind kind' : TokenKind), Inert Anywhere kind → Inert Anywhere kind' →
      Moves Anywhere f [kind, kind'] (next (some (op, 2)))) :
    Moves Anywhere f [] (Source.compareOp >>= next) := by
  intro tokens index b stop _ heq
  obtain ⟨found, middle, hop, heq⟩ := Reads.bind_eq_ok heq
  obtain ⟨rfl, hinert⟩ := inert_of_compareOp hop
  match found with
  | none => exact hnone tokens middle b stop trivial heq
  | some (op, count) =>
    obtain ⟨hfirst, rfl | ⟨rfl, hsecond⟩⟩ := hinert op count rfl
    · exact hone op _ hfirst tokens middle b stop ⟨rfl, trivial⟩ heq
    · exact htwo op _ _ hfirst hsecond tokens middle b stop ⟨rfl, rfl, trivial⟩ heq

theorem balances_comparison (hg : g.IsBalanced) : Balances (comparison g) := by
  refine .here fun pos => (balances_bitwiseOr hg).bind fun left => ?_
  refine Moves.bind (.repeatStep fun steps => ?_) fun steps => .pure
  have hoperand : ∀ op, Balances (bitwiseOr g >>= fun operand =>
      pure (some (CompareStep.mk op operand :: steps))) :=
    fun op => (balances_bitwiseOr hg).bind fun operand => .pure
  refine .compareOp .pure (fun op kind hkind => ?_) fun op kind kind' hkind hkind' => ?_
  · exact .advance hkind (hoperand op)
  · exact .advance hkind (.advance hkind' (hoperand op))

theorem balances_inversion (hg : g.IsBalanced) : Balances (inversion g) :=
  .here fun _ => .accept (fun _ _ => ⟨_, rfl, rfl⟩) (hg.inversion.bind fun _ => .pure) (balances_comparison hg)

theorem balances_booleanChain {op : BoolOp} {word : Reserved} {operand : Reader Expr}
    (hword : Inert Anywhere (.reserved word)) (h : Balances operand) :
    Balances (booleanChain op word operand) := by
  refine .here fun pos => (Moves.separatedBy hword h).bind fun operands => ?_
  split
  · exact .pure
  · exact .pure

theorem balances_disjunction (hg : g.IsBalanced) : Balances (disjunction g) :=
  balances_booleanChain (fun _ _ => ⟨_, rfl, rfl⟩)
    (balances_booleanChain (fun _ _ => ⟨_, rfl, rfl⟩) (balances_inversion hg))

/-! ## Lists of expressions -/

theorem balances_namedExpression (hg : g.IsBalanced) : Balances (namedExpression g) := by
  refine .here fun pos => .peek fun kind => .ahead fun kind' => ?_
  split
  · exact .advance (fun _ _ => ⟨_, rfl, rfl⟩) (.advance (fun _ _ => ⟨_, rfl, rfl⟩) (hg.expression.bind fun _ => .pure))
  · exact .advance (fun _ _ => ⟨_, rfl, rfl⟩) .refuse
  · refine hg.expression.of_nil.bind fun value => .at? fun b => ?_
    split
    · exact .fail
    · exact .pure

theorem balances_starredOr (hg : g.IsBalanced) {plain : Reader Expr} (h : Balances plain) :
    Balances (starredOr g plain) :=
  .here fun _ => .accept (fun _ _ => ⟨_, rfl, rfl⟩) ((balances_bitwiseOr hg).bind fun _ => .pure) h

theorem keeps_tupleOr {starts : TokenKind → Bool} {item : Reader Expr} (h : Keeps G [] item) :
    Keeps G [] (tupleOr starts item) :=
  .here fun _ => h.bind fun _ => (Moves.afterCommas h).bind fun _ => .pure

theorem balances_starExpressions (hg : g.IsBalanced) : Balances (starExpressions g) :=
  keeps_tupleOr (balances_starredOr hg hg.expression)

theorem balances_starNamed (hg : g.IsBalanced) : Balances (starNamed g) :=
  balances_starredOr hg (balances_namedExpression hg)

theorem balances_yieldExpression (hg : g.IsBalanced) : Balances (yieldExpression g) := by
  refine .here fun pos => .expect (fun _ _ => ⟨_, rfl, rfl⟩) (.accept (fun _ _ => ⟨_, rfl, rfl⟩) ?_ (.peek fun kind => ?_))
  · exact hg.expression.bind fun _ => .pure
  · split
    · exact (balances_starExpressions hg).of_nil.bind fun _ => .pure
    · exact .pure

/-! ## Parameters -/

theorem keeps_parameterItem (hg : g.IsBalanced) {s : ParameterState} :
    Keeps InLambda [] (parameterItem g false s) := by
  refine .peek fun kind => ?_
  split
  · split
    · exact .fail
    · exact .advance (fun _ _ => ⟨_, rfl, rfl⟩) .pure
  · split
    · exact .fail
    · refine .advance (fun _ _ => ⟨_, rfl, rfl⟩) (.at? fun b => ?_)
      split
      · exact .pure
      · exact Moves.name.bind fun _ => Moves.pure.bind fun _ => .pure
  · split
    · exact .fail
    · exact .advance (fun _ _ => ⟨_, rfl, rfl⟩) (Moves.name.bind fun _ => Moves.pure.bind fun _ => .pure)
  · refine (Moves.of_nil Moves.name).bind fun name => Moves.pure.bind fun hint => ?_
    have hend : ∀ default : Option Expr, Keeps InLambda []
        (if s.hasStar then
          pure { s with keywordOnly := s.keywordOnly ++ [Parameter.mk name hint default], pending := false }
        else if s.hasDefault && default.isNone then fail
        else
          pure { s with
            regular := s.regular ++ [Parameter.mk name hint default]
            hasDefault := s.hasDefault || default.isSome }) := by
      intro default
      split
      · exact .pure
      · split
        · exact .fail
        · exact .pure
    refine .accept inert_assign ?_ (hend none)
    exact hg.expression.of_anywhere.bind fun value => hend (some value)

theorem keeps_parameters (hg : g.IsBalanced) {closing : TokenKind} :
    Keeps InLambda [] (parameters g false closing) := by
  refine Moves.bind (.repeatStep fun s => .at? fun b => ?_) fun s => ?_
  · split
    · exact .pure
    · split
      · exact .fail
      · refine (keeps_parameterItem hg).bind fun s' => .accept (fun _ _ => ⟨_, rfl, rfl⟩) .pure (.at? fun b => ?_)
        split
        · exact .pure
        · exact .fail
  · split
    · exact .fail
    · exact .pure

/-! ## Comprehensions -/

theorem balances_starTarget (hg : g.IsBalanced) : Balances (starTarget g) := by
  have hend : ∀ value : Expr, Balances (if value.isTarget true then pure value else fail) := by
    intro value
    split
    · exact .pure
    · exact .fail
  exact .here fun pos => .accept (fun _ _ => ⟨_, rfl, rfl⟩) (hg.primary.bind fun value => hend (.starred pos value))
    (hg.primary.bind fun value => hend value)

theorem balances_starTargets (hg : g.IsBalanced) : Balances (starTargets g) :=
  keeps_tupleOr (balances_starTarget hg)

theorem balances_comprehensionClauses (hg : g.IsBalanced) : Balances (comprehensionClauses g) := by
  refine .many fun kind _ => .of_nil ?_
  have hclause : ∀ isAsync, Balances (do
      expect (.reserved .kwFor)
      let target ← starTargets g
      expect (.reserved .kwIn)
      let iterable ← disjunction g
      let conditions ← many (· = .reserved .kwIf) (do advance; disjunction g)
      return Comprehension.mk isAsync target iterable conditions) := by
    refine fun isAsync => .expect (fun _ _ => ⟨_, rfl, rfl⟩) ((balances_starTargets hg).bind fun target => ?_)
    refine .expect (fun _ _ => ⟨_, rfl, rfl⟩) ((balances_disjunction hg).bind fun iterable => ?_)
    refine (Moves.many fun kind hkind => ?_).bind fun conditions => .pure
    obtain rfl : kind = .reserved .kwIf := by simpa using hkind
    exact .advance (fun _ _ => ⟨_, rfl, rfl⟩) (balances_disjunction hg)
  exact .accept (fun _ _ => ⟨_, rfl, rfl⟩) (hclause true) (hclause false)

/-! ## Arguments -/

/-- The names by which the arguments read so far are passed. -/
def ArgumentState.labels (s : ArgumentState) : List String := s.keywords.reverse.filterMap Keyword.name

/-- The innermost bracket is open, and names were passed in it. -/
def Passed (labels : List String) (levels : Levels) : Prop := ∃ level outer, levels = ⟨{ labels }, level :: outer⟩

/-- The levels where other names were passed in the innermost bracket. -/
def Levels.passing (labels : List String) (levels : Levels) : Levels := ⟨{ labels }, levels.outer⟩

/-- Tokens in the innermost bracket by which arguments are passed to further names. -/
def Passes (tokens : Array Token) (index stop : Nat) (labels labels' : List String) : Prop :=
  ∃ kinds, Spans tokens index stop kinds ∧ ∀ s : Scan, Passed labels s.levels →
    ∃ s', scan kinds s = some s' ∧ s'.levels = s.levels.passing labels'

namespace Passes

variable {tokens : Array Token} {index middle stop : Nat} {labels labels' labels'' : List String}

theorem refl (tokens : Array Token) (index : Nat) (labels : List String) :
    Passes tokens index index labels labels := by
  refine ⟨[], .nil _ _, fun s hs => ⟨s, rfl, ?_⟩⟩
  obtain ⟨level, outer, hlevels⟩ := hs
  rw [hlevels]
  rfl

theorem trans (h : Passes tokens index middle labels labels') (h' : Passes tokens middle stop labels' labels'') :
    Passes tokens index stop labels labels'' := by
  obtain ⟨kinds, hspans, hscan⟩ := h
  obtain ⟨kinds', hspans', hscan'⟩ := h'
  refine ⟨kinds ++ kinds', hspans.append hspans', fun s hs => ?_⟩
  obtain ⟨s', hs', hlevels⟩ := hscan s hs
  obtain ⟨level, outer, heq⟩ := hs
  obtain ⟨s'', hs'', hlevels'⟩ := hscan' s' ⟨level, outer, by rw [hlevels, heq]; rfl⟩
  refine ⟨s'', by rw [scan_append, hs', Option.bind_some, hs''], ?_⟩
  rw [hlevels', hlevels]
  rfl

/-- What leaves the open brackets as they are passes no name. -/
theorem of_keeps {α : Type} {reader : Reader α} {a : α} (hreader : Balances reader)
    (h : reader tokens index = .ok (a, stop)) : Passes tokens index stop labels labels := by
  obtain ⟨kinds, hspans, hscan⟩ := hreader tokens index a stop trivial h
  refine ⟨kinds, hspans, fun s hs => ?_⟩
  obtain ⟨s', hs', hlevels⟩ := hscan s trivial
  obtain ⟨level, outer, heq⟩ := hs
  exact ⟨s', hs', by rw [hlevels, heq]; rfl⟩

theorem inert {kind : TokenKind} (hkind : Inert Anywhere kind) (hindex : (tokenAt tokens index).kind = kind) :
    Passes tokens index (index + 1) labels labels := by
  refine ⟨[kind], .cons hindex (.nil _ _), fun s hs => ?_⟩
  obtain ⟨s', hs', hlevels⟩ := hkind s trivial
  obtain ⟨level, outer, heq⟩ := hs
  exact ⟨s', by rw [scan_cons, hs']; rfl, by rw [hlevels, heq]; rfl⟩

/-- A name in front of a sign of equality. -/
theorem label {id : String} (hname : (tokenAt tokens index).kind = .name id)
    (hassign : (tokenAt tokens (index + 1)).kind = .symbol .assign) :
    Passes tokens index (index + 2) labels (labels ++ [id]) := by
  refine ⟨[.name id, .symbol .assign], .cons hname (.cons hassign (.nil _ _)), ?_⟩
  rintro s ⟨level, outer, heq⟩
  refine ⟨{ levels := s.levels.modify (Level.pass (some id)) }, ?_, ?_⟩
  · rw [scan_cons, Scan.step, Option.bind_some, scan_cons, Scan.step, heq]
    rfl
  · rw [heq]
    rfl

end Passes

/-- One more keyword comes behind those read so far. -/
theorem ArgumentState.labels_keyword (s : ArgumentState) (keyword : Keyword) (unpacked : Bool) :
    ({ s with keywords := keyword :: s.keywords, unpacked } : ArgumentState).labels
      = s.labels ++ keyword.name.toList := by
  rw [ArgumentState.labels, List.reverse_cons, List.filterMap_append, ArgumentState.labels]
  cases hname : keyword.name with
  | none => simp [hname]
  | some label => simp [hname]

/-- One argument adds the name by which it is passed to those of the innermost bracket. -/
theorem argument_passes (hg : g.IsBalanced) {s s' : ArgumentState} {tokens : Array Token} {index stop : Nat}
    (h : argument g s tokens index = .ok (s', stop)) :
    Passes tokens index stop s.labels s'.labels ∧ (s'.args = s.args ∨ s'.keywords = s.keywords) := by
  obtain ⟨pos, middle, hpos, hrest⟩ := Reads.bind_eq_ok h
  cases hpos
  obtain ⟨kind, middle, hpeek, hrest⟩ := Reads.bind_eq_ok hrest
  cases hpeek
  obtain ⟨kind', middle, hahead, hshape⟩ := Reads.bind_eq_ok hrest
  cases hahead
  clear h hrest
  generalize hkind : (tokenAt tokens (index + 0)).kind = kind at hshape
  generalize hkind' : (tokenAt tokens (index + 1)).kind = kind' at hshape
  rw [Nat.add_zero] at hkind
  split at hshape
  · split at hshape
    · cases hshape
    · obtain ⟨_, middle, hadvance, h⟩ := Reads.bind_eq_ok hshape
      cases hadvance
      obtain ⟨value, last, hread, h⟩ := Reads.bind_eq_ok h
      cases h
      have hstar : Inert Anywhere (.symbol (.op .mul)) := fun _ _ => ⟨_, rfl, rfl⟩
      exact ⟨(Passes.inert hstar hkind).trans (.of_keeps hg.expression hread), .inr rfl⟩
  · obtain ⟨_, middle, hadvance, h⟩ := Reads.bind_eq_ok hshape
    cases hadvance
    obtain ⟨value, last, hread, h⟩ := Reads.bind_eq_ok h
    cases h
    have hstars : Inert Anywhere (.symbol (.op .pow)) := fun _ _ => ⟨_, rfl, rfl⟩
    have hlabels := s.labels_keyword (.mk (tokenAt tokens index).pos none value) true
    refine ⟨?_, .inl rfl⟩
    rw [hlabels, Keyword.name, Option.toList_none, List.append_nil]
    exact (Passes.inert hstars hkind).trans (.of_keeps hg.expression hread)
  · rename_i id
    obtain ⟨_, middle, hadvance, h⟩ := Reads.bind_eq_ok hshape
    cases hadvance
    obtain ⟨_, middle, hadvance, h⟩ := Reads.bind_eq_ok h
    cases hadvance
    obtain ⟨value, last, hread, h⟩ := Reads.bind_eq_ok h
    cases h
    have hlabels := s.labels_keyword (.mk (tokenAt tokens index).pos (some id) value) s.unpacked
    refine ⟨?_, .inl rfl⟩
    rw [hlabels, Keyword.name, Option.toList_some]
    exact (Passes.label hkind hkind').trans (.of_keeps hg.expression hread)
  · split at hshape
    · obtain ⟨value, last, hread, h⟩ := Reads.bind_eq_ok hshape
      cases h
      exact ⟨.of_keeps (balances_namedExpression hg) hread, .inr rfl⟩
    · cases hshape

/-- The names by which a call passes its arguments are those of its bracket. -/
theorem arguments_eq_ok (hg : g.IsBalanced) {generators : Bool} {pos : Position}
    {tokens : Array Token} {index stop : Nat} {found : List Expr × List Keyword}
    (h : arguments g generators pos tokens index = .ok (found, stop)) :
    ∃ last, stop = last + 1 ∧ (tokenAt tokens last).kind = .symbol .rparen
      ∧ Passes tokens index last [] (found.2.filterMap Keyword.name) := by
  obtain ⟨closed, middle, hclosed, hrest⟩ := Reads.bind_eq_ok h
  clear h
  rcases accept_eq_ok hclosed with ⟨rfl, rfl, hkind⟩ | ⟨rfl, hmiddle⟩
  · cases hrest
    exact ⟨index, rfl, hkind, .refl _ _ _⟩
  subst hmiddle
  obtain ⟨s, middle', hread, h⟩ := Reads.bind_eq_ok hrest
  clear hrest
  obtain ⟨hs, hadded⟩ := argument_passes hg hread
  obtain ⟨kind, middle'', hpeek, h⟩ := Reads.bind_eq_ok h
  cases hpeek
  generalize (generators && (tokenAt tokens (middle' + 0)).kind.startsClause) = isGenerator at h
  generalize hargs : s.args = args at h
  split at h
  · split at h
    · cases h
    · obtain ⟨clauses, last, hclauses, h⟩ := Reads.bind_eq_ok h
      obtain ⟨_, last', hlast, h⟩ := Reads.bind_eq_ok h
      obtain ⟨hkind, rfl⟩ := Reads.expect_eq_ok hlast
      cases h
      refine ⟨last, rfl, hkind, ?_⟩
      -- The only argument is not passed by a name.
      have hkeywords : s.keywords = [] := by
        rcases hadded with h | h
        · rw [hargs] at h
          cases h
        · exact h
      have hpasses := hs.trans (.of_keeps (balances_comprehensionClauses hg) hclauses)
      simpa [ArgumentState.labels, hkeywords] using hpasses
  · obtain ⟨s', last, hmore, h⟩ := Reads.bind_eq_ok h
    cases h
    obtain ⟨s'', last', hrun, h⟩ := Reads.bind_eq_ok hmore
    obtain ⟨_, _, hlast, h⟩ := Reads.bind_eq_ok h
    obtain ⟨hkind, rfl⟩ := Reads.expect_eq_ok hlast
    cases h
    refine ⟨last', rfl, hkind, ?_⟩
    have hcomma : Inert Anywhere (.symbol .comma) := fun _ _ => ⟨_, rfl, rfl⟩
    refine repeatStep_keeps (I := fun stop s => Passes tokens middle stop [] s.labels)
      (fun index s next stop hs hstep => ?_) hs hrun
    obtain ⟨found, behind, hfound, h⟩ := Reads.bind_eq_ok hstep
    clear hstep
    rcases accept_eq_ok hfound with ⟨rfl, rfl, hkind⟩ | ⟨rfl, rfl⟩
    · have hbehind := hs.trans (.inert hcomma hkind)
      obtain ⟨kind, behind, hpeek, h⟩ := Reads.bind_eq_ok h
      cases hpeek
      split at h
      · obtain ⟨s', last, hread, h⟩ := Reads.bind_eq_ok h
        cases h
        exact hbehind.trans (argument_passes hg hread).1
      · cases h
        exact hbehind
    · cases h
      exact hs

theorem moves_arguments (hg : g.IsBalanced) {generators : Bool} {pos : Position} :
    Moves Opened Levels.pop [] (arguments g generators pos) := by
  intro tokens index found stop _ heq
  obtain ⟨last, rfl, hkind, kinds, hspans, hscan⟩ := arguments_eq_ok hg heq
  refine ⟨kinds ++ [.symbol .rparen], hspans.append (.cons hkind (.nil _ _)), ?_⟩
  rintro s ⟨level, outer, heq⟩
  obtain ⟨s', hs', hlevels⟩ := hscan s ⟨level, outer, heq⟩
  refine ⟨{ levels := s'.levels.pop }, ?_, ?_⟩
  · rw [scan_append, hs', Option.bind_some, scan_cons, Scan.step, hlevels, heq]
    rfl
  · rw [hlevels, heq]
    rfl

/-! ## Subscripts -/

theorem balances_sliceBound (hg : g.IsBalanced) : Balances (sliceBound g) := by
  refine .peek fun kind => ?_
  split
  · exact hg.expression.of_nil.bind fun _ => .pure
  · exact .pure

theorem keeps_sliceTail (hg : g.IsBalanced) {pos : Position} {lower : Option Expr} :
    Keeps Opened [] (sliceTail g pos lower) := by
  refine .expect inert_colon ((balances_sliceBound hg).of_anywhere.bind fun upper => ?_)
  refine .accept inert_colon ?_ .pure
  exact (balances_sliceBound hg).of_anywhere.bind fun step => .pure

theorem keeps_subscriptItem (hg : g.IsBalanced) : Keeps Opened [] (subscriptItem g) := by
  refine .here fun pos => .peek fun kind => .ahead fun kind' => ?_
  split
  · exact .advance (fun _ _ => ⟨_, rfl, rfl⟩) (hg.expression.of_anywhere.of_nil.bind fun _ => .pure)
  · exact (keeps_sliceTail hg).of_nil
  · exact (balances_namedExpression hg).of_anywhere.of_nil
  · refine hg.expression.of_anywhere.of_nil.bind fun value => .peek fun kind => ?_
    split
    · exact (keeps_sliceTail hg).of_nil
    · exact .fail
    · exact .pure

theorem keeps_subscriptIndex (hg : g.IsBalanced) : Keeps Opened [] (subscriptIndex g) :=
  .here fun _ => (keeps_subscriptItem hg).bind fun _ =>
    (Moves.afterCommas (keeps_subscriptItem hg)).bind fun _ => .pure

/-! ## Atoms -/

/-- The end of a bracket that was opened before. -/
theorem moves_expect_closing {α : Type} {kind : TokenKind} (hkind : kind.closes = true) (a : α) :
    Moves Opened Levels.pop known (do expect kind; return a) :=
  .of_nil (.expect_closing hkind .pure)

theorem keeps_parenthesized (hg : g.IsBalanced) :
    Keeps Anywhere [.symbol .lparen] (parenthesized g) := by
  refine .here fun pos => .opening rfl (.peek fun kind => ?_)
  split
  · exact .closing rfl .pure
  · exact (balances_yieldExpression hg).of_anywhere.of_nil.bind fun value => moves_expect_closing rfl _
  · refine (balances_starNamed hg).of_anywhere.of_nil.bind fun first => .peek fun kind => .of_nil ?_
    split
    · split
      · exact .fail
      · exact (balances_comprehensionClauses hg).of_anywhere.bind fun clauses => moves_expect_closing rfl _
    · refine (Moves.afterCommas (balances_starNamed hg)).of_anywhere.bind fun rest => ?_
      refine .expect_closing rfl ?_
      split
      · exact .pure
      · split
        · exact .refuse
        · exact .pure

theorem keeps_bracketed (hg : g.IsBalanced) : Keeps Anywhere [.symbol .lbracket] (bracketed g) := by
  refine .here fun pos => .opening rfl (.accept_closing rfl .pure ?_)
  refine (balances_starNamed hg).of_anywhere.bind fun first => .peek fun kind => .of_nil ?_
  split
  · split
    · exact .fail
    · exact (balances_comprehensionClauses hg).of_anywhere.bind fun clauses => moves_expect_closing rfl _
  · exact (Moves.afterCommas (balances_starNamed hg)).of_anywhere.bind fun rest =>
      moves_expect_closing rfl _

theorem keeps_dictItem (hg : g.IsBalanced) : Keeps Opened [] (dictItem g) :=
  .accept (fun _ _ => ⟨_, rfl, rfl⟩) ((balances_bitwiseOr hg).of_anywhere.bind fun _ => .pure) <|
    hg.expression.of_anywhere.bind fun _ => .expect inert_colon <|
      hg.expression.of_anywhere.bind fun _ => .pure

theorem moves_dictTail (hg : g.IsBalanced) {pos : Position} {first : DictItem} :
    Moves Opened Levels.pop [] (dictTail g pos first) :=
  (Moves.afterCommas (keeps_dictItem hg)).bind fun _ => moves_expect_closing rfl _

theorem moves_dictFrom (hg : g.IsBalanced) {pos : Position} {key : Expr} :
    Moves Opened Levels.pop [] (dictFrom g pos key) := by
  refine .expect inert_colon (hg.expression.of_anywhere.bind fun value => .peek fun kind => .of_nil ?_)
  split
  · exact (balances_comprehensionClauses hg).of_anywhere.bind fun clauses => moves_expect_closing rfl _
  · exact moves_dictTail hg

theorem moves_setFrom (hg : g.IsBalanced) {pos : Position} {first : Expr} :
    Moves Opened Levels.pop [] (setFrom g pos first) := by
  refine .peek fun kind => .of_nil ?_
  split
  · split
    · exact .fail
    · exact (balances_comprehensionClauses hg).of_anywhere.bind fun clauses => moves_expect_closing rfl _
  · exact (Moves.afterCommas (balances_starNamed hg)).of_anywhere.bind fun rest =>
      moves_expect_closing rfl _

theorem keeps_braced (hg : g.IsBalanced) : Keeps Anywhere [.symbol .lbrace] (braced g) := by
  refine .here fun pos => .opening rfl (.peek fun kind => ?_)
  split
  · exact .closing rfl .pure
  · exact (keeps_dictItem hg).of_nil.bind fun first => moves_dictTail hg
  · refine .look startsElement_looks fun isElement => .of_nil ?_
    refine (balances_starNamed hg).of_anywhere.bind fun first => .at? fun b => ?_
    split
    · exact moves_dictFrom hg
    · exact moves_setFrom hg

theorem balances_literals : Balances (literals g) := by
  refine .here fun pos => Moves.bind (.repeatStep fun found => .peek fun kind => ?_) fun found => ?_
  · split
    · exact .advance (fun _ _ => ⟨_, rfl, rfl⟩) .pure
    · exact .pure
  · split
    · exact .pure
    · exact .fail

/-! ## Primaries -/

theorem balances_atom (hg : g.IsBalanced) : Balances (atom g) := by
  refine .here fun pos => .peek fun kind => ?_
  have hconstant : ∀ (kind : TokenKind) (value : Constant), Inert Anywhere kind →
      Keeps Anywhere [kind] (do advance; return Expr.constant pos value) :=
    fun kind value hkind => .advance hkind .pure
  dsimp only
  split
  · exact .advance (fun _ _ => ⟨_, rfl, rfl⟩) .pure
  · exact hconstant _ _ fun _ _ => ⟨_, rfl, rfl⟩
  · exact hconstant _ _ fun _ _ => ⟨_, rfl, rfl⟩
  · exact hconstant _ _ fun _ _ => ⟨_, rfl, rfl⟩
  · exact hconstant _ _ fun _ _ => ⟨_, rfl, rfl⟩
  · exact balances_literals.of_nil
  · exact hconstant _ _ fun _ _ => ⟨_, rfl, rfl⟩
  · exact keeps_parenthesized hg
  · exact keeps_bracketed hg
  · exact keeps_braced hg
  · exact .fail

theorem balances_primary (hg : g.IsBalanced) : Balances (primary g) := by
  refine .here fun pos => (balances_atom hg).bind fun first => .repeatStep fun value => ?_
  refine .here fun inner => .peek fun kind => ?_
  split
  · exact .advance (fun _ _ => ⟨_, rfl, rfl⟩) (Moves.name.bind fun attr => .pure)
  · exact .opening rfl ((moves_arguments hg).bind_keeps fun found => .pure)
  · exact .opening rfl ((keeps_subscriptIndex hg).bind fun index => moves_expect_closing rfl _)
  · exact .pure

theorem balances_power (hg : g.IsBalanced) : Balances (power g) := by
  have hend : ∀ (pos : Position) (base : Expr), Balances (do
      if ← accept doubleStarToken then return .binary pos .pow base (← g.factor)
      else return base) :=
    fun pos base => .accept (fun _ _ => ⟨_, rfl, rfl⟩) (hg.factor.bind fun _ => .pure) .pure
  exact .here fun pos => .accept (fun _ _ => ⟨_, rfl, rfl⟩)
    ((balances_primary hg).bind fun base => hend pos (.await pos base))
    ((balances_primary hg).bind fun base => hend pos base)

theorem balances_factor (hg : g.IsBalanced) : Balances (factor g) := by
  refine .here fun pos => .peek fun kind => ?_
  have hsigned : ∀ (kind : TokenKind) (op : UnaryOp), Inert Anywhere kind →
      Keeps Anywhere [kind] (do advance; return Expr.unary pos op (← g.factor)) :=
    fun kind op hkind => .advance hkind (hg.factor.bind fun _ => .pure)
  dsimp only
  split
  · exact hsigned _ _ fun _ _ => ⟨_, rfl, rfl⟩
  · exact hsigned _ _ fun _ _ => ⟨_, rfl, rfl⟩
  · exact hsigned _ _ fun _ _ => ⟨_, rfl, rfl⟩
  · exact (balances_power hg).of_nil

/-! ## Whole expressions -/

/-- The parameters of a lambda stand between its word and its colon. -/
theorem balances_lambdaExpression (hg : g.IsBalanced) : Balances (lambdaExpression g) := by
  have hcolon : ∀ params pos, Moves InLambda (Levels.modify Level.leave) [] (do
      expect (.symbol .colon)
      return Expr.lambda pos params (← g.expression)) := by
    refine fun params pos => .expect_step (fun s hs => ?_) (hg.expression.bind fun body => .pure)
    refine ⟨{ levels := s.levels.modify Level.leave }, ?_, trivial, rfl⟩
    have hmark : s.levels.mayMark = true := by
      rw [Levels.mayMark, decide_eq_true (show 0 < s.levels.inner.lambdas from hs), Bool.true_or]
    rw [Scan.step, if_pos hmark]
  refine .here fun pos => .expect_step (fun s _ => ⟨_, rfl, inLambda_enter s.levels, ?_⟩) <|
    (keeps_parameters hg).bind fun params => hcolon params pos
  exact modify_leave_enter s.levels

theorem balances_expression (hg : g.IsBalanced) : Balances (expression g) := by
  refine .here fun pos => .look startsStatementLike_looks fun b => ?_
  split
  · exact .failMisformed
  · refine .at? fun b => ?_
    split
    · exact balances_lambdaExpression hg
    · refine (balances_disjunction hg).bind fun body => .accept (fun _ _ => ⟨_, rfl, rfl⟩) ?_ .pure
      refine (balances_disjunction hg).bind fun test => .expect (fun _ _ => ⟨_, rfl, rfl⟩) ?_
      exact hg.expression.bind fun orelse => .pure

end Grammar

/-- The grammar leaves open brackets as they are, at any depth. -/
theorem isBalanced_grammar (suspicious : Bool) (fuel : Nat) : (grammar suspicious fuel).IsBalanced := by
  induction fuel with
  | zero => exact ⟨.fail, .fail, .fail, .fail⟩
  | succ fuel ih =>
    exact ⟨balances_expression ih, balances_inversion ih, balances_factor ih, balances_primary ih⟩

end PropertyWrapper.Source
