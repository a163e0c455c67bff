import PropertyWrapper.Proofs.Source.Balanced
import PropertyWrapper.Proofs.Source.Margins
import PropertyWrapper.Proofs.Source.Statements

/-!
# The outline of an expression

A text that is read as an expression consists of lines without tokens, the tokens of the expression and what
ends their last line. The tokens start like an expression and close all brackets that they open.

* `starts_expression` : the first token of an expression;
* `Outline` : the parts of a text that is read as an expression;
* `exists_outline` : every such text has them.
-/

namespace PropertyWrapper.Source

open Reader PropertyWrapper.Text

/-! ## First tokens -/

/-- Where tokens of the kinds `known` stand, a reader takes one first that can start an expression. -/
def Starts {α : Type} (known : List TokenKind) (reader : Reader α) : Prop :=
  ∀ tokens index a stop, StandsAt tokens index known → reader tokens index = .ok (a, stop) →
    (tokenAt tokens index).kind.startsExpression = true

namespace Starts

variable {α β : Type} {known : List TokenKind}

theorem of_kind {kind : TokenKind} {reader : Reader α} (h : kind.startsExpression = true) :
    Starts (kind :: known) reader := by
  intro tokens index a stop hknown _
  rw [hknown.1, h]

theorem of_nil {reader : Reader α} (h : Starts [] reader) : Starts known reader :=
  fun tokens index a stop _ heq => h tokens index a stop trivial heq

theorem fail : Starts known (Reader.fail : Reader α) := by
  intro tokens index a stop _ heq
  cases heq

theorem failMisformed : Starts known (Reader.failMisformed : Reader α) := by
  intro tokens index a stop _ heq
  cases heq

theorem bind {first : Reader α} {next : α → Reader β} (h : Starts known first) :
    Starts known (first >>= next) := by
  intro tokens index b stop hknown heq
  obtain ⟨a, middle, hrun, -⟩ := Reads.bind_eq_ok heq
  exact h tokens index a middle hknown hrun

/-- A step that only looks at tokens. -/
theorem look {first : Reader α} {next : α → Reader β}
    (hfirst : ∀ tokens index, ∃ a, first tokens index = .ok (a, index))
    (hnext : ∀ a, Starts known (next a)) : Starts known (first >>= next) := by
  intro tokens index b stop hknown heq
  obtain ⟨a, middle, hrun, heq⟩ := Reads.bind_eq_ok heq
  obtain ⟨a', hrun'⟩ := hfirst tokens index
  rw [hrun'] at hrun
  cases hrun
  exact hnext _ tokens _ b stop hknown heq

theorem here {next : Position → Reader β} (hnext : ∀ pos, Starts known (next pos)) :
    Starts known (Reader.here >>= next) :=
  look (fun _ _ => ⟨_, rfl⟩) hnext

theorem peek {next : TokenKind → Reader β} (hnext : ∀ kind : TokenKind, Starts [kind] (next kind)) :
    Starts [] (Reader.peek >>= next) := by
  intro tokens index b stop _ heq
  exact hnext _ tokens index b stop ⟨rfl, trivial⟩ heq

/-- A token that is taken if it stands here. -/
theorem accept {kind : TokenKind} {next : Bool → Reader β} (hkind : kind.startsExpression = true)
    (hfalse : Starts [] (next false)) : Starts [] (Reader.accept kind >>= next) := by
  intro tokens index b stop _ heq
  obtain ⟨found, middle, hrun, hnext⟩ := Reads.bind_eq_ok heq
  rcases accept_eq_ok hrun with ⟨-, -, hthere⟩ | ⟨rfl, rfl⟩
  · rw [hthere, hkind]
  · exact hfalse tokens _ b stop trivial hnext

/-- A token that has to stand here. -/
theorem expect {kind : TokenKind} {next : Unit → Reader β} (hkind : kind.startsExpression = true) :
    Starts [] (Reader.expect kind >>= next) := by
  intro tokens index b stop _ heq
  obtain ⟨_, middle, hrun, -⟩ := Reads.bind_eq_ok heq
  rw [(Reads.expect_eq_ok hrun).1, hkind]

end Starts

section Grammar

variable {g : Grammar}

theorem starts_atom : Starts [] (atom g) := by
  refine .here fun pos => ?_
  dsimp only
  refine .peek fun kind => ?_
  split
  all_goals first | exact .of_kind rfl | exact .fail

theorem starts_factor : Starts [] (factor g) := by
  have hprimary : Starts [] (primary g) := .here fun pos => starts_atom.bind
  have hpower : Starts [] (power g) :=
    .here fun pos => .accept rfl hprimary.bind
  refine .here fun pos => ?_
  dsimp only
  refine .peek fun kind => ?_
  split
  · exact .of_kind rfl
  · exact .of_kind rfl
  · exact .of_kind rfl
  · exact hpower.of_nil

theorem starts_leftAssociative {operators : List BinaryOp} {operand : Reader Expr}
    (h : Starts [] operand) : Starts [] (leftAssociative operators operand) :=
  .here fun _ => h.bind

theorem starts_booleanChain {op : BoolOp} {word : Reserved} {operand : Reader Expr}
    (h : Starts [] operand) : Starts [] (booleanChain op word operand) :=
  .here fun _ => Starts.bind (h.bind)

theorem starts_expression (h : Starts [] g.factor) : Starts [] (expression g) := by
  have hbitwise : Starts [] (bitwiseOr g) :=
    starts_leftAssociative <| starts_leftAssociative <| starts_leftAssociative <|
      starts_leftAssociative <| starts_leftAssociative <| starts_leftAssociative h
  have hcomparison : Starts [] (comparison g) := .here fun _ => hbitwise.bind
  have hinversion : Starts [] (inversion g) := .here fun _ => .accept rfl hcomparison
  have hdisjunction : Starts [] (disjunction g) := starts_booleanChain (starts_booleanChain hinversion)
  have hlambda : Starts [] (lambdaExpression g) := .here fun _ => .expect rfl
  refine .here fun pos => .look startsStatementLike_looks fun b => ?_
  split
  · exact .failMisformed
  · refine .look (fun _ _ => ⟨_, rfl⟩) fun b => ?_
    split
    · exact hlambda
    · exact hdisjunction.bind

end Grammar

/-- Whole expressions of the grammar start with a token that can start an expression. -/
theorem starts_grammar (suspicious : Bool) (fuel : Nat) : Starts [] (grammar suspicious fuel).expression := by
  cases fuel with
  | zero => exact .fail
  | succ fuel =>
    refine starts_expression (g := grammar suspicious fuel) ?_
    cases fuel with
    | zero => exact .fail
    | succ fuel => exact starts_factor

/-! ## Outlines -/

/-- The parts of a text that is read as an expression: lines without tokens, then the tokens of the expression
behind blanks without width, and what stands behind them. -/
structure Outline (text : List Char) where
  lines : List Char
  blanks : List Char
  core : List Char
  kinds : List TokenKind
  /-- The last part of `core`, behind the tokens. -/
  tail : List Char
  text_eq : text = lines ++ (blanks ++ core)
  skipped : Skipped lines
  flat : IsFlat blanks
  head : ∃ c rest, core = c :: rest ∧ startsToken c = true
  spells : Spells [] core kinds tail
  trailing : EndsShut tail ∨ EndsOpen tail
  starts : ∃ kind ∈ kinds.head?, kind.startsExpression = true
  scans : ∃ s, scan kinds {} = some s ∧ s.levels = {}
  not_mem_return : '\r' ∉ text

/-- Tokens that are passed one by one. -/
theorem many_advance_eq_ok {tokens : Array Token} {kind : TokenKind} {index stop : Nat} {found : List Unit}
    (h : many (· = kind) advance tokens index = .ok (found, stop)) :
    index ≤ stop ∧ ∀ middle, index ≤ middle → middle < stop → (tokenAt tokens middle).kind = kind := by
  obtain ⟨reversed, stop', hrepeat, hpure⟩ := Reads.bind_eq_ok h
  cases hpure
  refine repeatStep_keeps (I := fun stop _ => index ≤ stop ∧ ∀ middle, index ≤ middle → middle < stop →
    (tokenAt tokens middle).kind = kind) (fun start found next stop hstart hstep => ?_)
    ⟨Nat.le_refl _, by omega⟩ hrepeat
  obtain ⟨kind', start', hpeek, hstep⟩ := Reads.bind_eq_ok hstep
  cases hpeek
  split at hstep
  · rename_i hkind
    cases hstep
    refine ⟨Nat.le_succ_of_le hstart.1, fun middle hindex hstop => ?_⟩
    rcases Nat.lt_or_ge middle start with hlt | hge
    · exact hstart.2 middle hindex hlt
    · obtain rfl : middle = start := by omega
      exact of_decide_eq_true hkind
  · cases hstep
    exact hstart

/-- A text that is read as an expression has an outline. -/
theorem exists_outline {string : String} {value : Expr} (h : parseExpression string = .ok value) :
    Nonempty (Outline (unifyNewlines string.toList)) := by
  have hreturn := cr_not_mem_unifyNewlines string.toList
  obtain ⟨stop, hread⟩ := readAll_eq_ok h
  generalize unifyNewlines string.toList = text at hread hreturn
  obtain ⟨value', middle, hvalue, hread⟩ := Reads.bind_eq_ok hread
  obtain ⟨found, last, hlines, hread⟩ := Reads.bind_eq_ok hread
  obtain ⟨_, stop', hfinish, -⟩ := Reads.bind_eq_ok hread
  replace hfinish := (Reads.expect_eq_ok hfinish).1
  have hbalanced : Balances (tupleOr TokenKind.startsExpression (grammar false (text.length + 2)).expression) :=
    keeps_tupleOr (isBalanced_grammar false (text.length + 2)).expression
  obtain ⟨kinds, hspans, hscan⟩ := hbalanced (tokens text) 0 value' middle trivial hvalue
  obtain ⟨s, hs, hlevels⟩ := hscan {} trivial
  have hinline : ∀ kind ∈ kinds, kind.isInline = true :=
    fun kind hkind => isInline_of_isForeign (isForeign_of_scan hs kind hkind)
  have hmiddle : middle = 0 + kinds.length := hspans.2
  -- Only line ends stand between the expression and the end of the source.
  obtain ⟨hle, hnewlines⟩ := many_advance_eq_ok hlines
  have hends : ∀ index, middle ≤ index → index ≤ last →
      (tokenAt (tokens text) index).kind.endsTokens = true := by
    intro index hindex hlast
    rcases Nat.lt_or_eq_of_le hlast with hlt | rfl
    · rw [hnewlines index hindex hlt]
      rfl
    · rw [hfinish]
      rfl
  have hstarts : (tokenAt (tokens text) 0).kind.startsExpression = true :=
    (Starts.here fun _ => (starts_grammar false (text.length + 2)).bind) (tokens text) 0 value' middle
      trivial hvalue
  have hleading : Leading (tokens text) 0 text := by
    refine (lineAt_tokens text).leading (fun fault hfault => ?_) fun hindent => ?_
    · rw [hfault] at hstarts
      cases hstarts
    · rw [hindent] at hstarts
      cases hstarts
  cases hleading with
  | @token lines blanks rest hskipped hflat hrest hlexed =>
    cases rest with
    | nil =>
      rw [hlexed.finish] at hstarts
      cases hstarts
    | cons c rest =>
      obtain ⟨tail, hspells, hat⟩ := (enclosedAt_nil.2 hlexed).spells hspans.1 hinline
        (hmiddle ▸ hends middle (Nat.le_refl _) hle)
      have hkind : ∃ kind ∈ kinds.head?, kind.startsExpression = true := by
        cases kinds with
        | nil =>
          have hend := hends middle (Nat.le_refl _) hle
          rw [hmiddle, List.length_nil, Nat.add_zero] at hend
          revert hstarts hend
          cases (tokenAt (tokens _) 0).kind <;> simp [TokenKind.startsExpression, TokenKind.endsTokens]
        | cons kind kinds =>
          rw [hspans.of_cons.1] at hstarts
          exact ⟨kind, rfl, hstarts⟩
      rw [← hmiddle] at hat
      have htrailing : EndsShut tail ∨ EndsOpen tail := by
        refine hat.trailing hspells.endsTokens fun hnewline => hends _ (by omega) ?_
        rcases Nat.lt_or_eq_of_le hle with hlt | rfl
        · exact hlt
        · rw [hfinish] at hnewline
          cases hnewline
      exact ⟨{
        lines, blanks, core := c :: rest, kinds, tail
        text_eq := rfl
        skipped := hskipped
        flat := hflat
        head := ⟨c, rest, rfl, hrest c rfl⟩
        spells := hspells
        trailing := htrailing
        starts := hkind
        scans := ⟨s, hs, hlevels⟩
        not_mem_return := hreturn }⟩
  | note _ _ _ hfinish =>
    rw [hfinish] at hstarts
    cases hstarts

end PropertyWrapper.Source
