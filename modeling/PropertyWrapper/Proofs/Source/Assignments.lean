import PropertyWrapper.Proofs.Source.Operands
import PropertyWrapper.Source.Module

/-!
# Reading assignments of calls

What the readers give for a module of one line that assigns the call of a name with named arguments to a name.

* `FurtherKeywords`, `Keywords` : named arguments from an index on;
* `arguments_of_keywords`, `primary_of_call` : the call of a name with such arguments;
* `AssignsName` : a name and the value that is assigned to it;
* `AssignsName.moduleReader_eq` : a module of one assignment.
-/

namespace PropertyWrapper.Source

open Reader PropertyWrapper.Text

variable {tokens : Array Token} {index stop : Nat} {g : Grammar} {value : Expr} {id : String}

/-! ## Named arguments -/

theorem argument_of_keyword {s : ArgumentState} (hname : (tokenAt tokens index).kind = .name id)
    (hassign : (tokenAt tokens (index + 1)).kind = .symbol .assign)
    (hvalue : g.expression tokens (index + 2) = .ok (value, stop)) :
    argument g s tokens index = .ok ({ s with
      keywords := .mk (tokenAt tokens index).pos (some id) value :: s.keywords }, stop) := by
  rw [argument, bind_of_eq_ok rfl, bind_of_eq_ok (peek_eq tokens index),
    bind_of_eq_ok (ahead_eq 1 tokens index), hname, hassign]
  dsimp only
  rw [bind_of_eq_ok (advance_eq tokens index), bind_of_eq_ok (advance_eq tokens (index + 1)),
    bind_of_eq_ok hvalue]
  rfl

/-- From an index on stand named arguments, each behind a comma, up to another index. -/
inductive FurtherKeywords (g : Grammar) (tokens : Array Token) (stop : Nat) :
    List Keyword → Nat → Prop where
  | nil : FurtherKeywords g tokens stop [] stop
  | cons {id : String} {value : Expr} {rest : List Keyword} {index middle : Nat}
      (hcomma : (tokenAt tokens index).kind = .symbol .comma)
      (hname : (tokenAt tokens (index + 1)).kind = .name id)
      (hassign : (tokenAt tokens (index + 2)).kind = .symbol .assign)
      (hvalue : g.expression tokens (index + 3) = .ok (value, middle)) (hmiddle : index < middle)
      (hrest : FurtherKeywords g tokens stop rest middle) :
      FurtherKeywords g tokens stop (.mk (tokenAt tokens (index + 1)).pos (some id) value :: rest) index

/-- One step of reading further arguments: a comma and the argument behind it. -/
def furtherArgument (g : Grammar) (s : ArgumentState) : Reader (Option ArgumentState) := do
  if ← accept (.symbol .comma) then
    if (← peek).startsArgument then return some (← argument g s) else return none
  else return none

/-- The arguments read so far and a named one. -/
def ArgumentState.withKeyword (s : ArgumentState) (keyword : Keyword) : ArgumentState :=
  { s with keywords := keyword :: s.keywords }

/-- Further named arguments are read one after the other. -/
theorem repeats_of_keywords {keywords : List Keyword} {s : ArgumentState}
    (h : FurtherKeywords g tokens stop keywords index)
    (hstop : (tokenAt tokens stop).kind = .symbol .rparen) :
    Repeats (furtherArgument g) tokens (keywords.foldl ArgumentState.withKeyword s) stop s index := by
  induction h generalizing s with
  | nil =>
    refine .stop ?_
    rw [furtherArgument, bind_of_eq_ok (accept_of_ne (by simp [hstop]))]
    rfl
  | cons hcomma hname hassign hvalue hmiddle _ ih =>
    refine .more (by simp [hcomma]) ?_ hmiddle ih
    rw [furtherArgument, bind_of_eq_ok (accept_of_eq hcomma), if_pos rfl, bind_of_eq_ok (peek_eq _ _),
      if_pos (by rw [hname]; rfl), bind_of_eq_ok (argument_of_keyword hname hassign hvalue)]
    rfl

theorem foldl_withKeyword (keywords : List Keyword) (s : ArgumentState) :
    keywords.foldl ArgumentState.withKeyword s
      = { s with keywords := keywords.reverse ++ s.keywords } := by
  induction keywords generalizing s with
  | nil => rfl
  | cons keyword keywords ih => simp [ih, ArgumentState.withKeyword]

/-- Further named arguments are read up to the closing parenthesis. -/
theorem moreArguments_of_keywords {keywords : List Keyword} {s : ArgumentState}
    (h : FurtherKeywords g tokens stop keywords index)
    (hstop : (tokenAt tokens stop).kind = .symbol .rparen) :
    moreArguments g s tokens index
      = .ok ({ s with keywords := keywords.reverse ++ s.keywords }, stop + 1) := by
  have hfurther := repeatStep_of_repeats (repeats_of_keywords h hstop (s := s))
  rw [foldl_withKeyword] at hfurther
  exact (bind_of_eq_ok hfurther).trans (by rw [bind_of_eq_ok (expect_of_eq hstop)]; rfl)

/-- From an index on stand named arguments, separated by commas, up to another index. -/
inductive Keywords (g : Grammar) (tokens : Array Token) (stop : Nat) : List Keyword → Nat → Prop where
  | nil : Keywords g tokens stop [] stop
  | cons {id : String} {value : Expr} {rest : List Keyword} {index middle : Nat}
      (hname : (tokenAt tokens index).kind = .name id)
      (hassign : (tokenAt tokens (index + 1)).kind = .symbol .assign)
      (hvalue : g.expression tokens (index + 2) = .ok (value, middle))
      (hrest : FurtherKeywords g tokens stop rest middle) :
      Keywords g tokens stop (.mk (tokenAt tokens index).pos (some id) value :: rest) index

/-- The arguments of a call that all have names. -/
theorem arguments_of_keywords {keywords : List Keyword} (h : Keywords g tokens stop keywords index)
    (hstop : (tokenAt tokens stop).kind = .symbol .rparen) (generators : Bool) (pos : Position) :
    arguments g generators pos tokens index = .ok (([], keywords), stop + 1) := by
  cases h with
  | nil =>
    rw [arguments, bind_of_eq_ok (accept_of_eq hstop)]
    rfl
  | @cons id value rest index middle hname hassign hvalue hrest =>
    rw [arguments, bind_of_eq_ok (accept_of_ne (by simp [hname])), if_neg Bool.false_ne_true,
      bind_of_eq_ok (argument_of_keyword hname hassign hvalue), bind_of_eq_ok (peek_eq tokens middle)]
    -- a clause makes a generator of a plain argument only, and there is none
    cases generators && (tokenAt tokens middle).kind.startsClause with
    | false =>
      dsimp only
      rw [bind_of_eq_ok (moreArguments_of_keywords hrest hstop), List.reverse_append, List.reverse_reverse]
      rfl
    | true =>
      dsimp only
      rw [bind_of_eq_ok (moreArguments_of_keywords hrest hstop), List.reverse_append, List.reverse_reverse]
      rfl

/-- The call of a name with named arguments. -/
theorem primary_of_call {keywords : List Keyword} (hname : (tokenAt tokens index).kind = .name id)
    (hopen : (tokenAt tokens (index + 1)).kind = .symbol .lparen)
    (h : Keywords g tokens stop keywords (index + 2))
    (hclose : (tokenAt tokens stop).kind = .symbol .rparen)
    (hstop : (tokenAt tokens (stop + 1)).kind ∈ operandEnds) :
    primary g tokens index = .ok (.call (tokenAt tokens index).pos
      (.name (tokenAt tokens index).pos id) [] keywords, stop + 1) := by
  rw [primary, bind_of_eq_ok rfl, bind_of_eq_ok (atom_of_name hname)]
  apply repeatStep_of_some
  · simp [hopen]
  · rw [bind_of_eq_ok rfl, bind_of_eq_ok (peek_eq tokens (index + 1)), hopen]
    dsimp only
    rw [bind_of_eq_ok (advance_eq tokens (index + 1)),
      bind_of_eq_ok (arguments_of_keywords h hclose true _)]
    rfl
  · rw [bind_of_eq_ok rfl, bind_of_eq_ok (peek_eq tokens (stop + 1))]
    simp only [operandEnds, List.mem_cons, List.not_mem_nil, or_false] at hstop
    rcases hstop with hstop | hstop | hstop | hstop <;> rw [hstop] <;> rfl

/-! ## Assignments -/

/-- A single expression in a place for several ones. -/
theorem starExpressions_of_expression (hindex : (tokenAt tokens index).kind.isOperand = true)
    (h : g.expression tokens index = .ok (value, stop))
    (hstop : (tokenAt tokens stop).kind ≠ .symbol .comma) :
    starExpressions g tokens index = .ok (value, stop) := by
  have hitem : starredOr g g.expression tokens index = .ok (value, stop) := by
    rw [starredOr, bind_of_eq_ok rfl, bind_of_eq_ok (accept_of_ne (ne_of_isOperand hindex rfl)),
      if_neg Bool.false_ne_true, h]
  have hcommas : afterCommas TokenKind.startsStarred (starredOr g g.expression) tokens stop
      = .ok (([], false), stop) := by
    rw [afterCommas, bind_of_eq_ok (repeatStep_of_none (a := ([], false, false)) ?_)]
    · rfl
    · dsimp only
      rw [if_neg Bool.false_ne_true, bind_of_eq_ok (accept_of_ne hstop)]
      rfl
  rw [starExpressions, tupleOr, bind_of_eq_ok rfl, bind_of_eq_ok hitem, bind_of_eq_ok hcommas]
  rfl

/-- A single expression as the value of an assignment. -/
theorem assignedValue_of_expression (hindex : (tokenAt tokens index).kind.isOperand = true)
    (h : g.expression tokens index = .ok (value, stop))
    (hstop : (tokenAt tokens stop).kind ≠ .symbol .comma) :
    assignedValue g tokens index = .ok (value, stop) := by
  rw [assignedValue, bind_of_eq_ok (at?_of_ne (ne_of_isOperand hindex rfl)), if_neg Bool.false_ne_true]
  exact starExpressions_of_expression hindex h hstop

/-- A name and the value that is assigned to it, up to the end of the line. -/
structure AssignsName (g : Grammar) (tokens : Array Token) (index : Nat) (id : String) (value : Expr)
    (stop : Nat) : Prop where
  plain : g.suspicious = false
  name : (tokenAt tokens index).kind = .name id
  assign : (tokenAt tokens (index + 1)).kind = .symbol .assign
  operand : (tokenAt tokens (index + 2)).kind.isOperand = true
  target : g.expression tokens index = .ok (.name (tokenAt tokens index).pos id, index + 1)
  value : g.expression tokens (index + 2) = .ok (value, stop)
  newline : (tokenAt tokens stop).kind = .newline

/-- The statement that assigns a value to a name at a place. -/
def assignmentAt (pos : Position) (id : String) (value : Expr) : Stmt :=
  .assign pos.line [.name pos id] value

namespace AssignsName

variable (h : AssignsName g tokens index id value stop)
include h

theorem assignmentTail_eq (line : Nat) (target : Expr) (htarget : target.isTarget true = true) :
    assignmentTail g line target tokens (index + 1) = .ok (.assign line [target] value, stop) := by
  have hvalue := assignedValue_of_expression h.operand h.value (by simp [h.newline])
  rw [assignmentTail, bind_of_eq_ok (repeatStep_of_some (a := ([], target)) (b := ([target], value))
    (by simp [h.assign]) ?_ ?_)]
  · rfl
  · dsimp only
    rw [bind_of_eq_ok (at?_of_eq h.assign), if_pos rfl, if_pos htarget,
      bind_of_eq_ok (advance_eq tokens (index + 1)), bind_of_eq_ok hvalue]
    rfl
  · dsimp only
    rw [bind_of_eq_ok (at?_of_ne (by simp [h.newline]))]
    rfl

theorem simpleStatement_eq :
    simpleStatement g tokens index = .ok (assignmentAt (tokenAt tokens index).pos id value, stop) := by
  have htarget := assignedValue_of_expression (by rw [h.name]; rfl) h.target (by simp [h.assign])
  have hstarts : startsTarget g tokens index = .ok (false, index) := by
    rw [startsTarget, h.plain, if_neg Bool.false_ne_true]
    rfl
  have hplace : parenthesizedPlace g tokens index = .error ⟨index, .unexpected⟩ :=
    bind_of_eq_error (expect_of_ne (by simp [h.name]))
  have hforesee : foresee (do let _ ← parenthesizedPlace g; at? (.symbol .colon)) tokens index
      = .ok (none, index) := by
    rw [foresee, bind_of_eq_error hplace]
    rfl
  rw [simpleStatement, bind_of_eq_ok rfl, bind_of_eq_ok (peek_eq tokens index), h.name]
  dsimp only
  rw [expressionStatement, bind_of_eq_ok rfl, bind_of_eq_ok (peek_eq tokens index),
    bind_of_eq_ok (ahead_eq 1 tokens index), h.name, h.assign]
  dsimp only
  -- neither a place in parentheses nor a list of targets starts with a name and a sign
  rw [bind_of_eq_ok hforesee, if_neg (by simp), bind_of_eq_ok hstarts, if_neg Bool.false_ne_true,
    bind_of_eq_ok htarget, expressionTail, bind_of_eq_ok (peek_eq tokens (index + 1)), h.assign]
  exact h.assignmentTail_eq _ _ rfl

theorem simpleStatements_eq :
    simpleStatements g tokens index
      = .ok ([assignmentAt (tokenAt tokens index).pos id value], stop + 1) := by
  rw [simpleStatements, bind_of_eq_ok h.simpleStatement_eq,
    bind_of_eq_ok (repeatStep_of_none (a := []) ?_), bind_of_eq_ok (expect_of_eq h.newline)]
  · rfl
  · rw [bind_of_eq_ok (accept_of_ne (by simp [h.newline]))]
    rfl

/-- An assignment to a name is no `match`, unless that is the name. -/
theorem statement_eq {b : Blocks} (hb : b.g = g) (hid : id ≠ "match") :
    statement b tokens index = .ok ([assignmentAt (tokenAt tokens index).pos id value], stop + 1) := by
  rw [statement, bind_of_eq_ok rfl, bind_of_eq_ok (peek_eq tokens index), h.name]
  refine Eq.trans (congrFun (congrFun ?_ tokens) index) h.simpleStatements_eq
  -- all other statements start with a word that is reserved or with a decorator
  split
  case h_10 heq => exact absurd (TokenKind.name.inj heq) hid
  case h_11 => rw [hb]
  all_goals contradiction

/-- A module of one assignment. -/
theorem moduleReader_eq {lexer : Lexer} {fuel : Nat} (hg : g = grammarWith lexer false fuel) (hid : id ≠ "match")
    (hfinish : (tokenAt tokens (stop + 1)).kind = .finish) :
    moduleReaderWith lexer false fuel tokens index
      = .ok ([assignmentAt (tokenAt tokens index).pos id value], stop + 1 + 1) := by
  have hmany : many (fun kind => kind != .dedent && kind != .finish)
      (statement
        { g := grammarWith lexer false fuel, depth := fuel, block := block (grammarWith lexer false fuel) fuel fuel })
      tokens index = .ok ([[assignmentAt (tokenAt tokens index).pos id value]], stop + 1) :=
    many_of_single (by simp [h.name]) (by rw [h.name]; rfl) (h.statement_eq hg.symm hid)
      (by rw [hfinish]; rfl)
  have hstatements : statements
      { g := grammarWith lexer false fuel, depth := fuel, block := block (grammarWith lexer false fuel) fuel fuel }
      tokens index
        = .ok ([assignmentAt (tokenAt tokens index).pos id value], stop + 1) := by
    rw [statements, bind_of_eq_ok hmany]
    rfl
  rw [moduleReaderWith, bind_of_eq_ok hstatements, bind_of_eq_ok (expect_of_eq hfinish)]
  rfl

end AssignsName

end PropertyWrapper.Source
