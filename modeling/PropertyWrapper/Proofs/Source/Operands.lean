import PropertyWrapper.Proofs.Source.Expressions

/-!
# Reading single operands

What the expression readers give for an operand that no operator continues, exactly as it is read. The steps
of a reader are followed one by one, and those that would look for an operator find none.

* `bind_of_eq_ok`, `accept_of_ne` and others : single steps of a reader;
* `Repeats`, `repeatStep_of_repeats` : a repetition as a sequence of steps;
* `operandEnds` : tokens that end an operand;
* `expression_of_primary` : an operand read as a whole expression;
* `primary_of_atom` : an operand of one token.
-/

namespace PropertyWrapper.Source

open Reader PropertyWrapper.Text

variable {tokens : Array Token} {index stop : Nat} {α β : Type}

/-! ## Single steps -/

/-- The value of a sequence whose first reader gives one. -/
theorem bind_of_eq_ok {first : Reader α} {next : α → Reader β} {a : α} {middle : Nat}
    (h : first tokens index = .ok (a, middle)) :
    (first >>= next) tokens index = next a tokens middle := by
  change Reader.andThen first next tokens index = _
  rw [Reader.andThen, h]

theorem bind_of_eq_error {first : Reader α} {next : α → Reader β} {failure : Failure}
    (h : first tokens index = .error failure) : (first >>= next) tokens index = .error failure := by
  change Reader.andThen first next tokens index = _
  rw [Reader.andThen, h]

theorem peek_eq (tokens : Array Token) (index : Nat) :
    peek tokens index = .ok ((tokenAt tokens index).kind, index) := rfl

theorem ahead_eq (offset : Nat) (tokens : Array Token) (index : Nat) :
    ahead offset tokens index = .ok ((tokenAt tokens (index + offset)).kind, index) := rfl

theorem advance_eq (tokens : Array Token) (index : Nat) :
    advance tokens index = .ok ((), index + 1) := rfl

theorem accept_of_eq {kind : TokenKind} (h : (tokenAt tokens index).kind = kind) :
    accept kind tokens index = .ok (true, index + 1) := by
  rw [accept, bind_of_eq_ok (peek_eq tokens index), if_pos h]
  rfl

/-- A token that is not the present one is not accepted. -/
theorem accept_of_ne {kind : TokenKind} (h : (tokenAt tokens index).kind ≠ kind) :
    accept kind tokens index = .ok (false, index) := by
  rw [accept, bind_of_eq_ok (peek_eq tokens index), if_neg h]
  rfl

theorem expect_of_eq {kind : TokenKind} (h : (tokenAt tokens index).kind = kind) :
    expect kind tokens index = .ok ((), index + 1) := by
  rw [expect, bind_of_eq_ok (peek_eq tokens index), if_pos h]
  rfl

theorem expect_of_ne {kind : TokenKind} (h : (tokenAt tokens index).kind ≠ kind) :
    expect kind tokens index = .error ⟨index, .unexpected⟩ := by
  rw [expect, bind_of_eq_ok (peek_eq tokens index), if_neg h]
  rfl

theorem at?_of_eq {kind : TokenKind} (h : (tokenAt tokens index).kind = kind) :
    at? kind tokens index = .ok (true, index) := by
  rw [at?, bind_of_eq_ok (peek_eq tokens index), decide_eq_true h]
  rfl

theorem at?_of_ne {kind : TokenKind} (h : (tokenAt tokens index).kind ≠ kind) :
    at? kind tokens index = .ok (false, index) := by
  rw [at?, bind_of_eq_ok (peek_eq tokens index), decide_eq_false h]
  rfl

/-! ## Repetitions -/

/-- A repetition that stops at once. -/
theorem repeatStep_of_none {step : α → Reader (Option α)} {a : α}
    (h : step a tokens index = .ok (none, index)) : repeatStep step a tokens index = .ok (a, index) := by
  rw [repeatStep]
  cases tokens.size + 1 - index with
  | zero => rfl
  | succ fuel =>
    rw [repeatUpTo, bind_of_eq_ok h]
    rfl

/-- The steps of a repetition from a value at an index up to a value at another index. Every step but the
last one consumes tokens. -/
inductive Repeats (step : α → Reader (Option α)) (tokens : Array Token) (result : α) (stop : Nat) :
    α → Nat → Prop where
  | stop (h : step result tokens stop = .ok (none, stop)) : Repeats step tokens result stop result stop
  | more {a b : α} {index middle : Nat} (hindex : (tokenAt tokens index).kind ≠ .finish)
      (hstep : step a tokens index = .ok (some b, middle)) (hmiddle : index < middle)
      (hrest : Repeats step tokens result stop b middle) : Repeats step tokens result stop a index

theorem repeatUpTo_of_repeats {step : α → Reader (Option α)} {a result : α}
    (h : Repeats step tokens result stop a index) {fuel : Nat} (hfuel : tokens.size + 1 - index ≤ fuel) :
    repeatUpTo step fuel a tokens index = .ok (result, stop) := by
  induction h generalizing fuel with
  | stop h =>
    cases fuel with
    | zero => rfl
    | succ fuel =>
      rw [repeatUpTo, bind_of_eq_ok h]
      rfl
  | more hindex hstep hmiddle _ ih =>
    have hsize := lt_size_of_ne_finish hindex
    obtain ⟨fuel, rfl⟩ : ∃ n, fuel = n + 1 := ⟨fuel - 1, by omega⟩
    rw [repeatUpTo, bind_of_eq_ok hstep]
    exact ih (by omega)

/-- A repetition makes its steps: it always has enough fuel. -/
theorem repeatStep_of_repeats {step : α → Reader (Option α)} {a result : α}
    (h : Repeats step tokens result stop a index) :
    repeatStep step a tokens index = .ok (result, stop) :=
  repeatUpTo_of_repeats h (Nat.le_refl _)

/-- A repetition that makes one step. -/
theorem repeatStep_of_some {step : α → Reader (Option α)} {a b : α}
    (hindex : (tokenAt tokens index).kind ≠ .finish)
    (hstep : step a tokens index = .ok (some b, stop)) (hstop : step b tokens stop = .ok (none, stop)) :
    repeatStep step a tokens index = .ok (b, stop) := by
  have hsize := lt_size_of_ne_finish hindex
  obtain ⟨fuel, hfuel⟩ : ∃ fuel, tokens.size + 1 - index = fuel + 1 := ⟨tokens.size - index, by omega⟩
  rw [repeatStep, hfuel, repeatUpTo, bind_of_eq_ok hstep]
  cases fuel with
  | zero => rfl
  | succ fuel =>
    dsimp only
    rw [repeatUpTo, bind_of_eq_ok hstop]
    rfl

theorem repeatStep_of_error {step : α → Reader (Option α)} {a : α} {failure : Failure}
    (hindex : index < tokens.size) (h : step a tokens index = .error failure) :
    repeatStep step a tokens index = .error failure := by
  obtain ⟨fuel, hfuel⟩ : ∃ fuel, tokens.size + 1 - index = fuel + 1 := ⟨tokens.size - index, by omega⟩
  rw [repeatStep, hfuel, repeatUpTo]
  exact bind_of_eq_error h

theorem many_of_not_continues {continues : TokenKind → Bool} {reader : Reader α}
    (h : continues (tokenAt tokens index).kind = false) :
    many continues reader tokens index = .ok ([], index) := by
  rw [many, bind_of_eq_ok (repeatStep_of_none (a := []) ?_)]
  · rfl
  · rw [bind_of_eq_ok (peek_eq tokens index), if_neg (by simp [h])]
    rfl

theorem many_of_single {continues : TokenKind → Bool} {reader : Reader α} {a : α}
    (hindex : (tokenAt tokens index).kind ≠ .finish)
    (hcontinues : continues (tokenAt tokens index).kind = true)
    (h : reader tokens index = .ok (a, stop)) (hstop : continues (tokenAt tokens stop).kind = false) :
    many continues reader tokens index = .ok ([a], stop) := by
  rw [many, bind_of_eq_ok (repeatStep_of_some (a := []) (b := [a]) hindex ?_ ?_)]
  · rfl
  · rw [bind_of_eq_ok (peek_eq tokens index), if_pos hcontinues, bind_of_eq_ok h]
    rfl
  · rw [bind_of_eq_ok (peek_eq tokens stop), if_neg (by simp [hstop])]
    rfl

/-! ## Operands in front of an end -/

/-- Tokens that end an operand: no operator, attribute, subscript or call starts with one of them. -/
def operandEnds : List TokenKind :=
  [.newline, .symbol .comma, .symbol .rparen, .symbol .assign]

/-- A token that an operand of one token consists of. -/
def TokenKind.isOperand : TokenKind → Bool
  | .name _ | .number _ | .text _ => true
  | .reserved word => [Reserved.kwTrue, .kwFalse, .kwNone].contains word
  | _ => false

section Operand

variable {g : Grammar} {value : Expr}

theorem leftAssociative_of_end {operators : List BinaryOp} {operand : Reader Expr}
    (h : operand tokens index = .ok (value, stop)) (hstop : (tokenAt tokens stop).kind ∈ operandEnds) :
    leftAssociative operators operand tokens index = .ok (value, stop) := by
  rw [leftAssociative, bind_of_eq_ok rfl, bind_of_eq_ok h]
  apply repeatStep_of_none
  rw [bind_of_eq_ok (peek_eq tokens stop)]
  simp only [operandEnds, List.mem_cons, List.not_mem_nil, or_false] at hstop
  rcases hstop with hstop | hstop | hstop | hstop <;> rw [hstop] <;> rfl

theorem bitwiseOr_of_end (h : g.factor tokens index = .ok (value, stop))
    (hstop : (tokenAt tokens stop).kind ∈ operandEnds) :
    bitwiseOr g tokens index = .ok (value, stop) := by
  unfold bitwiseOr
  iterate 6 apply leftAssociative_of_end _ hstop
  exact h

theorem compareOp_of_end (hstop : (tokenAt tokens stop).kind ∈ operandEnds) :
    compareOp tokens stop = .ok (none, stop) := by
  rw [compareOp, bind_of_eq_ok (peek_eq tokens stop), bind_of_eq_ok (ahead_eq 1 tokens stop)]
  simp only [operandEnds, List.mem_cons, List.not_mem_nil, or_false] at hstop
  rcases hstop with hstop | hstop | hstop | hstop <;> rw [hstop] <;> rfl

theorem comparison_of_end (h : g.factor tokens index = .ok (value, stop))
    (hstop : (tokenAt tokens stop).kind ∈ operandEnds) :
    comparison g tokens index = .ok (value, stop) := by
  rw [comparison, bind_of_eq_ok rfl, bind_of_eq_ok (bitwiseOr_of_end h hstop)]
  rw [bind_of_eq_ok (repeatStep_of_none (a := []) (by rw [bind_of_eq_ok (compareOp_of_end hstop)]; rfl))]
  rfl

/-- A token that starts an operand of one token is no word in front of an operand. -/
theorem ne_of_isOperand {kind other : TokenKind} (h : kind.isOperand = true)
    (hother : other.isOperand = false) : kind ≠ other := by
  rintro rfl
  rw [h] at hother
  cases hother

theorem ne_of_mem_operandEnds {kind other : TokenKind} (h : kind ∈ operandEnds)
    (hother : other ∉ operandEnds) : kind ≠ other := by
  rintro rfl
  exact hother h

theorem inversion_of_end (h : g.factor tokens index = .ok (value, stop))
    (hindex : (tokenAt tokens index).kind.isOperand = true)
    (hstop : (tokenAt tokens stop).kind ∈ operandEnds) : inversion g tokens index = .ok (value, stop) := by
  rw [inversion, bind_of_eq_ok rfl, bind_of_eq_ok (accept_of_ne (ne_of_isOperand hindex rfl))]
  exact comparison_of_end h hstop

theorem booleanChain_of_end {op : BoolOp} {word : Reserved} {operand : Reader Expr}
    (h : operand tokens index = .ok (value, stop)) (hstop : (tokenAt tokens stop).kind ∈ operandEnds) :
    booleanChain op word operand tokens index = .ok (value, stop) := by
  have hne : (tokenAt tokens stop).kind ≠ .reserved word :=
    ne_of_mem_operandEnds hstop (by simp [operandEnds])
  have hmany : many (· = .reserved word) (do advance; operand) tokens stop = .ok ([], stop) :=
    many_of_not_continues (decide_eq_false hne)
  have hseparated : separatedBy (.reserved word) operand tokens index = .ok ([value], stop) := by
    rw [separatedBy, bind_of_eq_ok h, bind_of_eq_ok hmany]
    rfl
  rw [booleanChain, bind_of_eq_ok rfl, bind_of_eq_ok hseparated]
  rfl

theorem disjunction_of_end (h : g.factor tokens index = .ok (value, stop))
    (hindex : (tokenAt tokens index).kind.isOperand = true)
    (hstop : (tokenAt tokens stop).kind ∈ operandEnds) :
    disjunction g tokens index = .ok (value, stop) :=
  booleanChain_of_end (booleanChain_of_end (inversion_of_end h hindex hstop) hstop) hstop

theorem expression_of_end (hg : g.suspicious = false) (h : g.factor tokens index = .ok (value, stop))
    (hindex : (tokenAt tokens index).kind.isOperand = true)
    (hstop : (tokenAt tokens stop).kind ∈ operandEnds) :
    expression g tokens index = .ok (value, stop) := by
  obtain ⟨found, hfound⟩ := startsStatementLike_looks (g := g) tokens index
  rw [expression, bind_of_eq_ok rfl, bind_of_eq_ok hfound, hg, Bool.false_and, if_neg Bool.false_ne_true,
    bind_of_eq_ok (at?_of_ne (ne_of_isOperand hindex rfl)), if_neg Bool.false_ne_true,
    bind_of_eq_ok (disjunction_of_end h hindex hstop),
    bind_of_eq_ok (accept_of_ne (ne_of_mem_operandEnds hstop (by decide))), if_neg Bool.false_ne_true]
  rfl

theorem factor_of_end (hindex : (tokenAt tokens index).kind.isOperand = true)
    (hprimary : primary g tokens index = .ok (value, stop))
    (hstop : (tokenAt tokens stop).kind ∈ operandEnds) : factor g tokens index = .ok (value, stop) := by
  have hpower : power g tokens index = .ok (value, stop) := by
    rw [power, bind_of_eq_ok rfl, bind_of_eq_ok (accept_of_ne (ne_of_isOperand hindex rfl)),
      if_neg Bool.false_ne_true, bind_of_eq_ok hprimary]
    dsimp only
    rw [bind_of_eq_ok (accept_of_ne (ne_of_mem_operandEnds hstop (by decide))),
      if_neg Bool.false_ne_true]
    rfl
  rw [factor, bind_of_eq_ok rfl, bind_of_eq_ok (peek_eq tokens index)]
  cases hkind : (tokenAt tokens index).kind with
  | symbol mark =>
    rw [hkind] at hindex
    cases hindex
  | _ => exact hpower

end Operand

/-- An operand that is read as a primary is read as a whole expression where it ends. -/
theorem expression_of_primary (lexer : Lexer) (fuel : Nat) {value : Expr}
    (hindex : (tokenAt tokens index).kind.isOperand = true)
    (hprimary : primary (grammarWith lexer false fuel) tokens index = .ok (value, stop))
    (hstop : (tokenAt tokens stop).kind ∈ operandEnds) :
    (grammarWith lexer false (fuel + 2)).expression tokens index = .ok (value, stop) := by
  have hfactor : (grammarWith lexer false (fuel + 1)).factor tokens index = .ok (value, stop) :=
    factor_of_end hindex hprimary hstop
  exact expression_of_end rfl hfactor hindex hstop

/-! ## Operands of one token -/

section Atom

variable {g : Grammar} {value : Expr}

theorem atom_of_name {id : String} (h : (tokenAt tokens index).kind = .name id) :
    atom g tokens index = .ok (.name (tokenAt tokens index).pos id, index + 1) := by
  rw [atom, bind_of_eq_ok rfl, bind_of_eq_ok (peek_eq tokens index), h]
  rfl

theorem atom_of_flag {word : Reserved} {flag : Bool}
    (hword : word = if flag then .kwTrue else .kwFalse)
    (h : (tokenAt tokens index).kind = .reserved word) :
    atom g tokens index = .ok (.constant (tokenAt tokens index).pos (.bool flag), index + 1) := by
  rw [atom, bind_of_eq_ok rfl, bind_of_eq_ok (peek_eq tokens index), h, hword]
  cases flag <;> rfl

/-- A text literal that no other one follows. -/
theorem atom_of_text {literal : TextLiteral} {text : Points}
    (h : (tokenAt tokens index).kind = .text literal) (hplain : literal.bytes = false)
    (hformatted : literal.formatted = false) (htext : literalText literal.raw literal.body = some text)
    (hstop : (tokenAt tokens (index + 1)).kind ∈ operandEnds) :
    atom g tokens index
      = .ok (.constant (tokenAt tokens index).pos (.str literal.marked text), index + 1) := by
  have hexpr : literalExpr g.field (tokenAt tokens index).pos [literal]
      = some (.constant (tokenAt tokens index).pos (.str literal.marked text)) := by
    simp [literalExpr, hplain, hformatted, htext]
  have hliterals : literals g tokens index
      = .ok (.constant (tokenAt tokens index).pos (.str literal.marked text), index + 1) := by
    rw [literals, bind_of_eq_ok rfl, bind_of_eq_ok (repeatStep_of_some (a := []) (b := [literal])
      (by simp [h]) ?_ ?_)]
    · rw [List.reverse_singleton, hexpr]
      rfl
    · rw [bind_of_eq_ok (peek_eq tokens index), h]
      rfl
    · rw [bind_of_eq_ok (peek_eq tokens (index + 1))]
      simp only [operandEnds, List.mem_cons, List.not_mem_nil, or_false] at hstop
      rcases hstop with hstop | hstop | hstop | hstop <;> rw [hstop] <;> rfl
  rw [atom, bind_of_eq_ok rfl, bind_of_eq_ok (peek_eq tokens index), h]
  exact hliterals

/-- An atom that nothing is attached to. -/
theorem primary_of_atom (h : atom g tokens index = .ok (value, stop))
    (hstop : (tokenAt tokens stop).kind ∈ operandEnds) : primary g tokens index = .ok (value, stop) := by
  rw [primary, bind_of_eq_ok rfl, bind_of_eq_ok h]
  apply repeatStep_of_none
  rw [bind_of_eq_ok rfl, bind_of_eq_ok (peek_eq tokens stop)]
  simp only [operandEnds, List.mem_cons, List.not_mem_nil, or_false] at hstop
  rcases hstop with hstop | hstop | hstop | hstop <;> rw [hstop] <;> rfl

end Atom

end PropertyWrapper.Source
