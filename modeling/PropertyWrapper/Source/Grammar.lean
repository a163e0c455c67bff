import PropertyWrapper.Source.Token

/-!
# Reading trees from tokens

A reader consumes tokens from some index on and gives a value with the index behind it, or fails at an
index. Failures keep the furthest index that was reached, which is where an error is reported.
-/

namespace PropertyWrapper.Source

/-! ## Readers -/

/-- Why reading stopped at a token. -/
inductive FailureCause where
  /-- No rule takes the token. -/
  | unexpected
  /-- An indented block is missing in front of the token. -/
  | missingBlock
  /-- What stands in front of the token is wrong, whatever the token is. -/
  | misformed
deriving DecidableEq, Repr

/-- Where reading failed and why. -/
structure Failure where
  index : Nat
  cause : FailureCause
deriving DecidableEq, Repr

/-- The failure that reached further; of two equal ones the second. -/
def Failure.further (a b : Failure) : Failure := if b.index < a.index then a else b

/-- The failure seen from a place where no rule takes what was read: only a missing block counts as
before. -/
def Failure.settle (failure : Failure) : Failure :=
  if failure.cause = .unexpected then { failure with cause := .misformed } else failure

/-- A reader of values from tokens. -/
def Reader (α : Type) : Type := Array Token → Nat → Except Failure (α × Nat)

namespace Reader

variable {α β : Type}

/-- The reader that consumes nothing. -/
def succeed (a : α) : Reader α := fun _ index => .ok (a, index)

/-- One reader after another. -/
def andThen (first : Reader α) (second : α → Reader β) : Reader β := fun tokens index =>
  match first tokens index with
  | .ok (a, index) => second a tokens index
  | .error failure => .error failure

instance : Monad Reader where
  pure := succeed
  bind := andThen

/-- Failure at the present token. -/
def fail : Reader α := fun _ index => .error ⟨index, .unexpected⟩

/-- Failure at the present token because an indented block is missing. -/
def failBlock : Reader α := fun _ index => .error ⟨index, .missingBlock⟩

/-- Failure because of what was read so far. -/
def failMisformed : Reader α := fun _ index => .error ⟨index, .misformed⟩

instance : Inhabited (Reader α) := ⟨fail⟩

/-- The second reader where the first one fails, from the same token on. What is misformed for the
first one is not tried again. -/
def orElse (first second : Reader α) : Reader α := fun tokens index =>
  match first tokens index with
  | .ok result => .ok result
  | .error failure =>
    if failure.cause = .misformed then .error failure
    else (second tokens index).mapError failure.further

/-- A reader of what is misformed in any case, even where it can be read. -/
def misformed (reader : Reader α) : Reader β := fun tokens index =>
  match reader tokens index with
  | .ok (_, index) => .error ⟨index, .misformed⟩
  | .error failure => .error failure.settle

/-- The value that a reader would give, if it does not fail; nothing is consumed. -/
def foresee (reader : Reader α) : Reader (Option α) := fun tokens index =>
  .ok ((reader tokens index).toOption.map Prod.fst, index)

/-- A token by its index; behind the last token the source has ended. -/
def tokenAt (tokens : Array Token) (index : Nat) : Token := (tokens[index]?).getD default

/-- The token some places ahead, which is not consumed. -/
def ahead (offset : Nat) : Reader TokenKind := fun tokens index =>
  .ok ((tokenAt tokens (index + offset)).kind, index)

/-- The present token, which is not consumed. -/
def peek : Reader TokenKind := ahead 0

/-- Where the present token starts. -/
def here : Reader Position := fun tokens index => .ok ((tokenAt tokens index).pos, index)

/-- Consumes the present token. -/
def advance : Reader Unit := fun _ index => .ok ((), index + 1)

/-- Consumes the present token if it is a given one, and says so. -/
def accept (kind : TokenKind) : Reader Bool := do
  if (← peek) = kind then
    advance
    return true
  else return false

/-- Consumes a given token or fails. -/
def expect (kind : TokenKind) : Reader Unit := do
  if (← peek) = kind then advance else fail

/-- Whether the present token is a given one. -/
def at? (kind : TokenKind) : Reader Bool := do return (← peek) = kind

/-- Consumes a name. -/
def name : Reader String := do
  match ← peek with
  | .name text => advance; return text
  | _ => fail

/-- Repeats a step until it gives nothing more; the fuel bounds the number of steps. -/
def repeatUpTo (step : α → Reader (Option α)) : Nat → α → Reader α
  | 0, a => succeed a
  | fuel + 1, a => do
    match ← step a with
    | some a => repeatUpTo step fuel a
    | none => return a

/-- Repeats a step that consumes tokens until it gives nothing more. -/
def repeatStep (step : α → Reader (Option α)) (a : α) : Reader α := fun tokens index =>
  repeatUpTo step (tokens.size + 1 - index) a tokens index

/-- Values as long as a condition on the present token holds. -/
def many (continues : TokenKind → Bool) (reader : Reader α) : Reader (List α) := do
  let found ← repeatStep (fun found : List α => do
    if continues (← peek) then return some ((← reader) :: found) else return none) []
  return found.reverse

/-- One or more values between separating tokens; a separator is followed by another value. -/
def separatedBy (separator : TokenKind) (reader : Reader α) : Reader (List α) := do
  let first ← reader
  let rest ← many (· = separator) (do advance; reader)
  return first :: rest

/-- The values after a first one in a list with commas, and whether there was a comma at all; a comma
may end the list, that is, be followed by a token that starts no value. -/
def afterCommas (starts : TokenKind → Bool) (reader : Reader α) : Reader (List α × Bool) := do
  let (found, _, comma) ← repeatStep (fun (state : List α × Bool × Bool) => do
    let (found, finished, _) := state
    if finished then return none
    else if ← accept (.symbol .comma) then
      if starts (← peek) then return some ((← reader) :: found, false, true)
      else return some (found, true, true)
    else return none) ([], false, false)
  return (found.reverse, comma)

/-- Values separated by commas up to a token that starts no value; the list may be empty and may end
with a comma. -/
def commaList (starts : TokenKind → Bool) (reader : Reader α) : Reader (List α) := do
  if starts (← peek) then
    let first ← reader
    let (rest, _) ← afterCommas starts reader
    return first :: rest
  else return []

end Reader

/-! ## Starts of expressions -/

/-- Whether a token can start an expression. -/
def TokenKind.startsExpression : TokenKind → Bool
  | .name _ | .number _ | .text _ => true
  | .reserved word =>
    [Reserved.kwFalse, .kwNone, .kwTrue, .kwNot, .kwLambda, .kwAwait].contains word
  | .symbol mark =>
    [Symbol.lparen, .lbracket, .lbrace, .ellipsis, .tilde, .op .add, .op .sub].contains mark
  | _ => false

/-- Whether a token can start an expression that may be unpacked. -/
def TokenKind.startsStarred (kind : TokenKind) : Bool :=
  kind = .symbol (.op .mul) || kind.startsExpression

/-! ## Targets -/

mutual

/-- Whether an expression can be assigned to; parts of a sequence may be unpacked where `stars` says
so. -/
def Expr.isTarget (stars : Bool) : Expr → Bool
  | .name .. | .attribute .. | .subscript .. => true
  | .starred _ value => stars && value.isTarget stars
  | .tuple _ elements | .list _ elements => allTargets stars elements
  | _ => false

/-- Whether all of some expressions can be assigned to. -/
def allTargets (stars : Bool) : List Expr → Bool
  | [] => true
  | first :: rest => first.isTarget stars && allTargets stars rest

end

/-- Whether an expression names a single place: a name, an attribute or a subscript. -/
def Expr.isPlace : Expr → Bool
  | .name .. | .attribute .. | .subscript .. => true
  | _ => false

end PropertyWrapper.Source
