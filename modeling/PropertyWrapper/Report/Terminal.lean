import PropertyWrapper.Expansion.Module

/-!
# Terminal reports

Progress and problems as lines of text. Colours are escape codes, and what goes to a stream that is no
terminal loses all such codes, whoever wrote them.
-/

namespace PropertyWrapper.Report

/-! ## Colours -/

/-- The colours of a report. -/
inductive Colour where
  | red | green | yellow | cyan
deriving DecidableEq, Repr

/-- The escape character. -/
def escape : Char := '\x1b'

/-- The number of a colour's escape code. -/
def Colour.code : Colour → Nat
  | .red => 31
  | .green => 32
  | .yellow => 33
  | .cyan => 36

/-- An escape code. -/
def escapeCode (code : Nat) : String := String.singleton escape ++ "[" ++ toString code ++ "m"

/-- A text in a colour, if colours are wanted. -/
def styled (useColour : Bool) (colour : Colour) (text : String) : String :=
  if useColour then escapeCode colour.code ++ text ++ escapeCode 0 else text

/-- What follows an escape code whose parameters start here: it ends at the first letter, before which
only digits and separators may stand. -/
def afterCode? : List Char → Option (List Char)
  | [] => none
  | c :: rest =>
    if c.isAlpha then some rest
    else if c.isDigit || c = ';' || c = '?' then afterCode? rest
    else none

/-- The rest after an escape code is shorter. -/
theorem length_afterCode? {chars rest : List Char} (h : afterCode? chars = some rest) :
    rest.length < chars.length := by
  induction chars with
  | nil => simp [afterCode?] at h
  | cons c chars ih =>
    rw [afterCode?] at h
    split at h
    · simp_all
    · split at h
      · exact Nat.lt_succ_of_lt (ih h)
      · simp at h

/-- Characters without escape codes. -/
def stripCodes (chars : List Char) : List Char :=
  match chars with
  | [] => []
  | [c] => [c]
  | c :: next :: rest =>
    if c = escape && next = '[' then
      match h : afterCode? rest with
      | some others =>
        have := length_afterCode? h
        stripCodes others
      | none => c :: stripCodes (next :: rest)
    else c :: stripCodes (next :: rest)
termination_by chars.length

/-- What a stream shows of a text. -/
def shown (isTerminal : Bool) (text : String) : String :=
  if isTerminal then text else String.ofList (stripCodes text.toList)

/-! ## Lines -/

/-- The line of a diagnostic. -/
def diagnosticLine (useColour : Bool) (diagnostic : Diagnostic) : String :=
  diagnostic.location ++ ": " ++ styled useColour .red Diagnostic.severity ++ ": "
    ++ diagnostic.message ++ " [" ++ diagnostic.qualifiedWord ++ "]"

/-- The word for an outcome with its colour. -/
def status (outcome : Outcome) : String × Colour :=
  if !outcome.isOk then ("ERROR", .red)
  else if outcome.changed then ("EXPANDED", .green)
  else ("UNCHANGED", .yellow)

/-- The first line of a report on a number of sources. -/
def startLine (useColour : Bool) (count : Nat) : String :=
  styled useColour .cyan ("Expanding " ++ toString count ++ " source(s)")

/-- The line of a source, the given one of a total. -/
def sourceLine (useColour : Bool) (path : String) (outcome : Outcome) (index total : Int) :
    String :=
  let (word, colour) := status outcome
  "[" ++ toString index ++ "/" ++ toString total ++ "] " ++ path ++ " -> "
    ++ styled useColour colour word ++ " (expanded=" ++ toString outcome.expanded
    ++ " generated=" ++ toString outcome.generated ++ ")"

/-- The last line of a report. -/
def summaryLine (useColour : Bool) (outcomes : List Outcome) : String :=
  let diagnostics := (outcomes.flatMap (·.diagnostics)).length
  let colour := if diagnostics = 0 then .green else .red
  styled useColour colour "Summary" ++ ": total=" ++ toString outcomes.length
    ++ " changed=" ++ toString (outcomes.countP (·.changed))
    ++ " diagnostics=" ++ toString diagnostics

end PropertyWrapper.Report
