import PropertyWrapper.Lifting.Reference
import PropertyWrapper.Proofs.Source.Headers
import PropertyWrapper.Proofs.Source.Operands
import PropertyWrapper.Proofs.Source.Printed
import PropertyWrapper.Proofs.Source.Statements

/-!
# Reading generated definitions

A generated function has one decorator, a signature and a body of one line. Whatever the texts in it are, it is read
as one function with its name and its decorator, unless it cannot be read at all; what goes astray of its body is
read as expressions behind it.

* `namedExpression_of_primary` : a reference at the end of a line, exactly as it is read;
* `Template` : a generated function, with what keeps its lines apart;
* `Generated` : texts of generated functions, up to one that is not read;
* `Template.definition_eq_ok` : one function as it is read;
* `presents_parseModule` : a whole text of generated functions.
-/

namespace PropertyWrapper.Source

open Reader PropertyWrapper.Text

variable {tokens : Array Token} {index stop : Nat}

/-! ## References at the end of a line -/

section Reference

variable {g : Grammar} {value : Expr} {id attr : String}

/-- An operand at the end of a line, read as a whole expression. -/
theorem namedExpression_of_newline (hindex : (tokenAt tokens index).kind = .name id)
    (hexpression : g.expression tokens index = .ok (value, stop))
    (hnext : (tokenAt tokens (index + 1)).kind = .newline
      ∨ (tokenAt tokens (index + 1)).kind = .symbol .dot)
    (hstop : (tokenAt tokens stop).kind = .newline) :
    namedExpression g tokens index = .ok (value, stop) := by
  have hpeek : peek tokens index = .ok (.name id, index) := by rw [← hindex]; rfl
  have hend : (do
      let value ← g.expression
      if ← at? (.symbol .walrus) then fail else return value : Reader Expr) tokens index
        = .ok (value, stop) := by
    rw [bind_of_eq_ok hexpression, bind_of_eq_ok (at?_of_ne (by simp [hstop])),
      if_neg Bool.false_ne_true]
    rfl
  rw [namedExpression, bind_of_eq_ok rfl, bind_of_eq_ok hpeek, bind_of_eq_ok (ahead_eq 1 tokens index)]
  rcases hnext with h | h
  · rw [h]
    exact hend
  · rw [h]
    exact hend

theorem primary_of_name (h : (tokenAt tokens index).kind = .name id)
    (hstop : (tokenAt tokens (index + 1)).kind = .newline) :
    primary g tokens index = .ok (.name (tokenAt tokens index).pos id, index + 1) :=
  primary_of_atom (atom_of_name h) (by simp [hstop, operandEnds])

theorem primary_of_attribute (h : (tokenAt tokens index).kind = .name id)
    (hdot : (tokenAt tokens (index + 1)).kind = .symbol .dot)
    (hattr : (tokenAt tokens (index + 2)).kind = .name attr)
    (hstop : (tokenAt tokens (index + 3)).kind = .newline) :
    primary g tokens index = .ok (.attribute (tokenAt tokens index).pos
      (.name (tokenAt tokens index).pos id) attr, index + 3) := by
  have hpeek : peek tokens (index + 1) = .ok (.symbol .dot, index + 1) := by rw [← hdot]; rfl
  have hname : Reader.name tokens (index + 2) = .ok (attr, index + 3) := by
    have hpeek' : peek tokens (index + 2) = .ok (.name attr, index + 2) := by rw [← hattr]; rfl
    rw [Reader.name, bind_of_eq_ok hpeek']
    rfl
  have hpeek'' : peek tokens (index + 3) = .ok (.newline, index + 3) := by rw [← hstop]; rfl
  rw [primary, bind_of_eq_ok rfl, bind_of_eq_ok (atom_of_name h)]
  apply repeatStep_of_some
  · simp [hdot]
  · rw [bind_of_eq_ok rfl, bind_of_eq_ok hpeek]
    dsimp only
    rw [bind_of_eq_ok (advance_eq tokens (index + 1)), bind_of_eq_ok hname]
    rfl
  · rw [bind_of_eq_ok rfl, bind_of_eq_ok hpeek'']
    rfl

end Reference

/-- The whole expressions of a grammar that is not suspicious. -/
theorem namedExpression_of_primary (fuel : Nat) {value : Expr} {id : String}
    (hindex : (tokenAt tokens index).kind = .name id)
    (hprimary : primary (grammar false fuel) tokens index = .ok (value, stop))
    (hnext : (tokenAt tokens (index + 1)).kind = .newline
      ∨ (tokenAt tokens (index + 1)).kind = .symbol .dot)
    (hstop : (tokenAt tokens stop).kind = .newline) :
    namedExpression (grammar false (fuel + 2)) tokens index = .ok (value, stop) := by
  have hexpression : (grammar false (fuel + 2)).expression tokens index = .ok (value, stop) :=
    expression_of_primary Source.tokens fuel (by rw [hindex]; rfl) hprimary (by simp [hstop, operandEnds])
  exact namedExpression_of_newline hindex hexpression hnext hstop

/-! ## Templates -/

/-- What decorates a generated function: a getter or storage is marked by a word, a setter by the
property that it belongs to. -/
inductive Mark where
  | property
  | storage
  | setter
deriving DecidableEq, Repr

/-- The decorator of a generated function with a name. -/
def Mark.reference (name : String) : Mark → String
  | .property => "property"
  | .storage => "cached_property"
  | .setter => name ++ ".setter"

/-- The words that the bodies of generated functions start with. -/
def bodyLeads : List String := ["return", "raise", "self"]

/-- The text of a generated function up to its name, and what stands behind it. -/
def Mark.opening (mark : Mark) (name : String) (rest : List Char) : List Char :=
  '@' :: ((mark.reference name).toList ++ '\n' :: ("def".toList ++ ' ' :: (name.toList ++ rest)))

/-- What a generated function is: its mark and its name. -/
abbrev Role := Mark × String

/-- The name of a function and what its decorators refer to. -/
def heading : Stmt → Option (String × List (Option String))
  | .function _ _ name _ _ decorators _ => some (name, decorators.map referenceName)
  | _ => none

/-- The heading of the function with a role. -/
def Role.heading (role : Role) : Option (String × List (Option String)) :=
  some (role.2, [some (role.1.reference role.2)])

/-- A generated function. Its header is closed, so that it stays in its line, and so is the first line of its body;
what the body has behind that line are lines of expressions. -/
structure Template where
  mark : Mark
  name : String
  /-- What stands between the opening parenthesis and the colon of the header. -/
  signature : List Char
  /-- The first word of the body. -/
  lead : String
  /-- The body behind its first word. -/
  body : List Char
  /-- The body behind its first line. -/
  spill : List Char
  /-- The number of expressions behind the first line of the body. -/
  strays : Nat
  isWord_name : isWord name = true
  closes_signature : Closes [] ('(' :: signature)
  lead_mem : lead ∈ bodyLeads
  body_apart : ∃ c rest, body = c :: rest ∧ isWordCharacter c = false ∧ isQuote c = false
  isLine_body : ∀ following, IsLine AnyTokens (lead.toList ++ (body ++ following)) (spill ++ following)
  strays_spill : ∀ following, Strays following strays (spill ++ following)

namespace Template

def role (template : Template) : Role := (template.mark, template.name)

/-- The text of a generated function. -/
def text (template : Template) : List Char :=
  template.mark.opening template.name ('(' :: (template.signature ++ ':' :: '\n' ::
    ("    ".toList ++ (template.lead.toList ++ template.body))))

/-- The lines of a generated function in front of others. -/
theorem text_append (template : Template) (following : List Char) :
    template.text ++ following = template.mark.opening template.name ('(' :: (template.signature ++ ':' :: '\n' ::
      ("    ".toList ++ (template.lead.toList ++ (template.body ++ following))))) := by
  simp [text, Mark.opening]

end Template

/-- `Generated astray roles text` says that `text` consists of generated functions with the roles `roles`, with empty
lines between them. Where `astray` is set, their bodies can have further lines, and a function that is not read
can stand behind the first ones. -/
inductive Generated (astray : Bool) : List Role → List Char → Prop where
  | nil : Generated astray [] []
  | blank {roles : List Role} {text : List Char} : Generated astray roles text → Generated astray roles ('\n' :: text)
  | function {template : Template} {roles : List Role} {text : List Char} :
      template.strays = 0 ∨ astray = true → Generated astray roles text →
        Generated astray (template.role :: roles) (template.text ++ text)
  | unread {roles : List Role} {mark : Mark} {name : String} {text : List Char} : astray = true →
      isWord name = true → (∀ more, Breaks (text ++ more)) →
        Generated astray roles (mark.opening name ("(self) -> ".toList ++ text))

theorem Generated.append {astray : Bool} {roles roles' : List Role} {text text' : List Char}
    (h : Generated astray roles text) (h' : Generated astray roles' text') :
    Generated astray (roles ++ roles') (text ++ text') := by
  induction h with
  | nil => exact h'
  | blank _ ih => exact .blank ih
  | function hstrays _ ih =>
    rw [List.append_assoc]
    exact .function hstrays ih
  | @unread roles mark name text hastray hname hbreaks =>
    have hgenerated : Generated astray (roles ++ roles') (mark.opening name ("(self) -> ".toList ++ (text ++ text'))) :=
      .unread hastray hname fun more => by
        rw [List.append_assoc]
        exact hbreaks (text' ++ more)
    simpa [Mark.opening] using hgenerated

/-! ## Lines -/

theorem isClosed_reference {name : String} (hname : isWord name = true) (mark : Mark) :
    IsClosed (mark.reference name) := by
  cases mark with
  | property =>
    have hplain : isPlainText "property" = true := by decide
    exact .plain hplain
  | storage =>
    have hplain : isPlainText "cached_property" = true := by decide
    exact .plain hplain
  | setter => exact (IsClosed.plain (isPlainText_of_isWord hname)).trail (by decide)

/-- A name that was read is the word that stands there. -/
theorem name_eq_ok {word found : String} (h : Reader.name tokens index = .ok (found, stop))
    (hindex : (tokenAt tokens index).kind = wordToken word.toList) :
    found = word ∧ wordToken word.toList = .name word ∧ stop = index + 1 := by
  rw [Reader.name, bind_of_eq_ok (peek_eq tokens index), hindex] at h
  rcases wordToken_cases word.toList with hword | ⟨reserved, hword⟩ | hword
  · rw [String.ofList_toList] at hword
    rw [hword] at h
    cases h
    exact ⟨rfl, hword, rfl⟩
  · rw [hword] at h
    cases h
  · rw [hword] at h
    cases h

/-- A repetition over a single value. -/
theorem many_eq_ok_of_single {α : Type} {continues : TokenKind → Bool} {reader : Reader α}
    {found : List α} (h : many continues reader tokens index = .ok (found, stop))
    (hindex : continues (tokenAt tokens index).kind = true)
    (hfinish : (tokenAt tokens index).kind ≠ .finish)
    (hnext : ∀ a middle, reader tokens index = .ok (a, middle) →
      continues (tokenAt tokens middle).kind = false) :
    ∃ a, reader tokens index = .ok (a, stop) ∧ found = [a] := by
  obtain ⟨reversed, middle, hrepeat, hpure⟩ := Reads.bind_eq_ok h
  cases hpure
  cases hread : reader tokens index with
  | error failure =>
    have hstep : (do
        if continues (← peek) then return some ((← reader) :: []) else return none
          : Reader (Option (List α))) tokens index = .error failure := by
      rw [bind_of_eq_ok (peek_eq tokens index), if_pos hindex]
      exact bind_of_eq_error hread
    rw [repeatStep_of_error (lt_size_of_ne_finish hfinish) hstep] at hrepeat
    cases hrepeat
  | ok result =>
    obtain ⟨a, middle⟩ := result
    have hstep : (do
        if continues (← peek) then return some ((← reader) :: []) else return none
          : Reader (Option (List α))) tokens index = .ok (some [a], middle) := by
      rw [bind_of_eq_ok (peek_eq tokens index), if_pos hindex, bind_of_eq_ok hread]
      rfl
    have hstop := hnext a middle hread
    rw [repeatStep_of_some hfinish hstep ?_] at hrepeat
    · cases hrepeat
      exact ⟨a, rfl, rfl⟩
    · rw [bind_of_eq_ok (peek_eq tokens middle), if_neg (by simp [hstop])]
      rfl

/-! ## Decorators -/

theorem nextToken_at {reading : Reading} {c : Char} {rest : List Char}
    (hrest : reading.rest = '@' :: c :: rest) (hc : isWordCharacter c = true) :
    nextToken reading = .ok (.symbol (.op .matMul), reading.advance 1) := by
  have hne : '=' ≠ c := by
    rintro rfl
    exact absurd hc (by decide)
  have hpair : ['='].isPrefixOf (c :: rest) = false := by simp [List.isPrefixOf, hne]
  have hsymbol : scanSymbol ('@' :: c :: rest) = some (.op .matMul, 1) := by
    simp [scanSymbol, symbolTable, hne, hpair]
  rw [nextToken_symbol hrest (by decide) hsymbol, symbolToken_of_plain rfl rfl]

theorem nextToken_dot {reading : Reading} {c : Char} {rest : List Char}
    (hrest : reading.rest = '.' :: c :: rest) (hc : isWordCharacter c = true)
    (hdigit : c.isDigit = false) :
    nextToken reading = .ok (.symbol .dot, reading.advance 1) := by
  have hne : '.' ≠ c := by
    rintro rfl
    exact absurd hc (by decide)
  have hpair : ['.', '.'].isPrefixOf (c :: rest) = false := by simp [List.isPrefixOf, hne]
  have hsymbol : scanSymbol ('.' :: c :: rest) = some (.dot, 1) := by
    simp [scanSymbol, symbolTable, hpair]
  have hword : (isWordCharacter '.' && ! '.'.isDigit) = false := by decide
  have hplain : symbolToken .dot 1 reading = .ok (.symbol .dot, reading.advance 1) :=
    symbolToken_of_plain rfl rfl
  have hnumber : ('.'.isDigit || ('.' = '.' && ((c :: rest).head?.map Char.isDigit).getD false))
      = false := by
    rw [List.head?_cons, Option.map_some, Option.getD_some, hdigit]
    rfl
  rw [nextToken_of_not_word hrest hword, hrest, hsymbol, ← hplain, hnumber]
  rfl

theorem wordToken_setter : wordToken "setter".toList = .name "setter" := by decide

/-- What the decorator of a generated function refers to. -/
theorem reference_of_lexed {name : String} {mark : Mark} {fuel : Nat} {indents : List Indent}
    {following : List Char} {value : Expr}
    (h : LexedAt tokens index indents ((mark.reference name).toList ++ '\n' :: following))
    (hname : isWord name = true) (hword : wordToken name.toList = .name name)
    (hread : namedExpression (grammar false (fuel + 2)) tokens index = .ok (value, stop)) :
    referenceName value = some (mark.reference name) := by
  have hsingle : ∀ word : String, isWord word = true → wordToken word.toList = .name word →
      LexedAt tokens index indents (word.toList ++ '\n' :: following) →
      referenceName value = some word := by
    intro word hisWord hword h
    obtain ⟨hkind, hnext⟩ := h.word hisWord (by decide) (by decide)
    rw [hword] at hkind hnext
    obtain ⟨hnewline, -⟩ := (hnext.resolve_left (by simp)).newline
    have hvalue := namedExpression_of_primary fuel hkind (primary_of_name hkind hnewline)
      (.inl hnewline) hnewline
    rw [hread] at hvalue
    cases hvalue
    rfl
  cases mark with
  | property => exact hsingle "property" (by decide) (by decide) h
  | storage => exact hsingle "cached_property" (by decide) (by decide) h
  | setter =>
    have htext : (Mark.setter.reference name).toList ++ '\n' :: following
        = name.toList ++ '.' :: ("setter".toList ++ '\n' :: following) := by
      simp [Mark.reference]
    rw [htext] at h
    obtain ⟨hkind, hnext⟩ := h.word hname (by decide) (by decide)
    rw [hword] at hkind hnext
    obtain ⟨hdot, hnext⟩ := (hnext.resolve_left (by simp)).symbol
      (fun reading hrest => nextToken_dot hrest (by decide) (by decide)) (by decide)
    obtain ⟨hattr, hnext⟩ := hnext.word (by decide) (by decide) (by decide)
    rw [wordToken_setter] at hattr hnext
    obtain ⟨hnewline, -⟩ := (hnext.resolve_left (by simp)).newline
    have hvalue := namedExpression_of_primary fuel hkind
      (primary_of_attribute hkind hdot hattr hnewline) (.inr hdot) hnewline
    rw [hread] at hvalue
    cases hvalue
    have hdotted : name ++ "." ++ "setter" = name ++ ".setter" := by
      rw [@String.append_assoc name "." "setter"]
      rfl
    exact congrArg some hdotted

/-! ## Definitions -/

/-- At an index stand the generated functions with some roles, or one that is not read. -/
inductive Awaits (astray : Bool) (tokens : Array Token) : List Role → Nat → Prop where
  | finish {index : Nat} : (tokenAt tokens index).kind = .finish → Awaits astray tokens [] index
  | function {template : Template} {roles : List Role} {following : List Char} {index : Nat} :
      template.strays = 0 ∨ astray = true → Generated astray roles following →
        LexedAt tokens index [⟨0, 0⟩] (template.text ++ following) →
          Awaits astray tokens (template.role :: roles) index
  | unread {roles : List Role} {mark : Mark} {name : String} {text : List Char} {index : Nat} :
      isWord name = true → Breaks text →
        LexedAt tokens index [⟨0, 0⟩] (mark.opening name ("(self) -> ".toList ++ text)) →
          Awaits astray tokens roles index

variable {astray : Bool} {roles : List Role}

/-- From the start of a line on. -/
theorem Generated.awaits {text : List Char} (h : Generated astray roles text)
    (hline : LineAt tokens index [⟨0, 0⟩] text) : Awaits astray tokens roles index := by
  induction h with
  | nil => exact .finish hline.finish
  | blank _ ih => exact ih hline.blank
  | function hstrays hrest _ => exact .function hstrays hrest (LineAt.start hline (by decide))
  | @unread _ _ _ text _ hname hbreaks =>
    refine .unread hname ?_ (LineAt.start hline (by decide))
    have hbreaks' := hbreaks []
    rwa [List.append_nil] at hbreaks'

/-- What follows the body of a generated function closes its block. -/
theorem Generated.dedent {text : List Char} (h : Generated astray roles text)
    (hline : LineAt tokens index [bodyIndent, ⟨0, 0⟩] text) :
    (tokenAt tokens index).kind = .dedent ∧ Awaits astray tokens roles (index + 1) := by
  induction h with
  | nil =>
    obtain ⟨hdedent, hend⟩ := hline.dedent_end
    exact ⟨hdedent, .finish hend.finish⟩
  | blank _ ih => exact ih hline.blank
  | function hstrays hrest _ =>
    obtain ⟨hdedent, hlexed⟩ := LineAt.dedent hline (by decide)
    exact ⟨hdedent, .function hstrays hrest hlexed⟩
  | @unread _ _ _ text _ hname hbreaks =>
    obtain ⟨hdedent, hlexed⟩ := LineAt.dedent hline (by decide)
    refine ⟨hdedent, .unread hname ?_ hlexed⟩
    have hbreaks' := hbreaks []
    rwa [List.append_nil] at hbreaks'

/-- The body of a generated function is a line of simple statements. -/
theorem statement_of_lead {b : Blocks} {lead : String} (hlead : lead ∈ bodyLeads)
    (hindex : (tokenAt tokens index).kind = wordToken lead.toList) :
    statement b tokens index = simpleStatements b.g tokens index := by
  have hkinds : ∀ lead ∈ bodyLeads, wordToken lead.toList = .reserved .kwReturn
      ∨ wordToken lead.toList = .reserved .kwRaise ∨ wordToken lead.toList = .name "self" := by
    decide
  rw [statement, bind_of_eq_ok rfl, bind_of_eq_ok (peek_eq tokens index), hindex]
  rcases hkinds lead hlead with h | h | h
  · rw [h]
  · rw [h]
  · rw [h]
    rfl

/-- The first character of the body of a generated function. -/
theorem Template.exists_lead_cons (template : Template) (text : List Char) :
    ∃ c rest, template.lead.toList ++ text = c :: rest ∧ startsToken c = true := by
  have hleads : bodyLeads.all (fun lead => lead.toList.head?.any startsToken) = true := by decide
  obtain ⟨c, hhead, hc⟩ :=
    (Option.any_eq_true _ _).1 (List.all_eq_true.1 hleads _ template.lead_mem)
  obtain ⟨rest, hrest⟩ := List.head?_eq_some_iff.1 hhead
  exact ⟨c, rest ++ text, by rw [hrest, List.cons_append], hc⟩

/-- The first token of the body of a generated function. -/
theorem Template.lead_of_lexed (template : Template) {indents : List Indent} {following : List Char}
    (h : LexedAt tokens index indents (template.lead.toList ++ (template.body ++ following))) :
    (tokenAt tokens index).kind = wordToken template.lead.toList := by
  have hwords : ∀ lead ∈ bodyLeads, isWord lead = true := by decide
  obtain ⟨c, rest, hbody, hc, hquote⟩ := template.body_apart
  rw [hbody, List.cons_append] at h
  exact (h.word (hwords _ template.lead_mem) hc hquote).1

/-- The block of a generated function, up to what goes astray of it. Where the colon does not end the line, the
block ends in front of an indented line. -/
theorem Template.block_eq_ok {template : Template} {following : List Char} {g : Grammar}
    {depth fuel : Nat} {body : List Stmt} (hg : g.IsSound) (hwords : WordTokens tokens)
    (hgenerated : Generated astray roles following) {start : Nat}
    (hlexed : LexedAt tokens start [⟨0, 0⟩] ('(' :: (template.signature ++ ':' :: '\n' ::
      ("    ".toList ++ (template.lead.toList ++ (template.body ++ following))))))
    (hline : InLine tokens start index) (hstart : start ≤ index)
    (h : block g depth fuel tokens index = .ok (body, stop)) :
    (tokenAt tokens stop).kind = .indent ∨ Onward tokens (Awaits astray tokens roles) template.strays stop := by
  have hheader : IsLine AnyTokens ('(' :: (template.signature ++ ':' :: '\n' ::
      ("    ".toList ++ (template.lead.toList ++ (template.body ++ following)))))
      ("    ".toList ++ (template.lead.toList ++ (template.body ++ following))) := by
    have hcolon : Closes [] [':'] := .plain (by decide) .nil
    have hclosed := template.closes_signature.append hcolon (by rintro c ⟨⟩; decide)
    simpa [List.append_assoc] using isLine_of_closes hclosed .nil
  have hbody : ∀ last, InLine tokens start last → start ≤ last →
      (tokenAt tokens last).kind = .newline → (tokenAt tokens (last + 1)).kind = .indent
        ∧ LexedAt tokens (last + 2) [bodyIndent, ⟨0, 0⟩]
          (template.lead.toList ++ (template.body ++ following)) := by
    intro last hline hstart hlast
    have hnext := hheader.of_newline hlexed hline hstart hlast
    obtain ⟨c, tail, hcons, hc⟩ := template.exists_lead_cons (template.body ++ following)
    rw [hcons] at hnext ⊢
    exact LineAt.indent hnext hc
  cases fuel with
  | zero => cases h
  | succ fuel =>
    rw [block] at h
    by_cases hnewline : (tokenAt tokens index).kind = .newline
    · obtain ⟨hindent, hlexed'⟩ := hbody index hline hstart hnewline
      rw [bind_of_eq_ok (accept_of_eq hnewline), if_pos rfl, bind_of_eq_ok (accept_of_eq hindent),
        if_pos rfl] at h
      obtain ⟨first, middle, hfirst, h⟩ := Reads.bind_eq_ok h
      rw [statement_of_lead template.lead_mem (template.lead_of_lexed hlexed')] at hfirst
      obtain ⟨last, rfl, hindex, hline', hlast, -⟩ := simpleStatements_eq_ok hg hwords hfirst
      have hnext := (template.isLine_body following).of_newline hlexed' hline' (by omega) hlast
      obtain ⟨hdedent, honward⟩ := (template.strays_spill following).dedent hnext
        (fun _ => hgenerated.awaits) (fun _ => hgenerated.dedent)
      obtain ⟨others, middle, hothers, h⟩ := Reads.bind_eq_ok h
      have hstop : statements { g, depth, block := block g depth fuel } tokens (last + 1)
          = .ok ([], last + 1) := by
        rw [statements, bind_of_eq_ok (many_of_not_continues (by rw [hdedent]; rfl))]
        rfl
      rw [hstop] at hothers
      cases hothers
      obtain ⟨_, middle, hexpect, h⟩ := Reads.bind_eq_ok h
      obtain ⟨-, rfl⟩ := Reads.expect_eq_ok hexpect
      cases h
      exact .inr honward
    · rw [bind_of_eq_ok (accept_of_ne hnewline), if_neg Bool.false_ne_true] at h
      obtain ⟨last, rfl, hindex, hline', hlast, -⟩ := simpleStatements_eq_ok hg hwords h
      exact .inl (hbody last (hline.trans hline') (by omega) hlast).1

/-- The decorator line of a generated function, with the line behind it. -/
theorem Mark.decorator_eq_ok {g : Grammar} {value : Expr} {name : String} {mark : Mark}
    {following : List Char} (hg : g.IsSound) (hwords : WordTokens tokens) (hname : isWord name = true)
    (hlexed : LexedAt tokens (index + 1) [⟨0, 0⟩] ((mark.reference name).toList
      ++ '\n' :: ("def".toList ++ ' ' :: following)))
    (h : (do
      advance
      let value ← namedExpression g
      expect .newline
      return value : Reader Expr) tokens index = .ok (value, stop)) :
    (∃ last, namedExpression g tokens (index + 1) = .ok (value, last))
      ∧ (tokenAt tokens stop).kind = .reserved .kwDef
      ∧ LexedAt tokens (stop + 1) [⟨0, 0⟩] (' ' :: following) := by
  have hadvance : advance tokens index = .ok ((), index + 1) := rfl
  rw [bind_of_eq_ok hadvance] at h
  obtain ⟨value', last, hvalue, h⟩ := Reads.bind_eq_ok h
  obtain ⟨_, middle, hexpect, h⟩ := Reads.bind_eq_ok h
  cases h
  obtain ⟨hnewline, rfl⟩ := Reads.expect_eq_ok hexpect
  obtain ⟨hindex, hline, -⟩ := reads_namedExpression hg _ _ _ _ hwords trivial hvalue
  have hreference : IsLine AnyTokens ((mark.reference name).toList ++ '\n' :: ("def".toList ++ ' ' :: following))
      ("def".toList ++ ' ' :: following) := isLine_of_closes (isClosed_reference hname mark) .nil
  have hnext := hreference.of_newline hlexed hline (by omega) hnewline
  have hdef := LineAt.start hnext (by decide)
  obtain ⟨hkind, hdef⟩ := LexedAt.word hdef (show isWord "def" = true by decide) (by decide) (by decide)
  exact ⟨⟨last, hvalue⟩, hkind, hdef.resolve_left (by decide)⟩

theorem exists_reference_cons {name : String} (hname : isWord name = true) (mark : Mark) :
    ∃ c rest, (mark.reference name).toList = c :: rest ∧ isWordCharacter c = true := by
  cases mark with
  | property => exact ⟨'p', _, by rw [Mark.reference]; rfl, by decide⟩
  | storage => exact ⟨'c', _, by rw [Mark.reference]; rfl, by decide⟩
  | setter =>
    obtain ⟨c, rest, hcons, hc, -, -⟩ := isWord_iff.1 hname
    exact ⟨c, rest ++ ".setter".toList, by rw [Mark.reference, String.toList_append, hcons]; rfl, hc⟩

/-- The parts of a function as it is read: its header stays in one line up to its block. -/
theorem functionStatement_eq_ok {b : Blocks} {line : Nat} {isAsync : Bool} {decorators : List Expr}
    {stmt : Stmt} (hg : b.g.IsSound) (hwords : WordTokens tokens)
    (h : functionStatement b line isAsync decorators tokens index = .ok (stmt, stop)) :
    ∃ name params body returns next start,
      stmt = .function line isAsync name params body decorators returns
        ∧ Reader.name tokens (index + 1) = .ok (name, next) ∧ InLine tokens next start ∧ next ≤ start
        ∧ b.block tokens start = .ok (body, stop) := by
  obtain ⟨_, index', hdef, h⟩ := Reads.bind_eq_ok h
  obtain ⟨-, rfl⟩ := Reads.expect_eq_ok hdef
  obtain ⟨name, next, hname, h⟩ := Reads.bind_eq_ok h
  have hheader : Reads [] 0 (fun _ => True) (do
      expect (.symbol .lparen)
      let params ← parameters b.g true (.symbol .rparen)
      expect (.symbol .rparen)
      let returns ← expressionAfter b.g (.symbol .arrow)
      expect (.symbol .colon)
      return (params, returns) : Reader (Parameters × Option Expr)) :=
    .expect rfl ((reads_parameters hg).bind fun _ _ => .expect rfl
      ((reads_expressionAfter hg rfl).bind fun _ _ => .expect rfl (.pure trivial)))
  obtain ⟨_, index₁, hopen, h⟩ := Reads.bind_eq_ok h
  obtain ⟨params, index₂, hparams, h⟩ := Reads.bind_eq_ok h
  obtain ⟨_, index₃, hclose, h⟩ := Reads.bind_eq_ok h
  obtain ⟨returns, index₄, hreturns, h⟩ := Reads.bind_eq_ok h
  obtain ⟨body, stop', hsuite, h⟩ := Reads.bind_eq_ok h
  cases h
  obtain ⟨_, start, hcolon, hblock⟩ := Reads.bind_eq_ok hsuite
  have hrun := hheader tokens next (params, returns) start hwords trivial (by
    rw [bind_of_eq_ok hopen, bind_of_eq_ok hparams, bind_of_eq_ok hclose, bind_of_eq_ok hreturns,
      bind_of_eq_ok hcolon]
    rfl)
  exact ⟨name, params, body, returns, next, start, rfl, hname, hrun.2.1, by omega, hblock⟩

/-- What the statements of a module are read with. -/
def moduleBlocks (fuel : Nat) : Blocks where
  g := grammar false fuel
  depth := fuel
  block := block (grammar false fuel) fuel fuel

/-- A generated function starts with its decorator. -/
theorem Mark.at_of_lexed {mark : Mark} {name : String} {rest : List Char} {indents : List Indent}
    (hname : isWord name = true) (h : LexedAt tokens index indents (mark.opening name rest)) :
    (tokenAt tokens index).kind = .symbol (.op .matMul)
      ∧ LexedAt tokens (index + 1) indents ((mark.reference name).toList ++ '\n' ::
        ("def".toList ++ ' ' :: (name.toList ++ rest))) := by
  rw [opening] at h
  obtain ⟨c, tail, hcons, hc⟩ := exists_reference_cons hname mark
  exact h.symbol (fun reading hrest => nextToken_at (by rw [hrest, hcons]; rfl) hc) (by decide)

/-- The decorator of a generated function as it is read, and the function statement behind it. -/
theorem Mark.definition_eq_ok {mark : Mark} {name : String} {rest : List Char} {fuel : Nat} {stmt : Stmt}
    (hwords : WordTokens tokens) (hname : isWord name = true)
    (hlexed : LexedAt tokens index [⟨0, 0⟩] (mark.opening name ('(' :: rest)))
    (h : definition (moduleBlocks (fuel + 2)) tokens index = .ok (stmt, stop)) :
    ∃ middle line decorator, functionStatement (moduleBlocks (fuel + 2)) line false [decorator] tokens middle
        = .ok (stmt, stop)
      ∧ Reader.name tokens (middle + 1) = .ok (name, middle + 2)
      ∧ LexedAt tokens (middle + 2) [⟨0, 0⟩] ('(' :: rest)
      ∧ referenceName decorator = some (mark.reference name) := by
  have hg := isSound_grammar false (fuel + 2)
  obtain ⟨hat, hlexed⟩ := at_of_lexed hname hlexed
  rw [definition] at h
  obtain ⟨decorators, middle, hmany, h⟩ := Reads.bind_eq_ok h
  obtain ⟨value, hvalue, rfl⟩ := many_eq_ok_of_single hmany (by rw [hat]; rfl) (by simp [hat])
    fun value middle hvalue => by
      obtain ⟨-, hdef, -⟩ := decorator_eq_ok hg hwords hname hlexed hvalue
      rw [hdef]
      rfl
  obtain ⟨⟨last, hnamed⟩, hdef, hlexed'⟩ := decorator_eq_ok hg hwords hname hlexed hvalue
  rw [bind_of_eq_ok rfl, bind_of_eq_ok (peek_eq tokens middle), hdef] at h
  obtain ⟨found, params, body, returns, next, start, rfl, hfound, -⟩ := functionStatement_eq_ok hg hwords h
  obtain ⟨hkind, hnext⟩ := hlexed'.space.word hname (by decide) (by decide)
  obtain ⟨rfl, hword, rfl⟩ := name_eq_ok hfound hkind
  exact ⟨middle, _, value, h, hfound, hnext.resolve_left (by simp [hword]),
    reference_of_lexed hlexed hname hword hnamed⟩

/-- A generated function as it is read: it has its name and its decorator, and behind it stands what goes astray of
it, unless an indented line does. -/
theorem Template.definition_eq_ok {template : Template} {following : List Char} {fuel : Nat} {stmt : Stmt}
    (hwords : WordTokens tokens) (hgenerated : Generated astray roles following)
    (hlexed : LexedAt tokens index [⟨0, 0⟩] (template.text ++ following))
    (h : definition (moduleBlocks (fuel + 2)) tokens index = .ok (stmt, stop)) :
    heading stmt = template.role.heading
      ∧ ((tokenAt tokens stop).kind = .indent
        ∨ Onward tokens (Awaits astray tokens roles) template.strays stop) := by
  have hg := isSound_grammar false (fuel + 2)
  rw [text_append] at hlexed
  obtain ⟨middle, line, decorator, hfunction, hname, hheader, hreference⟩ :=
    Mark.definition_eq_ok hwords template.isWord_name hlexed h
  obtain ⟨name, params, body, returns, next, start, rfl, hname', hline, hstart, hblock⟩ :=
    functionStatement_eq_ok hg hwords hfunction
  rw [hname] at hname'
  cases hname'
  refine ⟨?_, block_eq_ok hg hwords hgenerated hheader hline hstart hblock⟩
  rw [heading, List.map_cons, List.map_nil, hreference]
  rfl

/-- A function whose header breaks is not read. -/
theorem Breaks.definition_ne_ok {mark : Mark} {name : String} {text : List Char} {fuel : Nat} {stmt : Stmt}
    (hbreaks : Breaks text) (hwords : WordTokens tokens) (hname : isWord name = true)
    (hlexed : LexedAt tokens index [⟨0, 0⟩] (mark.opening name ("(self) -> ".toList ++ text))) :
    definition (moduleBlocks (fuel + 2)) tokens index ≠ .ok (stmt, stop) := by
  intro h
  obtain ⟨middle, line, decorator, hfunction, -, hheader, -⟩ := Mark.definition_eq_ok hwords hname hlexed h
  exact functionStatement_of_breaks (isBalanced_grammar false (fuel + 2)).expression hbreaks hheader hfunction

/-! ## Modules -/

/-- No statement starts with an indented line. -/
theorem statement_indent {b : Blocks} {body : List Stmt} (hg : b.g.IsSound) (hwords : WordTokens tokens)
    (h : statement b tokens index = .ok (body, stop)) : (tokenAt tokens index).kind ≠ .indent := by
  intro hindent
  rw [statement, bind_of_eq_ok rfl, bind_of_eq_ok (peek_eq tokens index), hindent] at h
  obtain ⟨last, -, hindex, hline, -, -⟩ := simpleStatements_eq_ok hg hwords h
  have hinline := hline index (Nat.le_refl _) hindex
  rw [hindent] at hinline
  cases hinline

/-- One step of reading the statements of a module. -/
def statementStep (b : Blocks) (found : List (List Stmt)) : Reader (Option (List (List Stmt))) := do
  if (fun kind => kind != .dedent && kind != .finish) (← peek) then
    return some ((← statement b) :: found)
  else return none

theorem statementStep_of_continues {b : Blocks} {found : List (List Stmt)}
    (h : (tokenAt tokens index).kind ≠ .dedent) (h' : (tokenAt tokens index).kind ≠ .finish) :
    statementStep b found tokens index =
      (statement b >>= fun body => pure (some (body :: found)) : Reader _) tokens index := by
  rw [statementStep, bind_of_eq_ok (peek_eq tokens index), if_pos (by simp [h, h'])]

/-- Some statements are the functions with given roles. Where `astray` is set, expressions can stand between them. -/
inductive Presents (astray : Bool) : List Role → List Stmt → Prop where
  | nil : Presents astray [] []
  | function {role : Role} {roles : List Role} {stmt : Stmt} {stmts : List Stmt} : heading stmt = role.heading →
      Presents astray roles stmts → Presents astray (role :: roles) (stmt :: stmts)
  | stray {roles : List Role} {line : Nat} {value : Expr} {stmts : List Stmt} : astray = true →
      Presents astray roles stmts → Presents astray roles (.expr line value :: stmts)

namespace Presents

variable {stmts stmts' : List Stmt}

theorem strays {count : Nat} (h : Presents astray roles stmts) (hcount : count = 0 ∨ astray = true)
    {strays : List Stmt} (hlength : strays.length = count)
    (hstrays : ∀ stray ∈ strays, ∃ line value, stray = .expr line value) :
    Presents astray roles (strays ++ stmts) := by
  rcases hcount with rfl | hastray
  · obtain rfl := List.length_eq_zero_iff.1 hlength
    exact h
  · clear hlength
    induction strays with
    | nil => exact h
    | cons stray strays ih =>
      obtain ⟨⟨line, value, rfl⟩, hothers⟩ := List.forall_mem_cons.1 hstrays
      exact .stray hastray (ih hothers)

theorem append {roles' : List Role} (h : Presents astray roles stmts) (h' : Presents astray roles' stmts') :
    Presents astray (roles ++ roles') (stmts ++ stmts') := by
  induction h with
  | nil => exact h'
  | function hheading _ ih => exact .function hheading ih
  | stray hastray _ ih => exact .stray hastray ih

/-- Where nothing goes astray the statements are the functions. -/
theorem map_heading (h : Presents false roles stmts) : stmts.map heading = roles.map Role.heading := by
  induction h with
  | nil => rfl
  | function hheading _ ih => rw [List.map_cons, List.map_cons, hheading, ih]
  | stray hastray => cases hastray

end Presents

section Run

variable {fuel steps : Nat} {found result : List (List Stmt)}

/-- What is read from an index on, up to the end of the text. -/
def ReadsOn (tokens : Array Token) (fuel stop : Nat) (result : List (List Stmt)) (steps : Nat)
    (found : List (List Stmt)) (index : Nat) : Prop :=
  repeatUpTo (statementStep (moduleBlocks (fuel + 2))) steps found tokens index = .ok (result, stop)
    ∧ (tokenAt tokens stop).kind = .finish

/-- The first statement of what is read. -/
theorem ReadsOn.step (h : ReadsOn tokens fuel stop result steps found index)
    (hdedent : (tokenAt tokens index).kind ≠ .dedent) (hfinish : (tokenAt tokens index).kind ≠ .finish) :
    ∃ body middle steps', statement (moduleBlocks (fuel + 2)) tokens index = .ok (body, middle)
      ∧ ReadsOn tokens fuel stop result steps' (body :: found) middle := by
  obtain ⟨h, hstop⟩ := h
  cases steps with
  | zero =>
    cases h
    exact absurd hstop hfinish
  | succ steps =>
    rw [repeatUpTo] at h
    obtain ⟨next, middle, hstep, h⟩ := Reads.bind_eq_ok h
    rw [statementStep_of_continues hdedent hfinish] at hstep
    obtain ⟨body, middle', hbody, hpure⟩ := Reads.bind_eq_ok hstep
    cases hpure
    exact ⟨body, middle, steps, hbody, h, hstop⟩

/-- Lines of expressions are read one by one. -/
theorem Onward.readsOn {Q : Nat → Prop} {count : Nat} (h : Onward tokens Q count index)
    (hwords : WordTokens tokens) (hreads : ReadsOn tokens fuel stop result steps found index) :
    ∃ strays steps' found' middle, Q middle ∧ ReadsOn tokens fuel stop result steps' found' middle
      ∧ found'.reverse.flatten = found.reverse.flatten ++ strays ∧ strays.length = count
      ∧ ∀ stray ∈ strays, ∃ line value, stray = .expr line value := by
  have hg : (moduleBlocks (fuel + 2)).g.IsBalanced := isBalanced_grammar false (fuel + 2)
  induction h generalizing steps found with
  | here hQ => exact ⟨[], steps, found, _, hQ, hreads, by simp, rfl, by simp⟩
  | @line count index last kinds hspans hinline halone hnewline _ ih =>
    obtain ⟨kind, hkind, hstarts⟩ := halone.starts
    have hstarts' : (tokenAt tokens index).kind.startsExpression = true := by
      obtain ⟨kinds, rfl⟩ := List.head?_eq_some_iff.1 hkind
      rw [hspans.of_cons.1, hstarts]
    obtain ⟨body, middle, steps', hbody, hreads'⟩ := hreads.step
      (by intro h; rw [h] at hstarts'; cases hstarts') (by intro h; rw [h] at hstarts'; cases hstarts')
    obtain ⟨rfl, line, value, rfl⟩ := statement_of_bare hg rfl halone.bare hspans hinline hnewline hstarts' hbody
    obtain ⟨strays, steps'', found', middle, hQ, hreads'', hfound, hlength, hstrays⟩ := ih hreads'
    refine ⟨.expr line value :: strays, steps'', found', middle, hQ, hreads'', ?_, by simp [hlength],
      List.forall_mem_cons.2 ⟨⟨line, value, rfl⟩, hstrays⟩⟩
    simp [hfound]
  | @fault count index last kinds fault hspans hinline hstarts hfault =>
    exfalso
    have hkind : (tokenAt tokens index).kind ≠ .dedent ∧ (tokenAt tokens index).kind ≠ .finish := by
      rcases hstarts with rfl | hstarts
      · obtain rfl : last = index := hspans.2
        simp [hfault]
      · constructor <;> intro h <;> rw [h] at hstarts <;> cases hstarts
    obtain ⟨body, middle, steps', hbody, -⟩ := hreads.step hkind.1 hkind.2
    exact statement_of_fault hg (isSound_grammar false (fuel + 2)) hwords hspans hinline hfault hstarts hbody

/-- A statement that starts with a decorator is a definition. -/
theorem definition_of_statement {b : Blocks} {body : List Stmt}
    (hat : (tokenAt tokens index).kind = .symbol (.op .matMul)) (h : statement b tokens index = .ok (body, stop)) :
    ∃ stmt, body = [stmt] ∧ definition b tokens index = .ok (stmt, stop) := by
  rw [statement, bind_of_eq_ok rfl, bind_of_eq_ok (peek_eq tokens index), hat] at h
  obtain ⟨stmt, middle, hdefinition, hpure⟩ := Reads.bind_eq_ok h
  cases hpure
  exact ⟨stmt, rfl, hdefinition⟩

/-- Nothing is read over a header that breaks. -/
theorem Breaks.not_readsOn {mark : Mark} {name : String} {text : List Char} (hbreaks : Breaks text)
    (hwords : WordTokens tokens) (hname : isWord name = true)
    (hlexed : LexedAt tokens index [⟨0, 0⟩] (mark.opening name ("(self) -> ".toList ++ text))) :
    ¬ ReadsOn tokens fuel stop result steps found index := by
  intro hreads
  obtain ⟨hat, -⟩ := Mark.at_of_lexed hname hlexed
  obtain ⟨body, middle, steps', hbody, -⟩ := hreads.step (by simp [hat]) (by simp [hat])
  obtain ⟨stmt, -, hstmt⟩ := definition_of_statement hat hbody
  exact hbreaks.definition_ne_ok hwords hname hlexed hstmt

/-- Generated functions are read one by one, up to the end of the text. -/
theorem Awaits.presents (h : Awaits astray tokens roles index) (hwords : WordTokens tokens)
    (hreads : ReadsOn tokens fuel stop result steps found index) :
    ∃ stmts, result.reverse.flatten = found.reverse.flatten ++ stmts ∧ Presents astray roles stmts := by
  induction roles generalizing steps found index with
  | nil =>
    cases h with
    | finish hfinish =>
      have hnone : statementStep (moduleBlocks (fuel + 2)) found tokens index = .ok (none, index) := by
        rw [statementStep, bind_of_eq_ok (peek_eq tokens index), hfinish]
        rfl
      refine ⟨[], ?_, .nil⟩
      obtain ⟨hrun, -⟩ := hreads
      cases steps with
      | zero =>
        cases hrun
        simp
      | succ steps =>
        rw [repeatUpTo, bind_of_eq_ok hnone] at hrun
        cases hrun
        simp
    | unread hname hbreaks hlexed => exact absurd hreads (hbreaks.not_readsOn hwords hname hlexed)
  | cons role roles ih =>
    cases h with
    | @function template _ following _ hstrays hgenerated hlexed =>
      have hat : (tokenAt tokens index).kind = .symbol (.op .matMul) := by
        rw [Template.text_append] at hlexed
        exact (Mark.at_of_lexed template.isWord_name hlexed).1
      obtain ⟨body, middle, steps', hbody, hreads⟩ := hreads.step (by simp [hat]) (by simp [hat])
      obtain ⟨stmt, rfl, hstmt⟩ := definition_of_statement hat hbody
      obtain ⟨hheading, hindent | honward⟩ := Template.definition_eq_ok hwords hgenerated hlexed hstmt
      · -- No statement starts with an indented line.
        obtain ⟨body, middle', steps'', hbody', -⟩ := hreads.step (by simp [hindent]) (by simp [hindent])
        exact absurd hindent (statement_indent (isSound_grammar false (fuel + 2)) hwords hbody')
      · obtain ⟨strays, steps'', found', last, hlast, hreads', hfound, hlength, hexpr⟩ :=
          honward.readsOn hwords hreads
        obtain ⟨stmts, hstmts, hpresents⟩ := ih hlast hreads'
        refine ⟨stmt :: (strays ++ stmts), ?_, .function hheading (hpresents.strays hstrays hlength hexpr)⟩
        rw [hstmts, hfound]
        simp
    | unread hname hbreaks hlexed => exact absurd hreads (hbreaks.not_readsOn hwords hname hlexed)

end Run

/-! ## Texts -/

/-- A text without carriage returns whose last line is open has it closed. -/
theorem closedLines_of_open {text : List Char} {c : Char} (h : '\r' ∉ text ++ [c]) (hc : c ≠ '\n') :
    closedLines (text ++ [c]) = text ++ [c] ++ ['\n'] := by
  have hreturn : c ≠ '\r' := by
    rintro rfl
    exact h (by simp)
  unfold closedLines
  rw [List.reverse_append, List.reverse_singleton, List.singleton_append]
  split
  · rename_i heq
    cases heq
  · rename_i heq
    exact absurd (List.cons.inj heq).1 hc
  · rename_i heq
    exact absurd (List.cons.inj heq).1 hc
  · rename_i heq
    exact absurd (List.cons.inj heq).1 hreturn
  · rw [unifyNewlines_of_not_mem h]

/-- A text of generated functions is read as these functions. -/
theorem presents_parseModule {string : String} {body : List Stmt}
    (hgenerated : Generated astray roles (unifyNewlines string.toList)) (h : parseModule string = .ok body) :
    Presents astray roles body := by
  have hlines : Generated astray roles (closedLines string.toList) := by
    have hclosed : Generated astray roles (unifyNewlines string.toList ++ ['\n']) := by
      have hmore : Generated astray [] ['\n'] := .blank .nil
      rw [← List.append_nil roles]
      exact hgenerated.append hmore
    unfold closedLines
    split
    · rename_i hnil
      rw [List.reverse_eq_nil_iff] at hnil
      rw [hnil] at hgenerated
      exact hgenerated
    · exact hclosed
    · exact hgenerated
    · exact hgenerated
    · exact hclosed
  obtain ⟨stop, hread⟩ := readAll_eq_ok h
  generalize closedLines string.toList = text at hread hlines
  obtain ⟨body', middle, hstatements, hread⟩ := Reads.bind_eq_ok hread
  obtain ⟨_, middle', hexpect, hread⟩ := Reads.bind_eq_ok hread
  cases hread
  obtain ⟨hfinish, rfl⟩ := Reads.expect_eq_ok hexpect
  obtain ⟨found, middle', hmany, hpure⟩ := Reads.bind_eq_ok hstatements
  cases hpure
  obtain ⟨result, middle', hrepeat, hpure⟩ := Reads.bind_eq_ok hmany
  cases hpure
  have hreads : ReadsOn (tokens text) text.length middle result _ [] 0 := ⟨hrepeat, hfinish⟩
  obtain ⟨stmts, hstmts, hpresents⟩ :=
    (hlines.awaits (lineAt_tokens text)).presents (wordTokens_tokens text) hreads
  rw [hstmts]
  exact hpresents

end PropertyWrapper.Source
