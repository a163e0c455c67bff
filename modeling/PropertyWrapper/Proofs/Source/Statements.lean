import PropertyWrapper.Proofs.Source.Expressions
import PropertyWrapper.Source.Module

/-!
# Reading sound statements

A simple statement takes tokens of its line only, and the statements of a line take the whole line with
its end. All statements that are read are sound, those in blocks included.

* `reads_simpleStatement` : one statement of a line;
* `simpleStatements_eq_ok` : all statements of a line, up to its end;
* `bodySound_parseModule` : every module that is read is sound.
-/

namespace PropertyWrapper.Source

open Reader

/-! ## Assignments -/

/-- A reader of statements that stay in their line. -/
abbrev ReadsStmt (reader : Reader Stmt) : Prop := Reads [] 1 (fun stmt => stmt.isSound = true) reader

section Grammar

variable {g : Grammar}

theorem optionSound_eq (value : Option Expr) : optionSound value = value.all Expr.isSound := by
  cases value <;> rfl

theorem reads_parenthesizedPlace (hg : g.IsSound) : ReadsExpr (parenthesizedPlace g) := by
  refine .expect rfl (hg.primary.bind fun value hvalue => .expect rfl ?_)
  split
  · exact .pure hvalue
  · exact .fail

theorem reads_annotatedTail (hg : g.IsSound) {line : Nat} {target : Expr} {bare : Bool}
    (htarget : target.isSound = true) : ReadsStmt (annotatedTail g line target bare) := by
  refine .expect rfl (hg.expression.bind fun hint hhint => .accept rfl ?_ ?_)
  · refine (reads_assignedValue hg).bind fun value hvalue => .pure ?_
    simp [Stmt.isSound, htarget, hhint, hvalue]
  · refine .pure ?_
    simp [Stmt.isSound, htarget, hhint]

theorem reads_assignmentTail (hg : g.IsSound) {line : Nat} {first : Expr} :
    Reads [] 0 (fun stmt => stmt.isSound = true) (assignmentTail g line first) := by
  refine Reads.bind (P := fun _ => True) (.repeatStep (fun state _ => ?_) trivial)
    fun state _ => .pure rfl
  obtain ⟨targets, value⟩ := state
  refine .at?_known ?_ .none_of
  by_cases htarget : value.isTarget true = true
  · rw [if_pos rfl, if_pos htarget]
    exact .advance rfl ((reads_assignedValue hg).bind fun value _ => .pure (by simp))
  · rw [if_pos rfl, if_neg htarget]
    exact .fail

theorem startsTarget_looks (tokens : Array Token) (index : Nat) :
    ∃ found, startsTarget g tokens index = .ok (found, index) := by
  unfold startsTarget
  cases g.suspicious with
  | false => exact ⟨false, rfl⟩
  | true =>
    rw [if_pos rfl]
    generalize hplaces : (do let _ ← starTargets g; peek : Reader TokenKind) = places
    simp only [foresee, bind, Reader.andThen]
    refine Reads.looks_of_eq_pure ?_ tokens index
    split
    · exact .inl rfl
    · exact .inl rfl
    · exact .inl rfl
    · exact .inr rfl

theorem reads_expressionTail (hg : g.IsSound) {line : Nat} {mayAnnotate : Bool} {value : Expr}
    (hvalue : value.isSound = true) :
    Reads [] 0 (fun stmt => stmt.isSound = true) (expressionTail g line mayAnnotate value) := by
  refine .peek fun kind _ => ?_
  split
  · split
    · exact .of_nil ((reads_annotatedTail hg hvalue).weaken (by omega) fun _ h => h)
    · exact .fail
  · exact .of_nil (reads_assignmentTail hg)
  · split
    · exact .advance rfl ((reads_assignedValue hg).bind fun value _ => .pure rfl)
    · exact .fail
  · exact .pure rfl

theorem reads_expressionStatement (hg : g.IsSound) : ReadsStmt (expressionStatement g) := by
  refine .here fun pos => .peek fun kind hkind => .ahead fun kind' => ?_
  split
  · rename_i id
    have hname : (Expr.name pos id).isSound = true := hkind id rfl
    exact .advance rfl (.of_nil ((reads_annotatedTail hg hname).weaken (by omega) fun _ h => h))
  · refine .foresee fun place => ?_
    split
    · refine .of_nil ((reads_parenthesizedPlace hg).bind fun target htarget => ?_)
      exact (reads_annotatedTail hg htarget).weaken (by omega) fun _ h => h
    · refine .look startsTarget_looks fun b => .of_nil ?_
      cases b
      · exact (reads_assignedValue hg).bind fun _ hvalue => reads_expressionTail hg hvalue
      · exact (reads_starTargets hg).bind fun _ hvalue => reads_expressionTail hg hvalue

/-! ## Simple statements -/

theorem reads_dottedName : Reads [] 1 (fun _ => True) dottedName :=
  (Reads.separatedBy rfl Reads.name).bind fun _ _ => .pure trivial

theorem reads_boundName : Reads [] 0 (fun _ => True) boundName :=
  .accept rfl (Reads.name.bind fun _ _ => .pure trivial) (.pure trivial)

theorem reads_leadingDots : Reads [] 0 (fun _ => True) leadingDots := by
  refine .repeatStep (fun count _ => ?_) trivial
  exact .accept rfl (.pure (by simp)) (.accept rfl (.pure (by simp)) .none_of)

theorem reads_importedName : Reads [] 1 (fun _ => True) importedName :=
  Reads.name.bind fun _ _ => reads_boundName.bind fun _ _ => .pure trivial

theorem reads_importedNames : Reads [] 0 (fun _ => True) importedNames := by
  refine .peek fun kind _ => ?_
  split
  · exact .advance rfl (.pure trivial)
  · refine .advance rfl ((Reads.commaList reads_importedName).bind fun names _ => .expect rfl ?_)
    split
    · exact .fail
    · exact .pure trivial
  · exact .of_nil ((Reads.separatedBy rfl reads_importedName).weaken (by omega) fun _ _ => trivial)

theorem reads_importStatement {line : Nat} {kind : TokenKind} (hkind : kind.isInline = true) :
    Reads [kind] 1 (fun stmt => stmt.isSound = true) (importStatement line) := by
  refine .advance hkind ((Reads.separatedBy (P := fun _ => True) rfl ?_).bind fun names _ => .pure rfl)
  exact reads_dottedName.bind fun _ _ => reads_boundName.bind fun _ _ => .pure trivial

theorem reads_importFromStatement {line : Nat} {kind : TokenKind} (hkind : kind.isInline = true) :
    Reads [kind] 1 (fun stmt => stmt.isSound = true) (importFromStatement line) := by
  have hend : ∀ (level : Nat) (module : Option String), Reads [] 0 (fun stmt => stmt.isSound = true) (do
      expect (.reserved .kwImport)
      return Stmt.importFrom line level module (← importedNames)) :=
    fun level module => .expect rfl (reads_importedNames.bind fun _ _ => .pure rfl)
  refine .advance hkind (reads_leadingDots.bind fun level _ => .peek fun kind _ => .of_nil ?_)
  split
  · exact reads_dottedName.bind fun _ _ => hend _ _
  · split
    · exact .fail
    · exact hend _ _

theorem reads_expression? (hg : g.IsSound) :
    Reads [] 0 (fun value => optionSound value = true) (expression? g) := by
  refine .peek fun kind _ => ?_
  split
  · exact (Reads.of_nil hg.expression).bind fun value hvalue => .pure hvalue
  · exact .pure rfl

theorem reads_expressionAfter (hg : g.IsSound) {kind : TokenKind} (hkind : kind.isInline = true) :
    Reads [] 0 (fun value => optionSound value = true) (expressionAfter g kind) :=
  .accept hkind (hg.expression.bind fun _ hvalue => .pure hvalue) (.pure rfl)

theorem reads_deleteStatement (hg : g.IsSound) {line : Nat} {kind : TokenKind}
    (hkind : kind.isInline = true) :
    Reads [kind] 1 (fun stmt => stmt.isSound = true) (deleteStatement g line) := by
  refine .advance hkind ((Reads.commaList (P := fun _ => True) ?_).bind fun targets _ => ?_)
  · refine hg.primary.bind fun value _ => ?_
    split
    · exact .pure trivial
    · exact .fail
  · split
    · exact .fail
    · exact .pure rfl

/-- A simple statement takes tokens of its line only. -/
theorem reads_simpleStatement (hg : g.IsSound) : ReadsStmt (simpleStatement g) := by
  refine .here fun pos => .peek fun kind _ => ?_
  split
  · refine .advance rfl (.peek fun kind _ => ?_)
    split
    · exact .of_nil ((reads_starExpressions hg).bind fun _ _ => .pure rfl)
    · exact .pure rfl
  · exact reads_importStatement rfl
  · exact reads_importFromStatement rfl
  · refine .advance rfl ((reads_expression? hg).bind fun exception _ => ?_)
    split
    · exact .pure rfl
    · exact (reads_expressionAfter hg rfl).bind fun _ _ => .pure rfl
  · exact .advance rfl (.pure rfl)
  · exact .advance rfl (.pure rfl)
  · exact .advance rfl (.pure rfl)
  · exact reads_deleteStatement hg rfl
  · refine .advance rfl (hg.expression.bind fun _ _ => ?_)
    exact (reads_expressionAfter hg rfl).bind fun _ _ => .pure rfl
  · exact .advance rfl ((Reads.separatedBy rfl Reads.name).bind fun _ _ => .pure rfl)
  · exact .advance rfl ((Reads.separatedBy rfl Reads.name).bind fun _ _ => .pure rfl)
  · exact .of_nil (reads_expressionStatement hg)

/-- The simple statements of a line take the whole line with its end. -/
theorem simpleStatements_eq_ok (hg : g.IsSound) {tokens : Array Token} {index stop : Nat}
    {body : List Stmt} (hwords : WordTokens tokens)
    (h : simpleStatements g tokens index = .ok (body, stop)) :
    ∃ last, stop = last + 1 ∧ index < last ∧ InLine tokens index last
      ∧ (tokenAt tokens last).kind = .newline ∧ bodySound body = true := by
  obtain ⟨first, middle, hfirst, h⟩ := Reads.bind_eq_ok h
  obtain ⟨rest, last, hrest, h⟩ := Reads.bind_eq_ok h
  obtain ⟨_, stop', hnewline, h⟩ := Reads.bind_eq_ok h
  cases h
  obtain ⟨hlast, rfl⟩ := Reads.expect_eq_ok hnewline
  obtain ⟨hindex, hline, hsound⟩ := reads_simpleStatement hg _ _ _ _ hwords trivial hfirst
  have hreads : Reads [] 0 (fun rest : List Stmt => bodySound rest = true)
      (repeatStep (fun rest : List Stmt => do
        if ← accept (.symbol .semicolon) then
          if ← at? .newline then return none else return some ((← simpleStatement g) :: rest)
        else return none) []) := by
    refine .repeatStep (fun rest hrest => .accept rfl (.at? fun b => ?_) .none_of) rfl
    cases b
    · refine (reads_simpleStatement hg).bind fun stmt hstmt => .pure ?_
      rintro _ ⟨⟩
      rw [bodySound, hstmt, hrest]
      rfl
    · exact .none_of
  obtain ⟨hindex', hline', hsound'⟩ := hreads _ _ _ _ hwords trivial hrest
  refine ⟨last, rfl, by omega, hline.trans hline', hlast, ?_⟩
  rw [bodySound, hsound, bodySound_eq, List.all_reverse, ← bodySound_eq, hsound']
  rfl

end Grammar

/-! ## Compound statements -/

/-- A reader of sound statements. -/
abbrev YieldsStmt (reader : Reader Stmt) : Prop := Yields WordTokens (fun stmt => stmt.isSound = true) reader

/-- A reader of sound blocks. -/
abbrev YieldsBody (reader : Reader (List Stmt)) : Prop :=
  Yields WordTokens (fun body => bodySound body = true) reader

/-- The readers that compound statements need give sound trees. -/
structure Blocks.IsSound (b : Blocks) : Prop where
  g : b.g.IsSound
  block : YieldsBody b.block

theorem yields_simpleStatements {g : Grammar} (hg : g.IsSound) : YieldsBody (simpleStatements g) := by
  intro tokens index body stop hwords h
  obtain ⟨last, -, -, -, -, hbody⟩ := simpleStatements_eq_ok hg hwords h
  exact hbody

section Blocks

variable {b : Blocks}

theorem yields_suite (hb : b.IsSound) : YieldsBody b.suite := .skip fun _ => hb.block

theorem yields_sectionAfter (hb : b.IsSound) (word : Reserved) : YieldsBody (b.sectionAfter word) := by
  refine .skip fun found => ?_
  split
  · exact yields_suite hb
  · exact .pure rfl

theorem yields_branchStatement (hb : b.IsSound) {line : Nat} : YieldsStmt (branchStatement b line) := by
  refine .skip fun _ => .skip fun test => (yields_suite hb).bind fun body hbody => ?_
  refine (Yields.many (P := fun step : Nat × Expr × List Stmt => bodySound step.2.2 = true) ?_).bind
    fun chain hchain => (yields_sectionAfter hb _).bind fun orelse horelse => .pure ?_
  · refine .skip fun _ => .skip fun _ => .skip fun test => ?_
    exact (yields_suite hb).bind fun body hbody => .pure hbody
  · have hfold : bodySound (chain.foldr (fun step orelse =>
        [Stmt.branch step.1 step.2.1 step.2.2 orelse]) orelse) = true := by
      induction chain with
      | nil => exact horelse
      | cons step chain ih =>
        rw [List.foldr_cons]
        simp [bodySound, Stmt.isSound, hchain step (by simp), ih fun step h => hchain step (by simp [h])]
    rw [Stmt.isSound, hbody, hfold]
    rfl

theorem yields_whileStatement (hb : b.IsSound) {line : Nat} : YieldsStmt (whileStatement b line) := by
  refine .skip fun _ => .skip fun test => (yields_suite hb).bind fun body hbody => ?_
  refine (yields_sectionAfter hb _).bind fun orelse horelse => .pure ?_
  rw [Stmt.isSound, hbody, horelse]
  rfl

theorem yields_forStatement (hb : b.IsSound) {line : Nat} {isAsync : Bool} :
    YieldsStmt (forStatement b line isAsync) := by
  refine .skip fun _ => .skip fun target => .skip fun _ => .skip fun iterable => ?_
  refine (yields_suite hb).bind fun body hbody => ?_
  refine (yields_sectionAfter hb _).bind fun orelse horelse => .pure ?_
  rw [Stmt.isSound, hbody, horelse]
  rfl

theorem yields_withStatement (hb : b.IsSound) {line : Nat} {isAsync : Bool} :
    YieldsStmt (withStatement b line isAsync) :=
  .skip fun _ => .skip fun _ => (yields_suite hb).bind fun _ hbody => .pure hbody

theorem yields_handler (hb : b.IsSound) {isGroup : Bool} :
    Yields WordTokens (fun handler => handler.isSound = true) (handler b isGroup) := by
  refine .skip fun _ => ?_
  split
  · refine .skip fun _ => .skip fun _ => .skip fun _ => ?_
    exact (yields_suite hb).bind fun _ hbody => .pure hbody
  · refine .skip fun exception => ?_
    split
    · exact (yields_suite hb).bind fun _ hbody => .pure hbody
    · exact .skip fun _ => (yields_suite hb).bind fun _ hbody => .pure hbody

theorem yields_handlers (hb : b.IsSound) {isGroup : Bool} :
    Yields WordTokens (fun found => handlersSound found = true) (handlers b isGroup) := by
  have hmany : Yields WordTokens (fun found => ∀ handler ∈ found, handler.isSound = true)
      (handlers b isGroup) := by
    refine .many (.skip fun kind => ?_)
    split
    · exact yields_handler hb
    · exact .misformed
  intro tokens index found stop hwords h
  rw [handlersSound_eq, List.all_eq_true]
  exact hmany tokens index found stop hwords h

theorem yields_tryStatement (hb : b.IsSound) {line : Nat} : YieldsStmt (tryStatement b line) := by
  refine .skip fun _ => (yields_suite hb).bind fun body hbody => .skip fun kind => ?_
  split
  · refine .skip fun kind => (yields_handlers hb).bind fun found hfound => ?_
    refine (yields_sectionAfter hb _).bind fun orelse horelse => ?_
    refine (yields_sectionAfter hb _).bind fun final hfinal => .pure ?_
    rw [Stmt.isSound, hbody, hfound, horelse, hfinal]
    rfl
  · refine .skip fun _ => (yields_suite hb).bind fun final hfinal => .pure ?_
    rw [Stmt.isSound, hbody, hfinal]
    rfl
  · exact .failMisformed

theorem yields_functionStatement (hb : b.IsSound) {line : Nat} {isAsync : Bool}
    {decorators : List Expr} (hdecorators : ∀ e ∈ decorators, e.isSound = true) :
    YieldsStmt (functionStatement b line isAsync decorators) := by
  refine .skip fun _ => (Yields.of_reads Reads.name).bind fun name hname => .skip fun _ => ?_
  refine .skip fun params => .skip fun _ => ?_
  refine (Yields.of_reads (reads_expressionAfter hb.g rfl)).bind fun returns hreturns => ?_
  refine (yields_suite hb).bind fun body hbody => .pure ?_
  rw [Stmt.isSound, hname, hbody, List.all_eq_true.2 hdecorators, ← optionSound_eq, hreturns]
  rfl

theorem yields_classStatement (hb : b.IsSound) {line : Nat} {decorators : List Expr}
    (hdecorators : ∀ e ∈ decorators, e.isSound = true) :
    YieldsStmt (classStatement b line decorators) := by
  refine .skip fun _ => (Yields.of_reads Reads.name).bind fun name hname => .skip fun found => ?_
  have hend : ∀ bases keywords, YieldsStmt (do
      return .classDef line name bases keywords (← b.suite) decorators) := by
    refine fun bases keywords => (yields_suite hb).bind fun body hbody => .pure ?_
    rw [Stmt.isSound, hname, hbody, List.all_eq_true.2 hdecorators]
    rfl
  cases found
  · exact hend _ _
  · exact .skip fun found => hend _ _

theorem yields_definition (hb : b.IsSound) : YieldsStmt (definition b) := by
  refine (Yields.many (P := fun e : Expr => e.isSound = true) ?_).bind fun decorators hdecorators =>
    .skip fun pos => .skip fun kind => ?_
  · refine .skip fun _ => (Yields.of_reads (reads_namedExpression hb.g)).bind fun value hvalue => ?_
    exact .skip fun _ => .pure hvalue
  · split
    · exact yields_classStatement hb hdecorators
    · exact yields_functionStatement hb hdecorators
    · exact .skip fun _ => yields_functionStatement hb hdecorators
    · exact .fail

theorem yields_asyncStatement (hb : b.IsSound) {line : Nat} : YieldsStmt (asyncStatement b line) := by
  refine .skip fun kind => ?_
  split
  · exact .skip fun _ => yields_forStatement hb
  · exact .skip fun _ => yields_withStatement hb
  · exact yields_definition hb

theorem yields_matchStatement (hb : b.IsSound) {line : Nat} : YieldsBody (matchStatement b line) := by
  refine .skip fun isMatch => ?_
  split
  · exact .skip fun subject => .skip fun cases => .pure rfl
  · exact .orElse (.skip fun _ => .fail) (yields_simpleStatements hb.g)

theorem bodySound_singleton {stmt : Stmt} (h : stmt.isSound = true) : bodySound [stmt] = true := by
  rw [bodySound, h]
  rfl

theorem yields_statement (hb : b.IsSound) : YieldsBody (statement b) := by
  have hsingle : ∀ {reader : Reader Stmt}, YieldsStmt reader →
      YieldsBody (do return [← reader]) :=
    fun h => h.bind fun _ hstmt => .pure (bodySound_singleton hstmt)
  refine .skip fun pos => .skip fun kind => ?_
  split
  · exact hsingle (yields_branchStatement hb)
  · exact hsingle (yields_whileStatement hb)
  · exact hsingle (yields_forStatement hb)
  · exact hsingle (yields_withStatement hb)
  · exact hsingle (yields_tryStatement hb)
  · exact hsingle (yields_asyncStatement hb)
  · exact hsingle (yields_definition hb)
  · exact hsingle (yields_definition hb)
  · exact hsingle (yields_definition hb)
  · exact yields_matchStatement hb
  · exact yields_simpleStatements hb.g

theorem bodySound_append {body body' : List Stmt} (h : bodySound body = true)
    (h' : bodySound body' = true) : bodySound (body ++ body') = true := by
  rw [bodySound_eq, List.all_append, ← bodySound_eq, ← bodySound_eq, h, h']
  rfl

theorem bodySound_flatten {bodies : List (List Stmt)} (h : ∀ body ∈ bodies, bodySound body = true) :
    bodySound bodies.flatten = true := by
  induction bodies with
  | nil => rfl
  | cons body bodies ih =>
    rw [List.flatten_cons]
    exact bodySound_append (h body (by simp)) (ih fun body hbody => h body (by simp [hbody]))

theorem yields_statements (hb : b.IsSound) : YieldsBody (statements b) :=
  (Yields.many (yields_statement hb)).bind fun _ hfound => .pure (bodySound_flatten hfound)

end Blocks

/-- Blocks are sound at any depth. -/
theorem yields_block {g : Grammar} (hg : g.IsSound) (depth fuel : Nat) :
    YieldsBody (block g depth fuel) := by
  induction fuel with
  | zero => exact .fail
  | succ fuel ih =>
    refine .skip fun found => ?_
    cases found
    · exact yields_simpleStatements hg
    · refine .skip fun found => ?_
      cases found
      · exact .failBlock
      · have hb : Blocks.IsSound { g, depth, block := block g depth fuel } := ⟨hg, ih⟩
        refine (yields_statement hb).bind fun first hfirst => ?_
        refine (yields_statements hb).bind fun rest hrest => .skip fun _ => .pure ?_
        exact bodySound_append hfirst hrest

/-! ## Modules -/

theorem readAll_eq_ok {α : Type} {reader : Bool → Nat → Reader α} {text : List Char} {a : α}
    (h : readAll reader text = .ok a) :
    ∃ stop, reader false (text.length + 2) (tokens text) 0 = .ok (a, stop) := by
  unfold readAll readAllWith at h
  split at h
  · cases h
  · dsimp only at h
    split at h
    · rename_i stop heq
      cases h
      exact ⟨_, heq⟩
    · split at h <;> cases h

/-- Every module that is read is sound. -/
theorem bodySound_parseModule {source : String} {body : List Stmt}
    (h : parseModule source = .ok body) : bodySound body = true := by
  obtain ⟨stop, hread⟩ := readAll_eq_ok h
  have hg := isSound_grammar false ((Text.closedLines source.toList).length + 2)
  have hmodule : YieldsBody
      (moduleReader false ((Text.closedLines source.toList).length + 2)) :=
    (yields_statements ⟨hg, yields_block hg _ _⟩).bind fun body hbody => .skip fun _ => .pure hbody
  exact hmodule _ _ _ _ (wordTokens_tokens _) hread

end PropertyWrapper.Source
