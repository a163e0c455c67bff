import PropertyWrapper.Proofs.Source.Balanced
import PropertyWrapper.Proofs.Source.Operands
import PropertyWrapper.Proofs.Source.Statements

/-!
# Lines of a single expression

A line whose tokens start like an expression, and that has no colon, sign of equality or semicolon outside of its
brackets, is read as an expression on its own.

* `Bare` : no token between expressions stands outside of all brackets;
* `bare_of_scan`, `bare_applied` : the tokens of an expression, and those of a call;
* `Bare.stops` : a reader of expressions stops at the end of the line, or in front of no such token;
* `statement_of_bare` : the statement of such a line.
-/

namespace PropertyWrapper.Source

open Reader

/-! ## Depths -/

/-- The levels of brackets are as many as brackets are open. -/
theorem deepen_of_step {s s' : Scan} {kind : TokenKind} (h : s.step kind = some s') :
    kind.deepen s.levels.outer.length = some s'.levels.outer.length := by
  cases hopens : kind.opens with
  | true =>
    rw [step_of_opens hopens] at h
    cases h
    simp [TokenKind.deepen, hopens, Levels.push]
  | false =>
    cases hcloses : kind.closes with
    | true =>
      rw [step_of_closes hcloses] at h
      obtain ⟨⟨inner, outer⟩, last⟩ := s
      cases outer with
      | nil => cases h
      | cons level outer =>
        cases h
        simp [TokenKind.deepen, hopens, hcloses, Levels.pop]
    | false =>
      rw [TokenKind.deepen, if_neg (by simp [hopens]), if_neg (by simp [hcloses])]
      unfold Scan.step at h
      split at h
      all_goals first | exact absurd hopens (by decide) | exact absurd hcloses (by decide) | skip
      all_goals first
        | (cases h; rfl)
        | (split at h
           · cases h
             rfl
           · cases h)
        | (split at h
           · cases h
           · cases h
             rfl)

theorem deepens_of_scan {kinds : List TokenKind} {s s' : Scan} (h : scan kinds s = some s') :
    deepens kinds s.levels.outer.length = some s'.levels.outer.length := by
  induction kinds generalizing s with
  | nil =>
    cases h
    rfl
  | cons kind kinds ih =>
    rw [scan_cons] at h
    obtain ⟨middle, hstep, hscan⟩ := Option.bind_eq_some_iff.1 h
    rw [deepens_cons, deepen_of_step hstep, Option.bind_some, ih hscan]

/-- With one more bracket around, one more is open behind tokens. -/
theorem deepens_succ {kinds : List TokenKind} {depth found : Nat} (h : deepens kinds depth = some found) :
    deepens kinds (depth + 1) = some (found + 1) := by
  induction kinds generalizing depth with
  | nil =>
    cases h
    rfl
  | cons kind kinds ih =>
    rw [deepens_cons] at h ⊢
    obtain ⟨middle, hkind, hrest⟩ := Option.bind_eq_some_iff.1 h
    have hdeeper : kind.deepen (depth + 1) = some (middle + 1) := by
      unfold TokenKind.deepen at hkind ⊢
      split at hkind
      · rename_i hopens
        cases hkind
        rw [if_pos hopens]
      · rename_i hopens
        rw [if_neg hopens]
        split at hkind
        · rename_i hcloses
          rw [if_pos hcloses]
          split at hkind
          · cases hkind
          · rename_i hpos
            cases hkind
            rw [if_neg (Nat.succ_ne_zero depth)]
            congr 1
            omega
        · rename_i hcloses
          cases hkind
          rw [if_neg hcloses]
    rw [hdeeper, Option.bind_some, ih hrest]

/-! ## Tokens between expressions -/

/-- Whether a token divides a statement into expressions, or divides statements of a line. -/
def TokenKind.divides : TokenKind → Bool
  | .symbol .colon | .symbol .assign | .symbol .semicolon | .symbol (.augmented _) => true
  | _ => false

/-- No token that divides a statement stands outside of all brackets. -/
def Bare (kinds : List TokenKind) : Prop :=
  ∀ front kind back s, kinds = front ++ kind :: back → scan front {} = some s → s.levels = {} →
    kind.divides = false

/-- Outside of all brackets no token in an expression divides a statement. -/
theorem divides_of_step {s s' : Scan} {kind : TokenKind} (h : s.step kind = some s') (hs : s.levels = {}) :
    kind.divides = false := by
  rw [Bool.eq_false_iff]
  intro hdivides
  obtain ⟨levels, last⟩ := s
  obtain rfl : levels = {} := hs
  unfold TokenKind.divides at hdivides
  split at hdivides
  · cases h
  · cases h
  · cases h
  · cases h
  · cases hdivides

/-- The tokens of an expression are bare. -/
theorem bare_of_scan {kinds : List TokenKind} {s : Scan} (h : scan kinds {} = some s) : Bare kinds := by
  rintro front kind back s' rfl hfront hlevels
  rw [scan_append, hfront, Option.bind_some, scan_cons] at h
  obtain ⟨middle, hstep, -⟩ := Option.bind_eq_some_iff.1 h
  exact divides_of_step hstep hlevels

/-- The tokens of an expression in front of brackets are bare, whatever tokens stand in the brackets. -/
theorem bare_applied {kinds args : List TokenKind} {s : Scan} (h : scan kinds {} = some s)
    (hlevels : s.levels = {}) (hargs : deepens args 0 = some 0) :
    Bare (kinds ++ .symbol .lparen :: (args ++ [.symbol .rparen])) := by
  intro front kind back s' hsplit hfront hlevels'
  rcases List.append_eq_append_iff.1 hsplit with ⟨inner, rfl, hrest⟩ | ⟨left, rfl, hrest⟩
  · cases inner with
    | nil =>
      obtain ⟨rfl, -⟩ := List.cons.inj hrest
      rfl
    | cons first inner =>
      obtain ⟨rfl, hinner⟩ := List.cons.inj hrest
      -- One bracket is open in front of the arguments, so at least one is open behind some of them.
      have hdepth : deepens inner 1 = some 0 := by
        rw [scan_append, h, Option.bind_some] at hfront
        have hdeepens := deepens_of_scan hfront
        rw [hlevels, hlevels', deepens_cons] at hdeepens
        exact hdeepens
      have hpartial : ∀ rest, args = inner ++ rest → False := by
        rintro rest rfl
        rw [deepens, List.foldlM_append] at hargs
        obtain ⟨found, hfound, -⟩ := Option.bind_eq_some_iff.1 hargs
        have hsucc := deepens_succ hfound
        rw [Nat.zero_add, hdepth] at hsucc
        cases hsucc
      rcases List.append_eq_append_iff.1 hinner with ⟨more, rfl, hmore⟩ | ⟨left, rfl, hleft⟩
      · cases more with
        | nil =>
          obtain ⟨rfl, -⟩ := List.cons.inj hmore
          rfl
        | cons _ more => exact absurd (List.cons.inj hmore).2 (by simp)
      · exact (hpartial left rfl).elim
  · cases left with
    | nil =>
      obtain ⟨rfl, -⟩ := List.cons.inj hrest
      rfl
    | cons first left =>
      obtain ⟨rfl, -⟩ := List.cons.inj hrest
      exact bare_of_scan h front kind left s' rfl hfront hlevels'

/-! ## Reading -/

section Reading

variable {tokens : Array Token} {index stop middle : Nat} {kinds : List TokenKind}

/-- A reader of expressions stops in front of the first token that is foreign to expressions, and there in front of
no token that divides a statement. -/
theorem Bare.stops {α : Type} {reader : Reader α} {a : α} (hbare : Bare kinds)
    (hspans : Spans tokens index stop kinds) (hforeign : (tokenAt tokens stop).kind.isForeign = true)
    (hreader : Balances reader) (h : reader tokens index = .ok (a, middle)) :
    index ≤ middle ∧ middle ≤ stop ∧ (middle = stop ∨ (tokenAt tokens middle).kind.divides = false) := by
  obtain ⟨kinds', hspans', hscan⟩ := hreader tokens index a middle trivial h
  obtain ⟨s, hs, hlevels⟩ := hscan {} trivial
  have hle : middle ≤ stop := by
    by_contra hlt
    obtain ⟨rest, rfl⟩ := hspans.exists_append hspans' (by omega)
    cases rest with
    | nil =>
      rw [List.append_nil] at hspans'
      have hstop := hspans.2
      have hmiddle := hspans'.2
      omega
    | cons kind rest =>
      -- The foreign token would be one of the expression.
      have hkind := (hspans'.of_append.2).of_cons.1
      rw [← hspans.2] at hkind
      rw [hkind, isForeign_of_scan hs kind (by simp)] at hforeign
      cases hforeign
  refine ⟨by rw [hspans'.2]; omega, hle, ?_⟩
  obtain ⟨rest, rfl⟩ := hspans'.exists_append hspans hle
  cases rest with
  | nil => exact .inl (by rw [hspans'.2, hspans.2, List.append_nil])
  | cons kind rest =>
    have hkind := (hspans.of_append.2).of_cons.1
    rw [hspans'.2, hkind]
    exact .inr (hbare kinds' kind rest s rfl hs hlevels)

theorem Bare.stops_of_newline {α : Type} {reader : Reader α} {a : α} (hbare : Bare kinds)
    (hspans : Spans tokens index stop kinds) (hnewline : (tokenAt tokens stop).kind = .newline)
    (hreader : Balances reader) (h : reader tokens index = .ok (a, middle)) :
    index ≤ middle ∧ middle ≤ stop ∧ (tokenAt tokens middle).kind.divides = false := by
  obtain ⟨hindex, hle, hdivides⟩ := hbare.stops hspans (by rw [hnewline]; rfl) hreader h
  refine ⟨hindex, hle, ?_⟩
  rcases hdivides with rfl | hdivides
  · rw [hnewline]
    rfl
  · exact hdivides

variable {g : Grammar}

theorem balances_assignedValue (hg : g.IsBalanced) : Balances (assignedValue g) := by
  refine .at? fun found => ?_
  split
  · exact balances_yieldExpression hg
  · exact balances_starExpressions hg

/-- A place in parentheses leaves open brackets as they are. -/
theorem balances_parenthesizedPlace (hg : g.IsBalanced) : Balances (parenthesizedPlace g) := by
  have hinner : Moves Opened Levels.pop [] (do
      let value ← g.primary
      expect (.symbol .rparen)
      if value.isPlace then return value else fail : Reader Expr) := by
    refine hg.primary.of_anywhere.bind fun value => .expect_closing rfl ?_
    split
    · exact .pure
    · exact .fail
  exact .expect_step (fun s _ => ⟨_, rfl, s.levels.opened_push, rfl⟩) hinner

/-- What is foreseen would be read. -/
theorem foresee_eq_some {α : Type} {reader : Reader α} {a : α} {tokens : Array Token} {index stop : Nat}
    (h : foresee reader tokens index = .ok (some a, stop)) : ∃ last, reader tokens index = .ok (a, last) := by
  have hvalue := congrArg Prod.fst (Except.ok.inj h)
  cases hrun : reader tokens index with
  | error failure =>
    rw [hrun] at hvalue
    cases hvalue
  | ok result =>
    rw [hrun] at hvalue
    obtain rfl : result.1 = a := Option.some.inj hvalue
    exact ⟨result.2, rfl⟩

/-- What follows an expression in front of a token that divides no statement is nothing. -/
theorem expressionTail_eq {line : Nat} {mayAnnotate : Bool} {value : Expr}
    (h : (tokenAt tokens index).kind.divides = false) :
    expressionTail g line mayAnnotate value tokens index = .ok (.expr line value, index) := by
  rw [expressionTail, bind_of_eq_ok (peek_eq tokens index)]
  revert h
  generalize (tokenAt tokens index).kind = kind
  intro h
  cases kind with
  | symbol symbol => cases symbol <;> first | rfl | cases h
  | _ => rfl

/-- A bare line that starts like an expression is an expression on its own. -/
theorem expressionStatement_of_bare {stmt : Stmt} (hg : g.IsBalanced) (hcertain : g.suspicious = false)
    (hbare : Bare kinds) (hspans : Spans tokens index stop kinds)
    (hnewline : (tokenAt tokens stop).kind = .newline)
    (h : expressionStatement g tokens index = .ok (stmt, middle)) :
    index ≤ middle ∧ middle ≤ stop ∧ (tokenAt tokens middle).kind.divides = false
      ∧ ∃ line value, stmt = .expr line value := by
  have hpeek : ∀ kind, (tokenAt tokens index).kind = kind → kind ≠ .newline →
      ∃ rest, kinds = kind :: rest := by
    rintro kind hkind hne
    cases kinds with
    | nil =>
      obtain rfl : stop = index := hspans.2
      exact absurd (hkind.symm.trans hnewline) hne
    | cons first rest =>
      obtain rfl : kind = first := hkind.symm.trans hspans.of_cons.1
      exact ⟨rest, rfl⟩
  have hcolon : ∀ id, (tokenAt tokens index).kind = .name id →
      (tokenAt tokens (index + 1)).kind ≠ .symbol .colon := by
    intro id hname hcolon
    obtain ⟨rest, rfl⟩ := hpeek _ hname (by simp)
    cases rest with
    | nil =>
      have hstop : stop = index + 1 := hspans.2
      rw [← hstop, hnewline] at hcolon
      cases hcolon
    | cons next rest =>
      obtain rfl : next = .symbol .colon := hspans.of_cons.2.of_cons.1.symm.trans hcolon
      have hdivides := hbare [.name id] (.symbol .colon) rest _ rfl rfl rfl
      cases hdivides
  rw [expressionStatement, bind_of_eq_ok rfl, bind_of_eq_ok (peek_eq tokens index),
    bind_of_eq_ok (ahead_eq 1 tokens index)] at h
  revert h hcolon
  generalize (tokenAt tokens index).kind = first
  generalize (tokenAt tokens (index + 1)).kind = next
  intro h hcolon
  split at h
  · exact absurd rfl (hcolon _ rfl)
  · obtain ⟨place, index', hplace, h⟩ := Reads.bind_eq_ok h
    obtain rfl : index = index' := congrArg Prod.snd (Except.ok.inj hplace)
    split at h
    · rename_i htrue
      -- A place in front of a colon would be followed by a token that divides the statement.
      exfalso
      rw [htrue] at hplace
      obtain ⟨last, hrun⟩ := foresee_eq_some hplace
      obtain ⟨value, last', hvalue, hat⟩ := Reads.bind_eq_ok hrun
      have hdivides := (hbare.stops_of_newline hspans hnewline (balances_parenthesizedPlace hg) hvalue).2.2
      have hkind : (tokenAt tokens last').kind = .symbol .colon :=
        of_decide_eq_true (congrArg Prod.fst (Except.ok.inj hat))
      rw [hkind] at hdivides
      cases hdivides
    · obtain ⟨starts, index'', hstarts, h⟩ := Reads.bind_eq_ok h
      rw [startsTarget, hcertain, if_neg Bool.false_ne_true] at hstarts
      cases hstarts
      rw [if_neg Bool.false_ne_true] at h
      obtain ⟨value, last, hvalue, h⟩ := Reads.bind_eq_ok h
      obtain ⟨hindex, hle, hdivides⟩ := hbare.stops_of_newline hspans hnewline (balances_assignedValue hg) hvalue
      have htail := (expressionTail_eq hdivides).symm.trans h
      cases htail
      exact ⟨hindex, hle, hdivides, _, _, rfl⟩

theorem simpleStatement_of_startsExpression (h : (tokenAt tokens index).kind.startsExpression = true) :
    simpleStatement g tokens index = expressionStatement g tokens index := by
  rw [simpleStatement, bind_of_eq_ok rfl, bind_of_eq_ok (peek_eq tokens index)]
  revert h
  generalize (tokenAt tokens index).kind = kind
  intro h
  cases kind with
  | reserved word => cases word <;> first | rfl | cases h
  | _ => rfl

/-- The statements of a bare line that starts like an expression. -/
theorem simpleStatements_of_bare {body : List Stmt} (hg : g.IsBalanced) (hcertain : g.suspicious = false)
    (hbare : Bare kinds) (hspans : Spans tokens index stop kinds)
    (hinline : ∀ kind ∈ kinds, kind.isInline = true) (hnewline : (tokenAt tokens stop).kind = .newline)
    (hstarts : (tokenAt tokens index).kind.startsExpression = true)
    (h : simpleStatements g tokens index = .ok (body, middle)) :
    middle = stop + 1 ∧ ∃ line value, body = [.expr line value] := by
  obtain ⟨first, last, hfirst, h⟩ := Reads.bind_eq_ok h
  rw [simpleStatement_of_startsExpression hstarts] at hfirst
  obtain ⟨hindex, hle, hdivides, line, value, rfl⟩ :=
    expressionStatement_of_bare hg hcertain hbare hspans hnewline hfirst
  obtain ⟨rest, last', hrest, h⟩ := Reads.bind_eq_ok h
  have hsemicolon : (tokenAt tokens last).kind ≠ .symbol .semicolon := by
    intro hsemicolon
    rw [hsemicolon] at hdivides
    cases hdivides
  rw [repeatStep_of_none (by rw [bind_of_eq_ok (accept_of_ne hsemicolon)]; rfl)] at hrest
  cases hrest
  obtain ⟨_, stop', hexpect, h⟩ := Reads.bind_eq_ok h
  cases h
  obtain ⟨hlast, rfl⟩ := Reads.expect_eq_ok hexpect
  refine ⟨?_, line, value, rfl⟩
  -- The line ends at one place only.
  rcases Nat.lt_or_eq_of_le hle with hlt | rfl
  · have hline := hspans.inLine hinline last hindex hlt
    rw [hlast] at hline
    cases hline
  · rfl

/-- The subjects of a `match` are expressions, in front of a colon at the end of the line. -/
theorem matchSubject_eq_ok {subject : Expr} (hg : g.IsBalanced)
    (h : matchSubject g tokens index = .ok (subject, stop)) :
    ∃ (α : Type) (reader : Reader α) (a : α) (last : Nat), Balances reader ∧ reader tokens index = .ok (a, last)
      ∧ (tokenAt tokens last).kind = .symbol .colon ∧ (tokenAt tokens (last + 1)).kind = .newline := by
  obtain ⟨_, start, hmatch, hsubject⟩ := Reads.bind_eq_ok h
  obtain ⟨pos, start', hhere, hitems⟩ := Reads.bind_eq_ok hsubject
  obtain rfl : start = start' := congrArg Prod.snd (Except.ok.inj hhere)
  obtain ⟨first, next, hfirst, hothers⟩ := Reads.bind_eq_ok hitems
  obtain ⟨⟨rest, comma⟩, last, hrest, hend⟩ := Reads.bind_eq_ok hothers
  have hbalances : Balances (do
      expect (.name "match")
      let _ ← starNamed g
      afterCommas TokenKind.startsStarred (starNamed g) : Reader (List Expr × Bool)) :=
    .expect (fun _ _ => ⟨_, rfl, rfl⟩)
      ((balances_starNamed hg).bind fun _ => .afterCommas (balances_starNamed hg))
  refine ⟨_, _, (rest, comma), last, hbalances, ?_, ?_⟩
  · rw [bind_of_eq_ok hmatch, bind_of_eq_ok hfirst, hrest]
  · dsimp only at hend
    split at hend
    · cases hend
    · obtain ⟨ends, last', hends, htail⟩ := Reads.bind_eq_ok hend
      obtain rfl : last = last' := congrArg Prod.snd (Except.ok.inj hends)
      split at htail
      · unfold Grammar.refuse at htail
        split at htail <;> cases htail
      · obtain ⟨_, last', hexpect, hnewline⟩ := Reads.bind_eq_ok htail
        obtain ⟨hcolon, rfl⟩ := Reads.expect_eq_ok hexpect
        obtain ⟨_, last'', hexpect', -⟩ := Reads.bind_eq_ok hnewline
        exact ⟨hcolon, (Reads.expect_eq_ok hexpect').1⟩

theorem orElse_eq_ok {α : Type} {first second : Reader α} {a : α}
    (h : orElse first second tokens index = .ok (a, stop)) (hfirst : ∀ result, first tokens index ≠ .ok result) :
    second tokens index = .ok (a, stop) := by
  rw [orElse] at h
  split at h
  · rename_i heq
    exact absurd heq (hfirst _)
  · split at h
    · cases h
    · exact mapError_eq_ok_iff.1 h

/-- A line that does not start like a compound statement consists of simple statements, unless it is the first
one of a `match`. -/
theorem simpleStatements_of_statement {b : Blocks} {body : List Stmt}
    (hstarts : (tokenAt tokens index).kind.startsExpression = true
      ∨ ∃ fault, (tokenAt tokens index).kind = .fault fault)
    (hmatch : ∀ subject middle, matchSubject b.g tokens index ≠ .ok (subject, middle))
    (h : statement b tokens index = .ok (body, stop)) : simpleStatements b.g tokens index = .ok (body, stop) := by
  have hsimple : statement b tokens index = simpleStatements b.g tokens index
      ∨ ∃ line, statement b tokens index = matchStatement b line tokens index := by
    rw [statement, bind_of_eq_ok rfl, bind_of_eq_ok (peek_eq tokens index)]
    revert hstarts
    generalize (tokenAt tokens index).kind = kind
    intro hstarts
    rcases hstarts with hstarts | ⟨fault, rfl⟩
    · split
      all_goals first | cases hstarts | skip
      · exact .inr ⟨_, rfl⟩
      · exact .inl rfl
    · exact .inl rfl
  rcases hsimple with heq | ⟨line, heq⟩
  · rwa [heq] at h
  · rw [heq] at h
    obtain ⟨subject, index', hsubject, h⟩ := Reads.bind_eq_ok h
    obtain rfl : index = index' := congrArg Prod.snd (Except.ok.inj hsubject)
    cases subject with
    | some subject =>
      obtain ⟨last, hrun⟩ := foresee_eq_some hsubject
      exact absurd hrun (hmatch subject last)
    | none =>
      refine orElse_eq_ok h fun result hfirst => ?_
      obtain ⟨subject, last, -, hfail⟩ := Reads.bind_eq_ok hfirst
      cases hfail

/-- The statement of a bare line that starts like an expression is an expression on its own. -/
theorem statement_of_bare {b : Blocks} {body : List Stmt} (hg : b.g.IsBalanced)
    (hcertain : b.g.suspicious = false) (hbare : Bare kinds) (hspans : Spans tokens index stop kinds)
    (hinline : ∀ kind ∈ kinds, kind.isInline = true) (hnewline : (tokenAt tokens stop).kind = .newline)
    (hstarts : (tokenAt tokens index).kind.startsExpression = true)
    (h : statement b tokens index = .ok (body, middle)) :
    middle = stop + 1 ∧ ∃ line value, body = [.expr line value] := by
  have hsimple := simpleStatements_of_statement (.inl hstarts) (fun subject last hsubject => by
    obtain ⟨_, reader, _, last, hreader, hrun, hcolon, -⟩ := matchSubject_eq_ok hg hsubject
    have hdivides := (hbare.stops_of_newline hspans hnewline hreader hrun).2.2
    rw [hcolon] at hdivides
    cases hdivides) h
  exact simpleStatements_of_bare hg hcertain hbare hspans hinline hnewline hstarts hsimple

/-- No statement is read over a fault in its first line. -/
theorem statement_of_fault {b : Blocks} {body : List Stmt} {fault : LexicalFault} (hg : b.g.IsBalanced)
    (hsound : b.g.IsSound) (hwords : WordTokens tokens) (hspans : Spans tokens index stop kinds)
    (hinline : ∀ kind ∈ kinds, kind.isInline = true) (hfault : (tokenAt tokens stop).kind = .fault fault)
    (hstarts : kinds = [] ∨ (tokenAt tokens index).kind.startsExpression = true)
    (h : statement b tokens index = .ok (body, middle)) : False := by
  have hindex : index ≤ stop := by
    rw [hspans.2]
    omega
  have hnewline : ∀ last, index ≤ last → InLine tokens index last → (tokenAt tokens last).kind ≠ .newline := by
    intro last hlast hline hnewline
    obtain rfl := (hspans.inLine hinline).stop_unique hindex (by rw [hfault]; rfl) hline hlast
      (by rw [hnewline]; rfl)
    rw [hnewline] at hfault
    cases hfault
  have hstarts' : (tokenAt tokens index).kind.startsExpression = true
      ∨ ∃ fault, (tokenAt tokens index).kind = .fault fault := by
    rcases hstarts with rfl | hstarts
    · obtain rfl : stop = index := hspans.2
      exact .inr ⟨fault, hfault⟩
    · exact .inl hstarts
  have hsimple := simpleStatements_of_statement hstarts' (fun subject last hsubject => by
    obtain ⟨_, reader, _, last, hreader, hrun, hcolon, hend⟩ := matchSubject_eq_ok hg hsubject
    obtain ⟨kinds', hspans', hscan⟩ := hreader _ _ _ _ trivial hrun
    obtain ⟨s, hs, -⟩ := hscan {} trivial
    have hline := hspans'.inLine fun kind hkind => isInline_of_isForeign (isForeign_of_scan hs kind hkind)
    have hline' := hline.trans (.single (by rw [hcolon]; rfl))
    exact hnewline (last + 1) (by rw [hspans'.2]; omega) hline' hend) h
  obtain ⟨last, -, hlast, hline, hend, -⟩ := simpleStatements_eq_ok hsound hwords hsimple
  exact hnewline last (by omega) hline hend

end Reading

end PropertyWrapper.Source
