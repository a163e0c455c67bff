import PropertyWrapper.Proofs.Source.Strays

/-!
# Headers that break

The type in the header of a generated getter is a text. If the line ends in that text, or a comment swallows the colon
behind it, the header is not read.

* `Breaks` : no expression at the start of a text is followed by a colon;
* `Outline.breaks_type`, `Outline.breaks_final` : types that break a header, as they are and as the type of a final
  attribute;
* `closes_or_spills`, `Outline.closes_bracketed` : types that do not;
* `functionStatement_of_breaks` : a header with a type that breaks it is not read.
-/

namespace PropertyWrapper.Source

open Reader PropertyWrapper.Text

variable {tokens : Array Token} {index stop : Nat} {indents : List Indent} {outer : List Char}
  {text more behind : List Char}

/-! ## More brackets around -/

/-- The same levels inside of more brackets. -/
def Levels.within (levels : Levels) (around : List Level) : Levels := ⟨levels.inner, levels.outer ++ around⟩

theorem Levels.mayMark_within {levels : Levels} (h : levels.mayMark = true) (around : List Level) :
    (levels.within around).mayMark = true := by
  obtain ⟨inner, outer⟩ := levels
  simp only [mayMark, within, Bool.or_eq_true, Bool.not_eq_true'] at h ⊢
  rcases h with h | h
  · exact .inl h
  · cases outer with
    | nil => cases h
    | cons level outer => exact .inr rfl

theorem step_within {s s' : Scan} {kind : TokenKind} (h : s.step kind = some s') (around : List Level) :
    Scan.step { s with levels := s.levels.within around } kind
      = some { s' with levels := s'.levels.within around } := by
  obtain ⟨⟨inner, outer⟩, last⟩ := s
  have hpop : (if outer.isEmpty then none else some { levels := Levels.pop ⟨inner, outer⟩ : Scan }) = some s' →
      (if (outer ++ around).isEmpty then none
        else some { levels := Levels.pop ⟨inner, outer ++ around⟩ : Scan })
        = some { s' with levels := s'.levels.within around } := by
    intro h
    cases outer with
    | nil => cases h
    | cons level outer =>
      cases h
      rfl
  have hmark : ∀ change : Level → Level,
      (if (Levels.mayMark ⟨inner, outer⟩) then some { levels := Levels.modify change ⟨inner, outer⟩ : Scan }
        else none) = some s' →
      (if (Levels.mayMark ⟨inner, outer ++ around⟩)
        then some { levels := Levels.modify change ⟨inner, outer ++ around⟩ : Scan } else none)
        = some { s' with levels := s'.levels.within around } := by
    intro change h
    split at h
    · rename_i hmay
      cases h
      exact if_pos (Levels.mayMark_within hmay around)
    · cases h
  unfold Scan.step at h ⊢
  split at h
  · cases h
    rfl
  · cases h
    rfl
  · cases h
    rfl
  · exact hpop h
  · exact hpop h
  · exact hpop h
  · exact hmark _ h
  · exact hmark _ h
  · cases h
    rfl
  · cases h
    rfl
  · split at h
    · cases h
    · rename_i hforeign
      cases h
      exact if_neg hforeign

/-- What can stand in an expression can stand there inside of more brackets too. -/
theorem scan_within {kinds : List TokenKind} {s s' : Scan} (h : scan kinds s = some s') (around : List Level) :
    scan kinds { s with levels := s.levels.within around } = some { s' with levels := s'.levels.within around } := by
  induction kinds generalizing s with
  | nil =>
    cases h
    rfl
  | cons kind kinds ih =>
    rw [scan_cons] at h ⊢
    obtain ⟨middle, hstep, hscan⟩ := Option.bind_eq_some_iff.1 h
    rw [step_within hstep around, Option.bind_some, ih hscan]

/-! ## Types that break a header -/

/-- From the start of a text on stand tokens of an expression and then, or at a fault, one that is foreign to
expressions; so no expression at its start is followed by a colon. -/
def Breaks (text : List Char) : Prop :=
  ∀ tokens index indents, LexedAt tokens index indents text →
    ∃ kinds s, scan kinds {} = some s
      ∧ Leads tokens (fun stop => (tokenAt tokens stop).kind.isForeign = true) index kinds

/-- No expression that is read there is followed by a colon. -/
theorem Breaks.ne_colon {α : Type} {reader : Reader α} {a : α} (h : Breaks text)
    (hlexed : LexedAt tokens index indents text) (hreader : Balances reader)
    (hread : reader tokens index = .ok (a, stop)) : (tokenAt tokens stop).kind ≠ .symbol .colon := by
  intro hcolon
  obtain ⟨kinds, s, hs, hleads⟩ := h tokens index indents hlexed
  have hstops : ∀ front last s', scan front {} = some s' → Spans tokens index last front →
      (tokenAt tokens last).kind.isForeign = true → False := by
    intro front last s' hs' hspans hforeign
    obtain ⟨-, -, rfl | hdivides⟩ := (bare_of_scan hs').stops hspans hforeign hreader hread
    · rw [hcolon] at hforeign
      cases hforeign
    · rw [hcolon] at hdivides
      cases hdivides
  rcases hleads.cases_spans with ⟨last, hspans, hforeign⟩ | ⟨front, back, last, fault, rfl, hspans, hfault⟩
  · exact hstops kinds last s hs hspans hforeign
  · rw [scan_append] at hs
    obtain ⟨s', hs', -⟩ := Option.bind_eq_some_iff.1 hs
    exact hstops front last s' hs' hspans (by rw [hfault]; rfl)

/-- A line end breaks a header. -/
theorem breaks_note {blanks note : List Char} (hblanks : IsBlanks blanks) (hnote : IsNote note) :
    Breaks (blanks ++ (note ++ '\n' :: more)) := by
  intro tokens index indents hlexed
  have hat := ((enclosedAt_nil.2 hlexed).skip_blanks hblanks (by simp)).skip_note hnote
  refine ⟨[], {}, rfl, .done ?_⟩
  rw [(enclosedAt_nil.1 hat).newline.1]
  rfl

/-- Inside of brackets what ends with a comment swallows the rest of the line. -/
theorem EnclosedAt.skip_open {tail rest : List Char} {c : Char} (htail : EndsOpen tail) (hrest : '\n' ∉ rest)
    (hat : EnclosedAt tokens index indents (c :: outer) (tail ++ (rest ++ '\n' :: more))) :
    EnclosedAt tokens index indents (c :: outer) more := by
  cases htail with
  | @note note hnote =>
    have hnote' : IsNote ('#' :: (note ++ rest)) := .cons (by simp [hnote, hrest])
    refine (EnclosedAt.skip_note hnote' ?_).lineEnd
    simpa [List.append_assoc] using hat
  | @lines note lines blanks last hnote hlines hblanks hlast =>
    have hline : EnclosedAt tokens index indents (c :: outer)
        (lines ++ (blanks ++ ('#' :: (last ++ rest) ++ '\n' :: more))) := by
      refine (EnclosedAt.skip_note hnote ?_).lineEnd
      simpa [List.append_assoc] using hat
    have hlast' : IsNote ('#' :: (last ++ rest)) := .cons (by simp [hlast, hrest])
    exact (((hline.skip hlines).skip_blanks hblanks (by simp)).skip_note hlast').lineEnd

namespace Outline

variable (outline : Outline text)

/-- Behind the tokens of the expression the line ends, if anything stands behind them. -/
theorem newline_of_tail (htail : outline.tail ≠ []) (hbehind : ∃ rest more, behind = rest ++ '\n' :: more ∧ '\n' ∉ rest)
    (hat : EnclosedAt tokens index indents [] (outline.tail ++ behind)) :
    (tokenAt tokens index).kind = .newline := by
  have hline : ∀ note rest, outline.tail ++ behind = note ++ '\n' :: rest → IsNote note →
      (tokenAt tokens index).kind = .newline := by
    intro note rest heq hnote
    rw [heq] at hat
    exact (enclosedAt_nil.1 (hat.skip_note hnote)).newline.1
  obtain ⟨rest, more, rfl, hrest⟩ := hbehind
  rcases outline.trailing with h | h
  · generalize outline.tail = tail at h hline htail
    cases h with
    | nil => exact absurd rfl htail
    | @lines note lines blanks hnote hlines hblanks =>
      exact hline note (lines ++ blanks ++ (rest ++ '\n' :: more)) (by simp) hnote
  · generalize outline.tail = tail at h hline htail
    cases h with
    | @note note hnote =>
      exact hline ('#' :: (note ++ rest)) more (by simp) (.cons (by simp [hnote, hrest]))
    | @lines note lines blanks last hnote hlines hblanks hlast =>
      exact hline note (lines ++ (blanks ++ '#' :: last) ++ (rest ++ '\n' :: more)) (by simp) hnote

/-- A type breaks a header unless it is nothing but the tokens of its expression. -/
theorem breaks_type (hbroken : outline.lines ≠ [] ∨ outline.tail ≠ []) :
    Breaks (text ++ ':' :: '\n' :: more) := by
  rw [outline.text_eq]
  rcases outline.skipped.cases with hnil | ⟨blanks, note, others, heq, hblanks, hnote, -⟩
  · have htail := hbroken.resolve_left (not_not_intro hnil)
    rw [hnil]
    intro tokens index indents hlexed
    obtain ⟨c, rest, hhead, -⟩ := outline.head
    have hat : EnclosedAt tokens index indents [] (outline.blanks ++ (outline.core ++ ':' :: '\n' :: more)) := by
      simpa [List.append_assoc] using enclosedAt_nil.2 hlexed
    have hleads := outline.leads ⟨':', _, rfl, by decide⟩ (hat.skip_blanks outline.flat.isBlanks (by simp [hhead]))
    obtain ⟨s, hs, -⟩ := outline.scans
    refine ⟨outline.kinds, s, hs, hleads.mono fun stop hstop => ?_⟩
    rw [outline.newline_of_tail htail ⟨[':'], more, rfl, by decide⟩ hstop]
    rfl
  · rw [heq]
    simp only [List.append_assoc, List.cons_append]
    exact breaks_note hblanks hnote

/-- The type of a final attribute breaks a header if it ends with a comment. -/
theorem breaks_final (hopen : EndsOpen outline.tail) :
    Breaks ("Final[".toList ++ (text ++ ']' :: ':' :: '\n' :: ("    return".toList ++ ' ' :: more))) := by
  intro tokens index indents hlexed
  have hword : wordToken "Final".toList = .name "Final" := by decide
  obtain ⟨hfinal, hat⟩ := EnclosedAt.word (enclosedAt_nil.2 hlexed) (show isWord "Final" = true by decide)
    hword (by simp) (by decide) (by decide)
  obtain ⟨hbracket, hat⟩ := hat.lbracket (by decide)
  obtain ⟨c, rest, hhead, -⟩ := outline.head
  rw [outline.text_eq] at hat
  simp only [List.append_assoc] at hat
  have hleads := outline.leads ⟨']', _, rfl, by decide⟩
    ((hat.skip outline.skipped).skip_blanks outline.flat.isBlanks (by simp [hhead]))
  obtain ⟨s, hs, -⟩ := outline.scans
  refine ⟨.name "Final" :: .symbol .lbracket :: outline.kinds, _, scan_within hs [{}],
    .token hfinal (.token hbracket (hleads.mono fun stop hstop => ?_))⟩
  have hline : '\n' ∉ [']', ':'] := by decide
  have hreturn := EnclosedAt.skip_open hopen hline hstop
  have hword' : wordToken "return".toList = .reserved .kwReturn := by decide
  have hkind := (EnclosedAt.word (hreturn.space.space.space.space) (show isWord "return" = true by decide) hword'
    (by simp) (by decide) (by decide)).1
  rw [hkind]
  rfl

/-! ## Types that do not -/

variable {outline}

/-- A type that is nothing but the tokens of its expression is closed. -/
theorem closes (hlines : outline.lines = []) (htail : outline.tail = []) : Closes [] text := by
  have hreturn := outline.not_mem_return
  rw [outline.text_eq, hlines, List.nil_append, List.mem_append, not_or] at hreturn
  obtain ⟨front, hfront, hclosed⟩ := outline.spells.closes hreturn.2
  rw [htail, List.append_nil] at hfront
  rw [outline.text_eq, hlines, List.nil_append, hfront]
  exact outline.flat.isBlanks.closes hclosed

/-- A type that does not end with a comment is closed between brackets. -/
theorem closes_bracketed (hshut : EndsShut outline.tail) : Closes [']'] (text ++ [']']) := by
  have hreturn := outline.not_mem_return
  rw [outline.text_eq, List.mem_append, List.mem_append, not_or, not_or] at hreturn
  obtain ⟨front, hfront, hclosed⟩ := outline.spells.closes hreturn.2.2
  have htail : Closes [']'] (outline.tail ++ [']']) ∧ ∀ c, (outline.tail ++ [']']).head? = some c → isQuote c = false := by
    have hreturn' : '\r' ∉ outline.tail := fun hmem => hreturn.2.2 (by rw [hfront]; simp [hmem])
    have hend : Closes [']'] [']'] := .closing (by decide) .nil
    generalize outline.tail = tail at hshut hreturn'
    cases hshut with
    | nil => exact ⟨hend, by rintro c ⟨⟩; decide⟩
    | @lines note lines blanks hnote hlines hblanks =>
      simp only [List.mem_append, List.mem_cons, not_or] at hreturn'
      have hrest := hnote.closes hreturn'.1 (hlines.closes hreturn'.2.2.1 (hblanks.isBlanks.closes hend))
      refine ⟨by simpa [List.append_assoc] using hrest, ?_⟩
      rcases hnote.cases with rfl | ⟨note, rfl, -⟩
      · rintro c ⟨⟩
        decide
      · rintro c ⟨⟩
        decide
  have hinner := outline.flat.isBlanks.closes (hclosed.append htail.1 htail.2)
  have hwhole := outline.skipped.closes hreturn.1 hinner
  rw [outline.text_eq]
  conv => rhs; rw [hfront]
  simpa [List.append_assoc] using hwhole

end Outline

/-- A text that is read as an expression does not stay in one line, or a comment stands in it. -/
def Spills (text : List Char) : Prop := ∃ outline : Outline text, outline.lines ≠ [] ∨ outline.tail ≠ []

/-- A text that is read as an expression is closed unless it spills. -/
theorem closes_or_spills {string : String} {value : Expr} (h : parseExpression string = .ok value) :
    Closes [] (unifyNewlines string.toList) ∨ Spills (unifyNewlines string.toList) := by
  obtain ⟨outline⟩ := exists_outline h
  by_cases hlines : outline.lines = []
  · by_cases htail : outline.tail = []
    · exact .inl (outline.closes hlines htail)
    · exact .inr ⟨outline, .inr htail⟩
  · exact .inr ⟨outline, .inl hlines⟩

/-! ## Headers -/

/-- A single parameter. -/
theorem parameters_of_name {g : Grammar} {id : String} (hname : (tokenAt tokens index).kind = .name id)
    (hclose : (tokenAt tokens (index + 1)).kind = .symbol .rparen) :
    ∃ params, parameters g true (.symbol .rparen) tokens index = .ok (params, index + 1) := by
  have hread : Reader.name tokens index = .ok (id, index + 1) := by
    rw [Reader.name, bind_of_eq_ok (peek_eq tokens index), hname]
    rfl
  have hhint : hint? true g.expression tokens (index + 1) = .ok (none, index + 1) := by
    rw [hint?, if_pos rfl, bind_of_eq_ok (accept_of_ne (by simp [hclose]))]
    rfl
  have hitem : parameterItem g true {} tokens index = .ok ({ regular := [.mk id none none] }, index + 1) := by
    rw [parameterItem, bind_of_eq_ok (peek_eq tokens index), hname]
    dsimp only
    rw [bind_of_eq_ok hread, bind_of_eq_ok hhint, bind_of_eq_ok (accept_of_ne (by simp [hclose])),
      if_neg Bool.false_ne_true, bind_of_eq_ok rfl]
    rfl
  have hloop : ∀ step : ParameterState → Reader (Option ParameterState),
      step {} tokens index = .ok (some { regular := [.mk id none none] }, index + 1) →
      step { regular := [.mk id none none] } tokens (index + 1) = .ok (none, index + 1) →
      repeatStep step {} tokens index = .ok ({ regular := [.mk id none none] }, index + 1) :=
    fun step => repeatStep_of_some (by simp [hname])
  refine ⟨.mk [] [.mk id none none] none [] none, ?_⟩
  rw [parameters, bind_of_eq_ok (hloop _ ?_ ?_)]
  · rfl
  · have hnone : ¬ ({} : ParameterState).keywords.isSome = true := by decide
    rw [bind_of_eq_ok (at?_of_ne (by simp [hname])), if_neg Bool.false_ne_true, if_neg hnone,
      bind_of_eq_ok hitem, bind_of_eq_ok (accept_of_ne (by simp [hclose])), if_neg Bool.false_ne_true,
      bind_of_eq_ok (at?_of_eq hclose), if_pos rfl]
    rfl
  · rw [bind_of_eq_ok (at?_of_eq hclose), if_pos rfl]
    rfl

/-- A header with a type that breaks it is not read. -/
theorem functionStatement_of_breaks {b : Blocks} {line : Nat} {isAsync : Bool} {decorators : List Expr}
    {stmt : Stmt} (hb : Balances b.g.expression) (hbreaks : Breaks text)
    (hlexed : LexedAt tokens (index + 2) [⟨0, 0⟩] ("(self) -> ".toList ++ text)) :
    functionStatement b line isAsync decorators tokens index ≠ .ok (stmt, stop) := by
  intro h
  have hword : wordToken "self".toList = .name "self" := by decide
  have hat : EnclosedAt tokens (index + 2) [⟨0, 0⟩] []
      ('(' :: ("self".toList ++ ')' :: ' ' :: '-' :: '>' :: ' ' :: text)) := enclosedAt_nil.2 hlexed
  obtain ⟨hopen, hat⟩ := hat.lparen (by decide)
  obtain ⟨hself, hat⟩ := hat.word (by decide) hword (by simp) (by decide) (by decide)
  obtain ⟨hclose, hat⟩ := hat.rparen
  obtain ⟨harrow, hat⟩ := hat.space.arrow
  obtain ⟨_, index₁, hdef, h⟩ := Reads.bind_eq_ok h
  obtain ⟨-, rfl⟩ := Reads.expect_eq_ok hdef
  obtain ⟨name, index₂, hname, h⟩ := Reads.bind_eq_ok h
  obtain rfl : index₂ = index + 2 := by
    rw [Reader.name, bind_of_eq_ok (peek_eq tokens (index + 1))] at hname
    revert hname
    cases (tokenAt tokens (index + 1)).kind <;> rintro ⟨⟩
    rfl
  rw [bind_of_eq_ok (expect_of_eq hopen)] at h
  obtain ⟨params, hparams⟩ := parameters_of_name (g := b.g) hself hclose
  rw [bind_of_eq_ok hparams, bind_of_eq_ok (expect_of_eq hclose)] at h
  obtain ⟨returns, stop', hreturns, h⟩ := Reads.bind_eq_ok h
  rw [expressionAfter, bind_of_eq_ok (accept_of_eq harrow), if_pos rfl] at hreturns
  obtain ⟨value, stop'', hvalue, hpure⟩ := Reads.bind_eq_ok hreturns
  cases hpure
  obtain ⟨body, last, hsuite, -⟩ := Reads.bind_eq_ok h
  obtain ⟨_, start, hcolon, -⟩ := Reads.bind_eq_ok hsuite
  exact hbreaks.ne_colon (enclosedAt_nil.1 hat.space) hb hvalue (Reads.expect_eq_ok hcolon).1

end PropertyWrapper.Source
