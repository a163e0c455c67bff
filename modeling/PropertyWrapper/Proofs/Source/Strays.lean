import PropertyWrapper.Proofs.Source.Bare
import PropertyWrapper.Proofs.Source.Outline

/-!
# Lines that go astray

A text that is read as an expression can have line ends outside of all brackets. Where it stands inside a line, the
line ends in it, and what is left stands on lines of its own, which are read as expressions.

* `IsLine P text more` : a text starts with a whole line, whose tokens have the property `P`;
* `Strays` : lines of expressions in front of a text;
* `Onward` : such lines by their tokens;
* `Outline.isLine_spilling`, `Outline.strays` : the lines of a text that is read as an expression.
-/

namespace PropertyWrapper.Source

open Reader PropertyWrapper.Text

variable {tokens : Array Token} {index : Nat} {indents : List Indent} {outer : List Char}
  {text more behind following : List Char} {P : List TokenKind → Prop}

/-! ## Lines -/

/-- A text consists of the rest of a line and of `more`. The tokens of the line have the property `P`, unless a
fault cuts them off. -/
def IsLine (P : List TokenKind → Prop) (text more : List Char) : Prop :=
  ∀ tokens index indents, LexedAt tokens index indents text →
    ∃ kinds, (∀ kind ∈ kinds, kind.isInline = true) ∧ P kinds
      ∧ Leads tokens (fun stop => (tokenAt tokens stop).kind = .newline ∧ LineAt tokens (stop + 1) indents more)
        index kinds

/-- No matter which tokens a line has. -/
def AnyTokens (_ : List TokenKind) : Prop := True

/-- A closed text is a line up to the comment behind it. -/
theorem isLine_of_closes {note : List Char} (h : Closes [] text) (hnote : IsNote note) :
    IsLine AnyTokens (text ++ (note ++ '\n' :: more)) more := by
  intro tokens index indents hlexed
  have hbehind : Bounded (note ++ '\n' :: more) := by
    rcases hnote.cases with rfl | ⟨tail, rfl, -⟩
    · exact bounded_newline more
    · exact ⟨'#', _, rfl, by decide, by decide⟩
  have hat : EnclosedAt tokens index indents ([] ++ []) (text ++ (note ++ '\n' :: more)) := enclosedAt_nil.2 hlexed
  obtain ⟨kinds, hinline, -, hleads⟩ := hat.closes h hbehind
  refine ⟨kinds, hinline, trivial, hleads.mono fun stop hstop => ?_⟩
  exact (enclosedAt_nil.1 (hstop.skip_note hnote)).newline

/-- Where the end of the line was found, the next line starts behind it. -/
theorem IsLine.of_newline {stop : Nat} (h : IsLine P text more) (hlexed : LexedAt tokens index indents text)
    (hline : InLine tokens index stop) (hindex : index ≤ stop)
    (hstop : (tokenAt tokens stop).kind = .newline) : LineAt tokens (stop + 1) indents more := by
  obtain ⟨kinds, hinline, -, hleads⟩ := h tokens index indents hlexed
  have hunique : ∀ last front, Spans tokens index last front → (∀ kind ∈ front, kind.isInline = true) →
      (tokenAt tokens last).kind.isInline = false → stop = last := by
    intro last front hspans hfront hlast
    have hle : index ≤ last := by
      rw [hspans.2]
      omega
    exact hline.stop_unique hindex (by rw [hstop]; rfl) (hspans.inLine hfront) hle hlast
  rcases hleads.cases_spans with ⟨last, hspans, hnewline, hnext⟩ | ⟨front, back, last, fault, rfl, hspans, hfault⟩
  · obtain rfl := hunique last kinds hspans hinline (by rw [hnewline]; rfl)
    exact hnext
  · obtain rfl := hunique last front hspans (fun kind hkind => hinline kind (List.mem_append_left _ hkind))
      (by rw [hfault]; rfl)
    rw [hstop] at hfault
    cases hfault

/-- A line behind a word and blanks. -/
theorem IsLine.behind_return {blanks : List Char} (h : IsLine P text more) (hblanks : IsBlanks blanks)
    (hne : text ≠ []) : IsLine AnyTokens ("return".toList ++ ' ' :: (blanks ++ text)) more := by
  intro tokens index indents hlexed
  have hword : wordToken "return".toList = .reserved .kwReturn := by decide
  obtain ⟨hreturn, hat⟩ := EnclosedAt.word (enclosedAt_nil.2 hlexed) (show isWord "return" = true by decide)
    hword (by simp) (by decide) (by decide)
  obtain ⟨kinds, hinline, -, hleads⟩ := h _ _ _ (enclosedAt_nil.1 (hat.space.skip_blanks hblanks hne))
  exact ⟨_ :: kinds, List.forall_mem_cons.2 ⟨rfl, hinline⟩, trivial, .token hreturn hleads⟩

/-! ## Lines of expressions -/

/-- Tokens that are read as an expression on its own. -/
structure StandsAlone (kinds : List TokenKind) : Prop where
  bare : Bare kinds
  starts : ∃ kind ∈ kinds.head?, kind.startsExpression = true

/-- `Strays following count text` says that `text` consists of lines of expressions, `count` of them, and of
`following`. -/
inductive Strays (following : List Char) : Nat → List Char → Prop where
  | nil : Strays following 0 following
  | line {count : Nat} {lines blanks text more : List Char} : Skipped lines → IsFlat blanks →
      (∃ c rest, text = c :: rest ∧ startsToken c = true) → IsLine StandsAlone text more →
        Strays following count more → Strays following (count + 1) (lines ++ (blanks ++ text))

/-- From an index on stand lines of expressions, up to a place with the property `Q`, unless a fault cuts them
off. -/
inductive Onward (tokens : Array Token) (Q : Nat → Prop) : Nat → Nat → Prop where
  | here {index : Nat} : Q index → Onward tokens Q 0 index
  | line {count index stop : Nat} {kinds : List TokenKind} : Spans tokens index stop kinds →
      (∀ kind ∈ kinds, kind.isInline = true) → StandsAlone kinds → (tokenAt tokens stop).kind = .newline →
        Onward tokens Q count (stop + 1) → Onward tokens Q (count + 1) index
  | fault {count index stop : Nat} {kinds : List TokenKind} {fault : LexicalFault} :
      Spans tokens index stop kinds → (∀ kind ∈ kinds, kind.isInline = true) →
        kinds = [] ∨ (tokenAt tokens index).kind.startsExpression = true →
          (tokenAt tokens stop).kind = .fault fault → Onward tokens Q count index

/-- A line of an expression, and what stands behind it. -/
theorem IsLine.onward {Q : Nat → Prop} {count : Nat} (h : IsLine StandsAlone text more)
    (hlexed : LexedAt tokens index indents text)
    (hmore : ∀ index, LineAt tokens index indents more → Onward tokens Q count index) :
    Onward tokens Q (count + 1) index := by
  obtain ⟨kinds, hinline, halone, hleads⟩ := h tokens index indents hlexed
  rcases hleads.cases_spans with ⟨stop, hspans, hnewline, hline⟩ |
    ⟨front, back, stop, fault, rfl, hspans, hfault⟩
  · exact .line hspans hinline halone hnewline (hmore _ hline)
  · refine .fault hspans (fun kind hkind => hinline kind (List.mem_append_left _ hkind)) ?_ hfault
    cases front with
    | nil => exact .inl rfl
    | cons kind front =>
      obtain ⟨kind', hkind, hstarts⟩ := halone.starts
      obtain rfl : kind = kind' := Option.some.inj hkind
      exact .inr (by rw [hspans.of_cons.1, hstarts])

/-- Lines of expressions in the outermost block. -/
theorem Strays.onward {Q : Nat → Prop} {count : Nat} (h : Strays following count text)
    (hline : LineAt tokens index [⟨0, 0⟩] text)
    (hQ : ∀ index, LineAt tokens index [⟨0, 0⟩] following → Q index) : Onward tokens Q count index := by
  induction h generalizing index with
  | nil => exact .here (hQ _ hline)
  | line hlines hblanks hhead hfirst _ ih =>
    obtain ⟨c, rest, rfl, hc⟩ := hhead
    exact hfirst.onward ((hline.skip hlines).flat hblanks hc) fun _ => ih

/-- Behind a block the first line of an expression closes it. -/
theorem Strays.dedent {Q : Nat → Prop} {count : Nat} (h : Strays following count text)
    (hline : LineAt tokens index [bodyIndent, ⟨0, 0⟩] text)
    (hQ : ∀ index, LineAt tokens index [⟨0, 0⟩] following → Q index)
    (hdedent : ∀ index, LineAt tokens index [bodyIndent, ⟨0, 0⟩] following →
      (tokenAt tokens index).kind = .dedent ∧ Q (index + 1)) :
    (tokenAt tokens index).kind = .dedent ∧ Onward tokens Q count (index + 1) := by
  cases h with
  | nil =>
    obtain ⟨hkind, hend⟩ := hdedent index hline
    exact ⟨hkind, .here hend⟩
  | line hlines hblanks hhead hfirst hothers =>
    obtain ⟨c, rest, rfl, hc⟩ := hhead
    obtain ⟨hkind, hlexed⟩ := (hline.skip hlines).flat_dedent hblanks hc
    exact ⟨hkind, hfirst.onward hlexed fun _ hmore => hothers.onward hmore hQ⟩

/-! ## Calls -/

/-- The tokens of parentheses, in which all brackets are closed. -/
def IsCall (kinds : List TokenKind) : Prop :=
  ∃ args, kinds = .symbol .lparen :: (args ++ [.symbol .rparen])
    ∧ (∀ kind ∈ args, kind.isInline = true) ∧ deepens args 0 = some 0

theorem exists_isCall : ∃ kinds, IsCall kinds := ⟨_, [], rfl, by simp, rfl⟩

theorem IsCall.inline {kinds : List TokenKind} (h : IsCall kinds) : ∀ kind ∈ kinds, kind.isInline = true := by
  obtain ⟨args, rfl, hargs, -⟩ := h
  simp only [List.forall_mem_cons, List.forall_mem_append]
  exact ⟨rfl, hargs, rfl, by simp⟩

theorem apart_call (rest : List Char) : Apart ('(' :: rest) := ⟨'(', rest, rfl, by decide⟩

/-- A closed text in parentheses. -/
theorem EnclosedAt.call {args rest : List Char} (hargs : Closes [] args)
    (hat : EnclosedAt tokens index indents [] ('(' :: (args ++ ')' :: rest))) :
    ∃ kinds, IsCall kinds ∧ Leads tokens (fun stop => EnclosedAt tokens stop indents [] rest) index kinds := by
  obtain ⟨hopen, hat'⟩ := hat.lparen (by decide)
  have hinner : EnclosedAt tokens (index + 1) indents ([] ++ [')']) (args ++ ')' :: rest) := hat'
  obtain ⟨kinds, hinline, hdepth, hleads⟩ := hinner.closes hargs ⟨')', rest, rfl, by decide, by decide⟩
  refine ⟨_, ⟨kinds, rfl, hinline, hdepth⟩, .token hopen (hleads.append fun stop hstop => ?_)⟩
  obtain ⟨hclose, hrest⟩ := hstop.rparen
  exact .token hclose (.done hrest)

/-- A line of parentheses is read as an expression on its own. -/
theorem isLine_call {args : List Char} (hargs : Closes [] args) :
    IsLine StandsAlone ('(' :: (args ++ ')' :: '\n' :: more)) more := by
  intro tokens index indents hlexed
  obtain ⟨kinds, hcall, hleads⟩ := EnclosedAt.call hargs (enclosedAt_nil.2 hlexed)
  refine ⟨kinds, hcall.inline, ⟨?_, ?_⟩, hleads.mono fun stop hstop => (enclosedAt_nil.1 hstop).newline⟩
  · obtain ⟨inner, rfl, -, hdepth⟩ := hcall
    exact bare_applied (scan_nil {}) rfl hdepth
  · obtain ⟨inner, rfl, -⟩ := hcall
    exact ⟨_, rfl, rfl⟩

/-! ## Texts that are read as expressions -/

namespace Outline

variable (outline : Outline text)

theorem inline_kinds : ∀ kind ∈ outline.kinds, kind.isInline = true := by
  obtain ⟨s, hs, -⟩ := outline.scans
  exact fun kind hkind => isInline_of_isForeign (isForeign_of_scan hs kind hkind)

/-- The tokens of the expression wherever it stands. -/
theorem leads (hbehind : Apart behind)
    (hat : EnclosedAt tokens index indents outer (outline.core ++ behind)) :
    Leads tokens (fun stop => EnclosedAt tokens stop indents outer (outline.tail ++ behind)) index
      outline.kinds :=
  outline.spells.leads hbehind hat

/-- The tokens of the expression stand alone, also in front of parentheses. -/
theorem standsAlone : StandsAlone outline.kinds := by
  obtain ⟨s, hs, -⟩ := outline.scans
  exact ⟨bare_of_scan hs, outline.starts⟩

theorem standsAlone_call {kinds : List TokenKind} (h : IsCall kinds) : StandsAlone (outline.kinds ++ kinds) := by
  obtain ⟨s, hs, hlevels⟩ := outline.scans
  obtain ⟨kind, hkind, hstarts⟩ := outline.starts
  obtain ⟨inner, rfl, -, hdepth⟩ := h
  refine ⟨bare_applied hs hlevels hdepth, kind, ?_, hstarts⟩
  rw [List.head?_append, Option.mem_def.1 hkind]
  rfl

/-- The expression on its own line, where nothing stands behind its tokens but parentheses. -/
theorem isLine_applied {args : List Char} (htail : outline.tail = []) (hargs : Closes [] args) :
    IsLine StandsAlone (outline.core ++ '(' :: (args ++ ')' :: '\n' :: more)) more := by
  intro tokens index indents hlexed
  have hleads := outline.leads (apart_call _) (enclosedAt_nil.2 hlexed)
  rw [htail] at hleads
  obtain ⟨kinds, hcall, hleads'⟩ := hleads.exists_append exists_isCall fun stop hstop => hstop.call hargs
  refine ⟨outline.kinds ++ kinds, List.forall_mem_append.2 ⟨outline.inline_kinds, hcall.inline⟩,
    outline.standsAlone_call hcall, hleads'.mono fun stop hstop => (enclosedAt_nil.1 hstop).newline⟩

/-- The line of the expression, where a line end stands behind its tokens. -/
theorem isLine_core {note rest : List Char} (htail : outline.tail = note ++ '\n' :: rest) (hnote : IsNote note)
    (hbehind : Apart behind) : IsLine StandsAlone (outline.core ++ behind) (rest ++ behind) := by
  intro tokens index indents hlexed
  have hleads := outline.leads hbehind (enclosedAt_nil.2 hlexed)
  refine ⟨outline.kinds, outline.inline_kinds, outline.standsAlone, hleads.mono fun stop hstop => ?_⟩
  rw [htail, List.append_assoc] at hstop
  exact (enclosedAt_nil.1 (hstop.skip_note hnote)).newline

/-- A call on lines of its own, whose text ends without a comment. -/
theorem exists_strays_core {args : List Char} (hshut : EndsShut outline.tail) (hargs : Closes [] args) :
    ∃ count spill, ∀ following,
      IsLine StandsAlone (outline.core ++ '(' :: (args ++ ')' :: '\n' :: following)) (spill ++ following)
      ∧ Strays following count (spill ++ following) := by
  generalize htail : outline.tail = tail at hshut
  cases hshut with
  | nil => exact ⟨0, [], fun following => ⟨outline.isLine_applied htail hargs, .nil⟩⟩
  | @lines note lines blanks hnote hlines hblanks =>
    refine ⟨1, lines ++ (blanks ++ '(' :: (args ++ [')', '\n'])), fun following => ?_⟩
    have hline := outline.isLine_core htail hnote (apart_call (args ++ ')' :: '\n' :: following))
    have hstrays : Strays following 1 (lines ++ (blanks ++ '(' :: (args ++ ')' :: '\n' :: following))) :=
      .line hlines hblanks ⟨'(', _, rfl, by decide⟩ (isLine_call hargs) .nil
    simp only [List.append_assoc, List.cons_append, List.nil_append] at hline ⊢
    exact ⟨hline, hstrays⟩

/-- The lines of a returned call whose text ends without a comment: what does not stay in the first line stands on
lines of expressions. -/
theorem exists_strays {args : List Char} (hshut : EndsShut outline.tail) (hargs : Closes [] args) :
    ∃ count spill, ∀ following,
      IsLine AnyTokens ("return".toList ++ ' ' :: (text ++ '(' :: (args ++ ')' :: '\n' :: following)))
        (spill ++ following)
      ∧ Strays following count (spill ++ following) := by
  obtain ⟨count, spill, hspill⟩ := outline.exists_strays_core hshut hargs
  obtain ⟨c, rest, hhead, hc⟩ := outline.head
  rcases outline.skipped.cases with hnil | ⟨blanks, note, others, heq, hblanks, hnote, hothers⟩
  · refine ⟨count, spill, fun following => ⟨?_, (hspill following).2⟩⟩
    have hline := (hspill following).1.behind_return outline.flat.isBlanks (by simp [hhead])
    rw [outline.text_eq, hnil, List.nil_append, List.append_assoc]
    exact hline
  · -- The word stands alone in its line, and the whole text goes astray.
    refine ⟨count + 1, others ++ (outline.blanks ++ (outline.core ++ '(' :: (args ++ [')', '\n']))),
      fun following => ?_⟩
    obtain ⟨hcore, hothers'⟩ := hspill following
    have hstrays : Strays following (count + 1)
        (others ++ (outline.blanks ++ (outline.core ++ '(' :: (args ++ ')' :: '\n' :: following)))) :=
      .line hothers outline.flat ⟨c, rest ++ '(' :: (args ++ ')' :: '\n' :: following), by simp [hhead], hc⟩ hcore hothers'
    have hreturn : Closes [] ("return".toList ++ ' ' :: blanks) := by
      have hword : ("return".toList ++ [' ']).all isPlain = true := by decide
      have hclosed := Closes.plains (List.all_eq_true.1 hword) (hblanks.closes .nil)
      rwa [List.append_nil, List.append_assoc] at hclosed
    have hline : IsLine AnyTokens _ (others ++ (outline.blanks ++ (outline.core
      ++ '(' :: (args ++ ')' :: '\n' :: following)))) := isLine_of_closes hreturn hnote
    simp only [outline.text_eq, heq, List.append_assoc, List.cons_append, List.nil_append] at hline ⊢
    exact ⟨hline, hstrays⟩

end Outline

end PropertyWrapper.Source
