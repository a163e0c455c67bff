import PropertyWrapper.Proofs.Source.Spelling

/-!
# Lines without tokens

Empty lines and comments give no tokens, neither between lines nor inside of brackets. What they consist of is
told here by characters, so that it can be skipped wherever it stands.

* `IsBlanks`, `IsFlat` : the blanks at the start of a line, and those that have no width;
* `IsNote` : a comment or nothing, up to the end of a line;
* `Skipped` : whole lines without tokens, and `LineAt.skip`, which skips them;
* `LineAt.exists_lines` : what stands in front of the first token of a line of the outermost block;
* `EndsShut`, `EndsOpen` : what stands behind the last token of a text, without and with a comment at its end.
-/

namespace PropertyWrapper.Source

open Reader PropertyWrapper.Text

/-! ## Blanks -/

/-- The blanks at the start of a line, of which some may join it to the next one. -/
inductive IsBlanks : List Char → Prop where
  | nil : IsBlanks []
  | space {c : Char} {blanks : List Char} : isSpace c = true → IsBlanks blanks → IsBlanks (c :: blanks)
  | joined {blanks : List Char} : IsBlanks blanks → IsBlanks ('\\' :: '\n' :: blanks)

/-- Whether a character ends the blanks at the start of a line. -/
def endsBlanks (c : Char) : Bool := !isSpace c && c != '\\'

theorem endsBlanks_of_startsToken {c : Char} (h : startsToken c = true) : endsBlanks c = true := by
  simp only [startsToken, Bool.and_eq_true] at h
  simp [endsBlanks, h.1.1.1, h.2]

/-- Some blanks have a width wherever they stand. -/
def HasIndent (blanks : List Char) (indent first found : Indent) : Prop :=
  ∀ (pos : Position) (c : Char) (rest : List Char), endsBlanks c = true →
    ∃ pos', scanIndent indent first pos (blanks ++ c :: rest) = .ok (found, pos', c :: rest)

/-- Blanks that have no width, so that the line belongs to the outermost block. -/
structure IsFlat (blanks : List Char) : Prop where
  isBlanks : IsBlanks blanks
  hasIndent : HasIndent blanks ⟨0, 0⟩ ⟨0, 0⟩ ⟨0, 0⟩

section Indent

variable {indent first found : Indent} {blanks : List Char}

theorem scanIndent_of_endsBlanks {pos : Position} {c : Char} (hc : endsBlanks c = true) (rest : List Char) :
    scanIndent indent first pos (c :: rest)
      = .ok (if first.width = 0 then indent else first, pos, c :: rest) := by
  simp only [endsBlanks, isSpace, Bool.and_eq_true, Bool.not_eq_true', Bool.or_eq_false_iff,
    decide_eq_false_iff_not, bne_iff_ne] at hc
  obtain ⟨⟨⟨hblank, htab⟩, hfeed⟩, hslash⟩ := hc
  unfold scanIndent
  split <;> simp_all

theorem HasIndent.nil : HasIndent [] indent first (if first.width = 0 then indent else first) :=
  fun pos _ rest hc => ⟨pos, scanIndent_of_endsBlanks hc rest⟩

theorem HasIndent.joined
    (h : HasIndent blanks indent (if first.width = 0 then ⟨indent.width, indent.width⟩ else first) found) :
    HasIndent ('\\' :: '\n' :: blanks) indent first found := by
  intro pos c rest hc
  obtain ⟨pos', heq⟩ := h (pos.after '\n') c rest hc
  refine ⟨pos', ?_⟩
  rw [List.cons_append, List.cons_append, scanIndent.eq_5 _ _ _ _ (by simp), heq]

/-- The blanks that the lexer takes at the start of a line. -/
theorem scanIndent_eq_ok {pos pos' : Position} {text rest : List Char}
    (h : scanIndent indent first pos text = .ok (found, pos', rest)) :
    ∃ blanks, text = blanks ++ rest ∧ IsBlanks blanks ∧ (∀ c ∈ rest.head?, endsBlanks c = true)
      ∧ HasIndent blanks indent first found := by
  fun_induction scanIndent indent first pos text with
  | case1 indent first pos rest ih =>
    obtain ⟨blanks, rfl, hblanks, hrest, hindent⟩ := ih h
    exact ⟨' ' :: blanks, rfl, .space rfl hblanks, hrest, fun pos c rest hc =>
      hindent (pos.after ' ') c rest hc⟩
  | case2 indent first pos rest ih =>
    obtain ⟨blanks, rfl, hblanks, hrest, hindent⟩ := ih h
    exact ⟨'\t' :: blanks, rfl, .space rfl hblanks, hrest, fun pos c rest hc =>
      hindent (pos.after '\t') c rest hc⟩
  | case3 indent first pos rest ih =>
    obtain ⟨blanks, rfl, hblanks, hrest, hindent⟩ := ih h
    exact ⟨'\x0c' :: blanks, rfl, .space rfl hblanks, hrest, fun pos c rest hc =>
      hindent (pos.after '\x0c') c rest hc⟩
  | case4 => cases h
  | case5 indent first pos rest hne first' ih =>
    obtain ⟨blanks, rfl, hblanks, hrest, hindent⟩ := ih h
    exact ⟨'\\' :: '\n' :: blanks, rfl, .joined hblanks, hrest, .joined hindent⟩
  | case6 => cases h
  | case7 indent first pos text hblank htab hfeed hend hjoin hslash =>
    cases h
    refine ⟨[], rfl, .nil, ?_, .nil⟩
    intro c hc
    obtain ⟨tail, rfl⟩ := List.head?_eq_some_iff.1 hc
    have hnot : c ≠ ' ' ∧ c ≠ '\t' ∧ c ≠ '\x0c' ∧ c ≠ '\\' :=
      ⟨fun h => hblank tail (h ▸ rfl), fun h => htab tail (h ▸ rfl), fun h => hfeed tail (h ▸ rfl),
        fun h => hslash tail (h ▸ rfl)⟩
    simp [endsBlanks, isSpace, hnot]

/-- Blanks have some width. -/
theorem IsBlanks.exists_indent (h : IsBlanks blanks) (indent first : Indent) :
    ∃ found, HasIndent blanks indent first found := by
  induction h generalizing indent first with
  | nil => exact ⟨_, .nil⟩
  | @space c blanks hc _ ih =>
    simp only [isSpace, Bool.or_eq_true, decide_eq_true_eq] at hc
    rcases hc with (rfl | rfl) | rfl
    · obtain ⟨found, hfound⟩ := ih ⟨indent.width + 1, indent.narrow + 1⟩ first
      exact ⟨found, fun pos c rest hc => hfound (pos.after ' ') c rest hc⟩
    · obtain ⟨found, hfound⟩ := ih ⟨(indent.width / 8 + 1) * 8, indent.narrow + 1⟩ first
      exact ⟨found, fun pos c rest hc => hfound (pos.after '\t') c rest hc⟩
    · obtain ⟨found, hfound⟩ := ih ⟨0, 0⟩ first
      exact ⟨found, fun pos c rest hc => hfound (pos.after '\x0c') c rest hc⟩
  | joined _ ih =>
    obtain ⟨found, hfound⟩ := ih indent (if first.width = 0 then ⟨indent.width, indent.width⟩ else first)
    exact ⟨found, hfound.joined⟩

end Indent

/-! ## Comments and empty lines -/

/-- A comment, or nothing, up to the end of a line. -/
structure IsNote (note : List Char) : Prop where
  starts : ∀ c ∈ note.head?, c = '#'
  not_mem : '\n' ∉ note

theorem IsNote.nil : IsNote [] := ⟨by simp, by simp⟩

theorem IsNote.cons {note : List Char} (h : '\n' ∉ note) : IsNote ('#' :: note) := ⟨by simp, by simp [h]⟩

theorem IsNote.cases {note : List Char} (h : IsNote note) :
    note = [] ∨ ∃ tail, note = '#' :: tail ∧ '\n' ∉ tail := by
  cases note with
  | nil => exact .inl rfl
  | cons c tail =>
    obtain rfl := h.starts c rfl
    exact .inr ⟨tail, rfl, fun hmem => h.not_mem (List.mem_cons_of_mem _ hmem)⟩

/-- Whole lines without tokens. -/
inductive Skipped : List Char → Prop where
  | nil : Skipped []
  | line {blanks note lines : List Char} : IsBlanks blanks → IsNote note → Skipped lines →
      Skipped (blanks ++ (note ++ '\n' :: lines))

theorem Skipped.cases {lines : List Char} (h : Skipped lines) :
    lines = [] ∨ ∃ blanks note others, lines = blanks ++ (note ++ '\n' :: others) ∧ IsBlanks blanks ∧ IsNote note
      ∧ Skipped others := by
  cases h with
  | nil => exact .inl rfl
  | line hblanks hnote hothers => exact .inr ⟨_, _, _, rfl, hblanks, hnote, hothers⟩

variable {tokens : Array Token} {index : Nat} {indents : List Indent}
  {awaited text lines blanks note rest : List Char}

/-- A line without tokens at the start of a text. -/
theorem LineAt.skip_line (h : LineAt tokens index indents (blanks ++ (note ++ '\n' :: text)))
    (hblanks : IsBlanks blanks) (hnote : IsNote note) : LineAt tokens index indents text := by
  obtain ⟨fuel, reading, htokens, hrest, rfl, hbrackets, hfuel⟩ := h
  obtain ⟨fuel, rfl⟩ : ∃ n, fuel = n + 1 := ⟨fuel - 1, by omega⟩
  obtain ⟨found, hfound⟩ := hblanks.exists_indent ⟨0, 0⟩ ⟨0, 0⟩
  have hnext : ∃ next : Reading, tokensFrom (fuel + 1) true reading = tokensFrom fuel true next
      ∧ next.rest = text ∧ next.indents = reading.indents ∧ next.brackets = reading.brackets := by
    rcases hnote.cases with rfl | ⟨tail, rfl, htail⟩
    · obtain ⟨pos, hscan⟩ := hfound reading.pos '\n' text (by decide)
      rw [tokensFrom, hrest, List.nil_append, hscan]
      exact ⟨_, rfl, rfl, rfl, rfl⟩
    · obtain ⟨pos, hscan⟩ := hfound reading.pos '#' (tail ++ '\n' :: text) (by decide)
      rw [tokensFrom, hrest, List.cons_append, hscan]
      refine ⟨_, rfl, ?_, rfl, rfl⟩
      have hdrop : ('#' :: tail ++ '\n' :: text).dropWhile (· != '\n') = '\n' :: text :=
        dropWhile_note (List.not_mem_cons_of_ne_of_not_mem (by decide) htail)
      rw [← List.cons_append, hdrop, List.drop_one, List.tail_cons]
  obtain ⟨next, hrun, hrest', hindents, hbrackets'⟩ := hnext
  rw [hrun] at htokens
  refine ⟨fuel, next, htokens, hrest', hindents, hbrackets'.trans hbrackets, ?_⟩
  simp only [List.length_append, List.length_cons] at hfuel
  omega

/-- Lines without tokens at the start of a text. -/
theorem LineAt.skip (hlines : Skipped lines) (h : LineAt tokens index indents (lines ++ text)) :
    LineAt tokens index indents text := by
  induction hlines with
  | nil => exact h
  | line hblanks hnote _ ih =>
    refine ih (LineAt.skip_line ?_ hblanks hnote)
    simpa [List.append_assoc] using h

/-- A line of the outermost block behind blanks without width. -/
theorem LineAt.flat {c : Char} (h : LineAt tokens index [⟨0, 0⟩] (blanks ++ c :: text))
    (hblanks : IsFlat blanks) (hc : startsToken c = true) : LexedAt tokens index [⟨0, 0⟩] (c :: text) := by
  obtain ⟨_, -, hlexed⟩ := h.indented blanks hc
    (fun pos => hblanks.hasIndent pos c text (endsBlanks_of_startsToken hc)) rfl
  exact hlexed

/-- A line behind blanks without width closes a block. -/
theorem LineAt.flat_dedent {c : Char} (h : LineAt tokens index [bodyIndent, ⟨0, 0⟩] (blanks ++ c :: text))
    (hblanks : IsFlat blanks) (hc : startsToken c = true) :
    (tokenAt tokens index).kind = .dedent ∧ LexedAt tokens (index + 1) [⟨0, 0⟩] (c :: text) := by
  obtain ⟨pos, htokens, hlexed⟩ := h.indented blanks hc
    (fun pos => hblanks.hasIndent pos c text (endsBlanks_of_startsToken hc)) rfl
  exact ⟨by rw [(tokenAt_of_drop htokens).1], hlexed⟩

/-! ## Inside lines and brackets -/

theorem EnclosedAt.skip_blanks (hblanks : IsBlanks blanks) (hne : text ≠ [])
    (h : EnclosedAt tokens index indents awaited (blanks ++ text)) :
    EnclosedAt tokens index indents awaited text := by
  induction hblanks with
  | nil => exact h
  | space hc _ ih => exact ih (h.blank hc)
  | joined _ ih => exact ih (h.joined (by simp [hne]))

/-- A comment, or nothing, in front of the end of a line. -/
theorem EnclosedAt.skip_note (hnote : IsNote note)
    (h : EnclosedAt tokens index indents awaited (note ++ '\n' :: text)) :
    EnclosedAt tokens index indents awaited ('\n' :: text) := by
  rcases hnote.cases with rfl | ⟨tail, rfl, htail⟩
  · exact h
  · exact h.comment htail

/-- Inside brackets whole lines are skipped like blanks. -/
theorem EnclosedAt.skip {c : Char} (hlines : Skipped lines)
    (h : EnclosedAt tokens index indents (c :: awaited) (lines ++ text)) :
    EnclosedAt tokens index indents (c :: awaited) text := by
  induction hlines with
  | nil => exact h
  | @line blanks note lines hblanks hnote _ ih =>
    refine ih (EnclosedAt.lineEnd ((EnclosedAt.skip_blanks hblanks (by simp) ?_).skip_note hnote))
    simpa [List.append_assoc] using h

theorem IsBlanks.closes (hblanks : IsBlanks blanks) (h : Closes awaited text) :
    Closes awaited (blanks ++ text) := by
  induction hblanks with
  | nil => exact h
  | space hc _ ih => exact .plain (isPlain_of_isSpace hc) ih
  | joined _ ih => exact .joined ih

/-- Inside brackets a line without tokens can stand in front of what closes them. -/
theorem IsNote.closes {c : Char} (hnote : IsNote note) (hreturn : '\r' ∉ note)
    (h : Closes (c :: awaited) text) : Closes (c :: awaited) (note ++ '\n' :: text) := by
  rcases hnote.cases with rfl | ⟨tail, rfl, htail⟩
  · exact .lineEnd h
  · exact .comment htail (fun hmem => hreturn (List.mem_cons_of_mem _ hmem)) (.lineEnd h)

theorem Skipped.closes {c : Char} (hlines : Skipped lines) (hreturn : '\r' ∉ lines)
    (h : Closes (c :: awaited) text) : Closes (c :: awaited) (lines ++ text) := by
  induction hlines with
  | nil => exact h
  | @line blanks note lines hblanks hnote _ ih =>
    simp only [List.mem_append, List.mem_cons, not_or] at hreturn
    have hline := hblanks.closes (hnote.closes hreturn.2.1 (ih hreturn.2.2.2))
    simpa [List.append_assoc] using hline

/-! ## Around the tokens of a text -/

/-- What stands in front of the first token from the start of a line of the outermost block on, or else in
front of a comment at the end of the text. -/
inductive Leading (tokens : Array Token) (index : Nat) : List Char → Prop where
  | token {lines blanks rest : List Char} : Skipped lines → IsFlat blanks →
      (∀ c ∈ rest.head?, startsToken c = true) → LexedAt tokens index [⟨0, 0⟩] rest →
        Leading tokens index (lines ++ (blanks ++ rest))
  | note {lines blanks note : List Char} : Skipped lines → IsBlanks blanks → '\n' ∉ note →
      (tokenAt tokens index).kind = .finish → Leading tokens index (lines ++ (blanks ++ '#' :: note))

theorem Leading.line (h : Leading tokens index text) (hblanks : IsBlanks blanks) (hnote : IsNote note) :
    Leading tokens index (blanks ++ (note ++ '\n' :: text)) := by
  cases h with
  | @token lines blanks' rest hlines hflat hrest hlexed =>
    have hleading := Leading.token (.line hblanks hnote hlines) hflat hrest hlexed
    simpa [List.append_assoc] using hleading
  | @note lines blanks' note' hlines hblanks' hnote' hfinish =>
    have hleading := Leading.note (.line hblanks hnote hlines) hblanks' hnote' hfinish
    simpa [List.append_assoc] using hleading

/-- The indentation of a line of the outermost block, or of one that opens a block. -/
theorem indentTokens_outermost {indent : Indent} {kinds : List TokenKind} {indents' : List Indent}
    (h : indentTokens [⟨0, 0⟩] indent = .ok (kinds, indents')) :
    kinds = [] ∧ indent = ⟨0, 0⟩ ∧ indents' = [⟨0, 0⟩] ∨ kinds = [.indent] := by
  obtain ⟨width, narrow⟩ := indent
  unfold indentTokens at h
  dsimp only [List.head?_cons, Option.getD_some] at h
  split at h
  · split at h
    · rename_i hwidth hnarrow
      cases h
      exact .inl ⟨rfl, by rw [Indent.mk.injEq]; exact ⟨hwidth, hnarrow⟩, rfl⟩
    · cases h
  · split at h
    · split at h
      · cases h
      · split at h
        · cases h
        · cases h
          exact .inr rfl
    · rename_i hwidth hpos
      exact absurd (Nat.pos_of_ne_zero hwidth) hpos

/-- What the lexer does at the start of a line, where it finds no fault. -/
theorem LineAt.leading (h : LineAt tokens index [⟨0, 0⟩] text)
    (hfault : ∀ fault, (tokenAt tokens index).kind ≠ .fault fault)
    (hindent : (tokenAt tokens index).kind ≠ .indent) : Leading tokens index text := by
  generalize hlength : text.length = length
  induction length using Nat.strong_induction_on generalizing text with
  | _ length ih =>
    obtain ⟨fuel, reading, htokens, hrest, hindents, hbrackets, hfuel⟩ := id h
    obtain ⟨fuel, rfl⟩ : ∃ n, fuel = n + 1 := ⟨fuel - 1, by omega⟩
    cases hscan : scanIndent ⟨0, 0⟩ ⟨0, 0⟩ reading.pos reading.rest with
    | error fault =>
      rw [tokensFrom, hscan] at htokens
      exact absurd (by rw [(tokenAt_of_drop htokens).1]) (hfault fault)
    | ok result =>
      obtain ⟨indent, pos, rest⟩ := result
      obtain ⟨blanks, hsplit, hblanks, hrest', hindent'⟩ := scanIndent_eq_ok hscan
      rw [hrest] at hsplit
      subst hsplit
      have hnext : ∀ {note left : List Char}, IsNote note → rest = note ++ '\n' :: left →
          Leading tokens index (blanks ++ rest) := by
        rintro note left hnote rfl
        have hline := h.skip_line hblanks hnote
        exact (ih _ (by rw [← hlength]; simp; omega) hline rfl).line hblanks hnote
      -- Nothing but blanks without width stands in front of a token.
      have htoken : (∀ left, rest ≠ '\n' :: left) → (∀ left, rest ≠ '#' :: left) →
          Leading tokens index (blanks ++ rest) := by
        intro hline hhash
        rw [tokensFrom, hscan] at htokens
        dsimp only at htokens
        split at htokens
        · exact absurd rfl (hline _)
        · exact absurd rfl (hhash _)
        rw [hindents] at htokens
        cases hkinds : indentTokens [⟨0, 0⟩] indent with
        | error fault =>
          rw [hkinds] at htokens
          exact absurd (by rw [(tokenAt_of_drop htokens).1]) (hfault fault)
        | ok result =>
          obtain ⟨kinds, indents⟩ := result
          rw [hkinds] at htokens
          rcases indentTokens_outermost hkinds with ⟨rfl, rfl, rfl⟩ | rfl
          · refine Leading.token Skipped.nil ⟨hblanks, hindent'⟩ ?_ ⟨fuel, _, htokens, rfl, rfl, hbrackets, ?_⟩
            · intro c hc
              obtain ⟨tail, rfl⟩ := List.head?_eq_some_iff.1 hc
              have hends := hrest' c rfl
              have hline' : c ≠ '\n' := by
                rintro rfl
                exact hline tail rfl
              have hhash' : c ≠ '#' := by
                rintro rfl
                exact hhash tail rfl
              simp only [endsBlanks, Bool.and_eq_true] at hends
              simp [startsToken, hends.1, hends.2, hline', hhash']
            · rw [List.length_append] at hfuel
              omega
          · exact absurd (by rw [(tokenAt_of_drop htokens).1]) hindent
      by_cases hline : ∃ left, rest = '\n' :: left
      · obtain ⟨left, rfl⟩ := hline
        exact hnext .nil rfl
      by_cases hhash : ∃ tail, rest = '#' :: tail
      · obtain ⟨tail, rfl⟩ := hhash
        by_cases hmem : '\n' ∈ tail
        · obtain ⟨note, left, rfl, hnote⟩ := List.eq_append_cons_of_mem hmem
          exact hnext (.cons hnote) rfl
        · have hdrop : (tail.dropWhile (· != '\n')).drop 1 = [] := by
            rw [dropWhile_of_not_mem hmem]
            rfl
          have hrun : tokensFrom (fuel + 1) true reading = tokensFrom fuel true
              { reading with rest := [], pos := ⟨pos.line + 1, 0⟩ } := by
            rw [tokensFrom, hscan, ← hdrop]
            rfl
          rw [hrun] at htokens
          refine Leading.note Skipped.nil hblanks hmem (LineAt.finish ⟨fuel, _, htokens, rfl, hindents,
            hbrackets, ?_⟩)
          simp only [List.length_append, List.length_cons, List.length_nil] at hfuel ⊢
          omega
      exact htoken (fun left heq => hline ⟨left, heq⟩) (fun tail heq => hhash ⟨tail, heq⟩)

/-- What can stand behind the last token of a text: nothing, or the end of its line, with lines without tokens
behind it and blanks at the end. -/
inductive EndsShut : List Char → Prop where
  | nil : EndsShut []
  | lines {note lines blanks : List Char} : IsNote note → Skipped lines → IsFlat blanks →
      EndsShut (note ++ '\n' :: (lines ++ blanks))

/-- What can stand behind the last token of a text that ends with a comment. -/
inductive EndsOpen : List Char → Prop where
  | note {note : List Char} : '\n' ∉ note → EndsOpen ('#' :: note)
  | lines {note lines blanks last : List Char} : IsNote note → Skipped lines → IsBlanks blanks → '\n' ∉ last →
      EndsOpen (note ++ '\n' :: (lines ++ (blanks ++ '#' :: last)))

/-- Behind a line end stand lines without tokens if only line ends and the end of the source follow. -/
theorem LineAt.trailing (h : LineAt tokens index [⟨0, 0⟩] text) (hnote : IsNote note)
    (hends : (tokenAt tokens index).kind.endsTokens = true) :
    EndsShut (note ++ '\n' :: text) ∨ EndsOpen (note ++ '\n' :: text) := by
  have hleading : Leading tokens index text := by
    refine h.leading (fun fault hfault => ?_) fun hindent => ?_
    · rw [hfault] at hends
      cases hends
    · rw [hindent] at hends
      cases hends
  cases hleading with
  | @token lines blanks rest hlines hflat hrest hlexed =>
    cases rest with
    | nil =>
      rw [List.append_nil]
      exact .inl (.lines hnote hlines hflat)
    | cons c tail =>
      have hc := hrest c rfl
      rcases (enclosedAt_nil.2 hlexed).at_token hc with
        ⟨reading, kind, next, hreading, -, hnext, hkind, -⟩ | ⟨fault, hfault⟩
      · have hinline := (nextToken_consumes hreading hc hnext).isInline
        rw [hkind] at hends
        revert hinline hends
        cases kind <;> simp [TokenKind.isInline, TokenKind.endsTokens]
      · rw [hfault] at hends
        cases hends
  | @note lines blanks last hlines hblanks hlast hfinish =>
    exact .inr (.lines hnote hlines hblanks hlast)

/-- What the lexer leaves behind the last token of a text. -/
theorem EnclosedAt.trailing (h : EnclosedAt tokens index [⟨0, 0⟩] [] rest) (hrest : EndsTokens rest)
    (hends : (tokenAt tokens index).kind = .newline →
      (tokenAt tokens (index + 1)).kind.endsTokens = true) : EndsShut rest ∨ EndsOpen rest := by
  have hline : ∀ {note left : List Char}, IsNote note → rest = note ++ '\n' :: left →
      EndsShut rest ∨ EndsOpen rest := by
    rintro note left hnote rfl
    obtain ⟨hnewline, hnext⟩ := (enclosedAt_nil.1 (h.skip_note hnote)).newline
    exact hnext.trailing hnote (hends hnewline)
  cases rest with
  | nil => exact .inl .nil
  | cons c tail =>
    rcases hrest c rfl with rfl | rfl
    · exact hline .nil rfl
    · by_cases hmem : '\n' ∈ tail
      · obtain ⟨note, left, rfl, hnote⟩ := List.eq_append_cons_of_mem hmem
        exact hline (.cons hnote) rfl
      · exact .inr (.note hmem)

end PropertyWrapper.Source
