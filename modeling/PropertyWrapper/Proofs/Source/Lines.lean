import PropertyWrapper.Proofs.Source.Lexemes

/-!
# Tokens of a closed text

The lexer cuts a closed text into tokens that stay in it, whatever stands behind it, as long as that goes on no
word and no literal. What is left behind a token closes the brackets that are open then.

* `Bounded` : what may stand behind a closed text;
* `nextToken_closes` : one token leaves a closed text behind;
* `tokensFrom_newline`, `tokensFrom_space` and others : the steps of the lexer between tokens;
* `Closes.cases_gap` : the places of a closed text where no token starts.
-/

namespace PropertyWrapper.Source

open PropertyWrapper.Text

/-! ## One token -/

/-- A text starts with a character that goes on no word, number, operator or literal. -/
def Bounded (behind : List Char) : Prop :=
  ∃ c rest, behind = c :: rest ∧ isPlain c = false ∧ isQuote c = false

theorem bounded_newline (rest : List Char) : Bounded ('\n' :: rest) :=
  ⟨'\n', rest, rfl, by decide, by decide⟩

/-- Plain characters in front of a boundary belong to the text in front of it. -/
theorem PlainPrefix.of_bounded {rest text behind : List Char} (hbehind : Bounded behind)
    (h : PlainPrefix rest (text ++ behind)) :
    ∃ left, rest = left ++ behind ∧ PlainPrefix left text := by
  obtain ⟨b, more, rfl, hb, -⟩ := hbehind
  obtain ⟨word, hword, heq⟩ := h
  induction word generalizing text with
  | nil => exact ⟨text, heq.symm, .refl _⟩
  | cons c word ih =>
    match text with
    | [] =>
      obtain ⟨rfl, -⟩ := List.cons.inj heq
      rw [hword b (by simp)] at hb
      cases hb
    | d :: text =>
      obtain ⟨rfl, htail⟩ := List.cons.inj heq
      obtain ⟨left, hrest, hleft⟩ := ih (fun e he => hword e (by simp [he])) htail
      exact ⟨left, hrest, .cons (hword d (by simp)) hleft⟩

theorem Closes.of_plainPrefix {awaited left text : List Char} (h : Closes awaited text)
    (hleft : PlainPrefix left text) : Closes awaited left := by
  obtain ⟨word, hword, rfl⟩ := hleft
  exact h.of_plains hword

/-- A closed text that starts with a quote starts with a literal. -/
theorem Closes.exists_literal {awaited text : List Char} {mark : Char}
    (hquote : isQuote mark = true) (h : Closes awaited (mark :: text)) :
    ∃ tail left, text = tail ++ left ∧ IsLiteral mark (mark :: tail)
      ∧ (tail = [mark] → left.head? ≠ some mark) ∧ Closes awaited left := by
  generalize hwhole : mark :: text = whole at h
  cases h with
  | nil => cases hwhole
  | plain hc _ =>
    obtain ⟨rfl, -⟩ := List.cons.inj hwhole
    simp [isPlain, hquote] at hc
  | opening hopen _ =>
    obtain ⟨rfl, -⟩ := List.cons.inj hwhole
    simp only [isQuote, Bool.or_eq_true, decide_eq_true_eq] at hquote
    rcases hquote with rfl | rfl <;> simp [closingBracket?] at hopen
  | closing hclose _ =>
    obtain ⟨rfl, -⟩ := List.cons.inj hwhole
    simp only [isQuote, Bool.or_eq_true, decide_eq_true_eq] at hquote
    rcases hquote with rfl | rfl <;> exact absurd hclose (by decide)
  | @literal _ left lit mark' hmark hlit hreturn hhead hleft =>
    obtain ⟨tail, rfl⟩ := hlit.exists_tail
    obtain ⟨rfl, rfl⟩ := List.cons.inj hwhole
    exact ⟨tail, left, rfl, hlit, fun htail => hhead (by rw [htail]), hleft⟩
  | lineEnd _ =>
    obtain ⟨rfl, -⟩ := List.cons.inj hwhole
    exact absurd hquote (by decide)
  | comment _ _ _ =>
    obtain ⟨rfl, -⟩ := List.cons.inj hwhole
    exact absurd hquote (by decide)
  | joined _ =>
    obtain ⟨rfl, -⟩ := List.cons.inj hwhole
    exact absurd hquote (by decide)

/-- Behind an opening bracket its closing one is awaited. -/
theorem Closes.of_opening {awaited text : List Char} {c closing : Char}
    (hopen : closingBracket? c = some closing) (h : Closes awaited (c :: text)) :
    Closes (closing :: awaited) text := by
  have hplain : isPlain c = false := by simp [isPlain, hopen]
  generalize hwhole : c :: text = whole at h
  cases h with
  | nil => cases hwhole
  | plain hc _ =>
    obtain ⟨rfl, -⟩ := List.cons.inj hwhole
    rw [hplain] at hc
    cases hc
  | opening hopen' h =>
    obtain ⟨rfl, rfl⟩ := List.cons.inj hwhole
    cases hopen.symm.trans hopen'
    exact h
  | closing hclose _ =>
    obtain ⟨rfl, -⟩ := List.cons.inj hwhole
    simp only [isClosing, Bool.or_eq_true, decide_eq_true_eq] at hclose
    rcases hclose with (rfl | rfl) | rfl <;> cases hopen
  | literal hmark hlit _ _ _ =>
    obtain ⟨tail, rfl⟩ := hlit.exists_tail
    obtain ⟨rfl, -⟩ := List.cons.inj hwhole
    simp only [isQuote, Bool.or_eq_true, decide_eq_true_eq] at hmark
    rcases hmark with rfl | rfl <;> cases hopen
  | lineEnd _ =>
    obtain ⟨rfl, -⟩ := List.cons.inj hwhole
    cases hopen
  | comment _ _ _ =>
    obtain ⟨rfl, -⟩ := List.cons.inj hwhole
    cases hopen
  | joined _ =>
    obtain ⟨rfl, -⟩ := List.cons.inj hwhole
    cases hopen

/-- A closing bracket is awaited. -/
theorem Closes.of_closing {awaited text : List Char} {c : Char} (hclose : isClosing c = true)
    (h : Closes awaited (c :: text)) : ∃ awaited', awaited = c :: awaited' ∧ Closes awaited' text := by
  have hplain : isPlain c = false := by simp [isPlain, hclose]
  have hne : ∀ d : Char, isClosing d = false → c ≠ d := by
    rintro d hd rfl
    rw [hclose] at hd
    cases hd
  generalize hwhole : c :: text = whole at h
  cases h with
  | nil => cases hwhole
  | plain hc _ =>
    obtain ⟨rfl, -⟩ := List.cons.inj hwhole
    rw [hplain] at hc
    cases hc
  | opening hopen _ =>
    obtain ⟨rfl, -⟩ := List.cons.inj hwhole
    simp only [isClosing, Bool.or_eq_true, decide_eq_true_eq] at hclose
    rcases hclose with (rfl | rfl) | rfl <;> cases hopen
  | closing _ h =>
    obtain ⟨rfl, rfl⟩ := List.cons.inj hwhole
    exact ⟨_, rfl, h⟩
  | literal hmark hlit _ _ _ =>
    obtain ⟨tail, rfl⟩ := hlit.exists_tail
    obtain ⟨rfl, -⟩ := List.cons.inj hwhole
    simp only [isQuote, Bool.or_eq_true, decide_eq_true_eq] at hmark
    rcases hmark with rfl | rfl <;> exact absurd hclose (by decide)
  | lineEnd _ => exact absurd (List.cons.inj hwhole).1 (hne _ (by decide))
  | comment _ _ _ => exact absurd (List.cons.inj hwhole).1 (hne _ (by decide))
  | joined _ => exact absurd (List.cons.inj hwhole).1 (hne _ (by decide))

/-- What a token leaves of a closed text: the brackets `outer` around the text stay open, and what is left
closes the others. -/
structure Leaves (outer behind awaited : List Char) (kind : TokenKind) (next : Reading)
    (awaited' left : List Char) : Prop where
  rest_eq : next.rest = left ++ behind
  brackets_eq : next.brackets.map Prod.fst = awaited' ++ outer
  closes : Closes awaited' left
  deepen_eq : kind.deepen awaited.length = some awaited'.length

/-- A token at the start of a closed text is one of it and leaves a closed text behind. -/
theorem nextToken_closes {reading next : Reading} {kind : TokenKind} {c : Char}
    {outer awaited text behind : List Char} (hbehind : Bounded behind)
    (hrest : reading.rest = c :: text ++ behind) (hbrackets : reading.brackets.map Prod.fst = awaited ++ outer)
    (hclosed : Closes awaited (c :: text)) (hconsumes : Consumes reading kind next) :
    ∃ awaited' left, Leaves outer behind awaited kind next awaited' left := by
  obtain ⟨piece, hne, hsplit, htaken⟩ := hconsumes.taken
  rw [hrest] at hsplit
  generalize hstack : reading.brackets.map Prod.fst = stack at htaken hbrackets
  generalize hstack' : next.brackets.map Prod.fst = stack' at htaken
  cases htaken with
  | plain hopens hcloses hword =>
    obtain ⟨left, hleft, hinitial⟩ := PlainPrefix.of_bounded hbehind ⟨piece, hword, hsplit⟩
    refine ⟨awaited, left, hleft, hstack'.trans hbrackets, hclosed.of_plainPrefix hinitial, ?_⟩
    simp [TokenKind.deepen, hopens, hcloses]
  | opening hopens hopen =>
    obtain ⟨rfl, hleft⟩ := List.cons.inj hsplit
    refine ⟨_ :: awaited, text, hleft.symm, by rw [hstack', hbrackets, List.cons_append],
      hclosed.of_opening hopen, ?_⟩
    simp [TokenKind.deepen, hopens]
  | closing hopens hcloses hclose =>
    obtain ⟨rfl, hleft⟩ := List.cons.inj hsplit
    obtain ⟨awaited', rfl, hclosed'⟩ := hclosed.of_closing hclose
    obtain ⟨-, rfl⟩ := List.cons.inj hbrackets
    refine ⟨awaited', text, hleft.symm, hstack', hclosed', ?_⟩
    simp [TokenKind.deepen, hopens, hcloses]
  | @literal _ _ marks lit mark hmarks hmark hlit hempty =>
    have hslash : mark ≠ '\\' := by
      rintro rfl
      exact absurd hmark (by decide)
    rw [List.append_assoc] at hsplit
    obtain ⟨left, hleft, hinitial⟩ := PlainPrefix.of_bounded hbehind ⟨marks, hmarks, hsplit⟩
    have hclosed' := hclosed.of_plainPrefix hinitial
    obtain ⟨tail, rfl⟩ := hlit.exists_tail
    cases left with
    | nil =>
      obtain ⟨b, more, rfl, -, hquote⟩ := hbehind
      obtain ⟨rfl, -⟩ := List.cons.inj hleft
      rw [hmark] at hquote
      cases hquote
    | cons d left =>
      obtain ⟨rfl, hscanned⟩ := List.cons.inj hleft
      obtain ⟨tail', left', rfl, hlit', hempty', hclosed''⟩ := hclosed'.exists_literal hmark
      have hfollow : tail' = [mark] → (left' ++ behind).head? ≠ some mark := by
        intro htail
        cases left' with
        | nil =>
          obtain ⟨b, more, rfl, -, hquote⟩ := hbehind
          rintro ⟨⟩
          rw [hmark] at hquote
          cases hquote
        | cons e left' => exact hempty' htail
      -- The lexer takes one literal, so the literal of the text is the one that it took.
      obtain ⟨body, hscan⟩ := hlit.scanText_eq hslash (fun htail => hempty (by rw [htail])) 0
      obtain ⟨body', hscan'⟩ := hlit'.scanText_eq hslash hfollow 0
      have hsame : tail ++ next.rest = tail' ++ (left' ++ behind) := by
        rw [← List.append_assoc]
        exact hscanned
      rw [← hsame, hscan] at hscan'
      have hleft' : next.rest = left' ++ behind := congrArg (·.2.2) (Except.ok.inj hscan')
      exact ⟨awaited, left', hleft', hstack'.trans hbrackets, hclosed'', rfl⟩

/-! ## Between tokens -/

section Steps

variable {fuel : Nat} {reading : Reading} {rest : List Char}

theorem tokensFrom_newline (hrest : reading.rest = '\n' :: rest) (hbrackets : reading.brackets = []) :
    tokensFrom (fuel + 1) false reading = ⟨.newline, reading.pos⟩ ::
      tokensFrom fuel true { reading with rest, pos := reading.pos.after '\n' } := by
  obtain ⟨text, pos, indents, brackets⟩ := reading
  obtain rfl : text = '\n' :: rest := hrest
  obtain rfl : brackets = [] := hbrackets
  rfl

theorem tokensFrom_lineEnd (hrest : reading.rest = '\n' :: rest) (hbrackets : reading.brackets ≠ []) :
    tokensFrom (fuel + 1) false reading =
      tokensFrom fuel false { reading with rest, pos := reading.pos.after '\n' } := by
  obtain ⟨text, pos, indents, brackets⟩ := reading
  obtain rfl : text = '\n' :: rest := hrest
  obtain ⟨bracket, outer, rfl⟩ := List.exists_cons_of_ne_nil hbrackets
  rfl

theorem tokensFrom_comment (hrest : reading.rest = '#' :: rest) :
    tokensFrom (fuel + 1) false reading =
      tokensFrom fuel false { reading with rest := rest.dropWhile (· != '\n') } := by
  obtain ⟨text, pos, indents, brackets⟩ := reading
  obtain rfl : text = '#' :: rest := hrest
  rfl

theorem tokensFrom_joined (hrest : reading.rest = '\\' :: '\n' :: rest) (hne : rest ≠ []) :
    tokensFrom (fuel + 1) false reading =
      tokensFrom fuel false { reading with rest, pos := reading.pos.after '\n' } := by
  obtain ⟨text, pos, indents, brackets⟩ := reading
  obtain ⟨c, tail, rfl⟩ := List.exists_cons_of_ne_nil hne
  obtain rfl : text = '\\' :: '\n' :: c :: tail := hrest
  rfl

theorem tokensFrom_space {c : Char} (hrest : reading.rest = c :: rest) (hc : isSpace c = true) :
    tokensFrom (fuel + 1) false reading =
      tokensFrom fuel false { reading with rest, pos := reading.pos.after c } := by
  obtain ⟨text, pos, indents, brackets⟩ := reading
  obtain rfl : text = c :: rest := hrest
  simp only [isSpace, Bool.or_eq_true, decide_eq_true_eq] at hc
  rcases hc with (rfl | rfl) | rfl <;> rfl

theorem tokensFrom_token {c : Char} (hrest : reading.rest = c :: rest) (hspace : isSpace c = false)
    (hc : c ∉ ['\n', '#', '\\']) :
    tokensFrom (fuel + 1) false reading =
      match nextToken reading with
      | .error fault => [⟨.fault fault, reading.pos⟩]
      | .ok (kind, next) => ⟨kind, reading.pos⟩ :: tokensFrom fuel false next := by
  simp only [List.mem_cons, List.not_mem_nil, or_false, not_or] at hc
  obtain ⟨hline, hhash, hslash⟩ := hc
  obtain ⟨text, pos, indents, brackets⟩ := reading
  obtain rfl : text = c :: rest := hrest
  rw [tokensFrom]
  split
  · simp_all
  · simp_all
  · simp_all
  · simp_all
  · simp_all
  · simp_all
  · rename_i heq
    obtain ⟨rfl, rfl⟩ := List.cons.inj heq
    exact if_neg (Bool.eq_false_iff.1 hspace)

end Steps

theorem tokensFrom_of_startsToken {fuel : Nat} {reading : Reading} {c : Char} {rest : List Char}
    (hrest : reading.rest = c :: rest) (hc : startsToken c = true) :
    tokensFrom (fuel + 1) false reading =
      match nextToken reading with
      | .error fault => [⟨.fault fault, reading.pos⟩]
      | .ok (kind, next) => ⟨kind, reading.pos⟩ :: tokensFrom fuel false next := by
  simp only [startsToken, Bool.and_eq_true, Bool.not_eq_true', bne_iff_ne] at hc
  obtain ⟨⟨⟨hspace, hline⟩, hhash⟩, hslash⟩ := hc
  exact tokensFrom_token hrest hspace (by simp [hline, hhash, hslash])

/-- The places of a closed text where no token starts. -/
theorem Closes.cases_gap {awaited text : List Char} {c : Char} (h : Closes awaited (c :: text)) :
    c ∉ ['\n', '#', '\\'] ∨ (c = '\n' ∧ awaited ≠ [] ∧ Closes awaited text)
      ∨ (c = '#' ∧ ∃ note left, '\n' ∉ note ∧ text = note ++ '\n' :: left
          ∧ Closes awaited ('\n' :: left))
      ∨ (c = '\\' ∧ ∃ left, text = '\n' :: left ∧ Closes awaited left) := by
  generalize hline : c :: text = line at h
  cases h with
  | nil => cases hline
  | plain hc _ =>
    obtain ⟨rfl, -⟩ := List.cons.inj hline
    refine .inl ?_
    simp only [List.mem_cons, List.not_mem_nil, or_false]
    rintro (rfl | rfl | rfl) <;> exact absurd hc (by decide)
  | opening hopen _ =>
    obtain ⟨rfl, -⟩ := List.cons.inj hline
    refine .inl ?_
    simp only [List.mem_cons, List.not_mem_nil, or_false]
    rintro (rfl | rfl | rfl) <;> simp [closingBracket?] at hopen
  | closing hclose _ =>
    obtain ⟨rfl, -⟩ := List.cons.inj hline
    refine .inl ?_
    simp only [List.mem_cons, List.not_mem_nil, or_false]
    rintro (rfl | rfl | rfl) <;> exact absurd hclose (by decide)
  | literal hquote hlit _ _ _ =>
    obtain ⟨tail, rfl⟩ := hlit.exists_tail
    obtain ⟨rfl, -⟩ := List.cons.inj hline
    refine .inl ?_
    simp only [List.mem_cons, List.not_mem_nil, or_false]
    rintro (rfl | rfl | rfl) <;> exact absurd hquote (by decide)
  | lineEnd h =>
    obtain ⟨rfl, rfl⟩ := List.cons.inj hline
    exact .inr (.inl ⟨rfl, by simp, h⟩)
  | @comment _ left note _ hnote _ h =>
    obtain ⟨rfl, rfl⟩ := List.cons.inj hline
    exact .inr (.inr (.inl ⟨rfl, note, left, hnote, rfl, h⟩))
  | joined h =>
    obtain ⟨rfl, rfl⟩ := List.cons.inj hline
    exact .inr (.inr (.inr ⟨rfl, _, rfl, h⟩))

theorem Closes.eq_nil {awaited : List Char} (h : Closes awaited []) : awaited = [] := by
  generalize hline : [] = line at h
  cases h with
  | nil => rfl
  | literal _ hlit _ _ _ =>
    obtain ⟨tail, rfl⟩ := hlit.exists_tail
    cases hline
  | _ => cases hline

theorem dropWhile_note {note rest : List Char} (h : '\n' ∉ note) :
    (note ++ '\n' :: rest).dropWhile (· != '\n') = '\n' :: rest := by
  rw [List.dropWhile_append_of_pos, List.dropWhile_cons_of_neg]
  · simp
  · intro c hc
    simp only [bne_iff_ne, ne_eq]
    rintro rfl
    exact h hc

theorem dropWhile_of_not_mem {note : List Char} (h : '\n' ∉ note) :
    note.dropWhile (· != '\n') = [] := by
  rw [List.dropWhile_eq_nil_iff]
  intro c hc
  simp only [bne_iff_ne]
  rintro rfl
  exact h hc

end PropertyWrapper.Source
