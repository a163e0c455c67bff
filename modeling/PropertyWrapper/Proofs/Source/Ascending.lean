import PropertyWrapper.Proofs.Result
import PropertyWrapper.Proofs.Source.Expressions
import PropertyWrapper.Proofs.Source.Margins

/-!
# Tokens in source order

The tokens of a line have places of their own: each one starts behind all tokens that stand in front of
it. Only the tokens for line ends, blocks and faults may share a place with another one.

* `Position.Before` : strict source order;
* `nextToken_before` : a token takes characters, so that reading goes on behind its place;
* `Ascending` : the places of the tokens inside lines ascend;
* `ascending_tokens` : they do in the tokens of every text.
-/

namespace PropertyWrapper.Source

open Reader

/-! ## Source order -/

/-- Strict source order: by line, then by column. -/
def Position.Before (a b : Position) : Prop :=
  a.line < b.line ∨ a.line = b.line ∧ a.column < b.column

namespace Position

variable {a b c : Position}

theorem le_iff : a.le b = true ↔ a.line < b.line ∨ a.line = b.line ∧ a.column ≤ b.column := by
  simp only [Position.le, Bool.or_eq_true, Bool.and_eq_true, decide_eq_true_eq, beq_iff_eq]

/-- The strict order in terms of the other one. -/
theorem before_iff : a.Before b ↔ b.le a = false := by
  rw [← Bool.not_eq_true, le_iff, Before]
  omega

theorem le_refl (a : Position) : a.le a = true := by
  rw [le_iff]
  omega

theorem le_trans (h : a.le b = true) (h' : b.le c = true) : a.le c = true := by
  rw [le_iff] at *
  omega

theorem Before.le (h : a.Before b) : a.le b = true := by
  rw [Before] at h
  rw [le_iff]
  omega

theorem Before.trans_le (h : a.Before b) (h' : b.le c = true) : a.Before c := by
  rw [Before] at *
  rw [le_iff] at h'
  omega

theorem le_trans_before (h : a.le b = true) (h' : b.Before c) : a.Before c := by
  rw [Before] at *
  rw [le_iff] at h
  omega

theorem before_after (a : Position) (char : Char) : a.Before (a.after char) := by
  have hsize := char.utf8Size_pos
  rw [after, Before]
  split
  · exact .inl (Nat.lt_succ_self _)
  · exact .inr ⟨rfl, by simpa using hsize⟩

theorem le_afterAll (a : Position) (characters : List Char) : a.le (a.afterAll characters) = true := by
  induction characters generalizing a with
  | nil => exact le_refl a
  | cons char characters ih => exact le_trans (before_after a char).le (ih _)

theorem before_afterAll (a : Position) {characters : List Char} (h : characters ≠ []) :
    a.Before (a.afterAll characters) := by
  obtain ⟨char, rest, rfl⟩ := List.exists_cons_of_ne_nil h
  exact (before_after a char).trans_le (le_afterAll _ rest)

theorem le_forward (a : Position) (columns : Nat) : a.le (a.forward columns) = true :=
  le_iff.2 (.inr ⟨rfl, Nat.le_add_right _ _⟩)

theorem before_forward (a : Position) {columns : Nat} (h : 0 < columns) :
    a.Before (a.forward columns) :=
  .inr ⟨rfl, Nat.lt_add_of_pos_right h⟩

end Position

/-! ## Lengths of numbers -/

/-- A number, if it was read, has at least a number of characters. -/
def TakesAtLeast (least : Nat) (result : NumberResult) : Prop :=
  ∀ token count rest, result = .ok (token, count, rest) → least ≤ count

namespace TakesAtLeast

variable {least : Nat}

theorem error (fault : LexicalFault) : TakesAtLeast least (.error fault) := by
  intro token count rest h
  cases h

theorem ok {token : TokenKind} {count : Nat} {rest : List Char} (h : least ≤ count) :
    TakesAtLeast least (.ok (token, count, rest)) := by
  intro token' count' rest' heq
  cases heq
  exact h

theorem endNumber {kind : NumberKind} {token : TokenKind} {count : Nat} {rest : List Char}
    (h : least ≤ count) : TakesAtLeast least (endNumber kind token count rest) := by
  unfold Source.endNumber
  split
  · exact .ok h
  · exact .error _

theorem radixNumber (kind : NumberKind) (base : Nat) (isDigit : Char → Bool) (rest : List Char) :
    TakesAtLeast 1 (radixNumber kind base isDigit rest) := by
  unfold Source.radixNumber
  split
  split
  · exact .error _
  · split
    · exact .error _
    · exact .endNumber (by omega)

theorem endFloat {digits : List Char} {scale : Int} {count : Nat} {rest : List Char}
    (h : least ≤ count) : TakesAtLeast least (endFloat digits scale count rest) := by
  unfold Source.endFloat
  dsimp only
  split
  · split
    · exact .endNumber (by omega)
    · exact .endNumber h
  · exact .ok h

theorem afterFraction {digits : List Char} {places count : Nat} {rest : List Char}
    (h : least ≤ count) : TakesAtLeast least (afterFraction digits places count rest) := by
  unfold Source.afterFraction
  dsimp only
  split
  · split
    · split
      · exact .error _
      · exact .endNumber h
      · exact .endFloat (by omega)
    · exact .endFloat h
  · exact .endFloat h

theorem afterPoint {whole : List Char} {count : Nat} {rest : List Char} (h : least ≤ count) :
    TakesAtLeast least (afterPoint whole count rest) := by
  unfold Source.afterPoint
  split
  · split
    · split
      · exact .error _
      · exact .afterFraction (by omega)
    · exact .afterFraction h
  · exact .afterFraction h

theorem afterWhole {digits : List Char} {count : Nat} {rest : List Char} (h : least ≤ count) :
    TakesAtLeast least (afterWhole digits count rest) := by
  have hinteger : TakesAtLeast least (if hasSuperfluousZeros digits then .error .leadingZeros
      else Source.endNumber .decimal (decimalToken digits) count rest) := by
    split
    · exact .error _
    · exact .endNumber h
  unfold Source.afterWhole
  dsimp only
  split
  · exact .afterPoint (by omega)
  · split
    · split
      · split
        · exact .afterFraction h
        · exact .endNumber h
      · exact .afterFraction h
    · split
      · exact .afterFraction h
      · exact hinteger
  · exact hinteger

end TakesAtLeast

theorem digitRun_count {isDigit : Char → Bool} {text : List Char} {run : Digits}
    (h : digitRun isDigit text = some run) : 1 ≤ run.count := by
  unfold digitRun at h
  split at h
  · split at h
    · obtain ⟨tail, -, rfl⟩ := Option.map_eq_some_iff.1 h
      exact Nat.le_add_left _ _
    · cases h
  · cases h

/-- A number has a character. -/
theorem takesAtLeast_scanNumber (text : List Char) : TakesAtLeast 1 (scanNumber text) := by
  unfold scanNumber
  split
  · exact .afterPoint (Nat.le_refl 1)
  · dsimp only
    split
    · exact .radixNumber _ _ _ _
    · split
      · exact .radixNumber _ _ _ _
      · split
        · exact .radixNumber _ _ _ _
        · split
          · exact .error _
          · rename_i run hrun
            exact .afterWhole (digitRun_count hrun)
  · split
    · exact .error _
    · rename_i run hrun
      exact .afterWhole (digitRun_count hrun)

/-! ## Tokens -/

section NextToken

variable {reading next : Reading} {kind : TokenKind}

theorem textToken_before {marks rest : List Char} {mark : Char}
    (h : textToken marks mark reading rest = .ok (kind, next)) : reading.pos.Before next.pos := by
  unfold textToken at h
  obtain ⟨⟨body, characters, left⟩, hscan, h⟩ := bind_eq_ok_iff.1 h
  cases h
  have hnonempty : characters ≠ [] := by
    unfold scanText at hscan
    split at hscan
    · split at hscan
      · cases hscan
        simp
      · cases hscan
    · split at hscan
      · cases hscan
        simp
      · cases hscan
  exact Position.le_trans_before (Position.le_forward _ _) (Position.before_afterAll _ hnonempty)

theorem symbolToken_pos {symbol : Symbol} {length : Nat}
    (h : symbolToken symbol length reading = .ok (kind, next)) :
    next.pos = reading.pos.forward length := by
  unfold symbolToken at h
  cases hbrackets : reading.brackets <;> cases symbol <;> simp_all [closingOf] <;> grind

theorem scanSymbol_length {text : List Char} {symbol : Symbol} {length : Nat}
    (h : scanSymbol text = some (symbol, length)) : 0 < length := by
  obtain ⟨entry, hentry, heq⟩ := Option.map_eq_some_iff.1 h
  cases heq
  have hnonempty : ∀ entry ∈ symbolTable, 0 < entry.1.length := by decide
  exact hnonempty entry (List.mem_of_find?_eq_some hentry)

/-- A token takes characters. -/
theorem nextToken_before (h : nextToken reading = .ok (kind, next)) (hrest : reading.rest ≠ []) :
    reading.pos.Before next.pos := by
  obtain ⟨c, tail, hcons⟩ := List.exists_cons_of_ne_nil hrest
  by_cases hword : (isWordCharacter c && !c.isDigit) = true
  · rw [Bool.and_eq_true, Bool.not_eq_true'] at hword
    obtain ⟨hc, hdigit⟩ := hword
    have hafter : reading.pos.Before reading.afterWord.pos := by
      refine Position.before_afterAll _ ?_
      rw [hcons, List.takeWhile_cons_of_pos hc]
      simp
    rw [nextToken_word_eq hcons hc hdigit] at h
    split at h
    · exact textToken_before h
    · rcases wordToken_cases (reading.rest.takeWhile isWordCharacter) with hw | ⟨reserved, hw⟩ | hw
      · rw [hw] at h
        cases h
        exact hafter
      · rw [hw] at h
        cases h
        exact hafter
      · rw [hw] at h
        cases h
  · rw [nextToken_of_not_word hcons (Bool.eq_false_iff.2 hword)] at h
    split at h
    · obtain ⟨⟨token, count, rest⟩, hnumber, h⟩ := bind_eq_ok_iff.1 h
      cases h
      exact Position.before_forward _ (takesAtLeast_scanNumber _ _ _ _ hnumber)
    · split at h
      · exact textToken_before h
      · split at h
        · cases h
          exact Position.before_forward _ (by decide)
        · split at h
          · rename_i symbol length hsymbol
            rw [symbolToken_pos h]
            exact Position.before_forward _ (scanSymbol_length hsymbol)
          · split at h
            · cases h
              exact Position.before_after _ _
            · cases h

end NextToken

theorem scanIndent_le {indent joined indent' : Indent} {pos pos' : Position} {text rest : List Char}
    (h : scanIndent indent joined pos text = .ok (indent', pos', rest)) : pos.le pos' = true := by
  fun_induction scanIndent indent joined pos text with
  | case1 _ _ pos _ ih => exact Position.le_trans (Position.before_after pos _).le (ih h)
  | case2 _ _ pos _ ih => exact Position.le_trans (Position.before_after pos _).le (ih h)
  | case3 _ _ pos _ ih => exact Position.le_trans (Position.before_after pos _).le (ih h)
  | case4 => cases h
  | case5 _ _ pos _ _ _ ih => exact Position.le_trans (Position.before_after pos _).le (ih h)
  | case6 => cases h
  | case7 =>
    cases h
    exact Position.le_refl _

/-! ## All tokens -/

/-- The tokens inside lines stand in source order from a place on. -/
structure InOrderFrom (pos : Position) (tokens : List Token) : Prop where
  behind : ∀ token ∈ tokens, token.kind.isInline = true → pos.le token.pos = true
  pairwise : tokens.Pairwise fun a b =>
    a.kind.isInline = true → b.kind.isInline = true → a.pos.Before b.pos

namespace InOrderFrom

variable {pos pos' : Position} {tokens : List Token}

theorem of_le (h : InOrderFrom pos' tokens) (hle : pos.le pos' = true) : InOrderFrom pos tokens :=
  ⟨fun token hmem hinline => Position.le_trans hle (h.behind token hmem hinline), h.pairwise⟩

/-- A token that does not count. -/
theorem cons_other {token : Token} (h : InOrderFrom pos tokens) (hkind : token.kind.isInline = false) :
    InOrderFrom pos (token :: tokens) := by
  refine ⟨List.forall_mem_cons.2 ⟨fun hinline => ?_, h.behind⟩,
    List.pairwise_cons.2 ⟨fun other _ hinline => ?_, h.pairwise⟩⟩
  · rw [hkind] at hinline
    cases hinline
  · rw [hkind] at hinline
    cases hinline

theorem single {token : Token} (hkind : token.kind.isInline = false) : InOrderFrom pos [token] :=
  cons_other ⟨by simp, .nil⟩ hkind

/-- A token in front of those behind its place. -/
theorem cons {kind : TokenKind} (h : InOrderFrom pos' tokens) (hbefore : pos.Before pos') :
    InOrderFrom pos (⟨kind, pos⟩ :: tokens) := by
  refine ⟨List.forall_mem_cons.2 ⟨fun _ => Position.le_refl pos, ?_⟩,
    List.pairwise_cons.2 ⟨fun other hmem _ hinline => ?_, h.pairwise⟩⟩
  · exact (h.of_le hbefore.le).behind
  · exact hbefore.trans_le (h.behind other hmem hinline)

theorem append_others {others : List Token} (h : InOrderFrom pos tokens)
    (hothers : ∀ token ∈ others, token.kind.isInline = false) : InOrderFrom pos (others ++ tokens) := by
  induction others with
  | nil => exact h
  | cons token others ih =>
    obtain ⟨htoken, hrest⟩ := List.forall_mem_cons.1 hothers
    exact (ih hrest).cons_other htoken

end InOrderFrom

/-- All tokens that are read from a place on stand in source order. -/
theorem inOrderFrom_tokensFrom (fuel : Nat) (fresh : Bool) (reading : Reading) :
    InOrderFrom reading.pos (tokensFrom fuel fresh reading) := by
  fun_induction tokensFrom fuel fresh reading with
  | case1 => exact .single rfl
  | case2 => exact .single rfl
  | case3 =>
    rename_i pos _ hscan _ ih
    exact ih.of_le (Position.le_trans (scanIndent_le hscan) (Position.before_after pos _).le)
  | case4 =>
    rename_i pos _ hscan _ _ ih
    refine ih.of_le (Position.le_trans (scanIndent_le hscan) ?_)
    exact Position.le_iff.2 (.inl (Nat.lt_succ_self _))
  | case5 => exact .single rfl
  | case6 =>
    rename_i hscan _ _ _ hindents _ _ ih
    refine (ih.of_le (scanIndent_le hscan)).append_others fun token hmem => ?_
    obtain ⟨kind, hkind, rfl⟩ := List.mem_map.1 hmem
    rcases mem_indentTokens hindents hkind with rfl | rfl
    · rfl
    · rfl
  | case7 => exact .single rfl
  | case8 => exact .single rfl
  | case9 =>
    rename_i reading _ _ _ _ ih
    exact (ih.of_le (Position.before_after reading.pos _).le).cons_other rfl
  | case10 =>
    rename_i reading _ _ _ _ ih
    exact ih.of_le (Position.before_after reading.pos _).le
  | case11 =>
    rename_i ih
    exact ih
  | case12 => exact .single rfl
  | case13 =>
    rename_i reading _ _ _ ih
    exact ih.of_le (Position.before_after reading.pos _).le
  | case14 => exact .single rfl
  | case15 =>
    rename_i reading _ _ _ _ _ _ _ _ _ ih
    exact ih.of_le (Position.before_after reading.pos _).le
  | case16 => exact .single rfl
  | case17 =>
    rename_i hrest _ _ _ htoken ih
    exact ih.cons (nextToken_before htoken (by rw [hrest]; simp))

/-! ## Places of tokens -/

/-- All names among some tokens are words, and the tokens inside lines have places in source order. -/
structure Ascending (tokens : Array Token) : Prop where
  words : WordTokens tokens
  before : ∀ i j, i < j → (tokenAt tokens i).kind.isInline = true →
    (tokenAt tokens j).kind.isInline = true → (tokenAt tokens i).pos.Before (tokenAt tokens j).pos

/-- The tokens of every text stand in source order. -/
theorem ascending_tokens (text : List Char) : Ascending (tokens text) := by
  refine ⟨wordTokens_tokens text, fun i j hij hi hj => ?_⟩
  have hordered := (inOrderFrom_tokensFrom (2 * text.length + 2) true
    { rest := text, pos := ⟨1, 0⟩, indents := [⟨0, 0⟩], brackets := [] }).pairwise
  -- Behind the last token stands the end of the source only, which is not inside a line.
  have hsize : j < (tokens text).size := by
    refine lt_size_of_ne_finish fun hfinish => ?_
    rw [hfinish] at hj
    cases hj
  have hget : ∀ k (hk : k < (tokens text).size), tokenAt (tokens text) k = (tokens text)[k] := by
    intro k hk
    rw [tokenAt, Array.getElem?_eq_getElem hk, Option.getD_some]
  rw [hget i (by omega)] at hi ⊢
  rw [hget j hsize] at hj ⊢
  exact List.pairwise_iff_getElem.1 hordered i j (by simpa [tokens] using Nat.lt_trans hij hsize)
    (by simpa [tokens] using hsize) hij hi hj

end PropertyWrapper.Source
