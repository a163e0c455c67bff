import PropertyWrapper.Proofs.Source.Enclosed
import PropertyWrapper.Proofs.Source.Levels
import PropertyWrapper.Proofs.Source.Locality

/-!
# Texts as they are spelled

The tokens of a text that is read without a fault, told by the text alone. Such a text is closed up to the end
of its line, and its tokens are the same wherever the text stands.

* `Spells awaited text kinds rest` : inside a line, the tokens of `text` up to `rest` are `kinds`;
* `EnclosedAt.spells` : every text that is read without a fault is spelled by its tokens;
* `Spells.closes` : what is spelled closes the brackets that are open;
* `Spells.leads` : the tokens of a text that is spelled, with more text behind and more brackets around.
-/

namespace PropertyWrapper.Source

open Reader PropertyWrapper.Text

/-! ## Spellings -/

/-- What stands outside of all brackets behind the last token of a line: nothing, the end of the line or a
comment. -/
def EndsTokens (rest : List Char) : Prop := ∀ c ∈ rest.head?, c = '\n' ∨ c = '#'

/-- `Spells awaited text kinds rest` says that inside a line, where the brackets are open that `awaited`
closes, the tokens of `text` up to `rest` are `kinds`; behind them no bracket is open. -/
inductive Spells : List Char → List Char → List TokenKind → List Char → Prop where
  | ends {rest : List Char} : EndsTokens rest → Spells [] rest [] rest
  | space {awaited text rest : List Char} {kinds : List TokenKind} {c : Char} :
      isSpace c = true → Spells awaited text kinds rest → Spells awaited (c :: text) kinds rest
  | joined {awaited text rest : List Char} {kinds : List TokenKind} :
      text ≠ [] → Spells awaited text kinds rest → Spells awaited ('\\' :: '\n' :: text) kinds rest
  /-- A line end inside brackets. -/
  | lineEnd {awaited text rest : List Char} {kinds : List TokenKind} {c : Char} :
      Spells (c :: awaited) text kinds rest → Spells (c :: awaited) ('\n' :: text) kinds rest
  /-- A comment inside brackets, up to the end of its line. -/
  | comment {awaited text note rest : List Char} {kinds : List TokenKind} {c : Char} :
      '\n' ∉ note → Spells (c :: awaited) ('\n' :: text) kinds rest →
        Spells (c :: awaited) ('#' :: note ++ '\n' :: text) kinds rest
  | token {reading next : Reading} {text rest : List Char} {kind : TokenKind} {kinds : List TokenKind}
      {c : Char} : reading.rest = c :: text → startsToken c = true →
        nextToken reading = .ok (kind, next) →
          Spells (next.brackets.map Prod.fst) next.rest kinds rest →
            Spells (reading.brackets.map Prod.fst) (c :: text) (kind :: kinds) rest

/-- What is spelled closes the brackets that are open. -/
theorem Spells.closes {awaited text rest : List Char} {kinds : List TokenKind}
    (h : Spells awaited text kinds rest) (hreturn : '\r' ∉ text) :
    ∃ front, text = front ++ rest ∧ Closes awaited front := by
  induction h with
  | ends _ => exact ⟨[], rfl, .nil⟩
  | @space _ _ _ _ c hc _ ih =>
    obtain ⟨front, rfl, hfront⟩ := ih fun hmem => hreturn (List.mem_cons_of_mem _ hmem)
    exact ⟨c :: front, rfl, .plain (isPlain_of_isSpace hc) hfront⟩
  | joined _ _ ih =>
    obtain ⟨front, rfl, hfront⟩ := ih fun hmem => hreturn (by simp [hmem])
    exact ⟨'\\' :: '\n' :: front, rfl, .joined hfront⟩
  | lineEnd _ ih =>
    obtain ⟨front, rfl, hfront⟩ := ih fun hmem => hreturn (List.mem_cons_of_mem _ hmem)
    exact ⟨'\n' :: front, rfl, .lineEnd hfront⟩
  | @comment _ text note rest _ _ hnote _ ih =>
    simp only [List.cons_append, List.mem_cons, List.mem_append, not_or] at hreturn
    obtain ⟨front, hsplit, hfront⟩ := ih (by simp [hreturn.2.2.2])
    have hline : ∃ front', front = '\n' :: front' ∧ text = front' ++ rest := by
      cases front with
      | nil => exact absurd hfront.eq_nil (List.cons_ne_nil _ _)
      | cons d front' =>
        obtain ⟨rfl, rfl⟩ := List.cons.inj hsplit
        exact ⟨front', rfl, rfl⟩
    obtain ⟨front', rfl, rfl⟩ := hline
    refine ⟨'#' :: note ++ '\n' :: front', by simp, .comment hnote hreturn.2.1 hfront⟩
  | token hrest hc hnext _ ih =>
    obtain ⟨piece, -, hsplit, htaken⟩ := (nextToken_consumes hrest hc hnext).taken
    rw [← hrest, hsplit, List.mem_append, not_or] at hreturn
    obtain ⟨front, hfront, hclosed⟩ := ih hreturn.2
    refine ⟨piece ++ front, by rw [← hrest, hsplit, hfront, List.append_assoc], ?_⟩
    exact htaken.closes hreturn.1 hclosed ⟨_, hfront.symm⟩

theorem Spells.endsTokens {awaited text rest : List Char} {kinds : List TokenKind}
    (h : Spells awaited text kinds rest) : EndsTokens rest := by
  induction h with
  | ends h => exact h
  | _ => assumption

/-! ## Reading what is spelled -/

variable {tokens : Array Token} {index : Nat} {indents : List Indent} {outer awaited text rest behind : List Char}
  {kinds : List TokenKind}

/-- What is spelled stands with its tokens also in front of more text and inside more brackets, as long as
these are not too many. -/
theorem Spells.leads (h : Spells awaited text kinds rest) (hbehind : Apart behind)
    (hat : EnclosedAt tokens index indents (awaited ++ outer) (text ++ behind)) :
    Leads tokens (fun stop => EnclosedAt tokens stop indents outer (rest ++ behind)) index kinds := by
  induction h generalizing index with
  | ends _ => exact .done hat
  | space hc _ ih => exact ih (hat.blank hc)
  | joined _ _ ih => exact ih (hat.joined (by simp [hbehind.ne_nil]))
  | lineEnd _ ih => exact ih hat.lineEnd
  | comment hnote _ ih =>
    refine ih (EnclosedAt.comment hnote ?_)
    simpa using hat
  | @token reading next _ _ kind _ c hrest hc hnext _ ih =>
    obtain ⟨fuel, reading', htokens, hrest', rfl, hbrackets, hfuel⟩ := hat
    obtain ⟨fuel, rfl⟩ : ∃ n, fuel = n + 1 := ⟨fuel - 1, by omega⟩
    have hextends : reading.Extends behind outer reading' := ⟨by rw [hrest', hrest], hbrackets⟩
    rw [tokensFrom_of_startsToken hrest' hc] at htokens
    rcases nextToken_append hextends hbehind (by simp [hrest]) hnext with ⟨fault, heq⟩ |
      ⟨next', heq, hnext', hindents⟩
    · rw [heq] at htokens
      exact .fault (by rw [(tokenAt_of_drop htokens).1])
    · rw [heq] at htokens
      obtain ⟨htoken, hdrop⟩ := tokenAt_of_drop htokens
      refine .token (by rw [htoken]) (ih ⟨fuel, next', hdrop, hnext'.rest_eq, hindents,
        hnext'.brackets_eq, ?_⟩)
      have hlength := (nextToken_consumes hrest hc hnext).length_lt
      rw [hrest] at hlength
      simp only [List.length_append, List.length_cons] at hfuel hlength ⊢
      omega

/-! ## What was read is spelled -/

/-- Whether a token stands behind the tokens of a line. -/
def TokenKind.endsTokens : TokenKind → Bool
  | .newline | .finish => true
  | _ => false

/-- The source ends at the end of the text, unless a bracket is open. -/
theorem EnclosedAt.at_end (h : EnclosedAt tokens index indents awaited []) :
    (awaited = [] ∧ (tokenAt tokens index).kind = .finish)
      ∨ ∃ fault, (tokenAt tokens index).kind = .fault fault := by
  obtain ⟨fuel, reading, htokens, hrest, rfl, hbrackets, hfuel⟩ := h
  obtain ⟨fuel, rfl⟩ : ∃ n, fuel = n + 1 := ⟨fuel - 1, by omega⟩
  obtain ⟨text, pos, indents, brackets⟩ := reading
  obtain rfl : text = [] := hrest
  cases brackets with
  | nil =>
    refine .inl ⟨hbrackets.symm, ?_⟩
    rw [(tokenAt_of_drop htokens).1]
  | cons bracket outer =>
    refine .inr ⟨.unclosedBracket (openingFor bracket.1), ?_⟩
    rw [(tokenAt_of_drop htokens).1]

/-- A backslash joins the next line, if there is one. -/
theorem EnclosedAt.at_backslash (h : EnclosedAt tokens index indents awaited ('\\' :: text)) :
    (∃ left, text = '\n' :: left ∧ left ≠ []) ∨ ∃ fault, (tokenAt tokens index).kind = .fault fault := by
  obtain ⟨fuel, reading, htokens, hrest, rfl, hbrackets, hfuel⟩ := h
  obtain ⟨fuel, rfl⟩ : ∃ n, fuel = n + 1 := ⟨fuel - 1, by omega⟩
  obtain ⟨text', pos, indents, brackets⟩ := reading
  obtain rfl : text' = '\\' :: text := hrest
  rw [tokensFrom] at htokens
  split at htokens
  · rename_i heq
    cases heq
  · rename_i heq
    cases heq
  · rename_i heq
    cases heq
  · exact .inr ⟨_, by rw [(tokenAt_of_drop htokens).1]⟩
  · rename_i left hne heq
    obtain ⟨-, rfl⟩ := List.cons.inj heq
    exact .inl ⟨left, rfl, by rintro rfl; exact hne rfl⟩
  · exact .inr ⟨_, by rw [(tokenAt_of_drop htokens).1]⟩
  · rename_i hslash heq
    obtain ⟨rfl, rfl⟩ := List.cons.inj heq
    exact (hslash rfl).elim

/-- A text that is read without a fault up to the end of a line is spelled by its tokens. -/
theorem EnclosedAt.spells (hat : EnclosedAt tokens index indents awaited text)
    (hkinds : StandsAt tokens index kinds) (hinline : ∀ kind ∈ kinds, kind.isInline = true)
    (hends : (tokenAt tokens (index + kinds.length)).kind.endsTokens = true) :
    ∃ rest, Spells awaited text kinds rest
      ∧ EnclosedAt tokens (index + kinds.length) indents [] rest := by
  -- Every step takes a character of the text, so its length carries the induction.
  generalize hlength : text.length = length
  induction length using Nat.strong_induction_on generalizing index text awaited kinds with
  | _ length ih =>
    have hfault : ∀ fault, (tokenAt tokens index).kind ≠ .fault fault := by
      intro fault hfault
      cases kinds with
      | nil =>
        rw [List.length_nil, Nat.add_zero, hfault] at hends
        cases hends
      | cons kind kinds =>
        have hkind := hinline kind (by simp)
        rw [← hkinds.1, hfault] at hkind
        cases hkind
    have hnil : (tokenAt tokens index).kind.endsTokens = true → kinds = [] := by
      intro hindex
      cases kinds with
      | nil => rfl
      | cons kind kinds =>
        have hkind := hinline kind (by simp)
        rw [← hkinds.1] at hkind
        revert hkind hindex
        cases (tokenAt tokens index).kind <;> simp [TokenKind.endsTokens, TokenKind.isInline]
    have hskip : ∀ {left : List Char}, EnclosedAt tokens index indents awaited left →
        left.length < length → ∃ rest, Spells awaited left kinds rest
          ∧ EnclosedAt tokens (index + kinds.length) indents [] rest :=
      fun hleft hlt => ih _ hlt hleft hkinds hinline hends rfl
    cases text with
    | nil =>
      obtain ⟨rfl, hfinish⟩ := hat.at_end.resolve_right fun ⟨fault, h⟩ => hfault fault h
      obtain rfl := hnil (by rw [hfinish]; rfl)
      exact ⟨[], .ends (by simp [EndsTokens]), hat⟩
    | cons c text =>
      rw [List.length_cons] at hlength
      by_cases hspace : isSpace c = true
      · obtain ⟨rest, hspells, hrest⟩ := hskip (hat.blank hspace) (by omega)
        exact ⟨rest, .space hspace hspells, hrest⟩
      by_cases hline : c = '\n'
      · subst hline
        cases awaited with
        | nil =>
          obtain rfl := hnil (by rw [(enclosedAt_nil.1 hat).newline.1]; rfl)
          exact ⟨_, .ends (by simp [EndsTokens]), hat⟩
        | cons closing awaited =>
          obtain ⟨rest, hspells, hrest⟩ := hskip hat.lineEnd (by omega)
          exact ⟨rest, .lineEnd hspells, hrest⟩
      by_cases hhash : c = '#'
      · subst hhash
        by_cases hmem : '\n' ∈ text
        · obtain ⟨note, left, rfl, hnote⟩ := List.eq_append_cons_of_mem hmem
          have hleft := hat.comment hnote
          cases awaited with
          | nil =>
            obtain rfl := hnil (by rw [(enclosedAt_nil.1 hleft).newline.1]; rfl)
            exact ⟨_, .ends (by simp [EndsTokens]), hat⟩
          | cons closing awaited =>
            obtain ⟨rest, hspells, hrest⟩ := hskip hleft (by simp at hlength ⊢; omega)
            exact ⟨rest, .comment hnote hspells, hrest⟩
        · obtain ⟨rfl, hfinish⟩ :=
            (hat.comment_end hmem).at_end.resolve_right fun ⟨fault, h⟩ => hfault fault h
          obtain rfl := hnil (by rw [hfinish]; rfl)
          exact ⟨_, .ends (by simp [EndsTokens]), hat⟩
      by_cases hslash : c = '\\'
      · subst hslash
        obtain ⟨left, rfl, hne⟩ := hat.at_backslash.resolve_right fun ⟨fault, h⟩ => hfault fault h
        obtain ⟨rest, hspells, hrest⟩ := hskip (hat.joined hne) (by simp at hlength; omega)
        exact ⟨rest, .joined hne hspells, hrest⟩
      have hc : startsToken c = true := by simp [startsToken, hspace, hline, hhash, hslash]
      obtain ⟨reading, kind, next, hreading, rfl, hnext, hkind, hat'⟩ :=
        (hat.at_token hc).resolve_right fun ⟨fault, h⟩ => hfault fault h
      have hconsumes := nextToken_consumes hreading hc hnext
      cases kinds with
      | nil =>
        rw [List.length_nil, Nat.add_zero, hkind] at hends
        have hinline := hconsumes.isInline
        revert hends hinline
        cases kind <;> simp [TokenKind.endsTokens, TokenKind.isInline]
      | cons kind' kinds =>
        obtain rfl : kind = kind' := hkind.symm.trans hkinds.1
        have hlt := hconsumes.length_lt
        rw [hreading, List.length_cons] at hlt
        have hindex : index + 1 + kinds.length = index + (kind :: kinds).length := by
          rw [List.length_cons]
          omega
        obtain ⟨rest, hspells, hrest⟩ := ih _ (by omega) hat' hkinds.2
          (fun kind hmem => hinline kind (by simp [hmem])) (by rw [hindex]; exact hends) rfl
        exact ⟨rest, .token hreading hc hnext hspells, hindex ▸ hrest⟩

end PropertyWrapper.Source
