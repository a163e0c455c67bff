import Mathlib
import PropertyWrapper.Source.Lexer
import PropertyWrapper.Source.TextValue

/-!
# Closed texts

A text is closed when it can stand anywhere in a line without changing where that line ends: its
quotes and brackets are closed in it, and it holds a line end only inside brackets or behind a
backslash.

* `Closes awaited text` : reading `text` closes exactly the brackets `awaited`, the innermost one first;
* `Closes.append` : closed texts can be put together, as long as no quote meets a quote;
* `SingleBody.scanText_eq`, `IsLiteral.scanText_eq` : the lexer takes a literal as a whole.

Everything that the lexer needs to know about a piece of a line is in `Closes`; how the piece is cut
into tokens does not matter.
-/

namespace PropertyWrapper.Source

open PropertyWrapper.Text

/-! ## Characters -/

/-- Whether a character opens or closes a text literal. -/
def isQuote (c : Char) : Bool := c = '\x27' || c = '\x22'

/-- Whether a character closes a bracket. -/
def isClosing (c : Char) : Bool := c = ')' || c = ']' || c = '\x7d'

/-- Whether a character belongs neither to quotes nor to brackets and ends no line. -/
def isPlain (c : Char) : Bool :=
  !isQuote c && !isClosing c && (closingBracket? c).isNone
    && c != '\\' && c != '#' && c != '\n' && c != '\r'

/-- The characters of words are plain. -/
theorem isPlain_of_isWordCharacter {c : Char} (h : isWordCharacter c = true) :
    isPlain c = true := by
  have hne : ∀ d : Char, isWordCharacter d = false → c ≠ d := by
    rintro d hd rfl
    rw [h] at hd
    cases hd
  have hclosing : closingBracket? c = none := by
    unfold closingBracket?
    split
    · exact absurd rfl (hne '(' (by decide))
    · exact absurd rfl (hne '[' (by decide))
    · exact absurd rfl (hne '\x7b' (by decide))
    · rfl
  simp [isPlain, isQuote, isClosing, hclosing, hne ')' (by decide), hne ']' (by decide),
    hne '\x7d' (by decide), hne '\x27' (by decide), hne '\x22' (by decide), hne '\\' (by decide),
    hne '#' (by decide), hne '\n' (by decide), hne '\r' (by decide)]

/-! ## Literals -/

/-- The characters between two single quotes: each of them stands for itself or is escaped. -/
inductive SingleBody (mark : Char) : List Char → Prop where
  | nil : SingleBody mark []
  | escape {c : Char} {rest : List Char} :
      SingleBody mark rest → SingleBody mark ('\\' :: c :: rest)
  | char {c : Char} {rest : List Char} :
      c ≠ mark → c ≠ '\\' → c ≠ '\n' → SingleBody mark rest → SingleBody mark (c :: rest)

/-- The characters between two triple quotes: the quote does not occur before its end. -/
inductive TripleBody (mark : Char) : List Char → Prop where
  | nil : TripleBody mark []
  | escape {c : Char} {rest : List Char} :
      TripleBody mark rest → TripleBody mark ('\\' :: c :: rest)
  | char {c : Char} {rest : List Char} :
      c ≠ '\\' → (c = mark → ¬ [mark, mark] <+: rest ++ [mark, mark]) →
        TripleBody mark rest → TripleBody mark (c :: rest)

/-- A literal with its quotes. -/
inductive IsLiteral (mark : Char) : List Char → Prop where
  | single {body : List Char} : SingleBody mark body → IsLiteral mark (mark :: body ++ [mark])
  | triple {body : List Char} : TripleBody mark body →
      IsLiteral mark ([mark, mark, mark] ++ body ++ [mark, mark, mark])

theorem SingleBody.append {mark : Char} {a b : List Char} (ha : SingleBody mark a)
    (hb : SingleBody mark b) : SingleBody mark (a ++ b) := by
  induction ha with
  | nil => exact hb
  | escape _ ih => exact .escape ih
  | char hmark hslash hline _ ih => exact .char hmark hslash hline ih

/-- What stands between single quotes can stand between triple ones. -/
theorem SingleBody.triple {mark : Char} {body : List Char} (h : SingleBody mark body) :
    TripleBody mark body := by
  induction h with
  | nil => exact .nil
  | escape _ ih => exact .escape ih
  | char hmark hslash _ _ ih => exact .char hslash (fun hc => absurd hc hmark) ih

/-- The lexer reads single quotes up to the first mark that is not escaped. -/
theorem SingleBody.singleBody_eq {mark : Char} {body : List Char} (h : SingleBody mark body)
    (hslash : mark ≠ '\\') (passed : Nat) (rest : List Char) :
    singleBody mark passed (body ++ mark :: rest) = .ok (body, rest) := by
  induction h generalizing passed with
  | nil =>
    rw [List.nil_append, singleBody.eq_3 _ _ _ _ (by simp [hslash])]
    simp
  | @escape c body _ ih =>
    rw [List.cons_append, List.cons_append, singleBody, ih]
    rfl
  | @char c body hmark hc hline _ ih =>
    rw [List.cons_append, singleBody.eq_3 _ _ _ _ (by simp [hc]), if_neg hmark, if_neg hline, ih]
    rfl

/-- The lexer reads triple quotes up to the first three marks of which none is escaped. -/
theorem TripleBody.tripleBody_eq {mark : Char} {body : List Char} (h : TripleBody mark body)
    (hslash : mark ≠ '\\') (rest : List Char) :
    tripleBody mark (body ++ mark :: mark :: mark :: rest) = some (body, rest) := by
  induction h with
  | nil =>
    rw [List.nil_append, tripleBody.eq_3 _ _ _ (by simp [hslash])]
    simp
  | @escape c body _ ih =>
    rw [List.cons_append, List.cons_append, tripleBody, ih]
    rfl
  | @char c body hc hmark _ ih =>
    have hopen : (decide (c = mark)
        && [mark, mark].isPrefixOf (body ++ mark :: mark :: mark :: rest)) = false := by
      rw [Bool.and_eq_false_iff]
      by_cases hcm : c = mark
      · right
        rw [Bool.eq_false_iff]
        intro hinitial
        rw [List.isPrefixOf_iff_prefix] at hinitial
        apply hmark hcm
        match body with
        | [] => simp
        | [d] =>
          simp only [List.cons_append, List.nil_append, List.cons_prefix_cons] at hinitial ⊢
          exact ⟨hinitial.1, hinitial.2.1, List.nil_prefix⟩
        | d :: e :: tail =>
          simp only [List.cons_append, List.cons_prefix_cons] at hinitial ⊢
          exact ⟨hinitial.1, hinitial.2.1, List.nil_prefix⟩
      · left
        simp [hcm]
    rw [List.cons_append, tripleBody.eq_3 _ _ _ (by simp [hc]), hopen, ih]
    rfl

/-- A literal starts with its mark. -/
theorem IsLiteral.exists_tail {mark : Char} {lit : List Char} (h : IsLiteral mark lit) :
    ∃ tail, lit = mark :: tail := by
  cases h with
  | single _ => exact ⟨_, rfl⟩
  | triple _ => exact ⟨_, rfl⟩

/-- The lexer takes what stands between single quotes, unless another mark follows an empty literal. -/
theorem SingleBody.scanText_eq {mark : Char} {body rest : List Char} (h : SingleBody mark body)
    (hslash : mark ≠ '\\') (hrest : body = [] → rest.head? ≠ some mark) (line : Nat) :
    scanText line mark (body ++ mark :: rest) = .ok (body, mark :: body ++ [mark], rest) := by
  have hopen : [mark, mark].isPrefixOf (body ++ mark :: rest) = false := by
    rw [Bool.eq_false_iff]
    intro hinitial
    rw [List.isPrefixOf_iff_prefix] at hinitial
    match body, h with
    | [], _ =>
      match rest, hrest with
      | [], _ => simp [List.cons_prefix_cons] at hinitial
      | d :: rest, hd =>
        simp only [List.nil_append, List.cons_prefix_cons] at hinitial
        exact hd rfl (by rw [List.head?_cons, hinitial.2.1])
    | _ :: _, .escape _ => exact hslash (List.cons_prefix_cons.1 hinitial).1
    | c :: _, .char hc _ _ _ => exact hc (List.cons_prefix_cons.1 hinitial).1.symm
  rw [scanText, hopen, h.singleBody_eq hslash]
  rfl

/-- The lexer takes a literal as a whole, unless another mark follows an empty one. -/
theorem IsLiteral.scanText_eq {mark : Char} {tail rest : List Char}
    (h : IsLiteral mark (mark :: tail)) (hslash : mark ≠ '\\')
    (hrest : tail = [mark] → rest.head? ≠ some mark) (line : Nat) :
    ∃ body, scanText line mark (tail ++ rest) = .ok (body, mark :: tail, rest) := by
  generalize hlit : mark :: tail = lit at h
  cases h with
  | @single body hbody =>
    obtain rfl : tail = body ++ [mark] := by simpa using hlit
    refine ⟨body, ?_⟩
    rw [List.append_assoc, List.singleton_append,
      hbody.scanText_eq hslash fun hnil => hrest (by rw [hnil, List.nil_append])]
  | @triple body hbody =>
    obtain rfl : tail = mark :: mark :: (body ++ [mark, mark, mark]) := by simpa using hlit
    refine ⟨body, ?_⟩
    rw [scanText, if_pos (by simp)]
    have hdrop : (mark :: mark :: (body ++ [mark, mark, mark]) ++ rest).drop 2
        = body ++ mark :: mark :: mark :: rest := by simp
    rw [hdrop, hbody.tripleBody_eq hslash]

/-! ## Closed texts -/

/-- `Closes awaited text` says that reading `text` closes the brackets whose closing characters are
`awaited`, and all that it opens itself. -/
inductive Closes : List Char → List Char → Prop where
  | nil : Closes [] []
  | plain {awaited text : List Char} {c : Char} :
      isPlain c = true → Closes awaited text → Closes awaited (c :: text)
  | opening {awaited text : List Char} {c closing : Char} :
      closingBracket? c = some closing → Closes (closing :: awaited) text → Closes awaited (c :: text)
  | closing {awaited text : List Char} {c : Char} :
      isClosing c = true → Closes awaited text → Closes (c :: awaited) (c :: text)
  /-- A literal, where an empty one is not followed by its mark. -/
  | literal {awaited text lit : List Char} {mark : Char} :
      isQuote mark = true → IsLiteral mark lit → '\r' ∉ lit →
        (lit = [mark, mark] → text.head? ≠ some mark) → Closes awaited text →
          Closes awaited (lit ++ text)
  /-- A line end inside brackets. -/
  | lineEnd {awaited text : List Char} {c : Char} :
      Closes (c :: awaited) text → Closes (c :: awaited) ('\n' :: text)
  /-- A comment inside brackets, up to the end of its line. -/
  | comment {awaited text note : List Char} {c : Char} :
      '\n' ∉ note → '\r' ∉ note → Closes (c :: awaited) ('\n' :: text) →
        Closes (c :: awaited) ('#' :: note ++ '\n' :: text)
  /-- A line that goes on behind a backslash. -/
  | joined {awaited text : List Char} :
      Closes awaited text → Closes awaited ('\\' :: '\n' :: text)

/-- A text that can stand in a line. -/
def IsClosed (text : String) : Prop := Closes [] text.toList

namespace Closes

/-- Plain characters in front of a closed text leave it closed. -/
theorem plains {awaited : List Char} {word text : List Char}
    (hword : ∀ c ∈ word, isPlain c = true) (h : Closes awaited text) :
    Closes awaited (word ++ text) := by
  induction word with
  | nil => exact h
  | cons c word ih =>
    exact .plain (hword c (by simp)) (ih fun d hd => hword d (by simp [hd]))

/-- A closed text ends behind its plain characters in front as well. -/
theorem of_plains {awaited : List Char} {word text : List Char}
    (hword : ∀ c ∈ word, isPlain c = true) (h : Closes awaited (word ++ text)) :
    Closes awaited text := by
  induction word with
  | nil => exact h
  | cons c word ih =>
    have hc := hword c (by simp)
    apply ih fun d hd => hword d (by simp [hd])
    generalize htext : c :: word ++ text = whole at h
    cases h with
    | nil => simp at htext
    | plain _ h =>
      obtain ⟨-, rfl⟩ := by simpa using htext
      exact h
    | opening hopen _ =>
      obtain ⟨rfl, -⟩ := by simpa using htext
      simp [isPlain, hopen] at hc
    | closing hclose _ =>
      obtain ⟨rfl, -⟩ := by simpa using htext
      simp [isPlain, hclose] at hc
    | literal hquote hlit _ _ _ =>
      obtain ⟨tail, rfl⟩ := hlit.exists_tail
      obtain ⟨rfl, -⟩ := by simpa using htext
      simp [isPlain, hquote] at hc
    | lineEnd _ =>
      obtain ⟨rfl, -⟩ := by simpa using htext
      exact absurd hc (by decide)
    | comment _ _ _ =>
      obtain ⟨rfl, -⟩ := by simpa using htext
      exact absurd hc (by decide)
    | joined _ =>
      obtain ⟨rfl, -⟩ := by simpa using htext
      exact absurd hc (by decide)

/-- Closed texts can be put together; a literal at the end of the first one must not meet a quote. -/
theorem append {awaited awaited' : List Char} {a b : List Char} (ha : Closes awaited a)
    (hb : Closes awaited' b) (hquote : ∀ c, b.head? = some c → isQuote c = false) :
    Closes (awaited ++ awaited') (a ++ b) := by
  induction ha with
  | nil => exact hb
  | plain hc _ ih => exact .plain hc ih
  | opening hopen _ ih => exact .opening hopen ih
  | closing hclose _ ih => exact .closing hclose ih
  | @literal awaited text lit mark hmark hlit hreturn hhead _ ih =>
    rw [List.append_assoc]
    refine .literal hmark hlit hreturn ?_ ih
    match text with
    | [] =>
      intro _ h
      rw [hquote mark h] at hmark
      cases hmark
    | c :: text => exact hhead
  | lineEnd _ ih => exact .lineEnd ih
  | @comment awaited text note c hline hreturn _ ih =>
    have h := Closes.comment hline hreturn ih
    simpa [List.append_assoc] using h
  | joined _ ih => exact .joined ih

/-- A closed text between brackets is closed. -/
theorem bracketed {c closing : Char} {inner : List Char} (hopen : closingBracket? c = some closing)
    (h : Closes [] inner) : Closes [] (c :: inner ++ [closing]) := by
  have hclose : isClosing closing = true := by
    unfold closingBracket? at hopen
    split at hopen <;> cases hopen <;> decide
  have hquote : isQuote closing = false := by
    unfold closingBracket? at hopen
    split at hopen <;> cases hopen <;> decide
  have hend : Closes [closing] [closing] := .closing hclose .nil
  have happend := h.append hend (by simp [hquote])
  exact .opening hopen happend

/-- A closed text holds no carriage return. -/
theorem not_mem_return {awaited text : List Char} (h : Closes awaited text) : '\r' ∉ text := by
  induction h with
  | nil => simp
  | plain hc _ ih =>
    intro hmem
    rcases List.mem_cons.1 hmem with rfl | hmem
    · exact absurd hc (by decide)
    · exact ih hmem
  | opening hopen _ ih =>
    intro hmem
    rcases List.mem_cons.1 hmem with rfl | hmem
    · exact absurd hopen (by simp [closingBracket?])
    · exact ih hmem
  | closing hclose _ ih =>
    intro hmem
    rcases List.mem_cons.1 hmem with rfl | hmem
    · exact absurd hclose (by decide)
    · exact ih hmem
  | literal _ _ hreturn _ _ ih => simp [hreturn, ih]
  | lineEnd _ ih => simpa using ih
  | comment _ hreturn _ ih =>
    have hrest := ih
    simp only [List.mem_cons, not_or] at hrest
    simp [hreturn, hrest.2]
  | joined _ ih => simpa using ih

end Closes

end PropertyWrapper.Source
