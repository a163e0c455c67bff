import PropertyWrapper.Proofs.Source.Closed
import PropertyWrapper.Source.Literal

/-!
# Written literals are literals

Whatever text, bytes or parts of a formatted text are written between quotes, the lexer takes the
result as one literal:

* `isLiteral_quotedPoints` and `isLiteral_quotedBytes` for texts and bytes;
* `isLiteral_quotedParts` for formatted texts, of which no two parts that touch are both literal text.

A formatted text chooses its quote part by part. The invariant of that choice is `Quote.Leaves`: what
was written so far does not hold the quote, and it is the part at the end that must not run into it.
-/

namespace PropertyWrapper.Source

open PropertyWrapper.Text

/-! ## Escapes -/

theorem isPlain_digitChar (n : Nat) : isPlain n.digitChar = true := by
  have hsmall : ∀ m : Fin 16, isPlain (m : Nat).digitChar = true := by decide
  by_cases h : n < 16
  · exact hsmall ⟨n, h⟩
  · have hstar : n.digitChar = '*' := by
      unfold Nat.digitChar
      repeat rw [if_neg (by omega)]
    rw [hstar]
    decide

theorem isPlain_of_mem_toDigitsCore {base fuel n : Nat} {digits : List Char} {c : Char}
    (hdigits : ∀ d ∈ digits, isPlain d = true) (hc : c ∈ Nat.toDigitsCore base fuel n digits) :
    isPlain c = true := by
  induction fuel generalizing n digits with
  | zero => exact hdigits c hc
  | succ fuel ih =>
    have hmore : ∀ d ∈ (n % base).digitChar :: digits, isPlain d = true := by
      intro d hd
      rcases List.mem_cons.1 hd with rfl | hd
      · exact isPlain_digitChar _
      · exact hdigits d hd
    rw [Nat.toDigitsCore] at hc
    split at hc
    · exact hmore c hc
    · exact ih hmore hc

/-- The digits of a number are plain in every base. -/
theorem isPlain_of_mem_toDigits {base n : Nat} {c : Char} (hc : c ∈ Nat.toDigits base n) :
    isPlain c = true :=
  isPlain_of_mem_toDigitsCore (by simp) hc

theorem isPlain_of_mem_hexDigits {width n : Nat} {c : Char} (hc : c ∈ hexDigits width n) :
    isPlain c = true := by
  rw [hexDigits, List.mem_append] at hc
  rcases hc with hc | hc
  · rw [List.eq_of_mem_replicate hc]
    decide
  · exact isPlain_of_mem_toDigits hc

/-- An escape is a backslash, a character that ends no line, and plain characters. -/
theorem escapePoint_eq (point : Nat) :
    ∃ c tail, escapePoint point = '\\' :: c :: tail ∧ c ≠ '\r' ∧ isQuote c = false ∧ c ≠ '\n'
      ∧ ∀ d ∈ tail, isPlain d = true := by
  unfold escapePoint
  split
  · exact ⟨_, _, rfl, by decide, by decide, by decide, by simp⟩
  split
  · exact ⟨_, _, rfl, by decide, by decide, by decide, by simp⟩
  split
  · exact ⟨_, _, rfl, by decide, by decide, by decide, by simp⟩
  split
  · exact ⟨_, _, rfl, by decide, by decide, by decide, by simp⟩
  split
  · exact ⟨_, _, rfl, by decide, by decide, by decide, fun d hd => isPlain_of_mem_hexDigits hd⟩
  split
  · exact ⟨_, _, rfl, by decide, by decide, by decide, fun d hd => isPlain_of_mem_hexDigits hd⟩
  · exact ⟨_, _, rfl, by decide, by decide, by decide, fun d hd => isPlain_of_mem_hexDigits hd⟩

/-- A character is that of its own code point only; the null character also stands for what is no code
point. -/
theorem toNat_of_ofNat_eq {point : Nat} {c : Char} (h : Char.ofNat point = c) :
    c.toNat = point ∨ c = '\x00' := by
  unfold Char.ofNat at h
  split at h
  · left
    subst h
    rfl
  · right
    subst h
    rfl

/-- A character that stands for itself in quoted text. -/
structure IsWritten (c : Char) (point : Nat) : Prop where
  ne_backslash : c ≠ '\\'
  ne_newline : c ≠ '\n'
  ne_return : c ≠ '\r'
  of_quote : isQuote c = true → c.toNat = point

theorem isWritten_ofNat {point : Nat} (hslash : point ≠ 0x5c) (hprint : isPrintable point = true) :
    IsWritten (Char.ofNat point) point := by
  have hpoint : ∀ c : Char, c ≠ '\x00' → Char.ofNat point = c → c.toNat = point := by
    intro c hc h
    rcases toNat_of_ofNat_eq h with h | h
    · exact h
    · exact absurd h hc
  refine ⟨fun h => ?_, fun h => ?_, fun h => ?_, fun h => ?_⟩
  · exact hslash (hpoint _ (by decide) h).symm
  · rw [← hpoint _ (by decide) h] at hprint
    exact absurd hprint (by decide)
  · rw [← hpoint _ (by decide) h] at hprint
    exact absurd hprint (by decide)
  · refine hpoint _ ?_ rfl
    intro hnull
    rw [hnull] at h
    exact absurd h (by decide)

/-- A code point is written as itself or as an escape. -/
theorem writePoint_cases (point : Nat) :
    (∃ c, writePoint point = [c] ∧ IsWritten c point) ∨ writePoint point = escapePoint point := by
  unfold writePoint
  split
  · exact .inr rfl
  · rename_i h
    simp only [Bool.or_eq_true, decide_eq_true_eq, Bool.not_eq_true', not_or,
      Bool.not_eq_false] at h
    exact .inl ⟨_, rfl, isWritten_ofNat h.1 h.2⟩

/-! ## One text between single quotes -/

theorem ne_of_isPlain {c d : Char} (hc : isPlain c = true) (hd : isPlain d = false) : c ≠ d := by
  rintro rfl
  rw [hc] at hd
  cases hd

theorem not_isPlain_of_isQuote {mark : Char} (h : isQuote mark = true) : isPlain mark = false := by
  simp [isPlain, h]

theorem ne_backslash_of_isQuote {mark : Char} (h : isQuote mark = true) : mark ≠ '\\' := by
  rintro rfl
  exact absurd h (by decide)

theorem SingleBody.plains {mark : Char} (hmark : isQuote mark = true) {word : List Char}
    (hword : ∀ c ∈ word, isPlain c = true) : SingleBody mark word := by
  induction word with
  | nil => exact .nil
  | cons c word ih =>
    have hc := hword c (by simp)
    exact .char (ne_of_isPlain hc (not_isPlain_of_isQuote hmark)) (ne_of_isPlain hc (by decide))
      (ne_of_isPlain hc (by decide)) (ih fun d hd => hword d (by simp [hd]))

theorem singleBody_escapePoint {mark : Char} (hmark : isQuote mark = true) (point : Nat) :
    SingleBody mark (escapePoint point) := by
  obtain ⟨c, tail, heq, -, -, -, htail⟩ := escapePoint_eq point
  rw [heq]
  exact .escape (.plains hmark htail)

theorem SingleBody.written {mark c : Char} {point : Nat} (hmark : isQuote mark = true)
    (h : IsWritten c point) (hpoint : point ≠ mark.toNat) : SingleBody mark [c] := by
  refine .char ?_ h.ne_backslash h.ne_newline .nil
  rintro rfl
  exact hpoint (h.of_quote hmark).symm

theorem singleBody_writePoint {mark : Char} (hmark : isQuote mark = true) {point : Nat}
    (hpoint : point ≠ mark.toNat) : SingleBody mark (writePoint point) := by
  rcases writePoint_cases point with ⟨c, heq, hwritten⟩ | heq
  · rw [heq]
    exact .written hmark hwritten hpoint
  · rw [heq]
    exact singleBody_escapePoint hmark point

theorem SingleBody.flatMap {mark : Char} {text : Points} {write : Nat → List Char}
    (h : ∀ point, SingleBody mark (write point)) : SingleBody mark (text.flatMap write) := by
  induction text with
  | nil => exact .nil
  | cons point text ih =>
    rw [List.flatMap_cons]
    exact (h point).append ih

theorem singleBody_quotedBody {mark : Char} (hmark : isQuote mark = true) (text : Points) :
    SingleBody mark (quotedBody mark text) := by
  refine .flatMap fun point => ?_
  split
  · exact .escape .nil
  · rename_i h
    exact singleBody_writePoint hmark h

theorem singleBody_writeByte {mark : Char} (hmark : isQuote mark = true) (byte : Nat) :
    SingleBody mark (writeByte mark byte) := by
  unfold writeByte
  split
  · exact .escape .nil
  rename_i hbyte
  split
  · rename_i h
    simp only [Bool.and_eq_true, bne_iff_ne, ne_eq] at h
    exact .written hmark (isWritten_ofNat h.1.2 h.2) hbyte
  · exact singleBody_escapePoint hmark byte

theorem isQuote_quoteFor (text : Points) : isQuote (quoteFor text) = true := by
  unfold quoteFor
  split <;> decide

/-! ## Carriage returns -/

theorem return_not_mem_escapePoint (point : Nat) : '\r' ∉ escapePoint point := by
  obtain ⟨c, tail, heq, hc, -, -, htail⟩ := escapePoint_eq point
  rw [heq]
  intro hmem
  simp only [List.mem_cons] at hmem
  rcases hmem with hmem | hmem | hmem
  · exact absurd hmem (by decide)
  · exact hc hmem.symm
  · exact absurd (htail _ hmem) (by decide)

theorem return_not_mem_writePoint (point : Nat) : '\r' ∉ writePoint point := by
  rcases writePoint_cases point with ⟨c, heq, hwritten⟩ | heq
  · rw [heq, List.mem_singleton]
    exact Ne.symm hwritten.ne_return
  · rw [heq]
    exact return_not_mem_escapePoint point

theorem return_ne_of_isQuote {mark : Char} (hmark : isQuote mark = true) : '\r' ≠ mark := by
  rintro rfl
  exact absurd hmark (by decide)

theorem return_not_mem_quotedBody {mark : Char} (hmark : isQuote mark = true) (text : Points) :
    '\r' ∉ quotedBody mark text := by
  rw [quotedBody, List.mem_flatMap]
  rintro ⟨point, -, hmem⟩
  split at hmem
  · simp only [List.mem_cons, List.not_mem_nil, or_false] at hmem
    rcases hmem with hmem | hmem
    · exact absurd hmem (by decide)
    · exact return_ne_of_isQuote hmark hmem
  · exact return_not_mem_writePoint point hmem

theorem return_not_mem_writeByte {mark : Char} (hmark : isQuote mark = true) (byte : Nat) :
    '\r' ∉ writeByte mark byte := by
  intro hmem
  unfold writeByte at hmem
  split at hmem
  · simp only [List.mem_cons, List.not_mem_nil, or_false] at hmem
    rcases hmem with hmem | hmem
    · exact absurd hmem (by decide)
    · exact return_ne_of_isQuote hmark hmem
  split at hmem
  · rename_i h
    simp only [Bool.and_eq_true, bne_iff_ne, ne_eq] at h
    rw [List.mem_singleton] at hmem
    exact (isWritten_ofNat h.1.2 h.2).ne_return hmem.symm
  · exact return_not_mem_escapePoint byte hmem

/-! ## Texts and bytes -/

/-- A literal as it is written: some mark, the literal and no carriage return. -/
structure Written (literal : List Char) : Prop where
  exists_mark : ∃ mark, isQuote mark = true ∧ IsLiteral mark literal
  not_mem_return : '\r' ∉ literal

/-- A written literal is a closed text. -/
theorem Written.closes {literal : List Char} (h : Written literal) : Closes [] literal := by
  obtain ⟨mark, hmark, hliteral⟩ := h.exists_mark
  have hcloses := Closes.literal hmark hliteral h.not_mem_return (fun _ => by simp) Closes.nil
  simpa using hcloses

theorem Written.single {mark : Char} {body : List Char} (hmark : isQuote mark = true)
    (hbody : SingleBody mark body) (hreturn : '\r' ∉ body) : Written (mark :: body ++ [mark]) := by
  refine ⟨⟨mark, hmark, .single hbody⟩, ?_⟩
  simp [hreturn, return_ne_of_isQuote hmark]

theorem written_quotedPoints (text : Points) : Written (quotedPoints text).toList := by
  have hmark := isQuote_quoteFor text
  simpa [quotedPoints] using
    Written.single hmark (singleBody_quotedBody hmark text) (return_not_mem_quotedBody hmark text)

/-- Bytes are written as a literal behind its mark. -/
theorem quotedBytes_eq (bytes : List Nat) :
    ∃ literal, (quotedBytes bytes).toList = 'b' :: literal ∧ Written literal := by
  have hmark := isQuote_quoteFor bytes
  have hbody : SingleBody (quoteFor bytes) (bytes.flatMap (writeByte (quoteFor bytes))) :=
    .flatMap fun byte => singleBody_writeByte hmark byte
  refine ⟨_, ?_, Written.single hmark hbody ?_⟩
  · simp [quotedBytes]
  · rw [List.mem_flatMap]
    rintro ⟨byte, -, hmem⟩
    exact return_not_mem_writeByte hmark byte hmem

/-! ## Triple quotes that are still open -/

/-- Characters in which every backslash escapes the character behind it. -/
inductive Escaped : List Char → Prop where
  | nil : Escaped []
  | escape {c : Char} {rest : List Char} : Escaped rest → Escaped ('\\' :: c :: rest)
  | char {c : Char} {rest : List Char} : c ≠ '\\' → Escaped rest → Escaped (c :: rest)

/-- Characters that hold no triple quote; further ones may follow. -/
inductive OpenTriple (mark : Char) : List Char → Prop where
  | nil : OpenTriple mark []
  | escape {c : Char} {rest : List Char} :
      OpenTriple mark rest → OpenTriple mark ('\\' :: c :: rest)
  | char {c : Char} {rest : List Char} :
      c ≠ '\\' → (c = mark → ¬ [mark, mark] <+: rest) → OpenTriple mark rest →
        OpenTriple mark (c :: rest)

theorem SingleBody.escaped {mark : Char} {body : List Char} (h : SingleBody mark body) :
    Escaped body := by
  induction h with
  | nil => exact .nil
  | escape _ ih => exact .escape ih
  | char _ hslash _ _ ih => exact .char hslash ih

theorem Escaped.append {a b : List Char} (ha : Escaped a) (hb : Escaped b) : Escaped (a ++ b) := by
  induction ha with
  | nil => exact hb
  | escape _ ih => exact .escape ih
  | char hslash _ ih => exact .char hslash ih

theorem Escaped.flatMap {text : Points} {write : Nat → List Char}
    (h : ∀ point, Escaped (write point)) : Escaped (text.flatMap write) := by
  induction text with
  | nil => exact .nil
  | cons point text ih =>
    rw [List.flatMap_cons]
    exact (h point).append ih

/-- Without its mark and without line ends, a text can stand between single quotes. -/
theorem Escaped.singleBody {mark : Char} {body : List Char} (h : Escaped body)
    (hmark : mark ∉ body) (hline : '\n' ∉ body) : SingleBody mark body := by
  induction h with
  | nil => exact .nil
  | escape _ ih =>
    simp only [List.mem_cons, not_or] at hmark hline
    exact .escape (ih hmark.2.2 hline.2.2)
  | char hslash _ ih =>
    simp only [List.mem_cons, not_or] at hmark hline
    exact .char (Ne.symm hmark.1) hslash (Ne.symm hline.1) (ih hmark.2 hline.2)

theorem Escaped.openTriple {mark : Char} {body : List Char} (h : Escaped body)
    (hmark : occursIn [mark, mark, mark] body = false) : OpenTriple mark body := by
  induction h with
  | nil => exact .nil
  | escape _ ih =>
    simp only [occursIn, Bool.or_eq_false_iff] at hmark
    exact .escape (ih hmark.2.2)
  | @char c rest hslash _ ih =>
    simp only [occursIn, Bool.or_eq_false_iff] at hmark
    refine .char hslash ?_ (ih hmark.2)
    rintro rfl hinitial
    have hocc : [c, c, c].isPrefixOf (c :: rest) = true := by
      rw [List.isPrefixOf_iff_prefix, List.cons_prefix_cons]
      exact ⟨rfl, hinitial⟩
    rw [hocc] at hmark
    cases hmark.1

theorem SingleBody.openTriple {mark : Char} {body : List Char} (h : SingleBody mark body) :
    OpenTriple mark body := by
  induction h with
  | nil => exact .nil
  | escape _ ih => exact .escape ih
  | char hmark hslash _ _ ih => exact .char hslash (fun hc => absurd hc hmark) ih

theorem getLast?_ne_of_cons {c mark : Char} {rest : List Char}
    (h : (c :: rest).getLast? ≠ some mark) : rest.getLast? ≠ some mark := by
  cases rest with
  | nil => simp
  | cons d rest => rwa [List.getLast?_cons_cons] at h

/-- What follows an open triple quote may complete it, unless the two meet in another character. -/
theorem OpenTriple.append {mark : Char} {a b : List Char} (ha : OpenTriple mark a)
    (hmeet : a.getLast? ≠ some mark ∨ (b ++ [mark]).head? ≠ some mark) (hb : TripleBody mark b) :
    TripleBody mark (a ++ b) := by
  induction ha with
  | nil => exact hb
  | escape _ ih =>
    refine .escape (ih ?_)
    rcases hmeet with h | h
    · exact .inl (getLast?_ne_of_cons (getLast?_ne_of_cons h))
    · exact .inr h
  | @char c rest hslash hno _ ih =>
    have hmeet' : rest.getLast? ≠ some mark ∨ (b ++ [mark]).head? ≠ some mark := by
      rcases hmeet with h | h
      · exact .inl (getLast?_ne_of_cons h)
      · exact .inr h
    rw [List.cons_append]
    refine .char hslash ?_ (ih hmeet')
    intro hc hinitial
    have hhead : ∀ tail, [mark] <+: b ++ mark :: tail → (b ++ [mark]).head? = some mark := by
      intro tail h
      cases b with
      | nil => rfl
      | cons d b =>
        rw [List.cons_append, List.cons_prefix_cons] at h
        simp [h.1]
    -- the two further marks lie behind `rest`, at its end, or inside it
    rcases rest with _ | ⟨d, _ | ⟨e, rest⟩⟩
    · rcases hmeet with h | h
      · exact h (by simp [hc])
      · refine h (hhead [mark] ?_)
        exact (List.prefix_append [mark] [mark]).trans (by simpa using hinitial)
    · rw [List.cons_append, List.cons_append, List.nil_append, List.cons_prefix_cons] at hinitial
      rcases hmeet with h | h
      · exact h (by simp [hinitial.1])
      · exact h (hhead [mark] hinitial.2)
    · rw [List.cons_append, List.cons_append, List.cons_append, List.cons_append,
        List.cons_prefix_cons, List.cons_prefix_cons] at hinitial
      refine hno hc ?_
      rw [List.cons_prefix_cons, List.cons_prefix_cons]
      exact ⟨hinitial.1, hinitial.2.1, List.nil_prefix⟩

/-! ## Quotes and what they leave open -/

/-- What can stand between two quotes. -/
def Quote.Fits (quote : Quote) (body : List Char) : Prop :=
  if quote.triple then TripleBody quote.mark body else SingleBody quote.mark body

/-- What can stand behind an opening quote, as long as the closing one does not follow directly. -/
def Quote.Leaves (quote : Quote) (body : List Char) : Prop :=
  if quote.triple then OpenTriple quote.mark body else SingleBody quote.mark body

theorem Quote.fits_nil (quote : Quote) : quote.Fits [] := by
  unfold Quote.Fits
  split
  · exact .nil
  · exact .nil

theorem Quote.fits_of_singleBody {quote : Quote} {body : List Char}
    (h : SingleBody quote.mark body) : quote.Fits body := by
  unfold Quote.Fits
  split
  · exact h.triple
  · exact h

theorem Quote.Leaves.of_singleBody {quote : Quote} {body : List Char}
    (h : SingleBody quote.mark body) : quote.Leaves body := by
  unfold Quote.Leaves
  split
  · exact h.openTriple
  · exact h

/-- Two pieces fit between quotes when they meet in a character other than the mark. -/
theorem Quote.Leaves.append {quote : Quote} {a b : List Char} (ha : quote.Leaves a)
    (hmeet : a.getLast? ≠ some quote.mark ∨ (b ++ [quote.mark]).head? ≠ some quote.mark)
    (hb : quote.Fits b) : quote.Fits (a ++ b) := by
  unfold Quote.Leaves at ha
  unfold Quote.Fits at hb ⊢
  split
  · rename_i htriple
    rw [if_pos htriple] at ha hb
    exact ha.append hmeet hb
  · rename_i hsingle
    rw [if_neg hsingle] at ha hb
    exact ha.append hb

/-- Between quotes that it fits, a text is a literal. -/
theorem Quote.Fits.isLiteral {quote : Quote} {body : List Char} (h : quote.Fits body) :
    IsLiteral quote.mark (quote.characters ++ body ++ quote.characters) := by
  unfold Quote.Fits at h
  unfold Quote.characters
  split at h
  · rename_i htriple
    simpa [htriple, List.replicate] using IsLiteral.triple h
  · rename_i hsingle
    simpa [hsingle, List.replicate] using IsLiteral.single h

/-! ## The choice of a quote -/

theorem not_mem_of_not_occursIn {mark : Char} {body : List Char}
    (h : occursIn [mark] body = false) : mark ∉ body := by
  induction body with
  | nil => simp
  | cons c body ih =>
    simp only [occursIn, Bool.or_eq_false_iff] at h
    intro hmem
    rcases List.mem_cons.1 hmem with rfl | hmem
    · simp at h
    · exact ih h.2 hmem

/-- A code point between flexible quotes: a layout character, itself or an escape. -/
theorem writeFlexible_cases (escapeLayout : Bool) (point : Nat) :
    (∃ c, writeFlexible escapeLayout point = [c] ∧ (c = '\n' ∨ c = '\t'))
      ∨ writeFlexible escapeLayout point = writePoint point := by
  unfold writeFlexible
  split
  · rename_i h
    simp only [Bool.and_eq_true, Bool.or_eq_true, decide_eq_true_eq] at h
    rcases h.2 with rfl | rfl
    · exact .inl ⟨_, rfl, .inl rfl⟩
    · exact .inl ⟨_, rfl, .inr rfl⟩
  · exact .inr rfl

theorem escaped_writeFlexible (escapeLayout : Bool) (point : Nat) :
    Escaped (writeFlexible escapeLayout point) := by
  rcases writeFlexible_cases escapeLayout point with ⟨c, heq, rfl | rfl⟩ | heq
  · rw [heq]
    exact .char (by decide) .nil
  · rw [heq]
    exact .char (by decide) .nil
  · rw [heq]
    rcases writePoint_cases point with ⟨c, heq, hwritten⟩ | heq
    · rw [heq]
      exact .char hwritten.ne_backslash .nil
    · rw [heq]
      have hmark : isQuote '\x27' = true := by decide
      exact (singleBody_escapePoint hmark point).escaped

theorem return_not_mem_writeFlexible (escapeLayout : Bool) (point : Nat) :
    '\r' ∉ writeFlexible escapeLayout point := by
  rcases writeFlexible_cases escapeLayout point with ⟨c, heq, rfl | rfl⟩ | heq
  · rw [heq]
    decide
  · rw [heq]
    decide
  · rw [heq]
    exact return_not_mem_writePoint point

/-- A code point whose last written character is a quote is written as that quote. -/
theorem writeFlexible_of_getLast? {escapeLayout : Bool} {point : Nat} {mark : Char}
    (hmark : isQuote mark = true)
    (h : (writeFlexible escapeLayout point).getLast? = some mark) :
    writeFlexible escapeLayout point = [mark] := by
  rcases writeFlexible_cases escapeLayout point with ⟨c, heq, -⟩ | heq
  · rw [heq] at h ⊢
    simpa using h
  rcases writePoint_cases point with ⟨c, heq', -⟩ | heq'
  · rw [heq, heq'] at h ⊢
    simpa using h
  · obtain ⟨c, tail, hescape, -, hc, -, htail⟩ := escapePoint_eq point
    rw [heq, heq', hescape, List.getLast?_cons_cons] at h
    rcases List.mem_cons.1 (List.mem_of_getLast? h) with rfl | hmem
    · rw [hmark] at hc
      cases hc
    · have hplain := htail mark hmem
      rw [not_isPlain_of_isQuote hmark] at hplain
      cases hplain

/-- A quote that may be taken for some characters: it does not occur in them, and it is a triple one
if they hold a line end. -/
structure Quote.Possible (quote : Quote) (body : List Char) : Prop where
  not_occurs : occursIn quote.characters body = false
  triple_of_line : '\n' ∈ body → quote.triple = true

theorem Quote.Possible.leaves {quote : Quote} {body : List Char} (h : quote.Possible body)
    (hbody : Escaped body) : quote.Leaves body := by
  have hocc := h.not_occurs
  unfold Quote.Leaves
  unfold Quote.characters at hocc
  split
  · rename_i htriple
    rw [if_pos htriple] at hocc
    exact hbody.openTriple hocc
  · rename_i hsingle
    rw [if_neg hsingle] at hocc
    exact hbody.singleBody (not_mem_of_not_occursIn hocc) fun hline =>
      hsingle (h.triple_of_line hline)

/-- What can come out of narrowing the candidates for a quote by a text. -/
inductive Narrowed (candidates : List Quote) (text : Points) (body : List Char) :
    List Char → List Quote → Prop where
  /-- No candidate remains, and the text is written for an ordinary quote. -/
  | ordinary {quote : Quote} : quote.mark = quoteFor text →
      Narrowed candidates text body (quotedBody quote.mark text) [quote]
  /-- The quote that comes first differs from the last character. -/
  | clear {possible : List Quote} :
      (∀ quote ∈ possible, quote ∈ candidates ∧ quote.Possible body) →
      (∀ quote, possible.head? = some quote → body.getLast? ≠ some quote.mark) →
        Narrowed candidates text body body possible
  /-- All quotes clash with the last character, which is escaped. -/
  | clashing {possible : List Quote} {last : Char} : body.getLast? = some last →
      (∀ quote ∈ possible, quote ∈ candidates ∧ quote.Possible body ∧ quote.mark = last) →
        Narrowed candidates text body (body.dropLast ++ [backslash, last]) possible

/-- The candidates that remain possible for some characters. -/
def possibleQuotes (candidates : List Quote) (body : List Char) : List Quote :=
  (if body.contains '\n' then candidates.filter Quote.triple else candidates).filter
    fun quote => !occursIn quote.characters body

theorem possible_of_mem {candidates : List Quote} {body : List Char} {quote : Quote}
    (h : quote ∈ possibleQuotes candidates body) :
    quote ∈ candidates ∧ quote.Possible body := by
  rw [possibleQuotes, List.mem_filter, Bool.not_eq_true'] at h
  obtain ⟨hmem, hocc⟩ := h
  split at hmem
  · rw [List.mem_filter] at hmem
    exact ⟨hmem.1, hocc, fun _ => hmem.2⟩
  · rename_i hline
    exact ⟨hmem, hocc, fun h => absurd (List.contains_iff_mem.2 h) hline⟩

theorem mark_find?_getD (candidates : List Quote) (mark : Char) :
    ((candidates.find? fun quote => quote.mark == mark).getD ⟨mark, false⟩).mark = mark := by
  cases hfind : candidates.find? fun quote => quote.mark == mark with
  | none => rfl
  | some quote => simpa using List.find?_some hfind

theorem narrowQuotes_eq (candidates : List Quote) (escapeLayout : Bool) (text : Points) :
    narrowQuotes candidates escapeLayout text =
      let body := text.flatMap (writeFlexible escapeLayout)
      let possible := possibleQuotes candidates body
      if possible.isEmpty then
        (quotedBody (quoteFor text) text,
          [(candidates.find? fun quote => quote.mark == quoteFor text).getD ⟨quoteFor text, false⟩])
      else
        match body.getLast? with
        | none => (body, possible)
        | some last =>
          if (possible.partition fun quote => quote.mark == last).2.isEmpty then
            (body.dropLast ++ [backslash, last],
              (possible.partition fun quote => quote.mark == last).1)
          else
            (body, (possible.partition fun quote => quote.mark == last).2
              ++ (possible.partition fun quote => quote.mark == last).1) :=
  rfl

theorem narrowed_narrowQuotes (candidates : List Quote) (escapeLayout : Bool) (text : Points) :
    Narrowed candidates text (text.flatMap (writeFlexible escapeLayout))
      (narrowQuotes candidates escapeLayout text).1
      (narrowQuotes candidates escapeLayout text).2 := by
  rw [narrowQuotes_eq]
  generalize text.flatMap (writeFlexible escapeLayout) = body
  simp only
  split
  · have hmark := mark_find?_getD candidates (quoteFor text)
    have h : Narrowed candidates text body _ _ := .ordinary hmark
    rwa [hmark] at h
  · split
    · rename_i hlast
      refine .clear (fun quote hmem => possible_of_mem hmem) fun quote _ => ?_
      rw [hlast]
      simp
    · rename_i last hlast
      simp only [List.partition_eq_filter_filter]
      split
      · refine .clashing hlast fun quote hmem => ?_
        rw [List.mem_filter] at hmem
        have hpossible := possible_of_mem hmem.1
        exact ⟨hpossible.1, hpossible.2, by simpa using hmem.2⟩
      · rename_i hclear
        refine .clear (fun quote hmem => ?_) fun quote hhead => ?_
        · rcases List.mem_append.1 hmem with hmem | hmem
          · exact possible_of_mem (List.mem_filter.1 hmem).1
          · exact possible_of_mem (List.mem_filter.1 hmem).1
        · -- the first quote is one of those that do not clash
          rw [List.isEmpty_iff] at hclear
          obtain ⟨first, others, heq⟩ := List.exists_cons_of_ne_nil hclear
          have hmem : first ∈ first :: others := List.mem_cons_self
          rw [← heq, List.mem_filter] at hmem
          rw [heq, List.cons_append, List.head?_cons, Option.some.injEq] at hhead
          rw [hlast, ← hhead]
          rintro hmark
          simp [Option.some.inj hmark] at hmem

theorem TripleBody.openTriple {mark : Char} {body : List Char} (h : TripleBody mark body) :
    OpenTriple mark body := by
  induction h with
  | nil => exact .nil
  | escape _ ih => exact .escape ih
  | char hslash hno _ ih =>
    exact .char hslash (fun hc hinitial => hno hc (hinitial.trans (List.prefix_append _ _))) ih

theorem Quote.Fits.leaves {quote : Quote} {body : List Char} (h : quote.Fits body) :
    quote.Leaves body := by
  unfold Quote.Fits at h
  unfold Quote.Leaves
  split
  · rename_i htriple
    rw [if_pos htriple] at h
    exact h.openTriple
  · rename_i hsingle
    rwa [if_neg hsingle] at h

theorem not_occursIn_of_append {needle a b : List Char} (hne : needle ≠ [])
    (h : occursIn needle (a ++ b) = false) : occursIn needle a = false := by
  induction a with
  | nil => simpa [occursIn] using hne
  | cons c a ih =>
    simp only [List.cons_append, occursIn, Bool.or_eq_false_iff] at h ⊢
    refine ⟨?_, ih h.2⟩
    rw [Bool.eq_false_iff]
    intro hinitial
    rw [List.isPrefixOf_iff_prefix] at hinitial
    have hmore : needle.isPrefixOf (c :: (a ++ b)) = true := by
      rw [List.isPrefixOf_iff_prefix]
      exact hinitial.trans (List.prefix_append _ _)
    rw [hmore] at h
    cases h.1

theorem writeFlexible_ne_nil (escapeLayout : Bool) (point : Nat) :
    writeFlexible escapeLayout point ≠ [] := by
  rcases writeFlexible_cases escapeLayout point with ⟨c, heq, -⟩ | heq
  · simp [heq]
  rcases writePoint_cases point with ⟨c, heq', -⟩ | heq'
  · simp [heq, heq']
  · obtain ⟨c, tail, hescape, -⟩ := escapePoint_eq point
    simp [heq, heq', hescape]

/-- Characters that end in a quote end in a code point that is written as that quote. -/
theorem flatMap_writeFlexible_eq {escapeLayout : Bool} {text : Points} {mark : Char}
    (hmark : isQuote mark = true)
    (h : (text.flatMap (writeFlexible escapeLayout)).getLast? = some mark) :
    ∃ init : Points, text.flatMap (writeFlexible escapeLayout)
      = init.flatMap (writeFlexible escapeLayout) ++ [mark] := by
  rcases List.eq_nil_or_concat text with rfl | ⟨init, point, rfl⟩
  · simp at h
  · refine ⟨init, ?_⟩
    have hlast : (writeFlexible escapeLayout point).getLast? = some mark := by
      rw [List.concat_eq_append, List.flatMap_append, List.flatMap_singleton,
        List.getLast?_append] at h
      cases hpoint : (writeFlexible escapeLayout point).getLast? with
      | none =>
        exact absurd (List.getLast?_eq_none_iff.1 hpoint) (writeFlexible_ne_nil escapeLayout point)
      | some c => rwa [hpoint] at h
    simp [writeFlexible_of_getLast? hmark hlast]

namespace Narrowed

variable {candidates possible : List Quote} {text : Points} {escapeLayout : Bool}
  {body : List Char}

/-- A last character that clashes with all quotes is escaped, and then all quotes fit. -/
theorem fits_clashing {quote : Quote} (hmark : isQuote quote.mark = true)
    (hlast : (text.flatMap (writeFlexible escapeLayout)).getLast? = some quote.mark)
    (hpossible : quote.Possible (text.flatMap (writeFlexible escapeLayout))) :
    quote.Fits ((text.flatMap (writeFlexible escapeLayout)).dropLast
      ++ [backslash, quote.mark]) := by
  obtain ⟨init, heq⟩ := flatMap_writeFlexible_eq hmark hlast
  have hocc := hpossible.not_occurs
  rw [heq] at hocc ⊢
  rw [List.dropLast_concat]
  have htriple : quote.triple = true := by
    rw [← Bool.not_eq_false]
    intro hsingle
    have hmem : quote.mark ∉ init.flatMap (writeFlexible escapeLayout) ++ [quote.mark] :=
      not_mem_of_not_occursIn (by simpa [Quote.characters, hsingle] using hocc)
    simp at hmem
  have hopen : OpenTriple quote.mark (init.flatMap (writeFlexible escapeLayout)) := by
    refine (Escaped.flatMap fun point => escaped_writeFlexible escapeLayout point).openTriple ?_
    refine not_occursIn_of_append (by simp) (b := [quote.mark]) ?_
    simpa [Quote.characters, htriple] using hocc
  unfold Quote.Fits
  rw [if_pos htriple]
  refine hopen.append (.inr ?_) (.escape .nil)
  have hne : backslash ≠ quote.mark := Ne.symm (ne_backslash_of_isQuote hmark)
  simpa using hne

theorem isQuote_mark (hcandidates : ∀ quote ∈ candidates, isQuote quote.mark = true)
    {written : List Char} (h : Narrowed candidates text body written possible) :
    ∀ quote ∈ possible, isQuote quote.mark = true := by
  intro quote hmem
  cases h with
  | ordinary hmark =>
    obtain rfl := List.mem_singleton.1 hmem
    rw [hmark]
    exact isQuote_quoteFor text
  | clear hpossible _ => exact hcandidates quote (hpossible quote hmem).1
  | clashing _ hpossible => exact hcandidates quote (hpossible quote hmem).1

/-- Every quote that remains is left open by the text. -/
theorem leaves (hcandidates : ∀ quote ∈ candidates, isQuote quote.mark = true)
    {written : List Char}
    (h : Narrowed candidates text (text.flatMap (writeFlexible escapeLayout)) written possible) :
    ∀ quote ∈ possible, quote.Leaves written := by
  intro quote hmem
  have hmark := h.isQuote_mark hcandidates quote hmem
  cases h with
  | ordinary _ =>
    obtain rfl := List.mem_singleton.1 hmem
    exact .of_singleBody (singleBody_quotedBody hmark text)
  | clear hpossible _ =>
    exact (hpossible quote hmem).2.leaves
      (.flatMap fun point => escaped_writeFlexible escapeLayout point)
  | clashing hlast hpossible =>
    obtain ⟨-, hquote, rfl⟩ := hpossible quote hmem
    exact (fits_clashing hmark hlast hquote).leaves

/-- The first quote that remains can be closed directly behind the text. -/
theorem fits_head (hcandidates : ∀ quote ∈ candidates, isQuote quote.mark = true)
    {written : List Char} {quote : Quote}
    (h : Narrowed candidates text (text.flatMap (writeFlexible escapeLayout)) written possible)
    (hhead : possible.head? = some quote) : quote.Fits written := by
  have hmem := List.mem_of_head? hhead
  have hmark := h.isQuote_mark hcandidates quote hmem
  have hleaves := h.leaves hcandidates quote hmem
  cases h with
  | ordinary _ =>
    obtain rfl := List.mem_singleton.1 hmem
    exact Quote.fits_of_singleBody (singleBody_quotedBody hmark text)
  | clear _ hclear =>
    have hfits := hleaves.append (.inl (hclear quote hhead)) quote.fits_nil
    simpa using hfits
  | clashing hlast hpossible =>
    obtain ⟨-, hquote, rfl⟩ := hpossible quote hmem
    exact fits_clashing hmark hlast hquote

theorem not_mem_return {written : List Char}
    (h : Narrowed candidates text (text.flatMap (writeFlexible escapeLayout)) written possible) :
    '\r' ∉ written := by
  have hbody : '\r' ∉ text.flatMap (writeFlexible escapeLayout) := by
    rw [List.mem_flatMap]
    rintro ⟨point, -, hmem⟩
    exact return_not_mem_writeFlexible escapeLayout point hmem
  cases h with
  | ordinary hmark =>
    rw [hmark]
    exact return_not_mem_quotedBody (isQuote_quoteFor text) text
  | clear _ _ => exact hbody
  | clashing hlast _ =>
    intro hmem
    rcases List.mem_append.1 hmem with hmem | hmem
    · exact hbody ((List.dropLast_sublist _).subset hmem)
    · simp only [List.mem_cons, List.not_mem_nil, or_false] at hmem
      rcases hmem with hmem | hmem
      · exact absurd hmem (by decide)
      · exact hbody (hmem ▸ List.mem_of_getLast? hlast)

end Narrowed

/-! ## Formatted texts -/

/-- Whether the written form of a part starts and ends with the braces of a replacement field. -/
def IsField (text : Points) : Prop := text.head? = some 0x7b ∧ text.getLast? = some 0x7d

/-- Parts of a formatted text of which at least one of two neighbours is a replacement field. -/
def Alternates : List (Points × Bool) → Prop
  | first :: second :: rest =>
    (IsField first.1 ∨ IsField second.1) ∧ Alternates (second :: rest)
  | _ => True

theorem flatMap_braces {write : Nat → List Char} {text : Points} (h : IsField text)
    (hopen : write 0x7b = ['\x7b']) (hclose : write 0x7d = ['\x7d']) :
    (text.flatMap write).head? = some '\x7b' ∧ (text.flatMap write).getLast? = some '\x7d' := by
  obtain ⟨hhead, hlast⟩ := h
  constructor
  · match text, hhead with
    | point :: text, hhead =>
      obtain rfl : point = 0x7b := by simpa using hhead
      rw [List.flatMap_cons, hopen]
      rfl
  · obtain ⟨init, rfl⟩ := List.getLast?_eq_some_iff.1 hlast
    rw [List.flatMap_append, List.flatMap_singleton, hclose, List.getLast?_concat]

theorem writePoint_brace {mark : Char} (hmark : isQuote mark = true) {point : Nat}
    (hpoint : point = 0x7b ∨ point = 0x7d) :
    (if point = mark.toNat then [backslash, mark] else writePoint point) = [Char.ofNat point] := by
  have hne : point ≠ mark.toNat := by
    simp only [isQuote, Bool.or_eq_true, decide_eq_true_eq] at hmark
    rcases hpoint with rfl | rfl <;> rcases hmark with rfl | rfl <;> decide
  rw [if_neg hne]
  rcases hpoint with rfl | rfl <;> decide

/-- The braces of a replacement field stay at its ends, whatever quotes remain. -/
theorem Narrowed.braces {candidates possible : List Quote} {text : Points} {escapeLayout : Bool}
    {written : List Char} {quote : Quote}
    (hcandidates : ∀ quote ∈ candidates, isQuote quote.mark = true)
    (h : Narrowed candidates text (text.flatMap (writeFlexible escapeLayout)) written possible)
    (hmem : quote ∈ possible) (hfield : IsField text) :
    written.head? = some '\x7b' ∧ written.getLast? = some '\x7d' := by
  have hmark := h.isQuote_mark hcandidates quote hmem
  have hopen : writeFlexible escapeLayout 0x7b = ['\x7b'] := by cases escapeLayout <;> decide
  have hclose : writeFlexible escapeLayout 0x7d = ['\x7d'] := by cases escapeLayout <;> decide
  have hbody := flatMap_braces hfield hopen hclose
  cases h with
  | ordinary _ =>
    obtain rfl := List.mem_singleton.1 hmem
    exact flatMap_braces hfield (writePoint_brace hmark (.inl rfl)) (writePoint_brace hmark (.inr rfl))
  | clear _ _ => exact hbody
  | clashing hlast hpossible =>
    obtain ⟨-, -, hclash⟩ := hpossible quote hmem
    rw [hlast, Option.some.injEq, ← hclash] at hbody
    rw [hbody.2] at hmark
    exact absurd hmark (by decide)

theorem Narrowed.mem_candidates {candidates possible : List Quote} {text : Points}
    {body written : List Char} {quote : Quote} (h : Narrowed candidates text body written possible)
    (hany : possible.any candidates.contains = true) (hmem : quote ∈ possible) :
    quote ∈ candidates := by
  cases h with
  | ordinary _ =>
    obtain rfl := List.mem_singleton.1 hmem
    simpa using hany
  | clear hpossible _ => exact (hpossible quote hmem).1
  | clashing _ hpossible => exact (hpossible quote hmem).1

/-- The parts of a formatted text fit between the quote that they agree on. -/
theorem quoteParts?_fits {texts : List (Points × Bool)} {candidates : List Quote}
    {body : List Char} {quote : Quote}
    (hcandidates : ∀ quote ∈ candidates, isQuote quote.mark = true) (halternates : Alternates texts)
    (h : quoteParts? candidates texts = some (body, quote)) :
    quote ∈ candidates ∧ quote.Fits body ∧ '\r' ∉ body
      ∧ ∀ first ∈ texts.head?, IsField first.1 → body.head? = some '\x7b' := by
  induction texts generalizing candidates body with
  | nil =>
    rw [quoteParts?] at h
    obtain ⟨first, hfirst, heq⟩ := Option.map_eq_some_iff.1 h
    obtain ⟨rfl, rfl⟩ := Prod.mk.inj heq
    exact ⟨List.mem_of_head? hfirst, first.fits_nil, by simp, by simp⟩
  | cons first rest ih =>
    obtain ⟨text, isLiteral⟩ := first
    have hnarrowed := narrowed_narrowQuotes candidates isLiteral text
    rw [quoteParts?] at h
    simp only at h
    generalize narrowQuotes candidates isLiteral text = narrowed at hnarrowed h
    obtain ⟨written, possible⟩ := narrowed
    split at h
    · rename_i hany
      obtain ⟨⟨bodies, quote'⟩, hrest, heq⟩ := Option.map_eq_some_iff.1 h
      obtain ⟨rfl, rfl⟩ := Prod.mk.inj heq
      have halternates' : Alternates rest := by
        cases rest with
        | nil => trivial
        | cons second rest => exact halternates.2
      have hmarks := hnarrowed.isQuote_mark hcandidates
      obtain ⟨hmem, hfits, hreturn, hhead⟩ := ih hmarks halternates' hrest
      have hmark := hmarks quote' hmem
      refine ⟨hnarrowed.mem_candidates hany hmem, ?_, ?_, ?_⟩
      · cases rest with
        | nil =>
          rw [quoteParts?] at hrest
          obtain ⟨quote, hquote, heq⟩ := Option.map_eq_some_iff.1 hrest
          obtain ⟨rfl, rfl⟩ := Prod.mk.inj heq
          simpa using hnarrowed.fits_head hcandidates hquote
        | cons second rest =>
          refine (hnarrowed.leaves hcandidates quote' hmem).append ?_ hfits
          -- of two neighbours one is a field, so that they meet in a brace
          have hbrace : ∀ c, c = '\x7b' ∨ c = '\x7d' → some c ≠ some quote'.mark := by
            intro c hc heq
            rw [← Option.some.inj heq] at hmark
            rcases hc with rfl | rfl <;> exact absurd hmark (by decide)
          rcases halternates.1 with hfield | hfield
          · left
            rw [(hnarrowed.braces hcandidates hmem hfield).2]
            exact hbrace _ (.inr rfl)
          · right
            rw [List.head?_append, hhead second rfl hfield]
            exact hbrace _ (.inl rfl)
      · rw [List.mem_append, not_or]
        exact ⟨hnarrowed.not_mem_return, hreturn⟩
      · rintro first hfirst hfield
        obtain rfl : (text, isLiteral) = first := by simpa using hfirst
        rw [List.head?_append, (hnarrowed.braces hcandidates hmem hfield).1]
        rfl
    · simp at h

theorem isQuote_of_mem_allQuotes : ∀ quote ∈ allQuotes, isQuote quote.mark = true := by decide

/-- A formatted text is written as a literal. -/
theorem written_quotedParts {texts : List (Points × Bool)} (halternates : Alternates texts) :
    Written (quotedParts texts).toList := by
  rw [quotedParts]
  cases hparts : quoteParts? allQuotes texts with
  | some chosen =>
    obtain ⟨body, quote⟩ := chosen
    obtain ⟨hmem, hfits, hreturn, -⟩ :=
      quoteParts?_fits isQuote_of_mem_allQuotes halternates hparts
    have hmark := isQuote_of_mem_allQuotes quote hmem
    simp only [Option.getD_some, String.toList_ofList]
    refine ⟨⟨quote.mark, hmark, hfits.isLiteral⟩, ?_⟩
    simp [Quote.characters, List.mem_replicate, hreturn, return_ne_of_isQuote hmark]
  | none =>
    have hbody : SingleBody singleQuote
        (texts.flatMap fun part => quotedBody singleQuote part.1) := by
      clear hparts halternates
      induction texts with
      | nil => exact .nil
      | cons part texts ih =>
        rw [List.flatMap_cons]
        exact (singleBody_quotedBody (by decide) part.1).append ih
    have hreturn : '\r' ∉ texts.flatMap fun part => quotedBody singleQuote part.1 := by
      rw [List.mem_flatMap]
      rintro ⟨part, -, hmem⟩
      exact return_not_mem_quotedBody (by decide) part.1 hmem
    have hfits : Quote.Fits ⟨singleQuote, true⟩ _ := Quote.fits_of_singleBody hbody
    simp only [Option.getD_none, String.toList_ofList]
    refine ⟨⟨singleQuote, by decide, hfits.isLiteral⟩, ?_⟩
    simp [Quote.characters, hreturn]
    decide

end PropertyWrapper.Source
