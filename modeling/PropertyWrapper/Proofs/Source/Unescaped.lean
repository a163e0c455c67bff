import PropertyWrapper.Proofs.Source.Quotation

/-!
# Quoted texts are read back

A text that is written between quotes is, once its escapes are replaced, the text again.

* `hexNumber?_hexDigits` : hexadecimal digits denote the number that they were written for;
* `StandsFor` : characters of a literal that stand for one code point;
* `standsFor_writePoint` : what is written for a character stands for its code point;
* `literalText_quotedBody` : the value of a quoted text;
* `isPrintable_of_mem_quoted` : what is written consists of printable characters;
* `stringOf_points` : a string is its code points.
-/

namespace PropertyWrapper.Source

open PropertyWrapper.Text

/-! ## Hexadecimal digits -/

theorem hexValue?_digitChar {n : Nat} (h : n < 16) : hexValue? n.digitChar = some n := by
  have hall : ∀ m : Fin 16, hexValue? (m : Nat).digitChar = some (m : Nat) := by decide
  exact hall ⟨n, h⟩

theorem hexNumber?_append (digits : List Char) (c : Char) :
    hexNumber? (digits ++ [c])
      = (hexNumber? digits).bind fun value => (hexValue? c).map (value * 16 + ·) := by
  rw [hexNumber?, List.foldlM_append]
  simp only [List.foldlM_cons, List.foldlM_nil, bind_pure]
  rfl

/-- Digits denote the number that they were written for. -/
theorem hexNumber?_toDigits (n : Nat) : hexNumber? (Nat.toDigits 16 n) = some n := by
  induction n using Nat.strong_induction_on with
  | _ n ih =>
    rw [Nat.toDigits_eq_if (by decide)]
    split
    case isTrue hsmall =>
      have hempty : hexNumber? [] = some 0 := rfl
      rw [← List.nil_append [n.digitChar], hexNumber?_append, hempty, Option.bind_some,
        hexValue?_digitChar hsmall, Option.map_some, Nat.zero_mul, Nat.zero_add]
    case isFalse hlarge =>
      rw [hexNumber?_append, ih (n / 16) (by omega), Option.bind_some,
        hexValue?_digitChar (Nat.mod_lt n (by decide)), Option.map_some, Nat.div_add_mod']

theorem hexNumber?_replicate_append (count : Nat) (digits : List Char) :
    hexNumber? (List.replicate count '0' ++ digits) = hexNumber? digits := by
  induction count with
  | zero => rfl
  | succ count ih => exact ih

theorem hexNumber?_hexDigits (width n : Nat) : hexNumber? (hexDigits width n) = some n := by
  rw [hexDigits, hexNumber?_replicate_append, hexNumber?_toDigits]

theorem length_hexDigits {width n : Nat} (hwidth : 0 < width) (h : n < 16 ^ width) :
    (hexDigits width n).length = width := by
  have hle := Nat.toDigits_length 16 n width hwidth h
  rw [hexDigits, List.length_append, List.length_replicate]
  omega

/-! ## Escapes -/

/-- Some characters of a text literal stand for a code point, whatever follows them. -/
def StandsFor (written : List Char) (point : Nat) : Prop :=
  ∀ fuel rest, unescape true (fuel + 1) (written ++ rest) = (unescape true fuel rest).map (point :: ·)

/-- A backslash and what follows it stand for a code point if the escape has this value. -/
theorem standsFor_of_escapeValue {written : List Char} {point : Nat}
    (h : ∀ rest, escapeValue true (written ++ rest) = some ([point], rest)) :
    StandsFor (backslash :: written) point := by
  intro fuel rest
  rw [List.cons_append, unescape, if_pos (show backslash = '\\' from rfl), h rest]
  change (unescape true fuel rest).bind (fun tail => some ([point] ++ tail)) = _
  cases unescape true fuel rest <;> rfl

theorem StandsFor.ne_nil {written : List Char} {point : Nat} (h : StandsFor written point) :
    written ≠ [] := by
  rintro rfl
  have hnone := h 0 []
  cases hnone

/-- A character other than the backslash stands for itself. -/
theorem standsFor_singleton {c : Char} (h : c ≠ '\\') : StandsFor [c] c.toNat := by
  intro fuel rest
  rw [List.singleton_append, unescape, if_neg h]
  rfl

/-- The letter of an escape that has a fixed value. -/
theorem escapeValue_letter {letter : Char} {point : Nat} (hoctal : isOctal letter = false)
    (hline : letter ≠ '\n') (hwidth : escapeWidth true letter = none)
    (hpoint : letterEscapes.lookup letter = some point) (rest : List Char) :
    escapeValue true (letter :: rest) = some ([point], rest) := by
  rw [escapeValue.eq_3 _ _ _ hline, hoctal, hwidth, hpoint]
  rfl

/-- A letter and as many digits as it asks for have the value that the digits denote. -/
theorem escapeValue_hexDigits {letter : Char} {width point : Nat} (hoctal : isOctal letter = false)
    (hline : letter ≠ '\n') (hwidth : escapeWidth true letter = some width) (hpos : 0 < width)
    (hpoint : point < 16 ^ width) (hlast : point ≤ lastPoint) (rest : List Char) :
    escapeValue true (letter :: hexDigits width point ++ rest) = some ([point], rest) := by
  have hlength := length_hexDigits hpos hpoint
  have htake : (hexDigits width point ++ rest).take width = hexDigits width point :=
    List.take_left' hlength
  have hdrop : (hexDigits width point ++ rest).drop width = rest := List.drop_left' hlength
  rw [List.cons_append, escapeValue.eq_3 _ _ _ hline, hoctal, hwidth, if_neg Bool.false_ne_true]
  dsimp only
  rw [if_neg (by rw [List.length_append]; omega), htake, hdrop, hexNumber?_hexDigits]
  exact if_neg (by omega)

theorem standsFor_escapePoint {point : Nat} (h : point ≤ lastPoint) :
    StandsFor (escapePoint point) point := by
  have hlast : point < 16 ^ 8 := Nat.lt_of_le_of_lt h (by decide)
  unfold escapePoint
  split
  case isTrue heq =>
    rw [heq]
    exact standsFor_of_escapeValue (escapeValue_letter (by decide) (by decide) rfl rfl)
  split
  case isTrue heq =>
    rw [heq]
    exact standsFor_of_escapeValue (escapeValue_letter (by decide) (by decide) rfl rfl)
  split
  case isTrue heq =>
    rw [heq]
    exact standsFor_of_escapeValue (escapeValue_letter (by decide) (by decide) rfl rfl)
  split
  case isTrue heq =>
    rw [heq]
    exact standsFor_of_escapeValue (escapeValue_letter (by decide) (by decide) rfl rfl)
  split
  case isTrue hsmall =>
    exact standsFor_of_escapeValue
      (escapeValue_hexDigits (by decide) (by decide) rfl (by decide) hsmall h)
  split
  case isTrue hsmall =>
    exact standsFor_of_escapeValue
      (escapeValue_hexDigits (by decide) (by decide) rfl (by decide) hsmall h)
  case isFalse =>
    exact standsFor_of_escapeValue
      (escapeValue_hexDigits (by decide) (by decide) rfl (by decide) hlast h)

/-! ## Texts -/

theorem toNat_le_lastPoint (c : Char) : c.toNat ≤ lastPoint := by
  have hlt : c.toNat < 0x110000 := by
    rcases c.valid with h | ⟨-, h⟩
    · exact Nat.lt_trans h (by decide)
    · exact h
  exact Nat.le_of_lt_succ hlt

/-- The code points of a text, lone surrogates or not. -/
def AreCodePoints (text : Points) : Prop := ∀ point ∈ text, point ≤ lastPoint

theorem areCodePoints_points (text : String) : AreCodePoints (points text) := by
  intro point hpoint
  obtain ⟨c, -, rfl⟩ := List.mem_map.1 hpoint
  exact toNat_le_lastPoint c

theorem areCodePoints_looseText (text : LooseText) : AreCodePoints text.points := by
  cases text with
  | whole text => exact areCodePoints_points text
  | broken text holds =>
    have hall := (Bool.and_eq_true_iff.1 holds).2
    exact fun point hpoint => of_decide_eq_true (List.all_eq_true.1 hall point hpoint)

/-- Lone surrogates are not printable. -/
theorem isPrintable_of_isSurrogate {point : Nat} (h : isSurrogate point = true) :
    isPrintable point = false := by
  have hrange : unprintableRanges.any (fun range => range.1 ≤ 0xd800 && 0xdfff ≤ range.2) = true := by
    decide +kernel
  obtain ⟨range, hmem, hrange⟩ := List.any_eq_true.1 hrange
  simp only [isSurrogate, Bool.and_eq_true, decide_eq_true_eq] at h hrange
  have hcontains : unprintableRanges.contains point = true :=
    List.any_eq_true.2 ⟨range, hmem, by simp only [Bool.and_eq_true, decide_eq_true_eq]; omega⟩
  rw [isPrintable, if_neg (by omega), hcontains]
  rfl

/-- A printable code point is that of a character. -/
theorem toNat_ofNat_of_isPrintable {point : Nat} (h : point ≤ lastPoint) (hprint : isPrintable point = true) :
    (Char.ofNat point).toNat = point := by
  have hvalid : point.isValidChar := by
    have hsurrogate : ¬ (0xd800 ≤ point ∧ point ≤ 0xdfff) := fun hrange => by
      rw [isPrintable_of_isSurrogate (by simpa [isSurrogate] using hrange)] at hprint
      cases hprint
    have hlast : point ≤ 0x10ffff := h
    rw [Nat.isValidChar]
    omega
  rw [Char.ofNat, dif_pos hvalid]
  rfl

/-- What is written for a code point stands for it. -/
theorem standsFor_writePoint {point : Nat} (h : point ≤ lastPoint) : StandsFor (writePoint point) point := by
  unfold writePoint
  split
  case isTrue => exact standsFor_escapePoint h
  case isFalse hprint =>
    simp only [Bool.or_eq_true, Bool.not_eq_true', not_or, Bool.not_eq_false, decide_eq_true_eq] at hprint
    have hpoint := toNat_ofNat_of_isPrintable h hprint.2
    have hsingle : StandsFor [Char.ofNat point] (Char.ofNat point).toNat := by
      refine standsFor_singleton fun heq => hprint.1 ?_
      rw [← hpoint, heq]
      rfl
    rwa [hpoint] at hsingle

/-- An escaped quote stands for itself. -/
theorem standsFor_quote {quote : Char} (h : isQuote quote = true) :
    StandsFor [backslash, quote] quote.toNat := by
  simp only [isQuote, Bool.or_eq_true, decide_eq_true_eq] at h
  rcases h with rfl | rfl
  · exact standsFor_of_escapeValue (escapeValue_letter (by decide) (by decide) rfl rfl)
  · exact standsFor_of_escapeValue (escapeValue_letter (by decide) (by decide) rfl rfl)

theorem length_le_flatMap {write : Nat → List Char} {text : Points}
    (h : ∀ point ∈ text, StandsFor (write point) point) : text.length ≤ (text.flatMap write).length := by
  induction text with
  | nil => simp
  | cons point text ih =>
    obtain ⟨hpoint, htext⟩ := List.forall_mem_cons.1 h
    have hlength := List.length_pos_of_ne_nil hpoint.ne_nil
    rw [List.flatMap_cons, List.length_append, List.length_cons]
    have := ih htext
    omega

/-- Characters that stand for code points one after another stand for all of them. -/
theorem unescape_flatMap {write : Nat → List Char} {text : Points}
    (h : ∀ point ∈ text, StandsFor (write point) point) {fuel : Nat} (hfuel : text.length ≤ fuel) :
    unescape true fuel (text.flatMap write) = some text := by
  induction text generalizing fuel with
  | nil => cases fuel <;> rfl
  | cons point text ih =>
    obtain ⟨hpoint, htext⟩ := List.forall_mem_cons.1 h
    rw [List.length_cons] at hfuel
    -- one unit of fuel is used for each code point, however many characters stand for it
    obtain ⟨fuel, rfl⟩ : ∃ n, fuel = n + 1 := ⟨fuel - 1, by omega⟩
    rw [List.flatMap_cons, hpoint, ih htext (by omega), Option.map_some]

/-- The value of a quoted text is the text. -/
theorem literalText_quotedBody {quote : Char} (hquote : isQuote quote = true) {text : Points}
    (htext : AreCodePoints text) : literalText false (quotedBody quote text) = some text := by
  have hwrite : ∀ point ∈ text, StandsFor
      (if point = quote.toNat then [backslash, quote] else writePoint point) point := by
    intro point hpoint
    split
    case isTrue heq =>
      rw [heq]
      exact standsFor_quote hquote
    case isFalse => exact standsFor_writePoint (htext point hpoint)
  exact unescape_flatMap hwrite (Nat.le_trans (length_le_flatMap hwrite) (Nat.le_mul_of_pos_left _ two_pos))

/-! ## Characters between quotes -/

theorem isPrintable_digitChar {n : Nat} (h : n < 16) : isPrintable n.digitChar.toNat = true := by
  have hall : ∀ m : Fin 16, isPrintable (m : Nat).digitChar.toNat = true := by decide
  exact hall ⟨n, h⟩

theorem isPrintable_of_mem_toDigits {n : Nat} {c : Char} (hc : c ∈ Nat.toDigits 16 n) :
    isPrintable c.toNat = true := by
  induction n using Nat.strong_induction_on with
  | _ n ih =>
    rw [Nat.toDigits_eq_if (by decide)] at hc
    split at hc
    case isTrue hsmall =>
      rw [List.mem_singleton.1 hc]
      exact isPrintable_digitChar hsmall
    case isFalse hlarge =>
      rcases List.mem_append.1 hc with hc | hc
      · exact ih (n / 16) (by omega) hc
      · rw [List.mem_singleton.1 hc]
        exact isPrintable_digitChar (Nat.mod_lt n (by decide))

theorem isPrintable_of_mem_hexDigits {width n : Nat} {c : Char} (hc : c ∈ hexDigits width n) :
    isPrintable c.toNat = true := by
  rcases List.mem_append.1 hc with hc | hc
  · rw [List.eq_of_mem_replicate hc]
    decide
  · exact isPrintable_of_mem_toDigits hc

/-- An escape is a backslash, a printable letter and printable digits. -/
theorem escapePoint_eq_letter (point : Nat) :
    ∃ letter digits, escapePoint point = backslash :: letter :: digits
      ∧ isPrintable letter.toNat = true ∧ ∀ d ∈ digits, isPrintable d.toNat = true := by
  unfold escapePoint
  split
  · exact ⟨_, _, rfl, by decide, by simp⟩
  split
  · exact ⟨_, _, rfl, by decide, by simp⟩
  split
  · exact ⟨_, _, rfl, by decide, by simp⟩
  split
  · exact ⟨_, _, rfl, by decide, by simp⟩
  split
  · exact ⟨_, _, rfl, by decide, fun d hd => isPrintable_of_mem_hexDigits hd⟩
  split
  · exact ⟨_, _, rfl, by decide, fun d hd => isPrintable_of_mem_hexDigits hd⟩
  · exact ⟨_, _, rfl, by decide, fun d hd => isPrintable_of_mem_hexDigits hd⟩

theorem isPrintable_of_mem_escapePoint {point : Nat} {c : Char} (hc : c ∈ escapePoint point) :
    isPrintable c.toNat = true := by
  obtain ⟨letter, digits, heq, hletter, hdigits⟩ := escapePoint_eq_letter point
  rw [heq] at hc
  rcases List.mem_cons.1 hc with rfl | hc
  · decide
  rcases List.mem_cons.1 hc with rfl | hc
  · exact hletter
  · exact hdigits c hc

/-- All that is written between quotes is printable. -/
theorem isPrintable_of_mem_quotedBody {quote c : Char} {text : Points} (hquote : isQuote quote = true)
    (htext : AreCodePoints text) (hc : c ∈ quotedBody quote text) : isPrintable c.toNat = true := by
  obtain ⟨point, hpoint, hc⟩ := List.mem_flatMap.1 hc
  simp only [isQuote, Bool.or_eq_true, decide_eq_true_eq] at hquote
  split at hc
  · simp only [List.mem_cons, List.not_mem_nil, or_false] at hc
    rcases hc with rfl | rfl
    · decide
    · rcases hquote with rfl | rfl <;> decide
  · unfold writePoint at hc
    split at hc
    · exact isPrintable_of_mem_escapePoint hc
    · rename_i hprint
      simp only [Bool.or_eq_true, Bool.not_eq_true', not_or, Bool.not_eq_false] at hprint
      rw [List.mem_singleton.1 hc, toNat_ofNat_of_isPrintable (htext point hpoint) hprint.2]
      exact hprint.2

theorem isPrintable_of_mem_quotedPoints {c : Char} {text : Points} (htext : AreCodePoints text)
    (hc : c ∈ (quotedPoints text).toList) : isPrintable c.toNat = true := by
  have hquote := isQuote_quoteFor text
  have hprint : isPrintable (quoteFor text).toNat = true := by
    unfold quoteFor
    split <;> decide
  simp only [quotedPoints, String.toList_ofList, List.cons_append, List.mem_cons, List.mem_append,
    List.not_mem_nil, or_false] at hc
  rcases hc with rfl | hc | rfl
  · exact hprint
  · exact isPrintable_of_mem_quotedBody hquote htext hc
  · exact hprint

/-! ## Strings -/

theorem not_isSurrogate (c : Char) : isSurrogate c.toNat = false := by
  simp only [isSurrogate, Bool.and_eq_false_iff, decide_eq_false_iff_not]
  rcases c.valid with h | ⟨h, -⟩
  · left
    have hlt : c.toNat < 0xd800 := h
    omega
  · right
    have hlt : 0xdfff < c.toNat := h
    omega

/-- A string is determined by its code points. -/
theorem stringOf_points (text : String) : stringOf (points text) = text := by
  have hmap : (points text).map charOf = text.toList := by
    rw [points, List.map_map]
    refine (List.map_congr_left fun c _ => ?_).trans (List.map_id _)
    rw [Function.comp_apply, charOf, not_isSurrogate, if_neg Bool.false_ne_true, Char.ofNat_toNat]
    rfl
  rw [stringOf, hmap, String.ofList_toList]

/-- A text is determined by its code points. -/
theorem ofPoints_points (text : LooseText) : LooseText.ofPoints text.points = text := by
  cases text with
  | whole text =>
    have hwhole : ¬ isBroken (points text) = true := by
      have hnone : (points text).any isSurrogate = false := by simp [points, not_isSurrogate]
      rw [isBroken, hnone]
      exact Bool.false_ne_true
    rw [LooseText.points, LooseText.ofPoints, dif_neg hwhole, stringOf_points]
  | broken text holds => exact dif_pos holds

end PropertyWrapper.Source
