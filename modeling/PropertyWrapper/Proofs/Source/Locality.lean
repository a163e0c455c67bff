import PropertyWrapper.Proofs.Result
import PropertyWrapper.Proofs.Source.Layout

/-!
# The lexer looks at little more than it takes

A token at the start of a text is the same when more text follows, unless the first character of that could
go on a word, a number, a literal or a symbol.

* `Apart text` : the first character of a text goes on no token;
* `scanNumber_append`, `scanText_append`, `scanSymbol_append` : the scanners with more text behind;
* `nextToken_append` : a token with more text behind and more brackets around.
-/

namespace PropertyWrapper.Source

open PropertyWrapper.Text

/-! ## What goes on no token -/

/-- The characters with which symbols or exponents go on. -/
def linkCharacters : List Char := ['=', '*', '/', '<', '>', '.', '+', '-']

/-- Whether a character goes on no token. -/
def isApart (c : Char) : Bool := !isWordCharacter c && !isQuote c && !linkCharacters.contains c

/-- The first character of a text goes on no token. -/
def Apart (text : List Char) : Prop := ∃ c rest, text = c :: rest ∧ isApart c = true

theorem isApart_iff {c : Char} :
    isApart c = true ↔ isWordCharacter c = false ∧ isQuote c = false ∧ c ∉ linkCharacters := by
  simp [isApart, and_assoc]

/-- A character that goes on no token is none of those that do. -/
theorem ne_of_isApart {c d : Char} (h : isApart c = true) (hd : isApart d = false) : c ≠ d := by
  rintro rfl
  rw [h] at hd
  cases hd

/-- What holds of characters of words only does not hold of a character that goes on no token. -/
theorem eq_false_of_isApart {p : Char → Bool} (hp : ∀ c, p c = true → isWordCharacter c = true) {c : Char}
    (hc : isApart c = true) : p c = false := by
  rw [Bool.eq_false_iff]
  intro hpc
  have hword := hp c hpc
  rw [(isApart_iff.1 hc).1] at hword
  cases hword

variable {text rest behind : List Char}

theorem Apart.ne_nil (h : Apart behind) : behind ≠ [] := by
  obtain ⟨c, rest, rfl, -⟩ := h
  exact List.cons_ne_nil c rest

/-- What `p` holds of stays apart from what follows. -/
theorem Apart.span_append {p : Char → Bool} (h : Apart behind)
    (hp : ∀ c, isApart c = true → p c = false) (text : List Char) :
    (text ++ behind).takeWhile p = text.takeWhile p
      ∧ (text ++ behind).dropWhile p = text.dropWhile p ++ behind := by
  induction text with
  | nil =>
    obtain ⟨c, rest, rfl, hc⟩ := h
    simp [hp c hc]
  | cons d text ih =>
    cases hd : p d with
    | false => simp [hd]
    | true => simp [hd, ih.1, ih.2]

/-! ## Numbers -/

theorem isDigit_of_isApart {c : Char} (h : isApart c = true) : c.isDigit = false :=
  eq_false_of_isApart (p := Char.isDigit) (fun d hd => by simp [isWordCharacter, hd]) h

/-- The first character behind a text, if it is a digit, belongs to the text. -/
theorem Apart.startsDigit_append (h : Apart behind) (text : List Char) :
    ((text ++ behind).head?.map Char.isDigit).getD false = (text.head?.map Char.isDigit).getD false := by
  cases text with
  | nil =>
    obtain ⟨c, rest, rfl, hc⟩ := h
    simp [isDigit_of_isApart hc]
  | cons c text => rfl

/-- The digits of an integer in an alphabet marked by a letter after a zero. -/
def radixDigits (kind : NumberKind) (base : Nat) (isDigit : Char → Bool) (skipped : Nat) (text : List Char) :
    NumberResult :=
  match digitRun isDigit text with
  | none => .error (.badNumber kind)
  | some run =>
    if (run.rest.head?.map Char.isDigit).getD false then .error (.badNumber kind)
    else endNumber kind (.number (.int (digitsValue base run.digits))) (2 + skipped + run.count) run.rest

/-- Without an underscore in front the digits start at once. -/
theorem radixNumber_of_ne {kind : NumberKind} {base : Nat} {isDigit : Char → Bool} {c : Char}
    (hc : c ≠ '_') (text : List Char) :
    radixNumber kind base isDigit (c :: text) = radixDigits kind base isDigit 0 (c :: text) := by
  unfold radixNumber
  split
  rename_i skipped rest heq
  split at heq
  · rename_i hcons
    exact absurd (List.cons.inj hcons).1 hc
  · cases heq
    rfl

section Numbers

variable {isDigit : Char → Bool} (hdigit : ∀ c, isApart c = true → isDigit c = false) (h : Apart behind)
include hdigit h

theorem digitTail_append {run : Digits} (hrun : digitTail isDigit text = some run) :
    digitTail isDigit (text ++ behind) = some { run with rest := run.rest ++ behind } := by
  fun_induction digitTail isDigit text generalizing run with
  | case1 =>
    obtain rfl := Option.some.inj hrun
    obtain ⟨c, rest, rfl, hc⟩ := h
    have hne : c ≠ '_' := ne_of_isApart hc (by decide)
    rw [List.nil_append, digitTail.eq_4 _ _ _ (fun heq _ => hne heq) (fun _ _ heq _ => hne heq),
      hdigit c hc]
    rfl
  | case2 => cases hrun
  | case3 d rest hd ih =>
    obtain ⟨tail, htail, rfl⟩ := Option.map_eq_some_iff.1 hrun
    rw [List.cons_append, List.cons_append, digitTail, if_pos hd, ih htail]
    rfl
  | case4 => cases hrun
  | case5 d rest hnil hcons hd ih =>
    obtain ⟨tail, htail, rfl⟩ := Option.map_eq_some_iff.1 hrun
    have hne : d ≠ '_' := by
      intro heq
      cases rest with
      | nil => exact hnil heq rfl
      | cons e rest => exact hcons e rest heq rfl
    rw [List.cons_append, digitTail.eq_4 _ _ _ (fun heq _ => hne heq) (fun _ _ heq _ => hne heq),
      if_pos hd, ih htail]
    rfl
  | case6 d rest hnil hcons hd =>
    obtain rfl := Option.some.inj hrun
    have hne : d ≠ '_' := by
      intro heq
      cases rest with
      | nil => exact hnil heq rfl
      | cons e rest => exact hcons e rest heq rfl
    rw [List.cons_append, digitTail.eq_4 _ _ _ (fun heq _ => hne heq) (fun _ _ heq _ => hne heq),
      if_neg hd]

theorem digitRun_append {run : Digits} (hrun : digitRun isDigit text = some run) :
    digitRun isDigit (text ++ behind) = some { run with rest := run.rest ++ behind } := by
  cases text with
  | nil => cases hrun
  | cons d text =>
    rw [digitRun] at hrun
    split at hrun
    · rename_i hd
      obtain ⟨tail, htail, rfl⟩ := Option.map_eq_some_iff.1 hrun
      rw [List.cons_append, digitRun, if_pos hd, digitTail_append hdigit h htail]
      rfl
    · cases hrun

omit hdigit in
theorem numberMayEnd_append (hrest : numberMayEnd rest = true) : numberMayEnd (rest ++ behind) = true := by
  cases rest with
  | nil =>
    obtain ⟨c, rest, rfl, hc⟩ := h
    simp [numberMayEnd, (isApart_iff.1 hc).1]
  | cons c rest =>
    simp only [numberMayEnd, Bool.or_eq_true, List.any_eq_true, List.isPrefixOf_iff_prefix,
      List.cons_append] at hrest ⊢
    refine hrest.imp_right ?_
    rintro ⟨word, hmem, hword⟩
    exact ⟨word, hmem, hword.trans (List.prefix_append (c :: rest) behind)⟩

/-- A number that was read, with more text behind it. -/
def NumberResult.withBehind (behind : List Char) (result : TokenKind × Nat × List Char) :
    TokenKind × Nat × List Char :=
  (result.1, result.2.1, result.2.2 ++ behind)

omit hdigit in
theorem endNumber_append {kind : NumberKind} {token : TokenKind} {count : Nat}
    {result : TokenKind × Nat × List Char} (hresult : endNumber kind token count rest = .ok result) :
    endNumber kind token count (rest ++ behind) = .ok (NumberResult.withBehind behind result) := by
  unfold endNumber at hresult ⊢
  split at hresult
  · rename_i hend
    cases hresult
    rw [if_pos (numberMayEnd_append h hend)]
    rfl
  · cases hresult

/-- Digits in an alphabet marked by a letter after a zero, with more text behind. -/
theorem radixDigits_append {kind : NumberKind} {base skipped : Nat} {result : TokenKind × Nat × List Char}
    (hresult : radixDigits kind base isDigit skipped text = .ok result) :
    radixDigits kind base isDigit skipped (text ++ behind) = .ok (NumberResult.withBehind behind result) := by
  unfold radixDigits at hresult ⊢
  split at hresult
  · cases hresult
  · rename_i run heq
    split at hresult
    · cases hresult
    · rename_i hnext
      rw [digitRun_append hdigit h heq]
      dsimp only
      rw [h.startsDigit_append, if_neg hnext]
      exact endNumber_append h hresult

theorem radixNumber_append {kind : NumberKind} {base : Nat} {result : TokenKind × Nat × List Char}
    (hresult : radixNumber kind base isDigit text = .ok result) :
    radixNumber kind base isDigit (text ++ behind) = .ok (NumberResult.withBehind behind result) := by
  cases text with
  | nil => cases hresult
  | cons c text =>
    by_cases hc : c = '_'
    · subst hc
      have hrun : radixDigits kind base isDigit 1 text = .ok result := hresult
      exact radixDigits_append hdigit h hrun
    · rw [radixNumber_of_ne hc] at hresult
      rw [List.cons_append, radixNumber_of_ne hc]
      exact radixDigits_append hdigit h hresult

end Numbers

section Floats

variable {result : TokenKind × Nat × List Char} (h : Apart behind)
include h

theorem endFloat_append {digits : List Char} {scale : Int} {count : Nat}
    (hresult : endFloat digits scale count rest = .ok result) :
    endFloat digits scale count (rest ++ behind) = .ok (NumberResult.withBehind behind result) := by
  cases rest with
  | nil =>
    obtain ⟨c, rest, rfl, hc⟩ := h
    have hmark : ¬ (decide (c = 'j') || decide (c = 'J')) = true := by
      simp [ne_of_isApart hc (show isApart 'j' = false by decide),
        ne_of_isApart hc (show isApart 'J' = false by decide)]
    cases hresult
    have hend : numberMayEnd (c :: rest) = true := by simp [numberMayEnd, (isApart_iff.1 hc).1]
    rw [List.nil_append, endFloat]
    rw [if_neg hmark, endNumber, if_pos hend]
    rfl
  | cons c rest =>
    rw [List.cons_append, endFloat]
    rw [endFloat] at hresult
    split at hresult
    · rename_i hmark
      rw [if_pos hmark]
      exact endNumber_append h hresult
    · rename_i hmark
      rw [if_neg hmark]
      exact endNumber_append h hresult

/-- An exponent that was read, or the lack of one, with more text behind it. -/
theorem exponentPart_append {found : Option (Int × Nat × List Char)}
    (hfound : exponentPart text = some found) :
    exponentPart (text ++ behind)
      = some (found.map fun found => (found.1, found.2.1, found.2.2 ++ behind)) := by
  have hdigits : ∀ {tail : List Char} {run : Digits}, digitRun Char.isDigit tail = some run →
      digitRun Char.isDigit (tail ++ behind) = some { run with rest := run.rest ++ behind } :=
    fun hrun => digitRun_append (fun _ => isDigit_of_isApart) h hrun
  unfold exponentPart at hfound
  dsimp only at hfound
  split at hfound
  · split at hfound
    · cases hfound
    · rename_i run hrun
      cases hfound
      rw [List.cons_append, exponentPart]
      dsimp only
      rw [hdigits hrun]
      rfl
  · split at hfound
    · cases hfound
    · rename_i run hrun
      cases hfound
      rw [List.cons_append, exponentPart]
      dsimp only
      rw [hdigits hrun]
      rfl
  · rename_i d tail hplus hminus
    have hhead : exponentPart (d :: (tail ++ behind)) =
        if d.isDigit then (digitRun Char.isDigit (d :: (tail ++ behind))).map fun run =>
          some ((digitsValue 10 run.digits : Int), run.count, run.rest)
        else some none := by
      unfold exponentPart
      dsimp only
      split
      · rename_i heq
        exact absurd (List.cons.inj heq).1 hplus
      · rename_i heq
        exact absurd (List.cons.inj heq).1 hminus
      · rename_i heq
        obtain ⟨rfl, rfl⟩ := List.cons.inj heq
        rfl
      · rename_i heq
        cases heq
    rw [List.cons_append, hhead]
    split at hfound
    · rename_i hd
      obtain ⟨run, hrun, rfl⟩ := Option.map_eq_some_iff.1 hfound
      rw [if_pos hd, ← List.cons_append, hdigits hrun]
      rfl
    · rename_i hd
      cases hfound
      rw [if_neg hd]
      rfl
  · cases hfound
    obtain ⟨c, rest, rfl, hc⟩ := h
    unfold exponentPart
    dsimp only
    split
    · rename_i heq
      exact absurd (List.cons.inj heq).1 (ne_of_isApart hc (by decide))
    · rename_i heq
      exact absurd (List.cons.inj heq).1 (ne_of_isApart hc (by decide))
    · rename_i heq
      obtain ⟨rfl, rfl⟩ := List.cons.inj heq
      rw [if_neg (by rw [isDigit_of_isApart hc]; exact Bool.false_ne_true)]
      rfl
    · rename_i heq
      cases heq

theorem afterFraction_append {digits : List Char} {places count : Nat}
    (hresult : afterFraction digits places count rest = .ok result) :
    afterFraction digits places count (rest ++ behind) = .ok (NumberResult.withBehind behind result) := by
  cases rest with
  | nil =>
    have hend : endFloat digits (-(places : Int)) count [] = .ok result := hresult
    have happend := endFloat_append h hend
    obtain ⟨c, rest, rfl, hc⟩ := h
    have hmark : ¬ (decide (c = 'e') || decide (c = 'E')) = true := by
      simp [ne_of_isApart hc (show isApart 'e' = false by decide),
        ne_of_isApart hc (show isApart 'E' = false by decide)]
    rw [List.nil_append, afterFraction]
    dsimp only
    rw [if_neg hmark]
    exact happend
  | cons c tail =>
    rw [List.cons_append, afterFraction]
    rw [afterFraction] at hresult
    dsimp only at hresult ⊢
    split at hresult
    · rename_i hmark
      rw [if_pos hmark]
      split at hresult
      · cases hresult
      · rename_i hnone
        rw [exponentPart_append h hnone]
        exact endNumber_append h hresult
      · rename_i hsome
        rw [exponentPart_append h hsome]
        exact endFloat_append h hresult
    · rename_i hmark
      rw [if_neg hmark]
      exact endFloat_append h hresult

theorem afterPoint_append {whole : List Char} {count : Nat}
    (hresult : afterPoint whole count rest = .ok result) :
    afterPoint whole count (rest ++ behind) = .ok (NumberResult.withBehind behind result) := by
  cases rest with
  | nil =>
    have hend : afterFraction whole 0 count [] = .ok result := hresult
    have happend := afterFraction_append h hend
    obtain ⟨c, rest, rfl, hc⟩ := h
    rw [List.nil_append, afterPoint]
    rw [if_neg (by rw [isDigit_of_isApart hc]; exact Bool.false_ne_true)]
    exact happend
  | cons d tail =>
    rw [List.cons_append, afterPoint]
    rw [afterPoint] at hresult
    split at hresult
    · rename_i hd
      rw [if_pos hd]
      split at hresult
      · cases hresult
      · rename_i run hrun
        have hrun' := digitRun_append (fun _ => isDigit_of_isApart) h hrun
        rw [List.cons_append] at hrun'
        rw [hrun']
        exact afterFraction_append h hresult
    · rename_i hd
      rw [if_neg hd]
      exact afterFraction_append h hresult

omit h in
/-- What follows the digits of an integer, where no point does. -/
theorem afterWhole_of_ne {digits : List Char} {count : Nat} {c : Char} (hc : c ≠ '.') (tail : List Char) :
    afterWhole digits count (c :: tail) =
      if c = 'e' || c = 'E' then
        match exponentPart tail with
        | some none =>
          if hasSuperfluousZeros digits then afterFraction digits 0 count (c :: tail)
          else endNumber .decimal (decimalToken digits) count (c :: tail)
        | _ => afterFraction digits 0 count (c :: tail)
      else if c = 'j' || c = 'J' then afterFraction digits 0 count (c :: tail)
      else if hasSuperfluousZeros digits then .error .leadingZeros
      else endNumber .decimal (decimalToken digits) count (c :: tail) := by
  unfold afterWhole
  dsimp only
  by_cases hzeros : hasSuperfluousZeros digits = true
  · rewrite [if_pos hzeros, if_pos hzeros, if_pos hzeros]
    split
    · rename_i heq
      exact absurd (List.cons.inj heq).1 hc
    · rename_i heq
      obtain ⟨rfl, rfl⟩ := List.cons.inj heq
      rfl
    · rename_i heq
      cases heq
  · rewrite [if_neg hzeros, if_neg hzeros, if_neg hzeros]
    split
    · rename_i heq
      exact absurd (List.cons.inj heq).1 hc
    · rename_i heq
      obtain ⟨rfl, rfl⟩ := List.cons.inj heq
      rfl
    · rename_i heq
      cases heq

theorem afterWhole_append {digits : List Char} {count : Nat}
    (hresult : afterWhole digits count rest = .ok result) :
    afterWhole digits count (rest ++ behind) = .ok (NumberResult.withBehind behind result) := by
  cases rest with
  | nil =>
    have hinteger : (if hasSuperfluousZeros digits then .error .leadingZeros
        else endNumber .decimal (decimalToken digits) count [] : NumberResult) = .ok result := hresult
    split at hinteger
    · cases hinteger
    · rename_i hzeros
      have happend := endNumber_append h hinteger
      obtain ⟨c, rest, rfl, hc⟩ := h
      have hexponent : ¬ (decide (c = 'e') || decide (c = 'E')) = true := by
        simp [ne_of_isApart hc (show isApart 'e' = false by decide),
          ne_of_isApart hc (show isApart 'E' = false by decide)]
      have hmark : ¬ (decide (c = 'j') || decide (c = 'J')) = true := by
        simp [ne_of_isApart hc (show isApart 'j' = false by decide),
          ne_of_isApart hc (show isApart 'J' = false by decide)]
      rw [List.nil_append, afterWhole_of_ne (ne_of_isApart hc (by decide)), if_neg hexponent, if_neg hmark,
        if_neg hzeros]
      exact happend
  | cons c tail =>
    by_cases hc : c = '.'
    · subst hc
      exact afterPoint_append h hresult
    · rw [afterWhole_of_ne hc] at hresult
      rw [List.cons_append, afterWhole_of_ne hc]
      split at hresult
      · rename_i hexponent
        rw [if_pos hexponent]
        split at hresult
        · rename_i hnone
          rw [exponentPart_append h hnone]
          dsimp only [Option.map_none]
          split at hresult
          · rename_i hzeros
            rw [if_pos hzeros]
            exact afterFraction_append h hresult
          · rename_i hzeros
            rw [if_neg hzeros]
            exact endNumber_append h hresult
        · rename_i hfound
          cases hpart : exponentPart tail with
          | none =>
            rw [afterFraction] at hresult
            dsimp only at hresult
            rw [if_pos hexponent, hpart] at hresult
            cases hresult
          | some found =>
            cases found with
            | none => exact absurd hpart hfound
            | some found =>
              rw [exponentPart_append h hpart]
              exact afterFraction_append h hresult
      · rename_i hexponent
        rw [if_neg hexponent]
        split at hresult
        · rename_i hmark
          rw [if_pos hmark]
          exact afterFraction_append h hresult
        · rename_i hmark
          rw [if_neg hmark]
          split at hresult
          · cases hresult
          · rename_i hzeros
            rw [if_neg hzeros]
            exact endNumber_append h hresult

/-- A decimal number from its first digit on. -/
def scanDecimal (text : List Char) : NumberResult :=
  match digitRun Char.isDigit text with
  | none => .error (.badNumber .decimal)
  | some run => afterWhole run.digits run.count run.rest

theorem scanDecimal_append (hresult : scanDecimal text = .ok result) :
    scanDecimal (text ++ behind) = .ok (NumberResult.withBehind behind result) := by
  unfold scanDecimal at hresult ⊢
  split at hresult
  · cases hresult
  · rename_i run hrun
    rw [digitRun_append (fun _ => isDigit_of_isApart) h hrun]
    exact afterWhole_append h hresult

omit h in
/-- The letter behind a zero tells the alphabet of a number. -/
theorem scanNumber_zero (mark : Char) (rest : List Char) :
    scanNumber ('0' :: mark :: rest) =
      if mark = 'x' || mark = 'X' then
        radixNumber .hexadecimal 16 (fun c => c.isDigit || ('a' ≤ c && c ≤ 'f') || ('A' ≤ c && c ≤ 'F')) rest
      else if mark = 'o' || mark = 'O' then radixNumber .octal 8 (fun c => '0' ≤ c && c ≤ '7') rest
      else if mark = 'b' || mark = 'B' then radixNumber .binary 2 (fun c => c = '0' || c = '1') rest
      else scanDecimal ('0' :: mark :: rest) := rfl

omit h in
/-- Any other number is a decimal one. -/
theorem scanNumber_of_ne {c : Char} (hpoint : c ≠ '.') (hzero : c ≠ '0') (rest : List Char) :
    scanNumber (c :: rest) = scanDecimal (c :: rest) := by
  unfold scanNumber
  split
  · rename_i heq
    exact absurd (List.cons.inj heq).1 hpoint
  · rename_i heq
    exact absurd (List.cons.inj heq).1 hzero
  · rfl

theorem scanNumber_append (hresult : scanNumber text = .ok result) :
    scanNumber (text ++ behind) = .ok (NumberResult.withBehind behind result) := by
  cases text with
  | nil => cases hresult
  | cons c text =>
    by_cases hpoint : c = '.'
    · subst hpoint
      exact afterPoint_append h hresult
    by_cases hzero : c = '0'
    · subst hzero
      cases text with
      | nil =>
        have hdecimal := scanDecimal_append h (show scanDecimal ['0'] = .ok result from hresult)
        obtain ⟨d, rest, rfl, hd⟩ := h
        have hne : ∀ a b : Char, isApart a = false → isApart b = false → ¬ (decide (d = a) || decide (d = b)) = true := by
          intro a b ha hb
          simp [ne_of_isApart hd ha, ne_of_isApart hd hb]
        rw [List.singleton_append, scanNumber_zero, if_neg (hne 'x' 'X' (by decide) (by decide)),
          if_neg (hne 'o' 'O' (by decide) (by decide)), if_neg (hne 'b' 'B' (by decide) (by decide))]
        exact hdecimal
      | cons mark rest =>
        rw [scanNumber_zero] at hresult
        rw [List.cons_append, List.cons_append, scanNumber_zero]
        split at hresult
        · rename_i hmark
          rw [if_pos hmark]
          exact radixNumber_append (fun _ => eq_false_of_isApart fun _ => isWordCharacter_of_hexDigit) h
            hresult
        · rename_i hmark
          rw [if_neg hmark]
          split at hresult
          · rename_i hmark
            rw [if_pos hmark]
            exact radixNumber_append (fun _ => eq_false_of_isApart fun _ => isWordCharacter_of_octalDigit)
              h hresult
          · rename_i hmark
            rw [if_neg hmark]
            split at hresult
            · rename_i hmark
              rw [if_pos hmark]
              exact radixNumber_append
                (fun _ => eq_false_of_isApart fun _ => isWordCharacter_of_binaryDigit) h hresult
            · rename_i hmark
              rw [if_neg hmark]
              exact scanDecimal_append h hresult
    · rw [scanNumber_of_ne hpoint hzero] at hresult
      rw [List.cons_append, scanNumber_of_ne hpoint hzero]
      exact scanDecimal_append h hresult

end Floats

/-! ## Literals -/

theorem singleBody_append {mark : Char} (hslash : mark ≠ '\\') {passed : Nat} {body : List Char}
    (hbody : singleBody mark passed text = .ok (body, rest)) (behind : List Char) :
    singleBody mark passed (text ++ behind) = .ok (body, rest ++ behind) := by
  fun_induction singleBody mark passed text generalizing body rest with
  | case1 => cases hbody
  | case2 passed c tail ih =>
    obtain ⟨⟨body', rest'⟩, htail, heq⟩ := map_eq_ok_iff.1 hbody
    cases heq
    rw [List.cons_append, List.cons_append, singleBody, ih htail]
    rfl
  | case3 passed tail hescape =>
    cases hbody
    rw [List.cons_append, singleBody.eq_3 _ _ _ _ (fun _ _ hmark _ => hslash hmark), if_pos rfl]
  | case4 => cases hbody
  | case5 passed c tail hescape hmark hline ih =>
    obtain ⟨⟨body', rest'⟩, htail, heq⟩ := map_eq_ok_iff.1 hbody
    cases heq
    have hc : ∀ d more, c = '\\' → tail ++ behind = d :: more → False := by
      intro d more hc hcons
      cases tail with
      | nil => cases htail
      | cons e tail => exact hescape e tail hc rfl
    rw [List.cons_append, singleBody.eq_3 _ _ _ _ hc, if_neg hmark, if_neg hline, ih htail]
    rfl

/-- Two marks at the start of a text stand there whatever follows the text, unless it starts with one. -/
theorem Apart.pair_append {mark : Char} (hmark : isQuote mark = true) (h : Apart behind)
    (text : List Char) : [mark, mark].isPrefixOf (text ++ behind) = [mark, mark].isPrefixOf text := by
  obtain ⟨c, rest, rfl, hc⟩ := h
  have hne : mark ≠ c := by
    rintro rfl
    rw [(isApart_iff.1 hc).2.1] at hmark
    cases hmark
  match text with
  | [] => simp [List.isPrefixOf, hne]
  | [d] => simp [List.isPrefixOf, hne]
  | d :: e :: text => simp [List.isPrefixOf]

theorem tripleBody_append {mark : Char} (hmark : isQuote mark = true) (h : Apart behind) {body : List Char}
    (hbody : tripleBody mark text = some (body, rest)) :
    tripleBody mark (text ++ behind) = some (body, rest ++ behind) := by
  fun_induction tripleBody mark text generalizing body rest with
  | case1 => cases hbody
  | case2 c tail ih =>
    obtain ⟨⟨body', rest'⟩, htail, heq⟩ := Option.map_eq_some_iff.1 hbody
    cases heq
    rw [List.cons_append, List.cons_append, tripleBody, ih htail]
    rfl
  | case3 a tail hescape hend =>
    cases hbody
    have hslash : a ≠ '\\' := by
      rintro rfl
      simp only [Bool.and_eq_true, decide_eq_true_eq] at hend
      rw [← hend.1] at hmark
      exact absurd hmark (by decide)
    have hlength : 2 ≤ tail.length := by
      simp only [Bool.and_eq_true, List.isPrefixOf_iff_prefix] at hend
      exact hend.2.length_le
    rw [List.cons_append, tripleBody.eq_3 _ _ _ (fun _ _ ha _ => hslash ha), h.pair_append hmark, if_pos hend,
      List.drop_append_of_le_length hlength]
  | case4 a tail hescape hend ih =>
    obtain ⟨⟨body', rest'⟩, htail, heq⟩ := Option.map_eq_some_iff.1 hbody
    cases heq
    have ha : ∀ d more, a = '\\' → tail ++ behind = d :: more → False := by
      intro d more ha hcons
      cases tail with
      | nil => cases htail
      | cons e tail => exact hescape e tail ha rfl
    rw [List.cons_append, tripleBody.eq_3 _ _ _ ha, h.pair_append hmark, if_neg hend, ih htail]
    rfl

/-- A literal is the same on any line and with more text behind it. -/
theorem scanText_append {line : Nat} {mark : Char} (hmark : isQuote mark = true) (h : Apart behind)
    {body characters : List Char} (hscan : scanText line mark text = .ok (body, characters, rest))
    (line' : Nat) : scanText line' mark (text ++ behind) = .ok (body, characters, rest ++ behind) := by
  have hslash : mark ≠ '\\' := by
    rintro rfl
    exact absurd hmark (by decide)
  unfold scanText at hscan ⊢
  rw [h.pair_append hmark]
  split at hscan
  · rename_i hpair
    have hlength : 2 ≤ text.length := (List.isPrefixOf_iff_prefix.1 hpair).length_le
    rw [if_pos hpair, List.drop_append_of_le_length hlength]
    split at hscan
    · rename_i htriple
      cases hscan
      rw [tripleBody_append hmark h htriple]
    · cases hscan
  · rename_i hpair
    rw [if_neg hpair]
    split at hscan
    · rename_i hsingle
      cases hscan
      rw [singleBody_append hslash hsingle]
    · cases hscan

/-! ## Symbols -/

/-- Behind its first character a symbol goes on with few others. -/
theorem symbolTable_links : ∀ entry ∈ symbolTable, ∀ d ∈ entry.1.tail, d ∈ linkCharacters := by
  have hall : symbolTable.all (fun entry => entry.1.tail.all linkCharacters.contains) = true := by
    decide +kernel
  intro entry hentry d hd
  have hlinks := List.all_eq_true.1 (List.all_eq_true.1 hall entry hentry) d hd
  simpa using hlinks

theorem scanSymbol_append (h : Apart behind) (c : Char) (text : List Char) :
    scanSymbol (c :: (text ++ behind)) = scanSymbol (c :: text) := by
  have hlonger : ∀ entry ∈ symbolTable, entry.1.isPrefixOf (c :: (text ++ behind))
      = entry.1.isPrefixOf (c :: text) := by
    intro entry hentry
    rw [Bool.eq_iff_iff, List.isPrefixOf_iff_prefix, List.isPrefixOf_iff_prefix]
    refine ⟨fun hprefix => ?_, fun hprefix => hprefix.trans (List.prefix_append (c :: text) behind)⟩
    rcases List.prefix_or_prefix_of_prefix hprefix (List.prefix_append (c :: text) behind) with hshort | hlong
    · exact hshort
    -- A symbol that is longer than the text would go on with the first character behind it.
    · obtain ⟨tail, htail⟩ := hlong
      obtain ⟨d, rest, rfl, hd⟩ := h
      cases tail with
      | nil => exact ⟨[], by simpa using htail.symm⟩
      | cons e tail =>
        rw [← htail, List.cons_append, List.cons_prefix_cons, List.prefix_append_right_inj,
          List.cons_prefix_cons] at hprefix
        have hmem : e ∈ entry.1.tail := by
          rw [← htail]
          simp
        obtain ⟨-, rfl, -⟩ := hprefix
        exact absurd (symbolTable_links entry hentry e hmem) (isApart_iff.1 hd).2.2
  rw [scanSymbol, scanSymbol, List.find?_congr hlonger]

/-! ## Tokens -/

/-- What a token leaves of a text, told for a state of reading with more text behind and more brackets
around. -/
structure Reading.Extends (behind outer : List Char) (reading reading' : Reading) : Prop where
  rest_eq : reading'.rest = reading.rest ++ behind
  brackets_eq : reading'.brackets.map Prod.fst = reading.brackets.map Prod.fst ++ outer

/-- The same token stands at the start of a text with more text behind and more brackets around, unless
there are too many brackets. -/
def SameToken (behind outer : List Char) (reading' : Reading) (kind : TokenKind) (next : Reading)
    (result : Except LexicalFault (TokenKind × Reading)) : Prop :=
  (∃ fault, result = .error fault)
    ∨ ∃ next', result = .ok (kind, next') ∧ next.Extends behind outer next' ∧ next'.indents = reading'.indents

section Tokens

variable {reading reading' next : Reading} {kind : TokenKind} {outer : List Char}
  (hreading : reading.Extends behind outer reading')
include hreading

theorem symbolToken_append {symbol : Symbol} {length : Nat} (hlength : length ≤ reading.rest.length)
    (hnext : symbolToken symbol length reading = .ok (kind, next)) :
    SameToken behind outer reading' kind next (symbolToken symbol length reading') := by
  have hadvance : (reading.advance length).Extends behind outer (reading'.advance length) := by
    refine ⟨?_, hreading.brackets_eq⟩
    rw [Reading.advance, Reading.advance, hreading.rest_eq, List.drop_append_of_le_length hlength]
  cases hopen : closingOf symbol with
  | some closing =>
    rcases @symbolToken_of_opening symbol length reading closing hopen with heq | heq
    · rw [heq] at hnext
      cases hnext
    rw [heq] at hnext
    cases hnext
    rcases @symbolToken_of_opening symbol length reading' closing hopen with heq' | heq'
    · exact .inl ⟨_, heq'⟩
    · refine .inr ⟨_, heq', ⟨hadvance.rest_eq, ?_⟩, rfl⟩
      rw [List.map_cons, List.map_cons, hreading.brackets_eq, List.cons_append]
  | none =>
    cases hclose : closerOf symbol with
    | none =>
      rw [symbolToken_of_plain hopen hclose] at hnext ⊢
      cases hnext
      exact .inr ⟨_, rfl, hadvance, rfl⟩
    | some closing =>
      obtain ⟨line, rest, hstack⟩ := exists_brackets_of_closing hclose hnext
      have hbrackets' := hreading.brackets_eq
      rw [hstack, List.map_cons, List.cons_append] at hbrackets'
      obtain ⟨⟨closing', line'⟩, rest', hstack', rfl, hrest'⟩ := List.map_eq_cons_iff.1 hbrackets'
      rw [symbolToken_of_closing hclose hstack] at hnext
      cases hnext
      rw [symbolToken_of_closing hclose hstack']
      exact .inr ⟨_, rfl, ⟨hadvance.rest_eq, hrest'⟩, rfl⟩

theorem textToken_append (h : Apart behind) {marks rest : List Char} {mark : Char}
    (hmark : isQuote mark = true)
    (hnext : textToken marks mark reading rest = .ok (kind, next)) :
    SameToken behind outer reading' kind next (textToken marks mark reading' (rest ++ behind)) := by
  rw [textToken] at hnext
  cases hscan : scanText reading.pos.line mark rest with
  | error fault =>
    rw [hscan] at hnext
    cases hnext
  | ok result =>
    obtain ⟨body, characters, left⟩ := result
    rw [hscan] at hnext
    cases hnext
    rw [textToken, scanText_append hmark h hscan reading'.pos.line]
    exact .inr ⟨_, rfl, ⟨rfl, hreading.brackets_eq⟩, rfl⟩

omit hreading in
theorem literalMark?_append (h : Apart behind) (word : List Char) :
    literalMark? word (rest ++ behind)
      = (literalMark? word rest).map fun found => (found.1, found.2 ++ behind) := by
  cases rest with
  | nil =>
    obtain ⟨c, rest, rfl, hc⟩ := h
    simp [literalMark?, (isApart_iff.1 hc).2.1]
  | cons c rest =>
    rw [List.cons_append, literalMark?, literalMark?]
    split <;> rfl

/-- A token at the start of a text stands there also when more text follows and more brackets are around,
unless these are too many. -/
theorem nextToken_append (h : Apart behind) (hne : reading.rest ≠ [])
    (hnext : nextToken reading = .ok (kind, next)) :
    SameToken behind outer reading' kind next (nextToken reading') := by
  obtain ⟨c, text, hrest⟩ := List.exists_cons_of_ne_nil hne
  have hrest' : reading'.rest = c :: (text ++ behind) := by rw [hreading.rest_eq, hrest, List.cons_append]
  by_cases hword : (isWordCharacter c && !c.isDigit) = true
  · rw [Bool.and_eq_true, Bool.not_eq_true'] at hword
    obtain ⟨htake, hdrop⟩ := h.span_append (p := isWordCharacter) (fun c hc => (isApart_iff.1 hc).1)
      reading.rest
    rw [nextToken_word_eq hrest hword.1 hword.2] at hnext
    rw [nextToken_word_eq hrest' hword.1 hword.2, hreading.rest_eq, htake, hdrop,
      literalMark?_append h]
    split at hnext
    · rename_i mark found hfound
      rw [hfound]
      exact textToken_append hreading h (isQuote_of_literalMark? hfound) hnext
    · rename_i hnone
      have hafter : reading.afterWord.Extends behind outer reading'.afterWord :=
        ⟨by rw [Reading.afterWord, Reading.afterWord, hreading.rest_eq, hdrop], hreading.brackets_eq⟩
      rw [hnone]
      dsimp only [Option.map_none]
      rcases wordToken_cases (reading.rest.takeWhile isWordCharacter) with heq | ⟨reserved, heq⟩ | heq
      · rw [heq] at hnext ⊢
        cases hnext
        exact .inr ⟨_, rfl, hafter, rfl⟩
      · rw [heq] at hnext ⊢
        cases hnext
        exact .inr ⟨_, rfl, hafter, rfl⟩
      · rw [heq] at hnext
        cases hnext
  · have hplain := Bool.eq_false_iff.2 hword
    have hsame : ∀ (kind : TokenKind) (left : List Char) (pos pos' : Position),
        SameToken behind outer reading' kind { reading with rest := left, pos }
          (.ok (kind, { reading' with rest := left ++ behind, pos := pos' })) :=
      fun kind left pos pos' => .inr ⟨_, rfl, ⟨rfl, hreading.brackets_eq⟩, rfl⟩
    have hpair : ['<', '>'].isPrefixOf (reading.rest ++ behind) = ['<', '>'].isPrefixOf reading.rest := by
      obtain ⟨d, more, rfl, hd⟩ := h
      have hne : '>' ≠ d := Ne.symm (ne_of_isApart hd (by decide))
      rw [hrest]
      cases text with
      | nil => simp [List.isPrefixOf, hne]
      | cons e text => simp [List.isPrefixOf]
    rw [nextToken_of_not_word hrest hplain] at hnext
    rw [nextToken_of_not_word hrest' hplain, h.startsDigit_append, hreading.rest_eq, hpair]
    split at hnext
    · rename_i hdigit
      rw [if_pos hdigit]
      cases hscan : scanNumber reading.rest with
      | error fault =>
        rw [hscan] at hnext
        cases hnext
      | ok result =>
        rw [hscan] at hnext
        cases hnext
        rw [scanNumber_append h hscan]
        exact hsame _ _ _ _
    · rename_i hdigit
      rw [if_neg hdigit]
      split at hnext
      · rename_i hquote
        rw [if_pos hquote]
        exact textToken_append hreading h hquote hnext
      · rename_i hquote
        rw [if_neg hquote]
        split at hnext
        · rename_i hless
          cases hnext
          rw [if_pos hless]
          have hlength : 1 ≤ text.length := by
            rw [hrest, List.isPrefixOf_iff_prefix, List.cons_prefix_cons] at hless
            exact hless.2.length_le
          rw [List.drop_append_of_le_length hlength]
          exact hsame _ _ _ _
        · rename_i hless
          rw [if_neg hless, hrest, List.cons_append, scanSymbol_append h, ← hrest]
          split at hnext
          · rename_i symbol length hsymbol
            obtain ⟨entry, hfind, heq⟩ := Option.map_eq_some_iff.1 hsymbol
            cases heq
            have hprefix := List.find?_some hfind
            rw [List.isPrefixOf_iff_prefix] at hprefix
            exact symbolToken_append hreading hprefix.length_le hnext
          · split at hnext
            · rename_i hprintable
              cases hnext
              rw [if_pos hprintable]
              exact hsame _ _ _ _
            · cases hnext

end Tokens

end PropertyWrapper.Source
