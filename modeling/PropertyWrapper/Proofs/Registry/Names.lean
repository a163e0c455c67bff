import PropertyWrapper.Proofs.Document.Reading
import PropertyWrapper.Proofs.Source.Unescaped
import PropertyWrapper.Registry.File

/-!
# Names of wrappers in files

The check of a name in a registry file is the search for a regular expression. What is found is an ASCII
identifier or several joined by points, and the text may go on with one line feed.

* `RegularExpression.text`, `RegularExpression.IsFoundIn` : the notation of regular expressions, and the
  texts in which one is found;
* `dottedNames` : the regular expression of names;
* `isFoundIn_dottedNames_iff` : the texts in which it is found;
* `isWrapperName_iff`, `nameViolations_eq_nil_iff` : the check is this search.
-/

namespace PropertyWrapper

open Document Text

/-! ## Regular expressions -/

/-- A regular expression. -/
inductive RegularExpression where
  /-- The start of the text. -/
  | start
  /-- The end of the text, or the place in front of a line feed at its end. -/
  | stop
  /-- One character of some ranges. -/
  | oneOf (ranges : List (Char × Char))
  /-- A character that has no other meaning behind a backslash. -/
  | literal (c : Char)
  | group (part : RegularExpression)
  | many (part : RegularExpression)
  | inTurn (first second : RegularExpression)

/-- The notation of a range of characters. -/
def rangeText (range : Char × Char) : String :=
  if range.1 = range.2 then String.ofList [range.1] else String.ofList [range.1, '-', range.2]

/-- The notation of a regular expression. -/
def RegularExpression.text : RegularExpression → String
  | .start => "^"
  | .stop => "$"
  | .oneOf ranges => "[" ++ String.join (ranges.map rangeText) ++ "]"
  | .literal c => String.ofList [backslash, c]
  | .group part => "(" ++ part.text ++ ")"
  | .many part => part.text ++ "*"
  | .inTurn first second => first.text ++ second.text

/-- A code point lies in one of some ranges of characters. -/
def Among (ranges : List (Char × Char)) (point : Nat) : Prop :=
  ∃ range ∈ ranges, range.1.toNat ≤ point ∧ point ≤ range.2.toNat

/-- A regular expression matches a part of a text, between what is before and what is behind it. -/
inductive RegularExpression.Spans : RegularExpression → Points → Points → Points → Prop where
  | start {behind : Points} : Spans .start [] [] behind
  | stop {before : Points} : Spans .stop before [] []
  | stopBeforeBreak {before : Points} : Spans .stop before [] ['\n'.toNat]
  | oneOf {ranges : List (Char × Char)} {before behind : Points} {point : Nat}
      (hamong : Among ranges point) : Spans (.oneOf ranges) before [point] behind
  | literal {c : Char} {before behind : Points} : Spans (.literal c) before [c.toNat] behind
  | group {part : RegularExpression} {before within behind : Points}
      (hpart : Spans part before within behind) : Spans (.group part) before within behind
  | none {part : RegularExpression} {before behind : Points} : Spans (.many part) before [] behind
  | more {part : RegularExpression} {before within others behind : Points}
      (hpart : Spans part before within (others ++ behind))
      (hothers : Spans (.many part) (before ++ within) others behind) :
      Spans (.many part) before (within ++ others) behind
  | inTurn {first second : RegularExpression} {before within others behind : Points}
      (hfirst : Spans first before within (others ++ behind))
      (hsecond : Spans second (before ++ within) others behind) :
      Spans (.inTurn first second) before (within ++ others) behind

/-- A regular expression is found somewhere in a text. -/
def RegularExpression.IsFoundIn (pattern : RegularExpression) (text : Points) : Prop :=
  ∃ before within behind, text = before ++ within ++ behind ∧ pattern.Spans before within behind

/-! ## Names -/

/-- The characters with which an ASCII identifier can start. -/
def startRanges : List (Char × Char) := [('A', 'Z'), ('a', 'z'), ('_', '_')]

/-- The characters of which an ASCII identifier can consist. -/
def wordRanges : List (Char × Char) := [('A', 'Z'), ('a', 'z'), ('0', '9'), ('_', '_')]

/-- The regular expression of an identifier. -/
def identifierPattern : RegularExpression := .inTurn (.oneOf startRanges) (.many (.oneOf wordRanges))

/-- The regular expression of what joins an identifier to others. -/
def joinedPattern : RegularExpression := .group (.inTurn (.literal '.') identifierPattern)

/-- The regular expression that the name of a wrapper is searched for. -/
def dottedNames : RegularExpression :=
  .inTurn .start (.inTurn identifierPattern (.inTurn (.many joinedPattern) .stop))

/-- It is the regular expression that a refusal of a name shows. -/
theorem text_dottedNames : dottedNames.text = namePattern := by decide

/-- A text is an ASCII identifier. -/
def IsAsciiIdentifier (text : Points) : Prop :=
  ∃ first others, text = first :: others ∧ Among startRanges first
    ∧ ∀ point ∈ others, Among wordRanges point

/-- Parts joined to a first one by points. -/
def joinedByPoints {α : Type} (point : α) (first : List α) (others : List (List α)) : List α :=
  first ++ others.flatMap (point :: ·)

/-- A text is an ASCII identifier, or several joined by points. -/
def IsDottedName (text : Points) : Prop :=
  ∃ first others, text = joinedByPoints '.'.toNat first others
    ∧ ∀ part ∈ first :: others, IsAsciiIdentifier part

/-! ## Search -/

section Search

variable {before within behind : Points}

theorem spans_many_oneOf_iff {ranges : List (Char × Char)} :
    (RegularExpression.many (.oneOf ranges)).Spans before within behind
      ↔ ∀ point ∈ within, Among ranges point := by
  constructor
  · intro h
    generalize hpattern : RegularExpression.many (.oneOf ranges) = pattern at h
    induction h with
    | none => simp
    | more hpart _ _ ih =>
      cases hpattern
      cases hpart with
      | oneOf hamong => exact List.forall_mem_cons.2 ⟨hamong, ih rfl⟩
    | _ => cases hpattern
  · intro h
    induction within generalizing before with
    | nil => exact .none
    | cons point others ih =>
      obtain ⟨hpoint, hothers⟩ := List.forall_mem_cons.1 h
      have hspans : (RegularExpression.many (.oneOf ranges)).Spans before ([point] ++ others) behind :=
        .more (.oneOf hpoint) (ih hothers)
      exact hspans

theorem spans_identifierPattern_iff :
    identifierPattern.Spans before within behind ↔ IsAsciiIdentifier within := by
  constructor
  · rintro (_ | _)
    rename_i hfirst hothers
    cases hfirst with
    | oneOf hamong => exact ⟨_, _, rfl, hamong, spans_many_oneOf_iff.1 hothers⟩
  · rintro ⟨first, others, rfl, hfirst, hothers⟩
    have hspans : identifierPattern.Spans before ([first] ++ others) behind :=
      .inTurn (.oneOf hfirst) (spans_many_oneOf_iff.2 hothers)
    exact hspans

theorem spans_joinedPattern_iff :
    joinedPattern.Spans before within behind
      ↔ ∃ part, within = '.'.toNat :: part ∧ IsAsciiIdentifier part := by
  constructor
  · rintro (_ | _)
    rename_i hinTurn
    cases hinTurn with
    | inTurn hpoint hpart =>
      cases hpoint
      exact ⟨_, rfl, spans_identifierPattern_iff.1 hpart⟩
  · rintro ⟨part, rfl, hpart⟩
    have hspans : joinedPattern.Spans before (['.'.toNat] ++ part) behind :=
      .group (.inTurn .literal (spans_identifierPattern_iff.2 hpart))
    exact hspans

theorem spans_many_joinedPattern_iff :
    (RegularExpression.many joinedPattern).Spans before within behind
      ↔ ∃ parts : List Points, within = parts.flatMap ('.'.toNat :: ·)
        ∧ ∀ part ∈ parts, IsAsciiIdentifier part := by
  constructor
  · intro h
    generalize hpattern : RegularExpression.many joinedPattern = pattern at h
    induction h with
    | none => exact ⟨[], rfl, nofun⟩
    | more hpart _ _ ih =>
      cases hpattern
      obtain ⟨first, rfl, hfirst⟩ := spans_joinedPattern_iff.1 hpart
      obtain ⟨parts, rfl, hparts⟩ := ih rfl
      exact ⟨first :: parts, rfl, List.forall_mem_cons.2 ⟨hfirst, hparts⟩⟩
    | _ => cases hpattern
  · rintro ⟨parts, rfl, hparts⟩
    induction parts generalizing before with
    | nil => exact .none
    | cons part parts ih =>
      obtain ⟨hpart, hparts⟩ := List.forall_mem_cons.1 hparts
      rw [List.flatMap_cons]
      exact .more (spans_joinedPattern_iff.2 ⟨part, rfl, hpart⟩) (ih hparts)

/-- The regular expression of names is found in dotted names, also in front of one line feed. -/
theorem isFoundIn_dottedNames_iff {text : Points} :
    dottedNames.IsFoundIn text ↔ IsDottedName text
      ∨ ∃ name, IsDottedName name ∧ text = name ++ ['\n'.toNat] := by
  constructor
  · rintro ⟨before, within, behind, rfl, hspans⟩
    cases hspans with
    | inTurn hstart hrest =>
      cases hstart
      cases hrest with
      | inTurn hfirst hrest =>
        cases hrest with
        | inTurn hothers hstop =>
          obtain ⟨others, rfl, hidentifiers⟩ := spans_many_joinedPattern_iff.1 hothers
          have hparts := List.forall_mem_cons.2 ⟨spans_identifierPattern_iff.1 hfirst, hidentifiers⟩
          cases hstop with
          | stop => exact .inl ⟨_, others, by simp [joinedByPoints], hparts⟩
          | stopBeforeBreak => exact .inr ⟨_, ⟨_, others, rfl, hparts⟩, by simp [joinedByPoints]⟩
  · intro h
    -- What is behind the name is nothing or the line feed.
    have hfound : ∀ name behind, IsDottedName name →
        (∀ before, RegularExpression.stop.Spans before [] behind) → dottedNames.IsFoundIn (name ++ behind) := by
      rintro name behind ⟨first, others, rfl, hparts⟩ hstop
      obtain ⟨hfirst, hothers⟩ := List.forall_mem_cons.1 hparts
      refine ⟨[], joinedByPoints '.'.toNat first others ++ [], behind, by simp, ?_⟩
      rw [joinedByPoints, List.append_assoc]
      have hspans : dottedNames.Spans []
          ([] ++ (first ++ (others.flatMap ('.'.toNat :: ·) ++ []))) behind := by
        refine .inTurn .start (.inTurn (spans_identifierPattern_iff.2 hfirst) ?_)
        exact .inTurn (spans_many_joinedPattern_iff.2 ⟨others, rfl, hothers⟩) (hstop _)
      exact hspans
    rcases h with hname | ⟨name, hname, rfl⟩
    · rw [← List.append_nil text]
      exact hfound text [] hname fun _ => .stop
    · exact hfound name _ hname fun _ => .stopBeforeBreak

end Search

/-! ## Characters -/

/-- The code points of names are ASCII. -/
theorem lt_of_among_wordRanges {point : Nat} (h : Among wordRanges point) : point < 128 := by
  obtain ⟨range, hrange, -, hle⟩ := h
  simp only [wordRanges, List.mem_cons, List.not_mem_nil, or_false] at hrange
  rcases hrange with rfl | rfl | rfl | rfl <;> exact Nat.lt_of_le_of_lt hle (by decide)

theorem among_wordRanges_of_start {point : Nat} (h : Among startRanges point) : Among wordRanges point := by
  obtain ⟨range, hrange, hbounds⟩ := h
  refine ⟨range, ?_, hbounds⟩
  simp only [startRanges, wordRanges, List.mem_cons, List.not_mem_nil, or_false] at hrange ⊢
  rcases hrange with rfl | rfl | rfl <;> simp

theorem isUpper_iff_toNat (c : Char) : c.isUpper = true ↔ 'A'.toNat ≤ c.toNat ∧ c.toNat ≤ 'Z'.toNat := by
  simp only [Char.isUpper, decide_eq_true_eq, ge_iff_le, UInt32.le_iff_toNat_le]
  rfl

theorem isLower_iff_toNat (c : Char) : c.isLower = true ↔ 'a'.toNat ≤ c.toNat ∧ c.toNat ≤ 'z'.toNat := by
  simp only [Char.isLower, Bool.and_eq_true, decide_eq_true_eq, ge_iff_le, UInt32.le_iff_toNat_le]
  rfl

theorem eq_underscore_iff_toNat (c : Char) : c = '_' ↔ '_'.toNat ≤ c.toNat ∧ c.toNat ≤ '_'.toNat := by
  rw [← Char.toNat_inj]
  omega

theorem among_startRanges_iff (c : Char) : Among startRanges c.toNat ↔ (c.isAlpha || c = '_') = true := by
  simp only [Among, startRanges, List.mem_cons, List.not_mem_nil, or_false, exists_eq_or_imp,
    exists_eq_left, Char.isAlpha, Bool.or_eq_true, decide_eq_true_eq, isUpper_iff_toNat, isLower_iff_toNat,
    eq_underscore_iff_toNat, or_assoc]

theorem among_wordRanges_iff (c : Char) :
    Among wordRanges c.toNat ↔ (c.isAlphanum || c = '_') = true := by
  simp only [Among, wordRanges, List.mem_cons, List.not_mem_nil, or_false, exists_eq_or_imp,
    exists_eq_left, Char.isAlphanum, Char.isAlpha, Bool.or_eq_true, decide_eq_true_eq, isUpper_iff_toNat,
    isLower_iff_toNat, Char.isDigit_iff_toNat, eq_underscore_iff_toNat, or_assoc]

/-- The characters of ASCII identifiers are those that the check admits. -/
theorem isAsciiIdentifier_iff (part : List Char) :
    IsAsciiIdentifier (part.map Char.toNat) ↔ isAsciiName part = true := by
  cases part with
  | nil => simp [IsAsciiIdentifier, isAsciiName]
  | cons c rest =>
    rw [isAsciiName, Bool.and_eq_true, ← among_startRanges_iff, List.all_eq_true, List.map_cons]
    constructor
    · rintro ⟨first, others, heq, hfirst, hothers⟩
      cases heq
      refine ⟨hfirst, fun d hd => (among_wordRanges_iff d).1 (hothers _ (List.mem_map_of_mem hd))⟩
    · rintro ⟨hfirst, hrest⟩
      refine ⟨_, _, rfl, hfirst, fun point hpoint => ?_⟩
      obtain ⟨d, hd, rfl⟩ := List.mem_map.1 hpoint
      exact (among_wordRanges_iff d).2 (hrest d hd)

theorem IsAsciiIdentifier.among {part : Points} (h : IsAsciiIdentifier part) :
    ∀ point ∈ part, Among wordRanges point := by
  obtain ⟨first, others, rfl, hfirst, hothers⟩ := h
  exact List.forall_mem_cons.2 ⟨among_wordRanges_of_start hfirst, hothers⟩

theorem IsDottedName.among {name : Points} (h : IsDottedName name) :
    ∀ point ∈ name, point = '.'.toNat ∨ Among wordRanges point := by
  obtain ⟨first, others, rfl, hparts⟩ := h
  obtain ⟨hfirst, hothers⟩ := List.forall_mem_cons.1 hparts
  intro point hpoint
  rw [joinedByPoints, List.mem_append, List.mem_flatMap] at hpoint
  rcases hpoint with hpoint | ⟨part, hpart, hpoint⟩
  · exact .inr (hfirst.among point hpoint)
  · exact (List.mem_cons.1 hpoint).imp_right ((hothers part hpart).among point)

theorem not_among_point : ¬ Among wordRanges '.'.toNat := by
  rw [among_wordRanges_iff]
  decide

theorem IsDottedName.break_not_mem {name : Points} (h : IsDottedName name) : '\n'.toNat ∉ name := by
  intro hmem
  rcases h.among _ hmem with heq | hamong
  · revert heq
    decide
  · rw [among_wordRanges_iff] at hamong
    revert hamong
    decide

/-- A text in which the regular expression of names is found is ASCII. -/
theorem lt_of_isFoundIn {text : Points} (h : dottedNames.IsFoundIn text) :
    ∀ point ∈ text, point < 128 := by
  have hname : ∀ name, IsDottedName name → ∀ point ∈ name, point < 128 := by
    intro name hname point hpoint
    rcases hname.among point hpoint with rfl | hamong
    · decide
    · exact lt_of_among_wordRanges hamong
  rcases isFoundIn_dottedNames_iff.1 h with htext | ⟨name, htext, rfl⟩
  · exact hname text htext
  · intro point hpoint
    rcases List.mem_append.1 hpoint with hpoint | hpoint
    · exact hname name htext point hpoint
    · rw [List.mem_singleton.1 hpoint]
      decide

/-! ## Parts -/

section Parts

variable {separator : Char}

theorem splitAt_cons {c : Char} {rest first : List Char} {others : List (List Char)}
    (h : splitAt separator rest = first :: others) :
    splitAt separator (c :: rest)
      = if c = separator then [] :: first :: others else (c :: first) :: others := by
  rw [splitAt, h]

/-- The parts of a text, joined by the separator, are the text. -/
theorem exists_splitAt_eq (separator : Char) (chars : List Char) :
    ∃ first others, splitAt separator chars = first :: others
      ∧ chars = joinedByPoints separator first others := by
  induction chars with
  | nil => exact ⟨[], [], rfl, rfl⟩
  | cons c rest ih =>
    obtain ⟨first, others, hsplit, hrest⟩ := ih
    rw [splitAt_cons hsplit]
    by_cases hc : c = separator
    · exact ⟨[], first :: others, if_pos hc, by simp [joinedByPoints, hc, hrest]⟩
    · exact ⟨c :: first, others, if_neg hc, by simp [joinedByPoints, hrest]⟩

/-- What is in front of the first separator belongs to the first part. -/
theorem splitAt_append {front rest first : List Char} {others : List (List Char)}
    (hfront : separator ∉ front) (h : splitAt separator rest = first :: others) :
    splitAt separator (front ++ rest) = (front ++ first) :: others := by
  induction front with
  | nil => exact h
  | cons c front ih =>
    rw [List.mem_cons, not_or] at hfront
    rw [List.cons_append, splitAt_cons (ih hfront.2), if_neg (Ne.symm hfront.1), List.cons_append]

/-- Parts without the separator are the parts of what they make when joined. -/
theorem splitAt_joinedByPoints {first : List Char} {others : List (List Char)}
    (h : ∀ part ∈ first :: others, separator ∉ part) :
    splitAt separator (joinedByPoints separator first others) = first :: others := by
  induction others generalizing first with
  | nil =>
    have hnil : splitAt separator [] = [] :: [] := rfl
    have hfirst := splitAt_append (h first (by simp)) hnil
    rw [List.append_nil] at hfirst
    rw [joinedByPoints, List.flatMap_nil, List.append_nil, hfirst]
  | cons other others ih =>
    obtain ⟨hfirst, hothers⟩ := List.forall_mem_cons.1 h
    have hrest : splitAt separator (separator :: joinedByPoints separator other others)
        = [] :: other :: others := by
      rw [splitAt_cons (ih hothers), if_pos rfl]
    have hjoined := splitAt_append hfirst hrest
    rwa [List.append_nil] at hjoined

end Parts

/-! ## Checks -/

theorem point_not_mem_of_isAsciiName {part : List Char} (h : isAsciiName part = true) : '.' ∉ part := by
  intro hmem
  have hidentifier := (isAsciiIdentifier_iff part).2 h
  exact not_among_point (hidentifier.among _ (List.mem_map_of_mem hmem))

theorem map_joinedByPoints {α β : Type} (f : α → β) (point : α) (first : List α)
    (others : List (List α)) : (joinedByPoints point first others).map f
      = joinedByPoints (f point) (first.map f) (others.map (List.map f)) := by
  simp [joinedByPoints, List.map_flatMap, List.flatMap_map]

theorem map_ofNat_toNat (chars : List Char) : (chars.map Char.toNat).map Char.ofNat = chars := by
  rw [List.map_map]
  refine (List.map_congr_left fun c _ => ?_).trans (List.map_id _)
  exact Char.ofNat_toNat c

theorem map_toNat_ofNat {part : Points} (h : ∀ point ∈ part, point < 128) :
    (part.map Char.ofNat).map Char.toNat = part := by
  rw [List.map_map]
  refine (List.map_congr_left fun point hpoint => ?_).trans (List.map_id _)
  have hvalid : point.isValidChar := .inl (Nat.lt_trans (h point hpoint) (by decide))
  rw [Function.comp_apply, Char.ofNat, dif_pos hvalid]
  rfl

/-- The characters whose parts are ASCII identifiers are the dotted names. -/
theorem isDottedName_map_iff (chars : List Char) :
    IsDottedName (chars.map Char.toNat) ↔ (splitAt '.' chars).all isAsciiName = true := by
  rw [List.all_eq_true]
  constructor
  · rintro ⟨first, others, heq, hparts⟩
    -- The parts are characters again.
    have hnames : ∀ part ∈ (first :: others).map (List.map Char.ofNat), isAsciiName part = true := by
      intro part hpart
      obtain ⟨source, hsource, rfl⟩ := List.mem_map.1 hpart
      have hidentifier := hparts source hsource
      have hlt : ∀ point ∈ source, point < 128 :=
        fun point hpoint => lt_of_among_wordRanges (hidentifier.among point hpoint)
      rw [← isAsciiIdentifier_iff, map_toNat_ofNat hlt]
      exact hidentifier
    have hchars := congrArg (List.map Char.ofNat) heq
    rw [map_ofNat_toNat, map_joinedByPoints] at hchars
    have hsplit := splitAt_joinedByPoints fun part hpart => point_not_mem_of_isAsciiName (hnames part hpart)
    have hpoint : Char.ofNat '.'.toNat = '.' := rfl
    rw [hchars, hpoint, hsplit]
    exact hnames
  · intro h
    obtain ⟨first, others, hsplit, rfl⟩ := exists_splitAt_eq '.' chars
    rw [hsplit] at h
    refine ⟨first.map Char.toNat, others.map (List.map Char.toNat), map_joinedByPoints .., ?_⟩
    intro part hpart
    rw [← List.map_cons (f := List.map Char.toNat)] at hpart
    obtain ⟨source, hsource, rfl⟩ := List.mem_map.1 hpart
    exact (isAsciiIdentifier_iff source).2 (h source hsource)

/-- The check of a name is the search for the regular expression of names. -/
theorem isWrapperName_iff (name : String) :
    isWrapperName name = true ↔ dottedNames.IsFoundIn (points name) := by
  rw [isFoundIn_dottedNames_iff, isWrapperName, points]
  by_cases hlast : name.toList.getLast? = some '\n'
  · obtain ⟨chars, hchars⟩ := List.getLast?_eq_some_iff.1 hlast
    rw [if_pos hlast, hchars, List.dropLast_concat, ← isDottedName_map_iff, List.map_append]
    constructor
    · exact fun h => .inr ⟨_, h, rfl⟩
    · rintro (h | ⟨name, h, heq⟩)
      · exact absurd (by simp) h.break_not_mem
      · have hchars : chars.map Char.toNat = name := List.append_cancel_right heq
        rwa [hchars]
  · rw [if_neg hlast, ← isDottedName_map_iff]
    constructor
    · exact .inl
    · rintro (h | ⟨name, h, heq⟩)
      · exact h
      · -- The text would end in a line feed.
        have hbreak := congrArg List.getLast? heq
        rw [List.getLast?_map, List.getLast?_concat, Option.map_eq_some_iff] at hbreak
        obtain ⟨c, hc, hpoint⟩ := hbreak
        exact absurd (hc.trans (congrArg some (Char.toNat_inj.1 hpoint))) hlast

/-- A name is refused exactly if it is a text in which the regular expression is not found. -/
theorem nameViolations_eq_nil_iff {key : Scalar} (h : key.IsRead) :
    nameViolations key = [] ↔ ∀ text, key.points? = some text → dottedNames.IsFoundIn text := by
  cases key with
  | text name =>
    rw [nameViolations, Scalar.points?]
    simp only [Option.some.injEq, forall_eq', ← isWrapperName_iff]
    cases isWrapperName name <;> simp
  | brokenText value =>
    -- A lone surrogate is not ASCII.
    obtain ⟨point, hpoint, hsurrogate⟩ := exists_isSurrogate_of_isBroken h
    have hge : 0xd800 ≤ point := by
      simp only [isSurrogate, Bool.and_eq_true, decide_eq_true_eq] at hsurrogate
      exact hsurrogate.1
    rw [nameViolations, Scalar.points?]
    simp only [Option.some.injEq, forall_eq', List.cons_ne_nil, false_iff]
    intro hfound
    have hlt := lt_of_isFoundIn hfound point hpoint
    omega
  | null | bool | int | float | bytes | date | moment => simp [nameViolations, Scalar.points?]

end PropertyWrapper
