import PropertyWrapper.Proofs.Result
import PropertyWrapper.Proofs.Source.Sound
import PropertyWrapper.Source.Printer

/-!
# Printed expressions

The text of a sound expression is closed, so that it can be put anywhere into a line.

* `IsClosed.join`, `IsClosed.bracketed` : closed texts are put together with operators and brackets;
* `closed_print` : the text of a sound expression is closed.

The printer keeps literals apart by itself: wherever two printed parts meet, an operator, a bracket or
a blank stands between them. So no part has to be known more closely than by its being closed.
-/

namespace PropertyWrapper.Source

open PropertyWrapper.Text

/-! ## Putting closed texts together -/

/-- Whether a text consists of plain characters. -/
def isPlainText (text : String) : Bool := text.toList.all isPlain

theorem isPlainText_append {a b : String} (ha : isPlainText a = true) (hb : isPlainText b = true) :
    isPlainText (a ++ b) = true := by
  simp_all [isPlainText]

theorem isPlainText_of_isWord {text : String} (h : isWord text = true) : isPlainText text = true :=
  List.all_eq_true.2 (isPlain_of_isWord h)

namespace IsClosed

theorem lead {lead text : String} (hlead : isPlainText lead = true) (h : IsClosed text) :
    IsClosed (lead ++ text) := by
  rw [IsClosed, String.toList_append]
  exact h.plains (List.all_eq_true.1 hlead)

theorem empty : IsClosed "" := Closes.nil

theorem plain {text : String} (h : isPlainText text = true) : IsClosed text := by
  have hclosed := lead h empty
  rwa [String.append_empty] at hclosed

/-- Whether a text starts with another character than a quote. -/
theorem append {a b : String} (ha : IsClosed a) (hb : IsClosed b)
    (hquote : ∀ c, b.toList.head? = some c → isQuote c = false) : IsClosed (a ++ b) := by
  rw [IsClosed, String.toList_append]
  exact Closes.append ha hb hquote

/-- Plain characters behind a closed text. -/
theorem trail {text trail : String} (h : IsClosed text) (htrail : isPlainText trail = true) :
    IsClosed (text ++ trail) := by
  refine h.append (plain htrail) fun c hc => ?_
  have hplain := List.all_eq_true.1 htrail c (List.mem_of_head? hc)
  simp only [isPlain, Bool.and_eq_true, Bool.not_eq_true'] at hplain
  exact hplain.1.1.1.1.1.1

/-- Two closed texts with plain characters between them. -/
theorem join {a gap b : String} (ha : IsClosed a) (hgap : isPlainText gap = true)
    (hne : gap ≠ "") (hb : IsClosed b) : IsClosed (a ++ gap ++ b) := by
  rw [String.append_assoc]
  refine ha.append (lead hgap hb) fun c hc => ?_
  obtain ⟨d, rest, hcons⟩ := List.exists_cons_of_ne_nil (show gap.toList ≠ [] by simpa using hne)
  rw [String.toList_append, hcons, List.cons_append, List.head?_cons] at hc
  obtain rfl := Option.some.inj hc
  have hplain := List.all_eq_true.1 hgap d (by simp [hcons])
  simp only [isPlain, Bool.and_eq_true, Bool.not_eq_true'] at hplain
  exact hplain.1.1.1.1.1.1

theorem parenthesized {text : String} (h : IsClosed text) : IsClosed ("(" ++ text ++ ")") := by
  have hclosed := Closes.bracketed (show closingBracket? '(' = some ')' from rfl) h
  simpa [IsClosed] using hclosed

theorem bracketed {text : String} (h : IsClosed text) : IsClosed ("[" ++ text ++ "]") := by
  have hclosed := Closes.bracketed (show closingBracket? '[' = some ']' from rfl) h
  simpa [IsClosed] using hclosed

theorem braced {text : String} (h : IsClosed text) : IsClosed ("\x7b" ++ text ++ "\x7d") := by
  have hclosed := Closes.bracketed (show closingBracket? '\x7b' = some '\x7d' from rfl) h
  simpa [IsClosed] using hclosed

/-- Brackets behind a closed text. -/
theorem indexed {base text : String} (hbase : IsClosed base) (h : IsClosed text) :
    IsClosed (base ++ "[" ++ text ++ "]") := by
  have hclosed := hbase.append h.bracketed (by simp; decide)
  simpa [String.append_assoc] using hclosed

/-- Parentheses behind a closed text. -/
theorem applied {base text : String} (hbase : IsClosed base) (h : IsClosed text) :
    IsClosed (base ++ "(" ++ text ++ ")") := by
  have hclosed := hbase.append h.parenthesized (by simp; decide)
  simpa [String.append_assoc] using hclosed

theorem intercalate {separator : String} {texts : List String}
    (hseparator : isPlainText separator = true) (hne : separator ≠ "")
    (h : ∀ text ∈ texts, IsClosed text) : IsClosed (String.intercalate separator texts) := by
  match texts with
  | [] => exact empty
  | [text] => simpa using h text (by simp)
  | first :: second :: rest =>
    rw [String.intercalate_cons_cons]
    have hrest := intercalate hseparator hne fun text htext => h text (List.mem_cons_of_mem _ htext)
    exact (h first (by simp)).join hseparator hne hrest

theorem commaSeparated {texts : List String} (h : ∀ text ∈ texts, IsClosed text) :
    IsClosed (commaSeparated texts) :=
  intercalate (by decide) (by decide) h

theorem enclose {text : String} (h : IsClosed text) (context own : Precedence) :
    IsClosed (enclose context own text) := by
  unfold Source.enclose
  split
  · exact h.parenthesized
  · exact h

end IsClosed

/-! ## Constants -/

theorem isPlainText_ofList {characters : List Char} (h : ∀ c ∈ characters, isPlain c = true) :
    isPlainText (String.ofList characters) = true := by
  simpa [isPlainText] using h

theorem isPlainText_toString (n : Nat) : isPlainText (toString n) = true := by
  rw [isPlainText, List.all_eq_true]
  intro c hc
  have hdigits : c ∈ Nat.toDigits 10 n := by simpa [toString] using hc
  exact isPlain_of_mem_toDigits hdigits

theorem isPlain_of_mem_zeros {count : Nat} {c : Char} (hc : c ∈ List.replicate count '0') :
    isPlain c = true := by
  rw [List.eq_of_mem_replicate hc]
  decide

theorem isPlainText_exponentText (exponent : Int) :
    isPlainText (Number.exponentText exponent) = true := by
  unfold Number.exponentText
  refine isPlainText_append ?_ ?_
  · split <;> decide
  · split
    · exact isPlainText_append (by decide) (isPlainText_toString _)
    · exact isPlainText_toString _

theorem isPlainText_scientific {digits : List Char} (h : ∀ c ∈ digits, isPlain c = true)
    (exponent : Int) : isPlainText (Number.scientific digits exponent) = true := by
  unfold Number.scientific
  refine isPlainText_append ?_ (isPlainText_exponentText exponent)
  split
  · rename_i first second rest
    refine isPlainText_ofList fun c hc => ?_
    rcases List.mem_cons.1 hc with rfl | hc
    · exact h _ (by simp)
    rcases List.mem_cons.1 hc with rfl | hc
    · decide
    · exact h c (List.mem_cons_of_mem _ hc)
  · exact isPlainText_ofList h

theorem isPlainText_positional {digits : List Char} (h : ∀ c ∈ digits, isPlain c = true)
    (format : Number.FloatFormat) (places : Int) :
    isPlainText (Number.positional format digits places) = true := by
  have hwhole : ∀ count : Nat, isPlainText (String.ofList
      (digits.take places.natAbs ++ List.replicate count '0')) = true := by
    refine fun count => isPlainText_ofList fun c hc => ?_
    rcases List.mem_append.1 hc with hc | hc
    · exact h c (List.mem_of_mem_take hc)
    · exact isPlain_of_mem_zeros hc
  unfold Number.positional
  split
  · refine isPlainText_append (by decide) (isPlainText_ofList fun c hc => ?_)
    rcases List.mem_append.1 hc with hc | hc
    · exact isPlain_of_mem_zeros hc
    · exact h c hc
  · simp only
    split
    · refine isPlainText_append (hwhole _) ?_
      split <;> decide
    · refine isPlainText_append (isPlainText_append (hwhole _) (by decide)) ?_
      exact isPlainText_ofList fun c hc => h c (List.mem_of_mem_drop hc)

/-- Numbers are written with plain characters. -/
theorem isPlainText_binary64 {format : Number.FloatFormat}
    (hinfinity : isPlainText format.infinity = true) (value : Number.Binary64) :
    isPlainText (value.text format) = true := by
  unfold Number.Binary64.text
  split
  · exact hinfinity
  · split <;> decide
  · have hdigits : ∀ n : Nat, ∀ c ∈ Nat.toDigits 10 n, isPlain c = true :=
      fun n c hc => isPlain_of_mem_toDigits hc
    simp only
    split
    · exact isPlainText_scientific (hdigits _) _
    · exact isPlainText_positional (hdigits _) _ _

/-- Constants are written as closed texts. -/
theorem closed_constant (value : Constant) : IsClosed (value.text false) := by
  cases value with
  | none => exact .plain (by decide)
  | bool value => cases value <;> exact .plain (by decide)
  | ellipsis => exact .plain (by decide)
  | int value => exact .plain (isPlainText_toString value)
  | float value => exact .plain (isPlainText_binary64 (by decide) value)
  | imaginary value =>
    exact .plain (isPlainText_append (isPlainText_binary64 (by decide) value) (by decide))
  | str marked value =>
    refine .lead ?_ (written_quotedPoints value).closes
    cases marked <;> decide
  | bytes value =>
    obtain ⟨literal, heq, hliteral⟩ := quotedBytes_eq value
    rw [IsClosed, Constant.text, heq]
    exact .plain (by decide) hliteral.closes

/-! ## Formatted literals -/

/-- A replacement field is written between braces. -/
theorem isField_fieldPoints {expression : String} {conversion : Option Conversion}
    {spec text : Points} (h : fieldPoints expression conversion spec = .ok text) : IsField text := by
  unfold fieldPoints at h
  simp only at h
  split at h
  · cases h
  · cases h
    constructor
    · simp [points]
    · rw [List.getLast?_append]
      rfl

theorem isField_print {value : Expr} {conversion : Option Conversion}
    {spec : Option (List FormatPart)} {text : Points × Bool}
    (h : (FormatPart.field value conversion spec).print = .ok text) : IsField text.1 := by
  cases spec with
  | none =>
    rw [FormatPart.print] at h
    obtain ⟨expression, -, h⟩ := bind_eq_ok_iff.1 h
    obtain ⟨written, hwritten, h⟩ := bind_eq_ok_iff.1 h
    cases h
    exact isField_fieldPoints hwritten
  | some spec =>
    rw [FormatPart.print] at h
    obtain ⟨expression, -, h⟩ := bind_eq_ok_iff.1 h
    obtain ⟨spec, -, h⟩ := bind_eq_ok_iff.1 h
    obtain ⟨written, hwritten, h⟩ := bind_eq_ok_iff.1 h
    cases h
    exact isField_fieldPoints hwritten

/-- The written parts of a formatted literal alternate with replacement fields. -/
theorem alternates_printParts {parts : List FormatPart} {texts : List (Points × Bool)}
    (hparts : textsApart parts = true) (h : printParts parts = .ok texts) : Alternates texts := by
  induction parts generalizing texts with
  | nil =>
    cases h
    trivial
  | cons first rest ih =>
    rw [printParts] at h
    obtain ⟨written, hwritten, h⟩ := bind_eq_ok_iff.1 h
    obtain ⟨others, hothers, h⟩ := bind_eq_ok_iff.1 h
    cases h
    have hrest : textsApart rest = true := by
      match first, rest with
      | .text _, [] => rfl
      | .text _, .field .. :: _ => exact hparts
      | .field .., _ => exact hparts
    have halternates := ih hrest hothers
    match rest with
    | [] =>
      cases hothers
      trivial
    | second :: rest =>
      rw [printParts] at hothers
      obtain ⟨written', hwritten', hothers⟩ := bind_eq_ok_iff.1 hothers
      obtain ⟨others', -, hothers⟩ := bind_eq_ok_iff.1 hothers
      cases hothers
      refine ⟨?_, halternates⟩
      match first, second with
      | .field .., _ => exact .inl (isField_print hwritten)
      | .text _, .field .. => exact .inr (isField_print hwritten')

/-! ## Expressions -/

theorem isPlainText_unaryOp (op : UnaryOp) : isPlainText op.text = true := by
  cases op <;> decide

theorem isPlainText_binaryOp (op : BinaryOp) : isPlainText op.text = true := by
  cases op <;> decide

theorem isPlainText_boolOp (op : BoolOp) : isPlainText op.text = true := by
  cases op <;> decide

theorem isPlainText_compareOp (op : CompareOp) : isPlainText op.text = true := by
  cases op <;> decide

theorem IsClosed.tupleItems {texts : List String} (h : ∀ text ∈ texts, IsClosed text) :
    IsClosed (tupleItems texts) := by
  unfold Source.tupleItems
  split
  · exact (h _ (by simp)).trail (by decide)
  · exact .commaSeparated h

/-- The written form of a parameter list is closed if those of its parameters are. -/
theorem closed_joinParameters {positionalOnly regular keywordOnly : List String}
    {variadic keywords : Option String} (hpositional : ∀ text ∈ positionalOnly, IsClosed text)
    (hregular : ∀ text ∈ regular, IsClosed text) (hvariadic : ∀ text ∈ variadic, IsClosed text)
    (hkeywordOnly : ∀ text ∈ keywordOnly, IsClosed text) (hkeywords : ∀ text ∈ keywords, IsClosed text) :
    IsClosed (joinParameters positionalOnly regular variadic keywordOnly keywords) := by
  unfold joinParameters
  refine .commaSeparated fun text htext => ?_
  simp only [List.mem_append] at htext
  rcases htext with ((((htext | htext) | htext) | htext) | htext) | htext
  · exact hpositional text htext
  · split at htext
    · simp at htext
    · obtain rfl := List.mem_singleton.1 htext
      exact .plain (by decide)
  · exact hregular text htext
  · split at htext
    · obtain rfl := List.mem_singleton.1 htext
      exact .lead (by decide) (hvariadic _ rfl)
    · split at htext
      · simp at htext
      · obtain rfl := List.mem_singleton.1 htext
        exact .plain (by decide)
  · exact hkeywordOnly text htext
  · cases keywords with
    | none => simp at htext
    | some keywords =>
      obtain rfl : text = "**" ++ keywords := by simpa using htext
      exact .lead (by decide) (hkeywords _ rfl)

/-- The blank in front of the point of an attribute access. -/
def attributeGap : Expr → String
  | .constant _ constant => if constant.isIntegral then " " else ""
  | _ => ""

theorem print_attribute (context : Precedence) (pos : Position) (value : Expr) (attr : String) :
    (Expr.attribute pos value attr).print false context = do
      return (← value.print false .atom) ++ attributeGap value ++ "." ++ attr := by
  cases value <;> rfl

theorem isPlainText_attributeGap (value : Expr) : isPlainText (attributeGap value) = true := by
  unfold attributeGap
  split
  · split <;> decide
  · decide

/-- The elements of a tuple. -/
def tupleElements? : Expr → Option (List Expr)
  | .tuple _ elements => some elements
  | _ => none

/-- A subscript that is a tuple is written without parentheses unless it is empty. -/
theorem print_subscript (context : Precedence) (pos : Position) (value index : Expr) :
    (∃ elements, tupleElements? index = some elements ∧
      (Expr.subscript pos value index).print false context = do
        let base ← value.print false .atom
        let texts ← printAll false .test elements
        return base ++ "[" ++ tupleItems texts ++ "]")
    ∨ (Expr.subscript pos value index).print false context = do
        let base ← value.print false .atom
        let text ← index.print false .test
        return base ++ "[" ++ text ++ "]" := by
  cases index with
  | tuple pos' elements =>
    cases elements with
    | nil => exact .inr rfl
    | cons first rest =>
      refine .inl ⟨first :: rest, rfl, ?_⟩
      rw [Expr.print, printAll]
      simp only [bind_assoc, pure_bind]
  | _ => exact .inr rfl

theorem closed_append_conditions {base : String} {texts : List String} (hbase : IsClosed base)
    (h : ∀ text ∈ texts, IsClosed text) :
    IsClosed (base ++ String.join (texts.map (" if " ++ ·))) := by
  induction texts generalizing base with
  | nil => simpa using hbase
  | cons text texts ih =>
    have htext : IsClosed (base ++ " if " ++ text) :=
      hbase.join (by decide) (by decide) (h text (by simp))
    have hrest := ih htext fun text htext => h text (by simp [htext])
    rw [List.map_cons, String.join_cons]
    simpa only [String.append_assoc] using hrest

theorem forall_mem_cons {first : String} {rest : List String} (hfirst : IsClosed first)
    (hrest : ∀ text ∈ rest, IsClosed text) : ∀ text ∈ first :: rest, IsClosed text := by
  intro text hmem
  rcases List.mem_cons.1 hmem with rfl | hmem
  · exact hfirst
  · exact hrest text hmem

mutual

/-- The text of a sound expression is closed. -/
theorem closed_print (context : Precedence) (e : Expr) (text : String) (hsound : e.isSound = true)
    (h : e.print false context = .ok text) : IsClosed text := by
  match e with
  | .name _ id =>
    cases h
    exact .plain (isPlainText_of_isWord hsound)
  | .constant _ value =>
    rw [Expr.print] at h
    split at h
    · cases h
    · cases h
      exact closed_constant value
  | .formatted _ parts =>
    rw [Expr.isSound, Bool.and_eq_true] at hsound
    rw [Expr.print] at h
    obtain ⟨texts, htexts, h⟩ := bind_eq_ok_iff.1 h
    cases h
    exact .lead (by decide) (written_quotedParts (alternates_printParts hsound.1 htexts)).closes
  | .attribute _ value attr =>
    rw [Expr.isSound, Bool.and_eq_true] at hsound
    rw [print_attribute] at h
    obtain ⟨base, hbase, h⟩ := bind_eq_ok_iff.1 h
    cases h
    have hclosed := closed_print _ value base hsound.1 hbase
    exact ((hclosed.trail (isPlainText_attributeGap value)).trail (by decide)).trail
      (isPlainText_of_isWord hsound.2)
  | .subscript _ value index =>
    rw [Expr.isSound, Bool.and_eq_true] at hsound
    rcases print_subscript context ‹_› value index with ⟨elements, helements, heq⟩ | heq
    · rw [heq] at h
      obtain ⟨base, hbase, h⟩ := bind_eq_ok_iff.1 h
      obtain ⟨texts, htexts, h⟩ := bind_eq_ok_iff.1 h
      cases h
      exact .indexed (closed_print _ value base hsound.1 hbase)
        (.tupleItems (closed_elements _ index elements texts hsound.2 helements htexts))
    · rw [heq] at h
      obtain ⟨base, hbase, h⟩ := bind_eq_ok_iff.1 h
      obtain ⟨text, htext, h⟩ := bind_eq_ok_iff.1 h
      cases h
      exact .indexed (closed_print _ value base hsound.1 hbase)
        (closed_print _ index text hsound.2 htext)
  | .call _ func args keywords =>
    simp only [Expr.isSound, Bool.and_eq_true] at hsound
    rw [Expr.print] at h
    obtain ⟨base, hbase, h⟩ := bind_eq_ok_iff.1 h
    obtain ⟨texts, htexts, h⟩ := bind_eq_ok_iff.1 h
    obtain ⟨named, hnamed, h⟩ := bind_eq_ok_iff.1 h
    cases h
    refine .applied (closed_print _ func base hsound.1.1 hbase) (.commaSeparated fun text hmem => ?_)
    rcases List.mem_append.1 hmem with hmem | hmem
    · exact closed_printAll _ args texts hsound.1.2 htexts text hmem
    · exact closed_printKeywords keywords named hsound.2 hnamed text hmem
  | .starred _ value =>
    rw [Expr.print] at h
    obtain ⟨text, htext, h⟩ := bind_eq_ok_iff.1 h
    cases h
    exact .lead (by decide) (closed_print _ value text hsound htext)
  | .slice _ lower upper step =>
    simp only [Expr.isSound, Bool.and_eq_true] at hsound
    rw [Expr.print] at h
    obtain ⟨low, hlow, h⟩ := bind_eq_ok_iff.1 h
    obtain ⟨high, hhigh, h⟩ := bind_eq_ok_iff.1 h
    obtain ⟨stride, hstride, h⟩ := bind_eq_ok_iff.1 h
    cases h
    have hlower := closed_printOption _ lower low (by decide) hsound.1.1 hlow
    have hbounds : IsClosed (low ++ if high.isEmpty then ":" else high) := by
      split
      · exact hlower.trail (by decide)
      · exact closed_append_printOption _ upper high (by decide) (by decide) hsound.1.2 hhigh hlower
    exact closed_append_printOption _ step stride (by decide) (by decide) hsound.2 hstride hbounds
  | .tuple _ [] =>
    cases h
    exact .parenthesized .empty
  | .tuple _ (first :: rest) =>
    simp only [Expr.isSound, allSound, Bool.and_eq_true] at hsound
    rw [Expr.print] at h
    obtain ⟨head, hhead, h⟩ := bind_eq_ok_iff.1 h
    obtain ⟨texts, htexts, h⟩ := bind_eq_ok_iff.1 h
    cases h
    exact .enclose (.tupleItems (forall_mem_cons (closed_print _ first _ hsound.1 hhead)
      (closed_printAll _ rest texts hsound.2 htexts))) _ _
  | .list _ elements =>
    rw [Expr.print] at h
    obtain ⟨texts, htexts, h⟩ := bind_eq_ok_iff.1 h
    cases h
    exact .bracketed (.commaSeparated (closed_printAll _ elements texts hsound htexts))
  | .set _ elements =>
    rw [Expr.print] at h
    obtain ⟨texts, htexts, h⟩ := bind_eq_ok_iff.1 h
    cases h
    split
    · have hstar : isPlainText "*" = true := by decide
      exact .braced (.lead hstar (.parenthesized .empty))
    · exact .braced (.commaSeparated (closed_printAll _ elements texts hsound htexts))
  | .dict _ items =>
    rw [Expr.print] at h
    obtain ⟨texts, htexts, h⟩ := bind_eq_ok_iff.1 h
    cases h
    exact .braced (.commaSeparated (closed_printItems items texts hsound htexts))
  | .listComp _ element clauses =>
    rw [Expr.isSound, Bool.and_eq_true] at hsound
    rw [Expr.print] at h
    obtain ⟨head, hhead, h⟩ := bind_eq_ok_iff.1 h
    obtain ⟨tail, htail, h⟩ := bind_eq_ok_iff.1 h
    cases h
    rw [@String.append_assoc "[" head tail]
    exact .bracketed (closed_printClauses clauses tail hsound.2 htail
      (closed_print _ element head hsound.1 hhead))
  | .setComp _ element clauses =>
    rw [Expr.isSound, Bool.and_eq_true] at hsound
    rw [Expr.print] at h
    obtain ⟨head, hhead, h⟩ := bind_eq_ok_iff.1 h
    obtain ⟨tail, htail, h⟩ := bind_eq_ok_iff.1 h
    cases h
    rw [@String.append_assoc "\x7b" head tail]
    exact .braced (closed_printClauses clauses tail hsound.2 htail
      (closed_print _ element head hsound.1 hhead))
  | .generator _ element clauses =>
    rw [Expr.isSound, Bool.and_eq_true] at hsound
    rw [Expr.print] at h
    obtain ⟨head, hhead, h⟩ := bind_eq_ok_iff.1 h
    obtain ⟨tail, htail, h⟩ := bind_eq_ok_iff.1 h
    cases h
    rw [@String.append_assoc "(" head tail]
    exact .parenthesized (closed_printClauses clauses tail hsound.2 htail
      (closed_print _ element head hsound.1 hhead))
  | .dictComp _ key value clauses =>
    simp only [Expr.isSound, Bool.and_eq_true] at hsound
    rw [Expr.print] at h
    obtain ⟨left, hleft, h⟩ := bind_eq_ok_iff.1 h
    obtain ⟨right, hright, h⟩ := bind_eq_ok_iff.1 h
    obtain ⟨tail, htail, h⟩ := bind_eq_ok_iff.1 h
    cases h
    have hpair : IsClosed (left ++ ": " ++ right) :=
      (closed_print _ key left hsound.1.1 hleft).join (by decide) (by decide)
        (closed_print _ value right hsound.1.2 hright)
    have hclosed := (closed_printClauses clauses tail hsound.2 htail hpair).braced
    simpa only [String.append_assoc] using hclosed
  | .unary _ op operand =>
    rw [Expr.print] at h
    obtain ⟨text, htext, h⟩ := bind_eq_ok_iff.1 h
    cases h
    exact .enclose (.lead (isPlainText_unaryOp op) (closed_print _ operand text hsound htext)) _ _
  | .binary _ op left right =>
    rw [Expr.isSound, Bool.and_eq_true] at hsound
    rw [Expr.print] at h
    obtain ⟨first, hfirst, h⟩ := bind_eq_ok_iff.1 h
    obtain ⟨second, hsecond, h⟩ := bind_eq_ok_iff.1 h
    cases h
    refine .enclose ?_ _ _
    have hgap : isPlainText (" " ++ op.text ++ " ") = true :=
      isPlainText_append (isPlainText_append (by decide) (isPlainText_binaryOp op)) (by decide)
    have hclosed :=
      (closed_print _ left first hsound.1 hfirst).join hgap (by simp [String.append_eq_empty_iff])
        (closed_print _ right second hsound.2 hsecond)
    simpa only [String.append_assoc] using hclosed
  | .boolean _ op operands =>
    rw [Expr.print] at h
    obtain ⟨texts, htexts, h⟩ := bind_eq_ok_iff.1 h
    cases h
    have hgap : isPlainText (" " ++ op.text ++ " ") = true :=
      isPlainText_append (isPlainText_append (by decide) (isPlainText_boolOp op)) (by decide)
    have hlist := IsClosed.intercalate hgap (by simp [String.append_eq_empty_iff])
      (closed_printOperands _ operands texts hsound htexts)
    exact .enclose hlist _ _
  | .compare _ left rest =>
    rw [Expr.isSound, Bool.and_eq_true] at hsound
    rw [Expr.print] at h
    obtain ⟨first, hfirst, h⟩ := bind_eq_ok_iff.1 h
    obtain ⟨tail, htail, h⟩ := bind_eq_ok_iff.1 h
    cases h
    exact .enclose (closed_printSteps rest tail hsound.2 htail
      (closed_print _ left first hsound.1 hfirst)) _ _
  | .conditional _ body test orelse =>
    simp only [Expr.isSound, Bool.and_eq_true] at hsound
    rw [Expr.print] at h
    obtain ⟨first, hfirst, h⟩ := bind_eq_ok_iff.1 h
    obtain ⟨second, hsecond, h⟩ := bind_eq_ok_iff.1 h
    obtain ⟨third, hthird, h⟩ := bind_eq_ok_iff.1 h
    cases h
    refine .enclose (.join (.join ?_ (by decide) (by decide) ?_) (by decide) (by decide) ?_) _ _
    · exact closed_print _ body first hsound.1.1 hfirst
    · exact closed_print _ test second hsound.1.2 hsecond
    · exact closed_print _ orelse third hsound.2 hthird
  | .lambda _ params body =>
    rw [Expr.isSound, Bool.and_eq_true] at hsound
    rw [Expr.print] at h
    obtain ⟨head, hhead, h⟩ := bind_eq_ok_iff.1 h
    obtain ⟨text, htext, h⟩ := bind_eq_ok_iff.1 h
    cases h
    refine .enclose (.join (.lead ?_ ?_) (by decide) (by decide) ?_) _ _
    · refine isPlainText_append (by decide) ?_
      split <;> decide
    · exact closed_printParams params head hsound.1 hhead
    · exact closed_print _ body text hsound.2 htext
  | .assigned _ target value =>
    rw [Expr.isSound, Bool.and_eq_true] at hsound
    rw [Expr.print] at h
    obtain ⟨first, hfirst, h⟩ := bind_eq_ok_iff.1 h
    obtain ⟨second, hsecond, h⟩ := bind_eq_ok_iff.1 h
    cases h
    refine .enclose (.join ?_ (by decide) (by decide) ?_) _ _
    · exact closed_print _ target first hsound.1 hfirst
    · exact closed_print _ value second hsound.2 hsecond
  | .await _ value =>
    rw [Expr.print] at h
    obtain ⟨text, htext, h⟩ := bind_eq_ok_iff.1 h
    cases h
    exact .enclose (.lead (by decide) (closed_print _ value text hsound htext)) _ _
  | .yield _ none =>
    cases h
    exact .enclose (.plain (by decide)) _ _
  | .yield _ (some value) =>
    rw [Expr.print] at h
    obtain ⟨text, htext, h⟩ := bind_eq_ok_iff.1 h
    cases h
    exact .enclose (.lead (by decide) (closed_print _ value text hsound htext)) _ _
  | .yieldFrom _ value =>
    rw [Expr.print] at h
    obtain ⟨text, htext, h⟩ := bind_eq_ok_iff.1 h
    cases h
    exact .enclose (.lead (by decide) (closed_print _ value text hsound htext)) _ _

theorem closed_elements (context : Precedence) (e : Expr) (elements : List Expr)
    (texts : List String) (hsound : e.isSound = true) (helements : tupleElements? e = some elements)
    (h : printAll false context elements = .ok texts) : ∀ text ∈ texts, IsClosed text := by
  match e with
  | .tuple _ elements' =>
    obtain rfl := Option.some.inj helements
    exact closed_printAll context elements' texts hsound h

/-- The texts of sound expressions are closed. -/
theorem closed_printAll (context : Precedence) (es : List Expr) (texts : List String)
    (hsound : allSound es = true) (h : printAll false context es = .ok texts) :
    ∀ text ∈ texts, IsClosed text := by
  match es with
  | [] =>
    cases h
    simp
  | e :: rest =>
    rw [allSound, Bool.and_eq_true] at hsound
    rw [printAll] at h
    obtain ⟨first, hfirst, h⟩ := bind_eq_ok_iff.1 h
    obtain ⟨others, hothers, h⟩ := bind_eq_ok_iff.1 h
    cases h
    intro text hmem
    rcases List.mem_cons.1 hmem with rfl | hmem
    · exact closed_print context e _ hsound.1 hfirst
    · exact closed_printAll context rest others hsound.2 hothers text hmem

theorem closed_printOperands (context : Precedence) (es : List Expr) (texts : List String)
    (hsound : allSound es = true) (h : printOperands false context es = .ok texts) :
    ∀ text ∈ texts, IsClosed text := by
  match es with
  | [] =>
    cases h
    simp
  | e :: rest =>
    rw [allSound, Bool.and_eq_true] at hsound
    rw [printOperands] at h
    obtain ⟨first, hfirst, h⟩ := bind_eq_ok_iff.1 h
    obtain ⟨others, hothers, h⟩ := bind_eq_ok_iff.1 h
    cases h
    exact forall_mem_cons (closed_print _ e first hsound.1 hfirst)
      (closed_printOperands _ rest others hsound.2 hothers)

theorem closed_printOption (lead : String) (value : Option Expr) (text : String)
    (hlead : isPlainText lead = true) (hsound : optionSound value = true)
    (h : printOption false lead value = .ok text) : IsClosed text := by
  match value with
  | none =>
    cases h
    exact .empty
  | some value =>
    rw [printOption] at h
    obtain ⟨written, hwritten, h⟩ := bind_eq_ok_iff.1 h
    cases h
    exact .lead hlead (closed_print _ value written hsound hwritten)

/-- An optional expression behind its lead can follow any closed text. -/
theorem closed_append_printOption (lead : String) (value : Option Expr) (text : String)
    (hlead : isPlainText lead = true) (hne : lead ≠ "") (hsound : optionSound value = true)
    (h : printOption false lead value = .ok text) {base : String} (hbase : IsClosed base) :
    IsClosed (base ++ text) := by
  match value with
  | none =>
    cases h
    rwa [String.append_empty]
  | some value =>
    rw [printOption] at h
    obtain ⟨written, hwritten, h⟩ := bind_eq_ok_iff.1 h
    cases h
    rw [← String.append_assoc]
    exact hbase.join hlead hne (closed_print _ value written hsound hwritten)

theorem closed_printKeyword (keyword : Keyword) (text : String) (hsound : keyword.isSound = true)
    (h : keyword.print false = .ok text) : IsClosed text := by
  match keyword with
  | .mk _ none value =>
    rw [Keyword.print] at h
    obtain ⟨written, hwritten, h⟩ := bind_eq_ok_iff.1 h
    cases h
    exact .lead (by decide) (closed_print _ value written hsound hwritten)
  | .mk _ (some name) value =>
    rw [Keyword.isSound, Bool.and_eq_true] at hsound
    rw [Keyword.print] at h
    obtain ⟨written, hwritten, h⟩ := bind_eq_ok_iff.1 h
    cases h
    exact .lead (isPlainText_append (isPlainText_of_isWord hsound.1) (by decide))
      (closed_print _ value written hsound.2 hwritten)

theorem closed_printKeywords (keywords : List Keyword) (texts : List String)
    (hsound : keywordsSound keywords = true) (h : printKeywords false keywords = .ok texts) :
    ∀ text ∈ texts, IsClosed text := by
  match keywords with
  | [] =>
    cases h
    simp
  | keyword :: rest =>
    rw [keywordsSound, Bool.and_eq_true] at hsound
    rw [printKeywords] at h
    obtain ⟨first, hfirst, h⟩ := bind_eq_ok_iff.1 h
    obtain ⟨others, hothers, h⟩ := bind_eq_ok_iff.1 h
    cases h
    exact forall_mem_cons (closed_printKeyword keyword first hsound.1 hfirst)
      (closed_printKeywords rest others hsound.2 hothers)

theorem closed_printItem (item : DictItem) (text : String) (hsound : item.isSound = true)
    (h : item.print false = .ok text) : IsClosed text := by
  match item with
  | .pair key value =>
    rw [DictItem.isSound, Bool.and_eq_true] at hsound
    rw [DictItem.print] at h
    obtain ⟨left, hleft, h⟩ := bind_eq_ok_iff.1 h
    obtain ⟨right, hright, h⟩ := bind_eq_ok_iff.1 h
    cases h
    exact (closed_print _ key left hsound.1 hleft).join (by decide) (by decide)
      (closed_print _ value right hsound.2 hright)
  | .unpack value =>
    rw [DictItem.print] at h
    obtain ⟨written, hwritten, h⟩ := bind_eq_ok_iff.1 h
    cases h
    exact .lead (by decide) (closed_print _ value written hsound hwritten)

theorem closed_printItems (items : List DictItem) (texts : List String)
    (hsound : itemsSound items = true) (h : printItems false items = .ok texts) :
    ∀ text ∈ texts, IsClosed text := by
  match items with
  | [] =>
    cases h
    simp
  | item :: rest =>
    rw [itemsSound, Bool.and_eq_true] at hsound
    rw [printItems] at h
    obtain ⟨first, hfirst, h⟩ := bind_eq_ok_iff.1 h
    obtain ⟨others, hothers, h⟩ := bind_eq_ok_iff.1 h
    cases h
    exact forall_mem_cons (closed_printItem item first hsound.1 hfirst)
      (closed_printItems rest others hsound.2 hothers)

/-- A clause of a comprehension can follow any closed text. -/
theorem closed_append_printClause (clause : Comprehension) (text : String)
    (hsound : clause.isSound = true) (h : clause.print false = .ok text) {base : String}
    (hbase : IsClosed base) : IsClosed (base ++ text) := by
  match clause with
  | .mk isAsync target iterable conditions =>
    simp only [Comprehension.isSound, Bool.and_eq_true] at hsound
    rw [Comprehension.print] at h
    obtain ⟨first, hfirst, h⟩ := bind_eq_ok_iff.1 h
    obtain ⟨second, hsecond, h⟩ := bind_eq_ok_iff.1 h
    obtain ⟨tests, htests, h⟩ := bind_eq_ok_iff.1 h
    cases h
    have hlead : ∃ lead, (if isAsync then " async for " else " for ") = lead ∧
        isPlainText lead = true ∧ lead ≠ "" := by
      cases isAsync
      · exact ⟨_, rfl, by decide, by decide⟩
      · exact ⟨_, rfl, by decide, by decide⟩
    obtain ⟨lead, heq, hplain, hne⟩ := hlead
    have htarget := hbase.join hplain hne (closed_print _ target first hsound.1.1 hfirst)
    have hin : isPlainText " in " = true := by decide
    have hiterable := htarget.join hin (by decide)
      (closed_print _ iterable second hsound.1.2 hsecond)
    have hclosed := closed_append_conditions hiterable
      (closed_printAll _ conditions tests hsound.2 htests)
    simpa only [heq, String.append_assoc] using hclosed

theorem closed_printClauses (clauses : List Comprehension) (text : String)
    (hsound : clausesSound clauses = true) (h : printClauses false clauses = .ok text)
    {base : String} (hbase : IsClosed base) : IsClosed (base ++ text) := by
  match clauses with
  | [] =>
    cases h
    rwa [String.append_empty]
  | clause :: rest =>
    rw [clausesSound, Bool.and_eq_true] at hsound
    rw [printClauses] at h
    obtain ⟨first, hfirst, h⟩ := bind_eq_ok_iff.1 h
    obtain ⟨others, hothers, h⟩ := bind_eq_ok_iff.1 h
    cases h
    rw [← String.append_assoc]
    exact closed_printClauses rest others hsound.2 hothers
      (closed_append_printClause clause first hsound.1 hfirst hbase)

theorem closed_append_printStep (step : CompareStep) (text : String) (hsound : step.isSound = true)
    (h : step.print false = .ok text) {base : String} (hbase : IsClosed base) :
    IsClosed (base ++ text) := by
  match step with
  | .mk op operand =>
    rw [CompareStep.print] at h
    obtain ⟨written, hwritten, h⟩ := bind_eq_ok_iff.1 h
    cases h
    have hgap : isPlainText (" " ++ op.text ++ " ") = true :=
      isPlainText_append (isPlainText_append (by decide) (isPlainText_compareOp op)) (by decide)
    rw [← String.append_assoc]
    exact hbase.join hgap (by simp [String.append_eq_empty_iff])
      (closed_print _ operand written hsound hwritten)

theorem closed_printSteps (steps : List CompareStep) (text : String)
    (hsound : stepsSound steps = true) (h : printSteps false steps = .ok text) {base : String}
    (hbase : IsClosed base) : IsClosed (base ++ text) := by
  match steps with
  | [] =>
    cases h
    rwa [String.append_empty]
  | step :: rest =>
    rw [stepsSound, Bool.and_eq_true] at hsound
    rw [printSteps] at h
    obtain ⟨first, hfirst, h⟩ := bind_eq_ok_iff.1 h
    obtain ⟨others, hothers, h⟩ := bind_eq_ok_iff.1 h
    cases h
    rw [← String.append_assoc]
    exact closed_printSteps rest others hsound.2 hothers
      (closed_append_printStep step first hsound.1 hfirst hbase)

theorem closed_printParameter (param : Parameter) (text : String) (hsound : param.isSound = true)
    (h : param.print false = .ok text) : IsClosed text := by
  match param with
  | .mk name hint default =>
    simp only [Parameter.isSound, Bool.and_eq_true] at hsound
    rw [Parameter.print] at h
    obtain ⟨first, hfirst, h⟩ := bind_eq_ok_iff.1 h
    obtain ⟨second, hsecond, h⟩ := bind_eq_ok_iff.1 h
    cases h
    exact closed_append_printOption _ default second (by decide) (by decide) hsound.2 hsecond
      (closed_append_printOption _ hint first (by decide) (by decide) hsound.1.2 hfirst
        (.plain (isPlainText_of_isWord hsound.1.1)))

theorem closed_printParameters (params : List Parameter) (texts : List String)
    (hsound : paramsSound params = true) (h : printParameters false params = .ok texts) :
    ∀ text ∈ texts, IsClosed text := by
  match params with
  | [] =>
    cases h
    simp
  | param :: rest =>
    rw [paramsSound, Bool.and_eq_true] at hsound
    rw [printParameters] at h
    obtain ⟨first, hfirst, h⟩ := bind_eq_ok_iff.1 h
    obtain ⟨others, hothers, h⟩ := bind_eq_ok_iff.1 h
    cases h
    exact forall_mem_cons (closed_printParameter param first hsound.1 hfirst)
      (closed_printParameters rest others hsound.2 hothers)

theorem closed_printParameter? (param : Option Parameter) (text : Option String)
    (hsound : paramSound param = true) (h : printParameter? false param = .ok text) :
    ∀ written ∈ text, IsClosed written := by
  match param with
  | none =>
    cases h
    simp
  | some param =>
    rw [printParameter?] at h
    obtain ⟨written, hwritten, h⟩ := bind_eq_ok_iff.1 h
    cases h
    intro text htext
    obtain rfl := Option.some.inj htext
    exact closed_printParameter param _ hsound hwritten

theorem closed_printParams (params : Parameters) (text : String) (hsound : params.isSound = true)
    (h : params.print false = .ok text) : IsClosed text := by
  match params with
  | .mk positionalOnly regular variadic keywordOnly keywords =>
    simp only [Parameters.isSound, Bool.and_eq_true] at hsound
    obtain ⟨⟨⟨⟨hpositional, hregular⟩, hvariadic⟩, hkeywordOnly⟩, hkeywords⟩ := hsound
    rw [Parameters.print] at h
    obtain ⟨first, hfirst, h⟩ := bind_eq_ok_iff.1 h
    obtain ⟨second, hsecond, h⟩ := bind_eq_ok_iff.1 h
    obtain ⟨third, hthird, h⟩ := bind_eq_ok_iff.1 h
    obtain ⟨fourth, hfourth, h⟩ := bind_eq_ok_iff.1 h
    obtain ⟨fifth, hfifth, h⟩ := bind_eq_ok_iff.1 h
    cases h
    exact closed_joinParameters (closed_printParameters positionalOnly first hpositional hfirst)
      (closed_printParameters regular second hregular hsecond)
      (closed_printParameter? variadic third hvariadic hthird)
      (closed_printParameters keywordOnly fourth hkeywordOnly hfourth)
      (closed_printParameter? keywords fifth hkeywords hfifth)

end

end PropertyWrapper.Source
