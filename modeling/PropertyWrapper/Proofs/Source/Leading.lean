import PropertyWrapper.Proofs.Source.Heads
import PropertyWrapper.Proofs.Source.Printed

/-!
# Texts without a star in front

The text of an expression starts as its leftmost operand does, or with a bracket. So an expression whose
leftmost operand is not unpacked has a text that does not start with a star.

* `Unstarred` : a text that starts with some other character than a star;
* `unstarred_print` : the texts of expressions that start without a star.
-/

namespace PropertyWrapper.Source

/-- A text that starts with some character other than a star. -/
def Unstarred (text : String) : Prop := ∃ c rest, text.toList = c :: rest ∧ c ≠ '*'

namespace Unstarred

variable {text : String}

theorem append {a : String} (h : Unstarred a) (b : String) : Unstarred (a ++ b) := by
  obtain ⟨c, rest, heq, hc⟩ := h
  exact ⟨c, rest ++ b.toList, by rw [String.toList_append, heq]; rfl, hc⟩

theorem of_head (h : text.toList.head?.any (· ≠ '*') = true) : Unstarred text := by
  cases heq : text.toList with
  | nil =>
    rw [heq] at h
    cases h
  | cons c rest =>
    rw [heq] at h
    exact ⟨c, rest, heq, by simpa using h⟩

theorem of_cons {c : Char} {rest : List Char} (hc : c ≠ '*') : Unstarred (String.ofList (c :: rest)) :=
  ⟨c, rest, String.toList_ofList, hc⟩

theorem enclose (h : Unstarred text) (context own : Precedence) :
    Unstarred (enclose context own text) := by
  unfold Source.enclose
  split
  · exact ((of_head (by decide)).append _).append _
  · exact h

/-- Texts with a separator start as the first of them. -/
theorem intercalate (h : Unstarred text) (separator : String) (others : List String) :
    Unstarred (String.intercalate separator (text :: others)) := by
  cases others with
  | nil => simpa using h
  | cons other others =>
    rw [String.intercalate_cons_cons]
    exact (h.append _).append _

end Unstarred

/-! ## Constants -/

/-- Numbers start with a digit. -/
theorem exists_digits (n : Nat) : ∃ c rest, Nat.toDigits 10 n = c :: rest ∧ c ≠ '*' := by
  obtain ⟨c, rest, heq⟩ := List.exists_cons_of_ne_nil (Nat.toDigits_ne_nil (n := n) (b := 10))
  refine ⟨c, rest, heq, ?_⟩
  rintro rfl
  have hdigit : '*'.isDigit = true :=
    Nat.isDigit_of_mem_toDigits (by decide) (by decide) (heq ▸ List.mem_cons_self)
  exact absurd hdigit (by decide)

theorem unstarred_toString (n : Nat) : Unstarred (toString n) := by
  obtain ⟨c, rest, heq, hc⟩ := exists_digits n
  rw [Nat.toString_eq_ofList_toDigits, heq]
  exact .of_cons hc

theorem unstarred_scientific {c : Char} {rest : List Char} (hc : c ≠ '*') (exponent : Int) :
    Unstarred (Number.scientific (c :: rest) exponent) := by
  unfold Number.scientific
  cases rest with
  | nil => exact (Unstarred.of_cons hc).append _
  | cons second rest => exact (Unstarred.of_cons hc).append _

theorem unstarred_positional {c : Char} {rest : List Char} (hc : c ≠ '*') (format : Number.FloatFormat)
    (places : Int) : Unstarred (Number.positional format (c :: rest) places) := by
  unfold Number.positional
  split
  · exact ⟨'0', _, by simp; rfl, by decide⟩
  · rename_i hplaces
    obtain ⟨count, hcount⟩ : ∃ count, places.natAbs = count + 1 := ⟨places.natAbs - 1, by omega⟩
    simp only [hcount, List.take_succ_cons, List.cons_append]
    split
    · exact (Unstarred.of_cons hc).append _
    · exact ((Unstarred.of_cons hc).append _).append _

theorem unstarred_binary64 {format : Number.FloatFormat} (hinfinity : Unstarred format.infinity)
    (value : Number.Binary64) : Unstarred (value.text format) := by
  unfold Number.Binary64.text
  split
  · exact hinfinity
  · split
    · exact ⟨'0', _, rfl, by decide⟩
    · exact ⟨'0', _, rfl, by decide⟩
  · rename_i significand exponent
    dsimp only
    obtain ⟨c, rest, heq, hc⟩ := exists_digits (Number.shortestDigits (significand + 1) exponent).1
    rw [heq]
    split
    · exact unstarred_scientific hc _
    · exact unstarred_positional hc _ _

theorem unstarred_of_isLiteral {mark : Char} {text : String} (hmark : isQuote mark = true)
    (h : IsLiteral mark text.toList) : Unstarred text := by
  obtain ⟨tail, htail⟩ := h.exists_tail
  refine ⟨mark, tail, htail, ?_⟩
  rintro rfl
  exact absurd hmark (by decide)

theorem unstarred_constant (value : Constant) : Unstarred (value.text false) := by
  cases value with
  | none => exact .of_head (by decide)
  | bool value => cases value <;> exact .of_head (by decide)
  | ellipsis => exact .of_head (by decide)
  | int value => exact unstarred_toString value
  | float value => exact unstarred_binary64 (.of_head (by decide)) value
  | imaginary value => exact (unstarred_binary64 (.of_head (by decide)) value).append _
  | str marked value =>
    obtain ⟨mark, hmark, hliteral⟩ := (written_quotedPoints value).exists_mark
    cases marked with
    | true => exact (Unstarred.of_head (by decide)).append _
    | false =>
      rw [Constant.text, textMark, if_neg (by simp), if_neg (by simp), String.empty_append]
      exact unstarred_of_isLiteral hmark hliteral
  | bytes value =>
    obtain ⟨literal, heq, -⟩ := quotedBytes_eq value
    exact ⟨'b', literal, heq, by decide⟩

/-! ## Expressions -/

/-- A word starts with one of its characters. -/
theorem unstarred_of_isWord {id : String} (h : isWord id = true) : Unstarred id := by
  obtain ⟨c, rest, heq, hc, -⟩ := isWord_iff.1 h
  refine ⟨c, rest, heq, ?_⟩
  rintro rfl
  exact absurd hc (by decide)

/-- The text of an expression that starts without a star does so too. -/
theorem unstarred_print (context : Precedence) (hcontext : Precedence.test.rank ≤ context.rank)
    (e : Expr) (text : String) (hleads : e.leads = true) (h : e.print false context = .ok text) :
    Unstarred text := by
  have hatom : Precedence.test.rank ≤ Precedence.atom.rank := by decide
  -- In a context as tight as an argument a tuple or an assignment stands in parentheses.
  have henclosed : ∀ {own : Precedence} {inner : String}, own.rank < Precedence.test.rank →
      Unstarred (enclose context own inner) := by
    intro own inner hown
    rw [enclose, if_pos (by omega)]
    exact ((Unstarred.of_head (by decide)).append _).append _
  match e with
  | .name _ id =>
    cases h
    exact unstarred_of_isWord hleads
  | .constant _ value =>
    rw [Expr.print] at h
    split at h
    · cases h
    · cases h
      exact unstarred_constant value
  | .formatted _ parts =>
    rw [Expr.print] at h
    obtain ⟨texts, htexts, h⟩ := bind_eq_ok_iff.1 h
    cases h
    exact (Unstarred.of_head (by decide)).append _
  | .attribute _ value attr =>
    rw [print_attribute] at h
    obtain ⟨base, hbase, h⟩ := bind_eq_ok_iff.1 h
    cases h
    exact (((unstarred_print _ hatom value base hleads hbase).append _).append _).append _
  | .subscript _ value index =>
    rcases print_subscript context ‹_› value index with ⟨elements, -, heq⟩ | heq
    · rw [heq] at h
      obtain ⟨base, hbase, h⟩ := bind_eq_ok_iff.1 h
      obtain ⟨texts, -, h⟩ := bind_eq_ok_iff.1 h
      cases h
      exact (((unstarred_print _ hatom value base hleads hbase).append _).append _).append _
    · rw [heq] at h
      obtain ⟨base, hbase, h⟩ := bind_eq_ok_iff.1 h
      obtain ⟨text, -, h⟩ := bind_eq_ok_iff.1 h
      cases h
      exact (((unstarred_print _ hatom value base hleads hbase).append _).append _).append _
  | .call _ func args keywords =>
    rw [Expr.print] at h
    obtain ⟨base, hbase, h⟩ := bind_eq_ok_iff.1 h
    obtain ⟨texts, -, h⟩ := bind_eq_ok_iff.1 h
    obtain ⟨others, -, h⟩ := bind_eq_ok_iff.1 h
    cases h
    exact (((unstarred_print _ hatom func base hleads hbase).append _).append _).append _
  | .starred .. => cases hleads
  | .slice .. => cases hleads
  | .tuple _ [] =>
    cases h
    exact .of_head (by decide)
  | .tuple _ (first :: rest) =>
    rw [Expr.print] at h
    obtain ⟨text, -, h⟩ := bind_eq_ok_iff.1 h
    obtain ⟨texts, -, h⟩ := bind_eq_ok_iff.1 h
    cases h
    exact henclosed (by decide)
  | .list _ elements =>
    rw [Expr.print] at h
    obtain ⟨texts, -, h⟩ := bind_eq_ok_iff.1 h
    cases h
    exact ((Unstarred.of_head (by decide)).append _).append _
  | .set _ elements =>
    rw [Expr.print] at h
    obtain ⟨texts, -, h⟩ := bind_eq_ok_iff.1 h
    cases h
    split
    · exact .of_head (by decide)
    · exact ((Unstarred.of_head (by decide)).append _).append _
  | .dict _ items =>
    rw [Expr.print] at h
    obtain ⟨texts, -, h⟩ := bind_eq_ok_iff.1 h
    cases h
    exact ((Unstarred.of_head (by decide)).append _).append _
  | .listComp _ element clauses =>
    rw [Expr.print] at h
    obtain ⟨text, -, h⟩ := bind_eq_ok_iff.1 h
    obtain ⟨texts, -, h⟩ := bind_eq_ok_iff.1 h
    cases h
    exact (((Unstarred.of_head (by decide)).append _).append _).append _
  | .setComp _ element clauses =>
    rw [Expr.print] at h
    obtain ⟨text, -, h⟩ := bind_eq_ok_iff.1 h
    obtain ⟨texts, -, h⟩ := bind_eq_ok_iff.1 h
    cases h
    exact (((Unstarred.of_head (by decide)).append _).append _).append _
  | .generator _ element clauses =>
    rw [Expr.print] at h
    obtain ⟨text, -, h⟩ := bind_eq_ok_iff.1 h
    obtain ⟨texts, -, h⟩ := bind_eq_ok_iff.1 h
    cases h
    exact (((Unstarred.of_head (by decide)).append _).append _).append _
  | .dictComp _ key value clauses =>
    rw [Expr.print] at h
    obtain ⟨key, -, h⟩ := bind_eq_ok_iff.1 h
    obtain ⟨value, -, h⟩ := bind_eq_ok_iff.1 h
    obtain ⟨texts, -, h⟩ := bind_eq_ok_iff.1 h
    cases h
    exact (((((Unstarred.of_head (by decide)).append _).append _).append _).append _).append _
  | .unary _ op operand =>
    rw [Expr.print] at h
    obtain ⟨text, -, h⟩ := bind_eq_ok_iff.1 h
    cases h
    refine Unstarred.enclose (.append ?_ _) _ _
    cases op <;> exact .of_head (by decide)
  | .binary _ op left right =>
    rw [Expr.print] at h
    obtain ⟨text, htext, h⟩ := bind_eq_ok_iff.1 h
    obtain ⟨other, -, h⟩ := bind_eq_ok_iff.1 h
    cases h
    have hop : Precedence.test.rank ≤ op.operandContexts.1.rank := by cases op <;> decide
    have hleft := unstarred_print _ hop left text hleads htext
    exact ((((hleft.append _).append _).append _).append _).enclose _ _
  | .boolean _ op [] => cases hleads
  | .boolean _ op (first :: rest) =>
    rw [Expr.print, printOperands] at h
    obtain ⟨texts, htexts, h⟩ := bind_eq_ok_iff.1 h
    obtain ⟨text, htext, htexts⟩ := bind_eq_ok_iff.1 htexts
    obtain ⟨others, -, htexts⟩ := bind_eq_ok_iff.1 htexts
    cases htexts
    cases h
    have hop : Precedence.test.rank ≤ op.precedence.next.rank := by cases op <;> decide
    exact ((unstarred_print _ hop first text hleads htext).intercalate _ others).enclose _ _
  | .compare _ left rest =>
    rw [Expr.print] at h
    obtain ⟨text, htext, h⟩ := bind_eq_ok_iff.1 h
    obtain ⟨other, -, h⟩ := bind_eq_ok_iff.1 h
    cases h
    exact ((unstarred_print _ (by decide) left text hleads htext).append _).enclose _ _
  | .conditional _ body test orelse =>
    rw [Expr.print] at h
    obtain ⟨text, htext, h⟩ := bind_eq_ok_iff.1 h
    obtain ⟨other, -, h⟩ := bind_eq_ok_iff.1 h
    obtain ⟨another, -, h⟩ := bind_eq_ok_iff.1 h
    cases h
    have hbody := unstarred_print _ (by decide) body text hleads htext
    exact ((((hbody.append _).append _).append _).append _).enclose _ _
  | .lambda _ params body =>
    rw [Expr.print] at h
    obtain ⟨params, -, h⟩ := bind_eq_ok_iff.1 h
    obtain ⟨body, -, h⟩ := bind_eq_ok_iff.1 h
    cases h
    have hlambda : Unstarred "lambda" := .of_head (by decide)
    exact ((((hlambda.append _).append _).append _).append _).enclose _ _
  | .assigned _ target value =>
    rw [Expr.print] at h
    obtain ⟨target, -, h⟩ := bind_eq_ok_iff.1 h
    obtain ⟨value, -, h⟩ := bind_eq_ok_iff.1 h
    cases h
    exact henclosed (by decide)
  | .await _ value =>
    rw [Expr.print] at h
    obtain ⟨value, -, h⟩ := bind_eq_ok_iff.1 h
    cases h
    exact ((Unstarred.of_head (by decide)).append _).enclose _ _
  | .yield _ none =>
    cases h
    exact henclosed (by decide)
  | .yield _ (some value) =>
    rw [Expr.print] at h
    obtain ⟨value, -, h⟩ := bind_eq_ok_iff.1 h
    cases h
    exact henclosed (by decide)
  | .yieldFrom _ value =>
    rw [Expr.print] at h
    obtain ⟨value, -, h⟩ := bind_eq_ok_iff.1 h
    cases h
    exact henclosed (by decide)

end PropertyWrapper.Source
