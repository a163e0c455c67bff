/-!
# Line ends

A carriage return, a line feed and the pair of both each end a line; reading turns all three into a
line feed.
-/

namespace PropertyWrapper.Text

/-- Every line end as a single line feed. -/
def unifyNewlines : List Char → List Char
  | '\r' :: '\n' :: rest => '\n' :: unifyNewlines rest
  | '\r' :: rest => '\n' :: unifyNewlines rest
  | c :: rest => c :: unifyNewlines rest
  | [] => []

/-- A unified text holds no carriage return. -/
theorem cr_not_mem_unifyNewlines (text : List Char) : '\r' ∉ unifyNewlines text := by
  fun_induction unifyNewlines text with
  | case1 rest ih => simp [ih]
  | case2 rest _ ih => simp [ih]
  | case3 c rest _ hc ih => simp [ih]; exact fun h => hc h.symm
  | case4 => simp

theorem unifyNewlines_of_not_mem {text : List Char} (h : '\r' ∉ text) : unifyNewlines text = text := by
  fun_induction unifyNewlines text with
  | case1 rest ih => simp at h
  | case2 rest _ ih => simp at h
  | case3 c rest _ hc ih => rw [ih (by simp_all)]
  | case4 => rfl

/-- The line ends of two texts are unified one after the other, unless one of them lies across both. -/
theorem unifyNewlines_append {text more : List Char}
    (h : text.getLast? = some '\r' → more.head? ≠ some '\n') :
    unifyNewlines (text ++ more) = unifyNewlines text ++ unifyNewlines more := by
  have hrest : ∀ (c : Char) (rest : List Char), ((c :: rest).getLast? = some '\r' → more.head? ≠ some '\n') →
      rest.getLast? = some '\r' → more.head? ≠ some '\n' := by
    intro c rest h hlast
    cases rest with
    | nil => cases hlast
    | cons d rest => exact h (by rwa [List.getLast?_cons_cons])
  fun_induction unifyNewlines text with
  | case1 rest ih =>
    rw [List.cons_append, List.cons_append, unifyNewlines, ih (hrest _ _ (hrest _ _ h)), List.cons_append]
  | case2 rest hpair ih =>
    rw [List.cons_append, unifyNewlines, ih (hrest _ _ h), List.cons_append]
    intro rest' heq
    cases rest with
    | nil => exact h rfl (by rw [← List.nil_append more, heq]; rfl)
    | cons c rest =>
      obtain ⟨rfl, -⟩ := List.cons.inj heq
      exact hpair rest rfl
  | case3 c rest hpair hreturn ih =>
    rw [List.cons_append, unifyNewlines, ih (hrest _ _ h), List.cons_append]
    · exact fun _ heq _ => hreturn heq
    · exact hreturn
  | case4 => rfl

/-- The lines of a text, each closed by a line feed. A last line without one is closed, and the pair
of carriage return and line feed at the very end is followed by an empty line. -/
def closedLines (text : List Char) : List Char :=
  match text.reverse with
  | [] => []
  | '\n' :: '\r' :: _ => unifyNewlines text ++ ['\n']
  | '\n' :: _ | '\r' :: _ => unifyNewlines text
  | _ => unifyNewlines text ++ ['\n']

end PropertyWrapper.Text
