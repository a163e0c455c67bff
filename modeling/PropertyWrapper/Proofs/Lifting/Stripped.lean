import PropertyWrapper.Expansion.Property
import PropertyWrapper.Proofs.Result

/-!
# Annotations without one metadata entry

The type of a wrapped property is the annotation without the metadata entry that names the wrapper. Its text
is put together from the texts of the parts that are left, and it is the text of the annotation that is left.

* `Source.withMetadata`, `Source.withoutEntry` : an annotation with metadata, and what is left of it;
* `print_of_dottedName` : a dotted name has the same text in every context;
* `textWithout_eq` : the text that is put together is the text of what is left;
* `liftTarget_stripped` : the target that an annotated assignment is for one of its entries.
-/

namespace PropertyWrapper

open Source

/-! ## Annotations -/

/-- An annotation with metadata: a type and the metadata entries behind it, in the brackets of a head. -/
def Source.withMetadata (pos inner : Position) (head base : Expr) (entries : List Expr) : Expr :=
  .subscript pos head (.tuple inner (base :: entries))

/-- What is left of an annotation without one of its metadata entries: the type alone if there is no other
entry. -/
def Source.withoutEntry (pos inner : Position) (head base : Expr) (entries : List Expr)
    (index : Nat) : Expr :=
  if entries.length = 1 then base else withMetadata pos inner head base (entries.eraseIdx index)

/-- The parts of an annotation with metadata. -/
theorem annotated?_withMetadata {pos inner : Position} {head base : Expr} {entries : List Expr}
    (hhead : refersTo (dottedName head) ["Annotated"] = true) (hentries : entries ≠ []) :
    annotated? (withMetadata pos inner head base entries) = some ⟨head, base, entries⟩ := by
  cases entries with
  | nil => exact absurd rfl hentries
  | cons entry rest => rw [withMetadata, annotated?, if_pos hhead]

/-! ## Texts of the parts -/

/-- A dotted name is never put in parentheses: its text is the name. -/
theorem print_of_dottedName {e : Expr} {name : String} (h : dottedName e = some name) (inField : Bool)
    (context : Precedence) : e.print inField context = .ok name := by
  induction e using dottedName.induct generalizing name context with
  | case1 pos id =>
    cases h
    rfl
  | case2 pos value attr ih =>
    obtain ⟨base, hbase, rfl⟩ := Option.map_eq_some_iff.1 h
    have hconstant : ∀ place constant, value = .constant place constant → False := by
      rintro place constant rfl
      cases hbase
    rw [Expr.print, ih hbase]
    · change Except.ok (base ++ "" ++ "." ++ attr) = _
      rw [String.append_empty]
    · exact hconstant
  | case3 e hname hattribute =>
    rw [dottedName] at h
    · cases h
    · exact hname
    · exact hattribute

/-- The elements of a list are printed as each of them is on its own. -/
theorem printAll_eq_mapM (es : List Expr) : printAll false .test es = es.mapM Expr.text := by
  induction es with
  | nil => rfl
  | cons e rest ih =>
    rw [printAll, List.mapM_cons, ih]
    rfl

/-- The text of an annotation with metadata. -/
theorem text_withMetadata {pos inner : Position} {head base entry : Expr} {entries : List Expr}
    {name : String} (hname : dottedName head = some name) :
    (withMetadata pos inner head base (entry :: entries)).text = do
      let texts ← (base :: entry :: entries).mapM Expr.text
      return name ++ "[" ++ commaSeparated texts ++ "]" := by
  rw [Expr.text, withMetadata, Expr.print, print_of_dottedName hname, ← printAll_eq_mapM]
  simp only [printAll, bind_assoc, pure_bind]
  rfl

/-- The text of an annotation without an entry is the text of what is left of it. -/
theorem textWithout_eq {head base : Expr} {entries : List Expr} {index : Nat} (pos inner : Position)
    (hhead : refersTo (dottedName head) ["Annotated"] = true) (hindex : index < entries.length) :
    (Annotated.mk head base entries).textWithout (some index)
      = (withoutEntry pos inner head base entries index).text := by
  obtain ⟨name, hname, -⟩ := (Option.any_eq_true _ _).1 hhead
  have hlength : (entries.eraseIdx index).length = entries.length - 1 := by
    rw [List.length_eraseIdx, if_pos hindex]
  rw [withoutEntry]
  by_cases hone : entries.length = 1
  · have hremaining : entries.eraseIdx index = [] := List.eq_nil_of_length_eq_zero (by omega)
    rw [if_pos hone]
    exact if_pos (List.isEmpty_iff.2 hremaining)
  · have hsome : entries.eraseIdx index ≠ [] := List.ne_nil_of_length_pos (by omega)
    have htext : head.text = .ok name := print_of_dottedName hname false .test
    obtain ⟨entry, others, hremaining⟩ := List.exists_cons_of_ne_nil hsome
    rw [if_neg hone, hremaining, text_withMetadata hname]
    simp only [Annotated.textWithout, Option.elim_some, hremaining, htext]
    rfl

/-- If an annotation has a text, so has what is left of it. -/
theorem exists_text_withoutEntry {pos inner : Position} {head base : Expr} {entries : List Expr}
    {whole : String} (index : Nat) (hhead : refersTo (dottedName head) ["Annotated"] = true)
    (hentries : entries ≠ []) (h : (withMetadata pos inner head base entries).text = .ok whole) :
    ∃ type, (withoutEntry pos inner head base entries index).text = .ok type := by
  obtain ⟨name, hname, -⟩ := (Option.any_eq_true _ _).1 hhead
  have hparts : ∀ e ∈ base :: entries, ∃ text, e.text = .ok text := by
    obtain ⟨entry, rest, rfl⟩ := List.exists_cons_of_ne_nil hentries
    rw [text_withMetadata hname] at h
    obtain ⟨texts, htexts, -⟩ := bind_eq_ok_iff.1 h
    exact exists_of_mapM_eq_ok htexts
  rw [withoutEntry]
  split
  case isTrue => exact hparts base List.mem_cons_self
  case isFalse hlength =>
    cases hremaining : entries.eraseIdx index with
    | nil =>
      have hpos : 0 < entries.length := List.length_pos_of_ne_nil hentries
      have hnone := congrArg List.length hremaining
      rw [List.length_eraseIdx, List.length_nil] at hnone
      split at hnone <;> omega
    | cons entry others =>
      have hleft : ∀ e ∈ base :: entry :: others, ∃ text, e.text = .ok text := by
        intro e he
        refine hparts e ?_
        rcases List.mem_cons.1 he with rfl | he
        · exact List.mem_cons_self
        · exact List.mem_cons_of_mem _ (List.mem_of_mem_eraseIdx (hremaining ▸ he))
      obtain ⟨texts, htexts⟩ := mapM_eq_ok_of_forall hleft
      rw [text_withMetadata hname, htexts]
      exact ⟨_, rfl⟩

/-- Among the attributes of an annotated assignment stand the metadata entries, and each attachment is the
entry at its index. -/
theorem entry_of_mem_attachments {registry : Registry} {stmt : Stmt} {attachment : Attachment}
    (h : attachment ∈ attachments registry stmt) :
    (attributeExprs stmt)[attachment.index]? = some attachment.entry := by
  obtain ⟨⟨entry, index⟩, hentry, hresolved⟩ := List.mem_filterMap.1 h
  obtain ⟨config, -, rfl⟩ := Option.map_eq_some_iff.1 hresolved
  exact List.mem_zipIdx_iff_getElem?.1 hentry

/-- Stripping an attribute removes the metadata entry that it is and nothing else. The metadata of the
annotation are the attributes of the statement; a wrapper that is attached is the entry at its index, also
where other entries are equal to it. The target for an entry states the text of the annotation without that
entry, and there is such a text whenever the annotation has one. -/
theorem liftTarget_stripped {head : Expr} {entries : List Expr} {index : Nat}
    (hhead : refersTo (dottedName head) ["Annotated"] = true) (hindex : index < entries.length)
    (line : Nat) (place base : Expr) (pos inner : Position) (value : Option Expr) (bare : Bool) :
    let hint := withMetadata pos inner head base entries
    let stripped := withoutEntry pos inner head base entries index
    let stmt := Stmt.annAssign line place hint value bare
    attributeExprs stmt = entries ∧
      (∀ registry, ∀ attachment ∈ attachments registry stmt,
        entries[attachment.index]? = some attachment.entry) ∧
      (∀ whole, hint.text = .ok whole → ∃ type, stripped.text = .ok type) ∧
      liftTarget stmt (some index) = do
        let _ ← hint.text
        let type ← stripped.text
        return .member {
          patterns := [← liftPattern place]
          type := some type
          initializer := ← value.mapM Expr.text
          line } := by
  intro hint stripped stmt
  have hentries : entries ≠ [] := List.ne_nil_of_length_pos (Nat.zero_lt_of_lt hindex)
  have hparts : annotated? hint = some ⟨head, base, entries⟩ := annotated?_withMetadata hhead hentries
  have hattributes : attributeExprs stmt = entries := by rw [attributeExprs, hparts]; rfl
  refine ⟨hattributes, ?_, ?_, ?_⟩
  · intro registry attachment hattachment
    rw [← hattributes]
    exact entry_of_mem_attachments hattachment
  · intro whole hwhole
    exact exists_text_withoutEntry index hhead hentries hwhole
  · rw [liftTarget, statedType, hparts]
    dsimp only
    rw [textWithout_eq pos inner hhead hindex, bind_assoc]

/-- The second of two equal entries is stripped: `x: t.Annotated[(a := b), E, E]` loses one of them. -/
theorem liftTarget_second_entry :
    let name (id : String) : Expr := .name ⟨1, 0⟩ id
    let head : Expr := .attribute ⟨1, 0⟩ (name "t") "Annotated"
    let base : Expr := .assigned ⟨1, 0⟩ (name "a") (name "b")
    let hint := withMetadata ⟨1, 0⟩ ⟨1, 0⟩ head base [name "E", name "E"]
    refersTo (dottedName head) ["Annotated"] = true ∧
      liftTarget (.annAssign 1 (name "x") hint none true) (some 1) = .ok (.member {
        patterns := [.identifier "x"]
        type := some "t.Annotated[(a := b), E]"
        line := 1 }) := by
  intro name head base hint
  have hhead : refersTo (dottedName head) ["Annotated"] = true := by decide
  obtain ⟨-, -, -, htarget⟩ :=
    liftTarget_stripped hhead (show 1 < [name "E", name "E"].length by decide) 1 (name "x") base ⟨1, 0⟩
      ⟨1, 0⟩ none true
  exact ⟨hhead, htarget.trans rfl⟩

end PropertyWrapper
