import PropertyWrapper.Proofs.Expansion.Declared
import PropertyWrapper.Proofs.Expansion.Sequence

/-!
# What replaces a statement

The second pass as a relation between a statement and the statements that take its place. The relation is
about the statement, the body that it stands in and the registry alone: it knows neither the other
statements of the body nor the file.

* `Replaces` : the statements of the declarations that replace a statement with a wrapper;
* `Rewrites` : what takes the place of a statement in the second pass;
* `result_expandBody_iff` : the second pass puts these statements one behind the other, and nothing else.
-/

namespace PropertyWrapper

open Source

/-! ## Replaced statements -/

/-- Some statements are those of the declarations that replace a statement with a wrapper. The texts of
further wrappers can be written for the warnings about them. -/
def Replaces (registry : Registry) (stmt : Stmt) (group : List Stmt) : Prop :=
  (∃ declarations, Declares registry stmt declarations ∧ declarations.statements = .ok group)
    ∧ ∀ extra ∈ (attachments registry stmt).tail, ∃ text, extra.entry.text = .ok text

theorem Replaces.attachments_ne_nil {registry : Registry} {stmt : Stmt} {group : List Stmt}
    (h : Replaces registry stmt group) : attachments registry stmt ≠ [] := by
  obtain ⟨⟨_, ⟨first, extras, _, _, hsome, -⟩, -⟩, -⟩ := h
  rw [hsome]
  exact List.cons_ne_nil _ _

theorem result_ignoreAttachments_iff {line : Nat} {extras : List Attachment} :
    (ignoreAttachments line extras).result = .ok ()
      ↔ ∀ extra ∈ extras, ∃ text, extra.entry.text = .ok text := by
  induction extras with
  | nil => simp [ignoreAttachments, pure]
  | cons extra extras ih =>
    rw [ignoreAttachments, List.forall_mem_cons, ← ih]
    simp only [Trace.result_bind_iff, Trace.result_printing]
    constructor
    · rintro ⟨text, htext, _, -, hextras⟩
      exact ⟨⟨text, htext⟩, hextras⟩
    · rintro ⟨⟨text, htext⟩, hextras⟩
      exact ⟨text, htext, (), rfl, hextras⟩

/-- A statement of a class body stays, or it is replaced. -/
theorem result_expandMember_iff {registry : Registry} {filename : String} {stmt : Stmt}
    {group : List Stmt} :
    (expandMember registry filename stmt).result = .ok group
      ↔ attachments registry stmt = [] ∧ group = [stmt] ∨ Replaces registry stmt group := by
  unfold expandMember Replaces Declares
  cases hcase : attachments registry stmt with
  | nil =>
    constructor
    · intro h
      cases h
      exact .inl ⟨rfl, rfl⟩
    · rintro (⟨-, rfl⟩ | ⟨⟨_, ⟨_, _, _, _, h, -⟩, -⟩, -⟩)
      · rfl
      · cases h
  | cons first extras =>
    simp only [expandAttached, Trace.result_bind_iff, Trace.result_printing, List.tail_cons]
    constructor
    · rintro ⟨_, hextras, attr, hattr, target, htarget, _, -, hgroup⟩
      exact .inr ⟨⟨_, ⟨first, extras, attr, target, rfl, hattr, htarget, rfl⟩, mapError_eq_ok_iff.1 hgroup⟩,
        result_ignoreAttachments_iff.1 hextras⟩
    · rintro (⟨h, -⟩ | ⟨⟨_, ⟨_, _, attr, target, h, hattr, htarget, rfl⟩, hgroup⟩, hextras⟩)
      · cases h
      · cases h
        exact ⟨(), result_ignoreAttachments_iff.2 hextras, attr, hattr, target, htarget, (), rfl,
          mapError_eq_ok_iff.2 hgroup⟩

/-! ## The second pass -/

/-- A statement with another class body, if it is a class. -/
def Source.Stmt.withClassBody : Stmt → List Stmt → Stmt
  | .classDef line name bases keywords _ decorators, body =>
    .classDef line name bases keywords body decorators
  | stmt, _ => stmt

theorem withClassBody_of_not_class {stmt : Stmt} (h : stmt.isClass = false) (body : List Stmt) :
    stmt.withClassBody body = stmt := by
  cases stmt with
  | classDef => cases h
  | _ => rfl

theorem classBody_of_not_class {stmt : Stmt} (h : stmt.isClass = false) : stmt.classBody = [] := by
  cases stmt with
  | classDef => cases h
  | _ => rfl

/-- What takes the place of a statement in the second pass; the flag tells whether it stands in a class
body. A class is treated after the statements of its own body. -/
inductive Rewrites (registry : Registry) : Bool → Stmt → List Stmt → Prop where
  /-- A statement at module level, or one without a wrapper, stays. -/
  | kept {inClass : Bool} {stmt : Stmt} {groups : List (List Stmt)}
      (hnone : inClass = true → attachments registry stmt = [])
      (hbody : List.Forall₂ (Rewrites registry true) stmt.classBody groups) :
      Rewrites registry inClass stmt [stmt.withClassBody groups.flatten]
  /-- A statement of a class body with a wrapper is replaced. -/
  | replaced {stmt : Stmt} {groups : List (List Stmt)} {group : List Stmt}
      (hbody : List.Forall₂ (Rewrites registry true) stmt.classBody groups)
      (hreplaces : Replaces registry (stmt.withClassBody groups.flatten) group) :
      Rewrites registry true stmt group

section Rewrites

variable {registry : Registry} {filename : String} {inClass : Bool} {stmt : Stmt} {group : List Stmt}

/-- A statement is rewritten when its own body is, and what is left then stays or is replaced. -/
theorem rewrites_iff :
    Rewrites registry inClass stmt group
      ↔ ∃ groups, List.Forall₂ (Rewrites registry true) stmt.classBody groups
        ∧ ((inClass = true → attachments registry stmt = []) ∧ group = [stmt.withClassBody groups.flatten]
          ∨ inClass = true ∧ Replaces registry (stmt.withClassBody groups.flatten) group) := by
  constructor
  · intro h
    cases h with
    | kept hnone hbody => exact ⟨_, hbody, .inl ⟨hnone, rfl⟩⟩
    | replaced hbody hreplaces => exact ⟨_, hbody, .inr ⟨rfl, hreplaces⟩⟩
  · rintro ⟨groups, hbody, ⟨hnone, rfl⟩ | ⟨rfl, hreplaces⟩⟩
    · exact .kept hnone hbody
    · exact .replaced hbody hreplaces

/-- What becomes of a statement whose own body is treated already. -/
theorem result_treated_iff {treated : Stmt} :
    (if inClass then expandMember registry filename treated else pure [treated] : Trace _).result
        = .ok group
      ↔ (inClass = true → attachments registry treated = []) ∧ group = [treated]
        ∨ inClass = true ∧ Replaces registry treated group := by
  cases inClass with
  | false =>
    constructor
    · intro h
      cases h
      exact .inl ⟨nofun, rfl⟩
    · rintro (⟨-, rfl⟩ | ⟨h, -⟩)
      · rfl
      · cases h
  | true =>
    rw [if_pos rfl, result_expandMember_iff]
    simp

theorem rewrites_of_not_class (hclass : stmt.isClass = false) :
    Rewrites registry inClass stmt group
      ↔ (inClass = true → attachments registry stmt = []) ∧ group = [stmt]
        ∨ inClass = true ∧ Replaces registry stmt group := by
  rw [rewrites_iff, classBody_of_not_class hclass]
  simp only [List.forall₂_nil_left_iff, exists_eq_left, withClassBody_of_not_class hclass]

/-- The second pass rewrites each statement of a body. -/
theorem forall₂_expandStmt_iff (registry : Registry) (filename : String) (inClass : Bool)
    (body : List Stmt) (groups : List (List Stmt)) :
    List.Forall₂ (fun stmt group => (expandStmt registry filename inClass stmt).result = .ok group) body
        groups
      ↔ List.Forall₂ (Rewrites registry inClass) body groups := by
  induction body using bodyInduction generalizing inClass groups with
  | nil => rw [List.forall₂_nil_left_iff, List.forall₂_nil_left_iff]
  | other stmt rest hclass ih =>
    rw [List.forall₂_cons_left_iff, List.forall₂_cons_left_iff]
    simp only [ih, rewrites_of_not_class hclass, expandStmt_of_not_class hclass, result_treated_iff]
  | classDef line name bases keywords inner decorators rest ihinner ihrest =>
    -- The body of the class is rewritten as a class body, at whatever level the class stands.
    have hclass : ∀ group, (expandStmt registry filename inClass
          (.classDef line name bases keywords inner decorators)).result = .ok group
        ↔ Rewrites registry inClass (.classDef line name bases keywords inner decorators) group := by
      intro group
      rw [expandStmt, Trace.result_bind_iff, rewrites_iff]
      simp only [expandBody_eq_concatMap, Trace.result_concatMap_iff, ihinner, result_treated_iff]
      constructor
      · rintro ⟨inner', ⟨groups, hgroups, rfl⟩, h⟩
        exact ⟨groups, hgroups, h⟩
      · rintro ⟨groups, hgroups, h⟩
        exact ⟨groups.flatten, ⟨groups, hgroups, rfl⟩, h⟩
    rw [List.forall₂_cons_left_iff, List.forall₂_cons_left_iff]
    simp only [ihrest, hclass]

/-- The second pass over a body puts what takes the place of its statements one behind the other. -/
theorem result_expandBody_iff {body body' : List Stmt} :
    (expandBody registry filename inClass body).result = .ok body'
      ↔ ∃ groups, List.Forall₂ (Rewrites registry inClass) body groups ∧ body' = groups.flatten := by
  rw [expandBody_eq_concatMap, Trace.result_concatMap_iff]
  simp only [forall₂_expandStmt_iff]

end Rewrites

end PropertyWrapper
