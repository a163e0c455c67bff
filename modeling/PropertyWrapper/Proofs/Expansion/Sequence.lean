import PropertyWrapper.Proofs.Expansion.Steps

/-!
# One statement after the other

Both passes treat the statements of a body one after the other and put what becomes of them one behind the
other. What becomes of a statement does not depend on the statements around it: the first pass keeps no
state, and the second one looks at nothing but what references resolve to in a registry that it does not
change.

* `Trace.concatMap` : a step for each item of a list;
* `introspectBody_eq_concatMap`, `expandBody_eq_concatMap` : both passes are of this form;
* `expandBody_congr` : registries in which the same references resolve alike give the same second pass;
* `bothPasses`, `expansionOf` : both passes over a body or a statement, with a given registry;
* `result_bothPasses_iff`, `events_bothPasses` : these treat the statements of a body one by one, too.
-/

namespace PropertyWrapper

open Source

/-! ## Steps for the items of a list -/

namespace Trace

variable {α β : Type} {step : α → Trace (List β)}

/-- What a step gives for the items of a list, one behind the other. -/
def concatMap (step : α → Trace (List β)) : List α → Trace (List β)
  | [] => pure []
  | item :: items => do
    let first ← step item
    let others ← concatMap step items
    return first ++ others

theorem result_concatMap_cons {item : α} {items : List α} {values : List β} :
    (concatMap step (item :: items)).result = .ok values
      ↔ ∃ first others, (step item).result = .ok first ∧ (concatMap step items).result = .ok others
        ∧ values = first ++ others := by
  simp only [concatMap, result_bind_iff]
  constructor
  · rintro ⟨first, hfirst, others, hothers, h⟩
    cases h
    exact ⟨first, others, hfirst, hothers, rfl⟩
  · rintro ⟨first, others, hfirst, hothers, rfl⟩
    exact ⟨first, hfirst, others, hothers, rfl⟩

/-- All items together give a value when each of them does. -/
theorem result_concatMap_iff {items : List α} {values : List β} :
    (concatMap step items).result = .ok values
      ↔ ∃ groups, List.Forall₂ (fun item group => (step item).result = .ok group) items groups
        ∧ values = groups.flatten := by
  induction items generalizing values with
  | nil =>
    constructor
    · intro h
      cases h
      exact ⟨[], .nil, rfl⟩
    · rintro ⟨groups, hgroups, rfl⟩
      cases hgroups
      rfl
  | cons item items ih =>
    rw [result_concatMap_cons]
    constructor
    · rintro ⟨first, others, hfirst, hothers, rfl⟩
      obtain ⟨groups, hgroups, rfl⟩ := ih.1 hothers
      exact ⟨first :: groups, .cons hfirst hgroups, rfl⟩
    · rintro ⟨groups, hgroups, rfl⟩
      obtain ⟨first, groups, hfirst, hrest, rfl⟩ := List.forall₂_cons_left_iff.1 hgroups
      exact ⟨first, groups.flatten, hfirst, ih.2 ⟨groups, hrest, rfl⟩, rfl⟩

/-- Whether all items together give a value depends on each of them, and not on their order. -/
theorem exists_result_concatMap_iff {items : List α} :
    (∃ values, (concatMap step items).result = .ok values)
      ↔ ∀ item ∈ items, ∃ group, (step item).result = .ok group := by
  induction items with
  | nil =>
    constructor
    · intro _ item hitem
      cases hitem
    · intro _
      exact ⟨[], rfl⟩
  | cons item items ih =>
    rw [List.forall_mem_cons, ← ih]
    constructor
    · rintro ⟨values, h⟩
      obtain ⟨first, others, hfirst, hothers, -⟩ := result_concatMap_cons.1 h
      exact ⟨⟨first, hfirst⟩, others, hothers⟩
    · rintro ⟨⟨first, hfirst⟩, others, hothers⟩
      exact ⟨first ++ others, result_concatMap_cons.2 ⟨first, others, hfirst, hothers, rfl⟩⟩

theorem result_concatMap_append {items items' : List α} {values : List β} :
    (concatMap step (items ++ items')).result = .ok values
      ↔ ∃ front back, (concatMap step items).result = .ok front
        ∧ (concatMap step items').result = .ok back ∧ values = front ++ back := by
  induction items generalizing values with
  | nil => simp [concatMap, pure]
  | cons item items ih =>
    rw [List.cons_append, result_concatMap_cons]
    constructor
    · rintro ⟨first, others, hfirst, hothers, rfl⟩
      obtain ⟨front, back, hfront, hback, rfl⟩ := ih.1 hothers
      have hitems := result_concatMap_cons.2 ⟨first, front, hfirst, hfront, rfl⟩
      exact ⟨first ++ front, back, hitems, hback, (List.append_assoc _ _ _).symm⟩
    · rintro ⟨front, back, hfront, hback, rfl⟩
      obtain ⟨first, others, hfirst, hothers, rfl⟩ := result_concatMap_cons.1 hfront
      exact ⟨first, others ++ back, hfirst, ih.2 ⟨others, back, hothers, hback, rfl⟩,
        List.append_assoc _ _ _⟩

/-- The events of all items are those of each of them in order. -/
theorem events_concatMap {items : List α} {values : List β}
    (h : (concatMap step items).result = .ok values) :
    (concatMap step items).events = items.flatMap fun item => (step item).events := by
  induction items generalizing values with
  | nil => rfl
  | cons item items ih =>
    rw [concatMap] at h ⊢
    obtain ⟨first, -, h, hevents⟩ := result_bind h
    obtain ⟨others, hothers, -, hevents'⟩ := result_bind h
    rw [hevents, hevents', events_pure, List.append_nil, ih hothers, List.flatMap_cons]

end Trace

/-! ## The passes as such steps -/

/-- The first pass takes one step for each statement of a body. -/
theorem introspectBody_eq_concatMap (filename : String) (body : List Stmt) :
    introspectBody filename body = Trace.concatMap (introspectStmt filename) body := by
  induction body with
  | nil => rfl
  | cons stmt rest ih => rw [introspectBody, Trace.concatMap, ih]

/-- The second pass takes one step for each statement of a body. -/
theorem expandBody_eq_concatMap (registry : Registry) (filename : String) (inClass : Bool)
    (body : List Stmt) :
    expandBody registry filename inClass body
      = Trace.concatMap (expandStmt registry filename inClass) body := by
  induction body with
  | nil => rfl
  | cons stmt rest ih => rw [expandBody, Trace.concatMap, ih]

section Congr

variable {registry registry' : Registry}

theorem attachments_congr (h : registry.resolve = registry'.resolve) (stmt : Stmt) :
    attachments registry stmt = attachments registry' stmt := by
  rw [attachments, attachments, h]

theorem expandMember_congr (h : registry.resolve = registry'.resolve) (filename : String)
    (stmt : Stmt) : expandMember registry filename stmt = expandMember registry' filename stmt := by
  rw [expandMember, expandMember, attachments_congr h]

/-- The second pass looks at nothing but what references resolve to. -/
theorem expandBody_congr (h : registry.resolve = registry'.resolve) (filename : String)
    (inClass : Bool) (body : List Stmt) :
    expandBody registry filename inClass body = expandBody registry' filename inClass body := by
  induction body using bodyInduction generalizing inClass with
  | nil => rfl
  | other stmt rest hclass ih =>
    rw [expandBody, expandBody, expandStmt_of_not_class hclass, expandStmt_of_not_class hclass,
      expandMember_congr h, ih]
  | classDef line name bases keywords inner decorators rest ihinner ihrest =>
    rw [expandBody, expandBody, expandStmt, expandStmt, ihinner, ihrest]
    simp only [expandMember_congr h]

end Congr

/-! ## Both passes -/

/-- Both passes over a module or class body, the second one with a given registry. -/
def bothPasses (registry : Registry) (filename : String) (inClass : Bool) (body : List Stmt) :
    Trace (List Stmt) :=
  introspectBody filename body >>= expandBody registry filename inClass

/-- The registry after the first pass over a module. -/
def Registry.afterFirst (registry : Registry) (filename : String) (body : List Stmt) : Registry :=
  registry.overlay (configEntries (introspectBody filename body).events)

/-- The passes over a module are both passes with the registry after the first one. -/
theorem expandTree_eq_bothPasses (registry : Registry) (filename : String) (body : List Stmt) :
    expandTree registry filename body
      = bothPasses (registry.afterFirst filename body) filename false body := rfl

section BothPasses

variable {registry : Registry} {filename : String} {inClass : Bool}

theorem bothPasses_congr {registry' : Registry} (h : registry.resolve = registry'.resolve)
    (filename : String) (inClass : Bool) (body : List Stmt) :
    bothPasses registry filename inClass body = bothPasses registry' filename inClass body := by
  rw [bothPasses, bothPasses]
  congr 1
  funext marked
  exact expandBody_congr h filename inClass marked

theorem result_bothPasses {body tree : List Stmt} :
    (bothPasses registry filename inClass body).result = .ok tree
      ↔ ∃ marked, (introspectBody filename body).result = .ok marked
        ∧ (expandBody registry filename inClass marked).result = .ok tree :=
  Trace.result_bind_iff

/-- Both passes treat the two parts of a body apart from each other. -/
theorem result_bothPasses_append {body body' tree : List Stmt} :
    (bothPasses registry filename inClass (body ++ body')).result = .ok tree
      ↔ ∃ front back, (bothPasses registry filename inClass body).result = .ok front
        ∧ (bothPasses registry filename inClass body').result = .ok back ∧ tree = front ++ back := by
  simp only [result_bothPasses, introspectBody_eq_concatMap, expandBody_eq_concatMap,
    Trace.result_concatMap_append]
  constructor
  · rintro ⟨marked, ⟨marked₁, marked₂, hmarked₁, hmarked₂, rfl⟩, htree⟩
    obtain ⟨front, back, hfront, hback, rfl⟩ := Trace.result_concatMap_append.1 htree
    exact ⟨front, back, ⟨marked₁, hmarked₁, hfront⟩, ⟨marked₂, hmarked₂, hback⟩, rfl⟩
  · rintro ⟨front, back, ⟨marked₁, hmarked₁, hfront⟩, ⟨marked₂, hmarked₂, hback⟩, rfl⟩
    exact ⟨marked₁ ++ marked₂, ⟨marked₁, marked₂, hmarked₁, hmarked₂, rfl⟩,
      Trace.result_concatMap_append.2 ⟨front, back, hfront, hback, rfl⟩⟩

/-- What both passes make of a statement on its own. -/
def expansionOf (registry : Registry) (filename : String) (inClass : Bool) (stmt : Stmt) : List Stmt :=
  match (bothPasses registry filename inClass [stmt]).result with
  | .ok group => group
  | .error _ => []

theorem expansionOf_of_result {stmt : Stmt} {group : List Stmt}
    (h : (bothPasses registry filename inClass [stmt]).result = .ok group) :
    expansionOf registry filename inClass stmt = group := by
  rw [expansionOf, h]

/-- Both passes treat each statement of a body on its own. -/
theorem result_bothPasses_iff {body tree : List Stmt} :
    (bothPasses registry filename inClass body).result = .ok tree
      ↔ (∀ stmt ∈ body, ∃ group, (bothPasses registry filename inClass [stmt]).result = .ok group)
        ∧ tree = body.flatMap (expansionOf registry filename inClass) := by
  induction body generalizing tree with
  | nil =>
    constructor
    · intro h
      cases h
      exact ⟨nofun, rfl⟩
    · rintro ⟨-, rfl⟩
      rfl
  | cons stmt rest ih =>
    rw [← List.singleton_append, result_bothPasses_append, List.singleton_append, List.forall_mem_cons,
      List.flatMap_cons]
    constructor
    · rintro ⟨first, others, hfirst, hothers, rfl⟩
      obtain ⟨hall, rfl⟩ := ih.1 hothers
      rw [expansionOf_of_result hfirst]
      exact ⟨⟨⟨first, hfirst⟩, hall⟩, rfl⟩
    · rintro ⟨⟨⟨first, hfirst⟩, hall⟩, rfl⟩
      rw [expansionOf_of_result hfirst]
      exact ⟨first, _, hfirst, ih.2 ⟨hall, rfl⟩, rfl⟩

/-- The events of both passes over two parts of a body are those over each part, in another order. -/
theorem events_bothPasses_append {body body' tree : List Stmt}
    (h : (bothPasses registry filename inClass (body ++ body')).result = .ok tree) :
    (bothPasses registry filename inClass (body ++ body')).events.Perm
      ((bothPasses registry filename inClass body).events
        ++ (bothPasses registry filename inClass body').events) := by
  obtain ⟨marked, hmarked, htree, hevents⟩ := Trace.result_bind h
  have hfirst := hmarked
  rw [introspectBody_eq_concatMap, Trace.result_concatMap_append] at hfirst
  obtain ⟨marked₁, marked₂, hmarked₁, hmarked₂, rfl⟩ := hfirst
  have hsecond := htree
  rw [expandBody_eq_concatMap, Trace.result_concatMap_append] at hsecond
  obtain ⟨front, back, hfront, hback, -⟩ := hsecond
  rw [bothPasses, hevents, bothPasses, bothPasses]
  simp only [introspectBody_eq_concatMap, expandBody_eq_concatMap] at *
  rw [Trace.bind_of_ok hmarked₁, Trace.bind_of_ok hmarked₂, Trace.events_concatMap hmarked,
    Trace.events_concatMap htree, Trace.events_concatMap hmarked₁, Trace.events_concatMap hmarked₂]
  simp only [expandBody_eq_concatMap]
  rw [Trace.events_concatMap hfront, Trace.events_concatMap hback, List.flatMap_append,
    List.flatMap_append]
  -- The second pass over the first part and the first pass over the second part change places.
  simp only [List.append_assoc]
  refine List.Perm.append_left _ ?_
  simp only [← List.append_assoc]
  exact List.Perm.append_right _ List.perm_append_comm

/-- The events of both passes over a body are those over each of its statements, in another order. -/
theorem events_bothPasses {body tree : List Stmt}
    (h : (bothPasses registry filename inClass body).result = .ok tree) :
    (bothPasses registry filename inClass body).events.Perm
      (body.flatMap fun stmt => (bothPasses registry filename inClass [stmt]).events) := by
  induction body generalizing tree with
  | nil => exact .nil
  | cons stmt rest ih =>
    rw [← List.singleton_append] at h ⊢
    obtain ⟨first, others, -, hothers, -⟩ := result_bothPasses_append.1 h
    rw [List.singleton_append, List.flatMap_cons]
    exact (events_bothPasses_append h).trans (List.Perm.append_left _ (ih hothers))

end BothPasses

end PropertyWrapper
