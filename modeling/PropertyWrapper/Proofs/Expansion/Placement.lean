import PropertyWrapper.Proofs.Expansion.Provided

/-!
# Where imports are added

The imports that generated code needs are added in one block behind the documentation of a module and the run
of imports from `__future__` that follows it. A name is imported if it is needed and no import of the module
binds it, but an import that binds the name of a package, since it names a module inside the package, is
overlooked.

* `Source.Stmt.importedNames` : the names that an import binds;
* `Provision.IsNeeded` : the imports that some events make necessary;
* `Divides` : the parts of a module body around the place for imports;
* `Leads` : statements of a kind stand in front of all others but the documentation;
* `imports_placed` : which imports an expansion adds, and where.
-/

namespace PropertyWrapper

open Source

/-! ## Names that imports bind -/

/-- A name that an import binds. -/
structure ImportedName where
  name : String
  /-- The name is that of a package: a module inside it is imported, and is given no other name. -/
  isPackage : Bool

/-- What a module is bound to that is imported as a whole. Without another name for it, only the first
component of its name is bound. -/
def Source.ImportAlias.asModule (binding : ImportAlias) : ImportedName :=
  match binding.boundTo with
  | some name => ⟨name, false⟩
  | none =>
    ⟨String.ofList (binding.name.toList.takeWhile (· ≠ '.')), binding.name.toList.contains '.'⟩

/-- What something is bound to that is imported from a module. -/
def Source.ImportAlias.asMember (binding : ImportAlias) : ImportedName :=
  ⟨binding.boundTo.getD binding.name, false⟩

/-- The names that a statement binds by importing. -/
def Source.Stmt.importedNames : Stmt → List ImportedName
  | .imports _ names => names.map ImportAlias.asModule
  | .importFrom _ _ _ names => names.map ImportAlias.asMember
  | _ => []

theorem binds_iff_asModule {name : String} (hname : '.' ∉ name.toList) (binding : ImportAlias) :
    binding.binds name = true ↔ binding.asModule.name = name ∧ binding.asModule.isPackage = false := by
  obtain ⟨module, boundTo⟩ := binding
  cases boundTo with
  | some other => simp [ImportAlias.binds, ImportAlias.asModule]
  | none =>
    simp only [ImportAlias.binds, ImportAlias.asModule, Option.getD_none, decide_eq_true_eq]
    have hwhole : ∀ text : String, '.' ∉ text.toList →
        String.ofList (text.toList.takeWhile (· ≠ '.')) = text := by
      intro text htext
      have htake : text.toList.takeWhile (· ≠ '.') = text.toList := by
        rw [List.takeWhile_eq_self_iff]
        intro c hc
        exact decide_eq_true fun heq => htext (heq ▸ hc)
      rw [htake, String.ofList_toList]
    constructor
    · rintro rfl
      exact ⟨hwhole module hname, by simpa using hname⟩
    · rintro ⟨rfl, hpackage⟩
      exact (hwhole module (by simpa using hpackage)).symm

/-- An import is seen to bind a name if it does, but not if the name is that of a package. -/
theorem importBinds_iff {name : String} (hname : '.' ∉ name.toList) (stmt : Stmt) :
    importBinds name stmt = true
      ↔ ∃ imported ∈ stmt.importedNames, imported.name = name ∧ imported.isPackage = false := by
  cases stmt with
  | imports line names =>
    simp [importBinds, Stmt.importedNames, binds_iff_asModule hname]
  | importFrom line level module names =>
    simp [importBinds, Stmt.importedNames, ImportAlias.binds, ImportAlias.asMember]
  | _ => simp [importBinds, Stmt.importedNames]

/-! ## Needed imports -/

namespace Provision

/-- All imports that can be added, in their order. -/
def all : List Provision := [storageProvision, finalProvision, configProvision]

/-- An import is needed after some events: a storage was produced, a storage that is never rebound, or a
configuration. -/
inductive IsNeeded (events : List Event) : Provision → Prop where
  | storage {event : Event} {binding : PropertyWrapper.Binding} (hevent : event ∈ events)
      (hstorage : event.storage? = some binding) : IsNeeded events storageProvision
  | final {event : Event} (hevent : event ∈ events) (hstorage : event.storage? = some .immutable) :
      IsNeeded events finalProvision
  | config {event : Event} {declaration : ConfigDeclaration} (hevent : event ∈ events)
      (hconfig : event.config? = some declaration) : IsNeeded events configProvision

end Provision

theorem isEmpty_filterMap_eq_false_iff {α β : Type} {f : α → Option β} {items : List α} :
    (items.filterMap f).isEmpty = false ↔ ∃ item ∈ items, ∃ value, f item = some value := by
  rw [List.isEmpty_eq_false_iff_exists_mem]
  constructor
  · rintro ⟨value, hvalue⟩
    obtain ⟨item, hitem, heq⟩ := List.mem_filterMap.1 hvalue
    exact ⟨item, hitem, value, heq⟩
  · rintro ⟨item, hitem, value, heq⟩
    exact ⟨value, List.mem_filterMap.2 ⟨item, hitem, heq⟩⟩

theorem name_of_mem_all {provision : Provision} (h : provision ∈ Provision.all) :
    '.' ∉ provision.name.toList := by
  revert provision
  decide

theorem statement_of_mem_all {provision : Provision} (h : provision ∈ Provision.all) :
    isDocumentation provision.statement = false ∧ isFutureImport provision.statement = false := by
  revert provision
  decide

theorem sublist_usedProvisions (events : List Event) : (usedProvisions events).Sublist Provision.all := by
  rw [usedProvisions, Provision.all]
  split <;> split <;> split <;> decide

theorem mem_usedProvisions_iff {events : List Event} {provision : Provision} :
    provision ∈ usedProvisions events ↔ provision.IsNeeded events := by
  simp only [usedProvisions, List.mem_append, List.mem_ite_nil_left, List.mem_ite_nil_right,
    List.mem_singleton, Bool.not_eq_true, isEmpty_filterMap_eq_false_iff, List.contains_iff_mem,
    List.mem_filterMap]
  constructor
  · rintro ((⟨⟨event, hevent, binding, hstorage⟩, rfl⟩ | ⟨⟨event, hevent, hstorage⟩, rfl⟩)
      | ⟨⟨event, hevent, declaration, hconfig⟩, rfl⟩)
    · exact .storage hevent hstorage
    · exact .final hevent hstorage
    · exact .config hevent hconfig
  · intro h
    cases h with
    | storage hevent hstorage => exact .inl (.inl ⟨⟨_, hevent, _, hstorage⟩, rfl⟩)
    | final hevent hstorage => exact .inl (.inr ⟨⟨_, hevent, hstorage⟩, rfl⟩)
    | config hevent hconfig => exact .inr ⟨⟨_, hevent, _, hconfig⟩, rfl⟩

/-! ## The place for imports -/

/-- The text that documents a module: it is the first statement if there is one. -/
def documentationOf (body : List Stmt) : List Stmt := (body.head?.filter isDocumentation).toList

theorem documentationOf_cons {first : Stmt} (h : isDocumentation first = true) (rest : List Stmt) :
    documentationOf (first :: rest) = [first] := by
  rw [documentationOf, List.head?_cons, Option.filter_some, if_pos h, Option.toList_some]

theorem documentationOf_cons_of_not {first : Stmt} (h : isDocumentation first = false)
    (rest : List Stmt) : documentationOf (first :: rest) = [] := by
  rw [documentationOf, List.head?_cons, Option.filter_some, h]
  rfl

theorem documentationOf_append {front : List Stmt} (h : front ≠ []) (back : List Stmt) :
    documentationOf (front ++ back) = documentationOf front := by
  cases front with
  | nil => exact absurd rfl h
  | cons => rfl

/-- The parts of a module body around the place for imports: a text that documents it, if it starts with
one, the run of imports from `__future__` behind that, and the rest. -/
structure Divides (body documentation future rest : List Stmt) : Prop where
  eq : body = documentation ++ future ++ rest
  documentation : documentation = documentationOf body
  future : ∀ stmt ∈ future, isFutureImport stmt = true
  rest : ∀ stmt ∈ rest.head?, isFutureImport stmt = false

theorem insertImports_divides (block body : List Stmt) :
    ∃ documentation future rest, Divides body documentation future rest
      ∧ insertImports block body = documentation ++ future ++ block ++ rest := by
  have hrun : ∀ others : List Stmt,
      (∀ stmt ∈ others.takeWhile isFutureImport, isFutureImport stmt = true)
      ∧ ∀ stmt ∈ (others.dropWhile isFutureImport).head?, isFutureImport stmt = false := by
    intro others
    refine ⟨fun stmt => List.all_eq_true.1 List.all_takeWhile stmt, fun stmt hstmt => ?_⟩
    have hstop := List.head?_dropWhile_not isFutureImport others
    rw [hstmt] at hstop
    exact hstop
  cases body with
  | nil => exact ⟨[], [], [], ⟨rfl, rfl, by simp, by simp⟩, (List.append_nil _).symm⟩
  | cons first rest =>
    rw [insertImports]
    cases hfirst : isDocumentation first with
    | true =>
      obtain ⟨hfuture, hrest⟩ := hrun rest
      refine ⟨[first], rest.takeWhile isFutureImport, rest.dropWhile isFutureImport,
        ⟨?_, ?_, hfuture, hrest⟩, rfl⟩
      · rw [List.append_assoc, List.takeWhile_append_dropWhile, List.singleton_append]
      · exact (documentationOf_cons hfirst rest).symm
    | false =>
      obtain ⟨hfuture, hrest⟩ := hrun (first :: rest)
      refine ⟨[], (first :: rest).takeWhile isFutureImport, (first :: rest).dropWhile isFutureImport,
        ⟨?_, ?_, hfuture, hrest⟩, rfl⟩
      · rw [List.nil_append, List.takeWhile_append_dropWhile]
      · exact (documentationOf_cons_of_not hfirst rest).symm

/-! ## Statements in front of the others -/

/-- The statements of a module behind its documentation. -/
def undocumented (body : List Stmt) : List Stmt := body.drop (documentationOf body).length

/-- Every statement of a kind stands in front of all statements of other kinds but the documentation of the
module. -/
def Leads (kind : Stmt → Bool) (body : List Stmt) : Prop :=
  (undocumented body).Pairwise fun before behind => kind behind = true → kind before = true

/-- Whether a statement imports features of the future from the language, and not from a module of this name
next to the importing one. -/
def isFeatureImport : Stmt → Bool
  | .importFrom _ 0 (some module) _ => module = "__future__"
  | _ => false

theorem isFutureImport_of_isFeatureImport {stmt : Stmt} (h : isFeatureImport stmt = true) :
    isFutureImport stmt = true := by
  unfold isFeatureImport at h
  split at h
  · exact h
  · cases h

theorem documentationOf_append_undocumented (body : List Stmt) :
    body = documentationOf body ++ undocumented body := by
  cases body with
  | nil => rfl
  | cons first rest =>
    rw [undocumented, documentationOf, List.head?_cons, Option.filter_some]
    split <;> rfl

theorem isDocumentation_of_mem {body : List Stmt} {stmt : Stmt} (h : stmt ∈ documentationOf body) :
    isDocumentation stmt = true :=
  (Option.mem_filter_iff.1 (Option.mem_toList.1 h)).2

theorem isFutureImport_of_isDocumentation {stmt : Stmt} (h : isDocumentation stmt = true) :
    isFutureImport stmt = false := by
  cases stmt with
  | expr => rfl
  | _ => cases h

theorem isImport_of_isFutureImport {stmt : Stmt} (h : isFutureImport stmt = true) :
    stmt.isImport = true := by
  cases stmt with
  | importFrom => rfl
  | _ => cases h

theorem Divides.undocumented_eq {body documentation future rest : List Stmt}
    (h : Divides body documentation future rest) : undocumented body = future ++ rest := by
  rw [undocumented, ← h.documentation, h.eq, List.append_assoc, List.drop_left]

/-- When other statements are added at the place for imports, it stays where it is. -/
theorem Divides.insert {body documentation future rest : List Stmt} {block : List Stmt}
    (h : Divides body documentation future rest)
    (hblock : ∀ stmt ∈ block, isDocumentation stmt = false ∧ isFutureImport stmt = false) :
    Divides (documentation ++ future ++ block ++ rest) documentation future (block ++ rest) := by
  refine ⟨List.append_assoc _ _ _, ?_, h.future, ?_⟩
  · have hbody := h.documentation
    rw [h.eq] at hbody
    by_cases hfront : documentation ++ future = []
    · obtain ⟨rfl, rfl⟩ := List.append_eq_nil_iff.1 hfront
      cases block with
      | nil => exact hbody
      | cons first others =>
        have hfirst : isDocumentation first = false := (hblock first List.mem_cons_self).1
        exact (documentationOf_cons_of_not hfirst (others ++ rest)).symm
    · rw [List.append_assoc _ block rest, documentationOf_append hfront]
      rw [documentationOf_append hfront] at hbody
      exact hbody
  · cases block with
    | nil => exact h.rest
    | cons first others =>
      rintro stmt ⟨⟩
      exact (hblock first List.mem_cons_self).2

/-! ## Both passes -/

theorem wrapperMark?_of_isPreamble {stmt : Stmt} (h : stmt.isPreamble = true) :
    stmt.isClass = false ∧ wrapperMark? stmt = none := by
  cases stmt with
  | function => cases h
  | classDef => cases h
  | _ => exact ⟨rfl, rfl⟩

theorem front_of_introspects {filename : String} {front back body' : List Stmt} {events : List Event}
    (hfront : ∀ stmt ∈ front, stmt.isPreamble = true)
    (h : Introspects filename (front ++ back) body' events) :
    ∃ back', body' = front ++ back' := by
  induction front generalizing body' events with
  | nil => exact ⟨body', rfl⟩
  | cons stmt front ih =>
    obtain ⟨hstmt, hfront⟩ := List.forall_mem_cons.1 hfront
    obtain ⟨hclass, hmark⟩ := wrapperMark?_of_isPreamble hstmt
    rw [List.cons_append] at h
    cases h with
    | other _ hstep hrest =>
      obtain ⟨back', rfl⟩ := ih hfront hrest
      cases hstep with
      | unmarked => exact ⟨back', rfl⟩
      | wrapper hsome => cases hmark.symm.trans hsome
      | refused hsome => cases hmark.symm.trans hsome
    | classDef => cases hclass

theorem front_of_expands {registry : Registry} {filename : String} {front back body' : List Stmt}
    {events : List Event} (hfront : ∀ stmt ∈ front, stmt.isPreamble = true)
    (h : Expands registry filename false (front ++ back) body' events) :
    ∃ back', body' = front ++ back' := by
  induction front generalizing body' events with
  | nil => exact ⟨body', rfl⟩
  | cons stmt front ih =>
    obtain ⟨hstmt, hfront⟩ := List.forall_mem_cons.1 hfront
    rw [List.cons_append] at h
    cases h with
    | other _ hrest =>
      obtain ⟨back', rfl⟩ := ih hfront hrest
      exact ⟨back', rfl⟩
    | classDef => cases (wrapperMark?_of_isPreamble hstmt).1

/-- What can stand in front of added imports is left alone by both passes as long as it leads the module. -/
theorem front_of_expandTree {registry : Registry} {filename : String} {front back tree : List Stmt}
    (hfront : ∀ stmt ∈ front, stmt.isPreamble = true)
    (h : (expandTree registry filename (front ++ back)).result = .ok tree) :
    ∃ back', tree = front ++ back' ∧ back'.filter Stmt.isImport = back.filter Stmt.isImport := by
  have himports := filter_isImport_of_expandTree h
  obtain ⟨marked, introspected, synthesized, hfirst, hsecond, -⟩ := expandTree_result h
  obtain ⟨middle, rfl⟩ := front_of_introspects hfront hfirst
  obtain ⟨back', rfl⟩ := front_of_expands hfront hsecond
  rw [List.filter_append, List.filter_append] at himports
  exact ⟨back', rfl, List.append_cancel_left himports⟩

section Kind

variable {kind : Stmt → Bool}

theorem pairwise_of_forall_eq_false {stmts : List Stmt} (h : ∀ stmt ∈ stmts, kind stmt = false) :
    stmts.Pairwise fun before behind => kind behind = true → kind before = true := by
  refine List.pairwise_of_forall_mem_list fun before _ behind hmem hbehind => ?_
  rw [h behind hmem] at hbehind
  cases hbehind

/-- If one statement is not of the kind, none behind it is. -/
theorem forall_eq_false_of_head {stmts : List Stmt}
    (h : stmts.Pairwise fun before behind => kind behind = true → kind before = true)
    (hhead : ∀ stmt ∈ stmts.head?, kind stmt = false) : ∀ stmt ∈ stmts, kind stmt = false := by
  cases stmts with
  | nil => simp
  | cons first rest =>
    have hfirst : kind first = false := hhead first rfl
    refine List.forall_mem_cons.2 ⟨hfirst, fun stmt hstmt => ?_⟩
    rw [← Bool.not_eq_true]
    intro hkind
    rw [List.rel_of_pairwise_cons h hstmt hkind] at hfirst
    cases hfirst

variable (hkind : ∀ stmt, kind stmt = true → isFutureImport stmt = true)

include hkind

theorem eq_false_of_isFutureImport {stmt : Stmt} (h : isFutureImport stmt = false) :
    kind stmt = false := by
  rw [← Bool.not_eq_true]
  intro hstmt
  rw [hkind stmt hstmt] at h
  cases h

/-- Statements that lead a module still do when imports have been added at their place. -/
theorem Leads.insert {body documentation future rest block : List Stmt} (h : Leads kind body)
    (hdivides : Divides body documentation future rest)
    (hblock : ∀ stmt ∈ block, isDocumentation stmt = false ∧ isFutureImport stmt = false) :
    Leads kind (documentation ++ future ++ block ++ rest) := by
  have hother : ∀ stmt, isFutureImport stmt = false → kind stmt = false :=
    fun _ => eq_false_of_isFutureImport hkind
  rw [Leads, hdivides.undocumented_eq, List.pairwise_append] at h
  obtain ⟨hfuture, hrest, -⟩ := h
  have hbehind : ∀ stmt ∈ block ++ rest, kind stmt = false := by
    intro stmt hstmt
    rcases List.mem_append.1 hstmt with hstmt | hstmt
    · exact hother stmt (hblock stmt hstmt).2
    · exact forall_eq_false_of_head hrest (fun first hfirst => hother first (hdivides.rest first hfirst))
        stmt hstmt
  rw [Leads, (hdivides.insert hblock).undocumented_eq, List.pairwise_append]
  refine ⟨hfuture, pairwise_of_forall_eq_false hbehind, fun before _ behind hmem hstmt => ?_⟩
  rw [hbehind behind hmem] at hstmt
  cases hstmt

/-- Statements that lead a module still do after both passes, which change nothing in front of them and add
no imports behind them. -/
theorem Leads.expandTree {registry : Registry} {filename : String} {body tree : List Stmt}
    (h : Leads kind body) (htree : (expandTree registry filename body).result = .ok tree) :
    Leads kind tree := by
  let leading := (undocumented body).takeWhile kind
  let rest := (undocumented body).dropWhile kind
  have hparts : undocumented body = leading ++ rest := List.takeWhile_append_dropWhile.symm
  have hbody : body = (documentationOf body ++ leading) ++ rest := by
    rw [List.append_assoc, ← hparts, ← documentationOf_append_undocumented]
  have hleading : ∀ stmt ∈ leading, kind stmt = true := fun stmt =>
    List.all_eq_true.1 List.all_takeWhile stmt
  have hrest : ∀ stmt ∈ rest, kind stmt = false := by
    refine forall_eq_false_of_head (h.sublist (List.dropWhile_sublist _)) fun stmt hstmt => ?_
    have hstop := List.head?_dropWhile_not kind (undocumented body)
    rw [hstmt] at hstop
    exact hstop
  have hfront : ∀ stmt ∈ documentationOf body ++ leading, stmt.isPreamble = true := by
    intro stmt hstmt
    rw [Stmt.isPreamble, Bool.or_eq_true]
    exact (List.mem_append.1 hstmt).imp isDocumentation_of_mem fun hstmt =>
      hkind stmt (hleading stmt hstmt)
  obtain ⟨rest', rfl, himports⟩ := front_of_expandTree hfront (show _ = _ by rw [← hbody]; exact htree)
  have hrest' : ∀ stmt ∈ rest', kind stmt = false := by
    intro stmt hstmt
    rw [← Bool.not_eq_true]
    intro hkept
    have hmem : stmt ∈ rest'.filter Stmt.isImport :=
      List.mem_filter.2 ⟨hstmt, isImport_of_isFutureImport (hkind stmt hkept)⟩
    rw [himports] at hmem
    rw [hrest stmt (List.mem_filter.1 hmem).1] at hkept
    cases hkept
  by_cases hempty : leading = []
  · -- No statement is of the kind, and what documents the module now does not matter.
    rw [hempty, List.append_nil]
    refine pairwise_of_forall_eq_false fun stmt hstmt => ?_
    rcases List.mem_append.1 (List.mem_of_mem_drop hstmt) with hstmt | hstmt
    · exact eq_false_of_isFutureImport hkind
        (isFutureImport_of_isDocumentation (isDocumentation_of_mem hstmt))
    · exact hrest' stmt hstmt
  · have hsame : documentationOf (documentationOf body ++ leading ++ rest') = documentationOf body := by
      have hsome : documentationOf body ++ leading ≠ [] := by simp [hempty]
      rw [documentationOf_append hsome, ← documentationOf_append hsome rest, ← hbody]
    have hbehind : undocumented (documentationOf body ++ leading ++ rest') = leading ++ rest' := by
      rw [undocumented, hsame, List.append_assoc, List.drop_left]
    rw [Leads, hbehind, List.pairwise_append]
    refine ⟨List.pairwise_of_forall_mem_list fun before hmem _ _ _ => hleading before hmem,
      pairwise_of_forall_eq_false hrest', fun before hmem _ _ _ => hleading before hmem⟩

end Kind

/-! ## Whole expansions -/

/-- The imports that an expansion adds stand in one block behind the documentation of the module and the run
of imports from `__future__` that follows it; all else is as both passes leave it. The block holds some of
the three possible imports in their order: those that are needed and whose name no import of the module
binds, except as the name of a package. So if all imports of features come first in the module, apart from
its documentation, they still do. -/
theorem imports_placed (registry : Registry) (filename : String) (body body' : List Stmt)
    (h : (expandModule registry filename body).result = .ok body') :
    ∃ (tree documentation future rest : List Stmt) (added : List Provision),
      (expandTree registry filename body).result = .ok tree
      ∧ Divides tree documentation future rest
      ∧ body' = documentation ++ future ++ added.map Provision.statement ++ rest
      ∧ added.Sublist Provision.all
      ∧ (∀ provision, provision ∈ added
        ↔ provision.IsNeeded (expandModule registry filename body).events
          ∧ ∀ stmt ∈ body, ∀ imported ∈ stmt.importedNames,
            imported.name = provision.name → imported.isPackage = true)
      ∧ (Leads isFutureImport body → Leads isFutureImport body')
      ∧ (Leads isFeatureImport body → Leads isFeatureImport body') := by
  obtain ⟨tree, htree, rfl, hevents⟩ := expandModule_result h
  rw [hevents]
  let used := usedProvisions (expandTree registry filename body).events
  let added := used.filter fun provision => !tree.any (importBinds provision.name)
  obtain ⟨documentation, future, rest, hdivides, hinsert⟩ :=
    insertImports_divides (added.map Provision.statement) tree
  rw [show provide used tree = _ from hinsert]
  have hsublist : used.Sublist Provision.all := sublist_usedProvisions _
  have hblock : ∀ stmt ∈ added.map Provision.statement,
      isDocumentation stmt = false ∧ isFutureImport stmt = false := by
    intro stmt hstmt
    obtain ⟨provision, hprovision, rfl⟩ := List.mem_map.1 hstmt
    exact statement_of_mem_all (hsublist.subset (List.mem_filter.1 hprovision).1)
  refine ⟨tree, documentation, future, rest, added, htree, hdivides, rfl,
    List.filter_sublist.trans hsublist, fun provision => ?_, fun hleads => ?_, fun hleads => ?_⟩
  · rw [List.mem_filter, Bool.not_eq_true', ← mem_usedProvisions_iff]
    refine and_congr_right fun hused => ?_
    have hname : '.' ∉ provision.name.toList := name_of_mem_all (hsublist.subset hused)
    rw [← any_importBinds_filter, filter_isImport_of_expandTree htree, any_importBinds_filter]
    simp only [List.any_eq_false, importBinds_iff hname, not_exists, not_and, Bool.not_eq_false]
  · exact Leads.insert (fun _ => id) (Leads.expandTree (fun _ => id) hleads htree) hdivides hblock
  · have hkind : ∀ stmt, isFeatureImport stmt = true → isFutureImport stmt = true :=
      fun _ => isFutureImport_of_isFeatureImport
    exact Leads.insert hkind (Leads.expandTree hkind hleads htree) hdivides hblock

/-- A documented module with an import of a feature and a class with a wrapped property. -/
def documentedTree : List Stmt :=
  .expr 1 (.constant ⟨1, 0⟩ (.str false [97]))
    :: .importFrom 2 0 (some "__future__") [⟨"annotations", none⟩] :: wrappedTree

/-- The imports of an expansion are added behind the import of a feature. -/
theorem imports_placed_documentedTree :
    ∃ (body' future rest : List Stmt) (added : List Provision),
      (expandModule soleWrapper "m.py" documentedTree).result = .ok body'
      ∧ added.Sublist Provision.all
      ∧ body' = documentationOf documentedTree ++ future ++ added.map Provision.statement ++ rest
      ∧ Leads isFeatureImport body' := by
  have hleads : Leads isFeatureImport documentedTree := by
    unfold Leads
    decide
  have hsome : (expandModule soleWrapper "m.py" documentedTree).result.toOption.isSome = true := by
    rw [Direct.expandModule_eq]
    decide +kernel
  obtain ⟨body', hbody'⟩ := Option.isSome_iff_exists.1 hsome
  have hexpand := eq_ok_of_toOption hbody'
  obtain ⟨tree, documentation, future, rest, added, htree, hdivides, hbody, hadded, -, -, hfeatures⟩ :=
    imports_placed soleWrapper "m.py" documentedTree body' hexpand
  -- both passes leave the first two statements alone, so that the documentation is the same
  have hfront : ∀ stmt ∈ documentedTree.take 2, stmt.isPreamble = true := by decide
  obtain ⟨back', rfl, -⟩ := front_of_expandTree hfront htree
  have hsame : documentation = documentationOf documentedTree := hdivides.documentation
  exact ⟨body', future, rest, added, hexpand, hadded, hsame ▸ hbody, hfeatures hleads⟩

/-! ## Imports that are overlooked -/

/-- An import that binds the name of a package, and a class with a wrapped property. -/
def packageImportSource : String :=
  "import cached_property.extra\nclass A:\n    x: Annotated[int, E]\n"

/-- The names that the imports of a module bind, before its expansion and after it. -/
def importedNames? (source : String) : Option (List String × List String) := do
  let body ← (parseModule source).toOption
  let body' ← (expandModule soleWrapper "m.py" body).result.toOption
  let names (stmts : List Stmt) := (stmts.flatMap Stmt.importedNames).map ImportedName.name
  return (names body, names body')

/-- A name is imported although an import of the module binds it. -/
theorem imported_over_package :
    importedNames? packageImportSource
      = some (["cached_property"], ["cached_property", "Final", "cached_property"]) := by
  simp only [importedNames?, Direct.parseModule_eq, Direct.expandModule_eq]
  decide +kernel

end PropertyWrapper
