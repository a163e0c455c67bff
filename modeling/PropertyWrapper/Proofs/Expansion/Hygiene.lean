import PropertyWrapper.Proofs.Expansion.Counts
import PropertyWrapper.Proofs.Expansion.Declared

/-!
# Names of generated declarations

A wrapped property gives its own name, that of its storage and, if its wrapper has a projected value, that
of its projection. All of them end up in one class. The two kinds of generated names are injective each, so
names of different properties meet only across the kinds.

* `projectedName_injective`, `storageName_eq_projectedName_iff` : how generated names can meet;
* `projection_names_faithful` : the name of a projection determines that of its property and is as visible,
  and the names of one property differ;
* `WrappedProperty.Clashes` : whether a name of one property is generated for another one;
* `WrappedProperty.not_clashes_of_starts` : names that start like no generated name are safe;
* `pairwise_disjoint_names_iff` : the names in a class are disjoint exactly if no two properties clash.
-/

namespace PropertyWrapper

open Source

/-! ## Generated names -/

theorem storageName_injective : Function.Injective storageName := by
  intro a b h
  have hchars := congrArg String.toList h
  rw [toList_storageName, toList_storageName] at hchars
  exact String.toList_inj.1 (List.cons.inj hchars).2

/-- A projection never has the name of its property. -/
theorem projectedName_ne (identifier : String) : projectedName identifier ≠ identifier := by
  intro heq
  have hlength := congrArg (fun name => name.toList.length) heq
  have hparts := congrArg List.length
    (List.takeWhile_append_dropWhile (p := (· = '_')) (l := identifier.toList))
  have hmarker : "projected_".toList.length = 10 := by decide
  simp only [toList_projectedName, List.length_append, hmarker] at hlength hparts
  omega

/-- The projection of a name has the underscores of the name in front, and no further ones. -/
theorem takeWhile_projectedName (identifier : String) :
    (projectedName identifier).toList.takeWhile (· = '_')
      = identifier.toList.takeWhile (· = '_') := by
  have hlead : ∀ c ∈ identifier.toList.takeWhile (· = '_'), decide (c = '_') = true :=
    List.all_eq_true.1 List.all_takeWhile
  rw [toList_projectedName, List.takeWhile_append_of_pos hlead]
  exact List.append_nil _

theorem projectedName_injective : Function.Injective projectedName := by
  intro a b h
  have hlead : a.toList.takeWhile (· = '_') = b.toList.takeWhile (· = '_') := by
    rw [← takeWhile_projectedName a, h, takeWhile_projectedName]
  have hchars := congrArg String.toList h
  rw [toList_projectedName, toList_projectedName, hlead, List.append_cancel_left_eq,
    List.append_cancel_left_eq] at hchars
  apply String.toList_inj.1
  rw [← List.takeWhile_append_dropWhile (p := (· = '_')) (l := a.toList), hlead, hchars,
    List.takeWhile_append_dropWhile]

/-- The projection of a storage has the name of the storage of the projection. -/
theorem projectedName_storageName (identifier : String) :
    projectedName (storageName identifier) = storageName (projectedName identifier) := by
  apply String.toList_inj.1
  rw [toList_projectedName, toList_storageName, toList_storageName, toList_projectedName]
  rfl

/-- A storage meets a projection when the projected name has one more underscore in front. -/
theorem storageName_eq_projectedName_iff {a b : String} :
    storageName a = projectedName b ↔ ∃ rest, b = storageName rest ∧ a = projectedName rest := by
  constructor
  · intro h
    have hchars := congrArg String.toList h
    rw [toList_storageName, toList_projectedName] at hchars
    -- Without a leading underscore the projected name would start with its marker.
    cases hname : b.toList with
    | nil =>
      rw [hname] at hchars
      cases (List.cons.inj hchars).1
    | cons c rest =>
      by_cases hc : c = '_'
      · have hb : b = storageName (String.ofList rest) := by
          apply String.toList_inj.1
          rw [toList_storageName, String.toList_ofList, hname, hc]
        refine ⟨String.ofList rest, hb, storageName_injective ?_⟩
        rw [h, hb, projectedName_storageName]
      · rw [hname, List.takeWhile_cons_of_neg (by simpa using hc)] at hchars
        cases (List.cons.inj hchars).1
  · rintro ⟨rest, rfl, rfl⟩
    exact (projectedName_storageName rest).symm

/-! ## Visibility -/

/-- The number of underscores in front of a name. The more there are, the less visible is what it names. -/
def leadingUnderscores (name : String) : Nat := (name.toList.takeWhile (· = '_')).length

theorem leadingUnderscores_storageName (identifier : String) :
    leadingUnderscores (storageName identifier) = leadingUnderscores identifier + 1 := by
  rw [leadingUnderscores, toList_storageName, List.takeWhile_cons_of_pos (by decide), List.length_cons,
    leadingUnderscores]

theorem leadingUnderscores_projectedName (identifier : String) :
    leadingUnderscores (projectedName identifier) = leadingUnderscores identifier := by
  rw [leadingUnderscores, takeWhile_projectedName, leadingUnderscores]

/-- A storage never has the name of its property. -/
theorem storageName_ne (identifier : String) : storageName identifier ≠ identifier := by
  intro heq
  have hcount := congrArg leadingUnderscores heq
  rw [leadingUnderscores_storageName] at hcount
  omega

/-- The storage of a property is less visible than its projection. -/
theorem storageName_ne_projectedName (identifier : String) :
    storageName identifier ≠ projectedName identifier := by
  intro heq
  have hcount := congrArg leadingUnderscores heq
  rw [leadingUnderscores_storageName, leadingUnderscores_projectedName] at hcount
  omega

/-- The name of a projection determines that of its property and is as visible, and a property, its storage
and its projection have three different names. This holds of every name, also of one that is made of
underscores only or has the marker of projections in it. -/
theorem projection_names_faithful :
    Function.Injective projectedName
      ∧ (∀ identifier, leadingUnderscores (projectedName identifier) = leadingUnderscores identifier)
      ∧ ∀ identifier, identifier ≠ storageName identifier ∧ identifier ≠ projectedName identifier
        ∧ storageName identifier ≠ projectedName identifier := by
  refine ⟨projectedName_injective, leadingUnderscores_projectedName, fun identifier => ⟨?_, ?_, ?_⟩⟩
  · exact (storageName_ne identifier).symm
  · exact (projectedName_ne identifier).symm
  · exact storageName_ne_projectedName identifier

example : ["_", "projected_", "_projected_x"].map projectedName
    = ["_projected_", "projected_projected_", "_projected_projected_x"] := by decide

/-! ## Clashes -/

/-- What the generated names of a wrapped property depend on: its name and its wrapper. -/
structure WrappedProperty where
  identifier : String
  config : WrapperConfig
deriving DecidableEq, Repr

/-- The property that a statement of a class body declares, if a wrapper is attached to it and it annotates
a plain name. -/
def Source.Stmt.wrappedProperty? (registry : Registry) : Stmt → Option WrappedProperty
  | .annAssign line (.name pos identifier) hint value bare =>
    (attachments registry (.annAssign line (.name pos identifier) hint value bare)).head?.map
      fun first => ⟨identifier, first.config⟩
  | _ => none

namespace WrappedProperty

/-- The names of a property: its own, that of its storage, and that of its projection if it has one. -/
def names (property : WrappedProperty) : List String :=
  property.identifier :: storageName property.identifier
    :: (property.config.projectedType.map fun _ => projectedName property.identifier).toList

/-- Whether a property or its storage has a name that is generated for another property. -/
def Clashes (property other : WrappedProperty) : Prop :=
  property.identifier = storageName other.identifier
    ∨ other.config.projectedType.isSome = true
      ∧ (property.identifier = projectedName other.identifier
        ∨ storageName property.identifier = projectedName other.identifier)

/-- A property whose name starts with neither an underscore nor the marker of projections clashes with no
other one. -/
theorem not_clashes_of_starts {property : WrappedProperty}
    (hunderscore : property.identifier.toList.head? ≠ some '_')
    (hmarker : ¬ "projected_".toList <+: property.identifier.toList) (other : WrappedProperty) :
    ¬ property.Clashes other := by
  have hprojected : ∀ name, property.identifier ≠ projectedName name := by
    intro name heq
    rcases starts_projectedName name with hstart | hstart
    · exact hunderscore (heq ▸ hstart)
    · exact hmarker (heq ▸ hstart)
  rintro (heq | ⟨-, heq | heq⟩)
  · apply hunderscore
    rw [heq, toList_storageName]
    rfl
  · exact hprojected _ heq
  · obtain ⟨rest, -, heq'⟩ := storageName_eq_projectedName_iff.1 heq
    exact hprojected rest heq'

theorem mem_names {property : WrappedProperty} {name : String} :
    name ∈ property.names ↔ name = property.identifier ∨ name = storageName property.identifier
      ∨ property.config.projectedType.isSome = true ∧ name = projectedName property.identifier := by
  rw [names, List.mem_cons, List.mem_cons]
  cases property.config.projectedType <;> simp

/-- Different properties have a name in common exactly if one of them clashes with the other. -/
theorem disjoint_names_iff {property other : WrappedProperty}
    (hne : property.identifier ≠ other.identifier) :
    property.names.Disjoint other.names ↔ ¬ property.Clashes other ∧ ¬ other.Clashes property := by
  have hstorage : storageName property.identifier ≠ storageName other.identifier :=
    storageName_injective.ne hne
  have hprojected : projectedName property.identifier ≠ projectedName other.identifier :=
    projectedName_injective.ne hne
  constructor
  · intro hdisjoint
    have hnone : ∀ name, name ∈ property.names → name ∉ other.names := fun name h h' => hdisjoint h h'
    simp only [mem_names] at hnone
    refine ⟨?_, ?_⟩
    · rintro (h | ⟨hsome, h | h⟩)
      · exact hnone _ (.inl rfl) (.inr (.inl h))
      · exact hnone _ (.inl rfl) (.inr (.inr ⟨hsome, h⟩))
      · exact hnone _ (.inr (.inl rfl)) (.inr (.inr ⟨hsome, h⟩))
    · rintro (h | ⟨hsome, h | h⟩)
      · exact hnone _ (.inr (.inl h)) (.inl rfl)
      · exact hnone _ (.inr (.inr ⟨hsome, h⟩)) (.inl rfl)
      · exact hnone _ (.inr (.inr ⟨hsome, h⟩)) (.inr (.inl rfl))
  · rintro ⟨hclash, hclash'⟩ name hname hname'
    rw [mem_names] at hname hname'
    -- Names of one kind differ since the identifiers do; a meeting of two kinds is a clash.
    rcases hname with rfl | rfl | ⟨hsome, rfl⟩
    · rcases hname' with h | h | ⟨hsome', h⟩
      · exact hne h
      · exact hclash (.inl h)
      · exact hclash (.inr ⟨hsome', .inl h⟩)
    · rcases hname' with h | h | ⟨hsome', h⟩
      · exact hclash' (.inl h.symm)
      · exact hstorage h
      · exact hclash (.inr ⟨hsome', .inr h⟩)
    · rcases hname' with h | h | ⟨hsome', h⟩
      · exact hclash' (.inr ⟨hsome, .inl h.symm⟩)
      · exact hclash' (.inr ⟨hsome, .inr h.symm⟩)
      · exact hprojected h

end WrappedProperty

/-! ## Names in a class -/

/-- The names of the functions that declarations stand for. -/
def Declarations.names (declarations : Declarations) : List String := declarations.roles.map (·.2)

theorem mem_roles_forwarding {property storage member : String} {type : Option Text.LooseText}
    {isSettable : Bool} {name : String} :
    name ∈ ((forwarding property storage member type isSettable).map Accessor.role).map (·.2)
      ↔ name = property := by
  cases isSettable <;> simp [forwarding, Accessor.role]

/-- The declarations of a wrapped property have its names. -/
theorem mem_names_wrappedDeclarations {config : WrapperConfig} {attr : Attribute} {member : Member}
    {identifier name : String} :
    name ∈ (wrappedDeclarations config attr member identifier).names
      ↔ name ∈ (WrappedProperty.mk identifier config).names := by
  rw [WrappedProperty.mem_names, Declarations.names, Declarations.roles, List.map_append, List.mem_append,
    wrappedDeclarations, mem_roles_forwarding, List.flatMap_cons, List.map_append, List.mem_append]
  refine or_congr Iff.rfl (or_congr (by simp [Peer.roles]) ?_)
  rw [projection]
  cases config.projectedType with
  | none => simp
  | some type =>
    simp only [Option.map_some, Option.toList_some, List.flatMap_singleton, Peer.roles,
      Option.isSome_some, true_and]
    exact mem_roles_forwarding

theorem names_of_declares {registry : Registry} {stmt : Stmt} {property : WrappedProperty}
    {declarations : Declarations} (hproperty : stmt.wrappedProperty? registry = some property)
    (h : Declares registry stmt declarations) (name : String) :
    name ∈ declarations.names ↔ name ∈ property.names := by
  unfold Stmt.wrappedProperty? at hproperty
  split at hproperty
  · rename_i line pos identifier hint value bare
    obtain ⟨first, hfirst, rfl⟩ := Option.map_eq_some_iff.1 hproperty
    obtain ⟨extras, hsome⟩ := List.head?_eq_some_iff.1 hfirst
    obtain ⟨attr, type, initializer, -, rfl⟩ := h.eq_wrappedDeclarations hsome
    exact mem_names_wrappedDeclarations
  · cases hproperty

theorem attachments_of_wrappedProperty? {registry : Registry} {stmt : Stmt} {property : WrappedProperty}
    (h : stmt.wrappedProperty? registry = some property) :
    stmt.isClass = false ∧ attachments registry stmt ≠ [] := by
  unfold Stmt.wrappedProperty? at h
  split at h
  · obtain ⟨first, hfirst, -⟩ := Option.map_eq_some_iff.1 h
    refine ⟨rfl, fun hnil => ?_⟩
    rw [hnil] at hfirst
    cases hfirst
  · cases h

/-- The statements of declarations with closed texts are functions with their names. -/
theorem map_name_of_headings {stmts : List Stmt} {roles : List Role}
    (h : stmts.map heading = roles.map Role.heading) : stmts.map Stmt.name = roles.map (·.2) := by
  induction stmts generalizing roles with
  | nil =>
    obtain rfl : roles = [] := by simpa using h.symm
    rfl
  | cons stmt stmts ih =>
    cases roles with
    | nil => cases h
    | cons role roles =>
      obtain ⟨hstmt, hstmts⟩ := List.cons.inj h
      obtain ⟨_, _, _, _, _, _, rfl, -⟩ := exists_function_of_heading hstmt
      rw [List.map_cons, List.map_cons, ih hstmts]
      rfl

/-- A class body of wrapped properties becomes the statements of the declarations of each of them. -/
theorem declares_of_expandBody {registry : Registry} {filename : String} {properties : List WrappedProperty}
    {body body' : List Stmt}
    (hwrapped : List.Forall₂ (fun stmt property => Stmt.wrappedProperty? registry stmt = some property)
      body properties)
    (h : (expandBody registry filename true body).result = .ok body') :
    ∃ declared groups, List.Forall₂ (Declares registry) body declared
      ∧ List.Forall₂ (fun declarations stmts => declarations.statements = .ok stmts) declared groups
      ∧ body' = groups.flatten := by
  induction hwrapped generalizing body' with
  | nil =>
    cases h
    exact ⟨[], [], .nil, .nil, rfl⟩
  | @cons stmt property rest properties hstmt hrest ih =>
    obtain ⟨hclass, hsome⟩ := attachments_of_wrappedProperty? hstmt
    obtain ⟨first, others, hfirst, hothers, rfl, -⟩ := expandBody_cons h
    rw [expandStmt_of_not_class hclass, if_pos rfl] at hfirst
    obtain ⟨declarations, hdeclares, hstmts⟩ := exists_declares hsome hfirst
    obtain ⟨declared, groups, hall, hgroups, rfl⟩ := ih hothers
    exact ⟨declarations :: declared, first :: groups, .cons hdeclares hall, .cons hstmts hgroups, rfl⟩

theorem map_name_of_forall₂_declares {registry : Registry} {body : List Stmt}
    {declared : List Declarations} {groups : List (List Stmt)} (hclosed : registry.IsClosed)
    (hsound : bodySound body = true) (hdeclared : List.Forall₂ (Declares registry) body declared)
    (hgroups : List.Forall₂ (fun declarations stmts => declarations.statements = .ok stmts) declared
      groups) : groups.map (List.map Stmt.name) = declared.map Declarations.names := by
  induction hdeclared generalizing groups with
  | nil =>
    cases hgroups
    rfl
  | cons hfirst hrest ih =>
    simp only [bodySound, Bool.and_eq_true] at hsound
    cases hgroups with
    | cons hstmts hothers =>
      rw [List.map_cons, List.map_cons, ih hsound.2 hothers,
        map_name_of_headings (hfirst.presents (hclosed.fits false) hsound.1 hstmts).map_heading]
      rfl

theorem names_of_forall₂_declares {registry : Registry} {body : List Stmt}
    {properties : List WrappedProperty} {declared : List Declarations}
    (hwrapped : List.Forall₂ (fun stmt property => Stmt.wrappedProperty? registry stmt = some property)
      body properties)
    (hdeclared : List.Forall₂ (Declares registry) body declared) :
    List.Forall₂ (fun declarations property => ∀ name, name ∈ declarations.names
      ↔ name ∈ WrappedProperty.names property) declared properties := by
  induction hwrapped generalizing declared with
  | nil =>
    cases hdeclared
    exact .nil
  | cons hstmt hrest ih =>
    cases hdeclared with
    | cons hfirst hothers => exact .cons (names_of_declares hstmt hfirst) (ih hothers)

/-- In a class body of wrapped properties with different names, the names that are generated for different
properties are disjoint exactly if no property clashes with another one. With closed texts these are the
names of the functions that the body is made of. -/
theorem pairwise_disjoint_names_iff (registry : Registry) (filename : String) (body body' : List Stmt)
    (properties : List WrappedProperty)
    (hwrapped : List.Forall₂ (fun stmt property => Stmt.wrappedProperty? registry stmt = some property)
      body properties)
    (hdistinct : properties.Pairwise fun property other => property.identifier ≠ other.identifier)
    (h : (expandBody registry filename true body).result = .ok body') :
    ∃ declared groups, List.Forall₂ (Declares registry) body declared
      ∧ List.Forall₂ (fun declarations stmts => declarations.statements = .ok stmts) declared groups
      ∧ body' = groups.flatten
      ∧ (registry.IsClosed → bodySound body = true →
        groups.map (List.map Stmt.name) = declared.map Declarations.names)
      ∧ (declared.Pairwise (fun declarations others => declarations.names.Disjoint others.names)
        ↔ properties.Pairwise fun property other =>
          ¬ property.Clashes other ∧ ¬ other.Clashes property) := by
  obtain ⟨declared, groups, hdeclared, hgroups, hbody⟩ := declares_of_expandBody hwrapped h
  refine ⟨declared, groups, hdeclared, hgroups, hbody, ?_, ?_⟩
  · intro hclosed hsound
    exact map_name_of_forall₂_declares hclosed hsound hdeclared hgroups
  · have hnames := names_of_forall₂_declares hwrapped hdeclared
    -- Declarations and properties correspond place by place, so both sides are about pairs of places.
    obtain ⟨hlength, hget⟩ := List.forall₂_iff_get.1 hnames
    rw [List.pairwise_iff_getElem] at hdistinct ⊢
    rw [List.pairwise_iff_getElem]
    constructor
    · intro hdisjoint i j hi hj hij
      have hpair := hdisjoint i j (by omega) (by omega) hij
      rw [← WrappedProperty.disjoint_names_iff (hdistinct i j hi hj hij)]
      exact fun name hname hname' =>
        hpair ((hget i (by omega) hi name).2 hname) ((hget j (by omega) hj name).2 hname')
    · intro happart i j hi hj hij
      have hi' : i < properties.length := by omega
      have hj' : j < properties.length := by omega
      have hpair := (WrappedProperty.disjoint_names_iff (hdistinct i j hi' hj' hij)).2
        (happart i j hi' hj' hij)
      exact fun name hname hname' =>
        hpair ((hget i hi hi' name).1 hname) ((hget j hj hj' name).1 hname')

/-! ## Instances -/

/-- A statement that annotates a name with the wrapper `E`. -/
def wrappedStmt (line : Nat) (name : String) : Stmt :=
  .annAssign line (.name ⟨line, 4⟩ name) (.subscript ⟨line, 7⟩ (.name ⟨line, 7⟩ "Annotated")
    (.tuple ⟨line, 17⟩ [.name ⟨line, 17⟩ "int", .name ⟨line, 22⟩ "E"])) none true

/-- A registry with one wrapper, which has a projected value. -/
def projectedWrapper : Registry := ⟨[(.text "E", { projectedType := some "int" })]⟩

/-- The names of the functions that a class body becomes. -/
def emittedNames? (registry : Registry) (body : List Stmt) : Option (List String) :=
  (expandBody registry "m.py" true body).result.toOption.map (·.map Stmt.name)

/-- A storage has the name of a property, a projection that of a property, or a projection that of a
storage. -/
theorem emittedNames_clash :
    emittedNames? soleWrapper [wrappedStmt 2 "x", wrappedStmt 3 "_x"] = some ["x", "_x", "_x", "__x"]
      ∧ emittedNames? projectedWrapper [wrappedStmt 2 "x", wrappedStmt 3 "projected_x"]
        = some ["x", "_x", "projected_x", "projected_x", "_projected_x", "projected_projected_x"]
      ∧ emittedNames? projectedWrapper [wrappedStmt 2 "_x", wrappedStmt 3 "projected_x"]
        = some ["_x", "__x", "_projected_x", "projected_x", "_projected_x", "projected_projected_x"] := by
  simp only [emittedNames?, Direct.expandBody_eq]
  decide +kernel

theorem wrappedProperty?_wrappedStmt :
    (wrappedStmt 2 "x").wrappedProperty? soleWrapper = some ⟨"x", {}⟩
      ∧ (wrappedStmt 3 "y").wrappedProperty? soleWrapper = some ⟨"y", {}⟩ := by
  decide +kernel

/-- Two properties whose names do not clash have names of their own. -/
theorem disjoint_names_wrappedStmt :
    ∃ declared, List.Forall₂ (Declares soleWrapper) [wrappedStmt 2 "x", wrappedStmt 3 "y"] declared
      ∧ declared.Pairwise fun declarations others => declarations.names.Disjoint others.names := by
  obtain ⟨hx, hy⟩ := wrappedProperty?_wrappedStmt
  have hread : (emittedNames? soleWrapper [wrappedStmt 2 "x", wrappedStmt 3 "y"]).isSome = true := by
    rw [emittedNames?, Direct.expandBody_eq]
    decide +kernel
  rw [emittedNames?, Option.isSome_map] at hread
  obtain ⟨body', hbody'⟩ := Option.isSome_iff_exists.1 hread
  obtain ⟨declared, groups, hdeclared, -, -, -, hiff⟩ :=
    pairwise_disjoint_names_iff soleWrapper "m.py" [wrappedStmt 2 "x", wrappedStmt 3 "y"] body'
      [⟨"x", {}⟩, ⟨"y", {}⟩] (.cons hx (.cons hy .nil)) (by simp) (eq_ok_of_toOption hbody')
  have happart : ¬ WrappedProperty.Clashes ⟨"x", {}⟩ ⟨"y", {}⟩
      ∧ ¬ WrappedProperty.Clashes ⟨"y", {}⟩ ⟨"x", {}⟩ := by
    simp [WrappedProperty.Clashes, storageName]
  exact ⟨declared, hdeclared, hiff.2 (List.pairwise_pair.2 happart)⟩

end PropertyWrapper
