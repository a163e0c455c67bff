import PropertyWrapper.Proofs.Expansion.Idempotence
import PropertyWrapper.Proofs.Expansion.Inserted
import PropertyWrapper.Proofs.Expansion.Replacement

/-!
# What an expansion leaves alone

An expansion touches marks, and statements of class bodies with wrappers. Everything else stays as it is, and
no statement has a say in what becomes of the statements beside it.

* `Frame`, `Gap` : a class around a place in a module, and a place for a statement in a class body;
* `result_bothPasses_nest` : what both passes make of a body, they make of it inside of classes;
* `Gap.keepsSiblings_of_expandTree` : another statement in a gap leaves the rest of the class body alone;
* `expansion_touches_nothing_else` : all that an expansion leaves alone.
-/

namespace PropertyWrapper

open Source

/-! ## Untouched statements -/

/-- Whether a statement is no definition and no annotated assignment. Blocks of such a statement are no class
bodies. -/
def Source.Stmt.isPlain : Stmt → Bool
  | .function .. | .classDef .. | .annAssign .. => false
  | _ => true

section Untouched

variable {registry : Registry} {inClass : Bool} {stmt : Stmt} {group : List Stmt}

theorem stripped_of_isPlain (h : stmt.isPlain = true) : stmt.stripped = stmt := by
  cases stmt with
  | function => cases h
  | classDef => cases h
  | _ => rfl

/-- A statement without wrappers that is no class stays. -/
theorem rewrites_of_resolvesAny (hclass : stmt.isClass = false)
    (h : registry.resolvesAny (attributeExprs stmt) = false) :
    Rewrites registry inClass stmt group ↔ group = [stmt] := by
  have hnone := attachments_eq_nil_iff.2 h
  rw [rewrites_of_not_class hclass]
  constructor
  · rintro (⟨-, rfl⟩ | ⟨-, hreplaces⟩)
    · rfl
    · exact absurd hnone hreplaces.attachments_ne_nil
  · rintro rfl
    exact .inl ⟨fun _ => hnone, rfl⟩

/-- Statements other than definitions and annotated assignments stay, with all their blocks. -/
theorem rewrites_of_isPlain (h : stmt.isPlain = true) :
    Rewrites registry inClass stmt group ↔ group = [stmt] := by
  cases stmt with
  | function => cases h
  | classDef => cases h
  | annAssign => cases h
  | _ => exact rewrites_of_resolvesAny rfl rfl

/-- A statement that is no class stays as it is, or it is replaced as a whole. -/
theorem Rewrites.eq_or_replaces (h : Rewrites registry inClass stmt group)
    (hclass : stmt.isClass = false) :
    group = [stmt] ∨ inClass = true ∧ Replaces registry stmt group := by
  rcases (rewrites_of_not_class hclass).1 h with ⟨-, hgroup⟩ | hreplaces
  · exact .inl hgroup
  · exact .inr hreplaces

/-- Only one thing can take the place of a statement. -/
theorem Rewrites.unique {group' : List Stmt} (h : Rewrites registry inClass stmt group)
    (h' : Rewrites registry inClass stmt group') : group = group' := by
  have hresult := (forall₂_expandStmt_iff registry "" inClass [stmt] [group]).2 (.cons h .nil)
  have hresult' := (forall₂_expandStmt_iff registry "" inClass [stmt] [group']).2 (.cons h' .nil)
  rw [List.forall₂_cons] at hresult hresult'
  exact Except.ok.inj (hresult.1.symm.trans hresult'.1)

end Untouched

/-! ## Places in a module -/

/-- A class around a place in a module, with the statements beside the class. -/
structure Frame where
  line : Nat
  name : String
  bases : List Expr
  keywords : List Keyword
  decorators : List Expr
  before : List Stmt
  behind : List Stmt

/-- The body that a frame stands in, when its class has a given body. -/
def Frame.around (frame : Frame) (inner : List Stmt) : List Stmt :=
  frame.before ++ .classDef frame.line frame.name frame.bases frame.keywords inner frame.decorators
    :: frame.behind

/-- A body inside of some classes, the outermost first. -/
def nest (frames : List Frame) (inner : List Stmt) : List Stmt := frames.foldr Frame.around inner

/-- Whether the second pass keeps the class of a frame: it has no wrapper beside its mark. -/
def Frame.isKept (registry : Registry) (frame : Frame) : Bool :=
  !registry.resolvesAny (frame.decorators.eraseP isWrapperMark)

section Enclosed

variable {registry : Registry} {filename : String} {inClass : Bool} {inner tree : List Stmt}

/-- What both passes make of a class: they make it of the body, and if no wrapper is attached to the class,
the class stays around it. -/
theorem result_bothPasses_classDef {line : Nat} {name : String} {bases : List Expr}
    {keywords : List Keyword} {decorators : List Expr} {own : List Stmt}
    (h : (bothPasses registry filename inClass
      [.classDef line name bases keywords inner decorators]).result = .ok own) :
    ∃ inner', (bothPasses registry filename true inner).result = .ok inner'
      ∧ ((inClass = true → registry.resolvesAny (decorators.eraseP isWrapperMark) = false) →
        ∃ others, own = .classDef line name bases keywords inner' (decorators.eraseP isWrapperMark)
          :: others) := by
  obtain ⟨marked, hmarked, hown⟩ := result_bothPasses.1 h
  obtain ⟨first, others, hfirst, hothers, rfl, -⟩ := introspectBody_cons hmarked
  cases hothers
  rw [introspectStmt] at hfirst
  obtain ⟨inner₁, hinner₁, hmark, -⟩ := Trace.result_bind hfirst
  obtain ⟨config, -, rfl, -⟩ := exists_own_of_markStep (markStep_of_result hmark)
  obtain ⟨kept, others, hkept, -, rfl, -⟩ := expandBody_cons hown
  rw [withoutMark, expandStmt] at hkept
  obtain ⟨inner', hinner', hkept, -⟩ := Trace.result_bind hkept
  refine ⟨inner', result_bothPasses.2 ⟨inner₁, hinner₁, hinner'⟩, fun hnone => ⟨others, ?_⟩⟩
  cases inClass with
  | false =>
    cases hkept
    rfl
  | true =>
    dsimp only at hkept
    rw [if_pos rfl, expandMember_of_resolvesAny filename (hnone rfl)] at hkept
    cases hkept
    rfl

/-- What both passes make of a body in a frame. -/
theorem result_bothPasses_around {frame : Frame}
    (h : (bothPasses registry filename inClass (frame.around inner)).result = .ok tree) :
    ∃ inner', (bothPasses registry filename true inner).result = .ok inner'
      ∧ ((inClass = true → frame.isKept registry = true) →
        ∃ frame' : Frame, frame'.name = frame.name ∧ tree = frame'.around inner') := by
  rw [Frame.around, ← List.singleton_append, result_bothPasses_append] at h
  obtain ⟨front, rest, -, hrest, rfl⟩ := h
  obtain ⟨own, back, hown, -, rfl⟩ := result_bothPasses_append.1 hrest
  obtain ⟨inner', hinner', hclass⟩ := result_bothPasses_classDef hown
  refine ⟨inner', hinner', fun hkept => ?_⟩
  obtain ⟨others, rfl⟩ := hclass fun h => by simpa [Frame.isKept] using hkept h
  refine ⟨{ frame with
    decorators := frame.decorators.eraseP isWrapperMark
    before := front
    behind := others ++ back }, rfl, ?_⟩
  rw [Frame.around, List.cons_append]

/-- What both passes make of a body they make of it inside of the classes around it; the classes stay if no
wrapper is attached to them. At module level none is attached to the outermost one. -/
theorem result_bothPasses_nest {outer : Frame} {frames : List Frame}
    (h : (bothPasses registry filename inClass (nest (outer :: frames) inner)).result = .ok tree) :
    ∃ inner', (bothPasses registry filename true inner).result = .ok inner'
      ∧ ((inClass = true → outer.isKept registry = true) →
        (∀ frame ∈ frames, frame.isKept registry = true) →
        ∃ frames', frames'.map Frame.name = (outer :: frames).map Frame.name
          ∧ tree = nest frames' inner') := by
  induction frames generalizing outer inClass tree with
  | nil =>
    obtain ⟨inner', hinner', hkept⟩ := result_bothPasses_around h
    refine ⟨inner', hinner', fun houter _ => ?_⟩
    obtain ⟨frame, hname, rfl⟩ := hkept houter
    exact ⟨[frame], congrArg (fun name => [name]) hname, rfl⟩
  | cons next frames ih =>
    obtain ⟨body, hbody, hkept⟩ := result_bothPasses_around h
    obtain ⟨inner', hinner', hrest⟩ := ih hbody
    refine ⟨inner', hinner', fun houter hframes => ?_⟩
    obtain ⟨hnext, hframes⟩ := List.forall_mem_cons.1 hframes
    obtain ⟨frame, hname, rfl⟩ := hkept houter
    obtain ⟨frames', hnames, rfl⟩ := hrest (fun _ => hnext) hframes
    exact ⟨frame :: frames', congrArg₂ List.cons hname hnames, rfl⟩

end Enclosed

/-! ## Siblings -/

/-- A place for a statement in a class body: the classes around it, the outermost one at module level, and
the other statements of the body. -/
structure Gap where
  outer : Frame
  frames : List Frame
  before : List Stmt
  behind : List Stmt

namespace Gap

/-- The module with a statement in a gap. -/
def fill (gap : Gap) (stmt : Stmt) : List Stmt :=
  nest (gap.outer :: gap.frames) (gap.before ++ stmt :: gap.behind)

/-- The names of the classes around a gap. -/
def path (gap : Gap) : List String := (gap.outer :: gap.frames).map Frame.name

/-- Two expanded modules with different statements in a gap agree on what becomes of the other statements
of its class body. If the classes around it stay, the body is inside of them in both modules. -/
def KeepsSiblings (gap : Gap) (registry : Registry) (filename : String) (stmt stmt' : Stmt)
    (tree tree' : List Stmt) : Prop :=
  ∃ front own own' back, (bothPasses registry filename true gap.before).result = .ok front
    ∧ (bothPasses registry filename true [stmt]).result = .ok own
    ∧ (bothPasses registry filename true [stmt']).result = .ok own'
    ∧ (bothPasses registry filename true gap.behind).result = .ok back
    ∧ ((∀ frame ∈ gap.frames, frame.isKept registry = true) → ∃ around around',
      around.map Frame.name = gap.path ∧ tree = nest around (front ++ own ++ back)
        ∧ around'.map Frame.name = gap.path ∧ tree' = nest around' (front ++ own' ++ back))

/-- What both passes make of a module with a statement in a gap. -/
theorem result_bothPasses_fill {registry : Registry} {filename : String} {gap : Gap} {stmt : Stmt}
    {tree : List Stmt} (h : (bothPasses registry filename false (gap.fill stmt)).result = .ok tree) :
    ∃ front own back, (bothPasses registry filename true gap.before).result = .ok front
      ∧ (bothPasses registry filename true [stmt]).result = .ok own
      ∧ (bothPasses registry filename true gap.behind).result = .ok back
      ∧ ((∀ frame ∈ gap.frames, frame.isKept registry = true) → ∃ around,
        around.map Frame.name = gap.path ∧ tree = nest around (front ++ own ++ back)) := by
  obtain ⟨body, hbody, hkept⟩ := result_bothPasses_nest h
  rw [← List.singleton_append, result_bothPasses_append] at hbody
  obtain ⟨front, rest, hfront, hrest, rfl⟩ := hbody
  obtain ⟨own, back, hown, hback, rfl⟩ := result_bothPasses_append.1 hrest
  rw [← List.append_assoc] at hkept
  exact ⟨front, own, back, hfront, hown, hback, hkept nofun⟩

/-- Another statement in a gap leaves its siblings alone, if it leaves alone what references resolve to
after the first pass. -/
theorem keepsSiblings_of_expandTree {registry : Registry} {filename : String} {gap : Gap}
    {stmt stmt' : Stmt} {tree tree' : List Stmt}
    (hresolve : (registry.afterFirst filename (gap.fill stmt)).resolve
      = (registry.afterFirst filename (gap.fill stmt')).resolve)
    (h : (expandTree registry filename (gap.fill stmt)).result = .ok tree)
    (h' : (expandTree registry filename (gap.fill stmt')).result = .ok tree') :
    gap.KeepsSiblings (registry.afterFirst filename (gap.fill stmt)) filename stmt stmt' tree
      tree' := by
  -- Both modules are expanded with the same registry.
  rw [expandTree_eq_bothPasses] at h
  rw [expandTree_eq_bothPasses, ← bothPasses_congr hresolve] at h'
  obtain ⟨front, own, back, hfront, hown, hback, hkept⟩ := result_bothPasses_fill h
  obtain ⟨front', own', back', hfront', hown', hback', hkept'⟩ := result_bothPasses_fill h'
  obtain rfl := Except.ok.inj (hfront.symm.trans hfront')
  obtain rfl := Except.ok.inj (hback.symm.trans hback')
  refine ⟨front, own, own', back, hfront, hown, hown', hback, fun hframes => ?_⟩
  obtain ⟨around, hpath, htree⟩ := hkept hframes
  obtain ⟨around', hpath', htree'⟩ := hkept' hframes
  exact ⟨around, around', hpath, htree, hpath', htree'⟩

end Gap

/-! ## All that is left alone -/

/-- What an expansion with a registry leaves alone in the modules of a file. -/
structure TouchesNothingElse (registry : Registry) (filename : String) : Prop where
  /-- Without the configurations that the first pass inserts, the module has only lost the first mark of
  each definition that is reached. -/
  first : ∀ body marked, (introspectBody filename body).result = .ok marked →
    Inserts (bodyStripped body) ((introspectBody filename body).events.filterMap Event.config?) marked
  /-- The second pass goes over what the first one leaves, with the registry after the first pass. -/
  passes : ∀ body marked, (introspectBody filename body).result = .ok marked →
    (expandTree registry filename body).result
      = (expandBody (registry.afterFirst filename body) filename false marked).result
  /-- The second pass over a body puts what takes the place of its statements one behind the other. -/
  second : ∀ extended inClass body tree, (expandBody extended filename inClass body).result = .ok tree
    ↔ ∃ groups, List.Forall₂ (Rewrites extended inClass) body groups ∧ tree = groups.flatten
  /-- What takes the place of a statement follows from the statement, its level and the registry. -/
  unique : ∀ extended inClass stmt group group', Rewrites extended inClass stmt group →
    Rewrites extended inClass stmt group' → group = group'
  /-- Statements other than definitions and annotated assignments stay, with all their blocks. -/
  plain : ∀ extended inClass stmt, stmt.isPlain = true → stmt.stripped = stmt
    ∧ ∀ group, Rewrites extended inClass stmt group ↔ group = [stmt]
  /-- A function keeps its body, if no wrapper on it makes it be replaced as a whole. -/
  function : ∀ extended inClass line isAsync name params body decorators returns group,
    (Stmt.function line isAsync name params body decorators returns).stripped
        = .function line isAsync name params body (decorators.eraseP isWrapperMark) returns
      ∧ (Rewrites extended inClass (.function line isAsync name params body decorators returns) group →
        group = [.function line isAsync name params body decorators returns]
          ∨ inClass = true ∧ extended.resolvesAny decorators = true)
  /-- Another statement in a class body leaves alone what becomes of the rest of the body, if it leaves
  alone what references resolve to after the first pass. -/
  siblings : ∀ (gap : Gap) (stmt stmt' : Stmt) (tree tree' : List Stmt),
    (registry.afterFirst filename (gap.fill stmt)).resolve
      = (registry.afterFirst filename (gap.fill stmt')).resolve →
    (expandTree registry filename (gap.fill stmt)).result = .ok tree →
    (expandTree registry filename (gap.fill stmt')).result = .ok tree' →
    gap.KeepsSiblings (registry.afterFirst filename (gap.fill stmt)) filename stmt stmt' tree tree'

/-- A function with a wrapper is replaced as a whole, and any other stays. -/
theorem rewrites_function {registry : Registry} {inClass : Bool} {line : Nat} {isAsync : Bool}
    {name : String} {params : Parameters} {body : List Stmt} {decorators : List Expr}
    {returns : Option Expr} {group : List Stmt}
    (h : Rewrites registry inClass (.function line isAsync name params body decorators returns) group) :
    group = [.function line isAsync name params body decorators returns]
      ∨ inClass = true ∧ registry.resolvesAny decorators = true := by
  rcases h.eq_or_replaces rfl with hgroup | ⟨hclass, hreplaces⟩
  · exact .inl hgroup
  · refine .inr ⟨hclass, ?_⟩
    rw [← Bool.not_eq_false]
    exact fun hnone => hreplaces.attachments_ne_nil (attachments_eq_nil_iff.2 hnone)

/-- An expansion touches marks and statements of class bodies with wrappers, and nothing else. -/
theorem expansion_touches_nothing_else (registry : Registry) (filename : String) :
    TouchesNothingElse registry filename where
  first body marked h := inserts_of_introspects (introspects_of_result body h)
  passes body marked h := by
    rw [expandTree_eq_bothPasses, bothPasses, Trace.bind_of_ok h]
  second extended inClass body tree := result_expandBody_iff
  unique extended inClass stmt group group' := Rewrites.unique
  plain extended inClass stmt h := ⟨stripped_of_isPlain h, fun group => rewrites_of_isPlain h⟩
  function extended inClass line isAsync name params body decorators returns group :=
    ⟨rfl, rewrites_function⟩
  siblings gap stmt stmt' tree tree' := Gap.keepsSiblings_of_expandTree

/-! ## An instance -/

/-- An annotation of a target with the wrapper of the sole registry. -/
def annotatedAt (line column : Nat) (target : Expr) (bare : Bool) : Stmt :=
  .annAssign line target (.subscript ⟨line, column⟩ (.name ⟨line, column⟩ "Annotated")
    (.tuple ⟨line, column + 10⟩ [.name ⟨line, column + 10⟩ "int", .name ⟨line, column + 15⟩ "E"])) none bare

/-- The gap behind a property of a class, in front of an empty statement. -/
def behindProperty : Gap where
  outer :=
    { line := 1, name := "A", bases := [], keywords := [], decorators := [], before := [], behind := [] }
  frames := []
  before := [annotatedAt 2 7 (.name ⟨2, 4⟩ "x") true]
  behind := [.pass 4]

/-- A property that can be expanded. -/
def plainProperty : Stmt := annotatedAt 3 7 (.name ⟨3, 4⟩ "y") true

/-- A property that cannot be expanded, because its target is no name. -/
def failingProperty : Stmt := annotatedAt 3 9 (.attribute ⟨3, 4⟩ (.name ⟨3, 4⟩ "a") "y") false

/-- The names of what both passes make of a class body. -/
def namesAfterPasses (registry : Registry) (body : List Stmt) : Option (List String) :=
  (bothPasses registry "m.py" true body).result.toOption.map fun tree => tree.map Stmt.name

theorem passes_behindProperty :
    (expandTree soleWrapper "m.py" (behindProperty.fill plainProperty)).result.toOption.isSome = true
      ∧ (expandTree soleWrapper "m.py" (behindProperty.fill failingProperty)).result.toOption.isSome = true
      ∧ namesAfterPasses soleWrapper behindProperty.before = some ["x", "_x"]
      ∧ namesAfterPasses soleWrapper [plainProperty] = some ["y", "_y"]
      ∧ namesAfterPasses soleWrapper [failingProperty] = some ["y"]
      ∧ namesAfterPasses soleWrapper behindProperty.behind = some ["pass"] := by
  have hbody : expandBody soleWrapper "m.py" true = Direct.expandBody soleWrapper "m.py" true :=
    funext fun body => Direct.expandBody_eq soleWrapper "m.py" true body
  simp only [namesAfterPasses, bothPasses, Direct.expandTree_eq, hbody]
  decide +kernel

theorem map_name_of_namesAfterPasses {registry : Registry} {body tree : List Stmt} {names : List String}
    (h : namesAfterPasses registry body = some names)
    (htree : (bothPasses registry "m.py" true body).result = .ok tree) : tree.map Stmt.name = names := by
  rw [namesAfterPasses, htree] at h
  exact Option.some.inj h

/-- The property beside one that fails is expanded as it is beside one that does not. -/
theorem touches_nothing_else_behindProperty :
    ∃ around around' front own own' back,
      (expandTree soleWrapper "m.py" (behindProperty.fill plainProperty)).result
          = .ok (nest around (front ++ own ++ back))
        ∧ (expandTree soleWrapper "m.py" (behindProperty.fill failingProperty)).result
          = .ok (nest around' (front ++ own' ++ back))
        ∧ around.map Frame.name = ["A"] ∧ around'.map Frame.name = ["A"]
        ∧ front.map Stmt.name = ["x", "_x"] ∧ own.map Stmt.name = ["y", "_y"]
        ∧ own'.map Stmt.name = ["y"] ∧ back.map Stmt.name = ["pass"] := by
  obtain ⟨hsome, hsome', hbefore, hplain, hfailing, hbehind⟩ := passes_behindProperty
  obtain ⟨tree, htree⟩ := Option.isSome_iff_exists.1 hsome
  obtain ⟨tree', htree'⟩ := Option.isSome_iff_exists.1 hsome'
  have htree := eq_ok_of_toOption htree
  have htree' := eq_ok_of_toOption htree'
  -- Nothing is marked, so the registry stays as it was.
  obtain ⟨front, own, own', back, hfront, hown, hown', hback, hnested⟩ :=
    (expansion_touches_nothing_else soleWrapper "m.py").siblings behindProperty plainProperty
      failingProperty tree tree' rfl htree htree'
  obtain ⟨around, around', hpath, rfl, hpath', rfl⟩ := hnested nofun
  exact ⟨around, around', front, own, own', back, htree, htree', hpath, hpath',
    map_name_of_namesAfterPasses hbefore hfront, map_name_of_namesAfterPasses hplain hown,
    map_name_of_namesAfterPasses hfailing hown', map_name_of_namesAfterPasses hbehind hback⟩

end PropertyWrapper
