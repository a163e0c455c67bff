import PropertyWrapper.Proofs.Expansion.Agreement

/-!
# What a synthesis gives

A synthesis succeeds exactly for a member with one plain name. What it gives then is a storage and the
accessors that forward to it; for any other target it gives one getter that keeps the place.

* `Target.IsSingle` : the target is a member that one plain name is bound to;
* `Forwards` : accessors of a property that forward to a member of a storage;
* `Wraps` : the declarations of a wrapped property;
* `KeepsPlace` : the declarations of a target that cannot be wrapped;
* `hasErrors_expandProperty` : a context learns of a problem where the place is kept;
* `synthesize_contract` : which of them a synthesis gives for a target.
-/

namespace PropertyWrapper

/-! ## Targets -/

namespace Target

/-- The target is a member whose only pattern is a plain name. -/
def IsSingle (target : Target) (member : Member) (identifier : String) : Prop :=
  target = .member member ∧ member.patterns = [.identifier identifier]

theorem single?_eq_some_iff {target : Target} {member : Member} {identifier : String} :
    target.single? = some (member, identifier) ↔ target.IsSingle member identifier := by
  constructor
  · intro h
    cases target with
    | declaration => cases h
    | member field =>
      rw [single?] at h
      split at h
      case h_1 name hpatterns =>
        cases h
        exact ⟨rfl, hpatterns⟩
      case h_2 => cases h
  · rintro ⟨rfl, hpatterns⟩
    rw [single?, hpatterns]

/-- The name that stands for a target when it cannot be wrapped: a declaration has its own name, a member
that of the first pattern with a name in it, or an underscore. -/
def IsShownAs : Target → String → Prop
  | .declaration definition, name => name = definition.name
  | .member field, name =>
    (∃ before pattern behind, field.patterns = before ++ pattern :: behind
      ∧ (∀ other ∈ before, other.firstName? = none) ∧ pattern.firstName? = some name)
    ∨ (∀ pattern ∈ field.patterns, pattern.firstName? = none) ∧ name = "_"

theorem isShownAs_displayName (target : Target) : target.IsShownAs target.displayName := by
  cases target with
  | declaration definition => rfl
  | member field =>
    rw [displayName, Member.displayName]
    cases hname : field.patterns.findSome? (·.firstName?) with
    | none => exact .inr ⟨List.findSome?_eq_none_iff.1 hname, rfl⟩
    | some name =>
      obtain ⟨before, pattern, behind, hpatterns, hpattern, hbefore⟩ :=
        List.findSome?_eq_some_iff.1 hname
      exact .inl ⟨before, pattern, behind, hpatterns, hbefore, hpattern⟩

end Target

/-! ## Declarations -/

/-- The accessors of a property are a getter and, if there is to be one, a setter behind it, and each of them
forwards to a member of a storage. -/
structure Forwards (accessors : List Accessor) (property storage member : String) (type : Option Text.LooseText)
    (isSettable : Bool) : Prop where
  kinds : accessors.map (·.kind) = .get :: if isSettable then [.set] else []
  forwards : ∀ accessor ∈ accessors, accessor.property = property ∧ accessor.storage = some storage
    ∧ accessor.member = some member ∧ accessor.type = type

/-- The declarations of a wrapped property: a storage, the accessors of the property and, if the wrapper has
a projected value, the projection. -/
structure Wraps (config : WrapperConfig) (member : Member) (identifier : String)
    (declarations : Declarations) (storage : Storage) (projected : Option ComputedProperty) : Prop where
  /-- The storage comes first and is the only one. -/
  peers : declarations.peers = .storage storage :: (projected.map Peer.property).toList
  name : storage.name = storageName identifier
  /-- Nothing forwards to anything else. -/
  forwards : ∀ accessor ∈ declarations.allAccessors, accessor.storage = some storage.name
  accessors : Forwards declarations.accessors identifier storage.name wrappedValue (member.type.map .whole)
    config.wrappedIsSettable
  projects : projected.isSome = config.projectedType.isSome
  projection : ∀ computed ∈ projected, computed.name = projectedName identifier
    ∧ computed.type = config.projectedType
    ∧ Forwards computed.accessors computed.name storage.name projectedValue config.projectedType
      config.projectedIsSettable

/-- The declarations of a target that cannot be wrapped: a getter of a name that forwards to nothing. -/
structure KeepsPlace (declarations : Declarations) (name : String) : Prop where
  peers : declarations.peers = []
  accessors : ∃ accessor, declarations.accessors = [accessor] ∧ accessor.kind = .get
    ∧ accessor.property = name ∧ accessor.isPlaceholder = true

theorem forwards_forwarding (property storage member : String) (type : Option Text.LooseText)
    (isSettable : Bool) :
    Forwards (forwarding property storage member type isSettable) property storage member type
      isSettable := by
  cases isSettable with
  | false => constructor <;> simp [forwarding]
  | true => constructor <;> simp [forwarding]

theorem Wraps.isPlaceholder {config : WrapperConfig} {member : Member} {identifier : String}
    {declarations : Declarations} {storage : Storage} {projected : Option ComputedProperty}
    (h : Wraps config member identifier declarations storage projected) :
    declarations.isPlaceholder = false := by
  rw [Declarations.isPlaceholder, h.peers]
  rfl

theorem KeepsPlace.isPlaceholder {declarations : Declarations} {name : String}
    (h : KeepsPlace declarations name) : declarations.isPlaceholder = true := by
  obtain ⟨accessor, haccessors, -, -, haccessor⟩ := h.accessors
  simp [Declarations.isPlaceholder, h.peers, haccessors, haccessor]

theorem keepsPlace_placeholder (target : Target) : KeepsPlace (placeholder target) target.displayName :=
  ⟨rfl, _, rfl, rfl, rfl, rfl⟩

/-- What is generated for a member with one plain name are the declarations of a wrapped property. -/
theorem wraps_wrappedDeclarations (config : WrapperConfig) (attr : Attribute) (member : Member)
    (identifier : String) :
    ∃ storage, Wraps config member identifier (wrappedDeclarations config attr member identifier) storage
      (projection config identifier) := by
  refine ⟨_, rfl, rfl, ?forwards, forwards_forwarding _ _ _ _ _, ?projects, ?projection⟩
  case projects => exact Option.isSome_map
  case projection =>
    intro computed hcomputed
    obtain ⟨type, htype, rfl⟩ := Option.map_eq_some_iff.1 hcomputed
    rw [htype]
    exact ⟨rfl, rfl, forwards_forwarding _ _ _ _ _⟩
  case forwards =>
    intro accessor haccessor
    rcases List.mem_append.1 haccessor with haccessor | haccessor
    · exact ((forwards_forwarding _ _ _ _ _).forwards accessor haccessor).2.1
    · obtain ⟨peer, hpeer, haccessor⟩ := List.mem_flatMap.1 haccessor
      cases peer with
      | storage => cases haccessor
      | property computed =>
        have hcomputed := (mem_peers_wrappedDeclarations identifier).1 hpeer
        obtain ⟨type, -, rfl⟩ := Option.map_eq_some_iff.1 hcomputed
        exact ((forwards_forwarding _ _ _ _ _).forwards accessor haccessor).2.1

/-! ## Outcomes -/

/-- A synthesis that reports no problem. -/
def Synthesis.isOk (synthesis : Synthesis) : Bool := synthesis.diagnostic.isNone

section Outcome

variable {target : Target}

theorem synthesize_of_isSingle (config : WrapperConfig) (attr : Attribute) {member : Member}
    {identifier : String} (h : target.IsSingle member identifier) :
    synthesize config attr target
      = { declarations := wrappedDeclarations config attr member identifier } := by
  rw [synthesize, Target.single?_eq_some_iff.2 h]

theorem synthesize_of_not_isSingle (config : WrapperConfig) (attr : Attribute)
    (h : ¬ ∃ member identifier, target.IsSingle member identifier) :
    synthesize config attr target = {
      declarations := placeholder target
      diagnostic := Diagnostic.at? .unexpectedTarget (some attr) } := by
  have hsingle : target.single? = none := by
    rw [Option.eq_none_iff_forall_ne_some]
    rintro ⟨member, identifier⟩ hsome
    exact h ⟨member, identifier, Target.single?_eq_some_iff.1 hsome⟩
  rw [synthesize, hsingle]

end Outcome

/-- A context has errors behind a property if it had some before or the property only keeps its place. -/
theorem hasErrors_expandProperty (context : Context) (config : WrapperConfig) (attr : Attribute)
    (target : Target) :
    (context.expandProperty config attr target).1.hasErrors
      = (context.hasErrors || (context.expandProperty config attr target).2.isPlaceholder) := by
  by_cases h : ∃ member identifier, target.IsSingle member identifier
  · obtain ⟨member, identifier, htarget⟩ := h
    obtain ⟨storage, hwraps⟩ := wraps_wrappedDeclarations config attr member identifier
    rw [Context.expandProperty, synthesize_of_isSingle config attr htarget]
    simp [hwraps.isPlaceholder]
  · have hkeeps := keepsPlace_placeholder target
    rw [Context.expandProperty, synthesize_of_not_isSingle config attr h]
    simp [Context.hasErrors, Context.diagnose, Diagnostic.at?, hkeeps.isPlaceholder]

/-- A synthesis succeeds exactly for a member with one plain name, and then gives the declarations of a
wrapped property and leaves the context as it is. For any other target it gives a getter that keeps the
place, and the context learns of one problem. So the declarations only keep a place exactly if the synthesis
fails. -/
theorem synthesize_contract (config : WrapperConfig) (attr : Attribute) (target : Target) :
    let synthesis := synthesize config attr target
    (synthesis.isOk = true ↔ ∃ member identifier, target.IsSingle member identifier) ∧
      (synthesis.declarations.isPlaceholder = true ↔ synthesis.isOk = false) ∧
      (∀ member identifier, target.IsSingle member identifier →
        (∃ storage projected,
          Wraps config member identifier synthesis.declarations storage projected) ∧
        ∀ context : Context,
          context.expandProperty config attr target = (context, synthesis.declarations)) ∧
      ((¬ ∃ member identifier, target.IsSingle member identifier) →
        (∃ name, target.IsShownAs name ∧ KeepsPlace synthesis.declarations name) ∧
        ∀ context : Context, ∃ diagnostic : Diagnostic,
          diagnostic.problem = .unexpectedTarget ∧ diagnostic.attributeName = some attr.name ∧
          context.expandProperty config attr target
            = ({ context with diagnostics := context.diagnostics ++ [diagnostic] },
              synthesis.declarations)) := by
  intro synthesis
  by_cases h : ∃ member identifier, target.IsSingle member identifier
  · have hsynthesis : ∀ member identifier, target.IsSingle member identifier →
        synthesis = { declarations := wrappedDeclarations config attr member identifier } :=
      fun member identifier => synthesize_of_isSingle config attr
    have hok : synthesis.isOk = true := by
      obtain ⟨member, identifier, htarget⟩ := h
      rw [hsynthesis member identifier htarget]
      rfl
    have hplaceholder : synthesis.declarations.isPlaceholder = false := by
      obtain ⟨member, identifier, htarget⟩ := h
      obtain ⟨storage, hwraps⟩ := wraps_wrappedDeclarations config attr member identifier
      rw [hsynthesis member identifier htarget, hwraps.isPlaceholder]
    refine ⟨iff_of_true hok h, by simp [hok, hplaceholder], ?_, fun hnot => absurd h hnot⟩
    intro member identifier htarget
    obtain ⟨storage, hwraps⟩ := wraps_wrappedDeclarations config attr member identifier
    rw [hsynthesis member identifier htarget]
    refine ⟨⟨storage, _, hwraps⟩, fun context => ?_⟩
    rw [Context.expandProperty, synthesize_of_isSingle config attr htarget]
    rfl
  · have hsynthesis := synthesize_of_not_isSingle config attr h
    have hkeeps := keepsPlace_placeholder target
    have hok : synthesis.isOk = false := by
      rw [show synthesis = _ from hsynthesis]
      rfl
    have hplaceholder : synthesis.declarations.isPlaceholder = true := by
      rw [show synthesis = _ from hsynthesis, hkeeps.isPlaceholder]
    refine ⟨iff_of_false (by simp [hok]) h, by simp [hok, hplaceholder], ?_, fun _ => ?_⟩
    · intro member identifier htarget
      exact absurd ⟨member, identifier, htarget⟩ h
    · rw [show synthesis = _ from hsynthesis]
      refine ⟨⟨_, target.isShownAs_displayName, hkeeps⟩, fun context => ?_⟩
      refine ⟨(Diagnostic.at? .unexpectedTarget (some attr)).inFile context.filename, rfl, rfl, ?_⟩
      rw [Context.expandProperty, hsynthesis]
      rfl

end PropertyWrapper
