import PropertyWrapper.Lifting.Pattern
import PropertyWrapper.Lifting.Reference

/-!
# Members of a class body

Each assignment of a class body is a member, and so is each computed property. A computed property
gathers the accessors that later functions add to it. The attributes that an initializer assigns on
its receiver are members too, unless the class body already declares their names.
-/

namespace PropertyWrapper

open Source

/-! ## Immutable annotations -/

/-- What an annotation marked as final says about the type: the marked type, or nothing if the mark
stands alone. An annotation without the mark has no such type. The mark may stand inside annotations
of class variables. -/
def finalType? : Expr → Option (Option Expr)
  | .subscript _ value index =>
    if refersTo (dottedName value) ["Final"] then some (some index)
    else if refersTo (dottedName value) ["ClassVar"] then finalType? index
    else none
  | e => if refersTo (dottedName e) ["Final"] then some none else none

/-- Whether an annotation is final, and the text of the type that remains. -/
def unwrapFinal (hint : Expr) : Except PrintError (Bool × Option String) :=
  match finalType? hint with
  | some type => (true, ·) <$> type.mapM Expr.text
  | none => (false, some ·) <$> hint.text

/-- The binding of a member that is immutable under a condition. -/
def bindingIf (isImmutable : Bool) : Binding := if isImmutable then .immutable else .mutable

/-! ## Assignments -/

/-- The member of an annotated assignment. In a frozen class it is immutable unless it is a class
variable. -/
def liftAnnotated (frozen : Bool) (line : Nat) (target hint : Expr) (value : Option Expr) :
    Except PrintError Member := do
  let (isFinal, type) ← unwrapFinal hint
  let isField := frozen && !refersTo (headName hint) ["ClassVar"]
  return {
    patterns := [← liftPattern target]
    binding := bindingIf (isFinal || isField)
    type
    initializer := ← value.mapM Expr.text
    line }

/-- The accessors of a computed property that is built by a call. -/
def builtAccessors? : Expr → Option (List AccessorKind)
  | .call _ func args keywords =>
    if refersTo (dottedName func) ["property"] then
      if 2 ≤ args.length || keywords.any (·.name = some "fset") then some [.get, .set]
      else some [.get]
    else none
  | _ => none

/-- The member of a plain assignment. -/
def liftAssigned (line : Nat) (targets : List Expr) (value : Expr) : Except PrintError Member := do
  let patterns ← targets.mapM liftPattern
  match builtAccessors? value with
  | some accessors => return { patterns, accessors := some accessors, line }
  | none => return { patterns, initializer := some (← value.text), line }

/-! ## Attributes of the receiver -/

mutual

/-- A statement followed by the statements of its blocks. Definitions are not entered, nor are the
cases of a `match`. -/
def Source.Stmt.flattened : Stmt → List Stmt
  | .loop line isAsync target iterable body orelse =>
    .loop line isAsync target iterable body orelse :: flattenedBlock body ++ flattenedBlock orelse
  | .whileLoop line test body orelse =>
    .whileLoop line test body orelse :: flattenedBlock body ++ flattenedBlock orelse
  | .branch line test body orelse =>
    .branch line test body orelse :: flattenedBlock body ++ flattenedBlock orelse
  | .withBlock line isAsync items body =>
    .withBlock line isAsync items body :: flattenedBlock body
  | .tryBlock line isGroup body handlers orelse final =>
    .tryBlock line isGroup body handlers orelse final
      :: flattenedBlock body ++ flattenedBlock orelse ++ flattenedBlock final
        ++ flattenedHandlers handlers
  | stmt => [stmt]

/-- The statements of a block, each followed by the statements of its own blocks. -/
def flattenedBlock : List Stmt → List Stmt
  | [] => []
  | stmt :: rest => stmt.flattened ++ flattenedBlock rest

/-- The statements of the handlers of a `try`. -/
def flattenedHandlers : List Handler → List Stmt
  | [] => []
  | handler :: rest => handler.flattened ++ flattenedHandlers rest

/-- The statements of a handler. -/
def Source.Handler.flattened : Handler → List Stmt
  | .mk _ _ body => flattenedBlock body

end

/-- The attribute of a receiver that a target is. -/
def receiverAttribute? (receiver : String) : Expr → Option String
  | .attribute _ (.name _ id) attr => if id = receiver then some attr else none
  | _ => none

/-- The stored member of an attribute that is assigned on a receiver. -/
def storedMember (name : String) (line : Nat) (isFinal : Bool) (type initializer : Option String) :
    Member where
  patterns := [.identifier name]
  binding := bindingIf isFinal
  type
  initializer
  line

/-- The members that one statement creates on a receiver. -/
def receiverMembers (receiver : String) : Stmt → Except PrintError (List Member)
  | .annAssign line target hint value _ =>
    match receiverAttribute? receiver target with
    | none => .ok []
    | some name => do
      let (isFinal, type) ← unwrapFinal hint
      return [storedMember name line isFinal type (← value.mapM Expr.text)]
  | .assign line targets value => do
    let names := targets.filterMap (receiverAttribute? receiver)
    names.mapM fun name => return storedMember name line false none (some (← value.text))
  | _ => .ok []

/-- The stored members that a function creates on its first positional parameter, in the order of
its statements. -/
def liftInstanceMembers (params : Parameters) (body : List Stmt) :
    Except PrintError (List Member) :=
  match params.positional with
  | [] => .ok []
  | receiver :: _ =>
    List.flatten <$> (flattenedBlock body).mapM (receiverMembers receiver.name)

/-! ## Computed properties -/

/-- What a decorated function contributes to the members of its class. -/
inductive FunctionRole where
  /-- The getter of a new computed property. -/
  | getter
  /-- A stored value that is computed on first use and can be assigned. -/
  | cached
  /-- A further accessor of an earlier computed property. -/
  | companion (owner : String) (kind : AccessorKind)
deriving DecidableEq, Repr

/-- The accessor kind that a companion of a computed property adds. -/
def companionKind? (word : String) : Option AccessorKind :=
  if word = "getter" then some .get
  else if word = "setter" then some .set
  else if word = "deleter" then some .delete
  else none

/-- The role that a decorator gives to a function after the given computed properties. -/
def decoratorRole? (properties : List String) (decorator : Expr) : Option FunctionRole :=
  (referenceName decorator).bind fun name =>
    if name = "property" || name = "builtins.property" then some .getter
    else if lastComponent name = "cached_property" then some .cached
    else if properties.contains (qualifier name) then
      (companionKind? (lastComponent name)).map (.companion (qualifier name))
    else none

/-- A member of a class body; a computed property can still get accessors. -/
structure Slot where
  member : Member
  isProperty : Bool
deriving DecidableEq, Repr

namespace Slot

/-- The name of the computed property in a slot. -/
def property? (slot : Slot) : Option String :=
  if slot.isProperty then some slot.member.displayName else none

/-- A computed property with one more accessor, which also decides the type if it has one. -/
def extended (kind : AccessorKind) (type : Option String) (slot : Slot) : Slot :=
  let accessors := slot.member.accessors.getD []
  { slot with
    member := { slot.member with
      accessors := some (if accessors.contains kind then accessors else accessors ++ [kind])
      type := type <|> slot.member.type } }

end Slot

/-- Slots, latest first, after the latest computed property of a name got one more accessor. -/
def extendProperty (owner : String) (kind : AccessorKind) (type : Option String) :
    List Slot → List Slot
  | [] => []
  | slot :: slots =>
    if slot.property? = some owner then slot.extended kind type :: slots
    else slot :: extendProperty owner kind type slots

/-- Slots, latest first, after a function. -/
def liftFunction (slots : List Slot) (line : Nat) (name : String) (decorators : List Expr)
    (returns : Option Expr) : Except PrintError (List Slot) := do
  let properties := slots.filterMap (·.property?)
  match decorators.findSome? (decoratorRole? properties) with
  | none => return slots
  | some .getter =>
    let type ← returns.mapM Expr.text
    let member : Member := { patterns := [.identifier name], accessors := some [.get], type, line }
    return { member, isProperty := true } :: slots
  | some .cached =>
    let type ← returns.mapM Expr.text
    let member : Member := { patterns := [.identifier name], type, line }
    return { member, isProperty := false } :: slots
  | some (.companion owner kind) =>
    let type ← if kind = .get then returns.mapM Expr.text else pure none
    return extendProperty owner kind type slots

/-- Slots, latest first, after one statement of a class body. -/
def liftStatement (frozen : Bool) (slots : List Slot) : Stmt → Except PrintError (List Slot)
  | .annAssign line target hint value _ => do
    return { member := ← liftAnnotated frozen line target hint value, isProperty := false } :: slots
  | .assign line targets value => do
    return { member := ← liftAssigned line targets value, isProperty := false } :: slots
  | .function line _ name _ _ decorators returns => liftFunction slots line name decorators returns
  | _ => .ok slots

/-! ## Class bodies -/

/-- The members that a class body declares itself, in source order. -/
def liftDeclared (frozen : Bool) (body : List Stmt) : Except PrintError (List Member) := do
  let slots ← body.foldlM (liftStatement frozen) []
  return slots.reverse.map (·.member)

/-- The members that a statement creates on instances if it is an initializer. -/
def initializerMembers : Stmt → Except PrintError (List Member)
  | .function _ _ name params body _ _ =>
    if name = "__init__" then liftInstanceMembers params body else .ok []
  | _ => .ok []

/-- The members whose names are not yet declared, each name once. -/
def undeclared (declared : List String) : List Member → List Member
  | [] => []
  | member :: rest =>
    if declared.contains member.displayName then undeclared declared rest
    else member :: undeclared (member.displayName :: declared) rest

/-- The members of a class body: those that it declares, then those of its initializers. -/
def liftMembers (frozen : Bool) (body : List Stmt) : Except PrintError (List Member) := do
  let declared ← liftDeclared frozen body
  let created := (← body.mapM initializerMembers).flatten
  return declared ++ undeclared (declared.flatMap (·.identifiers)) created

end PropertyWrapper
