import PropertyWrapper.Example.Wrapper

/-!
# Projections over a history

The two attributes of an example wrapper are read and assigned in any order. What its projection gives
follows from the history: one class gives the hash of the value that is held, the other one the value that
was assigned to the projection last or, without one, the hash of the value that was held when the projection
was first read with success.

* `latest?`, `held`, `firstHash?` : what a history says about the attributes;
* `WrapperObject.after` : the wrapper after a history;
* `projectionOf` : the projection of a value, by how values are hashed;
* `Recomputes`, `Remembers` : the states of wrappers of the two classes;
* `Recomputes.accessed`, `Remembers.accessed` : what one access does to a state;
* `projection_follows_history` : what the projection gives after any history.
-/

namespace PropertyWrapper

open Document

/-! ## Histories -/

/-- The attributes of an example wrapper that are read and assigned. -/
inductive ExampleAttribute where
  | wrapped
  | projected
deriving DecidableEq, Repr

/-- The name of an attribute. -/
def ExampleAttribute.name : ExampleAttribute → String
  | .wrapped => wrappedValue
  | .projected => projectedValue

/-- One access to an attribute of a wrapper of values of a type. -/
inductive Access (α : Type) where
  | read (attr : ExampleAttribute)
  | assign (attr : ExampleAttribute) (value : α)

section Histories

variable {α : Type}

/-- The value that an access assigns to an attribute. -/
def Access.assigned? (attr : ExampleAttribute) : Access α → Option α
  | .read _ => none
  | .assign other value => if other = attr then some value else none

/-- The value that was assigned to an attribute last. -/
def latest? (attr : ExampleAttribute) : List (Access α) → Option α
  | [] => none
  | access :: rest => (latest? attr rest).or (access.assigned? attr)

/-- The wrapped value after a history that starts with an initial value. -/
def held (initial : α) (history : List (Access α)) : α := (latest? .wrapped history).getD initial

/-- The hash that an access computes from the value that is held: a read of the projection computes it if
there is one. -/
def Access.computed? (hashing : Hashing α) (value : α) : Access α → Option Int
  | .read .projected => (hashing.hash value).toOption
  | _ => none

/-- The first hash that is computed in a history that starts with an initial value. -/
def firstHash? (hashing : Hashing α) (initial : α) : List (Access α) → Option Int
  | [] => none
  | access :: rest =>
    (access.computed? hashing initial).or
      (firstHash? hashing ((access.assigned? .wrapped).getD initial) rest)

namespace WrapperObject

/-- The wrapper after an access. An assignment that fails changes nothing. -/
def accessed (hashing : Hashing α) (wrapper : WrapperObject α) : Access α → WrapperObject α
  | .read attr => (wrapper.read hashing attr.name).2
  | .assign attr value => (wrapper.assign attr.name value).toOption.getD wrapper

/-- The wrapper after a history. -/
def after (hashing : Hashing α) (wrapper : WrapperObject α) (history : List (Access α)) :
    WrapperObject α :=
  history.foldl (accessed hashing) wrapper

end WrapperObject

theorem held_cons (initial : α) (access : Access α) (rest : List (Access α)) :
    held initial (access :: rest) = held ((access.assigned? .wrapped).getD initial) rest := by
  rw [held, held, latest?]
  cases latest? .wrapped rest <;> rfl

/-! ## Attributes of a wrapper -/

/-- The projection of a value: its hash, or the failure that it has none. -/
def projectionOf (hashing : Hashing α) (value : α) : Except ExampleError α :=
  match hashing.hash value with
  | .ok hash => .ok (hashing.ofHash hash)
  | .error error => .error (.unhashable error)

theorem toOption_projectionOf (hashing : Hashing α) (value : α) :
    (projectionOf hashing value).toOption = (hashing.hash value).toOption.map hashing.ofHash := by
  rw [projectionOf]
  cases hashing.hash value <;> rfl

end Histories

section Attributes

variable {α : Type} {hashing : Hashing α} {wrapper : WrapperObject α} {value : α}

theorem lookup_store (wrapper : WrapperObject α) (name other : String) (value : α) :
    (wrapper.store name value).attributes.lookup other
      = if other = name then some value else wrapper.attributes.lookup other := by
  rw [WrapperObject.store, List.lookup_cons]
  by_cases h : other = name
  · simp [h]
  · have hne : (other == name) = false := by simpa using h
    simp [h, hne]

theorem stored_of_lookup {name : String} (h : wrapper.attributes.lookup name = some value) :
    wrapper.stored name = .ok value := by
  rw [WrapperObject.stored, h]

/-- An attribute that is stored and not computed is read as it is. -/
theorem read_of_lookup {name : String} (hcomputed : wrapper.cls.computedAttribute? ≠ some name)
    (h : wrapper.attributes.lookup name = some value) : wrapper.read hashing name = (.ok value, wrapper) := by
  rw [WrapperObject.read, if_neg hcomputed, stored_of_lookup h]

/-- The projection of a wrapper is the hash of what its value attribute holds. -/
theorem projection_of_lookup (hclass : wrapper.cls.valueAttribute = wrappedValue)
    (hvalue : wrapper.attributes.lookup wrappedValue = some value) :
    wrapper.projection hashing = projectionOf hashing value := by
  rw [WrapperObject.projection, hclass, stored_of_lookup hvalue, projectionOf]
  cases hhash : hashing.hash value with
  | ok hash =>
    simp only [bind, Except.bind, hhash]
    rfl
  | error error =>
    simp only [bind, Except.bind, hhash]
    rfl

end Attributes

/-! ## A projection that is computed at every read -/

/-- A wrapper that holds a value and computes its projection at every read. -/
structure Recomputes {α : Type} (wrapper : WrapperObject α) (value : α) : Prop where
  cls : wrapper.cls = .projected
  held : wrapper.attributes.lookup wrappedValue = some value

namespace Recomputes

variable {α : Type} {hashing : Hashing α} {wrapper : WrapperObject α} {value : α}

/-- A new wrapper of the first class. -/
theorem create (byName : Bool) (initial : α) :
    ∃ wrapper, WrapperObject.create .projected byName initial = .ok wrapper
      ∧ Recomputes wrapper initial :=
  ⟨_, rfl, rfl, rfl⟩

theorem computed_ne_wrapped (h : Recomputes wrapper value) :
    wrapper.cls.computedAttribute? ≠ some wrappedValue := by
  rw [h.cls]
  decide

theorem computed_eq_projected (h : Recomputes wrapper value) :
    wrapper.cls.computedAttribute? = some projectedValue := by
  rw [h.cls]
  rfl

theorem read_wrapped (h : Recomputes wrapper value) :
    wrapper.read hashing wrappedValue = (.ok value, wrapper) :=
  read_of_lookup h.computed_ne_wrapped h.held

theorem read_projected (h : Recomputes wrapper value) :
    wrapper.read hashing projectedValue = (projectionOf hashing value, wrapper) := by
  have hclass : wrapper.cls.valueAttribute = wrappedValue := by
    rw [h.cls]
    rfl
  rw [WrapperObject.read, if_pos h.computed_eq_projected, if_pos rfl,
    projection_of_lookup hclass h.held]

theorem assign_wrapped (h : Recomputes wrapper value) (next : α) :
    wrapper.assign wrappedValue next = .ok (wrapper.store wrappedValue next) := by
  rw [WrapperObject.assign, if_neg h.computed_ne_wrapped]

theorem assign_projected (h : Recomputes wrapper value) (next : α) :
    wrapper.assign projectedValue next = .error (.noSetter .projected projectedValue) := by
  rw [WrapperObject.assign, if_pos h.computed_eq_projected, h.cls]

/-- An assignment to the projection changes nothing. -/
theorem accessed_assign_projected (h : Recomputes wrapper value) (next : α) :
    wrapper.accessed hashing (.assign .projected next) = wrapper := by
  rw [WrapperObject.accessed, ExampleAttribute.name, h.assign_projected]
  rfl

/-- One access changes the value that is held if it assigns one, and nothing else. -/
theorem accessed (hashing : Hashing α) (h : Recomputes wrapper value) (access : Access α) :
    Recomputes (wrapper.accessed hashing access) ((access.assigned? .wrapped).getD value) := by
  cases access with
  | read attr =>
    have hread : wrapper.accessed hashing (.read attr) = wrapper := by
      cases attr with
      | wrapped => exact congrArg Prod.snd h.read_wrapped
      | projected => exact congrArg Prod.snd h.read_projected
    rw [hread]
    exact h
  | assign attr next =>
    cases attr with
    | wrapped =>
      rw [WrapperObject.accessed, ExampleAttribute.name, h.assign_wrapped]
      exact ⟨h.cls, (lookup_store wrapper _ _ next).trans (if_pos rfl)⟩
    | projected =>
      rw [h.accessed_assign_projected]
      exact h

theorem after (hashing : Hashing α) (h : Recomputes wrapper value) (history : List (Access α)) :
    Recomputes (wrapper.after hashing history) (PropertyWrapper.held value history) := by
  induction history generalizing wrapper value with
  | nil => exact h
  | cons access rest ih =>
    rw [held_cons]
    exact ih (h.accessed hashing access)

end Recomputes

/-! ## A projection that is computed once -/

/-- A wrapper that holds a value and keeps the value of its projection, if it has one yet. -/
structure Remembers {α : Type} (wrapper : WrapperObject α) (value : α) (kept : Option α) : Prop where
  cls : wrapper.cls = .settableProjected
  held : wrapper.attributes.lookup wrappedValue = some value
  kept : wrapper.attributes.lookup projectedValue = kept

namespace Remembers

variable {α : Type} {hashing : Hashing α} {wrapper : WrapperObject α} {value : α} {kept : Option α}

/-- A new wrapper of the second class keeps nothing yet. -/
theorem create (byName : Bool) (initial : α) :
    ∃ wrapper, WrapperObject.create .settableProjected byName initial = .ok wrapper
      ∧ Remembers wrapper initial none :=
  ⟨_, rfl, rfl, rfl, rfl⟩

/-- No attribute is computed at every read. -/
theorem computed_ne (h : Remembers wrapper value kept) (name : String) :
    wrapper.cls.computedAttribute? ≠ some name := by
  rw [h.cls]
  simp [ExampleClass.computedAttribute?]

theorem read_wrapped (h : Remembers wrapper value kept) :
    wrapper.read hashing wrappedValue = (.ok value, wrapper) :=
  read_of_lookup (h.computed_ne wrappedValue) h.held

theorem read_kept {projection : α} (h : Remembers wrapper value (some projection)) :
    wrapper.read hashing projectedValue = (.ok projection, wrapper) :=
  read_of_lookup (h.computed_ne projectedValue) h.kept

theorem read_fresh (h : Remembers wrapper value none) :
    wrapper.read hashing projectedValue
      = (projectionOf hashing value,
          (projectionOf hashing value).toOption.elim wrapper (wrapper.store projectedValue)) := by
  have hclass : wrapper.cls.valueAttribute = wrappedValue := by
    rw [h.cls]
    rfl
  have hstored : wrapper.stored projectedValue
      = .error (.noAttribute wrapper.cls projectedValue) := by
    rw [WrapperObject.stored, h.kept]
  have hcached : (wrapper.cls = .settableProjected && projectedValue = projectedValue) = true := by
    rw [h.cls]
    rfl
  rw [WrapperObject.read, if_neg (h.computed_ne projectedValue), hstored]
  dsimp only
  rw [if_pos hcached, projection_of_lookup hclass h.held]
  cases projectionOf hashing value <;> rfl

theorem assign (h : Remembers wrapper value kept) (attr : ExampleAttribute) (next : α) :
    wrapper.assign attr.name next = .ok (wrapper.store attr.name next) := by
  rw [WrapperObject.assign, if_neg (h.computed_ne attr.name)]

/-- One access changes the value that is held if it assigns one. It changes what is kept if it assigns it, or
if it computes a hash and nothing is kept yet. -/
theorem accessed (hashing : Hashing α) (h : Remembers wrapper value kept) (access : Access α) :
    Remembers (wrapper.accessed hashing access) ((access.assigned? .wrapped).getD value)
      ((access.assigned? .projected).or (kept.or ((access.computed? hashing value).map hashing.ofHash))) := by
  cases access with
  | read attr =>
    rw [WrapperObject.accessed]
    cases attr with
    | wrapped =>
      rw [ExampleAttribute.name, h.read_wrapped]
      exact ⟨h.cls, h.held, by simp [Access.assigned?, Access.computed?, h.kept]⟩
    | projected =>
      rw [ExampleAttribute.name]
      -- A read computes only while nothing is kept.
      cases kept with
      | some projection =>
        rw [h.read_kept]
        exact ⟨h.cls, h.held, h.kept⟩
      | none =>
        rw [h.read_fresh, toOption_projectionOf]
        cases hhash : hashing.hash value with
        | ok hash =>
          refine ⟨h.cls, (lookup_store wrapper _ _ _).trans ((if_neg (by decide)).trans h.held), ?_⟩
          rw [Access.computed?, hhash]
          exact (lookup_store wrapper _ _ _).trans (if_pos rfl)
        | error error =>
          refine ⟨h.cls, h.held, ?_⟩
          rw [Access.computed?, hhash]
          exact h.kept
  | assign attr next =>
    rw [WrapperObject.accessed, h.assign]
    cases attr with
    | wrapped =>
      refine ⟨h.cls, (lookup_store wrapper _ _ next).trans (if_pos rfl), ?_⟩
      have hkept : (wrapper.store wrappedValue next).attributes.lookup projectedValue = kept :=
        (lookup_store wrapper _ _ next).trans ((if_neg (by decide)).trans h.kept)
      exact hkept.trans (by simp [Access.assigned?, Access.computed?])
    | projected =>
      exact ⟨h.cls, (lookup_store wrapper _ _ next).trans ((if_neg (by decide)).trans h.held),
        (lookup_store wrapper _ _ next).trans (if_pos rfl)⟩

/-- What is kept after a history is what it assigned last, or else what was kept before, or else the first
hash that was computed. -/
theorem after (hashing : Hashing α) (h : Remembers wrapper value kept) (history : List (Access α)) :
    Remembers (wrapper.after hashing history) (PropertyWrapper.held value history)
      ((latest? .projected history).or (kept.or ((firstHash? hashing value history).map hashing.ofHash))) := by
  induction history generalizing wrapper value kept with
  | nil =>
    rw [latest?, firstHash?, Option.map_none, Option.or_none, Option.none_or]
    exact h
  | cons access rest ih =>
    -- What the first access keeps takes precedence over every hash that is computed behind it.
    have hkept : (latest? .projected (access :: rest)).or
          (kept.or ((firstHash? hashing value (access :: rest)).map hashing.ofHash))
        = (latest? .projected rest).or
          (((access.assigned? .projected).or (kept.or ((access.computed? hashing value).map hashing.ofHash))).or
            ((firstHash? hashing ((access.assigned? .wrapped).getD value) rest).map hashing.ofHash)) := by
      rw [latest?, firstHash?, Option.map_or, Option.or_assoc, Option.or_assoc, Option.or_assoc]
    rw [held_cons, hkept]
    exact ih (h.accessed hashing access)

/-- A read of the projection gives what is kept, or else the hash of the value that is held. One that fails
leaves the wrapper as it is. -/
theorem read_projected (h : Remembers wrapper value kept) :
    (wrapper.read hashing projectedValue).1 = kept.elim (projectionOf hashing value) .ok
      ∧ ∀ error, (wrapper.read hashing projectedValue).1 = .error error →
        kept = none ∧ (wrapper.read hashing projectedValue).2 = wrapper := by
  cases kept with
  | some projection =>
    rw [h.read_kept]
    refine ⟨rfl, fun error herror => ?_⟩
    cases herror
  | none =>
    rw [h.read_fresh]
    refine ⟨rfl, fun error herror => ⟨rfl, ?_⟩⟩
    dsimp only at herror ⊢
    rw [herror]
    rfl

end Remembers

/-! ## What projections give -/

/-- Wrappers of the two classes after any history. The projection of the one is at every read the hash of the
value that is held, and every assignment to it fails and changes nothing. The projection of the other one is
what was assigned to it last; if nothing was, it is the first hash that was computed, and if none was, the
read computes it from the value that is held. A read that fails changes nothing, and after a value with a
hash is assigned the next read gives that hash. -/
theorem projection_follows_history {α : Type} (hashing : Hashing α) (byName : Bool) (initial : α) (history : List (Access α)) :
    (∃ wrapper, WrapperObject.create .projected byName initial = .ok wrapper ∧
      let current := wrapper.after hashing history
      current.read hashing projectedValue = (projectionOf hashing (held initial history), current) ∧
        ∀ value, current.assign projectedValue value = .error (.noSetter .projected projectedValue) ∧
          current.accessed hashing (.assign .projected value) = current) ∧
      ∃ wrapper, WrapperObject.create .settableProjected byName initial = .ok wrapper ∧
        let current := wrapper.after hashing history
        (∀ value, ∃ next, current.assign projectedValue value = .ok next) ∧
        (∀ value, latest? .projected history = some value →
          current.read hashing projectedValue = (.ok value, current)) ∧
        (latest? .projected history = none →
          (∀ hash, firstHash? hashing initial history = some hash →
            current.read hashing projectedValue = (.ok (hashing.ofHash hash), current)) ∧
          (firstHash? hashing initial history = none →
            (current.read hashing projectedValue).1 = projectionOf hashing (held initial history))) ∧
        ∀ error, (current.read hashing projectedValue).1 = .error error →
          (current.read hashing projectedValue).2 = current ∧
            ∀ value hash, hashing.hash value = .ok hash →
              ((current.accessed hashing (.assign .wrapped value)).read hashing projectedValue).1
                = .ok (hashing.ofHash hash) := by
  constructor
  · obtain ⟨wrapper, hcreate, hfresh⟩ := Recomputes.create byName initial
    have hafter := hfresh.after hashing history
    exact ⟨wrapper, hcreate, hafter.read_projected, fun value =>
      ⟨hafter.assign_projected value, hafter.accessed_assign_projected value⟩⟩
  · obtain ⟨wrapper, hcreate, hfresh⟩ := Remembers.create byName initial
    have hafter := hfresh.after hashing history
    rw [Option.none_or] at hafter
    refine ⟨wrapper, hcreate, fun value => ⟨_, hafter.assign .projected value⟩, ?assigned, ?computed, ?failed⟩
    case assigned =>
      intro value hvalue
      rw [hvalue, Option.some_or] at hafter
      exact hafter.read_kept
    case computed =>
      intro hnone
      rw [hnone, Option.none_or] at hafter
      refine ⟨fun hash hhash => ?_, fun hfirst => ?_⟩
      · rw [hhash] at hafter
        exact hafter.read_kept
      · rw [hfirst] at hafter
        exact hafter.read_projected.1
    case failed =>
      intro error herror
      obtain ⟨hkept, hunchanged⟩ := hafter.read_projected.2 error herror
      refine ⟨hunchanged, fun value hash hhash => ?_⟩
      have hassigned := hafter.accessed hashing (.assign .wrapped value)
      rw [hkept] at hassigned
      rw [hassigned.read_projected.1]
      change projectionOf hashing value = _
      rw [projectionOf, hhash]

/-- The first read fails for want of a hash and the second one counts, whatever is held later. -/
example :
    let number (value : Int) : Value := .scalar (.int value)
    let history : List (Access Value) :=
      [.read .projected, .assign .wrapped (number (-1)), .read .projected, .assign .wrapped (number 7)]
    latest? .projected history = none ∧ firstHash? (valueHashing fun _ => 0) (.sequence []) history = some (-2)
      ∧ held (.sequence []) history = number 7 :=
  ⟨rfl, rfl, rfl⟩

end PropertyWrapper
