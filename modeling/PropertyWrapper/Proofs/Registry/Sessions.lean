import Mathlib.Logic.Function.Basic
import PropertyWrapper.Proofs.Registry.Plugins

/-!
# Registries over a session

Every registry of a session is the ordered map of its journal, the writes to it since it was made or
cleared last; a copy starts with the writes of its source. An operation changes the registry that it is
addressed to and no other.

* `Operation.target?` : the registry that an operation is addressed to;
* `Journal.after`, `Session.journal` : what operations write, by registry;
* `Session.Keeps` : a session whose registries are the ordered maps of their journals;
* `Session.Follows.step`, `Session.registry_step_of_ne` : what one operation does;
* `Session.registries_keep_journals` : what any number of operations do.
-/

namespace PropertyWrapper

/-! ## Journals -/

/-- The registry that an operation is addressed to. -/
def Operation.target? : Operation → Option Place
  | .create place _ | .register place _ _ | .write place _ _ | .copy _ place | .clear place
  | .loadBuiltins place | .build place _ _ => some place
  | .bootstrap _ => some .shared
  | .get _ _ | .resolve _ _ | .contains _ _ | .size _ | .entries _ | .names _ | .expand _ _
  | .define _ => none

/-- For each registry the writes that it consists of. -/
abbrev Journal := Place → List Write

/-- The writes of the plugins that a session would load over a registry with the given keys. -/
def Session.pluginWrites (session : Session) (known : List Key) : List Write :=
  accepted known
    ((importable session.available (pluginNames session.listed)).flatMap Plugin.wrappers)

/-- The journal after an operation of a session. -/
def Journal.after (journal : Journal) (session : Session) : Operation → Journal
  | .create place configs => Function.update journal place configs
  | .register place name config =>
    if .text name ∈ writtenKeys (journal place) then journal
    else Function.update journal place (journal place ++ [(.text name, config)])
  | .write place name config => Function.update journal place (journal place ++ [(.text name, config)])
  | .copy source target => Function.update journal target (journal source)
  | .clear place => Function.update journal place []
  | .loadBuiltins place => Function.update journal place (journal place ++ builtinWrappers)
  | .build target includeBuiltins file =>
    let base := if includeBuiltins && file.all (·.includeBuiltins) then builtinWrappers else []
    Function.update journal target (base ++ journal .shared ++ file.elim [] (·.wrappers))
  | .bootstrap listed =>
    if session.hasLoadedPlugins then journal
    else
      let writes := (session.listing listed).pluginWrites (writtenKeys (journal .shared))
      Function.update journal .shared (journal .shared ++ writes)
  | .get _ _ | .resolve _ _ | .contains _ _ | .size _ | .entries _ | .names _ | .expand _ _
  | .define _ => journal

namespace Session

/-- The journal after operations in order. -/
def journal (session : Session) (before : Journal) : List Operation → Journal
  | [] => before
  | operation :: rest => journal (session.step operation).1 (before.after session operation) rest

/-! ## Places -/

theorem lookup_setNamed_self (name : String) (registry : Registry) (entries : List (String × Registry)) :
    (setNamed name registry entries).lookup name = some registry := by
  induction entries with
  | nil => rw [setNamed, List.lookup_cons_self]
  | cons entry rest ih =>
    rw [setNamed]
    split
    · rw [List.lookup_cons_self]
    · rename_i hne
      have hne : (name == entry.1) = false := by simpa using Ne.symm hne
      rw [List.lookup_cons, hne]
      exact ih

theorem lookup_setNamed_of_ne {name other : String} (h : other ≠ name) (registry : Registry)
    (entries : List (String × Registry)) :
    (setNamed name registry entries).lookup other = entries.lookup other := by
  have hne : (other == name) = false := by simpa using h
  induction entries with
  | nil => rw [setNamed, List.lookup_cons, hne]
  | cons entry rest ih =>
    rw [setNamed]
    split
    · rename_i hname
      rw [List.lookup_cons, List.lookup_cons, hname, hne]
    · rw [List.lookup_cons, List.lookup_cons, ih]

/-- Setting a registry changes the registry at its place and no other. -/
theorem registry_setRegistry (session : Session) (place : Place) (registry : Registry) :
    (session.setRegistry place registry).registry = Function.update session.registry place registry := by
  funext other
  by_cases hplace : other = place
  · subst hplace
    rw [Function.update_self]
    cases other with
    | shared => rfl
    | named name =>
      change ((setNamed name registry session.named).lookup name).getD .empty = registry
      rw [lookup_setNamed_self, Option.getD_some]
  · rw [Function.update_of_ne hplace]
    cases place with
    | shared =>
      cases other with
      | shared => exact absurd rfl hplace
      | named => rfl
    | named name =>
      cases other with
      | shared => rfl
      | named other =>
        have hname : other ≠ name := fun heq => hplace (congrArg Place.named heq)
        change ((setNamed name registry session.named).lookup other).getD .empty = _
        rw [lookup_setNamed_of_ne hname]
        rfl

/-! ## Single operations -/

section Steps

variable {session : Session} {journal : Journal}

/-- Each registry of a session is the ordered map of its journal. -/
def Follows (session : Session) (journal : Journal) : Prop :=
  ∀ place, (session.registry place).Holds (journal place)

/-- A registry that is set follows the writes that it is made of. -/
theorem Follows.setRegistry (h : session.Follows journal) (place : Place) {registry : Registry}
    {writes : List Write} (hholds : registry.Holds writes) :
    (session.setRegistry place registry).Follows (Function.update journal place writes) := by
  intro other
  rw [registry_setRegistry]
  by_cases hplace : other = place
  · rw [hplace, Function.update_self, Function.update_self]
    exact hholds
  · rw [Function.update_of_ne hplace, Function.update_of_ne hplace]
    exact h other

/-- A registry that is built consists of the writes of its layers. -/
theorem Follows.build (h : session.Follows journal) (file : Option RegistryFile) (includeBuiltins : Bool) :
    (Registry.build session.shared file includeBuiltins).Holds
      ((if includeBuiltins && file.all (·.includeBuiltins) then builtinWrappers else [])
        ++ journal .shared ++ file.elim [] (·.wrappers)) := by
  have hshared : session.shared.Holds (journal .shared) := h .shared
  rw [Registry.build]
  have hbase : (if includeBuiltins && file.all (·.includeBuiltins) then Registry.empty.withBuiltins
      else .empty) = Registry.empty.overlay
        (if includeBuiltins && file.all (·.includeBuiltins) then builtinWrappers else []) := by
    split <;> rfl
  rw [hbase, hshared.overlay_entries]
  exact ((Registry.holds_overlay _).overlay _).overlay _

/-- A call for the plugins adds their writes to the shared registry. -/
theorem Follows.bootstrap (h : session.Follows journal) (listed : Option String) :
    (session.step (.bootstrap listed)).1.Follows (journal.after session (.bootstrap listed)) := by
  rw [step_bootstrap, Journal.after]
  have hlisting : (session.listing listed).Follows journal := h
  cases hloaded : session.hasLoadedPlugins with
  | true =>
    have hlisted : (session.listing listed).hasLoadedPlugins = true := hloaded
    rw [if_pos rfl, bootstrap_of_loaded hlisted]
    exact hlisting
  | false =>
    have hlisted : (session.listing listed).hasLoadedPlugins = false := hloaded
    rw [if_neg Bool.false_ne_true, bootstrap_of_not_loaded hlisted]
    have hshared : session.shared.Holds (journal .shared) := h .shared
    -- What is refused depends on the keys that are there, and these are read off the journal.
    have hloading : (session.listing listed).loading.registry = session.shared.overlay
        ((session.listing listed).pluginWrites (writtenKeys (journal .shared))) := by
      rw [← hshared.ordered]
      exact (registry_loadPlugins ..).trans (registerAll_fst ..)
    have hholds := hshared.overlay
      ((session.listing listed).pluginWrites (writtenKeys (journal .shared)))
    rw [← hloading] at hholds
    exact hlisting.setRegistry .shared hholds

/-- An operation keeps each registry the ordered map of its journal. -/
theorem Follows.step (h : session.Follows journal) (operation : Operation) :
    (session.step operation).1.Follows (journal.after session operation) := by
  cases operation with
  | create place configs => exact h.setRegistry place (Registry.holds_overlay configs)
  | register place name config =>
    rw [Session.step, Journal.after, ← (h place).ordered]
    by_cases hmem : .text name ∈ (session.registry place).keys
    · rw [Registry.register_of_mem config hmem, if_pos hmem]
      exact h
    · rw [Registry.register_of_not_mem config hmem, if_neg hmem]
      exact h.setRegistry place ((h place).write (.text name, config))
  | write place name config => exact h.setRegistry place ((h place).write (.text name, config))
  | get place name =>
    rw [Session.step]
    split <;> exact h
  | copy source target => exact h.setRegistry target (h source)
  | clear place => exact h.setRegistry place Registry.holds_empty
  | loadBuiltins place => exact h.setRegistry place ((h place).overlay builtinWrappers)
  | build target includeBuiltins file => exact h.setRegistry target (h.build file includeBuiltins)
  | bootstrap listed => exact h.bootstrap listed
  | resolve | contains | size | entries | names | expand | define => exact h

/-- An operation leaves every registry alone that it is not addressed to. -/
theorem registry_step_of_ne {operation : Operation} {place : Place}
    (h : operation.target? ≠ some place) :
    (session.step operation).1.registry place = session.registry place := by
  have hset : ∀ {target : Place} (registry : Registry), some target ≠ some place →
      (session.setRegistry target registry).registry place = session.registry place := by
    intro target registry hne
    rw [registry_setRegistry, Function.update_of_ne fun heq => hne (congrArg some heq.symm)]
  cases operation with
  | register target name config =>
    rw [step]
    split
    · exact hset _ h
    · rfl
  | get target name =>
    rw [step]
    split <;> rfl
  | bootstrap listed =>
    rw [step_bootstrap]
    cases place with
    | shared => exact absurd rfl h
    | named name =>
      rw [Session.bootstrap]
      split
      · rfl
      · dsimp only
        split <;> rfl
  | create | write | copy | clear | loadBuiltins | build => exact hset _ h
  | resolve | contains | size | entries | names | expand | define => rfl

end Steps

/-! ## Runs -/

/-- The registries of a session are independent ordered maps of what was written to them. -/
structure Keeps (session : Session) (journal : Journal) : Prop where
  /-- The keys are distinct and stand in the order of their first writes, the last write under a key
  counts. -/
  holds : session.Follows journal
  get : ∀ place name, session.step (.get place name)
    = (session, match lastWritten (journal place) (.text name) with
      | some config => .ok (.config (some config))
      | none => .error (.registry (.notRegistered name)))
  resolve : ∀ place name config, lastWritten (journal place) (.text name) = some config →
    session.step (.resolve place (some name)) = (session, .ok (.config (some config)))
  /-- A registration of a name that is present fails and changes nothing. -/
  refused : ∀ place name config, .text name ∈ writtenKeys (journal place) →
    session.step (.register place name config)
      = (session, .error (.registry (.alreadyRegistered name)))
  registered : ∀ place name config, .text name ∉ writtenKeys (journal place) →
    (session.step (.register place name config)).2 = .ok (.config (some config))
  /-- An operation changes at most the registry that it is addressed to. -/
  frame : ∀ operation place, operation.target? ≠ some place →
    (session.step operation).1.registry place = session.registry place
  /-- An expansion changes nothing, whether it succeeds or not. -/
  expand : ∀ place source, (session.step (.expand place source)).1 = session

theorem Follows.keeps {session : Session} {journal : Journal} (h : session.Follows journal) :
    session.Keeps journal where
  holds := h
  get := by
    intro place name
    rw [Session.step, Registry.get, (h place).latest]
    cases lastWritten (journal place) (.text name) <;> rfl
  resolve := by
    intro place name config hlast
    rw [← (h place).latest] at hlast
    rw [Session.step, Registry.resolve, Option.bind_some, hlast]
    rfl
  refused := by
    intro place name config hmem
    rw [← (h place).ordered] at hmem
    rw [Session.step, Registry.register_of_mem config hmem]
  registered := by
    intro place name config hmem
    rw [← (h place).ordered] at hmem
    rw [Session.step, Registry.register_of_not_mem config hmem]
  frame := fun _ _ hne => registry_step_of_ne hne
  expand := fun _ _ => rfl

/-- Operations keep each registry the ordered map of its journal. -/
theorem Follows.run {session : Session} {before : Journal} (h : session.Follows before)
    (operations : List Operation) :
    (session.run operations).Follows (session.journal before operations) := by
  induction operations generalizing session before with
  | nil => exact h
  | cons operation rest ih => exact ih (h.step operation)

theorem follows_empty : Session.Follows {} fun _ => [] := by
  intro place
  cases place <;> exact Registry.holds_empty

/-- After any operations the registries of a session are independent ordered maps of what was written to
them since they were made or cleared last. -/
theorem registries_keep_journals (operations : List Operation) :
    (Session.run {} operations).Keeps (Session.journal {} (fun _ => []) operations) :=
  (follows_empty.run operations).keeps

/-- A copy does not see later writes to its source. -/
example : (Session.run {} [.write (.named "a") "A" {}, .copy (.named "a") .shared,
    .write (.named "a") "B" {}]).registry .shared = ⟨[(.text "A", {})]⟩ := by decide

end Session

end PropertyWrapper
