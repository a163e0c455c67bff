import PropertyWrapper.Proofs.Registry.Files
import PropertyWrapper.Proofs.Registry.Sessions

/-!
# Layers of a registry

The registry for a run has three layers: the built-in wrappers, the shared ones and those of a file. A
later layer replaces configurations of the earlier ones and leaves their keys in place, so that each key
stands where the first layer with it has it, and has the configuration of the last one.

* `Registry.IsLayered` : the layers of a registry, by key and in order;
* `keys_layers` : the keys that three layers write;
* `Session.build_isLayered` : what a session builds has these layers, and the shared registry stays.
-/

namespace PropertyWrapper

/-- A registry has the configuration of the last layer with a key, and keys in the order of the layers. -/
structure Registry.IsLayered (registry : Registry) (builtins : List Write) (shared : Registry)
    (wrappers : List Write) : Prop where
  /-- The wrappers of the file count first, then the shared ones, and the built-in ones last. -/
  find : ∀ key, registry.find? key
    = ((wrappers.lookup key).or (shared.find? key)).or (builtins.lookup key)
  distinct : registry.keys.Nodup
  ordered : registry.keys = builtins.map (·.1)
    ++ shared.keys.filter (fun key => key ∉ builtins.map (·.1))
    ++ (wrappers.map (·.1)).filter fun key => key ∉ builtins.map (·.1) ∧ key ∉ shared.keys

/-! ## Writes of layers -/

theorem eraseDups_of_nodup {α : Type} [DecidableEq α] {items : List α} (h : items.Nodup) :
    items.eraseDups = items := by
  induction items using List.reverseRecOn with
  | nil => rfl
  | append_singleton items item ih =>
    obtain ⟨hitems, -, hlast⟩ := List.nodup_append.1 h
    rw [eraseDups_concat, if_neg, ih hitems]
    exact fun hmem => hlast item hmem item List.mem_cons_self rfl

/-- Of the second of two lists without repetitions remains what the first does not have. -/
theorem eraseDups_append_of_nodup {α : Type} [DecidableEq α] {items others : List α}
    (hothers : others.Nodup) :
    (items ++ others).eraseDups = items.eraseDups ++ others.filter (· ∉ items) := by
  have hremove : others.removeAll items = others.filter (· ∉ items) := by
    rw [List.removeAll]
    refine List.filter_congr fun item _ => ?_
    simp
  rw [List.eraseDups_append, hremove, eraseDups_of_nodup (hothers.filter _)]

/-- Each key of three layers stands in the first layer that has it. -/
theorem keys_layers {builtins shared wrappers : List Write} (hbuiltins : (builtins.map (·.1)).Nodup)
    (hshared : (shared.map (·.1)).Nodup) (hwrappers : (wrappers.map (·.1)).Nodup) :
    writtenKeys (builtins ++ shared ++ wrappers) = builtins.map (·.1)
      ++ (shared.map (·.1)).filter (fun key => key ∉ builtins.map (·.1))
      ++ (wrappers.map (·.1)).filter
        fun key => key ∉ builtins.map (·.1) ∧ key ∉ shared.map (·.1) := by
  rw [writtenKeys, List.map_append, List.map_append, eraseDups_append_of_nodup hwrappers,
    eraseDups_append_of_nodup hshared, eraseDups_of_nodup hbuiltins]
  simp only [List.mem_append, not_or]

/-- Of writes under distinct keys each is the last one under its key. -/
theorem lastWritten_of_nodup {writes : List Write} (h : (writes.map (·.1)).Nodup) (key : Key) :
    lastWritten writes key = writes.lookup key := by
  rw [← (Registry.holds_overlay writes).latest key, Registry.overlay_of_distinct h]
  rfl

/-! ## Registries for a run -/

/-- The built-in wrappers of a registry that is built: all of them, if neither the call nor the file leaves
them out. -/
def includedBuiltins (file : Option RegistryFile) (includeBuiltins : Bool) : List Write :=
  if includeBuiltins && file.all (·.includeBuiltins) then builtinWrappers else []

theorem nodup_includedBuiltins (file : Option RegistryFile) (includeBuiltins : Bool) :
    ((includedBuiltins file includeBuiltins).map (·.1)).Nodup := by
  rw [includedBuiltins]
  split
  · decide
  · exact List.nodup_nil

/-- The names of a file are distinct. -/
theorem nodup_fileKeys {file : Option RegistryFile}
    (hfile : ∀ loaded ∈ file, ∃ text, RegistryFile.parse text = .ok loaded) :
    ((file.elim [] (·.wrappers)).map (·.1)).Nodup := by
  cases file with
  | none => exact List.nodup_nil
  | some loaded =>
    obtain ⟨text, htext⟩ := hfile loaded rfl
    exact (keysApart_of_parse htext).nodup

theorem isLayered_build {shared : Registry} (hshared : shared.keys.Nodup)
    {file : Option RegistryFile} (hfile : ∀ loaded ∈ file, ∃ text, RegistryFile.parse text = .ok loaded)
    (includeBuiltins : Bool) :
    (Registry.build shared file includeBuiltins).IsLayered (includedBuiltins file includeBuiltins) shared
      (file.elim [] (·.wrappers)) := by
  have hbuild : Registry.build shared file includeBuiltins
      = ((Registry.empty.overlay (includedBuiltins file includeBuiltins)).overlay shared.entries).overlay
        (file.elim [] (·.wrappers)) := by
    rw [Registry.build, includedBuiltins]
    split <;> rfl
  have hholds := ((Registry.holds_overlay (includedBuiltins file includeBuiltins)).overlay
    shared.entries).overlay (file.elim [] (·.wrappers))
  rw [hbuild]
  have hwrappers := nodup_fileKeys hfile
  have hbuiltins := nodup_includedBuiltins file includeBuiltins
  refine ⟨fun key => ?_, hholds.distinct, ?_⟩
  · rw [hholds.latest, lastWritten_append, lastWritten_append, lastWritten_of_nodup hwrappers,
      lastWritten_of_nodup hshared, lastWritten_of_nodup hbuiltins, Option.or_assoc]
    rfl
  · rw [hholds.ordered]
    exact keys_layers hbuiltins hshared hwrappers

/-- A shared wrapper with a built-in name keeps the place of the built-in one. -/
example : (Registry.build ⟨[(.text "Own", {}), (.text "Example", { isReference := true })]⟩ none
    true).keys = builtinWrappers.map (·.1) ++ [.text "Own"] := by decide

namespace Session

/-- A registry that a session builds from the shared one and a file that was read has their layers, and
the shared registry stays as it was. That keys are distinct holds of every registry that operations make. -/
theorem build_isLayered {session : Session} (hshared : session.shared.keys.Nodup)
    {file : Option RegistryFile} (hfile : ∀ loaded ∈ file, ∃ text, RegistryFile.parse text = .ok loaded)
    (includeBuiltins : Bool) (target : String) :
    ((session.step (.build (.named target) includeBuiltins file)).1.registry (.named target)).IsLayered
        (includedBuiltins file includeBuiltins) session.shared (file.elim [] (·.wrappers))
      ∧ (session.step (.build (.named target) includeBuiltins file)).1.shared = session.shared := by
  have hbuilt : (session.step (.build (.named target) includeBuiltins file)).1.registry (.named target)
      = Registry.build session.shared file includeBuiltins := by
    rw [step, registry_setRegistry, Function.update_self]
  have htarget : Operation.target? (.build (.named target) includeBuiltins file) ≠ some .shared := by
    simp [Operation.target?]
  rw [hbuilt]
  exact ⟨isLayered_build hshared hfile includeBuiltins, registry_step_of_ne htarget⟩

theorem build_isLayered_overlapping :
    ∃ file, RegistryFile.parse "wrappers:\n  Own:\n    is_reference_type: true\n  Box:\n" = .ok file
      ∧ ((Session.step { shared := ⟨[(.text "Own", {}), (.text "Example", { isReference := true })]⟩ }
          (.build (.named "run") true (some file))).1.registry (.named "run")).IsLayered builtinWrappers
        ⟨[(.text "Own", {}), (.text "Example", { isReference := true })]⟩
        [(.text "Own", { isReference := true }), (.text "Box", {})] := by
  have hfile : (RegistryFile.parse "wrappers:\n  Own:\n    is_reference_type: true\n  Box:\n").toOption
      = some ⟨true, [(.text "Own", { isReference := true }), (.text "Box", {})]⟩ := by
    decide +kernel
  have hok := eq_ok_of_toOption hfile
  refine ⟨_, hok, (build_isLayered (by decide) ?_ true "run").1⟩
  rintro loaded ⟨⟩
  exact ⟨_, hok⟩

end Session

end PropertyWrapper
