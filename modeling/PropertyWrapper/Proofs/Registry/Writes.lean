import PropertyWrapper.Proofs.Expansion.Registry

/-!
# Registries as ordered maps

A registry is what its writes make of it: its keys stand in the order of their first writes, and each has
the configuration that was written last.

* `writtenKeys`, `lastWritten` : what writes make, read off the list of them;
* `Registry.Holds` : a registry is the ordered map of some writes;
* `Registry.Holds.overlay` : more writes;
* `Registry.Holds.unique` : writes determine a registry;
* `Registry.overlay_entries` : the entries of a registry can be written in place of its writes.
-/

namespace PropertyWrapper

/-- A write: a key and the configuration that is written under it. -/
abbrev Write := Key × WrapperConfig

/-- The keys of writes, each at the place of its first write. -/
def writtenKeys (writes : List Write) : List Key := (writes.map (·.1)).eraseDups

/-- The configuration that was written last under a key. -/
def lastWritten (writes : List Write) (key : Key) : Option WrapperConfig := writes.reverse.lookup key

/-- A registry is the ordered map of some writes. -/
structure Registry.Holds (registry : Registry) (writes : List Write) : Prop where
  distinct : registry.keys.Nodup
  ordered : registry.keys = writtenKeys writes
  latest : ∀ key, registry.find? key = lastWritten writes key

/-! ## Keys -/

/-- A key that is there already keeps its place, and a new one comes last. -/
theorem eraseDups_concat {α : Type} [DecidableEq α] (items : List α) (item : α) :
    (items ++ [item]).eraseDups
      = if item ∈ items then items.eraseDups else items.eraseDups ++ [item] := by
  rw [List.eraseDups_append, List.removeAll]
  by_cases hmem : item ∈ items
  · simp [hmem]
  · simp [hmem, List.eraseDups_cons]

/-- Repetitions can be left out of the second of two lists. -/
theorem eraseDups_append_eraseDups {α : Type} [DecidableEq α] (before behind : List α) :
    (before ++ behind.eraseDups).eraseDups = (before ++ behind).eraseDups := by
  induction behind using List.reverseRecOn with
  | nil => rfl
  | append_singleton behind item ih =>
    rw [eraseDups_concat, ← List.append_assoc, eraseDups_concat]
    by_cases hmem : item ∈ behind
    · rw [if_pos hmem, if_pos (List.mem_append_right _ hmem), ih]
    · rw [if_neg hmem, ← List.append_assoc, eraseDups_concat, ih]
      simp only [List.mem_append, List.mem_eraseDups]

theorem writtenKeys_concat (writes : List Write) (write : Write) :
    writtenKeys (writes ++ [write])
      = if write.1 ∈ writtenKeys writes then writtenKeys writes else writtenKeys writes ++ [write.1] := by
  rw [writtenKeys, List.map_append, List.map_singleton, eraseDups_concat]
  simp only [writtenKeys, List.mem_eraseDups]

theorem lastWritten_concat (writes : List Write) (write : Write) (key : Key) :
    lastWritten (writes ++ [write]) key
      = if key = write.1 then some write.2 else lastWritten writes key := by
  rw [lastWritten, List.reverse_append, List.reverse_singleton, List.singleton_append]
  by_cases hkey : key = write.1
  · rw [if_pos hkey, hkey, List.lookup_cons_self]
  · have hne : (key == write.1) = false := by simpa using hkey
    rw [if_neg hkey, List.lookup_cons, hne]
    rfl

/-- Of two lists of writes the second one counts. -/
theorem lastWritten_append (before behind : List Write) (key : Key) :
    lastWritten (before ++ behind) key = (lastWritten behind key).or (lastWritten before key) := by
  rw [lastWritten, List.reverse_append, List.lookup_append]
  rfl

namespace Registry

variable {registry other : Registry} {writes : List Write}

theorem keys_write (registry : Registry) (key : Key) (config : WrapperConfig) :
    (registry.write key config).keys
      = if key ∈ registry.keys then registry.keys else registry.keys ++ [key] :=
  keys_writeEntry key config registry.entries

theorem overlay_concat (registry : Registry) (writes : List Write) (write : Write) :
    registry.overlay (writes ++ [write]) = (registry.overlay writes).write write.1 write.2 :=
  overlay_append writes [write]

/-! ## Ordered maps -/

theorem holds_empty : Registry.empty.Holds [] where
  distinct := List.nodup_nil
  ordered := rfl
  latest := fun _ => rfl

namespace Holds

/-- One more write. -/
theorem write (h : registry.Holds writes) (write : Write) :
    (registry.write write.1 write.2).Holds (writes ++ [write]) where
  distinct := by
    rw [keys_write]
    by_cases hmem : write.1 ∈ registry.keys
    · rw [if_pos hmem]
      exact h.distinct
    · rw [if_neg hmem, ← List.concat_eq_append]
      exact h.distinct.concat hmem
  ordered := by rw [keys_write, writtenKeys_concat, h.ordered]
  latest := by
    intro key
    rw [lastWritten_concat]
    by_cases hkey : key = write.1
    · rw [if_pos hkey, hkey, find?_write_self]
    · rw [if_neg hkey, find?_write_of_ne hkey, h.latest]

/-- More writes. -/
theorem overlay (h : registry.Holds writes) (more : List Write) :
    (registry.overlay more).Holds (writes ++ more) := by
  induction more using List.reverseRecOn with
  | nil =>
    rw [List.append_nil]
    exact h
  | append_singleton more last ih =>
    rw [overlay_concat, ← List.append_assoc]
    exact ih.write last

end Holds

theorem holds_overlay (writes : List Write) : (Registry.empty.overlay writes).Holds writes :=
  holds_empty.overlay writes

/-- Entries with distinct keys are given by their keys and a lookup. -/
theorem entries_eq {entries : List Write} (hdistinct : (entries.map (·.1)).Nodup) :
    entries = (entries.map (·.1)).map fun key => (key, (entries.lookup key).getD {}) := by
  induction entries with
  | nil => rfl
  | cons entry rest ih =>
    rw [List.map_cons, List.nodup_cons] at hdistinct
    rw [List.map_cons, List.map_cons, List.lookup_cons_self, Option.getD_some]
    congr 1
    conv_lhs => rw [ih hdistinct.2]
    refine List.map_congr_left fun key hkey => ?_
    have hne : (key == entry.1) = false := by
      rw [beq_eq_false_iff_ne]
      rintro rfl
      exact hdistinct.1 hkey
    rw [List.lookup_cons, hne]

/-- Writes determine a registry. -/
theorem Holds.unique (h : registry.Holds writes) (hother : other.Holds writes) : registry = other := by
  have hkeys : registry.entries.map (·.1) = other.entries.map (·.1) := h.ordered.trans hother.ordered.symm
  have hfind : ∀ key, registry.entries.lookup key = other.entries.lookup key :=
    fun key => (h.latest key).trans (hother.latest key).symm
  have hentries : registry.entries = other.entries := by
    rw [entries_eq h.distinct, entries_eq hother.distinct, hkeys]
    simp only [hfind]
  cases registry
  cases other
  exact congrArg Registry.mk hentries

theorem writeEntry_of_not_mem {entries : List Write} {write : Write}
    (h : write.1 ∉ entries.map (·.1)) : writeEntry write.1 write.2 entries = entries ++ [write] := by
  induction entries with
  | nil => rfl
  | cons entry rest ih =>
    rw [List.map_cons, List.mem_cons, not_or] at h
    rw [writeEntry, if_neg (Ne.symm h.1), ih h.2, List.cons_append]

/-- Entries with distinct keys, once written, are the entries of a registry. -/
theorem overlay_of_distinct {entries : List Write} (hdistinct : (entries.map (·.1)).Nodup) :
    Registry.empty.overlay entries = ⟨entries⟩ := by
  induction entries using List.reverseRecOn with
  | nil => rfl
  | append_singleton entries entry ih =>
    rw [List.map_append, List.map_singleton, List.nodup_append] at hdistinct
    obtain ⟨hfirst, -, hlast⟩ := hdistinct
    rw [overlay_concat, ih hfirst, Registry.write, writeEntry_of_not_mem]
    exact fun hmem => hlast _ hmem _ List.mem_cons_self rfl

/-- The entries of a registry are writes that make it. -/
theorem Holds.entries (h : registry.Holds writes) : registry.Holds registry.entries := by
  have hself := holds_overlay registry.entries
  rwa [overlay_of_distinct h.distinct] at hself

/-- The entries of a registry can be written in place of its writes. -/
theorem Holds.overlay_entries (h : registry.Holds writes) (base : List Write) :
    (Registry.empty.overlay base).overlay registry.entries
      = (Registry.empty.overlay base).overlay writes := by
  have hbase := holds_overlay base
  have hentries := hbase.overlay registry.entries
  -- The entries are fewer writes, but they make the same ordered map.
  suffices h : ((Registry.empty.overlay base).overlay registry.entries).Holds (base ++ writes) from
    h.unique (hbase.overlay writes)
  refine ⟨hentries.distinct, ?_, fun key => ?_⟩
  · have hkeys : registry.entries.map (·.1) = writtenKeys writes := h.ordered
    rw [hentries.ordered, writtenKeys, List.map_append, hkeys, writtenKeys, eraseDups_append_eraseDups,
      ← List.map_append]
    rfl
  · rw [hentries.latest, lastWritten_append, lastWritten_append, ← h.entries.latest key, h.latest key]

end Registry

end PropertyWrapper
