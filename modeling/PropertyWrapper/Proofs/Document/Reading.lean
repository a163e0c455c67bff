import PropertyWrapper.Document.Construction
import PropertyWrapper.Proofs.Result

/-!
# Values that are read

What holds of every value that is read from a text: no mapping has two equal keys, and only texts with a
lone surrogate are kept as broken ones.

* `Scalar.IsRead`, `Value.IsRead` : the scalars and values that reading can give;
* `Build.Yields` : a step of the construction that leaves the finished collections alone;
* `Build.isRead_finish` : a mapping that gets its entries is one that reading can give;
* `Content.isRead_view` : every view of the content of a text is a value that reading can give.
-/

namespace PropertyWrapper.Document

open Text

/-! ## Values -/

/-- A scalar that reading can give: a text is kept as a broken one only for a lone surrogate in it. -/
def Scalar.IsRead : Scalar → Prop
  | .brokenText value => isBroken value = true
  | _ => True

/-- Entries whose keys are pairwise different. -/
def KeysApart {α : Type} (entries : List (Scalar × α)) : Prop :=
  entries.Pairwise fun entry other => ¬ entry.1.sameKey other.1

/-- A value that reading can give. -/
inductive Value.IsRead : Value → Prop where
  | scalar {value : Scalar} (hscalar : value.IsRead) : IsRead (.scalar value)
  | sequence (items : List Value) : IsRead (.sequence items)
  | mapping {entries : List (Scalar × Value)} (hkeys : ∀ entry ∈ entries, entry.1.IsRead)
      (hvalues : ∀ entry ∈ entries, IsRead entry.2) (hapart : KeysApart entries) :
      IsRead (.mapping entries)
  | set (members : List Scalar) : IsRead (.set members)
  | pairs (items : List (Value × Value)) : IsRead (.pairs items)
  | again (isMapping : Bool) : IsRead (.again isMapping)

theorem Value.isRead_mapping_iff {entries : List (Scalar × Value)} :
    (Value.mapping entries).IsRead ↔ (∀ entry ∈ entries, entry.1.IsRead)
      ∧ (∀ entry ∈ entries, entry.2.IsRead) ∧ KeysApart entries := by
  constructor
  · rintro (_ | _ | ⟨hkeys, hvalues, hapart⟩)
    exact ⟨hkeys, hvalues, hapart⟩
  · rintro ⟨hkeys, hvalues, hapart⟩
    exact .mapping hkeys hvalues hapart

/-- A scalar is the same key as itself. -/
theorem Scalar.sameKey_self (scalar : Scalar) : scalar.sameKey scalar = true := by
  cases scalar with
  | moment value => simp [sameKey, Moment.same]
  | float value => cases hinteger : value.integer? <;> simp [sameKey, integer?, hinteger]
  | null | bool | int | text | brokenText | bytes | date => simp [sameKey, integer?]

theorem KeysApart.nodup {α : Type} {entries : List (Scalar × α)} (h : KeysApart entries) :
    (entries.map (·.1)).Nodup := by
  rw [List.Nodup, List.pairwise_map]
  refine List.Pairwise.imp ?_ h
  intro entry other hapart heq
  rw [heq] at hapart
  exact hapart (Scalar.sameKey_self other.1)

/-- In entries whose keys are different a key has the value that stands behind it. -/
theorem lookup_eq_some_iff_mem {α : Type} {entries : List (Scalar × α)}
    (h : (entries.map (·.1)).Nodup) {key : Scalar} {value : α} :
    entries.lookup key = some value ↔ (key, value) ∈ entries := by
  induction entries with
  | nil => simp
  | cons entry rest ih =>
    rw [List.map_cons, List.nodup_cons] at h
    rw [List.lookup_cons, List.mem_cons]
    by_cases hkey : key = entry.1
    · have hbeq : (key == entry.1) = true := by simpa using hkey
      rw [hbeq]
      constructor
      · rintro ⟨⟩
        exact .inl (Prod.ext hkey rfl)
      · rintro (rfl | hmem)
        · rfl
        · -- The key stands in front already.
          have hrest : entry.1 ∈ rest.map (·.1) := List.mem_map.2 ⟨_, hmem, hkey⟩
          exact absurd hrest h.1
    · have hbeq : (key == entry.1) = false := by simpa using hkey
      rw [hbeq, ih h.2]
      constructor
      · exact .inr
      · rintro (rfl | hmem)
        · exact absurd rfl hkey
        · exact hmem

/-! ## Entries -/

section Entries

variable {α : Type}

theorem mem_putEntry {key : Scalar} {value : α} {entries : List (Scalar × α)} {entry : Scalar × α}
    (h : entry ∈ putEntry key value entries) :
    (entry.1 = key ∨ ∃ other ∈ entries, entry.1 = other.1)
      ∧ (entry.2 = value ∨ ∃ other ∈ entries, entry.2 = other.2) := by
  induction entries with
  | nil =>
    rw [putEntry, List.mem_singleton] at h
    subst h
    exact ⟨.inl rfl, .inl rfl⟩
  | cons first rest ih =>
    rw [putEntry] at h
    split at h
    · rcases List.mem_cons.1 h with rfl | hmem
      · exact ⟨.inr ⟨first, by simp, rfl⟩, .inl rfl⟩
      · exact ⟨.inr ⟨entry, by simp [hmem], rfl⟩, .inr ⟨entry, by simp [hmem], rfl⟩⟩
    · rcases List.mem_cons.1 h with rfl | hmem
      · exact ⟨.inr ⟨first, by simp, rfl⟩, .inr ⟨first, by simp, rfl⟩⟩
      · obtain ⟨hkey, hvalue⟩ := ih hmem
        constructor
        · exact hkey.imp_right fun ⟨other, hother, heq⟩ => ⟨other, by simp [hother], heq⟩
        · exact hvalue.imp_right fun ⟨other, hother, heq⟩ => ⟨other, by simp [hother], heq⟩

/-- A write keeps keys apart. -/
theorem KeysApart.putEntry {entries : List (Scalar × α)} (h : KeysApart entries) (key : Scalar)
    (value : α) : KeysApart (putEntry key value entries) := by
  induction entries with
  | nil => exact List.pairwise_singleton _ _
  | cons first rest ih =>
    obtain ⟨hfirst, hrest⟩ := List.pairwise_cons.1 h
    rw [Document.putEntry]
    split
    · exact List.pairwise_cons.2 ⟨hfirst, hrest⟩
    · rename_i hne
      refine List.pairwise_cons.2 ⟨fun entry hentry => ?_, ih hrest⟩
      rcases (mem_putEntry hentry).1 with heq | ⟨other, hother, heq⟩
      · rw [heq]
        exact hne
      · rw [heq]
        exact hfirst other hother

/-- The distinct entries of a list have keys and values from it, and their keys are apart. -/
theorem distinctEntries_spec (entries : List (Scalar × α)) :
    KeysApart (distinctEntries entries) ∧ ∀ entry ∈ distinctEntries entries,
      (∃ other ∈ entries, entry.1 = other.1) ∧ ∃ other ∈ entries, entry.2 = other.2 := by
  induction entries using List.reverseRecOn with
  | nil => exact ⟨List.Pairwise.nil, nofun⟩
  | append_singleton entries last ih =>
    obtain ⟨hapart, hfrom⟩ := ih
    rw [distinctEntries, List.foldl_append]
    refine ⟨hapart.putEntry last.1 last.2, fun entry hentry => ?_⟩
    obtain ⟨hkey, hvalue⟩ := mem_putEntry hentry
    constructor
    · rcases hkey with heq | ⟨other, hother, heq⟩
      · exact ⟨last, by simp, heq⟩
      · obtain ⟨source, hsource, hsame⟩ := (hfrom other hother).1
        exact ⟨source, by simp [hsource], heq.trans hsame⟩
    · rcases hvalue with heq | ⟨other, hother, heq⟩
      · exact ⟨last, by simp, heq⟩
      · obtain ⟨source, hsource, hsame⟩ := (hfrom other hother).2
        exact ⟨source, by simp [hsource], heq.trans hsame⟩

end Entries

/-! ## Scalars -/

theorem isRead_ofPoints (text : Points) : (Scalar.ofPoints text).IsRead := by
  rw [Scalar.ofPoints]
  cases LooseText.ofPoints text with
  | whole => trivial
  | broken _ hbroken => exact hbroken

theorem isRead_of_stampValue {stamp : Stamp} {scalar : Scalar} (h : stamp.value = .ok scalar) :
    scalar.IsRead := by
  rw [Stamp.value] at h
  dsimp only at h
  split at h
  · obtain ⟨date, -, heq⟩ := bind_eq_ok_iff.1 h
    cases heq
    trivial
  · obtain ⟨offset, -, h⟩ := bind_eq_ok_iff.1 h
    obtain ⟨date, -, h⟩ := bind_eq_ok_iff.1 h
    -- A part of the time that is out of range is refused.
    split at h
    · cases h
    split at h
    · cases h
    split at h
    · cases h
    cases h
    trivial

theorem isRead_of_scalarValue {tag : Tag} {text : Points} {scalar : Scalar}
    (h : scalarValue tag text = .ok scalar) : scalar.IsRead := by
  cases tag with
  | null =>
    cases h
    trivial
  | bool =>
    rw [scalarValue] at h
    split at h
    · cases h
      trivial
    · cases h
  | int =>
    obtain ⟨value, -, heq⟩ := bind_eq_ok_iff.1 h
    cases heq
    trivial
  | float =>
    obtain ⟨value, -, heq⟩ := bind_eq_ok_iff.1 h
    cases heq
    trivial
  | time =>
    rw [scalarValue, dateValue] at h
    split at h
    · exact isRead_of_stampValue h
    · cases h
  | bytes =>
    rw [scalarValue] at h
    split at h
    · cases h
      trivial
    · cases h
  | text =>
    cases h
    exact isRead_ofPoints text
  | sequence | mapping | set | orderedMapping | pairs | merge | default | unknown => cases h

/-! ## Steps of the construction -/

/-- An item that reading can give. -/
def Item.IsRead : Item → Prop
  | .scalar value => value.IsRead
  | .collection _ => True

/-- A collection that reading can give. -/
def Collection.IsRead : Collection → Prop
  | .mapping entries => (∀ entry ∈ entries, entry.1.IsRead ∧ entry.2.IsRead) ∧ KeysApart entries
  | _ => True

namespace Build

variable {α β : Type}

/-- A step leaves the collections alone that have got their parts, and its value has a property. -/
def Yields (step : Build α) (P : α → Prop) : Prop :=
  ∀ state value after, step.run state = .ok (value, after) →
    after.collections = state.collections ∧ P value

theorem yields_pure {P : α → Prop} {value : α} (h : P value) : (pure value : Build α).Yields P := by
  intro state found after hrun
  cases hrun
  exact ⟨rfl, h⟩

theorem yields_throw {P : α → Prop} (error : DocumentError) : (throw error : Build α).Yields P := by
  intro state value after hrun
  cases hrun

theorem yields_get : (get : Build BuildState).Yields fun _ => True := by
  intro state value after hrun
  cases hrun
  exact ⟨rfl, trivial⟩

theorem yields_modify {change : BuildState → BuildState}
    (h : ∀ state, (change state).collections = state.collections) :
    (modify change : Build Unit).Yields fun _ => True := by
  intro state value after hrun
  cases hrun
  exact ⟨h state, trivial⟩

/-- A result that does not depend on the construction. -/
theorem yields_liftM {result : Except DocumentError α} {P : α → Prop}
    (h : ∀ value, result = .ok value → P value) : (liftM result : Build α).Yields P := by
  intro state value after hrun
  obtain ⟨found, hfound, heq⟩ := bind_eq_ok_iff.1 hrun
  cases heq
  exact ⟨rfl, h value hfound⟩

theorem run_bind_eq_ok {step : Build α} {next : α → Build β} {state after : BuildState} {value : β}
    (h : (step >>= next).run state = .ok (value, after)) :
    ∃ first between, step.run state = .ok (first, between)
      ∧ (next first).run between = .ok (value, after) := by
  obtain ⟨⟨first, between⟩, hstep, hnext⟩ := bind_eq_ok_iff.1 h
  exact ⟨first, between, hstep, hnext⟩

/-- Two steps in sequence. -/
theorem Yields.bind {step : Build α} {next : α → Build β} {P : α → Prop} {Q : β → Prop}
    (h : step.Yields P) (hnext : ∀ value, P value → (next value).Yields Q) :
    (step >>= next).Yields Q := by
  intro state value after hrun
  obtain ⟨first, between, hfirst, hsecond⟩ := run_bind_eq_ok hrun
  obtain ⟨hkept, hP⟩ := h state first between hfirst
  obtain ⟨hkept', hQ⟩ := hnext first hP between value after hsecond
  exact ⟨hkept'.trans hkept, hQ⟩

/-- A step for each item of a list. -/
theorem yields_mapM {step : α → Build β} {P : β → Prop} {items : List α}
    (h : ∀ item ∈ items, (step item).Yields P) :
    (items.mapM step).Yields fun values => ∀ value ∈ values, P value := by
  induction items with
  | nil =>
    rw [List.mapM_nil]
    exact yields_pure nofun
  | cons item rest ih =>
    obtain ⟨hitem, hrest⟩ := List.forall_mem_cons.1 h
    rw [List.mapM_cons]
    refine hitem.bind fun value hvalue => (ih hrest).bind fun values hvalues => ?_
    exact yields_pure (List.forall_mem_cons.2 ⟨hvalue, hvalues⟩)

theorem yields_forM {step : α → Build Unit} {items : List α}
    (h : ∀ item ∈ items, (step item).Yields fun _ => True) :
    (items.forM step).Yields fun _ => True := by
  induction items with
  | nil => exact yields_pure trivial
  | cons item rest ih =>
    obtain ⟨hitem, hrest⟩ := List.forall_mem_cons.1 h
    exact hitem.bind fun _ _ => ih hrest

/-! ## Nodes -/

theorem yields_node (id : Nat) : (node id).Yields fun _ => True :=
  yields_get.bind fun _ _ => yields_pure trivial

theorem yields_setNode (id : Nat) (node : Node) : (setNode id node).Yields fun _ => True :=
  yields_modify fun _ => rfl

theorem yields_entryTagged? (tag : Tag) (entries : List (Nat × Nat)) :
    (entryTagged? tag entries).Yields fun _ => True :=
  yields_get.bind fun _ _ => yields_pure trivial

theorem yields_meet (id : Nat) : (meet id).Yields fun _ => True := by
  refine yields_modify fun state => ?_
  split <;> rfl

theorem yields_text (fuel id : Nat) : (text fuel id).Yields fun _ => True := by
  induction fuel generalizing id with
  | zero => exact yields_throw _
  | succ fuel ih =>
    refine (yields_node id).bind fun node _ => ?_
    cases node with
    | scalar tag text => exact yields_pure trivial
    | sequence tag items => exact yields_throw _
    | mapping tag entries =>
      refine (yields_entryTagged? .default entries).bind fun found _ => ?_
      cases found with
      | some entry => exact ih entry.2
      | none => exact yields_throw _

theorem yields_wholeText (id : Nat) : (wholeText id).Yields fun _ => True :=
  yields_get.bind fun _ _ => yields_text _ id

/-! ## Items -/

theorem yields_scalar (id : Nat) : (scalar id).Yields Scalar.IsRead := by
  refine (yields_node id).bind fun node _ => ?_
  split
  · refine (yields_wholeText id).bind fun text _ => ?_
    split
    · exact yields_throw _
    · exact yields_liftM fun _ => isRead_of_scalarValue
  · exact yields_throw _

theorem yields_item (id : Nat) : (item id).Yields Item.IsRead := by
  refine (yields_node id).bind fun node _ => ?_
  split
  · exact (yields_meet id).bind fun _ _ => yields_pure trivial
  · exact (yields_scalar id).bind fun value hvalue => yields_pure hvalue

theorem yields_key (id : Nat) : (key id).Yields Scalar.IsRead := by
  refine (yields_item id).bind fun item hitem => ?_
  split
  · exact (yields_wholeText id).bind fun _ _ => yields_pure trivial
  · exact yields_pure hitem
  · exact yields_throw _

/-! ## Mappings -/

theorem yields_removeMerge? (id : Nat) : (removeMerge? id).Yields fun _ => True := by
  refine (yields_node id).bind fun node _ => (yields_entryTagged? _ _).bind fun found _ => ?_
  cases found with
  | some entry => exact (yields_setNode id _).bind fun _ _ => yields_pure trivial
  | none => exact yields_pure trivial

theorem yields_nameDefaults (entries : List (Nat × Nat)) :
    (nameDefaults entries).Yields fun _ => True := by
  refine yields_forM fun entry _ => (yields_node entry.1).bind fun node _ => ?_
  split
  · exact yields_setNode _ _
  · exact yields_pure trivial

/-- The entries that a mapping takes over. -/
theorem yields_taken {fuel source : Nat} (h : (flatten [] fuel source).Yields fun _ => True) :
    Yields (do
      match ← node source with
      | .mapping _ _ => flatten [] fuel source
      | _ => fail) fun _ => True := by
  refine (yields_node source).bind fun node _ => ?_
  split
  · exact h
  · exact yields_throw _

theorem yields_flatten (taken : List (Nat × Nat)) (fuel id : Nat) :
    (flatten taken fuel id).Yields fun _ => True := by
  induction fuel generalizing taken id with
  | zero => exact yields_throw _
  | succ fuel ih =>
    refine (yields_removeMerge? id).bind fun source _ => ?_
    cases source with
    | none =>
      refine (yields_node id).bind fun node _ => (yields_nameDefaults _).bind fun _ _ => ?_
      exact (yields_setNode id _).bind fun _ _ => yields_pure trivial
    | some source =>
      refine (yields_node source).bind fun node _ => ?_
      dsimp only
      split
      · exact (yields_mapM fun source _ => yields_taken (ih [] source)).bind fun lists _ => ih _ id
      · exact (yields_taken (ih [] source)).bind fun more _ => ih _ id

/-- The entries of a mapping have different keys. -/
theorem yields_entries (id : Nat) : (entries id).Yields fun entries =>
    (∀ entry ∈ entries, entry.1.IsRead ∧ entry.2.IsRead) ∧ KeysApart entries := by
  refine yields_get.bind fun state _ => (yields_flatten [] _ id).bind fun nodes _ => ?_
  refine Yields.bind (yields_mapM (P := fun entry => entry.1.IsRead ∧ entry.2.IsRead) ?_) ?_
  · intro entry _
    refine (yields_key entry.1).bind fun key hkey => ?_
    exact (yields_item entry.2).bind fun item hitem => yields_pure ⟨hkey, hitem⟩
  · intro entries hentries
    obtain ⟨hapart, hfrom⟩ := distinctEntries_spec entries
    refine yields_pure ⟨fun entry hentry => ?_, hapart⟩
    obtain ⟨⟨source, hsource, hkey⟩, ⟨source', hsource', hvalue⟩⟩ := hfrom entry hentry
    rw [hkey, hvalue]
    exact ⟨(hentries source hsource).1, (hentries source' hsource').2⟩

/-! ## Collections -/

theorem yields_pair (id : Nat) : (pair id).Yields fun _ => True := by
  refine (yields_node id).bind fun node _ => ?_
  split
  · rename_i key value
    refine (yields_item key).bind fun _ _ => (yields_item value).bind fun _ _ => yields_pure trivial
  · exact yields_throw _

theorem yields_collection (id : Nat) : (collection id).Yields Collection.IsRead := by
  refine (yields_node id).bind fun node _ => ?_
  split
  · exact (yields_mapM fun part _ => yields_item part).bind fun _ _ => yields_pure trivial
  · exact (yields_entries id).bind fun entries hentries => yields_pure hentries
  · exact (yields_entries id).bind fun _ _ => yields_pure trivial
  · exact (yields_mapM fun part _ => yields_pair part).bind fun _ _ => yields_pure trivial
  · exact (yields_mapM fun part _ => yields_pair part).bind fun _ _ => yields_pure trivial
  · exact yields_throw _

/-- What holds of the collections that have got their parts holds of all of them in the end. -/
theorem isRead_finish {fuel : Nat} {state after : BuildState}
    (hrun : (finish fuel).run state = .ok ((), after))
    (h : ∀ collection ∈ state.collections, collection.IsRead) :
    ∀ collection ∈ after.collections, collection.IsRead := by
  induction fuel generalizing state with
  | zero =>
    cases hrun
    exact h
  | succ fuel ih =>
    obtain ⟨found, between, hget, hrun⟩ := run_bind_eq_ok hrun
    cases hget
    split at hrun
    · cases hrun
      exact h
    · rename_i id rest _
      obtain ⟨_, taken, htaken, hrun⟩ := run_bind_eq_ok hrun
      cases htaken
      obtain ⟨parts, built, hparts, hrun⟩ := run_bind_eq_ok hrun
      obtain ⟨_, set, hset, hrun⟩ := run_bind_eq_ok hrun
      cases hset
      obtain ⟨hkept, hread⟩ := yields_collection id _ _ _ hparts
      refine ih hrun fun collection hcollection => ?_
      rcases Array.mem_or_eq_of_mem_setIfInBounds hcollection with hmem | rfl
      · rw [hkept] at hmem
        exact h collection hmem
      · exact hread

end Build

/-! ## Documents -/

/-- A content that reading can give. -/
structure Content.IsRead (content : Content) : Prop where
  root : content.root.IsRead
  collections : ∀ collection ∈ content.collections, collection.IsRead

theorem isRead_content {graph : Graph} {root : Nat} {content : Content}
    (h : graph.content root = .ok content) : content.IsRead := by
  rw [Graph.content] at h
  obtain ⟨⟨item, state⟩, hrun, heq⟩ := bind_eq_ok_iff.1 h
  cases heq
  obtain ⟨found, between, hitem, hrun⟩ := Build.run_bind_eq_ok hrun
  obtain ⟨_, after, hfinish, hpure⟩ := Build.run_bind_eq_ok hrun
  cases hpure
  obtain ⟨hkept, hread⟩ := Build.yields_item root _ _ _ hitem
  refine ⟨hread, Build.isRead_finish hfinish fun collection hcollection => ?_⟩
  -- All collections are empty before any has got its parts.
  rw [hkept] at hcollection
  obtain ⟨-, rfl⟩ := Array.mem_replicate.1 hcollection
  trivial

theorem isRead_of_parse {text : String} {content : Content} (h : parse text = .ok content) :
    content.IsRead := by
  rw [parse] at h
  obtain ⟨composed, -, h⟩ := bind_eq_ok_iff.1 h
  cases composed with
  | some found => exact isRead_content h
  | none =>
    cases h
    exact ⟨trivial, by simp [Content.ofScalar]⟩

namespace Content

variable {content : Content}

theorem isRead_collection (h : content.IsRead) (id : Nat) : (content.collection id).IsRead := by
  rw [collection]
  cases hget : content.collections[id]? with
  | none => trivial
  | some found => exact h.collections found (Array.mem_of_getElem? hget)

/-- The view of entries that reading can give. -/
theorem isRead_entries {entries : List (Scalar × Item)} {inner : Scalar → Item → Value}
    (h : (Collection.mapping entries).IsRead)
    (hinner : ∀ key (item : Item), item.IsRead → (inner key item).IsRead) :
    (Value.mapping (entries.map fun (key, item) => (key, inner key item))).IsRead := by
  obtain ⟨hentries, hapart⟩ := h
  refine .mapping ?_ ?_ ?_
  · intro entry hentry
    obtain ⟨source, hsource, rfl⟩ := List.mem_map.1 hentry
    exact (hentries source hsource).1
  · intro entry hentry
    obtain ⟨source, hsource, rfl⟩ := List.mem_map.1 hentry
    exact hinner source.1 source.2 (hentries source hsource).2
  · exact List.pairwise_map.2 hapart

theorem isRead_unfoldInside (h : content.IsRead) (fuel : Nat) (opened : List Nat) {item : Item}
    (hitem : item.IsRead) : (content.unfoldInside fuel opened item).IsRead := by
  induction fuel generalizing opened item with
  | zero =>
    cases item with
    | scalar value => exact .scalar hitem
    | collection id => exact .again _
  | succ fuel ih =>
    cases item with
    | scalar value => exact .scalar hitem
    | collection id =>
      rw [unfoldInside]
      split
      · exact .again _
      · have hcollection := isRead_collection h id
        dsimp only
        split
        · exact .sequence _
        · rename_i entries hentries
          rw [hentries] at hcollection
          exact isRead_entries hcollection fun _ item hitem => ih (id :: opened) hitem
        · exact .set _
        · exact .pairs _

theorem isRead_unfold (h : content.IsRead) {item : Item} (hitem : item.IsRead) :
    (content.unfold item).IsRead :=
  isRead_unfoldInside h _ [] hitem

theorem isRead_viewAt (h : content.IsRead) (looksInto : List Scalar → Bool) (levels : Nat)
    (path : List Scalar) {item : Item} (hitem : item.IsRead) :
    (content.viewAt looksInto levels path item).IsRead := by
  induction levels generalizing path item with
  | zero => cases item <;> exact isRead_unfold h hitem
  | succ levels ih =>
    cases item with
    | scalar value => exact isRead_unfold h hitem
    | collection id =>
      rw [viewAt]
      have hcollection := isRead_collection h id
      split
      · rename_i entries hentries _
        rw [hentries] at hcollection
        exact isRead_entries hcollection fun key item hitem => ih (path ++ [key]) hitem
      · exact isRead_unfold h hitem

/-- Every view of the content of a text is a value that reading can give. -/
theorem isRead_view {text : String} (h : parse text = .ok content)
    (looksInto : List Scalar → Bool) (levels : Nat) : (content.view looksInto levels).IsRead :=
  have hread := isRead_of_parse h
  isRead_viewAt hread looksInto levels [] hread.root

end Content

end PropertyWrapper.Document
