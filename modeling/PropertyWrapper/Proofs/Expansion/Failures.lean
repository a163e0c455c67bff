import PropertyWrapper.Proofs.Expansion.Declared
import PropertyWrapper.Proofs.Expansion.Idempotence
import PropertyWrapper.Proofs.Expansion.Reach

/-!
# Expansions that stop

Problems with wrappers do not stop an expansion, they are reported. What stops the expansion of a source
that can be read is a part that cannot be written, or a generated text that cannot be read back. The latter
happens at one statement with a wrapper: a piece of the source or of the registry does not fit into the
template that it is put into.

* `unreadable_of_statements` : the text of synthesized declarations can only be unreadable;
* `error_of_introspectBody`, `error_of_expandBody` : what can stop the passes;
* `outcome_or_unreadable` : a readable source has an outcome unless one of the two reasons applies.
-/

namespace PropertyWrapper

open Source Text

namespace Trace

variable {α β : Type}

/-- A sequence that stops does so in one of its steps. -/
theorem error_bind {trace : Trace α} {next : α → Trace β} {error : ExpansionError}
    (h : (trace >>= next).result = .error error) :
    trace.result = .error error ∨ ∃ a, trace.result = .ok a ∧ (next a).result = .error error := by
  change (trace.andThen next).result = _ at h
  rw [andThen] at h
  split at h
  · rename_i a ha
    exact .inr ⟨a, ha, h⟩
  · rename_i error' herror
    cases h
    exact .inl herror

theorem error_printing {result : Except PrintError α} {error : ExpansionError}
    (h : (printing result).result = .error error) : ∃ reason, error = .print reason := by
  obtain ⟨reason, -, heq⟩ := mapError_eq_error_iff.1 h
  exact ⟨reason, heq.symm⟩

end Trace

/-! ## Texts of declarations -/

theorem render_of_forwarding {property storage member : String} {type : Option LooseText} {isSettable : Bool} :
    ∀ accessor ∈ forwarding property storage member type isSettable,
      ∃ text, accessor.render = .ok text := by
  cases isSettable with
  | false => exact List.forall_mem_singleton.2 ⟨_, rfl⟩
  | true => exact List.forall_mem_cons.2 ⟨⟨_, rfl⟩, List.forall_mem_singleton.2 ⟨_, rfl⟩⟩

/-- There is a template for everything that is synthesized. -/
theorem renders_synthesize (config : WrapperConfig) (attr : Attribute) (target : Target) :
    (∃ texts, (synthesize config attr target).declarations.accessors.mapM Accessor.render = .ok texts)
      ∧ ∃ texts, (synthesize config attr target).declarations.peers.mapM Peer.render = .ok texts := by
  unfold synthesize
  split
  · rename_i member identifier hsingle
    refine ⟨mapM_eq_ok_of_forall render_of_forwarding, mapM_eq_ok_of_forall ?_⟩
    refine List.forall_mem_cons.2 ⟨⟨_, rfl⟩, ?_⟩
    intro peer hpeer
    obtain ⟨computed, hcomputed, rfl⟩ := Option.map_eq_some_iff.1 (Option.mem_toList.1 hpeer)
    obtain ⟨type, -, rfl⟩ := Option.map_eq_some_iff.1 hcomputed
    exact mapM_eq_ok_of_forall render_of_forwarding
  · exact ⟨⟨_, rfl⟩, ⟨_, rfl⟩⟩

theorem unreadable_of_readRendered {texts : List LooseText} {error : RenderError}
    (h : readRendered texts = .error error) : ∃ reason, error = .unreadable reason := by
  unfold readRendered at h
  split at h
  · dsimp only at h
    split at h
    · cases h
    · obtain ⟨reason, -, heq⟩ := mapError_eq_error_iff.1 h
      exact ⟨reason, heq.symm⟩
  · cases h
    exact ⟨_, rfl⟩

/-- Synthesized declarations have statements unless their text is unreadable. -/
theorem unreadable_of_statements {config : WrapperConfig} {attr : Attribute} {target : Target}
    {error : RenderError} (h : (synthesize config attr target).declarations.statements = .error error) :
    ∃ reason, error = .unreadable reason := by
  obtain ⟨⟨texts, htexts⟩, ⟨texts', htexts'⟩⟩ := renders_synthesize config attr target
  rcases bind_eq_error_iff.1 h with h | ⟨_, -, h⟩
  · cases htexts.symm.trans h
  rcases bind_eq_error_iff.1 h with h | ⟨accessors, -, h⟩
  · exact unreadable_of_readRendered h
  rcases bind_eq_error_iff.1 h with h | ⟨_, -, h⟩
  · cases htexts'.symm.trans h
  rcases bind_eq_error_iff.1 h with h | ⟨peers, -, h⟩
  · exact unreadable_of_readRendered h
  · cases h

/-! ## The first pass -/

theorem error_of_introspectBody_cons {filename : String} {stmt : Stmt} {rest : List Stmt}
    {error : ExpansionError} (h : (introspectBody filename (stmt :: rest)).result = .error error) :
    (introspectStmt filename stmt).result = .error error
      ∨ (introspectBody filename rest).result = .error error := by
  rw [introspectBody] at h
  rcases Trace.error_bind h with h | ⟨first, -, h⟩
  · exact .inl h
  · rcases Trace.error_bind h with h | ⟨others, -, h⟩
    · exact .inr h
    · cases h

theorem error_of_introspectMark {filename : String} {stmt : Stmt} {error : ExpansionError}
    (h : (introspectMark filename stmt).result = .error error) : ∃ reason, error = .print reason := by
  unfold introspectMark at h
  split at h
  · cases h
  · rcases Trace.error_bind h with h | ⟨declaration, -, h⟩
    · exact Trace.error_printing h
    · rcases Trace.error_bind h with h | ⟨attr, -, h⟩
      · exact Trace.error_printing h
      · split at h
        · cases h
        · cases h

/-- The first pass stops only where a part of the source cannot be written. -/
theorem error_of_introspectBody {filename : String} (body : List Stmt) {error : ExpansionError}
    (h : (introspectBody filename body).result = .error error) : ∃ reason, error = .print reason := by
  induction body using bodyInduction with
  | nil => cases h
  | other stmt rest hclass ih =>
    rcases error_of_introspectBody_cons h with h | h
    · rw [introspectStmt_of_not_class hclass] at h
      exact error_of_introspectMark h
    · exact ih h
  | classDef line name bases keywords inner decorators rest ihinner ihrest =>
    rcases error_of_introspectBody_cons h with h | h
    · rw [introspectStmt] at h
      rcases Trace.error_bind h with h | ⟨inner', -, h⟩
      · exact ihinner h
      · exact error_of_introspectMark h
    · exact ihrest h

/-! ## The second pass -/

/-- An expansion stops at a statement because the text of its declarations is unreadable. -/
def StopsAt (registry : Registry) (error : ExpansionError) (stmt : Stmt) : Prop :=
  ∃ declarations reason, Declares registry stmt declarations
    ∧ declarations.statements = .error (.unreadable reason) ∧ error = .render (.unreadable reason)

/-- A pass over some statements of class bodies stops at one of them, or because something cannot be
written. A class is reached with what the pass has made of its body. -/
def Stops (registry : Registry) (error : ExpansionError) (members : List Stmt) : Prop :=
  (∃ reason, error = .print reason)
    ∨ ∃ member ∈ members, ∃ stmt, SameHead member stmt ∧ StopsAt registry error stmt

theorem Stops.of_subset {registry : Registry} {error : ExpansionError} {members members' : List Stmt}
    (h : Stops registry error members) (hsubset : members ⊆ members') : Stops registry error members' := by
  rcases h with h | ⟨member, hmember, hstop⟩
  · exact .inl h
  · exact .inr ⟨member, hsubset hmember, hstop⟩

theorem error_of_ignoreAttachments {line : Nat} {extras : List Attachment} {error : ExpansionError}
    (h : (ignoreAttachments line extras).result = .error error) : ∃ reason, error = .print reason := by
  induction extras with
  | nil => cases h
  | cons extra extras ih =>
    rw [ignoreAttachments] at h
    rcases Trace.error_bind h with h | ⟨text, -, h⟩
    · exact Trace.error_printing h
    · rcases Trace.error_bind h with h | ⟨_, -, h⟩
      · cases h
      · exact ih h

theorem error_of_expandMember {registry : Registry} {filename : String} {stmt : Stmt}
    {error : ExpansionError} (h : (expandMember registry filename stmt).result = .error error) :
    (∃ reason, error = .print reason) ∨ StopsAt registry error stmt := by
  unfold expandMember at h
  split at h
  · cases h
  · rename_i first extras hsome
    rcases Trace.error_bind h with h | ⟨_, -, h⟩
    · exact .inl (error_of_ignoreAttachments h)
    rcases Trace.error_bind h with h | ⟨attr, hattr, h⟩
    · exact .inl (Trace.error_printing h)
    rcases Trace.error_bind h with h | ⟨target, htarget, h⟩
    · exact .inl (Trace.error_printing h)
    rcases Trace.error_bind h with h | ⟨_, -, h⟩
    · cases h
    obtain ⟨reason, hstatements, rfl⟩ := mapError_eq_error_iff.1 h
    obtain ⟨fault, rfl⟩ := unreadable_of_statements hstatements
    rw [Trace.result_printing] at hattr htarget
    exact .inr ⟨_, fault, ⟨first, extras, attr, target, hsome, hattr, htarget, rfl⟩, hstatements, rfl⟩

theorem error_of_expandBody_cons {registry : Registry} {filename : String} {inClass : Bool} {stmt : Stmt}
    {rest : List Stmt} {error : ExpansionError}
    (h : (expandBody registry filename inClass (stmt :: rest)).result = .error error) :
    (expandStmt registry filename inClass stmt).result = .error error
      ∨ (expandBody registry filename inClass rest).result = .error error := by
  rw [expandBody] at h
  rcases Trace.error_bind h with h | ⟨first, -, h⟩
  · exact .inl h
  · rcases Trace.error_bind h with h | ⟨others, -, h⟩
    · exact .inr h
    · cases h

/-- The second pass stops only where something cannot be written, or at a statement with a wrapper. -/
theorem error_of_expandBody {registry : Registry} {filename : String} {inClass : Bool}
    (body : List Stmt) {error : ExpansionError}
    (h : (expandBody registry filename inClass body).result = .error error) :
    Stops registry error (bodyMembers inClass body) := by
  induction body using bodyInduction generalizing inClass with
  | nil => cases h
  | other stmt rest hclass ih =>
    rw [bodyMembers, members_of_not_class hclass]
    rcases error_of_expandBody_cons h with h | h
    · rw [expandStmt_of_not_class hclass] at h
      cases inClass with
      | false => cases h
      | true =>
        rcases error_of_expandMember h with hprint | hstop
        · exact .inl hprint
        · exact .inr ⟨stmt, List.mem_cons_self, stmt, .refl stmt, hstop⟩
    · exact (ih h).of_subset (List.subset_append_right _ _)
  | classDef line name bases keywords inner decorators rest ihinner ihrest =>
    rw [bodyMembers, Stmt.members]
    rcases error_of_expandBody_cons h with h | h
    · refine Stops.of_subset ?_ (List.subset_append_left _ _)
      rw [expandStmt] at h
      rcases Trace.error_bind h with h | ⟨inner', -, h⟩
      · exact (ihinner h).of_subset (List.subset_append_left _ _)
      · cases inClass with
        | false => cases h
        | true =>
          rcases error_of_expandMember h with hprint | hstop
          · exact .inl hprint
          · exact .inr ⟨_, List.mem_append_right _ (List.mem_singleton_self _), _, .classDef, hstop⟩
    · exact (ihrest h).of_subset (List.subset_append_right _ _)

/-! ## Sources -/

/-- The expansion of a source that can be read gives an outcome, unless a part of it cannot be written or
the generated text of one statement with a wrapper cannot be read. -/
theorem outcome_or_unreadable (registry : Registry) (filename source : String) (body : List Stmt)
    (hread : parseModule source = .ok body) :
    (∃ outcome, (expandSource registry filename source).result = .ok outcome)
      ∨ (∃ reason, (expandSource registry filename source).result = .error (.print reason))
      ∨ ∃ marked error, (introspectBody filename body).result = .ok marked
        ∧ (expandSource registry filename source).result = .error error
        ∧ ∃ member ∈ bodyMembers false marked, ∃ stmt, SameHead member stmt
          ∧ StopsAt (registry.overlay (configEntries (introspectBody filename body).events)) error stmt := by
  cases hresult : (expandSource registry filename source).result with
  | ok outcome => exact .inl ⟨outcome, rfl⟩
  | error error =>
    refine .inr ?_
    have hprint : ∀ {e : ExpansionError}, (∃ reason, e = .print reason) →
        ∃ reason, (.error e : Except ExpansionError Outcome) = .error (.print reason) := by
      rintro _ ⟨reason, rfl⟩
      exact ⟨reason, rfl⟩
    rcases Trace.error_bind hresult with h | ⟨body₁, hbody₁, h⟩
    · rw [hread] at h
      cases h
    obtain rfl : body = body₁ := Except.ok.inj (hread.symm.trans (mapError_eq_ok_iff.1 hbody₁))
    rcases Trace.error_bind h with h | ⟨body', hbody', h⟩
    · -- The passes stop; adding imports cannot fail.
      rcases Trace.error_bind h with h | ⟨tree, -, h⟩
      · rcases Trace.error_bind h with h | ⟨marked, hmarked, h⟩
        · exact .inl (hprint (error_of_introspectBody body h))
        · rcases error_of_expandBody marked h with hprinted | hstop
          · exact .inl (hprint hprinted)
          · exact .inr ⟨marked, error, hmarked, rfl, hstop⟩
      · cases h
    · split at h
      · cases h
      · rcases Trace.error_bind h with h | ⟨text, -, h⟩
        · exact .inl (hprint (Trace.error_printing h))
        · cases h

/-! ## Instances -/

/-- Whether a result is that of a generated text that cannot be read. -/
def isUnreadable : Except ExpansionError Outcome → Bool
  | .error (.render (.unreadable _)) => true
  | _ => false

/-- A property whose type can stand in an annotation with metadata, but not behind an arrow. -/
def starredSource : String := "class A:\n    x: Annotated[*Ts, E]\n"

/-- A property with a slice in the place of its type. -/
def slicedSource : String := "class A:\n    x: Annotated[1:2, E]\n"

/-- A source can be read, and its expansion stops at a text that cannot. -/
def StopsUnreadable (source : String) : Prop :=
  (parseModule source).toOption.isSome = true
    ∧ isUnreadable (expandSource soleWrapper "m.py" source).result = true

instance (source : String) : Decidable (StopsUnreadable source) :=
  inferInstanceAs (Decidable (_ ∧ _))

theorem stopsUnreadable_starredSource : StopsUnreadable starredSource := by
  rw [StopsUnreadable, Direct.parseModule_eq, Direct.expandSource_eq]
  decide +kernel

/-- Neither source gives an outcome, although both can be read. -/
theorem stops_on_readable_sources : StopsUnreadable starredSource ∧ StopsUnreadable slicedSource := by
  refine ⟨stopsUnreadable_starredSource, ?_⟩
  rw [StopsUnreadable, Direct.parseModule_eq, Direct.expandSource_eq]
  decide +kernel

/-- The expansion of the source stops at a statement whose generated text cannot be read. -/
theorem unreadable_starredSource :
    ∃ body marked error, parseModule starredSource = .ok body
      ∧ (introspectBody "m.py" body).result = .ok marked
      ∧ ∃ member ∈ bodyMembers false marked, ∃ stmt, SameHead member stmt
        ∧ StopsAt (soleWrapper.overlay (configEntries (introspectBody "m.py" body).events)) error stmt := by
  obtain ⟨hsome, hunreadable⟩ := stopsUnreadable_starredSource
  obtain ⟨body, hbody⟩ := Option.isSome_iff_exists.1 hsome
  have hread := eq_ok_of_toOption hbody
  rcases outcome_or_unreadable soleWrapper "m.py" starredSource body hread with
    ⟨outcome, h⟩ | ⟨reason, h⟩ | ⟨marked, error, hmarked, h, hstop⟩
  · rw [h] at hunreadable
    cases hunreadable
  · rw [h] at hunreadable
    cases hunreadable
  · exact ⟨body, marked, error, hread, hmarked, hstop⟩

end PropertyWrapper
