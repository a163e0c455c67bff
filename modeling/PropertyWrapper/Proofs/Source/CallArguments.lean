import PropertyWrapper.Proofs.Source.Ascending
import PropertyWrapper.Proofs.Source.Heads
import PropertyWrapper.Proofs.Source.ModuleCalls

/-!
# Arguments in source order

A tree keeps the positional and the named arguments of a call apart. Together they are the arguments as
they were read: each in exactly one of the two lists, with places that ascend, and in an order that the
grammar allows.

* `CallArgument` : the four shapes of an argument;
* `Call.Lists` : some arguments in source order are those of a call;
* `yields_arguments` : what a step of the reader adds comes behind all that it has, so all arguments that
  are read are in source order;
* `isListed_of_isRead` : so are those of every call in a module or an expression.
-/

namespace PropertyWrapper.Source

open Reader

/-! ## Arguments -/

/-- How an argument is passed: in its place, as an unpacked sequence, by name, or as an unpacked mapping.
-/
inductive ArgumentRole where
  | plain | sequence | named | mapping
deriving DecidableEq, Repr

namespace ArgumentRole

/-- Whether an argument is named or an unpacked mapping. -/
def isKeyword : ArgumentRole → Bool
  | named | mapping => true
  | plain | sequence => false

/-- Whether an argument may stand in front of another one: a plain one does not follow a named one or an
unpacked mapping, and an unpacked sequence does not follow an unpacked mapping. -/
def mayPrecede (role : ArgumentRole) : ArgumentRole → Bool
  | plain => !role.isKeyword
  | sequence => role != mapping
  | named | mapping => true

end ArgumentRole

/-- An argument of a call as the grammar has it. -/
inductive CallArgument where
  | plain (value : Expr)
  | sequence (pos : Position) (value : Expr)
  | named (pos : Position) (label : String) (value : Expr)
  | mapping (pos : Position) (value : Expr)

namespace CallArgument

/-- Where an argument starts. -/
def pos : CallArgument → Position
  | plain value => value.pos
  | sequence pos _ => pos
  | named pos _ _ => pos
  | mapping pos _ => pos

/-- The value of an argument. -/
def value : CallArgument → Expr
  | plain value => value
  | sequence _ value => value
  | named _ _ value => value
  | mapping _ value => value

/-- An argument among the positional ones of the tree. -/
def positional? : CallArgument → Option Expr
  | plain value => some value
  | sequence pos value => some (.starred pos value)
  | _ => none

/-- An argument among the named ones of the tree. -/
def keyword? : CallArgument → Option Keyword
  | named pos label value => some (.mk pos (some label) value)
  | mapping pos value => some (.mk pos none value)
  | _ => none

/-- How an argument is passed. -/
def role : CallArgument → ArgumentRole
  | plain _ => .plain
  | sequence .. => .sequence
  | named .. => .named
  | mapping .. => .mapping

end CallArgument

/-- Some arguments in source order are those of a call. Their places ascend, the grammar allows their
order, and no value starts with a star. -/
structure Call.Lists (call : Call) (arguments : List CallArgument) : Prop where
  args : arguments.filterMap CallArgument.positional? = call.args
  keywords : arguments.filterMap CallArgument.keyword? = call.keywords
  ordered : arguments.Pairwise fun a b => a.pos.Before b.pos
  legal : arguments.Pairwise fun a b => a.role.mayPrecede b.role = true
  led : ∀ argument ∈ arguments, argument.value.leads = true

/-! ## One argument -/

/-- The arguments read so far with one more. -/
def ArgumentState.add (s : ArgumentState) (argument : CallArgument) : ArgumentState where
  args := argument.positional?.toList ++ s.args
  keywords := argument.keyword?.toList ++ s.keywords
  unpacked := s.unpacked || argument.role == .mapping

/-- Whether an argument may follow those read so far. -/
def ArgumentState.admits (s : ArgumentState) : CallArgument → Bool
  | .plain _ => s.keywords.isEmpty
  | .sequence .. => !s.unpacked
  | _ => true

variable {g : Grammar} {tokens : Array Token} {start index stop : Nat} {s s' : ArgumentState}

/-- One argument is read, which may follow those in front of it. -/
theorem argument_eq_ok (hg : g.Heads) (hs : s.IsSound) (hwords : WordTokens tokens)
    (h : argument g s tokens index = .ok (s', stop)) :
    ∃ argument : CallArgument, s' = s.add argument ∧ s.admits argument = true
      ∧ argument.value.leads = true ∧ StartsIn tokens index stop argument.pos := by
  have hindex : index + 1 ≤ stop :=
    (reads_argument hg.sound hs tokens index s' stop hwords trivial h).1
  have hfirst : StartsIn tokens index stop (tokenAt tokens index).pos :=
    ⟨index, Nat.le_refl _, hindex, rfl⟩
  have hleads : ∀ {i j : Nat} {value : Expr}, g.expression tokens i = .ok (value, j) →
      value.leads = true :=
    fun heq => (hg.expression tokens _ _ _ hwords trivial heq).2
  obtain ⟨pos, middle, hpos, hrest⟩ := Reads.bind_eq_ok h
  cases hpos
  obtain ⟨kind, middle, hkind, hrest⟩ := Reads.bind_eq_ok hrest
  cases hkind
  obtain ⟨kind', middle, hkind', hshape⟩ := Reads.bind_eq_ok hrest
  cases hkind'
  clear h hrest
  generalize (tokenAt tokens (index + 0)).kind = kind at hshape
  generalize (tokenAt tokens (index + 1)).kind = kind' at hshape
  split at hshape
  · split at hshape
    · cases hshape
    · rename_i hunpacked
      obtain ⟨_, middle, -, h⟩ := Reads.bind_eq_ok hshape
      obtain ⟨value, last, hvalue, h⟩ := Reads.bind_eq_ok h
      cases h
      refine ⟨.sequence (tokenAt tokens index).pos value, ?_, ?_, hleads hvalue, hfirst⟩
      · simp [ArgumentState.add, CallArgument.positional?, CallArgument.keyword?, CallArgument.role]
      · simpa [ArgumentState.admits] using hunpacked
  · obtain ⟨_, middle, -, h⟩ := Reads.bind_eq_ok hshape
    obtain ⟨value, last, hvalue, h⟩ := Reads.bind_eq_ok h
    cases h
    refine ⟨.mapping (tokenAt tokens index).pos value, ?_, rfl, hleads hvalue, hfirst⟩
    simp [ArgumentState.add, CallArgument.positional?, CallArgument.keyword?, CallArgument.role]
  · rename_i label
    obtain ⟨_, middle, -, h⟩ := Reads.bind_eq_ok hshape
    obtain ⟨_, middle', -, h⟩ := Reads.bind_eq_ok h
    obtain ⟨value, last, hvalue, h⟩ := Reads.bind_eq_ok h
    cases h
    refine ⟨.named (tokenAt tokens index).pos label value, ?_, rfl, hleads hvalue, hfirst⟩
    simp [ArgumentState.add, CallArgument.positional?, CallArgument.keyword?, CallArgument.role]
  · split at hshape
    · rename_i hempty
      obtain ⟨value, last, hvalue, h⟩ := Reads.bind_eq_ok hshape
      cases h
      obtain ⟨hpos, hvalue⟩ := heads_namedExpression hg tokens index value _ hwords trivial hvalue
      refine ⟨.plain value, ?_, hempty, hvalue, hpos.resolve_left id⟩
      simp [ArgumentState.add, CallArgument.positional?, CallArgument.keyword?, CallArgument.role]
    · cases hshape

/-! ## All arguments -/

/-- The arguments read so far, the last one first, are in source order and stand in front of an index. -/
structure Gathered (tokens : Array Token) (start index : Nat) (s : ArgumentState)
    (arguments : List CallArgument) : Prop where
  sound : s.IsSound
  bound : start ≤ index
  inLine : InLine tokens start index
  args : s.args = arguments.filterMap CallArgument.positional?
  keywords : s.keywords = arguments.filterMap CallArgument.keyword?
  unpacked : s.unpacked = arguments.any (·.role == .mapping)
  placed : ∀ argument ∈ arguments, StartsIn tokens start index argument.pos
  ordered : arguments.Pairwise fun later earlier => earlier.pos.Before later.pos
  legal : arguments.Pairwise fun later earlier => earlier.role.mayPrecede later.role = true
  led : ∀ argument ∈ arguments, argument.value.leads = true

namespace Gathered

variable {arguments : List CallArgument}

theorem empty (tokens : Array Token) (start : Nat) : Gathered tokens start start {} [] where
  sound := ⟨rfl, rfl⟩
  bound := Nat.le_refl _
  inLine := .refl tokens start
  args := rfl
  keywords := rfl
  unpacked := rfl
  placed := by simp
  ordered := .nil
  legal := .nil
  led := by simp

/-- Tokens that add no argument. -/
theorem forward (h : Gathered tokens start index s arguments) (hindex : index ≤ stop)
    (hline : InLine tokens index stop) : Gathered tokens start stop s arguments :=
  { h with
    bound := Nat.le_trans h.bound hindex
    inLine := h.inLine.trans hline
    placed := fun argument hmem => (h.placed argument hmem).widen (Nat.le_refl _) hindex }

/-- An argument that may follow the state may follow each argument in it. -/
theorem mayPrecede_of_admits (h : Gathered tokens start index s arguments) {argument : CallArgument}
    (hadmits : s.admits argument = true) :
    ∀ earlier ∈ arguments, earlier.role.mayPrecede argument.role = true := by
  intro earlier hearlier
  cases argument with
  | plain value =>
    have hnone : arguments.filterMap CallArgument.keyword? = [] := by
      rw [← h.keywords]
      exact List.isEmpty_iff.1 hadmits
    have hearlier : earlier.keyword? = none := List.filterMap_eq_nil_iff.1 hnone earlier hearlier
    cases earlier with
    | plain | sequence => rfl
    | named | mapping => cases hearlier
  | sequence pos value =>
    have hnone : arguments.any (·.role == .mapping) = false := by
      rw [← h.unpacked]
      simpa [ArgumentState.admits] using hadmits
    simpa [CallArgument.role, ArgumentRole.mayPrecede] using List.any_eq_false.1 hnone earlier hearlier
  | named => rfl
  | mapping => rfl

/-- One more argument comes behind all others. -/
theorem add (htokens : Ascending tokens) (hg : g.Heads) (h : Gathered tokens start index s arguments)
    (hread : argument g s tokens index = .ok (s', stop)) :
    ∃ argument, Gathered tokens start stop s' (argument :: arguments) := by
  obtain ⟨hindex, hline, hsound⟩ :=
    reads_argument hg.sound h.sound tokens index s' stop htokens.words trivial hread
  obtain ⟨argument, rfl, hadmits, hleads, hpos⟩ := argument_eq_ok hg h.sound htokens.words hread
  have hlines : InLine tokens start stop := h.inLine.trans hline
  have hbound : start ≤ index := h.bound
  refine ⟨argument, hsound, by omega, hlines, ?_, ?_, ?_, ?_, ?_, ?_, ?_⟩
  · rw [ArgumentState.add, h.args, List.filterMap_cons]
    cases argument.positional? with
    | none => rfl
    | some value => rfl
  · rw [ArgumentState.add, h.keywords, List.filterMap_cons]
    cases argument.keyword? with
    | none => rfl
    | some keyword => rfl
  · rw [ArgumentState.add, h.unpacked, List.any_cons, Bool.or_comm]
  · refine List.forall_mem_cons.2 ⟨hpos.widen hbound (Nat.le_refl _), fun earlier hearlier => ?_⟩
    exact (h.placed earlier hearlier).widen (Nat.le_refl _) (by omega)
  · refine List.pairwise_cons.2 ⟨fun earlier hearlier => ?_, h.ordered⟩
    obtain ⟨i, hi, hi', hpos'⟩ := h.placed earlier hearlier
    obtain ⟨j, hj, hj', hpos⟩ := hpos
    rw [← hpos, ← hpos']
    exact htokens.before i j (by omega) (hlines i hi (by omega)) (hlines j (by omega) hj')
  · exact List.pairwise_cons.2 ⟨h.mayPrecede_of_admits hadmits, h.legal⟩
  · exact List.forall_mem_cons.2 ⟨hleads, h.led⟩

end Gathered

/-- All further arguments come behind the first ones. -/
theorem moreArguments_eq_ok (htokens : Ascending tokens) (hg : g.Heads) {arguments : List CallArgument}
    (hs : Gathered tokens start index s arguments)
    (h : moreArguments g s tokens index = .ok (s', stop)) :
    ∃ arguments last, Gathered tokens start last s' arguments := by
  obtain ⟨s'', last, hrun, h⟩ := Reads.bind_eq_ok h
  obtain ⟨_, _, -, h⟩ := Reads.bind_eq_ok h
  cases h
  refine (repeatStep_keeps (I := fun index s => ∃ arguments, Gathered tokens start index s arguments)
    ?_ ⟨arguments, hs⟩ hrun).imp fun arguments h => ⟨last, h⟩
  rintro index s next stop ⟨arguments, hs⟩ hstep
  obtain ⟨found, middle, hcomma, h⟩ := Reads.bind_eq_ok hstep
  clear hstep
  rcases accept_eq_ok hcomma with ⟨rfl, rfl, hkind⟩ | ⟨rfl, rfl⟩
  · have hbehind : Gathered tokens start (index + 1) s arguments :=
      hs.forward (Nat.le_succ _) (.single (by rw [hkind]; rfl))
    obtain ⟨kind, middle, hpeek, h⟩ := Reads.bind_eq_ok h
    cases hpeek
    split at h
    · obtain ⟨s', middle, hread, h⟩ := Reads.bind_eq_ok h
      cases h
      obtain ⟨argument, hadd⟩ := hbehind.add htokens hg hread
      exact ⟨argument :: arguments, hadd⟩
    · cases h
      exact ⟨arguments, hbehind⟩
  · cases h
    exact ⟨arguments, hs⟩

theorem Gathered.lists {arguments : List CallArgument} (h : Gathered tokens start index s arguments) :
    Call.Lists ⟨s.args.reverse, s.keywords.reverse⟩ arguments.reverse where
  args := by rw [List.filterMap_reverse, h.args]
  keywords := by rw [List.filterMap_reverse, h.keywords]
  ordered := List.pairwise_reverse.2 h.ordered
  legal := List.pairwise_reverse.2 h.legal
  led := by simpa using h.led

/-- The arguments of a call in source order. -/
def Call.IsListed (call : Call) : Prop := ∃ arguments, call.Lists arguments

theorem isListed_single {value : Expr} (h : value.leads = true) : Call.IsListed ⟨[value], []⟩ :=
  ⟨[.plain value], rfl, rfl, List.pairwise_singleton _ _, List.pairwise_singleton _ _,
    List.forall_mem_singleton.2 h⟩

/-- The arguments that are read between parentheses are in source order. -/
theorem yields_arguments (hg : g.Heads) (generators : Bool) (pos : Position) :
    Yields Ascending (fun found => Call.IsListed ⟨found.1, found.2⟩) (arguments g generators pos) := by
  intro tokens index found stop htokens h
  obtain ⟨closed, middle, hclosed, h⟩ := Reads.bind_eq_ok h
  cases closed with
  | true =>
    cases h
    exact ⟨[], rfl, rfl, .nil, .nil, by simp⟩
  | false =>
    obtain ⟨s, middle', hread, h⟩ := Reads.bind_eq_ok h
    obtain ⟨first, hs⟩ := (Gathered.empty tokens middle).add htokens hg hread
    obtain ⟨kind, middle'', hpeek, h⟩ := Reads.bind_eq_ok h
    cases hpeek
    generalize (generators && (tokenAt tokens (middle' + 0)).kind.startsClause) = isGenerator at h
    generalize s.args = args at h
    split at h
    · split at h
      · cases h
      · obtain ⟨clauses, last, -, h⟩ := Reads.bind_eq_ok h
        obtain ⟨_, last', -, h⟩ := Reads.bind_eq_ok h
        cases h
        exact isListed_single rfl
    · obtain ⟨s', last, hmore, h⟩ := Reads.bind_eq_ok h
      cases h
      obtain ⟨arguments, last, hgathered⟩ := moreArguments_eq_ok htokens hg hs hmore
      exact ⟨arguments.reverse, hgathered.lists⟩

/-! ## Calls that are read -/

/-- A call that occurs in a module or an expression that is read. -/
def Call.IsRead (call : Call) : Prop :=
  (∃ source body, parseModule source = .ok body ∧ call ∈ bodyCalls body)
    ∨ ∃ source value, parseExpression source = .ok value ∧ call ∈ value.calls

/-- The arguments of every call that is read are in source order. -/
theorem isListed_of_isRead {call : Call} (h : call.IsRead) : call.IsListed := by
  have harguments := fun fuel => yields_arguments (heads_grammar false fuel)
  rcases h with ⟨source, body, hread, hcall⟩ | ⟨source, value, hread, hcall⟩
  · exact calls_parseModule ascending_tokens harguments hread call hcall
  · exact calls_parseExpression ascending_tokens harguments hread call hcall

end PropertyWrapper.Source
