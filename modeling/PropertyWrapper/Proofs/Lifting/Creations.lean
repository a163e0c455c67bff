import PropertyWrapper.Proofs.Result
import PropertyWrapper.Proofs.Source.Evaluation
import PropertyWrapper.Lifting.Member
import PropertyWrapper.Source.Module

/-!
# Attributes that a function creates on its receiver

A function creates an attribute of its receiver wherever it assigns one, at any depth of its blocks.
The members that are lifted from the function are those of its assignments, except that the cases of
a `match` are passed over, and that the handlers of a `try` come behind all its other blocks.

* `bodyCreated` : all assignments on a receiver, in source order;
* `bodyMissed` : those of them that stand in the cases of a `match`;
* `bodyInOrder` : whether no `try` assigns both in its handlers and in a block behind them;
* `lifts_created` : the lifted members are those of all assignments but the missed ones, and when they
  are complete and in source order.
-/

namespace PropertyWrapper

open Source

/-! ## Assignments on a receiver -/

/-- An assignment of an attribute of a receiver, with its annotation and its value if it has them. -/
structure Creation where
  attr : String
  line : Nat
  hint : Option Expr
  value : Option Expr

/-- The member that an assignment creates: it can be assigned again unless its annotation is final. -/
def Creation.member (creation : Creation) : Except PrintError Member := do
  let (isFinal, type) ←
    match creation.hint with
    | some hint => unwrapFinal hint
    | none => pure (false, none)
  return storedMember creation.attr creation.line isFinal type (← creation.value.mapM Expr.text)

/-- The assignments on a receiver that a statement makes itself, one for each target that is an
attribute of the receiver. -/
def Source.Stmt.creations (receiver : String) : Stmt → List Creation
  | .annAssign line target hint value _ =>
    (receiverAttribute? receiver target).toList.map fun attr => ⟨attr, line, some hint, value⟩
  | .assign line targets value =>
    (targets.filterMap (receiverAttribute? receiver)).map fun attr => ⟨attr, line, none, some value⟩
  | _ => []

mutual

/-- The assignments on a receiver in a statement and in its blocks at any depth, in source order.
Definitions are not entered. -/
def Source.Stmt.created (receiver : String) : Stmt → List Creation
  | .loop _ _ _ _ body orelse => bodyCreated receiver body ++ bodyCreated receiver orelse
  | .whileLoop _ _ body orelse => bodyCreated receiver body ++ bodyCreated receiver orelse
  | .branch _ _ body orelse => bodyCreated receiver body ++ bodyCreated receiver orelse
  | .withBlock _ _ _ body => bodyCreated receiver body
  | .tryBlock _ _ body handlers orelse final =>
    bodyCreated receiver body
      ++ (handlersCreated receiver handlers
        ++ (bodyCreated receiver orelse ++ bodyCreated receiver final))
  | .matchOn _ _ cases => casesCreated receiver cases
  | stmt => stmt.creations receiver

/-- The assignments on a receiver in a block. -/
def bodyCreated (receiver : String) : List Stmt → List Creation
  | [] => []
  | stmt :: rest => stmt.created receiver ++ bodyCreated receiver rest

/-- The assignments on a receiver in the handlers of a `try`. -/
def handlersCreated (receiver : String) : List Handler → List Creation
  | [] => []
  | .mk _ _ body :: rest => bodyCreated receiver body ++ handlersCreated receiver rest

/-- The assignments on a receiver in the cases of a `match`. -/
def casesCreated (receiver : String) : List MatchCase → List Creation
  | [] => []
  | .mk _ _ body :: rest => bodyCreated receiver body ++ casesCreated receiver rest

end

mutual

/-- The assignments on a receiver that stand in the cases of a `match`, in a statement. -/
def Source.Stmt.missed (receiver : String) : Stmt → List Creation
  | .loop _ _ _ _ body orelse => bodyMissed receiver body ++ bodyMissed receiver orelse
  | .whileLoop _ _ body orelse => bodyMissed receiver body ++ bodyMissed receiver orelse
  | .branch _ _ body orelse => bodyMissed receiver body ++ bodyMissed receiver orelse
  | .withBlock _ _ _ body => bodyMissed receiver body
  | .tryBlock _ _ body handlers orelse final =>
    bodyMissed receiver body
      ++ (handlersMissed receiver handlers ++ (bodyMissed receiver orelse ++ bodyMissed receiver final))
  | .matchOn _ _ cases => casesCreated receiver cases
  | _ => []

/-- The assignments on a receiver that stand in the cases of a `match`, in a block. -/
def bodyMissed (receiver : String) : List Stmt → List Creation
  | [] => []
  | stmt :: rest => stmt.missed receiver ++ bodyMissed receiver rest

/-- The assignments on a receiver that stand in the cases of a `match`, in handlers. -/
def handlersMissed (receiver : String) : List Handler → List Creation
  | [] => []
  | .mk _ _ body :: rest => bodyMissed receiver body ++ handlersMissed receiver rest

end

mutual

/-- Whether no `try` in a statement assigns on a receiver both in its handlers and in a block behind
them. -/
def Source.Stmt.InOrder (receiver : String) : Stmt → Prop
  | .loop _ _ _ _ body orelse => bodyInOrder receiver body ∧ bodyInOrder receiver orelse
  | .whileLoop _ _ body orelse => bodyInOrder receiver body ∧ bodyInOrder receiver orelse
  | .branch _ _ body orelse => bodyInOrder receiver body ∧ bodyInOrder receiver orelse
  | .withBlock _ _ _ body => bodyInOrder receiver body
  | .tryBlock _ _ body handlers orelse final =>
    bodyInOrder receiver body ∧ (handlersInOrder receiver handlers
      ∧ (bodyInOrder receiver orelse ∧ bodyInOrder receiver final)
      ∧ (handlersCreated receiver handlers = []
        ∨ bodyCreated receiver orelse ++ bodyCreated receiver final = []))
  | _ => True

/-- Whether no `try` in a block assigns on a receiver both in its handlers and in a block behind
them. -/
def bodyInOrder (receiver : String) : List Stmt → Prop
  | [] => True
  | stmt :: rest => stmt.InOrder receiver ∧ bodyInOrder receiver rest

/-- Whether no `try` in some handlers assigns on a receiver both in its handlers and in a block behind
them. -/
def handlersInOrder (receiver : String) : List Handler → Prop
  | [] => True
  | .mk _ _ body :: rest => bodyInOrder receiver body ∧ handlersInOrder receiver rest

end

/-! ## What is found of what is created -/

/-- How the assignments that were found in a part of a tree are related to those that are created in it:
some were missed, and if none was, the others are in source order under a condition, which is also
necessary where no two assignments are the same. -/
structure Finds (found created missed : List Creation) (inOrder : Prop) : Prop where
  perm : (found ++ missed).Perm created
  eq_of : missed = [] → inOrder → found = created
  inOrder_of : missed = [] → created.Nodup → found = created → inOrder

namespace Finds

variable {found created missed found' created' missed' : List Creation} {inOrder inOrder' : Prop}

theorem all (created : List Creation) : Finds created created [] True where
  perm := by rw [List.append_nil]
  eq_of _ _ := rfl
  inOrder_of _ _ _ := trivial

theorem none (created : List Creation) : Finds [] created created True where
  perm := by rw [List.nil_append]
  eq_of h _ := h.symm
  inOrder_of _ _ _ := trivial

theorem perm_of_nil (h : Finds found created missed inOrder) (hmissed : missed = []) :
    found.Perm created := by
  have hperm := h.perm
  rw [hmissed, List.append_nil] at hperm
  exact hperm

/-- Everything was found if and only if nothing was missed. -/
theorem perm_iff (h : Finds found created missed inOrder) : found.Perm created ↔ missed = [] := by
  constructor
  · intro hperm
    have hlength := h.perm.length_eq
    rw [List.length_append, hperm.length_eq] at hlength
    apply List.eq_nil_of_length_eq_zero
    omega
  · exact h.perm_of_nil

/-- One part of a tree in front of another one. -/
theorem append (h : Finds found created missed inOrder) (h' : Finds found' created' missed' inOrder') :
    Finds (found ++ found') (created ++ created') (missed ++ missed') (inOrder ∧ inOrder') where
  perm := by
    have hswap : (found ++ found' ++ (missed ++ missed')).Perm
        (found ++ missed ++ (found' ++ missed')) := by
      rw [List.append_assoc, List.append_assoc]
      refine List.Perm.append_left found ?_
      rw [← List.append_assoc, ← List.append_assoc]
      exact List.perm_append_comm.append_right missed'
    exact hswap.trans (h.perm.append h'.perm)
  eq_of hnil horder := by
    obtain ⟨hmissed, hmissed'⟩ := List.append_eq_nil_iff.1 hnil
    rw [h.eq_of hmissed horder.1, h'.eq_of hmissed' horder.2]
  inOrder_of hnil hnodup heq := by
    obtain ⟨hmissed, hmissed'⟩ := List.append_eq_nil_iff.1 hnil
    obtain ⟨hcreated, hcreated', -⟩ := List.nodup_append.1 hnodup
    obtain ⟨hfound, hfound'⟩ := List.append_inj heq (h.perm_of_nil hmissed).length_eq
    exact ⟨h.inOrder_of hmissed hcreated hfound, h'.inOrder_of hmissed' hcreated' hfound'⟩

/-- Two parts of a tree that are found the wrong way round are in source order only if one of them
creates nothing. -/
theorem swapped (h : Finds found created missed inOrder) (h' : Finds found' created' missed' inOrder') :
    Finds (found' ++ found) (created ++ created') (missed ++ missed')
      (inOrder ∧ inOrder' ∧ (created = [] ∨ created' = [])) where
  perm := (List.perm_append_comm.append_right _).trans (h.append h').perm
  eq_of hnil horder := by
    obtain ⟨hmissed, hmissed'⟩ := List.append_eq_nil_iff.1 hnil
    obtain ⟨hfirst, hsecond, hempty⟩ := horder
    rw [h.eq_of hmissed hfirst, h'.eq_of hmissed' hsecond]
    rcases hempty with rfl | rfl
    · rw [List.nil_append, List.append_nil]
    · rw [List.nil_append, List.append_nil]
  inOrder_of hnil hnodup heq := by
    obtain ⟨hmissed, hmissed'⟩ := List.append_eq_nil_iff.1 hnil
    obtain ⟨hcreated, hcreated', hapart⟩ := List.nodup_append.1 hnodup
    have hperm := h.perm_of_nil hmissed
    have hperm' := h'.perm_of_nil hmissed'
    have hparts : found = created ∧ found' = created' ∧ (created = [] ∨ created' = []) := by
      -- The first of what is found would be created in both parts.
      match found', created with
      | [], created =>
        obtain rfl : created' = [] := List.nil_perm.1 hperm'
        exact ⟨by simpa using heq, rfl, .inr rfl⟩
      | _ :: _, [] =>
        obtain rfl : found = [] := List.perm_nil.1 hperm
        exact ⟨rfl, by simpa using heq, .inl rfl⟩
      | first :: _, first' :: _ =>
        obtain rfl : first = first' := (List.cons.inj heq).1
        have hmem : first ∈ created' := hperm'.subset (by simp)
        exact absurd rfl (hapart first (by simp) first hmem)
    obtain ⟨hfound, hfound', hempty⟩ := hparts
    exact ⟨h.inOrder_of hmissed hcreated hfound, h'.inOrder_of hmissed' hcreated' hfound', hempty⟩

end Finds

/-- The assignments on a receiver that some statements make themselves. -/
abbrev ownCreations (receiver : String) (stmts : List Stmt) : List Creation :=
  stmts.flatMap (Stmt.creations receiver)

mutual

/-- What is found in a statement. -/
theorem finds_flattened (receiver : String) (stmt : Stmt) :
    Finds (ownCreations receiver stmt.flattened) (stmt.created receiver) (stmt.missed receiver)
      (stmt.InOrder receiver) := by
  match stmt with
  | .loop line isAsync target iterable body orelse =>
    have h := (finds_flattenedBlock receiver body).append (finds_flattenedBlock receiver orelse)
    simpa [Stmt.flattened, Stmt.creations, Stmt.created, Stmt.missed, Stmt.InOrder] using h
  | .whileLoop line test body orelse =>
    have h := (finds_flattenedBlock receiver body).append (finds_flattenedBlock receiver orelse)
    simpa [Stmt.flattened, Stmt.creations, Stmt.created, Stmt.missed, Stmt.InOrder] using h
  | .branch line test body orelse =>
    have h := (finds_flattenedBlock receiver body).append (finds_flattenedBlock receiver orelse)
    simpa [Stmt.flattened, Stmt.creations, Stmt.created, Stmt.missed, Stmt.InOrder] using h
  | .withBlock line isAsync items body =>
    have h := finds_flattenedBlock receiver body
    simpa [Stmt.flattened, Stmt.creations, Stmt.created, Stmt.missed, Stmt.InOrder] using h
  | .tryBlock line isGroup body handlers orelse final =>
    -- The handlers are found behind the blocks that follow them.
    have hbehind := (finds_flattenedBlock receiver orelse).append (finds_flattenedBlock receiver final)
    have h := (finds_flattenedBlock receiver body).append
      ((finds_flattenedHandlers receiver handlers).swapped hbehind)
    simpa [Stmt.flattened, Stmt.creations, Stmt.created, Stmt.missed, Stmt.InOrder] using h
  | .matchOn line subject cases => exact .none _
  | .function .. | .classDef .. | .ret .. | .delete .. | .assign .. | .augAssign .. | .annAssign ..
  | .raise .. | .assert .. | .imports .. | .importFrom .. | .global .. | .nonlocal .. | .expr ..
  | .pass _ | .breakLoop _ | .continueLoop _ =>
    simpa [Stmt.flattened, Stmt.created, Stmt.missed, Stmt.InOrder] using Finds.all _

/-- What is found in a block. -/
theorem finds_flattenedBlock (receiver : String) (body : List Stmt) :
    Finds (ownCreations receiver (flattenedBlock body)) (bodyCreated receiver body)
      (bodyMissed receiver body) (bodyInOrder receiver body) := by
  match body with
  | [] => exact .all []
  | stmt :: rest =>
    have h := (finds_flattened receiver stmt).append (finds_flattenedBlock receiver rest)
    simpa [flattenedBlock, bodyCreated, bodyMissed, bodyInOrder] using h

/-- What is found in handlers. -/
theorem finds_flattenedHandlers (receiver : String) (handlers : List Handler) :
    Finds (ownCreations receiver (flattenedHandlers handlers)) (handlersCreated receiver handlers)
      (handlersMissed receiver handlers) (handlersInOrder receiver handlers) := by
  match handlers with
  | [] => exact .all []
  | .mk exception name body :: rest =>
    have h := (finds_flattenedBlock receiver body).append (finds_flattenedHandlers receiver rest)
    simpa [flattenedHandlers, Handler.flattened, handlersCreated, handlersMissed, handlersInOrder]
      using h

end

/-! ## Members of the assignments -/

theorem flatten_mapM {ε α β γ : Type} {step : α → Except ε (List γ)} {own : α → List β}
    {make : β → Except ε γ} (hstep : ∀ a, step a = (own a).mapM make) (items : List α) :
    List.flatten <$> items.mapM step = (items.flatMap own).mapM make := by
  induction items with
  | nil => rfl
  | cons a items ih =>
    rw [List.mapM_cons, List.flatMap_cons, List.mapM_append, ← ih, hstep]
    cases (own a).mapM make with
    | error error => rfl
    | ok first =>
      cases items.mapM step with
      | error error => rfl
      | ok others => rfl

/-- The members of a statement are those of its own assignments. -/
theorem receiverMembers_eq (receiver : String) (stmt : Stmt) :
    receiverMembers receiver stmt = (stmt.creations receiver).mapM Creation.member := by
  cases stmt with
  | annAssign line target hint value bare =>
    simp only [receiverMembers, Stmt.creations]
    cases receiverAttribute? receiver target with
    | none => rfl
    | some attr =>
      simp only [Option.toList_some, List.map_cons, List.map_nil, List.mapM_cons, List.mapM_nil,
        Creation.member, bind_assoc, pure_bind]
  | assign line targets value =>
    simp only [receiverMembers, Stmt.creations]
    rw [List.mapM_map]
    refine congrArg (fun step => List.mapM step _) (funext fun attr => ?_)
    rw [Function.comp_apply, Creation.member]
    simp only [pure_bind, Option.mapM_some]
    cases value.text with
    | error error => rfl
    | ok text => rfl
  | _ => rfl

/-- The members that a function creates on its receiver are those of the assignments on the receiver,
one for each, except for the assignments in the cases of a `match`. Nothing is missed if and only if no
case of a `match` assigns on the receiver. The members are in source order if, besides, no `try` assigns
on it both in its handlers and in a block behind them, and only then unless two assignments are the
same. -/
theorem lifts_created (params : Parameters) (receiver : Parameter) (others : List Parameter)
    (body : List Stmt) (h : params.positional = receiver :: others) :
    ∃ found : List Creation,
      liftInstanceMembers params body = found.mapM Creation.member
      ∧ (found ++ bodyMissed receiver.name body).Perm (bodyCreated receiver.name body)
      ∧ (found.Perm (bodyCreated receiver.name body) ↔ bodyMissed receiver.name body = [])
      ∧ (bodyMissed receiver.name body = [] ∧ bodyInOrder receiver.name body →
          found = bodyCreated receiver.name body)
      ∧ ((bodyCreated receiver.name body).Nodup → found = bodyCreated receiver.name body →
          bodyMissed receiver.name body = [] ∧ bodyInOrder receiver.name body) := by
  have hfinds := finds_flattenedBlock receiver.name body
  refine ⟨ownCreations receiver.name (flattenedBlock body), ?_, hfinds.perm, hfinds.perm_iff, ?_, ?_⟩
  · rw [liftInstanceMembers, h]
    exact flatten_mapM (receiverMembers_eq receiver.name) (flattenedBlock body)
  · rintro ⟨hmissed, horder⟩
    exact hfinds.eq_of hmissed horder
  · intro hnodup heq
    have hmissed : bodyMissed receiver.name body = [] := by
      rw [← hfinds.perm_iff, heq]
    exact ⟨hmissed, hfinds.inOrder_of hmissed hnodup heq⟩

/-- The parameters of an initializer with one argument. -/
def initializerParams : Parameters :=
  .mk [] [.mk "self" none none, .mk "v" none none] none [] none

/-- A block that assigns on the receiver in a case of a `match`. -/
def matchingBody : List Stmt :=
  [.matchOn 2 (.name ⟨2, 10⟩ "v")
    [.mk (.bind none none) none
      [.assign 4 [.attribute ⟨4, 12⟩ (.name ⟨4, 12⟩ "self") "a"] (.name ⟨4, 21⟩ "v")]]]

theorem lifts_created_matching :
    initializerParams.positional = [.mk "self" none none, .mk "v" none none]
      ∧ ∃ found : List Creation,
        liftInstanceMembers initializerParams matchingBody = found.mapM Creation.member
        ∧ (found ++ bodyMissed "self" matchingBody).Perm (bodyCreated "self" matchingBody)
        ∧ ¬found.Perm (bodyCreated "self" matchingBody) := by
  obtain ⟨found, hmembers, hperm, hall, -, -⟩ :=
    lifts_created initializerParams (.mk "self" none none) [.mk "v" none none] matchingBody rfl
  refine ⟨rfl, found, hmembers, hperm, ?_⟩
  rw [show (Parameter.mk "self" none none).name = "self" from rfl] at hall
  rw [hall]
  simp [matchingBody, bodyMissed, Stmt.missed, casesCreated, bodyCreated, Stmt.created,
    Stmt.creations, receiverAttribute?]

/-! ## Instances -/

/-- The names that the first statement of a source creates if it is a function: those of its lifted
members, and those of all its assignments on its receiver in source order. -/
def createdNames? (source : String) : Option (List String × List String) := do
  match ← (parseModule source).toOption with
  | .function _ _ _ params body _ _ :: _ =>
    let receiver ← params.positional.head?
    let members ← (liftInstanceMembers params body).toOption
    return (members.map Member.displayName, (bodyCreated receiver.name body).map Creation.attr)
  | _ => none

/-- An initializer that assigns in a case of a `match`. -/
def matchingSource : String :=
  "def __init__(self, v):\n    match v:\n        case 1:\n            self.a = v\n"

/-- An initializer that assigns in all blocks of a `try`. -/
def tryingSource : String :=
  "def __init__(self, v):\n    try:\n        self.a = v\n    except E:\n        self.b = v\n" ++
  "    else:\n        self.c = v\n    finally:\n        self.d = v\n"

/-- The cases of a `match` are passed over, and the handlers of a `try` come last. -/
theorem created_in_blocks_lost :
    createdNames? matchingSource = some ([], ["a"])
      ∧ createdNames? tryingSource = some (["a", "c", "d", "b"], ["a", "b", "c", "d"]) := by
  simp only [createdNames?, Direct.parseModule_eq]
  decide +kernel

end PropertyWrapper
