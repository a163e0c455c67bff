import PropertyWrapper.Lifting.Attribute
import PropertyWrapper.Model.Synthesis
import PropertyWrapper.Proofs.Source.CallArguments
import PropertyWrapper.Proofs.Source.Evaluation
import PropertyWrapper.Proofs.Source.Leading

/-!
# Arguments of attributes

The arguments of an attribute are those of its call, put back into source order by their places. They
reach the call that builds the storage behind the initial value, which is passed by name exactly if they
are all named or unpacked mappings. So the order of all arguments is one that the grammar allows.

* `sortStably_append_cons`, `liftArguments_eq_ok_iff` : sorting by place merges the two lists of the tree;
* `role_of_lift` : the label and the stars of an argument tell how it is passed;
* `arguments_reach_storage` : the arguments of the storage, for every call that is read.
-/

namespace PropertyWrapper

open Sorting Source

/-! ## Sorting -/

namespace Sorting

variable {α : Type} {le : α → α → Bool}

/-- What exceeds nothing is placed first. -/
theorem insertStably_of_forall_le {x : α} {xs : List α} (h : ∀ y ∈ xs, le x y = true) :
    insertStably le x xs = x :: xs := by
  cases xs with
  | nil => rfl
  | cons y ys => rw [insertStably, if_pos (h y List.mem_cons_self)]

/-- What exceeds nothing behind it, and is exceeded by all in front of it, comes first. -/
theorem sortStably_append_cons {x : α} {before behind : List α}
    (hbefore : ∀ y ∈ before, le y x = false) (hbehind : ∀ y ∈ behind, le x y = true) :
    sortStably le (before ++ x :: behind) = x :: sortStably le (before ++ behind) := by
  induction before with
  | nil =>
    exact insertStably_of_forall_le fun y hy => hbehind y ((sortStably_perm le behind).mem_iff.1 hy)
  | cons y before ih =>
    obtain ⟨hy, hrest⟩ := List.forall_mem_cons.1 hbefore
    rw [List.cons_append, sortStably, ih hrest, insertStably, if_neg (by simp [hy])]
    rfl

end Sorting

/-! ## Lifting -/

namespace Source.CallArgument

variable {argument : CallArgument}

/-- An argument with its label or the mark by which it is unpacked. -/
def lift : CallArgument → Except PrintError Argument
  | plain value => do return { value := ← value.text }
  | sequence _ value => do return { value := "*" ++ (← value.print false .bitOr) }
  | named _ label value => do return { value := ← value.text, label := some label }
  | mapping _ value => do return { value := "**" ++ (← value.text) }

/-- An argument with its place. -/
def located (argument : CallArgument) : Except PrintError (Position × Argument) := do
  return (argument.pos, ← argument.lift)

/-- An argument is in one of the lists of the tree. -/
theorem positional_or_keyword (argument : CallArgument) :
    (∃ e, argument.positional? = some e ∧ argument.keyword? = none ∧ liftPositional e = argument.located)
      ∨ ∃ keyword, argument.positional? = none ∧ argument.keyword? = some keyword
        ∧ liftKeyword keyword = argument.located := by
  cases argument with
  | plain value => exact .inl ⟨value, rfl, rfl, by simp [liftPositional, located, lift, pos]⟩
  | sequence pos value =>
    refine .inl ⟨.starred pos value, rfl, rfl, ?_⟩
    simp [liftPositional, located, lift, CallArgument.pos, Expr.text, Expr.print, Expr.pos]
  | named pos label value =>
    refine .inr ⟨.mk pos (some label) value, rfl, rfl, ?_⟩
    simp [liftKeyword, located, lift, CallArgument.pos, Keyword.value, Keyword.name, Keyword.pos]
  | mapping pos value =>
    refine .inr ⟨.mk pos none value, rfl, rfl, ?_⟩
    simp [liftKeyword, located, lift, CallArgument.pos, Keyword.value, Keyword.name, Keyword.pos]

end Source.CallArgument

/-- Some arguments are lifted one by one. -/
def AreLifted (arguments : List CallArgument) (lifted : List Argument) : Prop :=
  List.Forall₂ (fun argument text => argument.lift = .ok text) arguments lifted

section Merge

variable {arguments : List CallArgument} {lifted : List Argument}

/-- Sorting the arguments of both lists by their places puts them back into source order. -/
theorem areLifted_of_located {positional named : List (Position × Argument)}
    (hordered : arguments.Pairwise fun a b => a.pos.Before b.pos)
    (hpositional : (arguments.filterMap CallArgument.positional?).mapM liftPositional = .ok positional)
    (hnamed : (arguments.filterMap CallArgument.keyword?).mapM liftKeyword = .ok named) :
    ∃ lifted, AreLifted arguments lifted ∧ sortStably (fun a b => a.1.le b.1) (positional ++ named)
      = (arguments.map CallArgument.pos).zip lifted := by
  induction arguments generalizing positional named with
  | nil =>
    cases hpositional
    cases hnamed
    exact ⟨[], .nil, rfl⟩
  | cons argument arguments ih =>
    obtain ⟨hfirst, hordered⟩ := List.pairwise_cons.1 hordered
    -- All that is sorted behind the argument has a later place.
    have hlater : ∀ {lifted : List Argument} {y : Position × Argument},
        y ∈ (arguments.map CallArgument.pos).zip lifted → argument.pos.Before y.1 := by
      intro lifted y hy
      obtain ⟨other, hother, heq⟩ := List.mem_map.1 (List.of_mem_zip hy).1
      rw [← heq]
      exact hfirst other hother
    rcases argument.positional_or_keyword with ⟨e, he, hnone, hlift⟩ | ⟨keyword, hnone, hkeyword, hlift⟩
    · rw [List.filterMap_cons_some he, List.mapM_cons] at hpositional
      rw [List.filterMap_cons_none hnone] at hnamed
      obtain ⟨x, hx, hpositional⟩ := bind_eq_ok_iff.1 hpositional
      obtain ⟨rest, hrest, hpositional⟩ := bind_eq_ok_iff.1 hpositional
      cases hpositional
      rw [hlift] at hx
      obtain ⟨text, htext, hx⟩ := bind_eq_ok_iff.1 hx
      cases hx
      obtain ⟨lifted, hlifted, hsorted⟩ := ih hordered hrest hnamed
      refine ⟨text :: lifted, .cons htext hlifted, ?_⟩
      rw [List.cons_append, sortStably, hsorted]
      exact insertStably_of_forall_le fun y hy => (hlater hy).le
    · rw [List.filterMap_cons_none hnone] at hpositional
      rw [List.filterMap_cons_some hkeyword, List.mapM_cons] at hnamed
      obtain ⟨x, hx, hnamed⟩ := bind_eq_ok_iff.1 hnamed
      obtain ⟨rest, hrest, hnamed⟩ := bind_eq_ok_iff.1 hnamed
      cases hnamed
      rw [hlift] at hx
      obtain ⟨text, htext, hx⟩ := bind_eq_ok_iff.1 hx
      cases hx
      obtain ⟨lifted, hlifted, hsorted⟩ := ih hordered hpositional hrest
      have hbehind : ∀ y ∈ positional ++ rest, argument.pos.Before y.1 := by
        intro y hy
        rw [← (sortStably_perm _ _).mem_iff, hsorted] at hy
        exact hlater hy
      refine ⟨text :: lifted, .cons htext hlifted, ?_⟩
      rw [sortStably_append_cons, hsorted]
      · rfl
      · exact fun y hy => Position.before_iff.1 (hbehind y (List.mem_append_left _ hy))
      · exact fun y hy => (hbehind y (List.mem_append_right _ hy)).le

/-- Arguments that are lifted one by one are lifted in both lists. -/
theorem located_of_areLifted (h : AreLifted arguments lifted) :
    ∃ positional named,
      (arguments.filterMap CallArgument.positional?).mapM liftPositional = .ok positional
        ∧ (arguments.filterMap CallArgument.keyword?).mapM liftKeyword = .ok named := by
  induction h with
  | nil => exact ⟨[], [], rfl, rfl⟩
  | @cons argument text arguments lifted hfirst _ ih =>
    obtain ⟨positional, named, hpositional, hnamed⟩ := ih
    have hlocated : argument.located = .ok (argument.pos, text) :=
      bind_eq_ok_iff.2 ⟨text, hfirst, rfl⟩
    rcases argument.positional_or_keyword with ⟨e, he, hnone, hlift⟩ | ⟨keyword, hnone, hkeyword, hlift⟩
    · refine ⟨(argument.pos, text) :: positional, named, ?_, ?_⟩
      · rw [List.filterMap_cons_some he, List.mapM_cons, hlift, hlocated, hpositional]
        rfl
      · rw [List.filterMap_cons_none hnone, hnamed]
    · refine ⟨positional, (argument.pos, text) :: named, ?_, ?_⟩
      · rw [List.filterMap_cons_none hnone, hpositional]
      · rw [List.filterMap_cons_some hkeyword, List.mapM_cons, hlift, hlocated, hnamed]
        rfl

theorem AreLifted.unique {lifted' : List Argument} (h : AreLifted arguments lifted)
    (h' : AreLifted arguments lifted') : lifted = lifted' := by
  induction h generalizing lifted' with
  | nil =>
    cases h'
    rfl
  | cons hfirst _ ih =>
    cases h' with
    | cons hfirst' hrest' =>
      rw [hfirst] at hfirst'
      cases hfirst'
      rw [ih hrest']

/-- The arguments of a call are lifted if and only if they are lifted one by one in source order. -/
theorem liftArguments_eq_ok_iff (hordered : arguments.Pairwise fun a b => a.pos.Before b.pos) :
    liftArguments (arguments.filterMap CallArgument.positional?)
        (arguments.filterMap CallArgument.keyword?) = .ok lifted
      ↔ AreLifted arguments lifted := by
  have hmerged : ∀ {positional named : List (Position × Argument)},
      (arguments.filterMap CallArgument.positional?).mapM liftPositional = .ok positional →
      (arguments.filterMap CallArgument.keyword?).mapM liftKeyword = .ok named →
      AreLifted arguments ((sortStably (fun a b => a.1.le b.1) (positional ++ named)).map Prod.snd) := by
    intro positional named hpositional hnamed
    obtain ⟨lifted, hlifted, hsorted⟩ := areLifted_of_located hordered hpositional hnamed
    rw [hsorted, List.map_snd_zip]
    · exact hlifted
    · simpa using hlifted.length_eq.ge
  constructor
  · intro h
    obtain ⟨positional, hpositional, h⟩ := bind_eq_ok_iff.1 h
    obtain ⟨named, hnamed, h⟩ := bind_eq_ok_iff.1 h
    cases h
    exact hmerged hpositional hnamed
  · intro h
    obtain ⟨positional, named, hpositional, hnamed⟩ := located_of_areLifted h
    refine bind_eq_ok_iff.2 ⟨positional, hpositional, bind_eq_ok_iff.2 ⟨named, hnamed, ?_⟩⟩
    rw [h.unique (hmerged hpositional hnamed)]
    rfl

end Merge

/-! ## Stars -/

/-- The text of an argument that does not start with a star has none. -/
theorem stars_of_unstarred {text : String} (h : Unstarred text) (label : Option String) :
    Argument.stars ⟨text, label⟩ = 0 := by
  obtain ⟨c, rest, heq, hc⟩ := h
  rw [Argument.stars, heq, List.takeWhile_cons_of_neg (by simpa using hc)]
  rfl

/-- A star in front of a text counts. -/
theorem stars_star (text : String) (label : Option String) :
    Argument.stars ⟨"*" ++ text, label⟩ = Argument.stars ⟨text, label⟩ + 1 := by
  rw [Argument.stars, Argument.stars, String.toList_append]
  rfl

/-- The label and the stars of an argument tell how it is passed. -/
theorem role_of_lift {argument : CallArgument} {lifted : Argument} (hleads : argument.value.leads = true)
    (h : argument.lift = .ok lifted) :
    lifted.isPositional = (argument.role == .plain) ∧ lifted.isKeyword = argument.role.isKeyword := by
  cases argument with
  | plain value =>
    obtain ⟨text, htext, h⟩ := bind_eq_ok_iff.1 h
    cases h
    have hstars := stars_of_unstarred (unstarred_print _ (by decide) value text hleads htext) none
    rw [Argument.isPositional, Argument.isKeyword, hstars]
    exact ⟨rfl, rfl⟩
  | sequence pos value =>
    obtain ⟨text, htext, h⟩ := bind_eq_ok_iff.1 h
    cases h
    have hstars := stars_of_unstarred (unstarred_print _ (by decide) value text hleads htext) none
    rw [Argument.isPositional, Argument.isKeyword, stars_star, hstars]
    exact ⟨rfl, rfl⟩
  | named pos label value =>
    obtain ⟨text, htext, h⟩ := bind_eq_ok_iff.1 h
    cases h
    exact ⟨rfl, rfl⟩
  | mapping pos value =>
    obtain ⟨text, htext, h⟩ := bind_eq_ok_iff.1 h
    cases h
    have hstars := stars_of_unstarred (unstarred_print _ (by decide) value text hleads htext) none
    have htwo : "**" ++ text = "*" ++ ("*" ++ text) := by
      rw [← String.append_assoc]
      rfl
    rw [Argument.isPositional, Argument.isKeyword, htwo, stars_star, stars_star, hstars]
    exact ⟨rfl, rfl⟩

theorem all_isKeyword_of_areLifted {arguments : List CallArgument} {lifted : List Argument}
    (hleads : ∀ argument ∈ arguments, argument.value.leads = true) (h : AreLifted arguments lifted) :
    lifted.all Argument.isKeyword = arguments.all (·.role.isKeyword) := by
  induction h with
  | nil => rfl
  | cons hfirst _ ih =>
    obtain ⟨hvalue, hrest⟩ := List.forall_mem_cons.1 hleads
    rw [List.all_cons, List.all_cons, (role_of_lift hvalue hfirst).2, ih hrest]

/-! ## Storages -/

/-- How the initial value is passed in front of some arguments: by name exactly if they are all named or
unpacked mappings. -/
def initialRole (arguments : List CallArgument) : ArgumentRole :=
  if arguments.all (·.role.isKeyword) then .named else .plain

/-- The initial value as an argument in front of some others. -/
def initialArgument (arguments : List CallArgument) (value : String) : Argument :=
  { value, label := if initialRole arguments = .named then some wrappedValue else none }

/-- Let a call be read, from a module or as an expression. Its arguments are those of the two lists of the
tree, each once, in the order of their places. The call can be lifted if and only if its function and
each of these arguments has a text, and the attribute then has these arguments in this order, each with
its label or the mark by which it is unpacked. The storage of a member with the attribute is built with
the initial value, if there is one, and these arguments behind it. The initial value is passed by name
if and only if all of them are named or unpacked mappings, and the order of all arguments is one that the
grammar allows. -/
theorem arguments_reach_storage (pos : Position) (func : Expr) {call : Call} (hread : call.IsRead) :
    ∃ arguments : List CallArgument,
      arguments.filterMap CallArgument.positional? = call.args
      ∧ arguments.filterMap CallArgument.keyword? = call.keywords
      ∧ (arguments.Pairwise fun a b => a.pos.Before b.pos)
      ∧ (∀ attr, liftAttribute (.call pos func call.args call.keywords) = .ok attr ↔
          ∃ name lifted, func.text = .ok name ∧ AreLifted arguments lifted
            ∧ attr = { name, arguments := lifted, line := pos.line, column := pos.column })
      ∧ ∀ attr, liftAttribute (.call pos func call.args call.keywords) = .ok attr →
          ∀ config member identifier, ∃ storage others,
            (wrappedDeclarations config attr member identifier).peers = .storage storage :: others
            ∧ storage.arguments
              = member.initializer.toList.map (initialArgument arguments) ++ attr.arguments
            ∧ (member.initializer.toList.map (fun _ => initialRole arguments)
              ++ arguments.map CallArgument.role).Pairwise fun a b => a.mayPrecede b = true := by
  obtain ⟨arguments, hargs, hkeywords, hordered, hlegal, hleads⟩ := isListed_of_isRead hread
  have hlifts : ∀ attr, liftAttribute (.call pos func call.args call.keywords) = .ok attr ↔
      ∃ name lifted, func.text = .ok name ∧ AreLifted arguments lifted
        ∧ attr = { name, arguments := lifted, line := pos.line, column := pos.column } := by
    intro attr
    rw [← hargs, ← hkeywords]
    constructor
    · intro h
      obtain ⟨name, hname, h⟩ := bind_eq_ok_iff.1 h
      obtain ⟨lifted, hlifted, h⟩ := bind_eq_ok_iff.1 h
      cases h
      exact ⟨name, lifted, hname, (liftArguments_eq_ok_iff hordered).1 hlifted, rfl⟩
    · rintro ⟨name, lifted, hname, hlifted, rfl⟩
      have hlifted := (liftArguments_eq_ok_iff hordered).2 hlifted
      exact bind_eq_ok_iff.2 ⟨name, hname, bind_eq_ok_iff.2 ⟨lifted, hlifted, rfl⟩⟩
  refine ⟨arguments, hargs, hkeywords, hordered, hlifts, fun attr hattr config member identifier => ?_⟩
  obtain ⟨name, lifted, -, hlifted, rfl⟩ := (hlifts attr).1 hattr
  refine ⟨_, _, rfl, ?_, ?_⟩
  · cases member.initializer with
    | none => rfl
    | some value =>
      have hlabel : (if lifted.all (·.isKeyword) then some wrappedValue else none)
          = if initialRole arguments = .named then some wrappedValue else none := by
        rw [all_isKeyword_of_areLifted hleads hlifted, initialRole]
        cases arguments.all (·.role.isKeyword) <;> rfl
      exact congrArg (fun label => Argument.mk value label :: lifted) hlabel
  · have hroles : (arguments.map CallArgument.role).Pairwise fun a b => a.mayPrecede b = true :=
      List.pairwise_map.2 hlegal
    cases member.initializer with
    | none => exact hroles
    | some value =>
      refine List.pairwise_cons.2 ⟨fun role hrole => ?_, hroles⟩
      obtain ⟨argument, hargument, rfl⟩ := List.mem_map.1 hrole
      -- The initial value is passed by name only in front of named arguments.
      unfold initialRole
      split
      · rename_i hall
        have hkeyword := List.all_eq_true.1 hall argument hargument
        generalize argument.role = role at hkeyword
        cases role with
        | plain => cases hkeyword
        | sequence => cases hkeyword
        | named => rfl
        | mapping => rfl
      · generalize argument.role = role
        cases role <;> rfl

/-- The attribute that the only call in a module denotes. -/
def calledAttribute? (source : String) : Option Attribute := do
  match ← (parseModule source).toOption with
  | [.expr _ (.call pos func args keywords)] =>
    (liftAttribute (.call pos func args keywords)).toOption
  | _ => none

/-- A call with arguments of all shapes on two lines, a named one in front of an unpacked sequence. -/
def mixedSource : String := "W(first, *rest,\n  key=2, *others, **extra, last=3)\n"

theorem arguments_reach_storage_mixedSource :
    ∃ (call : Call) (arguments : List CallArgument) (attr : Attribute),
      (calledAttribute? mixedSource = some attr
        ∧ attr.arguments = [⟨"first", none⟩, ⟨"*rest", none⟩, ⟨"2", some "key"⟩, ⟨"*others", none⟩,
            ⟨"**extra", none⟩, ⟨"3", some "last"⟩])
      ∧ call.IsRead ∧ arguments.filterMap CallArgument.positional? = call.args
      ∧ arguments.filterMap CallArgument.keyword? = call.keywords ∧ AreLifted arguments attr.arguments := by
  have hlifted : (calledAttribute? mixedSource).map Attribute.arguments
      = some [⟨"first", none⟩, ⟨"*rest", none⟩, ⟨"2", some "key"⟩, ⟨"*others", none⟩,
          ⟨"**extra", none⟩, ⟨"3", some "last"⟩] := by
    rw [calledAttribute?, Direct.parseModule_eq]
    decide +kernel
  obtain ⟨attr, hattr, harguments⟩ := Option.map_eq_some_iff.1 hlifted
  have hcalled := hattr
  unfold calledAttribute? at hcalled
  obtain ⟨body, hbody, hcalled⟩ := Option.bind_eq_some_iff.1 hcalled
  have hparsed := eq_ok_of_toOption hbody
  split at hcalled
  · rename_i line pos func args keywords
    have hread : Call.IsRead ⟨args, keywords⟩ := .inl ⟨mixedSource, _, hparsed, by
      rw [bodyCalls, Stmt.calls, Expr.calls]
      exact List.mem_cons_self⟩
    obtain ⟨arguments, hargs, hkeywords, -, hlifts, -⟩ := arguments_reach_storage pos func hread
    obtain ⟨name, lifted, -, hlifted, rfl⟩ := (hlifts attr).1 (eq_ok_of_toOption hcalled)
    exact ⟨⟨args, keywords⟩, arguments, _, ⟨hattr, harguments⟩, hread, hargs, hkeywords, hlifted⟩
  · cases hcalled

end PropertyWrapper
