import PropertyWrapper.Expansion.Rendering
import PropertyWrapper.Proofs.Lifting.Texts
import PropertyWrapper.Proofs.Source.Definitions

/-!
# Statements of generated declarations

Generated declarations are written as text and read back. They come back as the functions that they stand for, one
for each accessor and one for each storage, with the decorators that their templates have and no others. Only behind
a storage can further statements stand, which are expressions: where the text of its type does not stay in one line.

* `Declarations.roles` : the functions that declarations stand for;
* `presents_statements` : the statements of declarations present these functions;
* `fits_synthesize` : the texts of what replaces a wrapped property can stand in generated code.
-/

namespace PropertyWrapper

open Source Text

/-! ## Line ends -/

/-- A string with unified line ends. -/
def unified (string : String) : String := String.ofList (unifyNewlines string.toList)

/-- Line ends are unified inside a text as they are in a piece of it. -/
theorem unifyNewlines_insert {lead text more : List Char} (hlead : '\r' ∉ lead) (hmore : more.head? ≠ some '\n') :
    unifyNewlines (lead ++ (text ++ more)) = lead ++ (unifyNewlines text ++ unifyNewlines more) := by
  rw [unifyNewlines_append fun h => absurd (List.mem_of_getLast? h) hlead,
    unifyNewlines_append fun _ => hmore, unifyNewlines_of_not_mem hlead]

/-- The line ends of a text that stands in another one twice. -/
theorem unifyNewlines_twice {lead text middle trail : String} (hlead : '\r' ∉ lead.toList)
    (hmiddle : '\r' ∉ middle.toList) (htrail : '\r' ∉ trail.toList)
    (hmiddle' : ∃ c, middle.toList.head? = some c ∧ c ≠ '\n')
    (htrail' : ∃ c, trail.toList.head? = some c ∧ c ≠ '\n') :
    unifyNewlines (lead ++ (text ++ (middle ++ (text ++ trail)))).toList
      = lead.toList ++ (unifyNewlines text.toList ++ (middle.toList ++ (unifyNewlines text.toList ++ trail.toList))) := by
  obtain ⟨c, hc, hne⟩ := hmiddle'
  obtain ⟨d, hd, hne'⟩ := htrail'
  rw [String.toList_append, String.toList_append, String.toList_append, String.toList_append,
    unifyNewlines_insert hlead (by simp [hc, hne]), unifyNewlines_insert hmiddle (by simp [hd, hne']),
    unifyNewlines_of_not_mem htrail]

/-- What a text ends with is what its last piece ends with. -/
theorem getLast?_toList_append (text : String) {trail : String} {c : Char} (h : trail.toList.getLast? = some c) :
    (text ++ trail).toList.getLast? = some c := by
  rw [String.toList_append, List.getLast?_append, h, Option.some_or]

/-! ## Templates -/

variable {astray : Bool}

/-- A text is that of a generated function with a given role. -/
def Renders (astray : Bool) (text : LooseText) (role : Role) : Prop :=
  ∃ string, ∃ template : Template, text = .whole string ∧ string.toList.getLast? = some '\n'
    ∧ unifyNewlines string.toList = template.text ∧ template.role = role ∧ (template.strays = 0 ∨ astray = true)

/-- A text is that of a function that is not read. -/
def Unread (text : LooseText) : Prop :=
  ∃ string header, ∃ role : Role, text = .whole string ∧ string.toList.getLast? = some '\n' ∧ isWord role.2 = true
    ∧ unifyNewlines string.toList = role.1.opening role.2 ("(self) -> ".toList ++ header)
    ∧ ∀ more, Breaks (header ++ more)

/-- A function whose body is one closed line. -/
def closedTemplate (role : Role) (signature lead body : String) (hname : isWord role.2 = true)
    (hsignature : Source.IsClosed ("(" ++ signature)) (hlead : lead ∈ bodyLeads)
    (hbody : Source.IsClosed (lead ++ body))
    (hapart : ∃ c rest, body.toList = c :: rest ∧ isWordCharacter c = false ∧ isQuote c = false) : Template where
  mark := role.1
  name := role.2
  signature := signature.toList
  lead
  body := body.toList ++ ['\n']
  spill := []
  strays := 0
  isWord_name := hname
  closes_signature := by simpa [Source.IsClosed] using hsignature
  lead_mem := hlead
  body_apart := by
    obtain ⟨c, rest, hcons, hc, hquote⟩ := hapart
    exact ⟨c, rest ++ ['\n'], by rw [hcons, List.cons_append], hc, hquote⟩
  isLine_body := by
    intro following
    have hline : IsLine AnyTokens ((lead ++ body).toList ++ ([] ++ '\n' :: following)) following :=
      isLine_of_closes hbody .nil
    simpa [List.append_assoc] using hline
  strays_spill := fun following => .nil

/-- The text of a function whose body is one closed line. -/
theorem renders_of_closed {role : Role} {signature lead body string : String} (hname : isWord role.2 = true)
    (hsignature : Source.IsClosed ("(" ++ signature)) (hlead : lead ∈ bodyLeads)
    (hbody : Source.IsClosed (lead ++ body))
    (hapart : ∃ c rest, body.toList = c :: rest ∧ isWordCharacter c = false ∧ isQuote c = false)
    (hlast : string.toList.getLast? = some '\n')
    (hstring : unifyNewlines string.toList
      = role.1.opening role.2 ("(" ++ signature ++ ":\n    " ++ lead ++ body ++ "\n").toList) :
    Renders astray (.whole string) role := by
  refine ⟨string, closedTemplate role signature lead body hname hsignature hlead hbody hapart, rfl, hlast, ?_, rfl,
    .inl rfl⟩
  rw [hstring]
  simp [Template.text, closedTemplate]

theorem isClosed_quoted (text : String) : Source.IsClosed (quoted text) :=
  (written_quotedPoints (points text)).closes

theorem return_not_mem_of_isWord {word : String} (h : isWord word = true) : '\r' ∉ word.toList :=
  (IsClosed.plain (isPlainText_of_isWord h)).not_mem_return

theorem isClosed_unified {string : String} (h : Closes [] (unifyNewlines string.toList)) :
    Source.IsClosed (unified string) := by
  rwa [Source.IsClosed, unified, String.toList_ofList]

theorem toList_unified (string : String) : (unified string).toList = unifyNewlines string.toList :=
  String.toList_ofList

/-- A type clause is a string that is closed with unified line ends, and starts as its lead does if it is not
empty. -/
theorem exists_typeClause (lead : String) {type : Option LooseText} (hlead : isPlainText lead = true)
    (hne : lead ≠ "") (htype : ∀ text ∈ type, text.Fits false) :
    ∃ clause, typeClause lead type = .whole clause ∧ Source.IsClosed (unified clause)
      ∧ ∀ c, (unified clause).toList.head? = some c → lead.toList.head? = some c := by
  unfold typeClause
  dsimp only
  split
  · exact ⟨"", rfl, .nil, by simp [unified, unifyNewlines]⟩
  · rename_i hsome
    cases type with
    | none => exact absurd rfl hsome
    | some text =>
      obtain ⟨string, rfl, hclosed⟩ := htype text rfl
      have hclosed' := isClosed_unified (hclosed.resolve_right (by simp))
      have hunified : unified (lead ++ string) = lead ++ unified string := by
        have hreturn : '\r' ∉ lead.toList := (IsClosed.plain hlead).not_mem_return
        rw [← String.toList_inj, String.toList_append, toList_unified, toList_unified, String.toList_append,
          unifyNewlines_append fun h => absurd (List.mem_of_getLast? h) hreturn, unifyNewlines_of_not_mem hreturn]
      refine ⟨lead ++ string, rfl, ?_, fun c hc => ?_⟩
      · rw [hunified]
        exact .lead hlead hclosed'
      · obtain ⟨first, rest, hcons⟩ := List.exists_cons_of_ne_nil (mt String.toList_eq_nil_iff.1 hne)
        rw [hunified, String.toList_append, hcons] at hc
        rw [hcons]
        exact hc

/-- What follows a closed parameter list: nothing, or something behind a plain text. -/
theorem isClosed_signature {params trail : String} (hparams : Source.IsClosed params)
    (htrail : Source.IsClosed trail) (hquote : ∀ c, trail.toList.head? = some c → isQuote c = false) :
    Source.IsClosed ("(" ++ (params ++ ")" ++ trail)) := by
  have hclosed := hparams.parenthesized.append htrail hquote
  simpa only [String.append_assoc] using hclosed

theorem exists_blank_cons (text : String) :
    ∃ c rest, (" " ++ text).toList = c :: rest ∧ isWordCharacter c = false ∧ isQuote c = false :=
  ⟨' ', text.toList, by rw [String.toList_append]; rfl, by decide, by decide⟩

theorem renders_placeholder {property : String} (hname : isWord property = true) :
    Renders astray (.whole (renderPlaceholder property)) (.property, property) := by
  have hself : Source.IsClosed "self" := .plain (by decide)
  have hquoted := isClosed_quoted (property ++ " could not be expanded")
  have hcall : Source.IsClosed ("NotImplementedError" ++ "("
      ++ quoted (property ++ " could not be expanded") ++ ")") :=
    .applied (.plain (by decide)) hquoted
  have hreturn : '\r' ∉ (renderPlaceholder property).toList := by
    simp [renderPlaceholder, return_not_mem_of_isWord hname, hquoted.not_mem_return]
  refine renders_of_closed hname (isClosed_signature hself .empty (by simp)) (show "raise" ∈ bodyLeads by decide)
    (.lead (by decide) (.lead (show isPlainText " " = true by decide) hcall)) (exists_blank_cons _) ?_ ?_
  · exact getLast?_toList_append _ (by decide)
  · rw [unifyNewlines_of_not_mem hreturn]
    simp [renderPlaceholder, Mark.opening, Mark.reference]

theorem renders_getter {property place : String} {type : Option LooseText}
    (hname : isWord property = true) (hplace : Source.IsClosed place) (htype : ∀ text ∈ type, text.Fits false) :
    Renders astray (renderGetter property place type) (.property, property) := by
  have hself : Source.IsClosed "self" := .plain (by decide)
  obtain ⟨clause, heq, hclause, hhead⟩ := exists_typeClause " -> " (by decide) (by decide) htype
  have hquote : ∀ c, (unified clause).toList.head? = some c → isQuote c = false := by
    intro c hc
    cases hhead c hc
    decide
  have hlead : '\r' ∉ ("@property\ndef " ++ property ++ "(self)").toList := by
    simp [return_not_mem_of_isWord hname]
  have hmore : '\r' ∉ (":\n    return " ++ place ++ "\n").toList := by simp [hplace.not_mem_return]
  rw [renderGetter, heq, LooseText.whole_append_whole, LooseText.whole_append_whole]
  refine renders_of_closed hname (isClosed_signature hself hclause hquote) (show "return" ∈ bodyLeads by decide)
    (.lead (by decide) (.lead (show isPlainText " " = true by decide) hplace)) (exists_blank_cons _) ?_ ?_
  · exact getLast?_toList_append _ (getLast?_toList_append _ (by decide))
  · rw [String.toList_append, String.toList_append, List.append_assoc, unifyNewlines_insert hlead (by simp),
      unifyNewlines_of_not_mem hmore]
    simp [Mark.opening, Mark.reference, toList_unified]

/-- The place that an accessor forwards to. -/
theorem isClosed_place {lead storage member : String} (hlead : isPlainText lead = true)
    (hstorage : isWord storage = true) (hmember : isWord member = true) :
    Source.IsClosed (lead ++ storage ++ "." ++ member) := by
  have hplain : isPlainText (lead ++ storage ++ "." ++ member) = true :=
    isPlainText_append (isPlainText_append (isPlainText_append hlead
      (isPlainText_of_isWord hstorage)) (by decide)) (isPlainText_of_isWord hmember)
  exact .plain hplain

theorem renders_setter {property storage member : String} {type : Option LooseText}
    (hname : isWord property = true) (hstorage : isWord storage = true) (hmember : isWord member = true)
    (htype : ∀ text ∈ type, text.Fits false) :
    Renders astray (renderSetter property ("self." ++ storage ++ "." ++ member) type) (.setter, property) := by
  obtain ⟨clause, heq, hclause, -⟩ := exists_typeClause ": " (by decide) (by decide) htype
  have hparams : Source.IsClosed ("self, new_value" ++ unified clause) := .lead (by decide) hclause
  have hnone : Source.IsClosed " -> None" := .plain (by decide)
  have hquote : ∀ c, " -> None".toList.head? = some c → isQuote c = false := by
    rintro c ⟨⟩
    decide
  have hplace := isClosed_place (show isPlainText "self." = true by decide) hstorage hmember
  have hlead : '\r' ∉ ("@" ++ property ++ ".setter\ndef " ++ property ++ "(self, new_value").toList := by
    simp [return_not_mem_of_isWord hname]
  have hmore : '\r' ∉ (") -> None:\n    " ++ ("self." ++ storage ++ "." ++ member) ++ " = new_value\n").toList := by
    simp [return_not_mem_of_isWord hstorage, return_not_mem_of_isWord hmember]
  have hbody : Source.IsClosed ("self" ++ ("." ++ storage ++ "." ++ member ++ " = new_value")) := by
    have hclosed := hplace.trail (show isPlainText " = new_value" = true by decide)
    rwa [show "self." ++ storage ++ "." ++ member ++ " = new_value"
      = "self" ++ ("." ++ storage ++ "." ++ member ++ " = new_value") by simp [← String.toList_inj]] at hclosed
  have hapart : ∃ c rest, ("." ++ storage ++ "." ++ member ++ " = new_value").toList = c :: rest
      ∧ isWordCharacter c = false ∧ isQuote c = false :=
    ⟨'.', _, by simp only [String.toList_append, List.append_assoc]; rfl, by decide, by decide⟩
  rw [renderSetter, heq, LooseText.whole_append_whole, LooseText.whole_append_whole]
  refine renders_of_closed hname (isClosed_signature hparams hnone hquote) (show "self" ∈ bodyLeads by decide) hbody
    hapart ?_ ?_
  · exact getLast?_toList_append _ (getLast?_toList_append _ (by decide))
  · rw [String.toList_append, String.toList_append, List.append_assoc, unifyNewlines_insert hlead (by simp),
      unifyNewlines_of_not_mem hmore]
    simp [Mark.opening, Mark.reference, toList_unified]

/-! ## Storages -/

/-- The texts of a storage can stand in generated code. -/
structure Storage.Fits (astray : Bool) (storage : Storage) : Prop where
  name : isWord storage.name = true
  wrapperType : storage.wrapperType.Fits astray
  arguments : ∀ argument ∈ storage.arguments, Source.IsClosed argument.text

section Storage

variable {storage : Storage}

theorem Storage.Fits.closes_arguments (h : storage.Fits astray) :
    Source.IsClosed (argumentList storage.arguments) := by
  refine .intercalate (by decide) (by decide) fun text htext => ?_
  obtain ⟨argument, hargument, rfl⟩ := List.mem_map.1 htext
  exact h.arguments argument hargument

/-- What the text of a wrapper type stands between, where a storage is annotated with it. -/
def Binding.brackets : Binding → String × String
  | .immutable => ("Final[", "]")
  | .mutable => ("", "")

/-- The text of a storage with unified line ends. -/
theorem unifyNewlines_storage {wrapper : String} (h : storage.Fits astray)
    (hwrapper : storage.wrapperType = .whole wrapper) :
    ∃ string, storage.render = .whole string ∧ string.toList.getLast? = some '\n'
      ∧ unifyNewlines string.toList = Mark.storage.opening storage.name ("(self) -> ".toList
        ++ (storage.binding.brackets.1.toList ++ (unifyNewlines wrapper.toList
          ++ (storage.binding.brackets.2.toList ++ ':' :: '\n' :: ("    return".toList ++ ' ' ::
            (unifyNewlines wrapper.toList ++ '(' :: ((argumentList storage.arguments).toList
              ++ [')', '\n']))))))) := by
  obtain ⟨name, binding, wrapperType, arguments⟩ := storage
  obtain rfl : wrapperType = .whole wrapper := hwrapper
  have hname := return_not_mem_of_isWord h.name
  have harguments := h.closes_arguments.not_mem_return
  dsimp only at hname harguments ⊢
  have hlead : '\r' ∉ ("@cached_property\ndef " ++ name ++ "(self) -> " ++ binding.brackets.1).toList := by
    cases binding <;> simp [hname, Binding.brackets]
  have hmiddle : '\r' ∉ (binding.brackets.2 ++ ":\n    return ").toList := by
    cases binding <;> simp [Binding.brackets]
  have htrail : '\r' ∉ ("(" ++ argumentList arguments ++ ")\n").toList := by simp [harguments]
  have hrender : Storage.render ⟨name, binding, .whole wrapper, arguments⟩
      = .whole (("@cached_property\ndef " ++ name ++ "(self) -> " ++ binding.brackets.1) ++ (wrapper
        ++ ((binding.brackets.2 ++ ":\n    return ") ++ (wrapper ++ ("(" ++ argumentList arguments ++ ")\n"))))) := by
    have hreturns : Storage.returnType ⟨name, binding, .whole wrapper, arguments⟩
        = .whole (binding.brackets.1 ++ wrapper ++ binding.brackets.2) := by
      cases binding with
      | immutable => rfl
      | mutable => simp [Storage.returnType, Binding.brackets]
    rw [Storage.render, hreturns]
    simp only [LooseText.whole_append_whole, storageDecorator, LooseText.whole.injEq, ← String.toList_inj,
      String.toList_append, List.append_assoc]
    rfl
  refine ⟨_, hrender, ?_, ?_⟩
  · exact getLast?_toList_append _ (getLast?_toList_append _ (getLast?_toList_append _ (getLast?_toList_append _
      (getLast?_toList_append _ (by decide)))))
  · rw [unifyNewlines_twice hlead hmiddle htrail]
    · simp [Mark.opening, Mark.reference]
    · cases binding
      · exact ⟨']', by decide, by decide⟩
      · exact ⟨':', by decide, by decide⟩
    · exact ⟨'(', by simp, by decide⟩

/-- A storage whose type is closed is a function with one line in its body. -/
theorem renders_storage_of_closed {wrapper : String} (h : storage.Fits astray)
    (hwrapper : storage.wrapperType = .whole wrapper) (hclosed : Closes [] (unifyNewlines wrapper.toList)) :
    Renders astray storage.render (.storage, storage.name) := by
  have hself : Source.IsClosed "self" := .plain (by decide)
  have hclosed' := isClosed_unified hclosed
  have hreturns : Source.IsClosed (" -> " ++ (storage.binding.brackets.1 ++ unified wrapper ++ storage.binding.brackets.2)) := by
    refine .lead (by decide) ?_
    cases storage.binding with
    | immutable =>
      have hfinal : Source.IsClosed "Final" := .plain (by decide)
      have hindexed := hfinal.indexed hclosed'
      rwa [show "Final" ++ "[" = "Final[" from rfl] at hindexed
    | mutable => simpa [Binding.brackets] using hclosed'
  obtain ⟨string, hrender, hlast, hstring⟩ := unifyNewlines_storage h hwrapper
  have hsignature := isClosed_signature hself hreturns (by
    intro c hc
    rw [String.toList_append] at hc
    cases hc
    decide)
  have hbody : Source.IsClosed ("return" ++ (" " ++ (unified wrapper ++ "(" ++ argumentList storage.arguments ++ ")"))) :=
    .lead (by decide) (.lead (by decide) (hclosed'.applied h.closes_arguments))
  rw [hrender]
  refine renders_of_closed h.name hsignature (by decide) hbody (exists_blank_cons _) hlast ?_
  rw [hstring]
  simp [Mark.opening, toList_unified]

/-- A storage whose type spills is not read, or it is a function with expressions behind it. -/
theorem renders_storage_of_spills {wrapper : String} (h : storage.Fits true)
    (hwrapper : storage.wrapperType = .whole wrapper) (hspills : Spills (unifyNewlines wrapper.toList)) :
    Renders true storage.render (.storage, storage.name) ∨ Unread storage.render := by
  obtain ⟨string, hrender, hlast, hstring⟩ := unifyNewlines_storage h hwrapper
  rw [hrender]
  obtain ⟨outline, hbroken⟩ := hspills
  have harguments := h.closes_arguments
  generalize unifyNewlines wrapper.toList = text at outline hstring hbroken
  cases hbinding : storage.binding with
  | mutable =>
    rw [hbinding] at hstring
    refine .inr ⟨string, _, (.storage, storage.name), rfl, hlast, h.name, hstring, fun more => ?_⟩
    simp only [Binding.brackets, String.toList_empty, List.nil_append, List.append_assoc, List.cons_append]
    exact outline.breaks_type hbroken
  | immutable =>
    rw [hbinding] at hstring
    rcases outline.trailing with hshut | hopen
    · obtain ⟨count, spill, hspill⟩ := outline.exists_strays hshut harguments
      have hsignature : Closes [] ('(' :: ("self) -> Final[".toList ++ (text ++ [']']))) := by
        have hself : "self".toList.all isPlain = true := by decide
        have harrow : " -> Final".toList.all isPlain = true := by decide
        have hfinal := Closes.plains (List.all_eq_true.1 harrow) (.opening (show closingBracket? '[' = some ']' by decide)
          (outline.closes_bracketed hshut))
        have hheader : Closes [')'] ("self".toList ++ ')' :: (" -> Final".toList ++ '[' :: (text ++ [']']))) :=
          .plains (List.all_eq_true.1 hself) (.closing (by decide) hfinal)
        exact .opening (show closingBracket? '(' = some ')' by decide) hheader
      refine .inl ⟨string, {
        mark := .storage
        name := storage.name
        signature := "self) -> Final[".toList ++ (text ++ [']'])
        lead := "return"
        body := ' ' :: (text ++ '(' :: ((argumentList storage.arguments).toList ++ [')', '\n']))
        spill
        strays := count
        isWord_name := h.name
        closes_signature := hsignature
        lead_mem := by decide
        body_apart := ⟨' ', _, rfl, by decide, by decide⟩
        isLine_body := fun following => by simpa using (hspill following).1
        strays_spill := fun following => (hspill following).2 }, rfl, hlast, ?_, rfl, .inr rfl⟩
      rw [hstring]
      simp [Template.text, Mark.opening, Binding.brackets]
    · refine .inr ⟨string, _, (.storage, storage.name), rfl, hlast, h.name, hstring, fun more => ?_⟩
      have hbracket : "]".toList = [']'] := rfl
      simp only [Binding.brackets, hbracket, List.nil_append, List.append_assoc, List.cons_append]
      exact outline.breaks_final hopen

/-- A storage as it is written. -/
theorem renders_storage (h : storage.Fits astray) :
    Renders astray storage.render (.storage, storage.name) ∨ astray = true ∧ Unread storage.render := by
  obtain ⟨wrapper, hwrapper, hclosed | ⟨rfl, value, hvalue⟩⟩ := h.wrapperType
  · exact .inl (renders_storage_of_closed h hwrapper hclosed)
  · rcases closes_or_spills hvalue with hclosed | hspills
    · exact .inl (renders_storage_of_closed h hwrapper hclosed)
    · exact (renders_storage_of_spills h hwrapper hspills).imp_right fun hunread => ⟨rfl, hunread⟩

end Storage

/-! ## Accessors -/

/-- The texts of an accessor are closed. -/
structure Accessor.IsClosed (accessor : Accessor) : Prop where
  property : isWord accessor.property = true
  storage : ∀ name ∈ accessor.storage, isWord name = true
  member : ∀ name ∈ accessor.member, isWord name = true
  type : ∀ text ∈ accessor.type, text.Fits false

/-- An accessor is a getter whose type spills. -/
structure Accessor.Spills (accessor : Accessor) : Prop where
  isGetter : accessor.kind = .get
  storage : accessor.storage.isSome = true
  property : isWord accessor.property = true
  type : ∃ string, accessor.type = some (.whole string) ∧ Source.Spills (unifyNewlines string.toList)

/-- The role of an accessor. A placeholder is always a getter. -/
def Accessor.role (accessor : Accessor) : Role :=
  (if accessor.storage.isSome && accessor.kind = .set then .setter else .property, accessor.property)

theorem renders_accessor {accessor : Accessor} {text : LooseText} (h : accessor.IsClosed)
    (heq : accessor.render = .ok text) : Renders astray text accessor.role := by
  obtain ⟨kind, property, storage, member, type⟩ := accessor
  cases storage with
  | none =>
    cases heq
    exact renders_placeholder h.property
  | some storage =>
    have hstorage := h.storage storage rfl
    have hmember : isWord (member.getD "None") = true := by
      cases member with
      | none =>
        have hnone : isWord "None" = true := by decide
        exact hnone
      | some member => exact h.member member rfl
    cases kind with
    | get =>
      cases heq
      exact renders_getter h.property (isClosed_place (by decide) hstorage hmember) h.type
    | set =>
      cases heq
      exact renders_setter h.property hstorage hmember h.type
    | delete => cases heq

/-- A getter whose type spills is not read. -/
theorem unread_getter {property place string : String} (hname : isWord property = true)
    (hspills : Source.Spills (unifyNewlines string.toList)) :
    Unread (renderGetter property place (some (.whole string))) := by
  have hne : string ≠ "" := by
    rintro rfl
    obtain ⟨outline, -⟩ := hspills
    obtain ⟨c, rest, hhead, -⟩ := outline.head
    have htext : [] = outline.lines ++ (outline.blanks ++ outline.core) := outline.text_eq
    simp [hhead] at htext
  have hclause : typeClause " -> " (some (.whole string)) = .whole (" -> " ++ string) := by
    rw [typeClause]
    exact if_neg (by simpa using hne)
  have hlead : '\r' ∉ ("@property\ndef " ++ property ++ "(self)" ++ " -> ").toList := by
    simp [return_not_mem_of_isWord hname]
  obtain ⟨outline, hbroken⟩ := hspills
  refine ⟨"@property\ndef " ++ property ++ "(self)" ++ " -> " ++ (string ++ (":\n    return " ++ place ++ "\n")),
    unifyNewlines string.toList ++ ':' :: '\n' :: unifyNewlines ("    return " ++ place ++ "\n").toList,
    (.property, property), ?_, ?_, hname, ?_, fun more => ?_⟩
  · rw [renderGetter, hclause]
    simp only [LooseText.whole_append_whole, LooseText.whole.injEq, ← String.toList_inj, String.toList_append,
      List.append_assoc]
  · exact getLast?_toList_append _ (getLast?_toList_append _ (getLast?_toList_append _ (by decide)))
  · have hmore : (":\n    return " ++ place ++ "\n").toList = ':' :: '\n' :: ("    return " ++ place ++ "\n").toList := by
      simp
    rw [String.toList_append, @String.toList_append string, hmore, unifyNewlines_insert hlead (by simp)]
    simp [Mark.opening, Mark.reference, unifyNewlines]
  · rw [List.append_assoc]
    exact outline.breaks_type hbroken

theorem Accessor.Spills.unread {accessor : Accessor} {text : LooseText} (h : accessor.Spills)
    (heq : accessor.render = .ok text) : Unread text := by
  obtain ⟨kind, property, storage, member, type⟩ := accessor
  obtain ⟨hkind, hstorage, hname, string, htype, hspills⟩ := h
  dsimp only at hkind hstorage hname htype
  subst hkind htype
  obtain ⟨storage, rfl⟩ := Option.isSome_iff_exists.1 hstorage
  cases heq
  exact unread_getter hname hspills

/-! ## Declarations -/

/-- The texts of a peer can stand in generated code. Where the type of a computed property spills, its getter comes
first. -/
def Peer.Fits (astray : Bool) : Peer → Prop
  | .storage place => place.Fits astray
  | .property computed =>
    (∀ accessor ∈ computed.accessors, accessor.IsClosed)
      ∨ astray = true ∧ ∃ getter rest, computed.accessors = getter :: rest ∧ getter.Spills

/-- The texts of declarations can stand in generated code. -/
structure Declarations.Fits (astray : Bool) (declarations : Declarations) : Prop where
  accessors : ∀ accessor ∈ declarations.accessors, accessor.IsClosed
  peers : ∀ peer ∈ declarations.peers, peer.Fits astray

/-- The roles of the functions of a peer. -/
def Peer.roles : Peer → List Role
  | .storage place => [(.storage, place.name)]
  | .property computed => computed.accessors.map Accessor.role

/-- The roles of the functions that declarations stand for. -/
def Declarations.roles (declarations : Declarations) : List Role :=
  declarations.accessors.map Accessor.role ++ declarations.peers.flatMap Peer.roles

/-- Some texts are those of generated functions with given roles, up to one that is not read. -/
inductive RendersAll (astray : Bool) : List LooseText → List Role → Prop where
  | nil : RendersAll astray [] []
  | cons {text : LooseText} {role : Role} {texts : List LooseText} {roles : List Role} :
      Renders astray text role → RendersAll astray texts roles → RendersAll astray (text :: texts) (role :: roles)
  | unread {text : LooseText} {texts : List LooseText} {roles : List Role} : astray = true → Unread text →
      RendersAll astray (text :: texts) roles

theorem RendersAll.append {texts texts' : List LooseText} {roles roles' : List Role}
    (h : RendersAll astray texts roles) (h' : RendersAll astray texts' roles') :
    RendersAll astray (texts ++ texts') (roles ++ roles') := by
  induction h with
  | nil => exact h'
  | cons hrenders _ ih => exact .cons hrenders ih
  | unread hastray hunread => exact .unread hastray hunread

theorem rendersAll_accessors {accessors : List Accessor} {texts : List LooseText}
    (h : ∀ accessor ∈ accessors, accessor.IsClosed)
    (heq : accessors.mapM Accessor.render = .ok texts) :
    RendersAll astray texts (accessors.map Accessor.role) := by
  induction accessors generalizing texts with
  | nil =>
    rw [List.mapM_nil] at heq
    cases heq
    exact .nil
  | cons accessor accessors ih =>
    rw [List.mapM_cons] at heq
    obtain ⟨text, htext, heq⟩ := bind_eq_ok_iff.1 heq
    obtain ⟨others, hothers, hpure⟩ := bind_eq_ok_iff.1 heq
    cases hpure
    obtain ⟨hfirst, hrest⟩ := List.forall_mem_cons.1 h
    exact .cons (renders_accessor hfirst htext) (ih hrest hothers)

theorem rendersAll_peer {peer : Peer} {texts : List LooseText} (h : peer.Fits astray)
    (heq : peer.render = .ok texts) : RendersAll astray texts peer.roles := by
  cases peer with
  | storage place =>
    cases heq
    rcases renders_storage h with hrenders | ⟨hastray, hunread⟩
    · exact .cons hrenders .nil
    · exact .unread hastray hunread
  | property computed =>
    rcases h with hclosed | ⟨hastray, getter, rest, haccessors, hspills⟩
    · exact rendersAll_accessors hclosed heq
    · rw [Peer.render, haccessors, List.mapM_cons] at heq
      obtain ⟨text, htext, heq⟩ := bind_eq_ok_iff.1 heq
      obtain ⟨others, -, hpure⟩ := bind_eq_ok_iff.1 heq
      cases hpure
      exact .unread hastray (hspills.unread htext)

theorem rendersAll_peers {peers : List Peer} {texts : List (List LooseText)}
    (h : ∀ peer ∈ peers, peer.Fits astray) (heq : peers.mapM Peer.render = .ok texts) :
    RendersAll astray texts.flatten (peers.flatMap Peer.roles) := by
  induction peers generalizing texts with
  | nil =>
    rw [List.mapM_nil] at heq
    cases heq
    exact .nil
  | cons peer peers ih =>
    rw [List.mapM_cons] at heq
    obtain ⟨text, htext, heq⟩ := bind_eq_ok_iff.1 heq
    obtain ⟨others, hothers, hpure⟩ := bind_eq_ok_iff.1 heq
    cases hpure
    obtain ⟨hfirst, hrest⟩ := List.forall_mem_cons.1 h
    rw [List.flatten_cons, List.flatMap_cons]
    exact (rendersAll_peer hfirst htext).append (ih hrest hothers)

/-! ## Reading back -/

theorem mapM_string?_cons {string : String} {texts : List LooseText} {strings : List String}
    (h : (LooseText.whole string :: texts).mapM LooseText.string? = some strings) :
    ∃ others, texts.mapM LooseText.string? = some others ∧ strings = string :: others := by
  rw [List.mapM_cons] at h
  obtain ⟨first, hfirst, h⟩ := Option.bind_eq_some_iff.1 h
  cases hfirst
  obtain ⟨others, hothers, hpure⟩ := Option.bind_eq_some_iff.1 h
  cases hpure
  exact ⟨others, hothers, rfl⟩

/-- A line that is closed stands in front of the lines behind it, with an empty line between them. -/
theorem unifyNewlines_intercalate {string : String} (hlast : string.toList.getLast? = some '\n')
    (others : List String) :
    ∃ more, unifyNewlines (String.intercalate "\n" (string :: others)).toList = unifyNewlines string.toList ++ more
      ∧ ∀ {roles : List Role}, Generated astray roles (unifyNewlines (String.intercalate "\n" others).toList) →
        Generated astray roles more := by
  cases others with
  | nil => exact ⟨[], by simp, fun h => h⟩
  | cons next others =>
    refine ⟨'\n' :: unifyNewlines (String.intercalate "\n" (next :: others)).toList, ?_, fun h => .blank h⟩
    have hmore : ("\n" ++ String.intercalate "\n" (next :: others)).toList
        = '\n' :: (String.intercalate "\n" (next :: others)).toList := by simp
    rw [String.intercalate_cons_cons, String.append_assoc, String.toList_append, hmore,
      unifyNewlines_append (by simp [hlast]), unifyNewlines]
    · simp
    · simp

/-- Rendered functions one below the other. -/
theorem RendersAll.generated {texts : List LooseText} {roles : List Role} {strings : List String}
    (h : RendersAll astray texts roles) (hstrings : texts.mapM LooseText.string? = some strings) :
    Generated astray roles (unifyNewlines (String.intercalate "\n" strings).toList) := by
  induction h generalizing strings with
  | nil =>
    cases hstrings
    exact .nil
  | cons hrenders hothers ih =>
    obtain ⟨string, template, rfl, hlast, hstring, rfl, hstrays⟩ := hrenders
    obtain ⟨others, hothers, rfl⟩ := mapM_string?_cons hstrings
    obtain ⟨more, heq, hmore⟩ := unifyNewlines_intercalate hlast others
    rw [heq, hstring]
    exact .function hstrays (hmore (ih hothers))
  | @unread _ _ roles hastray hunread =>
    obtain ⟨string, header, role, rfl, hlast, hname, hstring, hbreaks⟩ := hunread
    obtain ⟨others, -, rfl⟩ := mapM_string?_cons hstrings
    obtain ⟨more, heq, -⟩ := @unifyNewlines_intercalate astray _ hlast others
    have hheader : Generated astray roles (role.1.opening role.2 ("(self) -> ".toList ++ (header ++ more))) :=
      .unread hastray hname fun more' => by
        rw [List.append_assoc]
        exact hbreaks (more ++ more')
    rw [heq, hstring]
    simpa [Mark.opening] using hheader

/-- A blank text is blank with unified line ends too. -/
theorem all_isBlank_unifyNewlines {text : List Char} (h : text.all isBlank = true) :
    (unifyNewlines text).all isBlank = true := by
  have hnewline : isBlank '\n' = true := by decide
  fun_induction unifyNewlines text with
  | case1 rest ih => simp_all
  | case2 rest _ ih => simp_all
  | case3 c rest _ _ ih => simp_all
  | case4 => rfl

/-- A blank text holds no functions. -/
theorem Source.Generated.presents_nil {roles : List Role} {text : List Char} (h : Generated astray roles text)
    (hblank : text.all isBlank = true) : Presents astray roles [] := by
  have hat : isBlank '@' = false := by decide
  induction h with
  | nil => exact .nil
  | blank _ ih =>
    rw [List.all_cons, Bool.and_eq_true] at hblank
    exact ih hblank.2
  | function =>
    rw [Template.text_append, Mark.opening, List.all_cons, hat] at hblank
    cases hblank
  | unread =>
    rw [Mark.opening, List.all_cons, hat] at hblank
    cases hblank

/-- Rendered functions are read back as these functions. -/
theorem presents_readRendered {texts : List LooseText} {roles : List Role} {stmts : List Stmt}
    (h : RendersAll astray texts roles) (heq : readRendered texts = .ok stmts) : Presents astray roles stmts := by
  unfold readRendered at heq
  split at heq
  · rename_i strings hstrings
    have hgenerated := h.generated hstrings
    dsimp only at heq
    split at heq
    · rename_i hblank
      cases heq
      exact hgenerated.presents_nil (all_isBlank_unifyNewlines hblank)
    · exact presents_parseModule hgenerated (mapError_eq_ok_iff.1 heq)
  · cases heq

/-- The statements of declarations are functions with their roles. -/
theorem presents_statements {declarations : Declarations} {stmts : List Stmt}
    (h : declarations.Fits astray) (heq : declarations.statements = .ok stmts) :
    Presents astray declarations.roles stmts := by
  obtain ⟨texts, htexts, heq⟩ := bind_eq_ok_iff.1 heq
  obtain ⟨accessors, haccessors, heq⟩ := bind_eq_ok_iff.1 heq
  obtain ⟨texts', htexts', heq⟩ := bind_eq_ok_iff.1 heq
  obtain ⟨peers, hpeers, hpure⟩ := bind_eq_ok_iff.1 heq
  cases hpure
  exact (presents_readRendered (rendersAll_accessors h.accessors htexts) haccessors).append
    (presents_readRendered (rendersAll_peers h.peers htexts') hpeers)

/-! ## Synthesis -/

theorem isWord_storageName {identifier : String} (h : isWord identifier = true) :
    isWord (storageName identifier) = true := by
  obtain ⟨c, rest, hcons, hc, -, hrest⟩ := isWord_iff.1 h
  refine isWord_iff.2 ⟨'_', identifier.toList, toList_storageName identifier, by decide, by decide, ?_⟩
  rw [hcons]
  exact List.forall_mem_cons.2 ⟨hc, hrest⟩

theorem isWord_projectedName {identifier : String} (h : isWord identifier = true) :
    isWord (projectedName identifier) = true := by
  obtain ⟨c, rest, hcons, hc, -, hrest⟩ := isWord_iff.1 h
  have hall : ∀ d ∈ identifier.toList, isWordCharacter d = true := by
    rw [hcons]
    exact List.forall_mem_cons.2 ⟨hc, hrest⟩
  have hmarker : "projected_".toList.all isWordCharacter = true := by decide
  have hchars : ∀ d ∈ (projectedName identifier).toList, isWordCharacter d = true := by
    intro d hd
    rw [toList_projectedName, List.mem_append, List.mem_append] at hd
    rcases hd with hd | hd | hd
    · exact hall d ((List.takeWhile_prefix _).subset hd)
    · exact List.all_eq_true.1 hmarker d hd
    · exact hall d ((List.dropWhile_suffix _).subset hd)
  -- The first character is an underscore of the name or that of the marker, so it is no digit.
  have hhead : ∃ d tail, (projectedName identifier).toList = d :: tail ∧ d.isDigit = false := by
    rcases starts_projectedName identifier with hstart | ⟨rest, hstart⟩
    · obtain ⟨tail, htail⟩ := List.head?_eq_some_iff.1 hstart
      exact ⟨'_', tail, htail, by decide⟩
    · exact ⟨'p', _, hstart.symm, by decide⟩
  obtain ⟨d, tail, htail, hdigit⟩ := hhead
  rw [htail] at hchars
  obtain ⟨hd, htail'⟩ := List.forall_mem_cons.1 hchars
  exact isWord_iff.2 ⟨d, tail, htail, hd, hdigit, htail'⟩

theorem closed_forwarding {property storage member : String} {type : Option LooseText} {isSettable : Bool}
    (hproperty : isWord property = true) (hstorage : isWord storage = true)
    (hmember : isWord member = true) (htype : ∀ text ∈ type, text.Fits false) :
    ∀ accessor ∈ forwarding property storage member type isSettable, accessor.IsClosed := by
  have hclosed : ∀ kind : AccessorKind,
      Accessor.IsClosed { kind, property, storage, member, type } := fun kind =>
    ⟨hproperty, by rintro _ ⟨⟩; exact hstorage, by rintro _ ⟨⟩; exact hmember, htype⟩
  cases isSettable with
  | false => exact List.forall_mem_singleton.2 (hclosed .get)
  | true =>
    exact List.forall_mem_cons.2 ⟨hclosed .get, List.forall_mem_singleton.2 (hclosed .set)⟩

theorem closed_constructionArguments {attr : Attribute} {initializer : Option String}
    (h : attr.IsClosed) (hinitializer : ∀ text ∈ initializer, Source.IsClosed text) :
    ∀ argument ∈ constructionArguments attr initializer, Source.IsClosed argument.text := by
  cases initializer with
  | none => exact h.arguments
  | some value =>
    refine List.forall_mem_cons.2 ⟨?_, h.arguments⟩
    unfold Argument.text
    dsimp only
    split
    · rename_i label hlabel
      obtain rfl : label = wrappedValue := by
        split at hlabel
        · cases hlabel
          rfl
        · cases hlabel
      have hlead : isPlainText (wrappedValue ++ "=") = true := by decide
      exact .lead hlead (hinitializer value rfl)
    · exact hinitializer value rfl

/-- A projection whose type can stand in generated code. -/
theorem fits_projection {config : WrapperConfig} {identifier : String} {computed : ComputedProperty}
    (hconfig : config.Fits astray) (hname : isWord identifier = true)
    (h : projection config identifier = some computed) : (Peer.property computed).Fits astray := by
  obtain ⟨type, htype, rfl⟩ := Option.map_eq_some_iff.1 h
  have hprojected := isWord_projectedName hname
  obtain ⟨string, rfl, hfits⟩ := hconfig.projectedType type htype
  have hspelled : Closes [] (unifyNewlines string.toList)
      ∨ astray = true ∧ Source.Spills (unifyNewlines string.toList) := by
    rcases hfits with hclosed | ⟨hastray, value, hvalue⟩
    · exact .inl hclosed
    · exact (closes_or_spills hvalue).imp_right fun hspills => ⟨hastray, hspills⟩
  rcases hspelled with hclosed | ⟨hastray, hspills⟩
  · refine .inl (closed_forwarding hprojected (isWord_storageName hname) (by decide) ?_)
    rintro _ ⟨⟩
    exact ⟨string, rfl, .inl hclosed⟩
  · cases hsettable : config.projectedIsSettable <;>
      exact .inr ⟨hastray, _, _, rfl, rfl, rfl, hprojected, string, rfl, hspills⟩

/-- The texts of the declarations that replace what an attribute is attached to can stand in generated code. -/
theorem fits_synthesize {config : WrapperConfig} {attr : Attribute} {target : Target}
    (hconfig : config.Fits astray) (hattr : attr.IsClosed) (htarget : target.IsClosed) :
    (synthesize config attr target).declarations.Fits astray := by
  have hattrName : (LooseText.whole attr.name).Fits astray := by
    have hclosed : (LooseText.whole attr.name).IsClosed := ⟨_, rfl, hattr.name⟩
    exact hclosed.fits astray
  unfold synthesize
  split
  · rename_i member identifier hsingle
    have hname : isWord identifier = true := by
      rw [← displayName_of_single? hsingle]
      exact htarget.displayName
    have hstorage := isWord_storageName hname
    have htype : ∀ text ∈ member.type.map LooseText.whole, text.Fits false := by
      intro text htext
      obtain ⟨string, hstring, rfl⟩ := Option.map_eq_some_iff.1 htext
      have hclosed : (LooseText.whole string).IsClosed :=
        ⟨string, rfl, htarget.type member identifier hsingle string hstring⟩
      exact hclosed.fits false
    constructor
    · exact closed_forwarding hname hstorage (by decide) htype
    · refine List.forall_mem_cons.2 ⟨⟨hstorage, ?_, ?_⟩, ?_⟩
      · unfold WrapperConfig.wrapperTypeFor
        split
        · rename_i type hwrapper
          split
          · exact hattrName
          · exact hconfig.wrapperType type hwrapper
        · exact hattrName
      · exact closed_constructionArguments hattr (htarget.initializer member identifier hsingle)
      · intro peer hpeer
        obtain ⟨computed, hcomputed, rfl⟩ := Option.map_eq_some_iff.1 (Option.mem_toList.1 hpeer)
        exact fits_projection hconfig hname hcomputed
  · constructor
    · refine List.forall_mem_singleton.2 ⟨htarget.displayName, by simp, by simp, by simp⟩
    · simp [placeholder]

end PropertyWrapper
