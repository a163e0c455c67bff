import PropertyWrapper.Expansion.Property
import PropertyWrapper.Proofs.Lifting.Names
import PropertyWrapper.Proofs.Lifting.Stripped

/-!
# References and the names of constructed wrappers

A decorator or metadata entry that refers to a wrapper is a chain of attribute accesses on a plain name, with
or without a call around it. The name that is looked up joins the components of the chain, and the name that
is constructed is the text of the chain. They are the same.

* `IsChain` : the components of a chain;
* `EndsIn` : a chain whose joined components end in a word;
* `dottedName_eq_some_iff` : a dotted name joins the components of a chain;
* `lastComponent_eq_iff` : a last component stands alone or behind a dot;
* `name_liftAttribute` : the name of a lifted attribute is the text of what it refers to;
* `constructed_as_looked_up` : the wrapper that is constructed is the one that was looked up.
-/

namespace PropertyWrapper

open Source

/-! ## Last components -/

/-- A name without dots is its own last component. -/
theorem lastComponent_of_not_mem {word : String} (h : '.' ∉ word.toList) : lastComponent word = word := by
  rw [lastComponent, List.takeWhile_eq_self_iff.2 (forall_ne_dot h), List.reverse_reverse,
    String.ofList_toList]

/-- A word without dots is the last component of a name if it is the name or stands behind its last dot. -/
theorem lastComponent_eq_iff {name word : String} (h : '.' ∉ word.toList) :
    lastComponent name = word ↔ name = word ∨ ∃ qualifier, name = qualifier ++ "." ++ word := by
  constructor
  · rintro rfl
    have hsplit := List.takeWhile_append_dropWhile (p := fun c => decide (c ≠ '.')) (l := name.toList.reverse)
    cases hbehind : name.toList.reverse.dropWhile (fun c => decide (c ≠ '.')) with
    | nil =>
      left
      rw [hbehind, List.append_nil] at hsplit
      rw [lastComponent, hsplit, List.reverse_reverse, String.ofList_toList]
    | cons c front =>
      right
      have hdot : c = '.' := by
        have hhead := List.head?_dropWhile_not (fun c => decide (c ≠ '.')) name.toList.reverse
        rw [hbehind] at hhead
        simpa using hhead
      refine ⟨String.ofList front.reverse, ?_⟩
      rw [hbehind, hdot] at hsplit
      rw [← String.toList_inj, ← List.reverse_inj, reverse_qualified, lastComponent, String.toList_ofList,
        String.toList_ofList, List.reverse_reverse, List.reverse_reverse]
      exact hsplit.symm
  · rintro (rfl | ⟨qualifier, rfl⟩)
    · exact lastComponent_of_not_mem h
    · exact lastComponent_qualified qualifier h

/-- The last component of joined words is the last word. -/
theorem lastComponent_joined {word : String} (words : List String) (h : '.' ∉ word.toList) :
    lastComponent (String.intercalate "." (words ++ [word])) = word := by
  rcases List.eq_nil_or_concat words with rfl | ⟨front, last, rfl⟩
  · rw [List.nil_append, String.intercalate_singleton]
    exact lastComponent_of_not_mem h
  · rw [String.intercalate_append_of_ne_nil (by simp) (by simp), String.intercalate_singleton]
    exact lastComponent_qualified _ h

theorem not_dot_mem_of_isWord {word : String} (h : isWord word = true) : '.' ∉ word.toList := by
  obtain ⟨c, rest, heq, hc, -, hrest⟩ := isWord_iff.1 h
  have hdot : isWordCharacter '.' = false := by decide
  rw [heq]
  intro hmem
  rcases List.mem_cons.1 hmem with rfl | hmem
  · rw [hdot] at hc
    cases hc
  · have hword := hrest '.' hmem
    rw [hdot] at hword
    cases hword

/-! ## Chains -/

/-- An expression is a chain of attribute accesses on a plain name. Its components are the name and then the
attributes in order. -/
inductive IsChain : Expr → List String → Prop where
  | name (pos : Position) (id : String) : IsChain (.name pos id) [id]
  | access (pos : Position) {value : Expr} {components : List String} (attr : String)
      (h : IsChain value components) : IsChain (.attribute pos value attr) (components ++ [attr])

/-- A chain whose components, joined by dots, are a word or end in a dot and the word. -/
def EndsIn (word : String) (e : Expr) : Prop :=
  ∃ components, IsChain e components ∧
    (String.intercalate "." components = word
      ∨ ∃ qualifier, String.intercalate "." components = qualifier ++ "." ++ word)

namespace IsChain

variable {e : Expr} {components : List String}

theorem ne_nil (h : IsChain e components) : components ≠ [] := by
  cases h with
  | name => simp
  | access => simp

theorem dottedName_eq (h : IsChain e components) :
    dottedName e = some (String.intercalate "." components) := by
  induction h with
  | name pos id => rw [dottedName, String.intercalate_singleton]
  | access pos attr h ih =>
    rw [dottedName, ih, String.intercalate_append_of_ne_nil h.ne_nil (by simp),
      String.intercalate_singleton]
    rfl

/-- In a sound tree the components of a chain are words. -/
theorem isWord_of_mem (h : IsChain e components) (hsound : e.isSound = true) :
    ∀ word ∈ components, isWord word = true := by
  induction h with
  | name pos id => simpa [Expr.isSound] using hsound
  | access pos attr h ih =>
    simp only [Expr.isSound, Bool.and_eq_true] at hsound
    intro word hword
    rcases List.mem_append.1 hword with hword | hword
    · exact ih hsound.1 word hword
    · rw [List.mem_singleton.1 hword]
      exact hsound.2

/-- The name of a sound chain ends in its last component. -/
theorem getLast?_eq (h : IsChain e components) (hsound : e.isSound = true) :
    components.getLast? = some (lastComponent (String.intercalate "." components)) := by
  have hwords := h.isWord_of_mem hsound
  rcases List.eq_nil_or_concat components with hnil | ⟨front, word, rfl⟩
  · exact absurd hnil h.ne_nil
  · rw [List.concat_eq_append] at hwords ⊢
    have hdot := not_dot_mem_of_isWord (hwords word (by simp))
    rw [lastComponent_joined front hdot, List.getLast?_append, List.getLast?_singleton]
    rfl

end IsChain

/-- There is a dotted name exactly for a chain, and it joins the components. -/
theorem dottedName_eq_some_iff {e : Expr} {name : String} :
    dottedName e = some name
      ↔ ∃ components, IsChain e components ∧ name = String.intercalate "." components := by
  constructor
  · intro h
    induction e using dottedName.induct generalizing name with
    | case1 pos id =>
      cases h
      exact ⟨[id], .name pos id, String.intercalate_singleton.symm⟩
    | case2 pos value attr ih =>
      obtain ⟨base, hbase, rfl⟩ := Option.map_eq_some_iff.1 h
      obtain ⟨components, hchain, rfl⟩ := ih hbase
      refine ⟨components ++ [attr], .access pos attr hchain, ?_⟩
      rw [String.intercalate_append_of_ne_nil hchain.ne_nil (by simp), String.intercalate_singleton]
    | case3 e hname hattribute =>
      rw [dottedName] at h
      · cases h
      · exact hname
      · exact hattribute
  · rintro ⟨components, hchain, rfl⟩
    exact hchain.dottedName_eq

/-- An expression refers to a word exactly if it is a chain that ends in the word. -/
theorem refersTo_dottedName_iff {word : String} (h : '.' ∉ word.toList) {e : Expr} :
    refersTo (dottedName e) [word] = true ↔ EndsIn word e := by
  rw [refersTo, Option.any_eq_true]
  constructor
  · rintro ⟨name, hname, hlast⟩
    obtain ⟨components, hchain, rfl⟩ := dottedName_eq_some_iff.1 hname
    refine ⟨components, hchain, (lastComponent_eq_iff h).1 ?_⟩
    simpa using hlast
  · rintro ⟨components, hchain, hends⟩
    refine ⟨_, hchain.dottedName_eq, ?_⟩
    simpa using (lastComponent_eq_iff h).2 hends

/-! ## References -/

/-- What a decorator or metadata entry refers to: what is called, or the expression itself. -/
def Source.Expr.referenced : Expr → Expr
  | .call _ func _ _ => func
  | e => e

/-- The arguments with which a decorator or metadata entry calls what it refers to. -/
def passedArguments : Expr → Except PrintError (List Argument)
  | .call _ _ args keywords => liftArguments args keywords
  | _ => .ok []

theorem referenceName_eq (e : Expr) : referenceName e = dottedName e.referenced := by
  cases e <;> rfl

/-- The name of an attribute is the text of what it refers to. -/
theorem name_liftAttribute (e : Expr) :
    Attribute.name <$> liftAttribute e = do
      let name ← e.referenced.text
      let _ ← passedArguments e
      return name := by
  cases e with
  | call pos func args keywords =>
    rw [liftAttribute, Expr.referenced, passedArguments]
    cases func.text with
    | error error => rfl
    | ok text =>
      cases liftArguments args keywords with
      | error error => rfl
      | ok arguments => rfl
  | _ =>
    simp only [liftAttribute, Expr.referenced, passedArguments]
    generalize Expr.text _ = text
    cases text <;> rfl

/-- A storage constructs the wrapper that its attribute names, unless the configuration has a type. -/
theorem wrapperType_of_mem_peers {config : WrapperConfig} {attr : Attribute} {target : Target}
    {storage : Storage} (htype : config.wrapperType.getD "" = "")
    (h : Peer.storage storage ∈ (synthesize config attr target).declarations.peers) :
    storage.wrapperType = attr.name := by
  have hname : config.wrapperTypeFor attr = attr.name := by
    rw [WrapperConfig.wrapperTypeFor]
    cases htext : config.wrapperType with
    | none => rfl
    | some type =>
      rw [htext, Option.getD_some] at htype
      exact if_pos htype
  unfold synthesize at h
  split at h
  · rcases List.mem_cons.1 h with heq | hmem
    · cases heq
      exact hname
    · obtain ⟨computed, -, heq⟩ := Option.map_eq_some_iff.1 (Option.mem_toList.1 hmem)
      cases heq
  · cases h

/-- A target with one plain name gets a storage. -/
theorem exists_storage_of_single? (config : WrapperConfig) (attr : Attribute) {target : Target}
    (h : target.single?.isSome = true) :
    ∃ storage, Peer.storage storage ∈ (synthesize config attr target).declarations.peers := by
  obtain ⟨⟨member, identifier⟩, hsingle⟩ := Option.isSome_iff_exists.1 h
  rw [synthesize, hsingle]
  exact ⟨_, List.mem_cons_self⟩

/-- The wrapper that is constructed is the one that was looked up. An expression has a reference name exactly
if it refers to a chain; the name joins the components of the chain, ends in the last one, and is the name of
the lifted attribute, which is missing only if an argument has no text. For any other expression nothing is
looked up and nothing resolves. So if an expression resolves to a configuration without a type of its own, it
has a reference name, and whatever storage is generated for it constructs the wrapper of that name. -/
theorem constructed_as_looked_up {e : Expr} (h : e.isSound = true) :
    (∀ name, referenceName e = some name →
      ∃ components, IsChain e.referenced components ∧
        name = String.intercalate "." components ∧
        components.getLast? = some (lastComponent name) ∧
        Attribute.name <$> liftAttribute e = (fun _ => name) <$> passedArguments e) ∧
      ((¬ ∃ components, IsChain e.referenced components) →
        referenceName e = none ∧ ∀ registry : Registry, registry.resolve (referenceName e) = none) ∧
      ∀ (registry : Registry) (config : WrapperConfig),
        registry.resolve (referenceName e) = some config → config.wrapperType.getD "" = "" →
          ∃ name, referenceName e = some name ∧
            ∀ attr, liftAttribute e = .ok attr → attr.name = name ∧ ∀ target,
              (target.single?.isSome = true →
                ∃ storage, Peer.storage storage ∈ (synthesize config attr target).declarations.peers) ∧
              ∀ storage, Peer.storage storage ∈ (synthesize config attr target).declarations.peers →
                storage.wrapperType = name := by
  -- Soundness is needed for the last component only: a word has no dot in it.
  have hreferenced : e.referenced.isSound = true := by
    cases e with
    | call pos func args keywords =>
      simp only [Expr.isSound, Bool.and_eq_true] at h
      exact h.1.1
    | _ => exact h
  have hattribute : ∀ name, referenceName e = some name →
      Attribute.name <$> liftAttribute e = (fun _ => name) <$> passedArguments e := by
    intro name hname
    rw [referenceName_eq] at hname
    -- The printer puts no brackets around a chain.
    have htext : e.referenced.text = .ok name := print_of_dottedName hname false .test
    rw [name_liftAttribute, htext]
    cases passedArguments e <;> rfl
  refine ⟨fun name hname => ?_, fun hnone => ?_, fun registry config hconfig htype => ?_⟩
  · have hdotted := hname
    rw [referenceName_eq] at hdotted
    obtain ⟨components, hchain, heq⟩ := dottedName_eq_some_iff.1 hdotted
    refine ⟨components, hchain, heq, ?_, hattribute name hname⟩
    rw [heq]
    exact hchain.getLast?_eq hreferenced
  · have hname : referenceName e = none := by
      rw [referenceName_eq, Option.eq_none_iff_forall_ne_some]
      intro name hname
      obtain ⟨components, hchain, -⟩ := dottedName_eq_some_iff.1 hname
      exact hnone ⟨components, hchain⟩
    refine ⟨hname, fun registry => ?_⟩
    rw [hname]
    rfl
  · obtain ⟨name, hname, -⟩ := Option.bind_eq_some_iff.1 hconfig
    refine ⟨name, hname, fun attr hattr => ?_⟩
    have hnamed := hattribute name hname
    rw [hattr] at hnamed
    obtain ⟨-, -, heq⟩ := map_eq_ok_iff.1 hnamed.symm
    refine ⟨heq.symm, fun target => ⟨exists_storage_of_single? config attr, fun storage hstorage => ?_⟩⟩
    rw [heq]
    exact wrapperType_of_mem_peers htype hstorage

/-- A call of a qualified wrapper: `pkg.E(v, label=x)`. -/
def qualifiedCall : Expr :=
  .call ⟨1, 0⟩ (.attribute ⟨1, 0⟩ (.name ⟨1, 0⟩ "pkg") "E") [.name ⟨1, 6⟩ "v"]
    [.mk ⟨1, 9⟩ (some "label") (.name ⟨1, 15⟩ "x")]

/-- A wrapper that is found by the last component of its name is constructed by the whole name. -/
theorem constructed_qualifiedCall :
    qualifiedCall.isSound = true ∧
      Registry.resolve ⟨[(.text "E", {})]⟩ (referenceName qualifiedCall) = some {} ∧
      ∃ attr, liftAttribute qualifiedCall = .ok attr ∧ attr.name = "pkg.E" ∧
        ∀ target storage, Peer.storage storage ∈ (synthesize {} attr target).declarations.peers →
          storage.wrapperType = "pkg.E" := by
  have hsound : qualifiedCall.isSound = true := by decide
  have hresolves : Registry.resolve ⟨[(.text "E", {})]⟩ (referenceName qualifiedCall) = some {} := by
    decide
  obtain ⟨-, -, hconstructed⟩ := constructed_as_looked_up hsound
  obtain ⟨name, hname, hattribute⟩ := hconstructed _ _ hresolves rfl
  have hname : name = "pkg.E" := (Option.some.inj hname).symm
  obtain ⟨hattr, htarget⟩ := hattribute _ rfl
  rw [hname] at hattr htarget
  exact ⟨hsound, hresolves, _, rfl, hattr, fun target => (htarget target).2⟩

end PropertyWrapper
