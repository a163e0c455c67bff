import PropertyWrapper.Proofs.Source.Lines
import PropertyWrapper.Proofs.Source.Sound
import PropertyWrapper.Source.Grammar

/-!
# What readers consume

A reader of something inside a line takes tokens of that line only, and whatever it gives is made of
the words that it takes. Both are stated together, as a property of readers that follows the way in
which readers are put together.

* `Reads known least P reader` : where the tokens `known` stand, `reader` takes at least `least` tokens
  of a line and gives a value with the property `P`, unless it fails;
* `Reads.bind`, `Reads.peek`, `Reads.advance` and so on : one rule for each way to build a reader;
* `Reads.repeatStep`, `Reads.many`, `Reads.afterCommas` : the rules for repetitions, by an invariant of
  the values found so far.
-/

namespace PropertyWrapper.Source

open Reader

/-! ## Tokens of a line -/

/-- Whether all names among some tokens are words. -/
def WordTokens (tokens : Array Token) : Prop :=
  ∀ index id, (tokenAt tokens index).kind = .name id → isWord id = true

/-- Whether a token, if it is a name, is a word. -/
def TokenKind.IsWordy (kind : TokenKind) : Prop := ∀ id, kind = .name id → isWord id = true

/-- The tokens from one index up to another one stand inside a line. -/
def InLine (tokens : Array Token) (start stop : Nat) : Prop :=
  ∀ index, start ≤ index → index < stop → (tokenAt tokens index).kind.isInline = true

theorem InLine.refl (tokens : Array Token) (start : Nat) : InLine tokens start start := by
  intro index hstart hstop
  omega

theorem InLine.trans {tokens : Array Token} {start middle stop : Nat}
    (h : InLine tokens start middle) (h' : InLine tokens middle stop) : InLine tokens start stop := by
  intro index hstart hstop
  by_cases hmiddle : index < middle
  · exact h index hstart hmiddle
  · exact h' index (Nat.le_of_not_lt hmiddle) hstop

theorem InLine.single {tokens : Array Token} {start : Nat}
    (h : (tokenAt tokens start).kind.isInline = true) : InLine tokens start (start + 1) := by
  intro index hstart hstop
  obtain rfl : index = start := by omega
  exact h

/-- The first token behind the tokens of a line stands at one place only. -/
theorem InLine.stop_unique {tokens : Array Token} {index stop last : Nat} (hstop : InLine tokens index stop) (hindex : index ≤ stop)
    (hstop' : (tokenAt tokens stop).kind.isInline = false) (hlast : InLine tokens index last)
    (hindex' : index ≤ last) (hlast' : (tokenAt tokens last).kind.isInline = false) : stop = last := by
  rcases Nat.lt_trichotomy stop last with h | h | h
  · rw [hlast stop hindex h] at hstop'
    cases hstop'
  · exact h
  · rw [hstop last hindex' h] at hlast'
    cases hlast'

/-- Behind the last token stands the end of the source only. -/
theorem lt_size_of_ne_finish {tokens : Array Token} {index : Nat}
    (h : (tokenAt tokens index).kind ≠ .finish) : index < tokens.size := by
  by_cases hsize : index < tokens.size
  · exact hsize
  · have hnone : tokens[index]? = none := by simpa using hsize
    rw [tokenAt, hnone] at h
    exact absurd rfl h

/-- The tokens from an index on are of given kinds. -/
def StandsAt (tokens : Array Token) : Nat → List TokenKind → Prop
  | _, [] => True
  | index, kind :: kinds => (tokenAt tokens index).kind = kind ∧ StandsAt tokens (index + 1) kinds

/-! ## Readers -/

/-- Where tokens of the kinds `known` stand, a reader that gives a value takes at least `least` tokens,
all of one line, and the value has the property `P`. -/
def Reads {α : Type} (known : List TokenKind) (least : Nat) (P : α → Prop) (reader : Reader α) :
    Prop :=
  ∀ tokens index a stop, WordTokens tokens → StandsAt tokens index known →
    reader tokens index = .ok (a, stop) → index + least ≤ stop ∧ InLine tokens index stop ∧ P a

namespace Reads

variable {α β : Type} {known : List TokenKind} {least : Nat} {P : α → Prop} {Q : β → Prop}

/-- The steps of a sequence that gives a value. -/
theorem bind_eq_ok {first : Reader α} {next : α → Reader β} {tokens : Array Token} {index stop : Nat}
    {b : β} (h : (first >>= next) tokens index = .ok (b, stop)) :
    ∃ a middle, first tokens index = .ok (a, middle) ∧ next a tokens middle = .ok (b, stop) := by
  change Reader.andThen first next tokens index = .ok (b, stop) at h
  unfold Reader.andThen at h
  split at h
  · rename_i a middle heq
    exact ⟨a, middle, heq, h⟩
  · cases h

/-- What is known about tokens can be left unused. -/
theorem of_nil {reader : Reader α} (h : Reads [] least P reader) : Reads known least P reader :=
  fun tokens index a stop hwords _ heq => h tokens index a stop hwords trivial heq

theorem weaken {reader : Reader α} {P' : α → Prop} {least' : Nat} (h : Reads known least' P' reader)
    (hleast : least ≤ least') (hP : ∀ a, P' a → P a) : Reads known least P reader := by
  intro tokens index a stop hwords hknown heq
  obtain ⟨hindex, hline, ha⟩ := h tokens index a stop hwords hknown heq
  exact ⟨by omega, hline, hP a ha⟩

theorem pure {a : α} (h : P a) : Reads known 0 P (Pure.pure a : Reader α) := by
  intro tokens index a' stop _ _ heq
  cases heq
  exact ⟨Nat.le_refl _, .refl _ _, h⟩

theorem fail : Reads known least P (Reader.fail : Reader α) := by
  intro tokens index a stop _ _ heq
  cases heq

theorem failMisformed : Reads known least P (Reader.failMisformed : Reader α) := by
  intro tokens index a stop _ _ heq
  cases heq

theorem bind {first : Reader α} {next : α → Reader β} {taken : Nat} (hfirst : Reads known taken P first)
    (hnext : ∀ a, P a → Reads [] (least - taken) Q (next a)) :
    Reads known least Q (first >>= next) := by
  intro tokens index b stop hwords hknown heq
  obtain ⟨a, middle, hrun, heq⟩ := bind_eq_ok heq
  obtain ⟨hindex, hline, ha⟩ := hfirst tokens index a middle hwords hknown hrun
  obtain ⟨hindex', hline', hb⟩ := hnext a ha tokens middle b stop hwords trivial heq
  exact ⟨by omega, hline.trans hline', hb⟩

/-- A reader that gives one of the truth values at once only looks. -/
theorem looks_of_eq_pure {reader : Reader Bool} (h : reader = Pure.pure true ∨ reader = Pure.pure false)
    (tokens : Array Token) (index : Nat) : ∃ found, reader tokens index = .ok (found, index) := by
  rcases h with rfl | rfl
  · exact ⟨true, rfl⟩
  · exact ⟨false, rfl⟩

/-- A step that only looks at tokens. -/
theorem look {first : Reader α} {next : α → Reader β}
    (hfirst : ∀ tokens index, ∃ a, first tokens index = .ok (a, index))
    (hnext : ∀ a, Reads known least Q (next a)) : Reads known least Q (first >>= next) := by
  intro tokens index b stop hwords hknown heq
  obtain ⟨a, middle, hrun, heq⟩ := bind_eq_ok heq
  obtain ⟨a', hrun'⟩ := hfirst tokens index
  rw [hrun'] at hrun
  cases hrun
  exact hnext _ tokens _ b stop hwords hknown heq

theorem here {next : Position → Reader β} (hnext : ∀ pos, Reads known least Q (next pos)) :
    Reads known least Q (Reader.here >>= next) :=
  look (fun _ _ => ⟨_, rfl⟩) hnext

theorem at? {kind : TokenKind} {next : Bool → Reader β}
    (hnext : ∀ b, Reads known least Q (next b)) : Reads known least Q (Reader.at? kind >>= next) :=
  look (fun _ _ => ⟨_, rfl⟩) hnext

/-- Where a token was looked for and found, it is known. -/
theorem at?_known {kind : TokenKind} {next : Bool → Reader β}
    (htrue : Reads [kind] least Q (next true)) (hfalse : Reads [] least Q (next false)) :
    Reads [] least Q (Reader.at? kind >>= next) := by
  intro tokens index b stop hwords _ heq
  obtain ⟨found, middle, hrun, hnext⟩ := bind_eq_ok heq
  by_cases hthere : (tokenAt tokens index).kind = kind
  · obtain ⟨rfl, rfl⟩ : found = true ∧ middle = index := by
      cases hrun
      exact ⟨decide_eq_true hthere, rfl⟩
    exact htrue tokens _ b stop hwords ⟨hthere, trivial⟩ hnext
  · obtain ⟨rfl, rfl⟩ : found = false ∧ middle = index := by
      cases hrun
      exact ⟨decide_eq_false hthere, rfl⟩
    exact hfalse tokens _ b stop hwords trivial hnext

theorem foresee {reader : Reader α} {next : Option α → Reader β}
    (hnext : ∀ a, Reads known least Q (next a)) :
    Reads known least Q (Reader.foresee reader >>= next) :=
  look (fun _ _ => ⟨_, rfl⟩) hnext

theorem peek {next : TokenKind → Reader β}
    (hnext : ∀ kind : TokenKind, kind.IsWordy → Reads [kind] least Q (next kind)) :
    Reads [] least Q (Reader.peek >>= next) := by
  intro tokens index b stop hwords _ heq
  have hwordy : (tokenAt tokens index).kind.IsWordy := fun id hid => hwords index id hid
  exact hnext _ hwordy tokens index b stop hwords ⟨rfl, trivial⟩ heq

theorem peek_known {kind : TokenKind} {next : TokenKind → Reader β}
    (hnext : Reads (kind :: known) least Q (next kind)) :
    Reads (kind :: known) least Q (Reader.peek >>= next) := by
  intro tokens index b stop hwords hknown heq
  obtain ⟨kind', middle, hpeek, heq⟩ := bind_eq_ok heq
  cases hpeek
  refine hnext tokens index b stop hwords hknown ?_
  rw [← heq, ← hknown.1]
  rfl

theorem ahead {kind : TokenKind} {next : TokenKind → Reader β}
    (hnext : ∀ kind' : TokenKind, Reads [kind, kind'] least Q (next kind')) :
    Reads [kind] least Q (Reader.ahead 1 >>= next) := by
  intro tokens index b stop hwords hknown heq
  exact hnext _ tokens index b stop hwords ⟨hknown.1, rfl, trivial⟩ heq

theorem advance {kind : TokenKind} {next : Unit → Reader β} (hkind : kind.isInline = true)
    (hnext : Reads known (least - 1) Q (next ())) :
    Reads (kind :: known) least Q (Reader.advance >>= next) := by
  intro tokens index b stop hwords hknown heq
  obtain ⟨hindex, hline, hb⟩ := hnext tokens (index + 1) b stop hwords hknown.2 heq
  have hfirst : InLine tokens index (index + 1) := .single (by rw [hknown.1, hkind])
  exact ⟨by omega, hfirst.trans hline, hb⟩

theorem accept {kind : TokenKind} {next : Bool → Reader β} (hkind : kind.isInline = true)
    (htrue : Reads [] (least - 1) Q (next true)) (hfalse : Reads [] least Q (next false)) :
    Reads [] least Q (Reader.accept kind >>= next) := by
  intro tokens index b stop hwords _ heq
  obtain ⟨found, middle, hrun, heq⟩ := bind_eq_ok heq
  obtain ⟨kind', middle', hpeek, hrun⟩ := bind_eq_ok hrun
  cases hpeek
  split at hrun
  · rename_i hthere
    cases hrun
    obtain ⟨hindex, hline, hb⟩ := htrue tokens (index + 1) b stop hwords trivial heq
    have hfirst : InLine tokens index (index + 1) := .single (by
      rw [← hkind, ← hthere]
      rfl)
    exact ⟨by omega, hfirst.trans hline, hb⟩
  · cases hrun
    exact hfalse tokens _ b stop hwords trivial heq

theorem expect {kind : TokenKind} {next : Unit → Reader β} (hkind : kind.isInline = true)
    (hnext : Reads [] (least - 1) Q (next ())) :
    Reads [] least Q (Reader.expect kind >>= next) := by
  intro tokens index b stop hwords _ heq
  obtain ⟨found, middle, hrun, heq⟩ := bind_eq_ok heq
  obtain ⟨kind', middle', hpeek, hrun⟩ := bind_eq_ok hrun
  cases hpeek
  split at hrun
  · rename_i hthere
    cases hrun
    obtain ⟨hindex, hline, hb⟩ := hnext tokens (index + 1) b stop hwords trivial heq
    have hfirst : InLine tokens index (index + 1) := .single (by
      rw [← hkind, ← hthere]
      rfl)
    exact ⟨by omega, hfirst.trans hline, hb⟩
  · cases hrun

theorem expect_eq_ok {kind : TokenKind} {tokens : Array Token} {index stop : Nat} {result : Unit}
    (h : Reader.expect kind tokens index = .ok (result, stop)) :
    (tokenAt tokens index).kind = kind ∧ stop = index + 1 := by
  obtain ⟨kind', middle, hpeek, hnext⟩ := bind_eq_ok h
  cases hpeek
  split at hnext
  · rename_i hthere
    cases hnext
    exact ⟨hthere, rfl⟩
  · cases hnext

/-- A name is a word. -/
theorem name : Reads known 1 (fun id => isWord id = true) Reader.name := by
  refine of_nil (peek fun kind hkind => ?_)
  split
  · rename_i id
    exact advance rfl (pure (hkind id rfl))
  · exact fail

/-! ## Repetitions -/

theorem repeatUpTo {step : α → Reader (Option α)}
    (hstep : ∀ a, P a → Reads [] 0 (fun next => ∀ a' ∈ next, P a') (step a)) (fuel : Nat) {a : α}
    (ha : P a) : Reads [] 0 P (Reader.repeatUpTo step fuel a) := by
  induction fuel generalizing a with
  | zero => exact pure ha
  | succ fuel ih =>
    refine (hstep a ha).bind fun next hnext => ?_
    split
    · exact ih (hnext _ rfl)
    · exact pure ha

/-- What every step keeps holds of the result of a repetition. -/
theorem repeatStep {step : α → Reader (Option α)}
    (hstep : ∀ a, P a → Reads [] 0 (fun next => ∀ a' ∈ next, P a') (step a)) {a : α}
    (ha : P a) : Reads [] 0 P (Reader.repeatStep step a) := by
  intro tokens index
  exact repeatUpTo hstep (tokens.size + 1 - index) ha tokens index

/-- A repetition whose first step cannot but take a token. -/
theorem repeatStep_first {step : α → Reader (Option α)} {kind : TokenKind} (hkind : kind ≠ .finish)
    (hstep : ∀ a, P a → Reads [] 0 (fun next => ∀ a' ∈ next, P a') (step a)) {a : α}
    (hfirst : Reads [kind] 1 (fun next => ∃ a' ∈ next, P a') (step a)) :
    Reads [kind] 1 P (Reader.repeatStep step a) := by
  intro tokens index b stop hwords hknown heq
  have hsize : index < tokens.size := lt_size_of_ne_finish (by rw [hknown.1]; exact hkind)
  obtain ⟨fuel, hfuel⟩ : ∃ fuel, tokens.size + 1 - index = fuel + 1 := ⟨tokens.size - index, by omega⟩
  rw [Reader.repeatStep, hfuel] at heq
  have hrun : Reads [kind] 1 P (Reader.repeatUpTo step (fuel + 1) a) := by
    refine hfirst.bind fun next hnext => ?_
    obtain ⟨a', rfl, ha'⟩ := hnext
    exact repeatUpTo hstep fuel ha'
  exact hrun tokens index b stop hwords hknown heq

/-- The steps of a repetition as a whole: a step ends it, or gives what it goes on with. -/
theorem some_of {reader : Reader α} (h : Reads known least P reader) :
    Reads known least (fun next => ∀ a ∈ next, P a) (reader >>= fun a => Pure.pure (some a)) := by
  refine h.bind fun a ha => ?_
  exact (pure (P := fun next => ∀ a ∈ next, P a) (by simpa using ha)).weaken (by omega) fun _ h => h

theorem none_of : Reads known 0 (fun next => ∀ a ∈ next, P a) (Pure.pure none : Reader (Option α)) :=
  pure (by simp)

theorem many {continues : TokenKind → Bool} {reader : Reader α}
    (h : ∀ kind : TokenKind, kind.IsWordy → continues kind = true → Reads [kind] 0 P reader) :
    Reads [] 0 (fun found => ∀ a ∈ found, P a) (Reader.many continues reader) := by
  refine (repeatStep (P := fun found : List α => ∀ a ∈ found, P a) (fun found hfound => ?_)
    (by simp)).bind fun found hfound => pure (by simpa using hfound)
  refine peek fun kind hkind => ?_
  split
  · rename_i hcontinues
    refine (h kind hkind hcontinues).bind fun a ha => pure ?_
    rintro _ ⟨⟩ b hb
    rcases List.mem_cons.1 hb with rfl | hb
    · exact ha
    · exact hfound b hb
  · exact none_of

theorem separatedBy {separator : TokenKind} {reader : Reader α} (hseparator : separator.isInline = true)
    (h : Reads [] 1 P reader) :
    Reads [] 1 (fun found => ∀ a ∈ found, P a) (Reader.separatedBy separator reader) := by
  refine h.bind fun first hfirst => ?_
  refine (many (P := P) fun kind _ hcontinues => ?_).bind fun rest hrest => pure ?_
  · obtain rfl : kind = separator := by simpa using hcontinues
    exact advance hseparator (h.weaken (by omega) fun _ h => h)
  · intro a ha
    rcases List.mem_cons.1 ha with rfl | ha
    · exact hfirst
    · exact hrest a ha

theorem afterCommas {starts : TokenKind → Bool} {reader : Reader α} (h : Reads [] 1 P reader) :
    Reads [] 0 (fun found => ∀ a ∈ found.1, P a) (Reader.afterCommas starts reader) := by
  refine (repeatStep (P := fun state : List α × Bool × Bool => ∀ a ∈ state.1, P a)
    (fun state hstate => ?_) (by simp)).bind fun state hstate => ?_
  · obtain ⟨found, finished, comma⟩ := state
    dsimp only
    split
    · exact none_of
    · refine accept rfl ?_ none_of
      refine peek fun kind _ => ?_
      split
      · refine (of_nil h).bind fun a ha => (pure ?_).weaken (by omega) fun _ h => h
        rintro _ ⟨⟩ b hb
        rcases List.mem_cons.1 hb with rfl | hb
        · exact ha
        · exact hstate b hb
      · refine pure ?_
        rintro _ ⟨⟩ b hb
        exact hstate b hb
  · exact pure (by simpa using hstate)

theorem commaList {starts : TokenKind → Bool} {reader : Reader α} (h : Reads [] 1 P reader) :
    Reads [] 0 (fun found => ∀ a ∈ found, P a) (Reader.commaList starts reader) := by
  refine peek fun kind _ => ?_
  split
  · have hfirst : Reads [] 0 P reader := h.weaken (by omega) fun _ h => h
    refine (of_nil hfirst).bind fun first hfirst => ?_
    refine (afterCommas h).bind fun rest hrest => pure ?_
    intro a ha
    rcases List.mem_cons.1 ha with rfl | ha
    · exact hfirst
    · exact hrest a ha
  · exact pure (by simp)

end Reads

/-! ## Values alone -/

/-- A reader that gives values with the property `P`, whatever it takes of tokens with the property
`T`. -/
def Yields {α : Type} (T : Array Token → Prop) (P : α → Prop) (reader : Reader α) : Prop :=
  ∀ tokens index a stop, T tokens → reader tokens index = .ok (a, stop) → P a

namespace Yields

variable {α β : Type} {T : Array Token → Prop} {P : α → Prop} {Q : β → Prop}

theorem of_reads {least : Nat} {reader : Reader α} (h : Reads [] least P reader) :
    Yields WordTokens P reader :=
  fun tokens index a stop htokens heq => (h tokens index a stop htokens trivial heq).2.2

/-- What a reader gives in tokens of some kind, it gives in all more special ones. -/
theorem mono {T' : Array Token → Prop} {reader : Reader α} (h : Yields T P reader)
    (hT : ∀ tokens, T' tokens → T tokens) : Yields T' P reader :=
  fun tokens index a stop htokens heq => h tokens index a stop (hT tokens htokens) heq

theorem pure {a : α} (h : P a) : Yields T P (Pure.pure a : Reader α) := by
  intro tokens index a' stop _ heq
  cases heq
  exact h

theorem fail : Yields T P (Reader.fail : Reader α) := by
  intro tokens index a stop _ heq
  cases heq

theorem failBlock : Yields T P (Reader.failBlock : Reader α) := by
  intro tokens index a stop _ heq
  cases heq

theorem failMisformed : Yields T P (Reader.failMisformed : Reader α) := by
  intro tokens index a stop _ heq
  cases heq

theorem misformed {reader : Reader β} : Yields T P (Reader.misformed reader : Reader α) := by
  intro tokens index a stop _ heq
  unfold Reader.misformed at heq
  split at heq <;> cases heq

theorem bind {first : Reader α} {next : α → Reader β} (hfirst : Yields T P first)
    (hnext : ∀ a, P a → Yields T Q (next a)) : Yields T Q (first >>= next) := by
  intro tokens index b stop htokens heq
  obtain ⟨a, middle, hrun, heq⟩ := Reads.bind_eq_ok heq
  exact hnext a (hfirst tokens index a middle htokens hrun) tokens middle b stop htokens heq

/-- A step whose value does not matter. -/
theorem skip {first : Reader α} {next : α → Reader β} (hnext : ∀ a, Yields T Q (next a)) :
    Yields T Q (first >>= next) := by
  intro tokens index b stop htokens heq
  obtain ⟨a, middle, hrun, heq⟩ := Reads.bind_eq_ok heq
  exact hnext a tokens middle b stop htokens heq

theorem ite {condition : Prop} [Decidable condition] {first second : Reader α}
    (hfirst : Yields T P first) (hsecond : Yields T P second) :
    Yields T P (if condition then first else second) := by
  split
  · exact hfirst
  · exact hsecond

theorem orElse {first second : Reader α} (hfirst : Yields T P first) (hsecond : Yields T P second) :
    Yields T P (Reader.orElse first second) := by
  intro tokens index a stop htokens heq
  unfold Reader.orElse at heq
  split at heq
  · rename_i result hrun
    cases heq
    exact hfirst tokens index a stop htokens hrun
  · split at heq
    · cases heq
    · cases hrun : second tokens index with
      | error failure =>
        rw [hrun] at heq
        cases heq
      | ok result =>
        rw [hrun] at heq
        cases heq
        exact hsecond tokens index a stop htokens hrun

theorem repeatStep {step : α → Reader (Option α)}
    (hstep : ∀ a, P a → Yields T (fun next => ∀ a' ∈ next, P a') (step a)) {a : α} (ha : P a) :
    Yields T P (Reader.repeatStep step a) := by
  have hrun : ∀ (fuel : Nat) {a : α}, P a → Yields T P (Reader.repeatUpTo step fuel a) := by
    intro fuel
    induction fuel with
    | zero => exact fun ha => pure ha
    | succ fuel ih =>
      intro a ha
      refine (hstep a ha).bind fun next hnext => ?_
      split
      · exact ih (hnext _ rfl)
      · exact pure ha
  intro tokens index
  exact hrun (tokens.size + 1 - index) ha tokens index

/-- A step that goes on with a value. -/
theorem some_of {reader : Reader α} (h : Yields T P reader) :
    Yields T (fun next => ∀ a ∈ next, P a) (reader >>= fun a => Pure.pure (some a)) := by
  refine h.bind fun a ha => pure ?_
  rintro _ ⟨⟩
  exact ha

/-- A step that ends a repetition. -/
theorem none_of : Yields T (fun next => ∀ a ∈ next, P a) (Pure.pure none : Reader (Option α)) :=
  pure (by simp)

theorem many {continues : TokenKind → Bool} {reader : Reader α} (h : Yields T P reader) :
    Yields T (fun found => ∀ a ∈ found, P a) (Reader.many continues reader) := by
  refine (repeatStep (P := fun found : List α => ∀ a ∈ found, P a) (fun found hfound => ?_)
    (by simp)).bind fun found hfound => pure (by simpa using hfound)
  refine skip fun kind => ?_
  split
  · refine h.bind fun a ha => pure ?_
    rintro _ ⟨⟩ b hb
    rcases List.mem_cons.1 hb with rfl | hb
    · exact ha
    · exact hfound b hb
  · exact none_of

theorem separatedBy {separator : TokenKind} {reader : Reader α} (h : Yields T P reader) :
    Yields T (fun found => ∀ a ∈ found, P a) (Reader.separatedBy separator reader) :=
  h.bind fun _ hfirst => (many (skip fun _ => h)).bind fun _ hrest =>
    pure (List.forall_mem_cons.2 ⟨hfirst, hrest⟩)

theorem afterCommas {starts : TokenKind → Bool} {reader : Reader α} (h : Yields T P reader) :
    Yields T (fun found => ∀ a ∈ found.1, P a) (Reader.afterCommas starts reader) := by
  refine (repeatStep (P := fun state : List α × Bool × Bool => ∀ a ∈ state.1, P a)
    (fun state hstate => ?_) (by simp)).bind fun state hstate => pure (by simpa using hstate)
  obtain ⟨found, finished, comma⟩ := state
  refine ite none_of (skip fun _ => ite (skip fun kind => ite ?_ ?_) none_of)
  · refine h.bind fun a ha => pure ?_
    rintro _ ⟨⟩
    exact List.forall_mem_cons.2 ⟨ha, hstate⟩
  · refine pure ?_
    rintro _ ⟨⟩
    exact hstate

theorem commaList {starts : TokenKind → Bool} {reader : Reader α} (h : Yields T P reader) :
    Yields T (fun found => ∀ a ∈ found, P a) (Reader.commaList starts reader) :=
  skip fun _ => ite (h.bind fun _ hfirst => (afterCommas h).bind fun _ hrest =>
    pure (List.forall_mem_cons.2 ⟨hfirst, hrest⟩)) (pure (by simp))

end Yields

/-- What each step of a repetition keeps, wherever it stops, holds at the end. -/
theorem repeatStep_keeps {α : Type} {step : α → Reader (Option α)} {tokens : Array Token}
    {I : Nat → α → Prop}
    (hstep : ∀ index a next stop, I index a → step a tokens index = .ok (next, stop) →
      I stop (next.getD a)) {index stop : Nat} {a b : α} (ha : I index a)
    (h : repeatStep step a tokens index = .ok (b, stop)) : I stop b := by
  have hrun : ∀ (fuel index : Nat) (a : α), I index a →
      repeatUpTo step fuel a tokens index = .ok (b, stop) → I stop b := by
    intro fuel
    induction fuel with
    | zero =>
      intro index a ha h
      cases h
      exact ha
    | succ fuel ih =>
      intro index a ha h
      obtain ⟨next, middle, hnext, h⟩ := Reads.bind_eq_ok h
      have hkept := hstep index a next middle ha hnext
      cases next with
      | none =>
        cases h
        exact hkept
      | some a' => exact ih middle a' hkept h
  exact hrun _ index a ha h

theorem accept_eq_ok {tokens : Array Token} {index stop : Nat} {kind : TokenKind} {found : Bool}
    (h : accept kind tokens index = .ok (found, stop)) :
    found = true ∧ stop = index + 1 ∧ (tokenAt tokens index).kind = kind ∨ found = false ∧ stop = index := by
  obtain ⟨kind', middle, hpeek, h⟩ := Reads.bind_eq_ok h
  cases hpeek
  split at h
  · rename_i hkind
    cases h
    exact .inl ⟨rfl, rfl, hkind⟩
  · cases h
    exact .inr ⟨rfl, rfl⟩

end PropertyWrapper.Source
