import PropertyWrapper.Proofs.Source.Readers

/-!
# Levels of brackets

What a reader of expressions takes can be told from the tokens alone, by going through them once with a stack
of the brackets that are open: brackets are closed in the order in which they were opened, a colon or a single
sign of equality stands in a bracket or in a lambda, and no token of another kind of statement stands anywhere.
The names in front of single signs of equality are those by which a call passes its arguments, apart from
those that belong to the parameters of a lambda.

* `Spans`, `Leads` : tokens from an index to another one, and up to the first fault;
* `Scan.step`, `scan` : one token more and a list of tokens;
* `Moves G f known reader` : where the tokens `known` stand, `reader` turns the open brackets `levels` with
  `G levels` into `f levels`;
* `Moves.bind`, `Moves.opening`, `Moves.expect_closing` and so on : one rule for each way to build a reader.
-/

namespace PropertyWrapper.Source

open Reader

/-! ## Tokens from an index to another one -/

/-- The tokens from an index up to another one, by their kinds. -/
def Spans (tokens : Array Token) (index stop : Nat) (kinds : List TokenKind) : Prop :=
  StandsAt tokens index kinds ∧ stop = index + kinds.length

namespace Spans

variable {tokens : Array Token} {index middle stop : Nat} {kinds kinds' : List TokenKind}

theorem nil (tokens : Array Token) (index : Nat) : Spans tokens index index [] := ⟨trivial, rfl⟩

theorem cons {kind : TokenKind} (hkind : (tokenAt tokens index).kind = kind)
    (h : Spans tokens (index + 1) stop kinds) : Spans tokens index stop (kind :: kinds) := by
  obtain ⟨hstands, rfl⟩ := h
  refine ⟨⟨hkind, hstands⟩, ?_⟩
  rw [List.length_cons]
  omega

theorem of_cons {kind : TokenKind} (h : Spans tokens index stop (kind :: kinds)) :
    (tokenAt tokens index).kind = kind ∧ Spans tokens (index + 1) stop kinds := by
  obtain ⟨⟨hkind, hstands⟩, rfl⟩ := h
  refine ⟨hkind, hstands, ?_⟩
  rw [List.length_cons]
  omega

theorem append (h : Spans tokens index middle kinds) (h' : Spans tokens middle stop kinds') :
    Spans tokens index stop (kinds ++ kinds') := by
  induction kinds generalizing index with
  | nil =>
    obtain rfl : middle = index := h.2
    exact h'
  | cons kind kinds ih => exact .cons h.of_cons.1 (ih h.of_cons.2)

/-- The tokens up to an index and those behind it. -/
theorem of_append (h : Spans tokens index stop (kinds ++ kinds')) :
    Spans tokens index (index + kinds.length) kinds ∧ Spans tokens (index + kinds.length) stop kinds' := by
  induction kinds generalizing index with
  | nil => exact ⟨.nil _ _, h⟩
  | cons kind kinds ih =>
    obtain ⟨hkind, hrest⟩ := h.of_cons
    obtain ⟨hfirst, hsecond⟩ := ih hrest
    have hindex : index + 1 + kinds.length = index + (kind :: kinds).length := by
      rw [List.length_cons]
      omega
    rw [hindex] at hfirst hsecond
    exact ⟨.cons hkind hfirst, hsecond⟩

/-- Tokens up to an index in front of the end of others are the first ones of these. -/
theorem exists_append (h : Spans tokens index middle kinds) (h' : Spans tokens index stop kinds')
    (hle : middle ≤ stop) : ∃ rest, kinds' = kinds ++ rest := by
  induction kinds generalizing index kinds' with
  | nil => exact ⟨kinds', rfl⟩
  | cons kind kinds ih =>
    cases kinds' with
    | nil =>
      have hmiddle := h.2
      have hstop := h'.2
      rw [List.length_cons] at hmiddle
      rw [List.length_nil] at hstop
      omega
    | cons kind' kinds' =>
      obtain ⟨hkind, hrest⟩ := h.of_cons
      obtain ⟨hkind', hrest'⟩ := h'.of_cons
      obtain ⟨rest, rfl⟩ := ih hrest hrest'
      obtain rfl : kind = kind' := hkind.symm.trans hkind'
      exact ⟨rest, rfl⟩

theorem inLine (h : Spans tokens index stop kinds) (hinline : ∀ kind ∈ kinds, kind.isInline = true) :
    InLine tokens index stop := by
  induction kinds generalizing index with
  | nil =>
    obtain rfl : stop = index := h.2
    exact .refl _ _
  | cons kind kinds ih =>
    obtain ⟨hkind, hrest⟩ := h.of_cons
    refine InLine.trans (.single ?_) (ih hrest fun kind hmem => hinline kind (by simp [hmem]))
    rw [hkind]
    exact hinline kind (by simp)

end Spans

/-- From an index on stand tokens of some kinds, up to a place with the property `P`, unless a fault cuts
them off. -/
inductive Leads (tokens : Array Token) (P : Nat → Prop) : Nat → List TokenKind → Prop where
  | done {index : Nat} : P index → Leads tokens P index []
  | fault {index : Nat} {kinds : List TokenKind} {fault : LexicalFault} :
      (tokenAt tokens index).kind = .fault fault → Leads tokens P index kinds
  | token {index : Nat} {kind : TokenKind} {kinds : List TokenKind} :
      (tokenAt tokens index).kind = kind → Leads tokens P (index + 1) kinds →
        Leads tokens P index (kind :: kinds)

namespace Leads

variable {tokens : Array Token} {P Q : Nat → Prop} {index : Nat} {kinds kinds' : List TokenKind}

theorem append (h : Leads tokens P index kinds) (hnext : ∀ stop, P stop → Leads tokens Q stop kinds') :
    Leads tokens Q index (kinds ++ kinds') := by
  induction h with
  | done h => exact hnext _ h
  | fault h => exact .fault h
  | token hkind _ ih => exact .token hkind ih

theorem mono (h : Leads tokens P index kinds) (hPQ : ∀ stop, P stop → Q stop) :
    Leads tokens Q index kinds := by
  induction h with
  | done h => exact .done (hPQ _ h)
  | fault h => exact .fault h
  | token hkind _ ih => exact .token hkind ih

/-- Further tokens, of which only some property is known. -/
theorem exists_append {R : List TokenKind → Prop} (h : Leads tokens P index kinds) (hR : ∃ kinds', R kinds')
    (hnext : ∀ stop, P stop → ∃ kinds', R kinds' ∧ Leads tokens Q stop kinds') :
    ∃ kinds', R kinds' ∧ Leads tokens Q index (kinds ++ kinds') := by
  induction h with
  | done h => exact hnext _ h
  | fault h =>
    obtain ⟨kinds', hkinds'⟩ := hR
    exact ⟨kinds', hkinds', .fault h⟩
  | token hkind _ ih =>
    obtain ⟨kinds', hkinds', hleads⟩ := ih
    exact ⟨kinds', hkinds', .token hkind hleads⟩

/-- All tokens stand there, or a fault behind the first ones of them. -/
theorem cases_spans (h : Leads tokens P index kinds) :
    (∃ stop, Spans tokens index stop kinds ∧ P stop)
      ∨ ∃ front back stop fault, kinds = front ++ back ∧ Spans tokens index stop front
        ∧ (tokenAt tokens stop).kind = .fault fault := by
  induction h with
  | done h => exact .inl ⟨_, .nil _ _, h⟩
  | @fault _ kinds _ h => exact .inr ⟨[], kinds, _, _, rfl, .nil _ _, h⟩
  | @token _ kind _ hkind _ ih =>
    rcases ih with ⟨stop, hspans, hstop⟩ | ⟨front, back, stop, fault, rfl, hspans, hfault⟩
    · exact .inl ⟨stop, .cons hkind hspans, hstop⟩
    · exact .inr ⟨kind :: front, back, stop, fault, rfl, .cons hkind hspans, hfault⟩

end Leads

/-! ## Brackets -/

/-- What is known about an open bracket: the names passed since then, and how many lambdas wait for their
colon, inside of which names are those of parameters. -/
structure Level where
  labels : List String := []
  lambdas : Nat := 0
deriving DecidableEq

namespace Level

/-- A lambda starts. -/
def enter (level : Level) : Level := { level with lambdas := level.lambdas + 1 }

/-- A colon ends the innermost lambda, if there is one. -/
def leave (level : Level) : Level := { level with lambdas := level.lambdas - 1 }

/-- A value is passed by a name, or a parameter has a default. -/
def pass (name : Option String) (level : Level) : Level :=
  if level.lambdas = 0 then { level with labels := level.labels ++ name.toList } else level

theorem pass_of_pos {level : Level} (h : 0 < level.lambdas) (name : Option String) :
    level.pass name = level :=
  if_neg (Nat.ne_of_gt h)

end Level

/-- The innermost level and those around it, of which each one but the last belongs to an open bracket. -/
structure Levels where
  inner : Level := {}
  outer : List Level := []
deriving DecidableEq

namespace Levels

/-- The levels behind an opening bracket. -/
def push (levels : Levels) : Levels := ⟨{}, levels.inner :: levels.outer⟩

/-- The levels behind a closing bracket. -/
def pop (levels : Levels) : Levels :=
  match levels.outer with
  | [] => levels
  | level :: outer => ⟨level, outer⟩

@[simp] theorem pop_push (levels : Levels) : levels.push.pop = levels := rfl

/-- Other levels in the place of the innermost one. -/
def modify (change : Level → Level) (levels : Levels) : Levels := ⟨change levels.inner, levels.outer⟩

/-- Whether a colon or a sign of equality may stand here: in a bracket or in a lambda. -/
def mayMark (levels : Levels) : Bool := 0 < levels.inner.lambdas || !levels.outer.isEmpty

end Levels

/-- The levels, and the last token if it is a name. -/
structure Scan where
  levels : Levels := {}
  last : Option String := none

/-- Whether a token never stands in an expression: it ends a line, a block or the source, or belongs to a
statement. -/
def TokenKind.isForeign : TokenKind → Bool
  | .symbol .semicolon | .symbol .arrow | .symbol (.augmented _) | .reserved .kwReturn => true
  | kind => !kind.isInline

/-- The state behind a token, if the token can stand in an expression here. -/
def Scan.step (s : Scan) : TokenKind → Option Scan
  | .symbol .lparen | .symbol .lbracket | .symbol .lbrace => some { levels := s.levels.push }
  | .symbol .rparen | .symbol .rbracket | .symbol .rbrace =>
    if s.levels.outer.isEmpty then none else some { levels := s.levels.pop }
  | .symbol .colon =>
    if s.levels.mayMark then some { levels := s.levels.modify Level.leave } else none
  | .symbol .assign =>
    if s.levels.mayMark then some { levels := s.levels.modify (Level.pass s.last) } else none
  | .reserved .kwLambda => some { levels := s.levels.modify Level.enter }
  | .name id => some { levels := s.levels, last := some id }
  | kind => if kind.isForeign then none else some { levels := s.levels }

/-- The state behind some tokens, if they can stand in an expression here. -/
def scan (kinds : List TokenKind) (s : Scan) : Option Scan := kinds.foldlM Scan.step s

@[simp] theorem scan_nil (s : Scan) : scan [] s = some s := rfl

theorem scan_cons (kind : TokenKind) (kinds : List TokenKind) (s : Scan) :
    scan (kind :: kinds) s = (s.step kind).bind (scan kinds) := rfl

theorem scan_append (kinds kinds' : List TokenKind) (s : Scan) :
    scan (kinds ++ kinds') s = (scan kinds s).bind (scan kinds') := by
  rw [scan, List.foldlM_append]
  rfl

/-- No token that can stand in an expression is foreign to it. -/
theorem isForeign_of_step {s s' : Scan} {kind : TokenKind} (h : s.step kind = some s') :
    kind.isForeign = false := by
  unfold Scan.step at h
  split at h
  all_goals first | rfl | skip
  rw [Bool.eq_false_iff]
  intro hforeign
  rw [if_pos hforeign] at h
  cases h

theorem isForeign_of_scan {kinds : List TokenKind} {s s' : Scan} (h : scan kinds s = some s') :
    ∀ kind ∈ kinds, kind.isForeign = false := by
  induction kinds generalizing s with
  | nil => simp
  | cons kind kinds ih =>
    rw [scan_cons] at h
    obtain ⟨middle, hstep, hscan⟩ := Option.bind_eq_some_iff.1 h
    exact List.forall_mem_cons.2 ⟨isForeign_of_step hstep, ih hscan⟩

theorem isInline_of_isForeign {kind : TokenKind} (h : kind.isForeign = false) : kind.isInline = true := by
  unfold TokenKind.isForeign at h
  split at h
  · cases h
  · cases h
  · cases h
  · cases h
  · simpa using h

theorem step_of_opens {kind : TokenKind} (h : kind.opens = true) (s : Scan) :
    s.step kind = some { levels := s.levels.push } := by
  unfold TokenKind.opens at h
  split at h
  · rfl
  · rfl
  · rfl
  · cases h

theorem step_of_closes {kind : TokenKind} (h : kind.closes = true) (s : Scan) :
    s.step kind = if s.levels.outer.isEmpty then none else some { levels := s.levels.pop } := by
  unfold TokenKind.closes at h
  split at h
  · rfl
  · rfl
  · rfl
  · cases h

/-! ## Readers -/

/-- Where tokens of the kinds `known` stand and the open brackets are such that `G` holds, the tokens that a
reader takes to give a value lead to the brackets that `f` tells. -/
def Moves {α : Type} (G : Levels → Prop) (f : Levels → Levels) (known : List TokenKind) (reader : Reader α) :
    Prop :=
  ∀ tokens index a stop, StandsAt tokens index known → reader tokens index = .ok (a, stop) →
    ∃ kinds, Spans tokens index stop kinds
      ∧ ∀ s : Scan, G s.levels → ∃ s', scan kinds s = some s' ∧ s'.levels = f s.levels

/-- A reader leaves the open brackets as they are. -/
abbrev Keeps {α : Type} (G : Levels → Prop) (known : List TokenKind) (reader : Reader α) : Prop :=
  Moves G id known reader

/-- A bracket is open, no name was passed since then, and no lambda waits for its colon. -/
def Opened (levels : Levels) : Prop := ∃ level outer, levels = ⟨{}, level :: outer⟩

/-- Names are those of parameters. -/
def InLambda (levels : Levels) : Prop := 0 < levels.inner.lambdas

/-- There may be any brackets. -/
def Anywhere (_ : Levels) : Prop := True

theorem Levels.opened_push (levels : Levels) : Opened levels.push := ⟨_, _, rfl⟩

theorem inLambda_enter (levels : Levels) : InLambda (levels.modify Level.enter) := Nat.succ_pos _

theorem modify_leave_enter (levels : Levels) :
    (levels.modify Level.enter).modify Level.leave = levels := rfl

/-- A token that leaves the open brackets as they are, where `G` holds. -/
def Inert (G : Levels → Prop) (kind : TokenKind) : Prop :=
  ∀ s : Scan, G s.levels → ∃ s', s.step kind = some s' ∧ s'.levels = s.levels

/-- Where no lambda waits for it, a colon leaves the open brackets as they are. -/
theorem inert_colon : Inert Opened (.symbol .colon) := by
  rintro s ⟨level, outer, hlevels⟩
  refine ⟨{ levels := s.levels.modify Level.leave }, ?_, ?_⟩
  · rw [Scan.step, hlevels]
    rfl
  · rw [hlevels]
    rfl

/-- A default leaves the open brackets as they are where names are those of parameters. -/
theorem inert_assign : Inert InLambda (.symbol .assign) := by
  intro s h
  refine ⟨{ levels := s.levels.modify (Level.pass s.last) }, ?_, ?_⟩
  · have hmark : s.levels.mayMark = true := by
      rw [Levels.mayMark, decide_eq_true (show 0 < s.levels.inner.lambdas from h), Bool.true_or]
    rw [Scan.step, if_pos hmark]
  · rw [Levels.modify, Level.pass_of_pos h]

namespace Moves

variable {α β : Type} {G : Levels → Prop} {f : Levels → Levels} {known : List TokenKind}

/-- What is known about tokens can be left unused. -/
theorem of_nil {reader : Reader α} (h : Moves G f [] reader) : Moves G f known reader :=
  fun tokens index a stop _ heq => h tokens index a stop trivial heq

theorem of_anywhere {reader : Reader α} (h : Moves Anywhere f known reader) : Moves G f known reader := by
  intro tokens index a stop hknown heq
  obtain ⟨kinds, hspans, hscan⟩ := h tokens index a stop hknown heq
  exact ⟨kinds, hspans, fun s _ => hscan s trivial⟩

theorem pure {a : α} : Keeps G known (Pure.pure a : Reader α) := by
  intro tokens index a' stop _ heq
  cases heq
  exact ⟨[], .nil _ _, fun s _ => ⟨s, rfl, rfl⟩⟩

theorem fail : Moves G f known (Reader.fail : Reader α) := by
  intro tokens index a stop _ heq
  cases heq

theorem failMisformed : Moves G f known (Reader.failMisformed : Reader α) := by
  intro tokens index a stop _ heq
  cases heq

theorem bind {first : Reader α} {next : α → Reader β} (hfirst : Keeps G known first)
    (hnext : ∀ a, Moves G f [] (next a)) : Moves G f known (first >>= next) := by
  intro tokens index b stop hknown heq
  obtain ⟨a, middle, hrun, heq⟩ := Reads.bind_eq_ok heq
  obtain ⟨kinds, hspans, hscan⟩ := hfirst tokens index a middle hknown hrun
  obtain ⟨kinds', hspans', hscan'⟩ := hnext a tokens middle b stop trivial heq
  refine ⟨kinds ++ kinds', hspans.append hspans', fun s hs => ?_⟩
  obtain ⟨s', hs', hlevels⟩ := hscan s hs
  rw [id_eq] at hlevels
  obtain ⟨s'', hs'', hlevels'⟩ := hscan' s' (by rwa [hlevels])
  exact ⟨s'', by rw [scan_append, hs', Option.bind_some, hs''], by rw [hlevels', hlevels]⟩

/-- A first reader that goes on to other brackets. -/
theorem bind_keeps {first : Reader α} {next : α → Reader β} (hfirst : Moves G f known first)
    (hnext : ∀ a, Keeps Anywhere [] (next a)) : Moves G f known (first >>= next) := by
  intro tokens index b stop hknown heq
  obtain ⟨a, middle, hrun, heq⟩ := Reads.bind_eq_ok heq
  obtain ⟨kinds, hspans, hscan⟩ := hfirst tokens index a middle hknown hrun
  obtain ⟨kinds', hspans', hscan'⟩ := hnext a tokens middle b stop trivial heq
  refine ⟨kinds ++ kinds', hspans.append hspans', fun s hs => ?_⟩
  obtain ⟨s', hs', hlevels⟩ := hscan s hs
  obtain ⟨s'', hs'', hlevels'⟩ := hscan' s' trivial
  exact ⟨s'', by rw [scan_append, hs', Option.bind_some, hs''], by rw [hlevels', id_eq, hlevels]⟩

/-- A step that only looks at tokens. -/
theorem look {first : Reader α} {next : α → Reader β}
    (hfirst : ∀ tokens index, ∃ a, first tokens index = .ok (a, index))
    (hnext : ∀ a, Moves G f known (next a)) : Moves G f known (first >>= next) := by
  intro tokens index b stop hknown heq
  obtain ⟨a, middle, hrun, heq⟩ := Reads.bind_eq_ok heq
  obtain ⟨a', hrun'⟩ := hfirst tokens index
  rw [hrun'] at hrun
  cases hrun
  exact hnext _ tokens _ b stop hknown heq

theorem here {next : Position → Reader β} (hnext : ∀ pos, Moves G f known (next pos)) :
    Moves G f known (Reader.here >>= next) :=
  look (fun _ _ => ⟨_, rfl⟩) hnext

theorem at? {kind : TokenKind} {next : Bool → Reader β} (hnext : ∀ b, Moves G f known (next b)) :
    Moves G f known (Reader.at? kind >>= next) :=
  look (fun _ _ => ⟨_, rfl⟩) hnext

theorem peek {next : TokenKind → Reader β} (hnext : ∀ kind : TokenKind, Moves G f [kind] (next kind)) :
    Moves G f [] (Reader.peek >>= next) := by
  intro tokens index b stop _ heq
  exact hnext _ tokens index b stop ⟨rfl, trivial⟩ heq

theorem ahead {kind : TokenKind} {next : TokenKind → Reader β}
    (hnext : ∀ kind' : TokenKind, Moves G f [kind, kind'] (next kind')) :
    Moves G f [kind] (Reader.ahead 1 >>= next) := by
  intro tokens index b stop hknown heq
  exact hnext _ tokens index b stop ⟨hknown.1, rfl, trivial⟩ heq

/-- A token in front of what a reader takes. -/
theorem step {kind : TokenKind} {next : Unit → Reader β} {G' : Levels → Prop} {f' : Levels → Levels}
    (hstep : ∀ s : Scan, G s.levels → ∃ s', s.step kind = some s' ∧ G' s'.levels ∧ f' s'.levels = f s.levels)
    (hnext : Moves G' f' known (next ())) : Moves G f (kind :: known) (Reader.advance >>= next) := by
  intro tokens index b stop hknown heq
  obtain ⟨kinds, hspans, hscan⟩ := hnext tokens (index + 1) b stop hknown.2 heq
  refine ⟨kind :: kinds, .cons hknown.1 hspans, fun s hs => ?_⟩
  obtain ⟨s', hs', hG', hf'⟩ := hstep s hs
  obtain ⟨s'', hs'', hlevels⟩ := hscan s' hG'
  exact ⟨s'', by rw [scan_cons, hs', Option.bind_some, hs''], by rw [hlevels, hf']⟩

theorem advance {kind : TokenKind} {next : Unit → Reader β} (hkind : Inert G kind)
    (hnext : Moves G f known (next ())) : Moves G f (kind :: known) (Reader.advance >>= next) := by
  refine step (fun s hs => ?_) hnext
  obtain ⟨s', hs', hlevels⟩ := hkind s hs
  exact ⟨s', hs', by rwa [hlevels], by rw [hlevels]⟩

/-- A token that is taken if it stands here. -/
theorem accept_step {kind : TokenKind} {next : Bool → Reader β} {G' : Levels → Prop}
    {f' : Levels → Levels}
    (hstep : ∀ s : Scan, G s.levels → ∃ s', s.step kind = some s' ∧ G' s'.levels ∧ f' s'.levels = f s.levels)
    (htrue : Moves G' f' [] (next true)) (hfalse : Moves G f [] (next false)) :
    Moves G f [] (Reader.accept kind >>= next) := by
  intro tokens index b stop _ heq
  obtain ⟨found, middle, hrun, heq⟩ := Reads.bind_eq_ok heq
  obtain ⟨kind', middle', hpeek, hrun⟩ := Reads.bind_eq_ok hrun
  cases hpeek
  split at hrun
  · rename_i hthere
    cases hrun
    exact @step _ _ _ [] kind (fun _ => next true) _ _ hstep htrue tokens index b stop ⟨hthere, trivial⟩ heq
  · cases hrun
    exact hfalse tokens _ b stop trivial heq

theorem accept {kind : TokenKind} {next : Bool → Reader β} (hkind : Inert G kind)
    (htrue : Moves G f [] (next true)) (hfalse : Moves G f [] (next false)) :
    Moves G f [] (Reader.accept kind >>= next) := by
  refine accept_step (fun s hs => ?_) htrue hfalse
  obtain ⟨s', hs', hlevels⟩ := hkind s hs
  exact ⟨s', hs', by rwa [hlevels], by rw [hlevels]⟩

/-- A token that has to stand here. -/
theorem expect_step {kind : TokenKind} {next : Unit → Reader β} {G' : Levels → Prop}
    {f' : Levels → Levels}
    (hstep : ∀ s : Scan, G s.levels → ∃ s', s.step kind = some s' ∧ G' s'.levels ∧ f' s'.levels = f s.levels)
    (hnext : Moves G' f' [] (next ())) : Moves G f [] (Reader.expect kind >>= next) := by
  intro tokens index b stop _ heq
  obtain ⟨found, middle, hrun, heq⟩ := Reads.bind_eq_ok heq
  obtain ⟨hthere, rfl⟩ := Reads.expect_eq_ok hrun
  exact @step _ _ _ [] kind next _ _ hstep hnext tokens index b stop ⟨hthere, trivial⟩ heq

theorem expect {kind : TokenKind} {next : Unit → Reader β} (hkind : Inert G kind)
    (hnext : Moves G f [] (next ())) : Moves G f [] (Reader.expect kind >>= next) := by
  refine expect_step (fun s hs => ?_) hnext
  obtain ⟨s', hs', hlevels⟩ := hkind s hs
  exact ⟨s', hs', by rwa [hlevels], by rw [hlevels]⟩

theorem name : Keeps G known Reader.name := by
  refine of_nil (peek fun kind => ?_)
  split
  · exact advance (fun _ _ => ⟨_, rfl, rfl⟩) pure
  · exact fail

/-! ### Brackets -/

/-- A reader between two brackets, of which it consumes the closing one. -/
theorem opening {kind : TokenKind} {next : Unit → Reader β} (hkind : kind.opens = true)
    (hnext : Moves Opened Levels.pop known (next ())) :
    Keeps G (kind :: known) (Reader.advance >>= next) :=
  step (fun s _ => ⟨_, step_of_opens hkind s, s.levels.opened_push, rfl⟩) hnext

/-- The effect of a closing bracket. -/
theorem exists_step_closing {kind : TokenKind} (hkind : kind.closes = true) (s : Scan) (hs : Opened s.levels) :
    ∃ s', s.step kind = some s' ∧ Anywhere s'.levels ∧ id s'.levels = s.levels.pop := by
  obtain ⟨level, outer, hlevels⟩ := hs
  refine ⟨{ levels := s.levels.pop }, ?_, trivial, rfl⟩
  rw [step_of_closes hkind, hlevels]
  rfl

theorem closing {kind : TokenKind} {next : Unit → Reader β} (hkind : kind.closes = true)
    (hnext : Keeps Anywhere known (next ())) :
    Moves Opened Levels.pop (kind :: known) (Reader.advance >>= next) :=
  step (exists_step_closing hkind) hnext

theorem expect_closing {kind : TokenKind} {next : Unit → Reader β} (hkind : kind.closes = true)
    (hnext : Keeps Anywhere [] (next ())) :
    Moves Opened Levels.pop [] (Reader.expect kind >>= next) :=
  expect_step (exists_step_closing hkind) hnext

theorem accept_closing {kind : TokenKind} {next : Bool → Reader β} (hkind : kind.closes = true)
    (htrue : Keeps Anywhere [] (next true)) (hfalse : Moves Opened Levels.pop [] (next false)) :
    Moves Opened Levels.pop [] (Reader.accept kind >>= next) :=
  accept_step (exists_step_closing hkind) htrue hfalse

/-! ### Repetitions -/

theorem repeatStep {step : α → Reader (Option α)} (hstep : ∀ a, Keeps G [] (step a)) {a : α} :
    Keeps G known (Reader.repeatStep step a) := by
  have hrun : ∀ (fuel : Nat) (a : α), Keeps G [] (Reader.repeatUpTo step fuel a) := by
    intro fuel
    induction fuel with
    | zero => exact fun a => pure
    | succ fuel ih =>
      intro a
      refine (hstep a).bind fun next => ?_
      split
      · exact ih _
      · exact pure
  exact of_nil fun tokens index => hrun (tokens.size + 1 - index) a tokens index

theorem many {continues : TokenKind → Bool} {reader : Reader α}
    (h : ∀ kind : TokenKind, continues kind = true → Keeps G [kind] reader) :
    Keeps G [] (Reader.many continues reader) := by
  refine (repeatStep fun found => peek fun kind => ?_).bind fun found => pure
  split
  · rename_i hcontinues
    exact (h kind hcontinues).bind fun _ => pure
  · exact pure

theorem separatedBy {separator : TokenKind} {reader : Reader α} (hseparator : Inert G separator)
    (h : Keeps G [] reader) : Keeps G [] (Reader.separatedBy separator reader) := by
  refine h.bind fun first => (many fun kind hcontinues => ?_).bind fun rest => pure
  obtain rfl : kind = separator := by simpa using hcontinues
  exact advance hseparator h

theorem afterCommas {starts : TokenKind → Bool} {reader : Reader α} (h : Keeps G [] reader) :
    Keeps G [] (Reader.afterCommas starts reader) := by
  refine (repeatStep fun state => ?_).bind fun state => pure
  obtain ⟨found, finished, comma⟩ := state
  dsimp only
  split
  · exact pure
  · refine accept (fun _ _ => ⟨_, rfl, rfl⟩) (peek fun kind => ?_) pure
    split
    · exact (of_nil h).bind fun _ => pure
    · exact pure

end Moves

end PropertyWrapper.Source
