import PropertyWrapper.Text.Quoted

/-!
# Texts with lone surrogates

A text of a document can hold lone surrogates, which no string holds. Such a text is kept, compared, joined
and quoted as it is; only where it has to be encoded there is a failure.
-/

namespace PropertyWrapper.Text

/-- Whether code points are a text with lone surrogates. -/
def isBroken (text : Points) : Bool := text.any isSurrogate && text.all (· ≤ lastPoint)

/-- A text with lone surrogates has one of them at some place. -/
theorem exists_isSurrogate_of_isBroken {text : Points} (h : isBroken text = true) :
    ∃ point ∈ text, isSurrogate point = true :=
  List.any_eq_true.1 (Bool.and_eq_true_iff.1 h).1

/-- A text that may hold lone surrogates. -/
inductive LooseText where
  /-- A text without lone surrogates. -/
  | whole (text : String)
  /-- Code points with lone surrogates among them. -/
  | broken (text : Points) (holds : isBroken text = true)
deriving DecidableEq, Repr

namespace LooseText

instance : Coe String LooseText := ⟨whole⟩

/-- The code points of a text. -/
def points : LooseText → Points
  | whole text => Text.points text
  | broken text _ => text

/-- The text with given code points. -/
def ofPoints (text : Points) : LooseText :=
  if holds : isBroken text = true then .broken text holds else .whole (stringOf text)

/-- The string that a text is, if there is one. -/
def string? : LooseText → Option String
  | whole text => some text
  | broken _ _ => none

/-- A text behind another one. -/
def append : LooseText → LooseText → LooseText
  | whole text, whole other => whole (text ++ other)
  | text, other => ofPoints (text.points ++ other.points)

instance : Append LooseText := ⟨append⟩

@[simp] theorem whole_append_whole (text other : String) :
    whole text ++ whole other = whole (text ++ other) := rfl

/-- Texts with a separator between them. -/
def join (separator : String) : List LooseText → LooseText
  | [] => ""
  | [text] => text
  | text :: other :: rest => text ++ separator ++ join separator (other :: rest)

/-- Whether the code points of a text come before those of another one, or are the same. -/
def precedes (text other : LooseText) : Bool := (compare text.points other.points).isLE

/-- A text between quotes. -/
def quoted (text : LooseText) : String := quotedPoints text.points

/-- A text as it stands on a stream that escapes what cannot be encoded. -/
def escaped (text : LooseText) : String :=
  String.ofList (text.points.flatMap fun point =>
    if isSurrogate point then escapePoint point else [Char.ofNat point])

end LooseText

/-! ## What cannot be encoded -/

/-- The first lone surrogates of a text that stand side by side. -/
structure Surrogates where
  first : Nat
  position : Nat
  count : Nat
deriving DecidableEq, Repr

/-- The first lone surrogates of a text that has some. -/
def firstSurrogates (text : Points) : Surrogates :=
  let rest := text.dropWhile fun point => !isSurrogate point
  { first := rest.headD 0
    position := text.length - rest.length
    count := (rest.takeWhile isSurrogate).length }

/-- The explanation that lone surrogates cannot be encoded. -/
def Surrogates.message (surrogates : Surrogates) : String :=
  let place :=
    if surrogates.count = 1 then
      "character '" ++ String.ofList (escapePoint surrogates.first) ++ "' in position "
        ++ toString surrogates.position
    else
      "characters in position " ++ toString surrogates.position ++ "-"
        ++ toString (surrogates.position + surrogates.count - 1)
  "'utf-8' codec can't encode " ++ place ++ ": surrogates not allowed"

end PropertyWrapper.Text
