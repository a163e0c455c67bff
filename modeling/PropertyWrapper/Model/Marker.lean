/-!
# Markers

A marker on a class tells the expander about it and does nothing else: it leaves the class as it is,
whether it is applied directly or with options first.
-/

namespace PropertyWrapper

/-- What a marker gives: the class itself, or a function still to be applied to one. -/
inductive Marked (α : Type) where
  | target (value : α)
  | decorator (apply : α → α)

/-- A marker applied to a target, or without one. -/
def mark {α : Type} : Option α → Marked α
  | some value => .target value
  | none => .decorator id

end PropertyWrapper
