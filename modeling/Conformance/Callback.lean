/-! # User functions -/

namespace Conformance

/-- Identity of a user function. What a larger whole creates is labelled below the whole. -/
structure Label where
  path : List Nat
deriving DecidableEq

def Label.part (l : Label) (i : Nat) : Label := ⟨i :: l.path⟩

theorem Label.part_injective {l : Label} {i j : Nat} (h : l.part i = l.part j) : i = j := by
  simpa [part] using h

/-- Functions cannot be compared, so a function carries the label that it is compared by. -/
structure Callback (α : Type) where
  label : Label
  run : α

/-- Written twice, a function has two labels and is two callbacks. -/
def Callback.same {α : Type} (f g : Callback α) : Bool := f.label == g.label

theorem Callback.same_self {α : Type} (f : Callback α) : f.same f = true := by
  simp [same]

end Conformance
