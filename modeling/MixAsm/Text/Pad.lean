namespace MixAsm.Text

/-!
# Padding

A text filled up with spaces to a width, counted in characters; a wider one stays as it is.
-/

/-- A number of spaces. -/
def spaces (n : Nat) : String := String.ofList (List.replicate n ' ')

@[simp] theorem toList_spaces (n : Nat) : (spaces n).toList = List.replicate n ' ' :=
  String.toList_ofList

@[simp] theorem length_spaces (n : Nat) : (spaces n).length = n := by
  rw [← String.length_toList, toList_spaces, List.length_replicate]

/-- The text, with spaces behind it up to the width. -/
def padRight (width : Nat) (text : String) : String := text ++ spaces (width - text.length)

/-- The text, with spaces before it up to the width. -/
def padLeft (width : Nat) (text : String) : String := spaces (width - text.length) ++ text

end MixAsm.Text
