namespace MixAsm.Text

/-!
# Blank characters

The characters with the property White_Space, and the lines that hold nothing else.
-/

/-- The characters with the property White_Space, as inclusive ranges of code points. -/
def blankRanges : List (Nat × Nat) :=
  [(0x9, 0xD), (0x20, 0x20), (0x85, 0x85), (0xA0, 0xA0), (0x1680, 0x1680), (0x2000, 0x200A),
    (0x2028, 0x2029), (0x202F, 0x202F), (0x205F, 0x205F), (0x3000, 0x3000)]

/-- Does the character have the property White_Space? -/
def isBlankChar (c : Char) : Bool :=
  blankRanges.any fun (first, last) => first ≤ c.toNat && c.toNat ≤ last

/-- Does the line hold blank characters only? An empty line does. -/
def isBlank (line : List Char) : Bool := line.all isBlankChar

end MixAsm.Text
