import MixAsm.Json.Number

namespace MixAsm

/-!
# JSON documents

The values that a JSON document holds. An object keeps its members in the order they are written
in, repeated keys included, so that a reader can decide what to make of them.
-/

/-- The text of a string or key; `none` where an escape writes a UTF-16 surrogate without its
    partner, which no character stands for. -/
abbrev Json.Text := Option String

/-- The value of a JSON document. -/
inductive Json
  | null
  | bool (b : Bool)
  | number (n : Json.Number)
  | string (text : Json.Text)
  | array (items : List Json)
  | object (members : List (Json.Text × Json))

namespace Json

/-- A text as a value. -/
def str (text : String) : Json := string (some text)

/-- A natural number as a value. -/
def nat (n : Nat) : Json := number (.ofNat n)

/-- An object with the given members. -/
def record (members : List (String × Json)) : Json :=
  object (members.map fun (key, value) => (some key, value))

mutual

/-- Is every text of the value well-formed and every number finite, with arrays and objects nested
    at most `depth` deep? -/
def isSound (depth : Nat) : Json → Bool
  | null | bool _ => true
  | number n => n.isFinite
  | string text => text.isSome
  | array items => 0 < depth && areSound (depth - 1) items
  | object members => 0 < depth && membersAreSound (depth - 1) members

/-- Is every item sound? -/
def areSound (depth : Nat) : List Json → Bool
  | [] => true
  | v :: vs => isSound depth v && areSound depth vs

/-- Is every member sound, and every key well-formed? -/
def membersAreSound (depth : Nat) : List (Text × Json) → Bool
  | [] => true
  | (key, v) :: ms => key.isSome && isSound depth v && membersAreSound depth ms

end

end Json

end MixAsm
