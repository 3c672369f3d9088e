import MixAsm.Json.Reader

namespace MixAsm.Json

/-!
# Values from JSON

How the types of this library are found in a document. A variant is its name alone, or an object
with the name as its one key and the payload as the value. A structure is an object, where the
order of members is free and unknown ones are passed over, or the array of its fields in order.

* `variant?` — the name and the payload of a variant;
* `enumerated?` — a variant without payload, out of a list of values;
* `fields?`, `allFields?` — the fields of a structure, by name or by position.
-/

/-- Where a value stands: in a document of its own, or inside an instruction, whose parts are kept
    back until its category is known. There an empty object is no payload either. -/
inductive Place
  | document
  | instruction
  deriving DecidableEq, Repr

/-! ### Plain values -/

/-- The value of a truth value. -/
def toBool? : Json → Option Bool
  | bool b => some b
  | _ => none

/-- The value of a plain natural number. -/
def toNat? : Json → Option Nat
  | number n => n.toNat?
  | _ => none

/-- The characters of a well-formed string. -/
def toText? : Json → Option String
  | string text => text
  | _ => none

/-! ### Variants -/

/-- The name of a variant, and the payload where one is given. -/
def variant? : Json → Option (String × Option Json)
  | string text => text.map (·, none)
  | object [(key, payload)] => key.map (·, some payload)
  | _ => none

/-- Is the payload none? A null is none, and inside an instruction an empty object. -/
def isNoPayload (place : Place) : Option Json → Bool
  | none | some null => true
  | some (object []) => place = .instruction
  | _ => false

/-- The one of `values` whose name the document gives, without a payload. -/
def enumerated? {α : Type} (place : Place) (values : List α) (name : α → String) (v : Json) :
    Option α := do
  let (tag, payload) ← variant? v
  if isNoPayload place payload then values.find? (name · == tag) else none

/-! ### Structures -/

/-- The number of members with a key. -/
def occurrences (key : String) (members : List (Text × Json)) : Nat :=
  members.countP fun (k, _) => k = some key

/-- The value of the first member with a key. -/
def member? (key : String) (members : List (Text × Json)) : Option Json :=
  members.lookup (some key)

/-- The fields of a structure, each where it is given. A field given twice, a key that is not
    well-formed and a position beyond the last field are refused. -/
def fields? (names : List String) : Json → Option (List (Option Json))
  | object members =>
    if members.all (·.1.isSome) && names.all (occurrences · members ≤ 1) then
      some (names.map (member? · members))
    else none
  | array items =>
    if items.length ≤ names.length then
      some (items.map some ++ List.replicate (names.length - items.length) none)
    else none
  | _ => none

/-- The fields of a structure that must all be given. -/
def allFields? (names : List String) (v : Json) : Option (List Json) :=
  (fields? names v).bind (·.mapM id)

end MixAsm.Json
