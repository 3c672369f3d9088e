import MixAsm.Proofs.Json.RoundTrip

namespace MixAsm.Json

/-!
# Plain values

The values of a type are written as JSON values and read from them. Where the values in between are
plain ones, a document that holds one, in either layout, loses nothing.

* `Plain` — JSON values that no reader has a reason to refuse;
* `RoundTrips` — the types that lose nothing in a document;
* `roundTrips_of_plain` — those that are written as plain values.
-/

/-- Values nested at most `depth` deep, with truth values, well-formed texts and natural numbers of
    32 bits in them. -/
inductive Plain : Nat → Json → Prop
  | bool {depth : Nat} (b : Bool) : Plain depth (.bool b)
  | str {depth : Nat} (text : String) : Plain depth (.str text)
  | nat {depth n : Nat} (h : n < UInt32.size) : Plain depth (.nat n)
  | array {depth : Nat} {items : List Json} (h : ∀ v ∈ items, Plain depth v) :
      Plain (depth + 1) (.array items)
  | record {depth : Nat} {members : List (String × Json)} (h : ∀ m ∈ members, Plain depth m.2) :
      Plain (depth + 1) (.record members)

/-! ### Plain values are sound and can be written -/

namespace Legible

theorem str (text : String) : Legible (.str text) := .string (some text)

theorem nat (n : Nat) : Legible (.nat n) := .number (Number.wellFormed_ofNat n)

theorem record {members : List (String × Json)} (h : ∀ m ∈ members, Legible m.2) :
    Legible (.record members) := by
  refine .object ?_
  rw [List.forall_mem_map]
  exact h

end Legible

/-- The document of a number is its decimal digits. -/
theorem compact_nat (n : Nat) : (nat n).compact = n.repr := by
  have htext : (Number.ofNat n).text = Nat.toDigits 10 n := by
    simp [Number.text, Number.ofNat]
  show String.ofList (Number.ofNat n).text = n.repr
  rw [htext]
  rfl

theorem parse_repr (n : Nat) : parse n.repr = some (.nat n) := by
  rw [← compact_nat]
  exact parse_compact (.nat n)

theorem areSound_of_forall {depth : Nat} {items : List Json}
    (h : ∀ v ∈ items, v.isSound depth) : areSound depth items := by
  induction items with
  | nil => rfl
  | cons v vs ih =>
    rw [List.forall_mem_cons] at h
    rw [areSound, h.1, ih h.2]
    rfl

theorem membersAreSound_of_forall {depth : Nat} {members : List (String × Json)}
    (h : ∀ m ∈ members, m.2.isSound depth) :
    membersAreSound depth (members.map fun (key, v) => (some key, v)) := by
  induction members with
  | nil => rfl
  | cons m ms ih =>
    rw [List.forall_mem_cons] at h
    rw [List.map_cons, membersAreSound, h.1, ih h.2]
    rfl

namespace Plain

theorem isSound {depth : Nat} {v : Json} (h : Plain depth v) : v.isSound depth := by
  induction h with
  | bool b => rfl
  | str text => rfl
  | nat hn => exact Number.isFinite_of_lt (Nat.lt_trans hn (by decide))
  | array _ ih => simpa [Json.isSound] using areSound_of_forall ih
  | record _ ih => simpa [Json.isSound, Json.record] using membersAreSound_of_forall ih

theorem legible {depth : Nat} {v : Json} (h : Plain depth v) : Legible v := by
  induction h with
  | bool b => exact .bool b
  | str text => exact .str text
  | nat _ => exact .nat _
  | array _ ih => exact .array ih
  | record _ ih => exact .record ih

end Plain

/-! ### Documents -/

section

variable {α : Type} {toJson : α → Json} {ofJson? : Json → Option α} {depth : Nat}

/-- Every value of the type is read from the document that holds it, closed up or laid out. -/
def RoundTrips (toJson : α → Json) (ofJson? : Json → Option α) : Prop :=
  ∀ x, (parse (toJson x).compact).bind ofJson? = some x ∧
    (parse (toJson x).pretty).bind ofJson? = some x

/-- Where no value is lost, and each is written as a plain one, none is lost in a document. -/
theorem roundTrips_of_plain (hplain : ∀ x, Plain depth (toJson x))
    (hread : ∀ x, ofJson? (toJson x) = some x) : RoundTrips toJson ofJson? := by
  intro x
  have hlegible : Legible (toJson x) := (hplain x).legible
  rw [parse_compact hlegible, parse_pretty hlegible, Option.bind_some, hread]
  exact ⟨rfl, rfl⟩

end

end MixAsm.Json
