import MixAsm.Json.Decode
import MixAsm.Proofs.Lists

namespace MixAsm.Json

/-!
# Members by name or by position

A structure is read from an object by the names of its members, or from an array by their
positions. Either way its values are what the document gives for the members.

* `Gives`, `Lacks` — an object that has a member once, or not at all;
* `given?` — what a document gives for a member;
* `fields?_object_eq_some_iff` — the fields of a structure in an object;
* `allFields?_object_eq_some_iff`, `allFields?_array_eq_some_iff` — the objects and the arrays that
  a structure is read from;
* `given?_of_allFields?` — its values.
-/

/-! ### Plain values -/

/-- A natural number is read from its plain digits and from nothing else. -/
theorem toNat?_eq_some_iff {v : Json} {n : Nat} : v.toNat? = some n ↔ v = .nat n := by
  constructor
  · intro h
    cases v with
    | number k =>
      obtain ⟨negative, whole, fraction, exponent⟩ := k
      simp only [toNat?, Number.toNat?, Option.ite_none_left_eq_some, Bool.or_eq_true, not_or,
        Bool.not_eq_true, Option.isSome_eq_false_iff, Option.isNone_iff_eq_none] at h
      obtain ⟨⟨⟨rfl, rfl⟩, rfl⟩, h⟩ := h
      rw [Option.some.inj h]
      rfl
    | _ => cases h
  · rintro rfl
    exact Number.toNat?_ofNat n

theorem nat_inj {m n : Nat} : nat m = nat n ↔ m = n := by
  rw [← toNat?_eq_some_iff, nat, toNat?, Number.toNat?_ofNat, Option.some.injEq]

theorem toBool?_eq_some_iff {v : Json} {b : Bool} : v.toBool? = some b ↔ v = .bool b := by
  cases v <;> simp [toBool?]

theorem toText?_eq_some_iff {v : Json} {text : String} : v.toText? = some text ↔ v = .str text := by
  cases v <;> simp [toText?, str]

/-! ### Members of objects -/

/-- The value is an object with one member of the key, which has the given value. -/
def Gives : Json → String → Json → Prop
  | object members, key, value => occurrences key members = 1 ∧ member? key members = some value
  | _, _, _ => False

/-- The value is an object without a member of the key. -/
def Lacks : Json → String → Prop
  | object members, key => occurrences key members = 0
  | _, _ => False

section

variable {members : List (String × Json)} {key : String} {value : Json}

theorem lacks_record (h : key ∉ members.map Prod.fst) : (record members).Lacks key := by
  show List.countP _ _ = 0
  rw [List.countP_eq_zero, List.forall_mem_map]
  rintro ⟨k, v⟩ hmem
  have hne : k ≠ key := by
    rintro rfl
    exact h (List.mem_map_of_mem hmem)
  simpa using hne

/-- Where no key is repeated, an object has each of its members once. -/
theorem gives_record (hkeys : (members.map Prod.fst).Nodup) (h : (key, value) ∈ members) :
    (record members).Gives key value := by
  induction members with
  | nil => cases h
  | cons m ms ih =>
    obtain ⟨k, v⟩ := m
    rw [List.map_cons, List.nodup_cons] at hkeys
    by_cases hkey : k = key
    · subst hkey
      -- the member is the first one, as its key is not repeated
      have hvalue : value = v := by
        obtain heq | hmem := List.mem_cons.mp h
        · exact (Prod.mk.inj heq).2
        · exact absurd (List.mem_map_of_mem hmem) hkeys.1
      have hrest : occurrences k _ = 0 := lacks_record hkeys.1
      refine ⟨?_, ?_⟩
      · rw [List.map_cons, occurrences, List.countP_cons_of_pos (by simp)]
        rw [occurrences] at hrest
        rw [hrest]
      · rw [List.map_cons, member?, List.lookup_cons, hvalue]
        simp
    · have hmem : (key, value) ∈ ms := by
        obtain heq | hmem := List.mem_cons.mp h
        · exact absurd (Prod.mk.inj heq).1.symm hkey
        · exact hmem
      obtain ⟨hcount, hlookup⟩ := ih hkeys.2 hmem
      refine ⟨?_, ?_⟩
      · rw [List.map_cons, occurrences, List.countP_cons_of_neg (by simpa using hkey)]
        exact hcount
      · have hne : (some key == some k) = false := by simpa using Ne.symm hkey
        rw [List.map_cons, member?, List.lookup_cons, hne]
        exact hlookup

end

/-! ### Structures -/

variable {names : List String} {values items : List Json} {ms : List (Text × Json)}

/-- What a document gives for a member: the value under its name in an object, the value at its
    position in an array. -/
def given? (name : String) (position : Nat) : Json → Option Json
  | object members => member? name members
  | array items => items[position]?
  | _ => none

/-- The fields of a structure are looked up in an object whose keys are all well-formed and that has
    none of the names twice. -/
theorem fields?_object_eq_some_iff {fields : List (Option Json)} :
    fields? names (.object ms) = some fields ↔
      ((∀ m ∈ ms, m.1.isSome) ∧ ∀ name ∈ names, occurrences name ms ≤ 1) ∧
        names.map (member? · ms) = fields := by
  simp only [fields?, Option.ite_none_right_eq_some, Option.some.injEq, Bool.and_eq_true,
    List.all_eq_true, decide_eq_true_eq]

/-- A structure is read from an object whose keys are all well-formed, with each of its members in
    it, and once only. -/
theorem allFields?_object_eq_some_iff :
    allFields? names (.object ms) = some values ↔
      ((∀ m ∈ ms, m.1.isSome) ∧ ∀ name ∈ names, occurrences name ms ≤ 1) ∧
        names.map (member? · ms) = values.map some := by
  simp only [allFields?, Option.bind_eq_some_iff, fields?_object_eq_some_iff,
    mapM_id_eq_some_iff]
  constructor
  · rintro ⟨_, ⟨hgiven, rfl⟩, hvalues⟩
    exact ⟨hgiven, hvalues⟩
  · rintro ⟨hgiven, hvalues⟩
    exact ⟨_, ⟨hgiven, rfl⟩, hvalues⟩

/-- A structure is read from an array that holds a value for each member and nothing more. -/
theorem allFields?_array_eq_some_iff :
    allFields? names (.array items) = some values ↔
      items = values ∧ values.length = names.length := by
  simp only [allFields?, fields?, Option.bind_eq_some_iff, Option.ite_none_right_eq_some,
    Option.some.injEq, mapM_id_eq_some_iff]
  constructor
  · rintro ⟨_, ⟨hlen, rfl⟩, hvalues⟩
    -- no value is missing, so none is filled in behind the items
    have hfull : names.length - items.length = 0 := by
      by_contra hpos
      have hnone : none ∈ values.map some := by
        rw [← hvalues]
        simp [hpos]
      simp at hnone
    rw [hfull, List.replicate_zero, List.append_nil] at hvalues
    obtain rfl : items = values :=
      List.map_injective_iff.mpr (fun _ _ => Option.some.inj) hvalues
    exact ⟨rfl, by omega⟩
  · rintro ⟨rfl, hlen⟩
    exact ⟨_, ⟨Nat.le_of_eq hlen, rfl⟩, by simp [hlen]⟩

/-- The values of a structure are what the document gives for its members. -/
theorem given?_of_allFields? {v : Json} (h : allFields? names v = some values) {name : String}
    {i : Nat} (hname : names[i]? = some name) : v.given? name i = values[i]? := by
  cases v with
  | object ms =>
    have hvalues := congrArg (·[i]?) (allFields?_object_eq_some_iff.mp h).2
    rw [List.getElem?_map, hname, Option.map_some, List.getElem?_map, eq_comm,
      Option.map_eq_some_iff] at hvalues
    obtain ⟨value, hvalue, hmember⟩ := hvalues
    rw [hvalue]
    exact hmember.symm
  | array items =>
    obtain ⟨rfl, -⟩ := allFields?_array_eq_some_iff.mp h
    rfl
  | _ => simp [allFields?, fields?] at h

end MixAsm.Json
