import MixAsm.Proofs.Json.Decode
import MixAsm.Proofs.Json.Legible

namespace MixAsm.Json

/-!
# Members in any order

What a structure is read as depends on the members of its object that have the names of its fields,
and not on where they stand or what stands between them. An object with one of these names twice is
refused.

* `Scalar` — values that neither nest nor overflow;
* `Rearranged` — an object with its members in another order and with further ones among them;
* `Rearranged.fields?_eq` — the fields of a structure;
* `ReadByName`, `DocumentsByName` — types that are read so, and what this means for documents.
-/

variable {names : List String} {key tag : String} {ms ms' added : List (Text × Json)} {v : Json}

/-! ### Scalars -/

/-- An integer as a value. -/
def int (i : Int) : Json := .number ⟨i < 0, i.natAbs, none, none⟩

/-- Null, a truth value, a well-formed text, or an integer that 64 bits hold with or without a
    sign. -/
inductive Scalar : Json → Prop
  | null : Scalar .null
  | bool (b : Bool) : Scalar (.bool b)
  | str (text : String) : Scalar (.str text)
  | int {i : Int} (hmin : Int64.minValue.toInt ≤ i) (hmax : i < UInt64.size) : Scalar (int i)

namespace Scalar

theorem isSound (h : Scalar v) (depth : Nat) : v.isSound depth := by
  cases h with
  | null | bool | str => rfl
  | @int i hmin hmax =>
    have hbound : Int64.minValue.toInt = -9223372036854775808 := by decide
    have hsize : UInt64.size = 18446744073709551616 := rfl
    exact Number.isFinite_of_lt (by omega)

theorem legible (h : Scalar v) : Legible v := by
  cases h with
  | null => exact .null
  | bool b => exact .bool b
  | str text => exact .string text
  | int =>
    refine .number ?_
    rintro ds ⟨⟩

end Scalar

/-! ### Members of an object -/

theorem occurrences_of_perm (h : ms'.Perm ms) : occurrences key ms' = occurrences key ms :=
  h.countP_eq _

theorem occurrences_append : occurrences key (ms ++ added)
    = occurrences key ms + occurrences key added := List.countP_append

/-- Taking away the members of a name leaves those of another name. -/
theorem occurrences_filter_ne (h : key ≠ tag) :
    occurrences key (ms.filter (·.1 ≠ some tag)) = occurrences key ms := by
  rw [occurrences, List.countP_filter, occurrences]
  apply List.countP_congr
  intro m _
  have hne : m.1 = some key → m.1 ≠ some tag := by
    intro hkey htag
    exact h (Option.some.inj (hkey.symm.trans htag))
  simpa using hne

/-- A member that is there once is found, wherever it stands. -/
theorem member?_eq_some_iff_mem (honce : occurrences key ms ≤ 1) :
    member? key ms = some v ↔ (some key, v) ∈ ms := by
  constructor
  · intro h
    obtain ⟨front, back, rfl, -⟩ := List.lookup_eq_some_iff.mp h
    simp
  · intro h
    obtain ⟨front, back, rfl⟩ := List.append_of_mem h
    -- a member of the key in front would be a second one
    have hfront : occurrences key front = 0 := by
      have hcons : occurrences key ((some key, v) :: back) = occurrences key back + 1 := by
        simp [occurrences]
      rw [occurrences_append, hcons] at honce
      omega
    refine List.lookup_eq_some_iff.mpr ⟨front, back, rfl, fun m hm => ?_⟩
    have hne : m.1 ≠ some key := by simpa using List.countP_eq_zero.mp hfront m hm
    simpa using hne.symm

theorem isSound_object_iff {depth : Nat} : (object ms).isSound depth ↔
    0 < depth ∧ ∀ m ∈ ms, m.1.isSome ∧ m.2.isSound (depth - 1) := by
  have hmembers : membersAreSound (depth - 1) ms ↔
      ∀ m ∈ ms, m.1.isSome ∧ m.2.isSound (depth - 1) := by
    induction ms with
    | nil => simp [membersAreSound]
    | cons m ms ih => simp [membersAreSound, ih]
  rw [Json.isSound, Bool.and_eq_true, decide_eq_true_eq, hmembers]

/-! ### Rearranging -/

/-- The second object has the members of the first one, in any order, and among them any number of
    members with scalar values whose keys are none of the names. -/
def Rearranged (names : List String) (ms ms' : List (Text × Json)) : Prop :=
  ∃ added : List (String × Json), (∀ m ∈ added, m.1 ∉ names ∧ Scalar m.2) ∧
    ms'.Perm (ms ++ added.map fun (key, v) => (some key, v))

namespace Rearranged

theorem occurrences_eq (h : Rearranged names ms ms') (hkey : key ∈ names) :
    occurrences key ms' = occurrences key ms := by
  obtain ⟨added, hadded, hperm⟩ := h
  have hnone : occurrences key (added.map fun (key, v) => (some key, v)) = 0 := by
    rw [occurrences, List.countP_eq_zero, List.forall_mem_map]
    rintro m hm heq
    obtain rfl : m.1 = key := by simpa using heq
    exact (hadded m hm).1 hkey
  rw [occurrences_of_perm hperm, occurrences_append, hnone, Nat.add_zero]

theorem mem_iff (h : Rearranged names ms ms') (hkey : key ∈ names) :
    (some key, v) ∈ ms' ↔ (some key, v) ∈ ms := by
  obtain ⟨added, hadded, hperm⟩ := h
  have hnot : (some key, v) ∉ added.map fun (key, v) => (some key, v) := by
    intro hmem
    obtain ⟨m, hm, heq⟩ := List.mem_map.mp hmem
    obtain rfl : m.1 = key := Option.some.inj (Prod.mk.inj heq).1
    exact (hadded m hm).1 hkey
  rw [hperm.mem_iff, List.mem_append, or_iff_left hnot]

theorem member?_eq (h : Rearranged names ms ms') (hkey : key ∈ names)
    (honce : occurrences key ms ≤ 1) : member? key ms' = member? key ms := by
  have honce' : occurrences key ms' ≤ 1 := by rwa [h.occurrences_eq hkey]
  ext v
  rw [member?_eq_some_iff_mem honce', h.mem_iff hkey, member?_eq_some_iff_mem honce]

/-- A property of members that scalars have whatever their keys holds after rearranging if it held
    before. -/
theorem forall_mem {P : Text × Json → Prop} (h : Rearranged names ms ms')
    (hscalar : ∀ key v, Scalar v → P (some key, v)) (hms : ∀ m ∈ ms, P m) : ∀ m ∈ ms', P m := by
  obtain ⟨added, hadded, hperm⟩ := h
  intro m hm
  rcases List.mem_append.mp (hperm.mem_iff.mp hm) with hm | hm
  · exact hms m hm
  · obtain ⟨a, ha, rfl⟩ := List.mem_map.mp hm
    exact hscalar a.1 a.2 (hadded a ha).2

/-- Members of a name can be taken away on both sides. -/
theorem filter_ne (h : Rearranged (tag :: names) ms ms') :
    Rearranged names (ms.filter (·.1 ≠ some tag)) (ms'.filter (·.1 ≠ some tag)) := by
  obtain ⟨added, hadded, hperm⟩ := h
  refine ⟨added, fun m hm => ?_, ?_⟩
  · obtain ⟨hkey, hscalar⟩ := hadded m hm
    exact ⟨fun hmem => hkey (List.mem_cons_of_mem tag hmem), hscalar⟩
  · have hkept : (added.map fun (key, v) => ((some key, v) : Text × Json)).filter
        (·.1 ≠ some tag) = added.map fun (key, v) => (some key, v) := by
      rw [List.filter_eq_self, List.forall_mem_map]
      intro m hm
      have hne := List.ne_of_not_mem_cons (hadded m hm).1
      simpa using hne
    have hfilter := hperm.filter (·.1 ≠ some tag)
    rwa [List.filter_append, hkept] at hfilter

/-- The fields of a structure are looked up by their names alone. -/
theorem fields?_eq {fields : List (Option Json)} (h : Rearranged names ms ms')
    (hread : fields? names (.object ms) = some fields) :
    fields? names (.object ms') = some fields := by
  obtain ⟨⟨hkeys, honce⟩, rfl⟩ := fields?_object_eq_some_iff.mp hread
  refine fields?_object_eq_some_iff.mpr ⟨⟨h.forall_mem (fun _ _ _ => rfl) hkeys, ?_⟩, ?_⟩
  · intro name hname
    rw [h.occurrences_eq hname]
    exact honce name hname
  · apply List.map_congr_left
    intro name hname
    exact h.member?_eq hname (honce name hname)

theorem allFields?_eq {values : List Json} (h : Rearranged names ms ms')
    (hread : allFields? names (.object ms) = some values) :
    allFields? names (.object ms') = some values := by
  obtain ⟨fields, hfields, hvalues⟩ := Option.bind_eq_some_iff.mp hread
  rw [allFields?, h.fields?_eq hfields, Option.bind_some, hvalues]

end Rearranged

/-! ### Types that are read by name -/

/-- A value of the type is read from an object by the names that are known of it: from the object
    rearranged it is read as well, and from one that has all its members and a known name twice
    nothing is read, whatever else has been added. -/
structure ReadByName {α : Type} (ofJson? : Json → Option α) (known : α → List String) : Prop where
  rearranged : ∀ {ms ms' x}, ofJson? (.object ms) = some x → Rearranged (known x) ms ms' →
    ofJson? (.object ms') = some x
  repeated : ∀ {ms ms' added key x}, ofJson? (.object ms) = some x → ms'.Perm (ms ++ added) →
    key ∈ known x → 2 ≤ occurrences key ms' → ofJson? (.object ms') = none

/-- The same of documents: there are documents that hold the rearranged object, and the value is
    read from each of them; and none is read from any that has a known name twice. -/
structure DocumentsByName {α : Type} (ofJson? : Json → Option α) (known : α → List String) :
    Prop where
  rearranged : ∀ {text ms ms' x}, parse text = some (.object ms) →
    (parse text).bind ofJson? = some x → Rearranged (known x) ms ms' →
    (∃ text', parse text' = some (.object ms')) ∧
      ∀ text', parse text' = some (.object ms') → (parse text').bind ofJson? = some x
  repeated : ∀ {text text' ms ms' added key x}, parse text = some (.object ms) →
    (parse text).bind ofJson? = some x → parse text' = some (.object ms') →
    ms'.Perm (ms ++ added) → key ∈ known x → 2 ≤ occurrences key ms' →
    (parse text').bind ofJson? = none

/-- Where a type is read by name from objects it is so from documents. -/
theorem ReadByName.documents {α : Type} {ofJson? : Json → Option α} {known : α → List String}
    (h : ReadByName ofJson? known) : DocumentsByName ofJson? known := by
  constructor
  · intro text ms ms' x hparse hread hms'
    have hlegible : Legible (.object ms') := by
      cases legible_of_parse hparse with
      | object hms => exact .object (hms'.forall_mem (fun _ _ hv => hv.legible) hms)
    rw [hparse, Option.bind_some] at hread
    refine ⟨⟨_, parse_compact hlegible⟩, fun text' hparse' => ?_⟩
    rw [hparse', Option.bind_some]
    exact h.rearranged hread hms'
  · intro text text' ms ms' added key x hparse hread hparse' hperm hkey htwice
    rw [hparse, Option.bind_some] at hread
    rw [hparse', Option.bind_some]
    exact h.repeated hread hperm hkey htwice

end MixAsm.Json
