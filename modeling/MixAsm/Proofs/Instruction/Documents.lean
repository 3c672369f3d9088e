import MixAsm.Proofs.Instruction.Json
import MixAsm.Proofs.Instruction.RoundTrip
import MixAsm.Proofs.Lists

namespace MixAsm

/-!
# Documents that hold an instruction

A document holds an instruction if it names the category and gives a value for each member that
belongs to the category, be it by name or by position. The value of an address or an index is its
plain number. No other document is read as an instruction, so what is read from one, in whatever
form it is written, is an instruction that a line can hold as well.

* `Instruction.Builds` — the values that make up an instruction;
* `Instruction.GivenBy` — the documents that hold it;
* `Instruction.givenBy_of_ofJson?` — a document that is read as an instruction holds it;
* `Instruction.canonical_of_document` — what is read from a document, in text and in JSON.
-/

theorem Category.find?_key_eq_some_iff {c : Category} {name : String} :
    all.find? (·.key == name) = some c ↔ name = c.key := by
  constructor
  · intro h
    have hkey := List.find?_some h
    exact (eq_of_beq hkey).symm
  · rintro rfl
    cases c <;> rfl

namespace Instruction

variable {v rest : Json} {c : Category} {values : List Json} {ins : Instruction}

/-! ### The category -/

theorem tagged?_object_eq_some_iff {ms : List (Json.Text × Json)} :
    tagged? (.object ms) = some (c, rest) ↔
      Json.member? "category" ms = some c.toJson ∧ Json.occurrences "category" ms = 1 ∧
        .object (ms.filter (·.1 ≠ some "category")) = rest := by
  simp only [tagged?, Option.bind_eq_bind, Option.bind_eq_some_iff, Json.toText?_eq_some_iff,
    Category.find?_key_eq_some_iff, Option.ite_none_right_eq_some, Option.some.injEq,
    Prod.mk.injEq]
  constructor
  · rintro ⟨_, htag, _, rfl, _, rfl, honce, rfl, hrest⟩
    exact ⟨htag, honce, hrest⟩
  · rintro ⟨htag, honce, hrest⟩
    exact ⟨_, htag, _, rfl, _, rfl, honce, rfl, hrest⟩

theorem tagged?_array_eq_some_iff {items : List Json} :
    tagged? (.array items) = some (c, rest) ↔
      ∃ values, items = c.toJson :: values ∧ .array values = rest := by
  cases items with
  | nil => simp [tagged?]
  | cons tag values =>
    simp only [tagged?, Option.bind_eq_bind, Option.bind_eq_some_iff, Json.toText?_eq_some_iff,
      Category.find?_key_eq_some_iff, Option.pure_def, Option.some.injEq, Prod.mk.injEq,
      List.cons.injEq]
    constructor
    · rintro ⟨_, rfl, _, rfl, rfl, hrest⟩
      exact ⟨values, ⟨rfl, rfl⟩, hrest⟩
    · rintro ⟨_, ⟨rfl, rfl⟩, hrest⟩
      exact ⟨_, rfl, _, rfl, rfl, hrest⟩

/-- The category of a document stands in its first place, and the members behind it. -/
theorem given?_of_tagged? (h : tagged? v = some (c, rest)) :
    v.given? "category" 0 = some c.toJson ∧
      ∀ name ≠ "category", ∀ i, v.given? name (i + 1) = rest.given? name i := by
  cases v with
  | object ms =>
    obtain ⟨htag, -, rfl⟩ := tagged?_object_eq_some_iff.mp h
    refine ⟨htag, fun name hname i => ?_⟩
    have hkept : ∀ m : Json.Text × Json, m.1 = some name → decide (m.1 ≠ some "category") := by
      rintro m hm
      simpa [hm] using hname
    exact (lookup_filter hkept ms).symm
  | array items =>
    obtain ⟨values, rfl, rfl⟩ := tagged?_array_eq_some_iff.mp h
    exact ⟨rfl, fun name _ i => rfl⟩
  | _ => cases h

/-! ### The members -/

/-- The values make up the instruction, in the order of the members behind the category. -/
inductive Builds : List Json → Instruction → Prop
  | onlyName {o : Json} {op : NameOp} (hop : NameOp.ofJson? .instruction o = some op) :
      Builds [o] (onlyName op)
  | field {o f : Json} {op : FieldOp} {fields : FieldSpec} (a : Address) (i : Index)
      (hop : FieldOp.ofJson? .instruction o = some op)
      (hfields : FieldSpec.ofJson? .instruction f = some fields) :
      Builds [o, .nat a.val, .nat i.val, f] (field op a i fields)
  | nonField {o : Json} {op : NonFieldOp} (a : Address) (i : Index)
      (hop : NonFieldOp.ofJson? .instruction o = some op) :
      Builds [o, .nat a.val, .nat i.val] (nonField op a i)
  | arg {o n : Json} {op : ArgOp} {argument : ArgSpec} (a : Address) (i : Index)
      (hop : ArgOp.ofJson? .instruction o = some op)
      (hargument : ArgSpec.ofJson? .instruction n = some argument) :
      Builds [o, .nat a.val, .nat i.val, n] (arg op a i argument)

/-- Values that are read as an instruction of a category make up one of that category. -/
theorem builds_of_ofValues? (h : ofValues? c values = some ins) :
    c = ins.category ∧ Builds values ins := by
  unfold ofValues? at h
  split at h
  · obtain ⟨op, hop, rfl⟩ := Option.map_eq_some_iff.mp h
    exact ⟨rfl, .onlyName hop⟩
  · simp only [Option.bind_eq_bind, Option.bind_eq_some_iff, Option.pure_def, Option.some.injEq,
      Address.ofJson?_eq_some_iff, Index.ofJson?_eq_some_iff] at h
    obtain ⟨op, hop, a, rfl, i, rfl, f, hf, rfl⟩ := h
    exact ⟨rfl, .field a i hop hf⟩
  · simp only [Option.bind_eq_bind, Option.bind_eq_some_iff, Option.pure_def, Option.some.injEq,
      Address.ofJson?_eq_some_iff, Index.ofJson?_eq_some_iff] at h
    obtain ⟨op, hop, a, rfl, i, rfl, rfl⟩ := h
    exact ⟨rfl, .nonField a i hop⟩
  · simp only [Option.bind_eq_bind, Option.bind_eq_some_iff, Option.pure_def, Option.some.injEq,
      Address.ofJson?_eq_some_iff, Index.ofJson?_eq_some_iff] at h
    obtain ⟨op, hop, a, rfl, i, rfl, n, hn, rfl⟩ := h
    exact ⟨rfl, .arg a i hop hn⟩
  · cases h

/-- The document holds the instruction: it names the category, and what it gives for the members
    makes up the instruction. -/
structure GivenBy (v : Json) (ins : Instruction) : Prop where
  category : v.given? "category" 0 = some ins.category.toJson
  members : ∃ values, Builds values ins ∧
    ∀ i name, (memberNames ins.category)[i]? = some name → v.given? name (i + 1) = values[i]?

theorem category_not_mem_memberNames (c : Category) : "category" ∉ memberNames c := by
  cases c <;> decide

/-- A document that is read as an instruction holds it. -/
theorem givenBy_of_ofJson? (h : ofJson? v = some ins) : GivenBy v ins := by
  simp only [ofJson?, Option.ite_none_right_eq_some, Option.bind_eq_bind,
    Option.bind_eq_some_iff] at h
  obtain ⟨-, ⟨c, rest⟩, htagged, values, hvalues, hins⟩ := h
  obtain ⟨rfl, hbuilds⟩ := builds_of_ofValues? hins
  obtain ⟨htag, hrest⟩ := given?_of_tagged? htagged
  refine ⟨htag, values, hbuilds, ?_⟩
  intro i name hname
  -- no other member has the name of the tag, so none is lost with it
  have hne : name ≠ "category" := by
    rintro rfl
    exact category_not_mem_memberNames _ (List.mem_of_getElem? hname)
  rw [hrest name hne i, Json.given?_of_allFields? hvalues hname]

namespace GivenBy

/-- The address of an instruction is the number that the document gives for it. -/
theorem address (h : GivenBy v ins) {a : Address} (ha : ins.address? = some a) :
    v.given? "address" 2 = some (.nat a.val) := by
  obtain ⟨values, hbuilds, hgiven⟩ := h.members
  cases hbuilds with
  | onlyName _ => cases ha
  | field | nonField | arg =>
    obtain rfl := Option.some.inj ha
    exact hgiven 1 "address" rfl

/-- The index of an instruction is the number that the document gives for it. -/
theorem index (h : GivenBy v ins) {i : Index} (hi : ins.index? = some i) :
    v.given? "index" 3 = some (.nat i.val) := by
  obtain ⟨values, hbuilds, hgiven⟩ := h.members
  cases hbuilds with
  | onlyName _ => cases hi
  | field | nonField | arg =>
    obtain rfl := Option.some.inj hi
    exact hgiven 2 "index" rfl

end GivenBy

/-! ### What is read from a document -/

/-- **Documents.** Whatever the form of a document, the instruction that is read from it is one
    that the document holds, with the number it gives as address and the number it gives as index,
    and these are within bounds. Under every configuration its canonical text is read as the same
    instruction, and so is the document that it is written as, closed up or laid out. -/
theorem canonical_of_document {text : String} (h : (Json.parse text).bind ofJson? = some ins) :
    (∃ v, Json.parse text = some v ∧ GivenBy v ins ∧
      (∀ a, ins.address? = some a → v.given? "address" 2 = some (.nat a.val) ∧ a.val ≤ 3999) ∧
      ∀ i, ins.index? = some i →
        v.given? "index" 3 = some (.nat i.val) ∧ 1 ≤ i.val ∧ i.val ≤ 5) ∧
      (∀ cfg, parse cfg ins.canonical = .ok ins) ∧
      (Json.parse ins.toJson.compact).bind ofJson? = some ins ∧
      (Json.parse ins.toJson.pretty).bind ofJson? = some ins := by
  obtain ⟨v, hv, hins⟩ := Option.bind_eq_some_iff.mp h
  have hgiven : GivenBy v ins := givenBy_of_ofJson? hins
  have hplain : ∀ ins : Instruction, Json.Plain 4 ins.toJson := plain_toJson
  refine ⟨⟨v, hv, hgiven, fun a ha => ?_, fun i hi => ?_⟩, fun cfg => ins.parse_canonical cfg, ?_⟩
  · exact ⟨hgiven.address ha, a.le_max⟩
  · exact ⟨hgiven.index hi, i.one_le, i.le_five⟩
  · exact Json.roundTrips_of_plain hplain ofJson?_toJson ins

/-- The category comes last, an unknown member first, and the opcode's operands stand in an array,
    the register as a member without a payload. -/
theorem canonical_of_document_untidy :
    let text := "\x7b\"x\":[1.5,null],\"index\":1,\"fields\":\x7b\"default\":\x7b\x7d\x7d," ++
      "\"op\":\x7b\"Load\":[\x7b\"A\":null\x7d,true]\x7d,\"address\":3999,\"category\":\"field\"\x7d"
    let ins := field (.load .a true) ⟨3999, by decide⟩ ⟨1, by decide, by decide⟩ .default
    (Json.parse text).bind ofJson? = some ins ∧
      (∃ v, Json.parse text = some v ∧ GivenBy v ins ∧
        v.given? "address" 2 = some (.nat 3999) ∧ v.given? "index" 3 = some (.nat 1)) ∧
      parse ⟨true, true, true⟩ "LDAN 3999,1" = .ok ins ∧
      (Json.parse ins.toJson.compact).bind ofJson? = some ins := by
  intro text ins
  have hread : (Json.parse text).bind ofJson? = some ins := by decide +kernel
  obtain ⟨⟨v, hv, hgiven, haddress, hindex⟩, hcanonical, hcompact, -⟩ :=
    canonical_of_document hread
  refine ⟨hread, ⟨v, hv, hgiven, ?_, ?_⟩, hcanonical ⟨true, true, true⟩, hcompact⟩
  · exact (haddress _ rfl).1
  · exact (hindex _ rfl).1

end Instruction

end MixAsm
