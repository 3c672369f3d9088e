import MixAsm.Config.Json
import MixAsm.Proofs.Instruction.Documents
import MixAsm.Proofs.Json.Members

namespace MixAsm

/-!
# Instructions and configurations by name

An instruction is read from an object by the names of its members, and only one of them says which
names these are. A configuration is read so too, and where a setting is left out the default stands
in its place.

* `Instruction.readByName` — instructions, with the category among the names;
* `Config.SetBy`, `Config.ofJson?_object_eq_some_iff` — the settings that an object gives and those
  that it leaves out;
* `Config.readByName` — configurations;
* `documents_by_name` — the documents of both.
-/

open Json (Rearranged ReadByName DocumentsByName)

variable {ms ms' added : List (Json.Text × Json)} {key : String}

/-! ### Instructions -/

theorem Category.toJson_injective : Function.Injective toJson := by
  intro c c' h
  have hkey : c.key = c'.key := by simpa [toJson, Json.str] using h
  rw [← Category.find?_key_eq_some_iff] at hkey
  exact Option.some.inj (hkey.symm.trans (Category.find?_key_eq_some_iff.mpr rfl)).symm

namespace Instruction

variable {ins : Instruction}

/-- The names that are known of an instruction: the category, and those that belong to it. -/
def knownNames (ins : Instruction) : List String := "category" :: memberNames ins.category

/-- An instruction is read from a sound object that names its category once and whose other members
    are read as its values. -/
theorem ofJson?_object_eq_some_iff :
    ofJson? (.object ms) = some ins ↔
      (Json.object ms).isSound maxDepth ∧
        Json.member? "category" ms = some ins.category.toJson ∧
        Json.occurrences "category" ms = 1 ∧
        ∃ values, Json.allFields? (memberNames ins.category)
            (.object (ms.filter (·.1 ≠ some "category"))) = some values ∧
          ofValues? ins.category values = some ins := by
  simp only [ofJson?, Option.ite_none_right_eq_some, Option.bind_eq_bind, Option.bind_eq_some_iff,
    Prod.exists, tagged?_object_eq_some_iff]
  constructor
  · rintro ⟨hsound, c, _, ⟨htag, honce, rfl⟩, values, hvalues, hins⟩
    obtain ⟨rfl, -⟩ := builds_of_ofValues? hins
    exact ⟨hsound, htag, honce, values, hvalues, hins⟩
  · rintro ⟨hsound, htag, honce, values, hvalues, hins⟩
    exact ⟨hsound, _, _, ⟨htag, honce, rfl⟩, values, hvalues, hins⟩

/-- No object has a known name of the instruction that is read from it twice. -/
theorem occurrences_le_one (h : ofJson? (.object ms) = some ins) (hkey : key ∈ ins.knownNames) :
    Json.occurrences key ms ≤ 1 := by
  obtain ⟨-, -, honce, values, hvalues, -⟩ := ofJson?_object_eq_some_iff.mp h
  rcases List.mem_cons.mp hkey with rfl | hkey
  · exact Nat.le_of_eq honce
  · have hne : key ≠ "category" := by
      rintro rfl
      exact category_not_mem_memberNames _ hkey
    rw [← Json.occurrences_filter_ne hne]
    exact (Json.allFields?_object_eq_some_iff.mp hvalues).1.2 key hkey

/-- The category is that of the one member that names it, wherever it stands. -/
theorem category_eq_of_perm {ins' : Instruction} (h : ofJson? (.object ms) = some ins)
    (hperm : ms'.Perm (ms ++ added)) (h' : ofJson? (.object ms') = some ins') :
    ins'.category = ins.category := by
  obtain ⟨-, htag, honce, -⟩ := ofJson?_object_eq_some_iff.mp h
  obtain ⟨-, htag', honce', -⟩ := ofJson?_object_eq_some_iff.mp h'
  have hmem := (Json.member?_eq_some_iff_mem (Nat.le_of_eq honce)).mp htag
  have hmem' := hperm.mem_iff.mpr (List.mem_append_left added hmem)
  rw [← Json.member?_eq_some_iff_mem (Nat.le_of_eq honce'), htag', Option.some.injEq] at hmem'
  exact Category.toJson_injective hmem'

/-- **Instructions.** An instruction is read from an object by name. -/
theorem readByName : ReadByName ofJson? knownNames := by
  constructor
  · intro ms ms' ins h hms'
    obtain ⟨hsound, htag, honce, values, hvalues, hins⟩ := ofJson?_object_eq_some_iff.mp h
    have hcategory : "category" ∈ ins.knownNames := List.mem_cons_self
    refine ofJson?_object_eq_some_iff.mpr ⟨?_, ?_, ?_, values, ?_, hins⟩
    · rw [Json.isSound_object_iff] at hsound ⊢
      refine ⟨hsound.1, hms'.forall_mem (fun key v hv => ⟨rfl, ?_⟩) hsound.2⟩
      exact hv.isSound _
    · rw [hms'.member?_eq hcategory (Nat.le_of_eq honce), htag]
    · rw [hms'.occurrences_eq hcategory, honce]
    · exact Rearranged.allFields?_eq hms'.filter_ne hvalues
  · intro ms ms' added key ins h hperm hkey htwice
    rw [Option.eq_none_iff_forall_ne_some]
    intro ins' h'
    -- the object has the category of the instruction, so that its names are known of this one too
    rw [knownNames, ← category_eq_of_perm h hperm h', ← knownNames] at hkey
    have honce := occurrences_le_one h' hkey
    omega

end Instruction

/-! ### Configurations -/

/-- What an object says of a truth value that may be left out: the default if it has no member of
    the name, or else the value of the one member that it has. -/
def Json.Settles (v : Json) (key : String) (default b : Bool) : Prop :=
  (v.Lacks key ∧ b = default) ∨ v.Gives key (.bool b)

theorem Json.Settles.occurrences_le_one {default b : Bool}
    (h : (Json.object ms).Settles key default b) : Json.occurrences key ms ≤ 1 := by
  obtain ⟨hlacks, -⟩ | ⟨honce, -⟩ := h
  · exact Nat.le_trans (Nat.le_of_eq hlacks) (Nat.zero_le 1)
  · exact Nat.le_of_eq honce

namespace Config

variable {cfg : Config}

theorem boolOr?_eq_some_iff {default b : Bool} (honce : Json.occurrences key ms ≤ 1) :
    boolOr? default (Json.member? key ms) = some b ↔ (Json.object ms).Settles key default b := by
  rcases Nat.le_one_iff_eq_zero_or_eq_one.mp honce with hnone | hone
  · have hmember : Json.member? key ms = none := by
      rw [Option.eq_none_iff_forall_ne_some]
      intro v hv
      have hmem := (Json.member?_eq_some_iff_mem honce).mp hv
      simpa using List.countP_eq_zero.mp hnone _ hmem
    simp [hmember, boolOr?, Json.Settles, Json.Lacks, Json.Gives, hnone, eq_comm]
  · obtain ⟨m, hm, hkey⟩ := List.countP_pos_iff.mp (Nat.lt_of_lt_of_eq Nat.zero_lt_one hone.symm)
    obtain ⟨_, v⟩ := m
    obtain rfl := of_decide_eq_true hkey
    have hmember : Json.member? key ms = some v := (Json.member?_eq_some_iff_mem honce).mpr hm
    simp [hmember, boolOr?, Json.Settles, Json.Lacks, Json.Gives, hone, Json.toBool?_eq_some_iff]

/-- The names of the settings. -/
def settingNames : List String := ["case_insensitive", "collapse_spaces", "skip_blank_lines"]

/-- The object gives the settings of the configuration, but for some that have their defaults. -/
structure SetBy (v : Json) (cfg : Config) : Prop where
  caseInsensitive : v.Settles "case_insensitive" false cfg.caseInsensitive
  collapseSpaces : v.Settles "collapse_spaces" false cfg.collapseSpaces
  skipBlankLines : v.Settles "skip_blank_lines" true cfg.skipBlankLines

/-- A configuration is read from the objects with well-formed keys that set it. -/
theorem ofJson?_object_eq_some_iff :
    ofJson? (.object ms) = some cfg ↔ (∀ m ∈ ms, m.1.isSome) ∧ SetBy (.object ms) cfg := by
  obtain ⟨caseInsensitive, collapseSpaces, skipBlankLines⟩ := cfg
  simp only [ofJson?, Option.bind_eq_bind, Option.bind_eq_some_iff,
    Json.fields?_object_eq_some_iff]
  constructor
  · rintro ⟨_, ⟨⟨hkeys, honce⟩, rfl⟩, hcfg⟩
    have hsettles : ∀ key ∈ settingNames, ∀ default b,
        boolOr? default (Json.member? key ms) = some b → (Json.object ms).Settles key default b :=
      fun key hkey _ _ => (boolOr?_eq_some_iff (honce key hkey)).mp
    simp only [List.map_cons, List.map_nil, Option.bind_eq_some_iff, Option.pure_def,
      Option.some.injEq] at hcfg
    obtain ⟨_, hcase, _, hspaces, _, hblank, hcfg⟩ := hcfg
    obtain ⟨rfl, rfl, rfl⟩ := Config.mk.inj hcfg
    refine ⟨hkeys, ?_, ?_, ?_⟩
    · exact hsettles _ (by decide) _ _ hcase
    · exact hsettles _ (by decide) _ _ hspaces
    · exact hsettles _ (by decide) _ _ hblank
  · rintro ⟨hkeys, hcase, hspaces, hblank⟩
    refine ⟨_, ⟨⟨hkeys, ?_⟩, rfl⟩, ?_⟩
    · rintro key hkey
      simp only [List.mem_cons, List.not_mem_nil, or_false] at hkey
      rcases hkey with rfl | rfl | rfl
      · exact hcase.occurrences_le_one
      · exact hspaces.occurrences_le_one
      · exact hblank.occurrences_le_one
    · simp only [List.map_cons, List.map_nil, Option.bind_eq_some_iff, Option.pure_def,
        Option.some.injEq]
      exact ⟨_, (boolOr?_eq_some_iff hcase.occurrences_le_one).mpr hcase,
        _, (boolOr?_eq_some_iff hspaces.occurrences_le_one).mpr hspaces,
        _, (boolOr?_eq_some_iff hblank.occurrences_le_one).mpr hblank, rfl⟩

/-- **Configurations.** A configuration is read from an object by name. -/
theorem readByName : ReadByName ofJson? fun _ => settingNames := by
  constructor
  · intro ms ms' cfg h hms'
    obtain ⟨fields, hfields, hcfg⟩ := Option.bind_eq_some_iff.mp h
    exact Option.bind_eq_some_iff.mpr ⟨fields, hms'.fields?_eq hfields, hcfg⟩
  · intro ms ms' added key cfg h hperm hkey htwice
    rw [Option.eq_none_iff_forall_ne_some]
    intro cfg' h'
    obtain ⟨fields, hfields, -⟩ := Option.bind_eq_some_iff.mp h'
    have honce := (Json.fields?_object_eq_some_iff.mp hfields).1.2 key hkey
    omega

end Config

/-! ### Documents -/

/-- **By name.** From every document that is an object and gives an instruction, the members may be
    put in any order, that of the category with them, and further ones may be put in between whose
    names are not known of the instruction: there are documents of the new object, and each of them
    gives the same instruction. None is given where a known name stands twice. It is the same with
    configurations. Moreover an object is read as a configuration just if each setting that it
    leaves out has its default and each one that it gives, which it does only once, has the given
    value. -/
theorem documents_by_name :
    DocumentsByName Instruction.ofJson? Instruction.knownNames ∧
      DocumentsByName Config.ofJson? (fun _ => Config.settingNames) ∧
      ∀ text ms cfg, Json.parse text = some (.object ms) →
        (Config.read? text = some cfg ↔
          (∀ m ∈ ms, m.1.isSome) ∧ Config.SetBy (.object ms) cfg) := by
  refine ⟨Instruction.readByName.documents, Config.readByName.documents, ?_⟩
  intro text ms cfg hparse
  rw [Config.read?, hparse, Option.bind_some]
  exact Config.ofJson?_object_eq_some_iff

/-- An instruction read backwards, with a null and the greatest of the 64-bit integers under names
    that it does not know, and refused with its category repeated; and a configuration of which one
    setting is given. -/
theorem documents_by_name_backwards :
    let ins := Instruction.field .add ⟨1, by decide⟩ ⟨2, by decide, by decide⟩ .default
    let text := "\x7b\"category\":\"field\",\"op\":\"Add\",\"address\":1,\"index\":2," ++
      "\"fields\":\"default\"\x7d"
    let backwards := "\x7b\"argument\":null,\"x\":18446744073709551615,\"fields\":\"default\"," ++
      "\"index\":2,\"address\":1,\"op\":\"Add\",\"category\":\"field\"\x7d"
    let repeated := "\x7b\"category\":\"field\",\"category\":\"field\",\"op\":\"Add\"," ++
      "\"address\":1,\"index\":2,\"fields\":\"default\"\x7d"
    (Json.parse text).bind Instruction.ofJson? = some ins ∧
      (Json.parse backwards).bind Instruction.ofJson? = some ins ∧
      (Json.parse repeated).bind Instruction.ofJson? = none ∧
      Config.read? "\x7b\"x\":0,\"skip_blank_lines\":false\x7d" = some ⟨false, false, false⟩ := by
  intro ins text backwards repeated
  let ms : List (Json.Text × Json) := [(some "category", .str "field"), (some "op", .str "Add"),
    (some "address", .nat 1), (some "index", .nat 2), (some "fields", .str "default")]
  let added : List (String × Json) := [("x", Json.int 18446744073709551615), ("argument", .null)]
  let ms' := (ms ++ [(some "x", Json.int 18446744073709551615), (some "argument", .null)]).reverse
  -- each of the texts is the one that its object is written with
  have hms : ∀ m ∈ ms, Json.Legible m.2 := by
    simp only [ms, List.forall_mem_cons]
    exact ⟨.str _, .str _, .nat _, .nat _, .str _, by simp⟩
  have hparse : Json.parse text = some (.object ms) := Json.parse_object (by decide +kernel) hms
  have hread : (Json.parse text).bind Instruction.ofJson? = some ins := by decide +kernel
  have hms' : Rearranged ins.knownNames ms ms' := by
    refine ⟨added, ?_, List.reverse_perm _⟩
    intro m hm
    simp only [added, List.mem_cons, List.not_mem_nil, or_false] at hm
    rcases hm with rfl | rfl
    · exact ⟨by decide, .int (by decide) (by decide)⟩
    · exact ⟨by decide, .null⟩
  obtain ⟨hinstructions, -, hconfigurations⟩ := documents_by_name
  refine ⟨hread, ?_, ?_, ?_⟩
  · have hbackwards : Json.parse backwards = some (.object ms') :=
      Json.parse_object (by decide +kernel) (hms'.forall_mem (fun _ _ hv => hv.legible) hms)
    exact (hinstructions.rearranged hparse hread hms').2 backwards hbackwards
  · have hrepeated :
        Json.parse repeated = some (.object ([(some "category", .str "field")] ++ ms)) :=
      Json.parse_object (by decide +kernel) (List.forall_mem_cons.mpr ⟨.str _, hms⟩)
    have htwice : 2 ≤ Json.occurrences "category" ([(some "category", .str "field")] ++ ms) := by
      decide
    exact hinstructions.repeated hparse hread hrepeated List.perm_append_comm List.mem_cons_self
      htwice
  · have hsettings : Json.parse "\x7b\"x\":0,\"skip_blank_lines\":false\x7d"
        = some (.object [(some "x", .nat 0), (some "skip_blank_lines", .bool false)]) :=
      Json.parse_object (by decide +kernel) (by simpa using ⟨.nat 0, .bool false⟩)
    refine (hconfigurations _ _ _ hsettings).mpr ⟨by decide, ?_, ?_, ?_⟩
    · exact .inl ⟨rfl, rfl⟩
    · exact .inl ⟨rfl, rfl⟩
    · exact .inr ⟨rfl, rfl⟩

end MixAsm
