import MixAsm.Proofs.Instruction.Steps
import MixAsm.Proofs.Mnemonic.Grammar

namespace MixAsm

/-!
# The table of names

The table has every opcode under its name, and the names are told apart: no entry is written over
by a later one. So looking a word up decides whether the grammar of names derives it.

* `Mnemonic.table` — the table as it is built, entry by entry;
* `Mnemonic.getElem?_table` — what it has under a word is the opcode that the word names;
* `Mnemonic.classify_decides` — a word is taken for an opcode exactly if one category derives it.
-/

namespace Mnemonic

/-! ### Lookup -/

/-- Every opcode under its name. -/
def table : Std.HashMap String Mnemonic := .ofList (all.map fun m => (m.name, m))

/-- No opcode is listed twice. -/
theorem nodup_all : all.Nodup := by decide +kernel

/-- The entries have keys of their own. -/
theorem pairwise_entries :
    (all.map fun m => (m.name, m)).Pairwise fun a b => (a.1 == b.1) = false := by
  rw [List.pairwise_map]
  refine nodup_all.imp fun {m m'} hne => ?_
  rw [beq_eq_false_iff_ne]
  exact fun h => hne (name_injective h)

/-- No entry of the table is lost. -/
theorem size_table : table.size = all.length := by
  rw [table, Std.HashMap.size_ofList pairwise_entries, List.length_map]

/-- The table has every opcode under its name. -/
theorem getElem?_table_name (m : Mnemonic) : table[m.name]? = some m :=
  Std.HashMap.getElem?_ofList_of_mem (beq_self_eq_true m.name) pairwise_entries
    (List.mem_map_of_mem (mem_all m))

/-- A word names an opcode exactly if it is the opcode's name. -/
theorem ofName?_eq_some_iff_name {w : String} {m : Mnemonic} : ofName? w = some m ↔ m.name = w := by
  rw [ofName?_eq_some_iff, Names.name_eq_iff, eq_comm]

/-- The table has under a word what the word names. -/
theorem getElem?_table (w : String) : table[w]? = ofName? w := by
  cases h : ofName? w with
  | some m =>
    rw [← ofName?_eq_some_iff_name.mp h]
    exact getElem?_table_name m
  | none =>
    refine Std.HashMap.getElem?_ofList_of_contains_eq_false ?_
    rw [List.contains_eq_mem, decide_eq_false_iff_not, List.map_map]
    intro hmem
    obtain ⟨m, -, hm⟩ := List.mem_map.mp hmem
    rw [ofName?_eq_some_iff_name.mpr hm] at h
    cases h

/-! ### Categories -/

/-- A word is derived by the category of the opcode that it names, and by no other one. -/
theorem of_iff_eq_category {m : Mnemonic} {c : Category} :
    Names.Of c m.name ↔ c = m.category := by
  rw [Names.of_iff]
  constructor
  · rintro ⟨m', rfl, h⟩
    rw [name_injective h]
  · rintro rfl
    exact ⟨m, rfl, rfl⟩

/-- A word that some category derives is derived by one category only. -/
theorem existsUnique_of_iff {w : String} : (∃! c, Names.Of c w) ↔ ∃ m : Mnemonic, m.name = w := by
  constructor
  · rintro ⟨c, h, -⟩
    obtain ⟨m, -, hm⟩ := Names.of_iff.mp h
    exact ⟨m, hm⟩
  · rintro ⟨m, rfl⟩
    exact ⟨m.category, of_iff_eq_category.mpr rfl, fun c => of_iff_eq_category.mp⟩

/-- **Names decided.** A word is taken for an opcode exactly if one of the four nonterminals derives
    it and no other one does. The opcode is then of that category and has the word for its name. Any
    other word is refused as it stands, in its column. Every opcode is in the table under its name,
    which it shares with no other opcode, and the table has nothing else. -/
theorem classify_decides (w : String) (column : Nat) :
    ((∃ m, classify w column = .ok m) ↔ ∃! c, Names.Of c w) ∧
      (∀ m, classify w column = .ok m ↔ m.name = w ∧ ∀ c, Names.Of c w ↔ c = m.category) ∧
      (∀ e, classify w column = .error e ↔
        e = ⟨column, .unknownMnemonic w⟩ ∧ ¬ ∃! c, Names.Of c w) ∧
      table[w]? = ofName? w ∧ (∀ m, ofName? m.name = some m) ∧ table.size = all.length ∧
      Function.Injective name := by
  have hok : ∀ m, classify w column = .ok m ↔ m.name = w := by
    intro m
    rw [classify_eq_ok_iff, ← ofName?_eq_some_iff, ofName?_eq_some_iff_name]
  have hexists : (∃ m, classify w column = .ok m) ↔ ∃! c, Names.Of c w := by
    simp only [hok, existsUnique_of_iff]
  refine ⟨hexists, fun m => ?_, fun e => ?_, getElem?_table w, ofName?_name, size_table,
    name_injective⟩
  · rw [hok]
    constructor
    · rintro rfl
      exact ⟨rfl, fun c => of_iff_eq_category⟩
    · rintro ⟨h, -⟩
      exact h
  · rw [← hexists, classify]
    split <;> simp [eq_comm]

end Mnemonic

end MixAsm
