import MixAsm.Proofs.Instruction.Json
import MixAsm.Proofs.Instruction.RoundTrip
import MixAsm.Proofs.Json.Decode
import MixAsm.Report

namespace MixAsm

open Json (Legible)

/-!
# Dumps lose nothing

The document that a dump is written as holds one object for each line that was read. What the line
was and what reading it gave are read back from the object: its number, its text, and either the
instruction with its canonical text or the error.

* `Json.TellsError`, `Json.TellsInstruction` — what the object tells of the outcome;
* `Json.TellsLine` — what it tells of the line;
* `Program.dump_lossless` — the document of a text.
-/

variable {cfg : Config} {file : String}

/-! ### What an object tells -/

/-- The object of an error tells where the error is and what it says. -/
structure Json.TellsError (file : String) (l : NumberedLine) (e : ParseError) (v : Json) : Prop where
  file : v.Gives "file" (.str file)
  line : v.Gives "line" (.nat l.number)
  column : v.Gives "column" (.nat e.column)
  kind : ∃ k, v.Gives "kind" k ∧ ErrorKind.ofJson? k = some e.kind
  message : v.Gives "message" (.str e.message)
  source : v.Gives "source" (.str l.source)

/-- The object of a line that is an instruction tells the instruction, and a text that is read as
    it, and has no error. -/
structure Json.TellsInstruction (ins : Instruction) (v : Json) : Prop where
  instruction : ∃ w, v.Gives "instruction" w ∧ Instruction.ofJson? w = some ins
  canonical : v.Gives "canonical" (.str ins.canonical)
  canonical_read : ∀ cfg, Instruction.parse cfg ins.canonical = .ok ins
  error : v.Lacks "error"

/-- The object of a line tells its number, its text and what reading it gives. -/
structure Json.TellsLine (cfg : Config) (file : String) (l : NumberedLine) (v : Json) : Prop where
  line : v.Gives "line" (.nat l.number)
  source : v.Gives "source" (.str l.source)
  of_ok : ∀ ins, Instruction.parse cfg l.source = .ok ins → v.TellsInstruction ins
  of_error : ∀ e, Instruction.parse cfg l.source = .error e →
    (∃ w, v.Gives "error" w ∧ w.TellsError file l e) ∧ v.Lacks "instruction" ∧ v.Lacks "canonical"

/-! ### Values that are written -/

@[simp] theorem ErrorKind.ofJson?_toJson (k : ErrorKind) : ofJson? k.toJson = some k := by
  cases k <;> rfl

theorem ParsedLine.tellsError_diagnostic (l : ParsedLine) (e : ParseError) :
    (l.diagnosticOf file e).toJson.TellsError file l.toNumberedLine e := by
  have hkeys : ["file", "line", "column", "kind", "message", "source"].Nodup := by decide
  refine ⟨?_, ?_, ?_, ⟨e.kind.toJson, ?_, e.kind.ofJson?_toJson⟩, ?_, ?_⟩ <;>
    exact Json.gives_record hkeys (by simp [diagnosticOf])

theorem Diagnostic.legible_toJson (d : Diagnostic) : Legible d.toJson := by
  apply Legible.record
  simpa using ⟨.str _, .nat _, .nat _, .str d.kind.key, .str _, .str _⟩

theorem Entry.legible_toJson (e : Entry) : Legible e.toJson := by
  have hins : ∀ ins : Instruction, Legible ins.toJson := by
    intro ins
    have hplain : Json.Plain 4 ins.toJson := ins.plain_toJson
    exact hplain.legible
  obtain ⟨line, source, outcome⟩ := e
  apply Legible.record
  cases outcome with
  | ok ins => simpa using ⟨.nat _, .str _, hins ins, .str _⟩
  | error d => simpa using ⟨.nat _, .str _, d.legible_toJson⟩

/-- The entry of a line that was read tells what the line was and what reading it gave. -/
theorem NumberedLine.tellsLine_entry (l : NumberedLine) :
    ((l.parse cfg).entry file).toJson.TellsLine cfg file l := by
  cases hparse : Instruction.parse cfg l.source with
  | ok ins =>
    have hentry : ((l.parse cfg).entry file).toJson = .record [("line", .nat l.number),
        ("source", .str l.source), ("instruction", ins.toJson),
        ("canonical", .str ins.canonical)] := by
      simp [ParsedLine.entry, NumberedLine.parse, Entry.toJson, hparse, Except.mapError]
    have hkeys : ["line", "source", "instruction", "canonical"].Nodup := by decide
    rw [hentry]
    refine ⟨Json.gives_record hkeys (by simp), Json.gives_record hkeys (by simp), ?_, ?_⟩
    · intro ins' hins'
      obtain rfl : ins = ins' := Except.ok.inj (hparse.symm.trans hins')
      exact ⟨⟨ins.toJson, Json.gives_record hkeys (by simp), ins.ofJson?_toJson⟩,
        Json.gives_record hkeys (by simp), fun cfg => Instruction.parse_canonical cfg ins,
        Json.lacks_record (by simp)⟩
    · intro e he
      rw [hparse] at he
      cases he
  | error e =>
    have hentry : ((l.parse cfg).entry file).toJson = .record [("line", .nat l.number),
        ("source", .str l.source),
        ("error", ((l.parse cfg).diagnosticOf file e).toJson)] := by
      simp [ParsedLine.entry, NumberedLine.parse, Entry.toJson, hparse, Except.mapError]
    have hkeys : ["line", "source", "error"].Nodup := by decide
    rw [hentry]
    refine ⟨Json.gives_record hkeys (by simp), Json.gives_record hkeys (by simp), ?_, ?_⟩
    · intro ins hins
      rw [hparse] at hins
      cases hins
    · intro e' he'
      obtain rfl : e = e' := Except.error.inj (hparse.symm.trans he')
      exact ⟨⟨_, Json.gives_record hkeys (by simp), (l.parse cfg).tellsError_diagnostic e⟩,
        Json.lacks_record (by simp), Json.lacks_record (by simp)⟩

namespace Program

/-- **Dumps.** The document of a text, closed up or laid out, is an array with one object for each
    line that was read, in their order, and the object tells the line's number, its text and exactly
    what reading the line gives. -/
theorem dump_lossless (cfg : Config) (text file : String) :
    ∃ items, Json.parse (Entry.listToJson ((parse cfg text).dump file)).compact
        = some (.array items) ∧
      Json.parse (Entry.listToJson ((parse cfg text).dump file)).pretty = some (.array items) ∧
      List.Forall₂ (fun l item => item.TellsLine cfg file l.toNumberedLine) (parse cfg text).lines
        items := by
  have hlegible : Legible (Entry.listToJson ((parse cfg text).dump file)) := by
    apply Legible.array
    rw [List.forall_mem_map]
    exact fun e _ => e.legible_toJson
  refine ⟨_, Json.parse_compact hlegible, Json.parse_pretty hlegible, ?_⟩
  rw [dump, List.map_map, List.forall₂_map_right_iff, List.forall₂_same]
  intro l hl
  obtain ⟨l, -, rfl⟩ := List.mem_map.mp hl
  exact l.tellsLine_entry

end Program

end MixAsm
