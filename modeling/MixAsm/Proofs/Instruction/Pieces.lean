import MixAsm.Proofs.Instruction.Grammar
import MixAsm.Proofs.Instruction.Steps
import MixAsm.Proofs.Token.Tiling

namespace MixAsm

open Token

/-!
# Reading what the grammar writes

What the grammar writes falls apart into pieces, each of which is written as one token. None of
them runs together with the next, so the tokens of the line are the tokens of the pieces, and the
reader takes them all.

* `Cut` — a list of pieces that writes some characters;
* `Follows` — lexemes that stay apart when they are written behind another;
* `Instruction.TailWritten.exists_cut` — the pieces of what follows an opcode's name;
* `Instruction.exists_tiles_of_written` — the tokens of a whole instruction.
-/

variable {cfg : Config} {n : Nat} {cs cs' : List Char} {ps qs : List (Lexeme × List Char)}

/-! ### Pieces -/

/-- The pieces, each of which writes its lexeme, make up the characters. -/
structure Cut (cfg : Config) (cs : List Char) (ps : List (Lexeme × List Char)) : Prop where
  cover : ps.flatMap Prod.snd = cs
  spelled : ∀ p ∈ ps, p.1.SpelledBy cfg p.2

namespace Cut

theorem nil : Cut cfg [] [] := ⟨rfl, by simp⟩

theorem cons {l : Lexeme} {run : List Char} (hrun : l.SpelledBy cfg run) (h : Cut cfg cs ps) :
    Cut cfg (run ++ cs) ((l, run) :: ps) := by
  refine ⟨by rw [List.flatMap_cons, h.cover], ?_⟩
  intro p hp
  obtain rfl | hp := List.mem_cons.mp hp
  · exact hrun
  · exact h.spelled p hp

theorem append (h : Cut cfg cs ps) (h' : Cut cfg cs' qs) : Cut cfg (cs ++ cs') (ps ++ qs) := by
  refine ⟨by rw [List.flatMap_append, h.cover, h'.cover], ?_⟩
  intro p hp
  obtain hp | hp := List.mem_append.mp hp
  · exact h.spelled p hp
  · exact h'.spelled p hp

end Cut

/-- Written behind `l`, the lexemes run together neither with it nor with each other, and the last
    of them all is no space. -/
structure Follows (l : Lexeme) (ls : List Lexeme) : Prop where
  apart : (l :: ls).IsChain fun l l' => l.glues l' = false
  getLast?_ne : (l :: ls).getLast? ≠ some .space

/-- A numeral is a piece of its own, whose literal has the number for its value. -/
theorem Text.Numeral.spelledBy {v : Nat} {d : List Char} (h : Numeral v d) (cfg : Config) :
    (Lexeme.number (String.ofList d)).SpelledBy cfg d ∧
      literal? (String.ofList d).toList = some v := by
  refine ⟨⟨h.isNumeral, rfl⟩, ?_⟩
  rw [String.toList_ofList]
  exact h.literal?_eq

/-! ### Operands -/

/-- An address and an index are four pieces, which are read whatever comes behind them. They may
    stand behind a word, with anything behind them that may stand behind a number. -/
theorem OperandsWritten.exists_cut {a : Address} {i : Index} (h : OperandsWritten cfg a i cs) :
    ∃ ps, Cut cfg cs ps ∧
      (∀ text ls, (∀ x, Follows (.number x) ls) → Follows (.word text) (ps.map Prod.fst ++ ls)) ∧
      ∀ n lineEnd rest, takeAddressIndex cfg lineEnd (lay n ps ++ rest) = .ok ((a, i), rest) := by
  obtain ⟨s, d₁, d₂, rfl, hgap, h₁, h₂⟩ := h
  obtain ⟨hne, hs, hwidth⟩ := isGap_iff.mp hgap
  obtain ⟨hd₁, ha⟩ := h₁.spelledBy cfg
  obtain ⟨hd₂, hi⟩ := h₂.spelledBy cfg
  have hspace : Lexeme.space.SpelledBy cfg s := ⟨hne, hs⟩
  refine ⟨[(.space, s), (.number (.ofList d₁), d₁), (.comma, [',']), (.number (.ofList d₂), d₂)],
    ?_, ?_, ?_⟩
  · have hcut := (((Cut.nil.cons hd₂).cons (l := .comma) rfl).cons hd₁).cons hspace
    simpa using hcut
  · intro text ls hls
    obtain ⟨hapart, hlast⟩ := hls (.ofList d₂)
    exact ⟨by simpa [Lexeme.glues] using hapart, by simpa using hlast⟩
  · -- the first piece is as wide as the gap, which is all that is asked of it
    intro n lineEnd rest
    rw [takeAddressIndex_eq_ok_iff]
    refine ⟨_, _, _, _, _, _, rfl, ⟨rfl, ?_⟩, ⟨rfl, ha⟩, rfl, rfl, hi⟩
    rwa [Token.width, Nat.add_sub_cancel_left]

/-- A group of bounds is no piece at all or five, which may stand behind a number and are read if
    nothing comes behind them. -/
theorem FieldSpec.Written.exists_cut {f : FieldSpec} (h : f.Written cs) (cfg : Config) :
    ∃ ps, Cut cfg cs ps ∧ (∀ x, Follows (.number x) (ps.map Prod.fst)) ∧
      ∀ n lineEnd m, takeFieldSpec lineEnd m (lay n ps) = .ok (f, []) := by
  cases h with
  | default =>
    refine ⟨[], .nil, fun x => ⟨by simp, by simp⟩, ?_⟩
    intro n lineEnd m
    exact takeFieldSpec_eq_ok_iff.mpr (.inl ⟨rfl, rfl, by simp [lay, front?]⟩)
  | @explicit f d₁ d₂ h₁ h₂ =>
    obtain ⟨hd₁, hleft⟩ := h₁.spelledBy cfg
    obtain ⟨hd₂, hright⟩ := h₂.spelledBy cfg
    refine ⟨[(.leftParen, ['(']), (.number (.ofList d₁), d₁), (.colon, [':']),
      (.number (.ofList d₂), d₂), (.rightParen, [')'])], ?_,
      fun x => ⟨by simp [Lexeme.glues], by simp⟩, ?_⟩
    · have hclose := (Cut.nil.cons (l := .rightParen) rfl).cons hd₂
      have hcut := ((hclose.cons (l := .colon) rfl).cons hd₁).cons (l := .leftParen) rfl
      simpa using hcut
    · intro n lineEnd m
      refine takeFieldSpec_eq_ok_iff.mpr (.inr ⟨_, _, rfl, rfl, f, rfl, ?_⟩)
      exact takeFields_eq_ok_iff.mpr
        ⟨_, _, _, _, _, _, rfl, ⟨rfl, hleft⟩, rfl, ⟨rfl, hright⟩, rfl⟩

/-- An argument's group is no piece at all or three, which may stand behind a number and are read
    if nothing comes behind them. -/
theorem ArgSpec.Written.exists_cut {a : ArgSpec} (h : a.Written cs) (cfg : Config) :
    ∃ ps, Cut cfg cs ps ∧ (∀ x, Follows (.number x) (ps.map Prod.fst)) ∧
      ∀ n lineEnd m, takeArgSpec lineEnd m (lay n ps) = .ok (a, []) := by
  cases h with
  | default =>
    refine ⟨[], .nil, fun x => ⟨by simp, by simp⟩, ?_⟩
    intro n lineEnd m
    exact takeArgSpec_eq_ok_iff.mpr (.inl ⟨rfl, rfl, by simp [lay, front?]⟩)
  | @explicit a d h =>
    obtain ⟨hd, hval⟩ := h.spelledBy cfg
    refine ⟨[(.leftParen, ['(']), (.number (.ofList d), d), (.rightParen, [')'])], ?_,
      fun x => ⟨by simp [Lexeme.glues], by simp⟩, ?_⟩
    · have hcut := ((Cut.nil.cons (l := .rightParen) rfl).cons hd).cons (l := .leftParen) rfl
      simpa using hcut
    · intro n lineEnd m
      refine takeArgSpec_eq_ok_iff.mpr (.inr ⟨_, _, rfl, rfl, a, rfl, ?_⟩)
      exact takeArgument_eq_ok_iff.mpr ⟨_, _, _, rfl, ⟨rfl, hval⟩, rfl⟩

/-! ### Names -/

/-- Spellings are capitals and digits, with a capital in front. -/
theorem Mnemonic.spelling_word (m : Mnemonic) :
    (∃ c ∈ m.spelling.head?, c.isUpper) ∧ ∀ c ∈ m.spelling, c.isUpper ∨ c.isDigit := by
  -- there are finitely many opcodes, so their spellings are looked through
  have hall : ∀ m ∈ all, (m.spelling.head?.any Char.isUpper &&
      m.spelling.all fun c => c.isUpper || c.isDigit) := by
    decide +kernel
  have hm := hall m (mem_all m)
  simpa [Option.any_eq_true] using hm

/-- An opcode's name is a piece of its own, the word that spells the opcode. -/
theorem Mnemonic.NamedBy.spelledBy {m : Mnemonic} {w : List Char} (h : m.NamedBy cfg w) :
    (Lexeme.word m.name).SpelledBy cfg w := by
  have hw : w.map cfg.fold = m.spelling := namedBy_iff.mp h
  obtain ⟨⟨c, hc, hupper⟩, hall⟩ := m.spelling_word
  rw [← hw] at hc hall
  refine ⟨?_, ?_, by rw [hw, name]⟩
  · cases w with
    | nil => simp at hc
    | cons d ds =>
      obtain rfl : cfg.fold d = c := by simpa using hc
      exact ⟨d, ds, rfl, hupper⟩
  · intro d hd
    have hfold := hall (cfg.fold d) (List.mem_map_of_mem hd)
    rwa [Config.isDigit_fold] at hfold

namespace Instruction

/-! ### Instructions -/

/-- What follows an opcode's name falls apart into pieces that are read, and that may stand behind
    a word. -/
theorem TailWritten.exists_cut {ins : Instruction} (h : TailWritten cfg ins cs) :
    ∃ ps, Cut cfg cs ps ∧ (∀ text, Follows (.word text) (ps.map Prod.fst)) ∧
      ∀ n lineEnd, takeOperands cfg lineEnd (lay n ps) ins.mnemonic = .ok (ins, []) := by
  cases h with
  | onlyName =>
    refine ⟨[], .nil, fun text => ⟨by simp, by simp⟩, ?_⟩
    intro n lineEnd
    exact takeOperands_onlyName_eq_ok_iff.mpr ⟨rfl, rfl⟩
  | field hops hgroup =>
    obtain ⟨ps, hps, hbehind, hread⟩ := hops.exists_cut
    obtain ⟨qs, hqs, hfollows, hreadGroup⟩ := hgroup.exists_cut cfg
    refine ⟨ps ++ qs, hps.append hqs, ?_, ?_⟩
    · intro text
      rw [List.map_append]
      exact hbehind text _ hfollows
    · intro n lineEnd
      rw [lay_append]
      exact takeOperands_field_eq_ok_iff.mpr ⟨_, _, _, _, rfl, hread .., hreadGroup ..⟩
  | nonField hops =>
    obtain ⟨ps, hps, hbehind, hread⟩ := hops.exists_cut
    refine ⟨ps, hps, ?_, ?_⟩
    · intro text
      have hfollows := hbehind text [] fun x => ⟨by simp, by simp⟩
      rwa [List.append_nil] at hfollows
    · intro n lineEnd
      have hread := hread n lineEnd []
      rw [List.append_nil] at hread
      exact takeOperands_nonField_eq_ok_iff.mpr ⟨_, _, rfl, hread⟩
  | arg hops hgroup =>
    obtain ⟨ps, hps, hbehind, hread⟩ := hops.exists_cut
    obtain ⟨qs, hqs, hfollows, hreadGroup⟩ := hgroup.exists_cut cfg
    refine ⟨ps ++ qs, hps.append hqs, ?_, ?_⟩
    · intro text
      rw [List.map_append]
      exact hbehind text _ hfollows
    · intro n lineEnd
      rw [lay_append]
      exact takeOperands_arg_eq_ok_iff.mpr ⟨_, _, _, _, rfl, hread .., hreadGroup ..⟩

/-- A name and the operands behind it are tokens that are read as the instruction, with no space
    at either end. -/
theorem exists_tiles_of_written {ins : Instruction} {w : List Char}
    (hname : ins.mnemonic.NamedBy cfg w) (htail : TailWritten cfg ins cs) (n : Nat) :
    ∃ ts, Tiles cfg n (w ++ cs) ts ∧ (∀ lineEnd, ofTokens cfg lineEnd ts = .ok ins) ∧
      ts ≠ [] ∧ front? ts ≠ some .space ∧ ts.getLast?.map lexeme ≠ some .space := by
  obtain ⟨ps, hps, hfollows, hread⟩ := htail.exists_cut
  obtain ⟨hapart, hlast⟩ := hfollows ins.mnemonic.name
  have hcut := hps.cons hname.spelledBy
  have htiles := tiles_lay hcut.spelled hapart n
  rw [hcut.cover] at htiles
  refine ⟨_, htiles, ?_, by simp [lay], by simp [lay, front?], ?_⟩
  · intro lineEnd
    refine ofTokens_eq_ok_iff.mpr ⟨_, _, _, rfl, rfl, ?_, hread ..⟩
    rw [Mnemonic.name, String.toList_ofList]
  · rwa [← List.getLast?_map, map_lexeme_lay]

end Instruction

end MixAsm
