import MixAsm.Proofs.Instruction.Pieces
import MixAsm.Proofs.Instruction.Progress
import MixAsm.Proofs.Text.Lines
import MixAsm.Proofs.Token.Alphabet
import MixAsm.Proofs.Token.Trim

namespace MixAsm

open Token

/-!
# The language of the reader

The reader accepts the lines of the grammar and no others, and reads each as the instruction that
the grammar gives it.

* `Instruction.written_of_parse`, `Instruction.parse_of_written` — the two halves, for a line;
* `Instruction.parse_eq_ok_iff_written` — the two together;
* `Instruction.stops_of_tokenize` — where reading stops in any other line of tokens.
-/

variable {cfg : Config} {lineEnd n : Nat} {cs : List Char} {ts : List Token}

namespace Instruction

/-- Tokens that are read as an instruction cover its name and its operands. -/
theorem written_of_ofTokens {ins : Instruction} (h : ofTokens cfg lineEnd ts = .ok ins)
    (hts : Tiles cfg n cs ts) :
    ∃ w t, cs = w ++ t ∧ ins.mnemonic.NamedBy cfg w ∧ TailWritten cfg ins t :=
  (yields_ofTokens hts).of_ok h

/-! ### Whole lines -/

/-- A line is read exactly if its tokens are, without the spaces around them where spaces
    collapse. -/
theorem parse_eq_ok_iff {line : String} {ins : Instruction} :
    parse cfg line = .ok ins ↔
      ∃ ts, Tiles cfg 0 line.toList ts ∧
        ofTokens cfg (line.length + 1) (if cfg.collapseSpaces then trimSpaces ts else ts)
          = .ok ins := by
  rw [parse, tokenize, bind_eq_ok_iff]
  simp only [scan_eq_ok_iff]

/-- **Soundness.** A line that is read as an instruction is one that the grammar gives it. -/
theorem written_of_parse {line : String} {ins : Instruction} (h : parse cfg line = .ok ins) :
    ins.Written cfg line.toList := by
  obtain ⟨ts, hts, hread⟩ := parse_eq_ok_iff.mp h
  by_cases hcollapse : cfg.collapseSpaces
  · -- the space tokens that are trimmed off are the margins
    rw [if_pos hcollapse] at hread
    obtain ⟨l, core, r, hline, hl, hr, hcore⟩ := hts.exists_trim
    obtain ⟨w, t, rfl, hw, ht⟩ := written_of_ofTokens hread hcore
    have hmargin : ∀ s, (∀ c ∈ s, c = ' ') → IsMargin cfg s := by
      intro s hs
      rwa [IsMargin, if_pos hcollapse]
    exact ⟨l, w, t, r, by simpa using hline, hmargin l hl, hw, ht, hmargin r hr⟩
  · -- nothing is trimmed off, and there are no margins
    rw [if_neg hcollapse] at hread
    obtain ⟨w, t, hline, hw, ht⟩ := written_of_ofTokens hread hts
    have hmargin : IsMargin cfg [] := by simp [IsMargin]
    exact ⟨[], w, t, [], by simpa using hline, hmargin, hw, ht, hmargin⟩

/-- A line that is not read has tokens, unless a character is to blame. -/
theorem exists_tokenize_of_parse_eq_error {line : String} {e : ParseError}
    (h : parse cfg line = .error e) (hkind : e.kind ≠ .lexical) :
    ∃ ts, tokenize cfg line = .ok ts := by
  cases htokens : tokenize cfg line with
  | ok ts => exact ⟨ts, rfl⟩
  | error e' =>
    -- the tokens of a line are missing for the sake of a character only
    rw [parse, htokens] at h
    obtain rfl : e' = e := Except.error.inj h
    obtain ⟨pre, c, post, -, -, -, rfl⟩ := scan_eq_error_iff.mp htokens
    exact absurd rfl hkind

/-- A line of tokens that is not read is one in which reading stops, in front of tokens of the line.
    Where spaces collapse, it does so between the margins. -/
theorem stops_of_tokenize {line : String} {e : ParseError} (htokens : tokenize cfg line = .ok ts)
    (h : parse cfg line = .error e) :
    ∃ l core r p us, line.toList = l ++ core ++ r ∧ IsMargin cfg l ∧ IsMargin cfg r ∧
      Ahead cfg l.length core p us ∧ us ⊆ ts ∧ Stops cfg (line.length + 1) p us e := by
  have hts : Tiles cfg 0 line.toList ts := scan_eq_ok_iff.mp htokens
  rw [parse, htokens] at h
  change ofTokens cfg _ _ = .error e at h
  -- the tokens that are ahead are some of those that the reader was given
  have hstop : ∀ {n core vs}, Tiles cfg n core vs → ofTokens cfg (line.length + 1) vs = .error e →
      ∃ p us, Ahead cfg n core p us ∧ us ⊆ vs ∧ Stops cfg (line.length + 1) p us e := by
    intro n core vs hcore hread
    obtain ⟨p, us, hahead, hstops⟩ := (yields_ofTokens hcore).of_error hread
    obtain ⟨read, htiles⟩ := hahead.exists_tiles
    obtain rfl := hcore.eq_of_tiles htiles
    exact ⟨p, us, hahead, List.subset_append_right read us, hstops⟩
  by_cases hcollapse : cfg.collapseSpaces
  · rw [if_pos hcollapse] at h
    obtain ⟨l, core, r, hline, hl, hr, hcore⟩ := hts.exists_trim
    have hmargin : ∀ s, (∀ c ∈ s, c = ' ') → IsMargin cfg s := by
      intro s hs
      rwa [IsMargin, if_pos hcollapse]
    rw [Nat.zero_add] at hcore
    obtain ⟨p, us, hahead, hsub, hstops⟩ := hstop hcore h
    have htrim : trimSpaces ts ⊆ ts := by
      obtain ⟨pre, post, -, -, hsplit⟩ := exists_trimSpaces ts
      intro t ht
      rw [hsplit]
      simp [ht]
    exact ⟨l, core, r, p, us, hline, hmargin l hl, hmargin r hr, hahead,
      List.Subset.trans hsub htrim, hstops⟩
  · rw [if_neg hcollapse] at h
    obtain ⟨p, us, hahead, hsub, hstops⟩ := hstop hts h
    exact ⟨[], line.toList, [], p, us, by simp, isMargin_nil, isMargin_nil, hahead, hsub, hstops⟩

/-- A line that is not read is one in which reading stops, unless a character is to blame. -/
theorem stops_of_parse {line : String} {e : ParseError} (h : parse cfg line = .error e)
    (hkind : e.kind ≠ .lexical) :
    ∃ l core r, line.toList = l ++ core ++ r ∧ IsMargin cfg l ∧ IsMargin cfg r ∧
      StopsIn cfg (line.length + 1) l.length core e := by
  obtain ⟨ts, htokens⟩ := exists_tokenize_of_parse_eq_error h hkind
  obtain ⟨l, core, r, p, us, hline, hl, hr, hahead, -, hstops⟩ := stops_of_tokenize htokens h
  exact ⟨l, core, r, hline, hl, hr, p, us, hahead, hstops⟩

/-- Where spaces do not collapse, it stops somewhere in the whole line. -/
theorem stopsIn_of_parse {line : String} {e : ParseError} (h : parse cfg line = .error e)
    (hkind : e.kind ≠ .lexical) (hcollapse : cfg.collapseSpaces = false) :
    StopsIn cfg (line.length + 1) 0 line.toList e := by
  obtain ⟨l, core, r, hline, hl, hr, hstops⟩ := stops_of_parse h hkind
  obtain rfl := hl.eq_nil hcollapse
  obtain rfl := hr.eq_nil hcollapse
  rw [hline]
  simpa using hstops

/-- **Completeness.** A line of the grammar is read as the instruction that it writes. -/
theorem parse_of_written {line : String} {ins : Instruction} (h : ins.Written cfg line.toList) :
    parse cfg line = .ok ins := by
  obtain ⟨l, w, t, r, hline, hl, hw, ht, hr⟩ := h
  rw [parse_eq_ok_iff, hline]
  by_cases hcollapse : cfg.collapseSpaces
  · -- the tokens of the instruction start where the left margin ends
    obtain ⟨ts, hts, hread, hne, hfirst, hlast⟩ := exists_tiles_of_written hw ht (0 + l.length)
    obtain ⟨us, hus, htrim⟩ :=
      hts.exists_surround hl.eq_space hr.eq_space hne hfirst hlast
    refine ⟨us, by simpa using hus, ?_⟩
    rw [if_pos hcollapse, htrim]
    exact hread _
  · obtain ⟨ts, hts, hread, -⟩ := exists_tiles_of_written hw ht 0
    rw [IsMargin, if_neg hcollapse] at hl hr
    subst hl hr
    refine ⟨ts, by simpa using hts, ?_⟩
    rw [if_neg hcollapse]
    exact hread _

/-- The characters of an instruction are read behind any margin. -/
theorem Complete.parse_eq {ins : Instruction} {l p : List Char} (h : ins.Complete cfg p)
    (hl : IsMargin cfg l) : parse cfg (String.ofList (l ++ p)) = .ok ins := by
  obtain ⟨w, t, rfl, hname, ht⟩ := h
  apply parse_of_written
  rw [String.toList_ofList]
  exact ⟨l, w, t, [], by simp, hl, hname, ht, isMargin_nil⟩

/-- **Language of the reader.** A line is read as an instruction exactly if it writes the
    instruction. -/
theorem parse_eq_ok_iff_written (cfg : Config) (line : String) (ins : Instruction) :
    parse cfg line = .ok ins ↔ ins.Written cfg line.toList :=
  ⟨written_of_parse, parse_of_written⟩

/-! ### Lines of a text -/

/-- Every character of a line that is read has a class. -/
theorem isSome_class_of_parse {line : String} {ins : Instruction} (h : parse cfg line = .ok ins)
    {c : Char} (hc : c ∈ line.toList) : (CharClass.of? (cfg.fold c)).isSome := by
  obtain ⟨ts, hts, -⟩ := parse_eq_ok_iff.mp h
  exact hts.isSome_class hc

/-- A line that is read could stand in a text as it is. -/
theorem isLine_of_parse {line : String} {ins : Instruction} (h : parse cfg line = .ok ins) :
    Text.IsLine line.toList := by
  have hclass : ∀ c ∈ line.toList, CharClass.of? (cfg.fold c) ≠ none := by
    intro c hc
    exact Option.isSome_iff_ne_none.mp (isSome_class_of_parse h hc)
  constructor
  · intro hmem
    apply hclass '\n' hmem
    rw [Config.fold_of_not_isAlpha (by decide)]
    decide
  · intro hlast
    apply hclass '\r' (List.mem_of_getLast? hlast)
    rw [Config.fold_of_not_isAlpha (by decide)]
    decide

/-- A line that is read is not blank, as it names an opcode. -/
theorem isBlank_of_parse {line : String} {ins : Instruction} (h : parse cfg line = .ok ins) :
    Text.isBlank line.toList = false := by
  obtain ⟨l, w, t, r, hline, -, hw, -, -⟩ := written_of_parse h
  -- the first character of the name is taken for a capital, so it is a letter
  obtain ⟨⟨c, cs, rfl, hupper⟩, -⟩ := hw.spelledBy
  have halpha : (cfg.fold c).isAlpha := isAlpha_iff.mpr (.inl hupper)
  rw [Config.isAlpha_fold] at halpha
  rw [hline, Text.isBlank, List.all_eq_false]
  exact ⟨c, by simp, by simp [isBlankChar_of_isAlpha halpha]⟩

end Instruction

end MixAsm
