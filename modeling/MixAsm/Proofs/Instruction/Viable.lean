import MixAsm.Proofs.Instruction.RoundTrip

namespace MixAsm

/-!
# Errors in the leftmost place

Where spaces do not collapse, reading stops in the first place that no instruction could go through:
what is in front of the column that is blamed could have gone on as an instruction. Only that a
number in a group is too large is found out late, once the group is closed, so there must be no such
number in front of the column.

* `GroupNumeralsFit` — the numbers in groups in front of a column are 32-bit words;
* `Reaches.exists_complete` — characters behind which something is expected can be completed;
* `Instruction.exists_continuation_of_error` — those in front of the column of an error can.
-/

variable {cfg : Config} {p q d : List Char}

/-- The numbers that end in front of the column and stand right behind an opening parenthesis or a
    colon are 32-bit words. -/
def GroupNumeralsFit (line : List Char) (column : Nat) : Prop :=
  ∀ u m d v, line = u ++ m :: d ++ v → m = '(' ∨ m = ':' → Text.isNumeral d →
    (∀ c ∈ v.head?, c.isDigit = false) → (u ++ m :: d).length < column →
    Text.digitsValue d ≤ 4294967295

/-- A number that ends in one of the first columns fits. -/
theorem groupNumeralsFit_of_le {line : List Char} {column : Nat} (h : column ≤ 11) :
    GroupNumeralsFit line column := by
  intro u m d v _ _ hd _ hlt
  have hlen : d.length ≤ 9 := by
    simp only [List.length_append, List.length_cons] at hlt
    omega
  have hvalue : Text.digitsValue d < 10 ^ d.length := (Text.numeral_digitsValue hd).lt_pow
  have hpow : 10 ^ d.length ≤ 10 ^ 9 := Nat.pow_le_pow_right (by decide) hlen
  omega

/-! ### Operands to go on with -/

/-- A number that fits is a word. -/
theorem exists_word_of_isNumeral (hd : Text.isNumeral d) (hfit : Text.digitsValue d ≤ 4294967295) :
    ∃ w : UInt32, Text.Numeral w.toNat d := by
  cases hw : word32? (Text.digitsValue d) with
  | none =>
    have hlarge := word32?_eq_none_iff.mp hw
    omega
  | some w =>
    refine ⟨w, ?_⟩
    rw [← word32?_eq_some_iff.mp hw]
    exact Text.numeral_digitsValue hd

theorem numeral_zero : Text.Numeral 0 ['0'] := .digit (by decide)

theorem numeral_one : Text.Numeral 1 ['1'] := .digit (by decide)

/-- The least operands, behind a gap. -/
theorem operandsWritten_least {s : List Char} (hgap : IsGap cfg s) :
    OperandsWritten cfg ⟨0, by decide⟩ ⟨1, by decide, by decide⟩ (s ++ ['0', ',', '1']) :=
  ⟨s, ['0'], ['1'], by simp, hgap, numeral_zero, numeral_one⟩

/-- The index one, behind a gap, an address and a comma. -/
theorem operandsWritten_of_address {s : List Char} {a : Address} (hgap : IsGap cfg s)
    (ha : Text.Numeral a.val d) :
    OperandsWritten cfg a ⟨1, by decide, by decide⟩ (s ++ d ++ [',', '1']) :=
  ⟨s, d, ['1'], by simp, hgap, ha, numeral_one⟩

/-! ### Whatever is reached can be completed -/

/-- The number at the end of what is read is a whole one, so it fits. -/
theorem GroupNumeralsFit.of_last {u : List Char} {m : Char}
    (hfit : GroupNumeralsFit (u ++ m :: d ++ q) ((u ++ m :: d).length + 1))
    (hm : m = '(' ∨ m = ':') (hd : Text.isNumeral d)
    (hparted : ∀ c ∈ (u ++ m :: d).getLast?, c.isDigit → ∀ x ∈ q.head?, x.isDigit = false) :
    ∃ w : UInt32, Text.Numeral w.toNat d := by
  have hne : d ≠ [] := (Text.numeral_digitsValue hd).ne_nil
  have hlast : (u ++ m :: d).getLast? = some (d.getLast hne) := by
    rw [List.getLast?_append_of_ne_nil _ (by simp), List.getLast?_cons,
      List.getLast?_eq_some_getLast hne, Option.getD_some]
  have hdigit : (d.getLast hne).isDigit := Text.isDigit_of_isNumeral hd (List.getLast_mem hne)
  exact exists_word_of_isNumeral hd
    (hfit u m d q rfl hm hd (hparted _ hlast hdigit) (by omega))

/-- **Completion.** Characters behind which something is expected can be completed to an
    instruction, if the numbers in its group fit. -/
theorem Reaches.exists_complete {x : Expected} (h : Reaches cfg x p)
    (hfit : GroupNumeralsFit (p ++ q) (p.length + 1))
    (hparted : ∀ c ∈ p.getLast?, c.isDigit → ∀ d ∈ q.head?, d.isDigit = false) :
    ∃ s, ∃ ins : Instruction, ins.Complete cfg (p ++ s) := by
  -- each place is gone on from with the least operands that are missing there
  cases h with
  | mnemonic =>
    exact ⟨_, .onlyName .nop, _, [], (List.append_nil _).symm, Mnemonic.namedBy_spelling cfg _,
      .onlyName⟩
  | space hname hm =>
    obtain ⟨ins, hins⟩ := BehindOperands.exists_complete
      ⟨_, _, rfl, hname, operandsWritten_least isGap_singleton⟩ hm
    exact ⟨_, ins, hins⟩
  | @address m w s hname hm hgap =>
    obtain ⟨ins, hins⟩ := BehindOperands.exists_complete
      ⟨_, _, rfl, hname, operandsWritten_least hgap⟩ hm
    exact ⟨['0', ',', '1'], ins, by simpa using hins⟩
  | comma hname hm hgap ha =>
    obtain ⟨ins, hins⟩ := BehindOperands.exists_complete
      ⟨_, _, rfl, hname, operandsWritten_of_address hgap ha⟩ hm
    exact ⟨[',', '1'], ins, by simpa using hins⟩
  | index hname hm hgap ha =>
    obtain ⟨ins, hins⟩ := BehindOperands.exists_complete
      ⟨_, _, rfl, hname, operandsWritten_of_address hgap ha⟩ hm
    exact ⟨['1'], ins, by simpa using hins⟩
  | fieldStart hops =>
    have hins := hops.complete_field (f := .explicit ⟨0, 0⟩) (.explicit numeral_zero numeral_zero)
    exact ⟨['0', ':', '0', ')'], _, by simpa using hins⟩
  | @fieldColon op a i p d hops hd =>
    -- the bound was read whatever its value, and is a word by assumption
    obtain ⟨l, hl⟩ := GroupNumeralsFit.of_last (u := p) (m := '(') (q := q)
      (by simpa using hfit) (.inl rfl) hd (by simpa using hparted)
    have hins := hops.complete_field (f := .explicit ⟨l, 0⟩) (.explicit hl numeral_zero)
    exact ⟨[':', '0', ')'], _, by simpa using hins⟩
  | @fieldEnd op a i p d hops hd =>
    have hbefore : (p ++ '(' :: d).length < (p ++ ['('] ++ d ++ [':']).length + 1 := by
      simp only [List.length_append, List.length_cons]
      omega
    obtain ⟨l, hl⟩ := exists_word_of_isNumeral hd
      (hfit p '(' d (':' :: q) (by simp) (.inl rfl) hd (by simp) hbefore)
    have hins := hops.complete_field (f := .explicit ⟨l, 0⟩) (.explicit hl numeral_zero)
    exact ⟨['0', ')'], _, by simpa using hins⟩
  | @fieldClose op a i p d₁ d₂ hops hd₁ hd₂ =>
    have hbefore : (p ++ '(' :: d₁).length < (p ++ ['('] ++ d₁ ++ [':'] ++ d₂).length + 1 := by
      simp only [List.length_append, List.length_cons]
      omega
    obtain ⟨l, hl⟩ := exists_word_of_isNumeral hd₁
      (hfit p '(' d₁ (':' :: d₂ ++ q) (by simp) (.inl rfl) hd₁ (by simp) hbefore)
    obtain ⟨r, hr⟩ := GroupNumeralsFit.of_last (u := p ++ '(' :: d₁) (m := ':') (q := q)
      (by simpa using hfit) (.inr rfl) hd₂ (by simpa using hparted)
    have hins := hops.complete_field (f := .explicit ⟨l, r⟩) (.explicit hl hr)
    exact ⟨[')'], _, by simpa using hins⟩
  | argument hops =>
    have hins := hops.complete_arg (n := .explicit ⟨0⟩) (.explicit numeral_zero)
    exact ⟨['0', ')'], _, by simpa using hins⟩
  | @argumentClose op a i p d hops hd =>
    obtain ⟨w, hw⟩ := GroupNumeralsFit.of_last (u := p) (m := '(') (q := q)
      (by simpa using hfit) (.inl rfl) hd (by simpa using hparted)
    have hins := hops.complete_arg (n := .explicit ⟨w⟩) (.explicit hw)
    exact ⟨[')'], _, by simpa using hins⟩

namespace Instruction

/-- **Leftmost error.** Where spaces do not collapse, what is in front of the column of an error,
    unless it is the error of a character, can be completed to a line that is read. -/
theorem exists_continuation_of_error (cfg : Config) (hcollapse : cfg.collapseSpaces = false)
    (line : String) (e : ParseError) (herror : parse cfg line = .error e)
    (hkind : e.kind ≠ .lexical) (hfit : GroupNumeralsFit line.toList e.column) :
    ∃ p q s ins, line.toList = p ++ q ∧ e.column = p.length + 1 ∧
      parse cfg (String.ofList (p ++ s)) = .ok ins := by
  obtain ⟨p, ts, hahead, hstops⟩ := stopsIn_of_parse herror hkind hcollapse
  obtain ⟨q, hq, hts, hparted⟩ := hahead.parted
  have hcolumn : e.column = p.length + 1 := by
    have hbehind := hahead.columnOf_eq
    rw [Nat.zero_add, Nat.zero_add, String.length_toList] at hbehind
    rw [hstops.column_eq, hbehind]
  have hcomplete : ∃ s, ∃ ins : Instruction, ins.Complete cfg (p ++ s) := by
    rw [hcolumn, hq] at hfit
    cases hstops with
    | malformed hreach => exact hreach.exists_complete hfit hparted
    | spaces hreach => exact hreach.exists_complete hfit hparted
    | unknownMnemonic => exact Reaches.mnemonic.exists_complete hfit hparted
    | outOfRange hreach => exact hreach.exists_complete hfit hparted
    | @unexpected ins _ _ _ hins => exact ⟨[], ins, by simpa using hins⟩
  obtain ⟨s, ins, hins⟩ := hcomplete
  exact ⟨p, q, s, ins, hq, hcolumn, hins.parse_eq (l := []) isMargin_nil⟩

/-- An argument that the line ends behind could have been closed. -/
theorem exists_continuation_of_error_unclosed :
    (⟨false, false, true⟩ : Config).collapseSpaces = false ∧
      parse ⟨false, false, true⟩ "IN 1,1(7" = .error ⟨9, .malformed .argumentClose .endOfLine⟩ ∧
      ErrorKind.malformedOperand ≠ .lexical ∧ GroupNumeralsFit "IN 1,1(7".toList 9 ∧
      ∃ p q s ins, "IN 1,1(7".toList = p ++ q ∧ 9 = p.length + 1 ∧
        parse ⟨false, false, true⟩ (String.ofList (p ++ s)) = .ok ins := by
  have herror : parse ⟨false, false, true⟩ "IN 1,1(7"
      = .error ⟨9, .malformed .argumentClose .endOfLine⟩ := by
    decide +kernel
  have hfit : GroupNumeralsFit "IN 1,1(7".toList 9 := groupNumeralsFit_of_le (by decide)
  exact ⟨rfl, herror, by decide, hfit,
    exists_continuation_of_error ⟨false, false, true⟩ rfl _ _ herror (by decide) hfit⟩

end Instruction

end MixAsm
