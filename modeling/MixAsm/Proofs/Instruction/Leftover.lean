import MixAsm.Proofs.Instruction.Language
import MixAsm.Proofs.Token.Places

namespace MixAsm

open Token

/-!
# Instructions with something behind them

A line that goes on behind an instruction, with nothing that the instruction could take, is refused
there, and the instruction's opcode is named. What could not be taken is said in characters: there is
a group already, or the opcode takes none, or what follows is no group, or a group of the other kind.

* `Instruction.ofTokens_append` — what is read stays read with more tokens behind it;
* `Instruction.EndsBefore` — the characters that an instruction cannot be followed by;
* `Instruction.trailingOperand_iff` — the lines that are refused so.
-/

variable {cfg : Config} {lineEnd lineEnd' n : Nat} {cs p q : List Char} {ts us rest : List Token}

/-! ### Reading with more tokens behind -/

namespace Token

theorem takeAddressIndex_append {a : Address} {i : Index}
    (h : takeAddressIndex cfg lineEnd ts = .ok ((a, i), rest)) (lineEnd' : Nat) (us : List Token) :
    takeAddressIndex cfg lineEnd' (ts ++ us) = .ok ((a, i), rest ++ us) := by
  rw [takeAddressIndex_eq_ok_iff] at h ⊢
  obtain ⟨gap, t₁, comma, t₂, text₁, text₂, rfl, h⟩ := h
  exact ⟨gap, t₁, comma, t₂, text₁, text₂, rfl, h⟩

theorem takeFields_append {f : Fields} (h : takeFields lineEnd ts = .ok (f, rest)) (lineEnd' : Nat)
    (us : List Token) : takeFields lineEnd' (ts ++ us) = .ok (f, rest ++ us) := by
  rw [takeFields_eq_ok_iff] at h ⊢
  obtain ⟨t₁, colon, t₂, close, text₁, text₂, rfl, h⟩ := h
  exact ⟨t₁, colon, t₂, close, text₁, text₂, rfl, h⟩

theorem takeArgument_append {a : Argument} (h : takeArgument lineEnd ts = .ok (a, rest))
    (lineEnd' : Nat) (us : List Token) : takeArgument lineEnd' (ts ++ us) = .ok (a, rest ++ us) := by
  rw [takeArgument_eq_ok_iff] at h ⊢
  obtain ⟨t, close, text, rfl, h⟩ := h
  exact ⟨t, close, text, rfl, h⟩

theorem takeFieldSpec_append {m : Mnemonic} {f : Fields}
    (h : takeFieldSpec lineEnd m ts = .ok (.explicit f, rest)) (lineEnd' : Nat) (us : List Token) :
    takeFieldSpec lineEnd' m (ts ++ us) = .ok (.explicit f, rest ++ us) := by
  obtain ⟨hf, -⟩ | ⟨t, vs, rfl, ht, f', hf, htake⟩ := takeFieldSpec_eq_ok_iff.mp h
  · cases hf
  · exact takeFieldSpec_eq_ok_iff.mpr
      (.inr ⟨t, vs ++ us, rfl, ht, f', hf, takeFields_append htake lineEnd' us⟩)

theorem takeArgSpec_append {m : Mnemonic} {a : Argument}
    (h : takeArgSpec lineEnd m ts = .ok (.explicit a, rest)) (lineEnd' : Nat) (us : List Token) :
    takeArgSpec lineEnd' m (ts ++ us) = .ok (.explicit a, rest ++ us) := by
  obtain ⟨ha, -⟩ | ⟨t, vs, rfl, ht, a', ha, htake⟩ := takeArgSpec_eq_ok_iff.mp h
  · cases ha
  · exact takeArgSpec_eq_ok_iff.mpr
      (.inr ⟨t, vs ++ us, rfl, ht, a', ha, takeArgument_append htake lineEnd' us⟩)

end Token

namespace Instruction

variable {ins : Instruction} {leftover : Leftover}

/-- Behind a closed instruction, whatever it is, all tokens are left over. -/
theorem Refuses.finish_eq (h : ins.Refuses us leftover) (hclosed : ins.isClosed) (lineEnd : Nat) :
    finish ins.mnemonic ins us
      = .error ⟨columnOf lineEnd us, .unexpected ins.mnemonic leftover⟩ := by
  cases h with
  | closed | noGroup => rfl
  | argument | fields => cases hclosed

/-- Without a group of fields, what follows the index is refused. -/
theorem Refuses.takeFieldSpec_eq {op : FieldOp} {a : Address} {i : Index}
    (h : (field op a i .default).Refuses us leftover) (lineEnd : Nat) :
    (takeFieldSpec lineEnd (.field op) us >>= fun r => finish (.field op) (field op a i r.1) r.2)
      = .error ⟨columnOf lineEnd us, .unexpected (.field op) leftover⟩ := by
  cases h with
  | closed h => cases h
  | noGroup ht =>
    rw [takeFieldSpec, if_pos ht]
    rfl
  | argument ht hts =>
    rw [takeFieldSpec, if_neg (by simpa using ht), if_pos hts]
    rfl

/-- Without an argument, what follows the index is refused. -/
theorem Refuses.takeArgSpec_eq {op : ArgOp} {a : Address} {i : Index}
    (h : (arg op a i .default).Refuses us leftover) (lineEnd : Nat) :
    (takeArgSpec lineEnd (.arg op) us >>= fun r => finish (.arg op) (arg op a i r.1) r.2)
      = .error ⟨columnOf lineEnd us, .unexpected (.arg op) leftover⟩ := by
  cases h with
  | closed h => cases h
  | noGroup ht =>
    rw [takeArgSpec, if_pos ht]
    rfl
  | fields ht hts =>
    rw [takeArgSpec, if_neg (by simpa using ht), if_pos hts]
    rfl

/-- Operands that are read with nothing behind them are refused with something behind them that
    the instruction refuses. -/
theorem Refuses.takeOperands_eq (hrefuses : ins.Refuses us leftover)
    (h : takeOperands cfg lineEnd ts ins.mnemonic = .ok (ins, [])) (lineEnd' : Nat) :
    (takeOperands cfg lineEnd' (ts ++ us) ins.mnemonic >>= fun r =>
        finish ins.mnemonic r.1 r.2)
      = .error ⟨columnOf lineEnd' us, .unexpected ins.mnemonic leftover⟩ := by
  cases ins with
  | onlyName op =>
    obtain ⟨-, rfl⟩ := takeOperands_onlyName_eq_ok_iff.mp h
    exact hrefuses.finish_eq rfl lineEnd'
  | nonField op a i =>
    obtain ⟨_, _, ⟨⟩, hops⟩ := takeOperands_nonField_eq_ok_iff.mp h
    rw [mnemonic, takeOperands, takeAddressIndex_append hops]
    exact hrefuses.finish_eq rfl lineEnd'
  | field op a i f =>
    obtain ⟨_, _, _, vs, ⟨⟩, hops, hgroup⟩ := takeOperands_field_eq_ok_iff.mp h
    rw [mnemonic, takeOperands, takeAddressIndex_append hops]
    cases f with
    | default =>
      -- no group was read, so one is looked for in the tokens behind
      obtain ⟨-, rfl, -⟩ | ⟨_, _, _, _, _, hf, -⟩ := takeFieldSpec_eq_ok_iff.mp hgroup
      · rw [← hrefuses.takeFieldSpec_eq lineEnd', List.nil_append]
        show (takeFieldSpec lineEnd' (.field op) us >>= _) >>= _ = _
        cases takeFieldSpec lineEnd' (.field op) us <;> rfl
      · cases hf
    | explicit f =>
      -- the group is read as before, and nothing can follow it
      have hread := takeFieldSpec_append hgroup lineEnd' us
      show (takeFieldSpec lineEnd' (.field op) (vs ++ us) >>= _) >>= _ = _
      rw [hread]
      exact hrefuses.finish_eq rfl lineEnd'
  | arg op a i n =>
    obtain ⟨_, _, _, vs, ⟨⟩, hops, hgroup⟩ := takeOperands_arg_eq_ok_iff.mp h
    rw [mnemonic, takeOperands, takeAddressIndex_append hops]
    cases n with
    | default =>
      obtain ⟨-, rfl, -⟩ | ⟨_, _, _, _, _, hn, -⟩ := takeArgSpec_eq_ok_iff.mp hgroup
      · rw [← hrefuses.takeArgSpec_eq lineEnd', List.nil_append]
        show (takeArgSpec lineEnd' (.arg op) us >>= _) >>= _ = _
        cases takeArgSpec lineEnd' (.arg op) us <;> rfl
      · cases hn
    | explicit n =>
      have hread := takeArgSpec_append hgroup lineEnd' us
      show (takeArgSpec lineEnd' (.arg op) (vs ++ us) >>= _) >>= _ = _
      rw [hread]
      exact hrefuses.finish_eq rfl lineEnd'

/-- **Something left over.** Tokens that are read as an instruction are refused with something
    behind them that the instruction refuses, and it is the first token behind them that is to
    blame. -/
theorem ofTokens_append (h : ofTokens cfg lineEnd ts = .ok ins)
    (hrefuses : ins.Refuses us leftover) (lineEnd' : Nat) :
    ofTokens cfg lineEnd' (ts ++ us)
      = .error ⟨columnOf lineEnd' us, .unexpected ins.mnemonic leftover⟩ := by
  obtain ⟨t, vs, text, rfl, ht, hname, hops⟩ := ofTokens_eq_ok_iff.mp h
  have hword : takeWord lineEnd' .mnemonic (t :: vs ++ us) = .ok ((text, t.column), vs ++ us) :=
    takeWord_eq_ok_iff.mpr ⟨t, rfl, ht, rfl⟩
  have hclassify : Mnemonic.classify text t.column = .ok ins.mnemonic :=
    Mnemonic.classify_eq_ok_iff.mpr hname
  rw [ofTokens, hword]
  show (Mnemonic.classify text t.column >>= _) = _
  rw [hclassify]
  exact hrefuses.takeOperands_eq hops lineEnd'

end Instruction

/-! ### What follows, in characters -/

/-- The instruction cannot be followed by the characters: no group can follow it, or no group does,
    or a group of the other kind. -/
inductive Instruction.EndsBefore : Instruction → List Char → Prop
  | closed {ins : Instruction} {q : List Char} (h : ins.isClosed) : EndsBefore ins q
  | noGroup {ins : Instruction} {q : List Char} (h : q.head? ≠ some '(') : EndsBefore ins q
  | argument {op : FieldOp} {a : Address} {i : Index} {d q : List Char} (hd : Text.isNumeral d) :
      EndsBefore (field op a i .default) ('(' :: d ++ ')' :: q)
  | fields {op : ArgOp} {a : Address} {i : Index} {d q : List Char} (hd : Text.isNumeral d) :
      EndsBefore (arg op a i .default) ('(' :: d ++ ':' :: q)

namespace Token.Tiles

/-- A run of digits with a mark behind it is in front of the characters exactly if a number and the
    mark are the first two tokens. -/
theorem startsNumberThen_iff {c : Char} {l : Lexeme} (h : Tiles cfg n q ts)
    (hc : CharClass.of? c = some (.mark l)) :
    startsNumberThen l ts ↔ ∃ d v, q = d ++ c :: v ∧ Text.isNumeral d := by
  rw [Token.startsNumberThen_iff]
  constructor
  · rintro ⟨t, u, us, text, rfl, ht, rfl⟩
    obtain ⟨d, rest, rfl, -, hd, -, hrest⟩ := cons_iff.mp h
    obtain ⟨v, rfl, -⟩ := hrest.exists_of_mark hc
    rw [ht] at hd
    exact ⟨d, v, rfl, hd.1⟩
  · rintro ⟨d, v, rfl, hd⟩
    obtain ⟨x, ds, rfl⟩ := List.exists_cons_of_ne_nil (Text.numeral_digitsValue hd).ne_nil
    have hdigit : ∀ y ∈ x :: ds, y.isDigit := fun y hy => Text.isDigit_of_isNumeral hd hy
    have hx : CharClass.of? (cfg.fold x) = some .digit := by
      rw [CharClass.of?_eq_digit_iff, Config.isDigit_fold]
      exact hdigit x List.mem_cons_self
    -- the mark is no digit, so the number ends in front of it
    have hend : ∀ y ∈ (c :: v).head?, CharClass.digit.continues cfg y = false := by
      rintro y ⟨⟩
      show c.isDigit = false
      rw [Bool.eq_false_iff]
      intro hdigit
      rw [CharClass.of?_eq_digit_iff.mpr hdigit] at hc
      cases hc
    obtain ⟨t, us, rfl, ht, hus⟩ := h.exists_of_class hx
      (fun y hy => hdigit y (List.mem_cons_of_mem x hy)) hend
    obtain ⟨u, vs, rfl, hu, -⟩ := hus.exists_of_markChar hc
    exact ⟨t, u, vs, _, rfl, ht, hu⟩

end Token.Tiles

namespace Instruction

/-- An instruction refuses tokens exactly if it ends before the characters that they tile. -/
theorem exists_refuses_iff {ins : Instruction} {t : Token} (h : Tiles cfg n q (t :: ts)) :
    (∃ leftover, ins.Refuses (t :: ts) leftover) ↔ ins.EndsBefore q := by
  have hparen : q.head? = some '(' ↔ t.lexeme = .leftParen := h.head?_eq_some_iff rfl
  -- behind an opening parenthesis, tokens and characters go on alike
  have hbehind : t.lexeme = .leftParen → ∃ rest, q = '(' :: rest ∧ Tiles cfg (n + 1) rest ts := by
    intro ht
    exact h.exists_of_mark (by rw [ht]; rfl)
  constructor
  · rintro ⟨leftover, hrefuses⟩
    cases hrefuses with
    | closed hclosed => exact .closed hclosed
    | noGroup ht =>
      apply EndsBefore.noGroup
      rwa [Ne, hparen]
    | argument ht hstart =>
      obtain ⟨rest, rfl, hts⟩ := hbehind ht
      obtain ⟨d, v, rfl, hd⟩ := (hts.startsNumberThen_iff (c := ')') rfl).mp hstart
      exact .argument hd
    | fields ht hstart =>
      obtain ⟨rest, rfl, hts⟩ := hbehind ht
      obtain ⟨d, v, rfl, hd⟩ := (hts.startsNumberThen_iff (c := ':') rfl).mp hstart
      exact .fields hd
  · intro hends
    cases hends with
    | closed hclosed => exact ⟨_, .closed hclosed⟩
    | noGroup hhead =>
      rw [Ne, hparen] at hhead
      exact ⟨_, .noGroup hhead⟩
    | argument hd =>
      have ht := hparen.mp rfl
      obtain ⟨rest, hrest, hts⟩ := hbehind ht
      obtain rfl := (List.cons.inj hrest).2
      have hstart := (hts.startsNumberThen_iff rfl).mpr ⟨_, _, rfl, hd⟩
      exact ⟨_, .argument ht hstart⟩
    | fields hd =>
      have ht := hparen.mp rfl
      obtain ⟨rest, hrest, hts⟩ := hbehind ht
      obtain rfl := (List.cons.inj hrest).2
      have hstart := (hts.startsNumberThen_iff rfl).mpr ⟨_, _, rfl, hd⟩
      exact ⟨_, .fields ht hstart⟩

end Instruction

/-! ### Whole lines -/

/-- An error of this kind names an opcode and what is left over. -/
theorem ParseError.kind_eq_trailingOperand_iff {e : ParseError} :
    e.kind = .trailingOperand ↔ ∃ c m leftover, e = ⟨c, .unexpected m leftover⟩ := by
  obtain ⟨column, fault⟩ := e
  cases fault <;> simp [kind, Fault.kind]

namespace Instruction

/-- What is left over is ahead of an instruction that refuses it, between the margins. -/
theorem exists_of_parse_unexpected {line : String} {c : Nat} {m : Mnemonic} {leftover : Leftover}
    (h : parse cfg line = .error ⟨c, .unexpected m leftover⟩) :
    ∃ l core r p t us, ∃ ins : Instruction, line.toList = l ++ core ++ r ∧ IsMargin cfg l ∧
      IsMargin cfg r ∧ Ahead cfg l.length core p (t :: us) ∧ ins.Complete cfg p ∧
      ins.Refuses (t :: us) leftover ∧ ins.mnemonic = m ∧ c = t.column := by
  obtain ⟨l, core, r, hline, hl, hr, p, ts, hahead, hstops⟩ :=
    stops_of_parse h (by simp [ParseError.kind, Fault.kind])
  obtain ⟨ins, hm, hcomplete, hrefuses⟩ := hstops.exists_of_unexpected
  have hcolumn : c = columnOf (line.length + 1) ts := hstops.column_eq
  obtain ⟨t, us, rfl⟩ : ∃ t us, ts = t :: us := by
    cases hrefuses <;> exact ⟨_, _, rfl⟩
  exact ⟨l, core, r, p, t, us, ins, hline, hl, hr, hahead, hcomplete, hrefuses, hm, hcolumn⟩

/-- A line that is refused for what is left over starts with a line that is read. -/
theorem exists_parse_of_unexpected {line : String} {c : Nat} {m : Mnemonic} {leftover : Leftover}
    (h : parse cfg line = .error ⟨c, .unexpected m leftover⟩) :
    ∃ p q ins, line.toList = p ++ q ∧ q ≠ [] ∧ c = p.length + 1 ∧
      parse cfg (String.ofList p) = .ok ins ∧ ins.mnemonic = m := by
  obtain ⟨l, core, r, p, t, us, ins, hline, hl, -, hahead, hcomplete, -, hm, rfl⟩ :=
    exists_of_parse_unexpected h
  obtain ⟨q, rfl, hq, -⟩ := hahead.parted
  obtain ⟨run, rest, rfl, ⟨hstart, -⟩, hrun, -⟩ := Tiles.cons_iff.mp hq
  refine ⟨l ++ p, run ++ rest ++ r, ins, by simp [hline], ?_, ?_, hcomplete.parse_eq hl, hm⟩
  · simp [hrun.ne_nil]
  · rw [column, hstart, List.length_append]

/-- Where spaces do not collapse, it is cut between two tokens, in front of something that the
    instruction cannot be followed by. -/
theorem endsBefore_of_unexpected {line : String} {ts : List Token} {c : Nat} {m : Mnemonic}
    {leftover : Leftover} (htokens : tokenize cfg line = .ok ts)
    (hcollapse : cfg.collapseSpaces = false)
    (h : parse cfg line = .error ⟨c, .unexpected m leftover⟩) :
    ∃ p q ins, line.toList = p ++ q ∧ q ≠ [] ∧ c = p.length + 1 ∧ IsBoundary ts p.length ∧
      parse cfg (String.ofList p) = .ok ins ∧ ins.EndsBefore q := by
  obtain ⟨l, core, r, p, t, us, ins, hline, hl, hr, hahead, hcomplete, hrefuses, -, rfl⟩ :=
    exists_of_parse_unexpected h
  obtain rfl := hl.eq_nil hcollapse
  obtain rfl := hr.eq_nil hcollapse
  rw [List.nil_append, List.append_nil] at hline
  subst hline
  -- the tokens that are read and those that are left over are the tokens of the line
  obtain ⟨read, hread⟩ := hahead.exists_tiles
  obtain rfl : ts = read ++ t :: us := (scan_eq_ok_iff.mp htokens).eq_of_tiles hread
  obtain ⟨q, hpq, hq, -⟩ := hahead.parted
  have hends : ins.EndsBefore q := (exists_refuses_iff hq).mp ⟨leftover, hrefuses⟩
  obtain ⟨run, rest, rfl, ⟨hstart, -⟩, hrun, -⟩ := Tiles.cons_iff.mp hq
  rw [List.length_nil, Nat.zero_add] at hstart
  refine ⟨p, run ++ rest, ins, hpq, by simp [hrun.ne_nil], by rw [column, hstart],
    ⟨t, by simp, .inl hstart⟩, hcomplete.parse_eq (l := []) isMargin_nil, hends⟩

/-- Where spaces do not collapse, a line that is cut so is refused for what is behind the cut. -/
theorem parse_unexpected_of_endsBefore {line : String} {ts : List Token} {ins : Instruction}
    (htokens : tokenize cfg line = .ok ts) (hcollapse : cfg.collapseSpaces = false)
    (hline : line.toList = p ++ q) (hne : q ≠ []) (hboundary : IsBoundary ts p.length)
    (hread : parse cfg (String.ofList p) = .ok ins) (hends : ins.EndsBefore q) :
    ∃ leftover, parse cfg line = .error ⟨p.length + 1, .unexpected ins.mnemonic leftover⟩ := by
  have hts : Tiles cfg 0 (p ++ q) ts := by
    rw [← hline]
    exact scan_eq_ok_iff.mp htokens
  obtain ⟨ts₁, ts₂, rfl, hp, hq⟩ := hts.split_of_isBoundary (by rwa [Nat.zero_add])
  -- the tokens in front of the cut are the ones of the line that is read
  obtain ⟨us, hus, hofTokens⟩ := parse_eq_ok_iff.mp hread
  rw [String.toList_ofList] at hus
  obtain rfl := hus.eq_of_tiles hp
  rw [hcollapse, if_neg Bool.false_ne_true] at hofTokens
  obtain ⟨t, vs, rfl⟩ : ∃ t vs, ts₂ = t :: vs := by
    cases hq with
    | nil => exact absurd rfl hne
    | cons => exact ⟨_, _, rfl⟩
  obtain ⟨leftover, hrefuses⟩ := (exists_refuses_iff hq).mpr hends
  refine ⟨leftover, ?_⟩
  -- the first token behind the cut is to blame
  have hcolumn : columnOf (line.length + 1) (t :: vs) = p.length + 1 := by
    obtain ⟨-, -, -, ⟨hstart, -⟩, -⟩ := Tiles.cons_iff.mp hq
    show t.start + 1 = p.length + 1
    rw [hstart, Nat.zero_add]
  rw [parse, htokens, hcollapse, ← hcolumn]
  exact ofTokens_append hofTokens hrefuses (line.length + 1)

/-- **Trailing operand.** A line of tokens that is refused for what is left over starts with a line
    that is read, ends in what is left over, and its error names the opcode of what is read. Where
    spaces do not collapse, a line is refused so exactly if it can be cut between tokens into a line
    that is read and something that the instruction cannot be followed by. -/
theorem trailingOperand_iff (cfg : Config) (line : String) (ts : List Token)
    (htokens : tokenize cfg line = .ok ts) :
    (∀ e, parse cfg line = .error e → e.kind = .trailingOperand →
      ∃ p q ins leftover, line.toList = p ++ q ∧ q ≠ [] ∧ parse cfg (String.ofList p) = .ok ins ∧
        e = ⟨p.length + 1, .unexpected ins.mnemonic leftover⟩ ∧
        e.message =
          s!"unexpected {leftover.describe} after `{ins.mnemonic.name}` at column {p.length + 1}") ∧
    (cfg.collapseSpaces = false → ∀ c,
      (∃ e, parse cfg line = .error e ∧ e.kind = .trailingOperand ∧ e.column = c) ↔
        ∃ p q ins, line.toList = p ++ q ∧ q ≠ [] ∧ c = p.length + 1 ∧ IsBoundary ts p.length ∧
          parse cfg (String.ofList p) = .ok ins ∧ ins.EndsBefore q) := by
  refine ⟨?_, ?_⟩
  · intro e herror hkind
    obtain ⟨c, m, leftover, rfl⟩ := ParseError.kind_eq_trailingOperand_iff.mp hkind
    obtain ⟨p, q, ins, hline, hne, rfl, hread, rfl⟩ := exists_parse_of_unexpected herror
    exact ⟨p, q, ins, leftover, hline, hne, hread, rfl, rfl⟩
  · intro hcollapse c
    constructor
    · rintro ⟨e, herror, hkind, rfl⟩
      obtain ⟨c, m, leftover, rfl⟩ := ParseError.kind_eq_trailingOperand_iff.mp hkind
      exact endsBefore_of_unexpected htokens hcollapse herror
    · rintro ⟨p, q, ins, hline, hne, rfl, hboundary, hread, hends⟩
      obtain ⟨leftover, herror⟩ :=
        parse_unexpected_of_endsBefore htokens hcollapse hline hne hboundary hread hends
      exact ⟨_, herror, rfl, rfl⟩

/-- A field specification is left over behind an opcode that takes an argument. -/
theorem trailingOperand_iff_fieldGroup :
    tokenize ⟨false, false, true⟩ "IN 1,1(2:3)" =
        .ok [⟨.word "IN", 0, 2⟩, ⟨.space, 2, 3⟩, ⟨.number "1", 3, 4⟩, ⟨.comma, 4, 5⟩,
          ⟨.number "1", 5, 6⟩, ⟨.leftParen, 6, 7⟩, ⟨.number "2", 7, 8⟩, ⟨.colon, 8, 9⟩,
          ⟨.number "3", 9, 10⟩, ⟨.rightParen, 10, 11⟩] ∧
      ∃ e, parse ⟨false, false, true⟩ "IN 1,1(2:3)" = .error e ∧ e.kind = .trailingOperand ∧
        e.column = 7 := by
  have htokens : tokenize ⟨false, false, true⟩ "IN 1,1(2:3)" =
      .ok [⟨.word "IN", 0, 2⟩, ⟨.space, 2, 3⟩, ⟨.number "1", 3, 4⟩, ⟨.comma, 4, 5⟩,
        ⟨.number "1", 5, 6⟩, ⟨.leftParen, 6, 7⟩, ⟨.number "2", 7, 8⟩, ⟨.colon, 8, 9⟩,
        ⟨.number "3", 9, 10⟩, ⟨.rightParen, 10, 11⟩] := by
    decide +kernel
  refine ⟨htokens, ((trailingOperand_iff ⟨false, false, true⟩ _ _ htokens).2 rfl 7).mpr ?_⟩
  have hread : parse ⟨false, false, true⟩ (String.ofList ['I', 'N', ' ', '1', ',', '1'])
      = .ok (.arg .input ⟨1, by decide⟩ ⟨1, by decide, by decide⟩ .default) := by
    decide +kernel
  exact ⟨_, ['(', '2', ':', '3', ')'], _, rfl, by decide, rfl,
    ⟨⟨.leftParen, 6, 7⟩, by simp, .inl rfl⟩, hread, .fields (d := ['2']) rfl⟩

end Instruction

end MixAsm
