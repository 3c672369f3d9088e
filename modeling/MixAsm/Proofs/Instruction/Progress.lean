import MixAsm.Proofs.Instruction.Steps
import MixAsm.Proofs.Instruction.Stops
import MixAsm.Proofs.Token.Places

namespace MixAsm

open Token

/-!
# How far reading gets

Each step of the reader is described by what it has read if it succeeds, and by where reading stops
if it does not. The steps are put together as the reader puts them together, so the whole reader
reads an instruction or stops in a place that is known.

* `Ahead` — the characters that are read, and the tokens of those that are not;
* `Token.yields_takeAddressIndex` and its companions — one lemma per step;
* `Instruction.yields_ofTokens` — all the tokens of a line.
-/

variable {cfg : Config} {lineEnd n : Nat} {cs p : List Char} {t : Token} {ts : List Token}

/-! ### Tokens ahead -/

/-- Of the characters `cs`, which start at the position `n`, those in `p` are tiled by the tokens
    that are read, and the others by the tokens that are ahead. -/
def Ahead (cfg : Config) (n : Nat) (cs p : List Char) (ts : List Token) : Prop :=
  ∃ q read, cs = p ++ q ∧ Tiles cfg n p read ∧ Tiles cfg (n + p.length) q ts ∧
    ∀ t ∈ read.getLast?, ∀ u ∈ ts.head?, t.lexeme.glues u.lexeme = false

/-- The column of the tokens is the one that their characters start in. -/
theorem Token.Tiles.columnOf_eq (h : Tiles cfg n cs ts) :
    columnOf (n + cs.length + 1) ts = n + 1 := by
  cases h <;> rfl

/-- Reading stops somewhere in the characters. -/
def StopsIn (cfg : Config) (lineEnd n : Nat) (cs : List Char) (e : ParseError) : Prop :=
  ∃ p ts, Ahead cfg n cs p ts ∧ Stops cfg lineEnd p ts e

/-- A lexeme with a digit in it takes in the digits behind it. -/
theorem Lexeme.SpelledBy.continues_of_isDigit {l : Lexeme} {run : List Char}
    (h : l.SpelledBy cfg run) {c d : Char} (hc : c ∈ run) (hdigit : c.isDigit) (hd : d.isDigit) :
    l.charClass.continues cfg d := by
  have hne : ∀ c', c'.isDigit = false → c ≠ c' := by
    rintro c' hc' rfl
    rw [hdigit] at hc'
    cases hc'
  cases l with
  | word text => simp [charClass, CharClass.continues, hd]
  | number text => simpa [charClass, CharClass.continues] using hd
  | space => exact absurd (h.2 c hc) (hne ' ' rfl)
  | leftParen | rightParen | colon | comma =>
    obtain rfl : run = _ := h
    exact absurd (List.mem_singleton.mp hc) (hne _ rfl)

namespace Ahead

theorem start (h : Tiles cfg n cs ts) : Ahead cfg n cs [] ts :=
  ⟨cs, [], rfl, .nil, by simpa using h, by simp⟩

/-- Once no token is ahead, all the characters are read. -/
theorem eq_of_nil (h : Ahead cfg n cs p []) : cs = p := by
  obtain ⟨q, read, rfl, -, hq, -⟩ := h
  cases hq
  rw [List.append_nil]

/-- The column of what is ahead is the one behind the characters that are read. -/
theorem columnOf_eq (h : Ahead cfg n cs p ts) :
    columnOf (n + cs.length + 1) ts = n + p.length + 1 := by
  obtain ⟨q, read, rfl, -, hq, -⟩ := h
  rw [List.length_append, ← Nat.add_assoc, hq.columnOf_eq]

/-- The tokens that are read and those that are ahead tile all the characters. -/
theorem exists_tiles (h : Ahead cfg n cs p ts) : ∃ read, Tiles cfg n cs (read ++ ts) := by
  obtain ⟨q, read, rfl, hread, hq, hapart⟩ := h
  exact ⟨read, hread.append hq hapart⟩

/-- The first token ahead is spelled out behind the characters that are read, and once it is read
    too, the other tokens are ahead. -/
theorem cons (h : Ahead cfg n cs p (t :: ts)) :
    ∃ run, t.lexeme.SpelledBy cfg run ∧ t.width = run.length ∧ Ahead cfg n cs (p ++ run) ts := by
  obtain ⟨q, read, rfl, hread, hq, hapart⟩ := h
  obtain ⟨run, rest, rfl, ⟨hstart, hstop⟩, hrun, hnext, hts⟩ := Tiles.cons_iff.mp hq
  have hwidth : t.width = run.length := by rw [width, hstop, hstart, Nat.add_sub_cancel_left]
  have htoken : Tiles cfg (n + p.length) run [t] :=
    Tiles.cons_iff.mpr ⟨run, [], by simp, ⟨hstart, hstop⟩, hrun, by simp, .nil⟩
  refine ⟨run, hrun, hwidth, rest, read ++ [t], by simp, ?_, ?_, ?_⟩
  · exact hread.append htoken hapart
  · rwa [List.length_append, ← Nat.add_assoc]
  · simpa using hnext

theorem mark {c : Char} (h : Ahead cfg n cs p (t :: ts))
    (hc : CharClass.of? c = some (.mark t.lexeme)) : Ahead cfg n cs (p ++ [c]) ts := by
  obtain ⟨run, hrun, -, hts⟩ := h.cons
  rwa [hrun.eq_of_mark hc] at hts

/-- No number goes on from the characters that are read into those that are not. -/
theorem parted (h : Ahead cfg n cs p ts) :
    ∃ q, cs = p ++ q ∧ Tiles cfg (n + p.length) q ts ∧
      ∀ c ∈ p.getLast?, c.isDigit → ∀ d ∈ q.head?, d.isDigit = false := by
  obtain ⟨q, read, rfl, hread, hq, hapart⟩ := h
  refine ⟨q, rfl, hq, ?_⟩
  intro c hc hdigit d hd
  obtain rfl | ⟨init, t, rfl⟩ := List.eq_nil_or_concat' read
  · cases hread
    simp at hc
  · -- the last token that is read has the digit in it, so it would have taken in another one
    obtain ⟨p₁, run, rfl, -, ht⟩ := hread.split
    obtain ⟨run, _, rfl, -, hrun, -, hnil⟩ := Tiles.cons_iff.mp ht
    cases hnil
    rw [List.append_nil, List.getLast?_append_of_ne_nil _ hrun.ne_nil] at hc
    have hcontinues := (hq.apart_iff t.lexeme).mp (hapart t (by simp)) d hd
    rw [Bool.eq_false_iff]
    intro hd
    rw [hrun.continues_of_isDigit (List.mem_of_getLast? hc) hdigit hd] at hcontinues
    cases hcontinues

end Ahead

/-! ### Single steps -/

namespace Token

theorem yields_takeLexeme {l : Lexeme} {x : Expected} {c : Char} (h : Ahead cfg n cs p ts)
    (hreach : Reaches cfg x p) (hx : x.mark? = some l) (hc : CharClass.of? c = some (.mark l)) :
    Yields (Ahead cfg n cs (p ++ [c])) (StopsIn cfg lineEnd n cs) (takeLexeme lineEnd l x ts) := by
  cases ts with
  | nil => exact ⟨p, [], h, .malformed hreach (by simp [front?])⟩
  | cons t ts =>
    rw [takeLexeme]
    split
    · next ht => exact h.mark (by rwa [ht])
    · next ht =>
      refine ⟨p, t :: ts, h, .malformed hreach ?_⟩
      rintro l' ⟨⟩
      rw [Bool.eq_false_iff]
      intro hl'
      exact ht (Expected.eq_of_fits hx hl')

/-- A word at the front is a name, or it is to blame. -/
theorem yields_takeWord (h : Ahead cfg n cs [] ts) :
    Yields (fun r => ∃ w, (Lexeme.word r.1.1).SpelledBy cfg w ∧ Ahead cfg n cs w r.2 ∧
        ∀ e, Mnemonic.classify r.1.1 r.1.2 = .error e → StopsIn cfg lineEnd n cs e)
      (StopsIn cfg lineEnd n cs) (takeWord lineEnd .mnemonic ts) := by
  cases ts with
  | nil => exact ⟨[], [], h, .malformed .mnemonic (by simp [front?])⟩
  | cons t ts =>
    rw [takeWord]
    split
    · next word hword =>
      obtain ⟨w, hw, -, hts⟩ := h.cons
      rw [hword] at hw
      refine ⟨w, hw, hts, fun e he => ?_⟩
      unfold Mnemonic.classify at he
      split at he
      · cases he
      · next hname =>
        cases he
        exact ⟨[], t :: ts, h, .unknownMnemonic hword hname⟩
    · next hother =>
      refine ⟨[], t :: ts, h, .malformed .mnemonic ?_⟩
      rintro l ⟨⟩
      exact Expected.mnemonic_fits_eq_false hother

theorem yields_takeGap (h : Ahead cfg n cs p ts) (hreach : Reaches cfg .space p) :
    Yields (fun rest => ∃ s, IsGap cfg s ∧ Ahead cfg n cs (p ++ s) rest)
      (StopsIn cfg lineEnd n cs) (takeGap cfg lineEnd ts) := by
  cases ts with
  | nil => exact ⟨p, [], h, .malformed hreach (by simp [front?])⟩
  | cons t ts =>
    rw [takeGap]
    obtain ⟨s, hs, hwidth, hts⟩ := h.cons
    by_cases hspace : t.lexeme = .space
    · rw [if_pos hspace]
      rw [hspace] at hs
      split
      · next hnarrow =>
        rw [Bool.or_eq_true, decide_eq_true_eq, hwidth] at hnarrow
        exact ⟨s, isGap_iff.mpr ⟨hs.1, hs.2, hnarrow⟩, hts⟩
      · next hwide =>
        rw [Bool.or_eq_true, decide_eq_true_eq, not_or, Bool.not_eq_true, Nat.not_le] at hwide
        exact ⟨p, t :: ts, h, .spaces hreach hspace hwide.1 hwide.2⟩
    · rw [if_neg hspace]
      refine ⟨p, t :: ts, h, .malformed hreach ?_⟩
      rintro l ⟨⟩
      exact Expected.space_fits_eq_false hspace

/-- A number was read behind the characters: its literal, its digits, the tokens behind it, and that
    it is to blame if its literal is out of range. -/
structure NumberRead (cfg : Config) (lineEnd n : Nat) (cs p : List Char) (x : Expected)
    (d : List Char) (r : (String × Nat) × List Token) : Prop where
  numeral : Text.isNumeral d
  text_eq : r.1.1 = String.ofList d
  ahead : Ahead cfg n cs (p ++ d) r.2
  blame : ∀ kind, x.kind? = some kind → kind.Rejects r.1.1 →
    StopsIn cfg lineEnd n cs ⟨r.1.2, .outOfRange kind r.1.1⟩

theorem yields_takeNumber {x : Expected} {kind : OperandKind} (h : Ahead cfg n cs p ts)
    (hreach : Reaches cfg x p) (hx : x.kind? = some kind) :
    Yields (fun r => ∃ d, NumberRead cfg lineEnd n cs p x d r) (StopsIn cfg lineEnd n cs)
      (takeNumber lineEnd x ts) := by
  cases ts with
  | nil => exact ⟨p, [], h, .malformed hreach (by simp [front?])⟩
  | cons t ts =>
    rw [takeNumber]
    split
    · next text htext =>
      obtain ⟨d, hd, -, hts⟩ := h.cons
      rw [htext] at hd
      refine ⟨d, hd.1, hd.2, hts, fun kind hkind hrejects => ?_⟩
      exact ⟨p, t :: ts, h, .outOfRange hreach hkind htext hrejects⟩
    · next hother =>
      refine ⟨p, t :: ts, h, .malformed hreach ?_⟩
      rintro l ⟨⟩
      exact Expected.fits_eq_false hx hother

/-! ### Operands -/

namespace NumberRead

variable {x : Expected} {d : List Char} {r : (String × Nat) × List Token}

/-- What a literal with a value writes is a numeral of that value. -/
theorem numeral_of_literal? (h : NumberRead cfg lineEnd n cs p x d r) {v : Nat}
    (hv : Text.literal? r.1.1.toList = some v) : Text.Numeral v d := by
  rw [h.text_eq, String.toList_ofList, Text.literal?_of_isNumeral h.numeral,
    Option.some.injEq] at hv
  exact Text.numeral_iff.mpr ⟨h.numeral, hv⟩

/-- The number is read as an operand with its value, or it is out of bounds. -/
theorem yields_parse {α : Type} {kind : OperandKind} {accept : Nat → Option α}
    (h : NumberRead cfg lineEnd n cs p x d r) (hx : x.kind? = some kind)
    (haccept : ∀ v, accept v = none → ¬ (kind.min ≤ v ∧ v ≤ kind.max)) :
    Yields (fun y => ∃ v, Text.Numeral v d ∧ accept v = some y) (StopsIn cfg lineEnd n cs)
      (kind.parse accept r.1.1 r.1.2) := by
  unfold OperandKind.parse
  split
  · next y hy =>
    obtain ⟨v, hv, hy⟩ := Option.bind_eq_some_iff.mp hy
    exact ⟨v, h.numeral_of_literal? hv, hy⟩
  · next hnone =>
    apply h.blame kind hx
    intro v hv
    rw [hv, Option.bind_some] at hnone
    exact haccept v hnone

end NumberRead

theorem yields_takeAddressIndex {m : Mnemonic} {w : List Char} (hname : m.NamedBy cfg w)
    (hm : m.category ≠ .onlyName) (h : Ahead cfg n cs w ts) :
    Yields (fun r => ∃ t, OperandsWritten cfg r.1.1 r.1.2 t ∧ Ahead cfg n cs (w ++ t) r.2)
      (StopsIn cfg lineEnd n cs) (takeAddressIndex cfg lineEnd ts) := by
  refine (yields_takeGap h (.space hname hm)).bind ?_
  rintro ts ⟨s, hgap, h⟩
  refine (yields_takeNumber h (.address hname hm hgap) rfl).bind ?_
  rintro ⟨⟨text, column⟩, ts⟩ ⟨d₁, hd₁⟩
  -- the bounds of an address are looked at before the comma is
  refine (hd₁.yields_parse rfl fun v => Address.ofNat?_eq_none_iff.mp).bind ?_
  rintro a ⟨v, hv, ha⟩
  obtain rfl := Address.ofNat?_eq_some_iff.mp ha
  refine (yields_takeLexeme (c := ',') hd₁.ahead (.comma hname hm hgap hv) rfl rfl).bind ?_
  intro ts h
  refine (yields_takeNumber h (.index hname hm hgap hv) rfl).bind ?_
  rintro ⟨⟨text, column⟩, ts⟩ ⟨d₂, hd₂⟩
  refine (hd₂.yields_parse rfl fun v => Index.ofNat?_eq_none_iff.mp).bind ?_
  rintro i ⟨v, hv', hi⟩
  obtain rfl := Index.ofNat?_eq_some_iff.mp hi
  exact ⟨s ++ d₁ ++ ',' :: d₂, ⟨s, d₁, d₂, rfl, hgap, hv, hv'⟩, by simpa using hd₂.ahead⟩

/-- The bounds are looked at when the group is closed, the left one first. -/
theorem yields_takeFields {op : FieldOp} {a : Address} {i : Index}
    (hops : BehindOperands cfg (.field op) a i p) (h : Ahead cfg n cs (p ++ ['(']) ts) :
    Yields (fun r => ∃ g, (FieldSpec.explicit r.1).Written g ∧ Ahead cfg n cs (p ++ g) r.2)
      (StopsIn cfg lineEnd n cs) (takeFields lineEnd ts) := by
  refine (yields_takeNumber h (.fieldStart hops) rfl).bind ?_
  rintro ⟨⟨left, leftColumn⟩, ts⟩ ⟨d₁, hd₁⟩
  refine (yields_takeLexeme (c := ':') hd₁.ahead (.fieldColon hops hd₁.numeral) rfl rfl).bind ?_
  intro ts h
  refine (yields_takeNumber h (.fieldEnd hops hd₁.numeral) rfl).bind ?_
  rintro ⟨⟨right, rightColumn⟩, ts⟩ ⟨d₂, hd₂⟩
  refine (yields_takeLexeme (c := ')') hd₂.ahead (.fieldClose hops hd₁.numeral hd₂.numeral) rfl
    rfl).bind ?_
  intro ts h
  have haccept : ∀ v, word32? v = none →
      ¬ (OperandKind.fields.min ≤ v ∧ v ≤ OperandKind.fields.max) := by
    intro v hv
    rw [word32?_eq_none_iff] at hv
    simp [OperandKind.max, hv]
  -- the left bound is blamed first, and each in the place that it was read in
  have hfields : Yields (fun f : Fields => (FieldSpec.explicit f).Written
      ('(' :: d₁ ++ ':' :: d₂ ++ [')'])) (StopsIn cfg lineEnd n cs)
      (Fields.parse left leftColumn right rightColumn) := by
    refine (hd₁.yields_parse rfl haccept).bind ?_
    rintro l ⟨v, hv, hl⟩
    obtain rfl := word32?_eq_some_iff.mp hl
    refine (hd₂.yields_parse rfl haccept).bind ?_
    rintro r ⟨v, hv', hr⟩
    obtain rfl := word32?_eq_some_iff.mp hr
    exact .explicit hv hv'
  refine hfields.bind ?_
  intro f hf
  exact ⟨_, hf, by simpa using h⟩

theorem yields_takeArgument {op : ArgOp} {a : Address} {i : Index}
    (hops : BehindOperands cfg (.arg op) a i p) (h : Ahead cfg n cs (p ++ ['(']) ts) :
    Yields (fun r => ∃ g, (ArgSpec.explicit r.1).Written g ∧ Ahead cfg n cs (p ++ g) r.2)
      (StopsIn cfg lineEnd n cs) (takeArgument lineEnd ts) := by
  refine (yields_takeNumber h (.argument hops) rfl).bind ?_
  rintro ⟨⟨text, column⟩, ts⟩ ⟨d, hd⟩
  refine (yields_takeLexeme (c := ')') hd.ahead (.argumentClose hops hd.numeral) rfl rfl).bind ?_
  intro ts h
  have haccept : ∀ v, (word32? v).map Argument.mk = none →
      ¬ (OperandKind.argument.min ≤ v ∧ v ≤ OperandKind.argument.max) := by
    intro v hv
    rw [Option.map_eq_none_iff, word32?_eq_none_iff] at hv
    simp [OperandKind.max, hv]
  refine (hd.yields_parse rfl haccept).bind ?_
  rintro a ⟨v, hv, ha⟩
  obtain ⟨w, hw, rfl⟩ := Option.map_eq_some_iff.mp ha
  obtain rfl := word32?_eq_some_iff.mp hw
  exact ⟨'(' :: d ++ [')'], .explicit hv, by simpa using h⟩

/-! ### Groups in parentheses -/

/-- **Optional group.** Where no parenthesis is in front nothing is read; a group of the other kind
    is refused in front of its parenthesis; and any other group is read behind it. -/
private theorem yields_group {α β : Type} {error : ParseError} {other : Lexeme}
    {take : List Token → Except ParseError (α × List Token)} {absent : β} {written : α → β}
    {Q : β × List Token → Prop} {E : ParseError → Prop}
    (habsent : t.lexeme ≠ .leftParen → Q (absent, t :: ts))
    (herror : t.lexeme = .leftParen → startsNumberThen other ts → E error)
    (htake : t.lexeme = .leftParen → Yields (fun r => Q (written r.1, r.2)) E (take ts)) :
    Yields Q E
      (if t.lexeme ≠ .leftParen then .ok (absent, t :: ts)
        else if startsNumberThen other ts then .error error
        else (take ts).map fun (x, rest) => (written x, rest)) := by
  by_cases hparen : t.lexeme = .leftParen
  · rw [if_neg (by simpa using hparen)]
    split
    · next hstart => exact herror hparen hstart
    · exact (htake hparen).map fun _ hr => hr
  · rw [if_pos hparen]
    exact habsent hparen

theorem yields_takeFieldSpec {op : FieldOp} {a : Address} {i : Index}
    (hops : BehindOperands cfg (.field op) a i p) (h : Ahead cfg n cs p ts) :
    Yields (fun r => ∃ g, r.1.Written g ∧ Ahead cfg n cs (p ++ g) r.2 ∧
        (r.1 = .default → front? r.2 ≠ some .leftParen))
      (StopsIn cfg lineEnd n cs) (takeFieldSpec lineEnd (.field op) ts) := by
  cases ts with
  | nil => exact ⟨[], .default, by simpa using h, by simp [front?]⟩
  | cons t ts =>
    refine yields_group (fun hparen => ?_) (fun hparen hstart => ?_) (fun hparen => ?_)
    · exact ⟨[], .default, by simpa using h, by simpa [front?] using hparen⟩
    · -- without a group the instruction is complete, and the argument is left over
      have hcomplete := hops.complete_field .default
      rw [List.append_nil] at hcomplete
      exact ⟨p, t :: ts, h, .unexpected hcomplete (.argument hparen hstart)⟩
    · have hts : Ahead cfg n cs (p ++ ['(']) ts := h.mark (by rw [hparen]; rfl)
      refine (yields_takeFields hops hts).imp ?_
      rintro ⟨f, rest⟩ ⟨g, hg, hrest⟩
      exact ⟨g, hg, hrest, by simp⟩

theorem yields_takeArgSpec {op : ArgOp} {a : Address} {i : Index}
    (hops : BehindOperands cfg (.arg op) a i p) (h : Ahead cfg n cs p ts) :
    Yields (fun r => ∃ g, r.1.Written g ∧ Ahead cfg n cs (p ++ g) r.2 ∧
        (r.1 = .default → front? r.2 ≠ some .leftParen))
      (StopsIn cfg lineEnd n cs) (takeArgSpec lineEnd (.arg op) ts) := by
  cases ts with
  | nil => exact ⟨[], .default, by simpa using h, by simp [front?]⟩
  | cons t ts =>
    refine yields_group (fun hparen => ?_) (fun hparen hstart => ?_) (fun hparen => ?_)
    · exact ⟨[], .default, by simpa using h, by simpa [front?] using hparen⟩
    · -- without a group the instruction is complete, and the field specification is left over
      have hcomplete := hops.complete_arg .default
      rw [List.append_nil] at hcomplete
      exact ⟨p, t :: ts, h, .unexpected hcomplete (.fields hparen hstart)⟩
    · have hts : Ahead cfg n cs (p ++ ['(']) ts := h.mark (by rw [hparen]; rfl)
      refine (yields_takeArgument hops hts).imp ?_
      rintro ⟨a, rest⟩ ⟨g, hg, hrest⟩
      exact ⟨g, hg, hrest, by simp⟩

end Token

/-! ### Whole lines -/

namespace Instruction

/-- Behind the operands comes nothing that could have been read. -/
theorem yields_takeOperands {m : Mnemonic} {w : List Char} (hname : m.NamedBy cfg w)
    (h : Ahead cfg n cs w ts) :
    Yields (fun r => r.1.mnemonic = m ∧ (∃ t, TailWritten cfg r.1 t ∧ Ahead cfg n cs (w ++ t) r.2) ∧
        ∀ t us, r.2 = t :: us → r.1.Refuses r.2 (.lexeme t.lexeme))
      (StopsIn cfg lineEnd n cs) (takeOperands cfg lineEnd ts m) := by
  cases m with
  | onlyName op =>
    refine ⟨rfl, ⟨[], .onlyName, by simpa using h⟩, ?_⟩
    rintro t us rfl
    exact .closed rfl
  | field op =>
    refine (yields_takeAddressIndex hname (by simp [Mnemonic.category]) h).bind ?_
    rintro ⟨⟨a, i⟩, ts⟩ ⟨t, ht, h⟩
    refine (yields_takeFieldSpec ⟨w, t, rfl, hname, ht⟩ h).bind ?_
    rintro ⟨f, ts⟩ ⟨g, hg, h, hfront⟩
    refine ⟨rfl, ⟨t ++ g, .field ht hg, by simpa using h⟩, ?_⟩
    rintro u us rfl
    -- only a group could be read here, and a default stands for one that is not in front
    cases f with
    | default => exact .noGroup (by simpa [front?] using hfront)
    | explicit f => exact .closed rfl
  | nonField op =>
    refine (yields_takeAddressIndex hname (by simp [Mnemonic.category]) h).bind ?_
    rintro ⟨⟨a, i⟩, ts⟩ ⟨t, ht, h⟩
    refine ⟨rfl, ⟨t, .nonField ht, h⟩, ?_⟩
    rintro u us rfl
    exact .closed rfl
  | arg op =>
    refine (yields_takeAddressIndex hname (by simp [Mnemonic.category]) h).bind ?_
    rintro ⟨⟨a, i⟩, ts⟩ ⟨t, ht, h⟩
    refine (yields_takeArgSpec ⟨w, t, rfl, hname, ht⟩ h).bind ?_
    rintro ⟨f, ts⟩ ⟨g, hg, h, hfront⟩
    refine ⟨rfl, ⟨t ++ g, .arg ht hg, by simpa using h⟩, ?_⟩
    rintro u us rfl
    cases f with
    | default => exact .noGroup (by simpa [front?] using hfront)
    | explicit f => exact .closed rfl

/-- **Progress.** Tokens that tile some characters are read as an instruction that the characters
    write, or reading stops somewhere in them. -/
theorem yields_ofTokens (h : Tiles cfg n cs ts) :
    Yields (fun ins => Complete cfg ins cs) (StopsIn cfg lineEnd n cs)
      (ofTokens cfg lineEnd ts) := by
  refine (yields_takeWord (.start h)).bind ?_
  rintro ⟨⟨word, column⟩, ts⟩ ⟨w, hw, h, hblame⟩
  have hclassify : Yields (fun m : Mnemonic => m.NamedBy cfg w) (StopsIn cfg lineEnd n cs)
      (Mnemonic.classify word column) := by
    cases hm : Mnemonic.classify word column with
    | ok m =>
      have hword : word = String.ofList (w.map cfg.fold) := hw.2.2
      apply Mnemonic.namedBy_iff.mpr
      rw [← Mnemonic.classify_eq_ok_iff.mp hm, hword, String.toList_ofList]
    | error e => exact hblame e hm
  -- behind a known name the operands follow, and nothing behind those
  refine hclassify.bind ?_
  intro m hname
  refine (yields_takeOperands hname h).bind ?_
  rintro ⟨ins, ts⟩ ⟨rfl, ⟨t, ht, h⟩, hrefuses⟩
  cases ts with
  | nil => exact ⟨w, t, h.eq_of_nil, hname, ht⟩
  | cons u us => exact ⟨w ++ t, u :: us, h, .unexpected ⟨w, t, rfl, hname, ht⟩ (hrefuses u us rfl)⟩

end Instruction

end MixAsm
