import MixAsm.Proofs.Instruction.IllegalCharacter
import MixAsm.Proofs.Token.Covering

namespace MixAsm

open Token

/-!
# Errors in their lines

An error that is not one of a character quotes the line it is found in. What it quotes starts in the
column that is blamed: a word or a number of the line up to where it ends, a token as messages show
it, or the width of a gap. Where nothing of the line is left, the column behind it is blamed.

* `Token.StartsAt` — a token that starts in a column;
* `Fault.Quotes` — what each fault quotes of a line from a column on;
* `ParseError.Anchored` — the column is one of the line, and the fault quotes what starts there;
* `Instruction.anchored_of_parse` — the errors of lines.
-/

variable {cfg : Config} {line : String} {cs : List Char} {ts : List Token}

/-! ### What is quoted -/

/-- A token of the line with the lexeme `l` starts in the column. -/
def Token.StartsAt (cfg : Config) (line : String) (column : Nat) (l : Lexeme) : Prop :=
  ∃ ts t, tokenize cfg line = .ok ts ∧ t ∈ ts ∧ t.column = column ∧ t.lexeme = l

namespace Fault

/-- The word is the run of letters and digits behind the spaces of the line, as the reader takes
    them, and no opcode has it for its name. -/
structure QuotesWord (cfg : Config) (line : String) (column : Nat) (word : String) : Prop where
  first : column = (line.toList.takeWhile (· = ' ')).length + 1
  run : word.toList = (Text.runAt Char.isAlphanum line.toList column).map cfg.fold
  ne_empty : word ≠ ""
  unknown : ∀ m : Mnemonic, m.name ≠ word

/-- What is found is the end of the line behind it, the width of the gap where one space was
    expected, and else the token that starts in the column. -/
structure QuotesFound (cfg : Config) (line : String) (column : Nat) (expected : Expected)
    (found : String) : Prop where
  endOfLine_iff : found = "end of line" ↔ column = line.length + 1
  spaces : expected = .singleSpace → cfg.collapseSpaces = false ∧
    ∃ k, 2 ≤ k ∧ (Text.runAt (· = ' ') line.toList column).length = k ∧ found = s!"{k} spaces"
  token : expected ≠ .singleSpace → column ≠ line.length + 1 →
    ∃ l, StartsAt cfg line column l ∧ found = l.describe

/-- The literal is the run of digits in the column, and its value is not within the bounds of its
    operand. -/
structure QuotesLiteral (line : String) (column : Nat) (kind : OperandKind) (literal : String) :
    Prop where
  run : literal.toList = Text.runAt Char.isDigit line.toList column
  outside : ∃ v, Text.Numeral v literal.toList ∧ ¬ (kind.min ≤ v ∧ v ≤ kind.max)
  bounds : (kind, kind.min, kind.max) ∈
    [(.address, 0, 3999), (.index, 1, 5), (.fields, 0, 2 ^ 32 - 1), (.argument, 0, 2 ^ 32 - 1)]

/-- What the fault quotes starts in the column of the line. -/
def Quotes (cfg : Config) (line : String) (column : Nat) : Fault → Prop
  | illegalCharacter _ => False
  | unknownMnemonic word => QuotesWord cfg line column word
  | malformed expected found => QuotesFound cfg line column expected found.describe
  | outOfRange kind literal => QuotesLiteral line column kind literal
  | unexpected _ (.lexeme l) => StartsAt cfg line column l
  | unexpected _ .argumentGroup | unexpected _ .fieldGroup => StartsAt cfg line column .leftParen

end Fault

/-- The line is one of ASCII characters, the column is one of its columns or the one behind it, and
    what the error quotes starts there. -/
structure ParseError.Anchored (cfg : Config) (line : String) (e : ParseError) : Prop where
  ascii : ∀ c ∈ line.toList, c.toNat < 128
  one_le : 1 ≤ e.column
  le_length : e.column ≤ line.length + 1
  quotes : e.fault.Quotes cfg line e.column

/-! ### Texts of messages -/

/-- Only the end of a line is called so. -/
theorem Found.describe_eq_endOfLine_iff {f : Found} :
    f.describe = "end of line" ↔ f = .endOfLine := by
  cases f with
  | lexeme l =>
    -- the texts of lexemes start with another character
    have hne : l.describe ≠ "end of line" := by
      intro h
      have := congrArg String.toList h
      cases l <;> simp [Lexeme.describe, toString] at this
    simpa [describe] using hne
  | spaces n =>
    -- the text ends with another character
    have hne : s!"{n} spaces" ≠ "end of line" := by
      intro h
      have := congrArg (·.toList.getLast?) h
      simp [toString] at this
    simpa [describe] using hne
  | endOfLine => simp [describe]

/-! ### Tokens in their line -/

namespace Token

/-- A token of a tiling is spelled out by a run of the characters, and the character behind the run
    does not continue it. -/
theorem Tiles.exists_run {n : Nat} {t : Token} (h : Tiles cfg n cs ts) (ht : t ∈ ts) :
    ∃ pre run post, cs = pre ++ run ++ post ∧ t.column = n + pre.length + 1 ∧
      t.width = run.length ∧ t.lexeme.SpelledBy cfg run ∧
      ∀ d ∈ post.head?, t.lexeme.charClass.continues cfg d = false := by
  obtain ⟨us, vs, rfl⟩ := List.append_of_mem ht
  obtain ⟨pre, rest, rfl, -, hrest⟩ := h.split
  obtain ⟨run, post, rfl, ⟨hstart, hstop⟩, hspelled, hapart, hpost⟩ := Tiles.cons_iff.mp hrest
  refine ⟨pre, run, post, by simp, by rw [column, hstart], ?_, hspelled, ?_⟩
  · rw [width, hstop, hstart, Nat.add_sub_cancel_left]
  · exact (hpost.apart_iff t.lexeme).mp hapart

/-- A token starts in one of the columns of its line. -/
theorem Tiles.column_le {t : Token} (h : Tiles cfg 0 cs ts) (ht : t ∈ ts) :
    1 ≤ t.column ∧ t.column ≤ cs.length := by
  obtain ⟨pre, run, post, rfl, hcolumn, -, hrun, -⟩ := h.exists_run ht
  have hpos : 0 < run.length := List.length_pos_iff.mpr hrun.ne_nil
  simp only [List.length_append]
  omega

/-- The column of some of the tokens is one of their line, or the one behind it. -/
theorem Tiles.columnOf_le (h : Tiles cfg 0 cs ts) {us : List Token} (hsub : us ⊆ ts) :
    1 ≤ columnOf (cs.length + 1) us ∧ columnOf (cs.length + 1) us ≤ cs.length + 1 := by
  cases us with
  | nil => exact ⟨Nat.le_add_left 1 _, Nat.le_refl _⟩
  | cons t us =>
    obtain ⟨hone, hle⟩ := h.column_le (hsub List.mem_cons_self)
    exact ⟨hone, Nat.le_succ_of_le hle⟩

/-- A token of the line starts in its column. -/
theorem Tiles.startsAt {t : Token} (h : Tiles cfg 0 line.toList ts) (ht : t ∈ ts) :
    StartsAt cfg line t.column t.lexeme :=
  ⟨ts, t, scan_eq_ok_iff.mpr h, ht, rfl, rfl⟩

end Token

/-- A character of a token is ASCII. -/
theorem toNat_lt_of_isSome_class {c : Char} (h : (CharClass.of? (cfg.fold c)).isSome) :
    c.toNat < 128 := by
  have hsize : c.val ≤ 127 := Char.utf8Size_eq_one_iff.mp (Config.utf8Size_eq_one h)
  rw [UInt32.le_iff_toNat_le] at hsize
  exact Nat.lt_succ_of_le hsize

/-- Of the characters of tokens, the letters and the digits are those that continue a word. -/
theorem continues_letter_eq_isAlphanum {c : Char} (h : (CharClass.of? (cfg.fold c)).isSome) :
    CharClass.letter.continues cfg c = c.isAlphanum := by
  rw [CharClass.continues, Char.isAlphanum, ← @Config.isAlpha_fold cfg c,
    ← @Config.isDigit_fold cfg c]
  -- a letter is taken for a capital, as it would have no class otherwise
  obtain hupper | hdigit | hmark := CharClass.isSome_of?_iff.mp h
  · rw [hupper, isAlpha_iff.mpr (.inl hupper), Bool.true_or]
  · rw [hdigit, Bool.or_true, Bool.or_true]
  · generalize cfg.fold c = d at hmark
    simp only [List.mem_cons, List.not_mem_nil, or_false] at hmark
    obtain rfl | rfl | rfl | rfl | rfl := hmark <;> rfl

/-! ### Each fault -/

namespace Fault

variable {t : Token}

/-- A word is the run of letters and digits in its column. -/
theorem run_of_word {word : String} (hts : Tiles cfg 0 line.toList ts) (ht : t ∈ ts)
    (hword : t.lexeme = .word word) :
    word.toList = (Text.runAt Char.isAlphanum line.toList t.column).map cfg.fold := by
  obtain ⟨pre, run, post, hline, hcolumn, -, hrun, hpost⟩ := hts.exists_run ht
  rw [hword] at hrun hpost
  obtain ⟨-, hcontinues, rfl⟩ := hrun
  rw [Nat.zero_add] at hcolumn
  rw [hcolumn, hline, Text.runAt_eq, String.toList_ofList]
  · intro c hc
    have hmem : c ∈ line.toList := by
      rw [hline]
      exact List.mem_append_left post (List.mem_append_right pre hc)
    rw [← continues_letter_eq_isAlphanum (hts.isSome_class hmem)]
    simpa [CharClass.continues] using hcontinues c hc
  · intro c hc
    have hmem : c ∈ line.toList := by
      rw [hline]
      exact List.mem_append_right (pre ++ run) (List.mem_of_mem_head? hc)
    rw [← continues_letter_eq_isAlphanum (hts.isSome_class hmem)]
    exact hpost c hc

/-- A token that is no space, with nothing but spaces in front of it, starts in the first column
    without one. -/
theorem column_of_margin {l : List Char} (hts : Tiles cfg 0 line.toList ts) (ht : t ∈ ts)
    (hne : t.lexeme ≠ .space) (hl : l <+: line.toList) (hspace : ∀ c ∈ l, c = ' ')
    (hcolumn : t.column = l.length + 1) :
    t.column = (line.toList.takeWhile (· = ' ')).length + 1 := by
  obtain ⟨pre, run, post, hline, hpre, -, hrun, -⟩ := hts.exists_run ht
  -- the spaces are all that is in front of the token
  obtain rfl : l = pre := by
    have hprefix : pre <+: line.toList := ⟨run ++ post, by rw [hline, List.append_assoc]⟩
    exact (List.prefix_of_prefix_length_le hl hprefix (by omega)).eq_of_length (by omega)
  obtain ⟨c, cs, rfl⟩ := List.exists_cons_of_ne_nil hrun.ne_nil
  have hfirst : c ≠ ' ' := fun hc => hne ((hrun.eq_space_iff List.mem_cons_self).mp hc)
  rw [hcolumn, hline, List.append_assoc, Text.takeWhile_run (by simpa using hspace)]
  simpa using hfirst

/-- A word that names no opcode, with nothing but spaces in front of it, is quoted. -/
theorem quotesWord_of_mem {word : String} {l : List Char} (hts : Tiles cfg 0 line.toList ts)
    (ht : t ∈ ts) (hword : t.lexeme = .word word) (hname : Mnemonic.ofName? word = none)
    (hl : l <+: line.toList) (hspace : ∀ c ∈ l, c = ' ') (hcolumn : t.column = l.length + 1) :
    QuotesWord cfg line t.column word := by
  refine ⟨column_of_margin hts ht (by simp [hword]) hl hspace hcolumn, run_of_word hts ht hword,
    ?_, ?_⟩
  · rintro rfl
    obtain ⟨_, run, _, -, -, -, hrun, -⟩ := hts.exists_run ht
    rw [hword] at hrun
    obtain ⟨⟨c, cs, rfl, -⟩, -, hempty⟩ := hrun
    simp at hempty
  · rintro m rfl
    rw [Mnemonic.ofName?_name] at hname
    cases hname

/-- A number that no operand of the kind has is quoted. -/
theorem quotesLiteral_of_mem {kind : OperandKind} {text : String}
    (hts : Tiles cfg 0 line.toList ts) (ht : t ∈ ts) (hnumber : t.lexeme = .number text)
    (hvalue : kind.Rejects text) : QuotesLiteral line t.column kind text := by
  obtain ⟨pre, run, post, hline, hcolumn, -, hrun, hpost⟩ := hts.exists_run ht
  rw [hnumber] at hrun hpost
  obtain ⟨hdigits, rfl⟩ := hrun
  rw [Nat.zero_add] at hcolumn
  refine ⟨?_, ⟨Text.digitsValue run, ?_, ?_⟩, by cases kind <;> decide⟩
  · rw [hline, hcolumn, String.toList_ofList]
    exact (Text.runAt_eq (fun c => Text.isDigit_of_isNumeral hdigits) hpost pre).symm
  · rw [String.toList_ofList]
    exact Text.numeral_digitsValue hdigits
  · apply hvalue
    rw [String.toList_ofList, Text.literal?_of_isNumeral hdigits]

/-- Where a token stands, neither is the end of the line found nor is its column blamed. -/
theorem describe_eq_endOfLine_iff_of_mem {f : Found} (hts : Tiles cfg 0 line.toList ts)
    (ht : t ∈ ts) (hf : f ≠ .endOfLine) :
    f.describe = "end of line" ↔ t.column = line.length + 1 := by
  have hcolumn := (hts.column_le ht).2
  rw [String.length_toList] at hcolumn
  rw [Found.describe_eq_endOfLine_iff]
  exact iff_of_false hf (by omega)

/-- What is found at the front of some of the tokens is quoted. -/
theorem quotesFound_of_subset {x : Expected} {us : List Token} (hts : Tiles cfg 0 line.toList ts)
    (hsub : us ⊆ ts) (hx : x ≠ .singleSpace) :
    QuotesFound cfg line (columnOf (line.length + 1) us) x (found us).describe := by
  cases us with
  | nil =>
    refine ⟨?_, fun h => absurd h hx, fun _ h => absurd rfl h⟩
    exact iff_of_true (Found.describe_eq_endOfLine_iff.mpr rfl) rfl
  | cons u us =>
    have hu := hsub List.mem_cons_self
    exact ⟨describe_eq_endOfLine_iff_of_mem hts hu nofun, fun h => absurd h hx,
      fun _ _ => ⟨u.lexeme, hts.startsAt hu, rfl⟩⟩

/-- The width of a gap that is too wide is quoted. -/
theorem quotesFound_of_spaces (hts : Tiles cfg 0 line.toList ts) (ht : t ∈ ts)
    (hspace : t.lexeme = .space) (hcollapse : cfg.collapseSpaces = false) (hwidth : 1 < t.width) :
    QuotesFound cfg line t.column .singleSpace (Found.spaces t.width).describe := by
  obtain ⟨pre, run, post, hline, hcolumn, hrunwidth, hrun, hpost⟩ := hts.exists_run ht
  rw [hspace] at hrun hpost
  rw [Nat.zero_add] at hcolumn
  have hrunAt := Text.runAt_eq (p := (· = ' ')) (by simpa using hrun.2) hpost pre
  refine ⟨describe_eq_endOfLine_iff_of_mem hts ht nofun,
    fun _ => ⟨hcollapse, t.width, hwidth, ?_, rfl⟩, fun h => absurd rfl h⟩
  rw [hcolumn, hline, hrunAt, hrunwidth]

end Fault

namespace Instruction

/-- **Anchored errors.** An error that is not one of a character is found in a line of ASCII
    characters, in one of its columns or the one behind it, and quotes what starts there. -/
theorem anchored_of_parse {e : ParseError} (h : parse cfg line = .error e)
    (hkind : e.kind ≠ .lexical) : e.Anchored cfg line := by
  obtain ⟨ts, htokens⟩ := exists_tokenize_of_parse_eq_error h hkind
  obtain ⟨l, core, r, p, us, hline, hl, -, hahead, hsub, hstops⟩ := stops_of_tokenize htokens h
  have hts : Tiles cfg 0 line.toList ts := scan_eq_ok_iff.mp htokens
  obtain ⟨hone, hle⟩ := hts.columnOf_le hsub
  rw [String.length_toList, ← hstops.column_eq] at hone hle
  refine ⟨fun c hc => toNat_lt_of_isSome_class (hts.isSome_class hc), hone, hle, ?_⟩
  cases hstops with
  | malformed hreach _ =>
    refine Fault.quotesFound_of_subset hts hsub ?_
    cases hreach <;> simp
  | spaces _ hspace hcollapse hwidth =>
    exact Fault.quotesFound_of_spaces hts (hsub List.mem_cons_self) hspace hcollapse hwidth
  | unknownMnemonic hword hname =>
    have hprefix : l <+: line.toList := ⟨core ++ r, by rw [hline, List.append_assoc]⟩
    exact Fault.quotesWord_of_mem hts (hsub List.mem_cons_self) hword hname hprefix hl.eq_space
      hahead.columnOf_eq
  | outOfRange _ _ hnumber hvalue =>
    exact Fault.quotesLiteral_of_mem hts (hsub List.mem_cons_self) hnumber hvalue
  | unexpected _ hrefuses =>
    cases hrefuses with
    | closed => exact hts.startsAt (hsub List.mem_cons_self)
    | noGroup => exact hts.startsAt (hsub List.mem_cons_self)
    | argument hparen _ | fields hparen _ =>
      have hstart := hts.startsAt (hsub List.mem_cons_self)
      rwa [hparen] at hstart

/-- The argument is blamed in its own column, though the parenthesis behind it is read first. -/
theorem anchored_of_parse_argument :
    parse {} "IN 1,1(4294967296)" = .error ⟨8, .outOfRange .argument "4294967296"⟩ ∧
      ParseError.Anchored {} "IN 1,1(4294967296)" ⟨8, .outOfRange .argument "4294967296"⟩ :=
  have h : parse {} "IN 1,1(4294967296)" = .error ⟨8, .outOfRange .argument "4294967296"⟩ := by
    decide +kernel
  ⟨h, anchored_of_parse h (by decide)⟩

end Instruction

end MixAsm
