import Mathlib.Data.String.Basic
import MixAsm.Proofs.Token.Tiling

namespace MixAsm

open String (utf8Len)

/-!
# Tokens cover their line

The tokens of a line described by their places alone, which are counted in bytes: one token starts
where the one before it stops, from the first byte of the line to the last, each is written by the
bytes in its place, and no two neighbours would run together into one token.

* `IsSlice` — the characters in some of the bytes of a line;
* `Token.Covers` — tokens that cover a line from a byte on;
* `Token.tokenize_eq_ok_iff_covers` — the tokens of a line are the ones that cover it.
-/

variable {cfg : Config}

/-! ### Bytes and characters -/

/-- The bytes of the line from `start` up to and without `stop` are those of the characters
    `run`. -/
def IsSlice (line : List Char) (start stop : Nat) (run : List Char) : Prop :=
  ∃ pre post, line = pre ++ run ++ post ∧ utf8Len pre = start ∧ start + utf8Len run = stop

/-- Characters at the front of a list are told by the number of their bytes. -/
theorem eq_of_utf8Len_eq {pre pre' rest rest' : List Char} (h : pre ++ rest = pre' ++ rest')
    (hlen : utf8Len pre = utf8Len pre') : pre = pre' := by
  -- one of the two goes on where the other stops, with characters that have no bytes
  obtain ⟨more, rfl, -⟩ | ⟨more, rfl, -⟩ := List.append_eq_append_iff.mp h
  · rw [String.utf8Len_append] at hlen
    have hmore : utf8Len more = 0 := by omega
    rw [String.utf8Len_eq_zero.mp hmore, List.append_nil]
  · rw [String.utf8Len_append] at hlen
    have hmore : utf8Len more = 0 := by omega
    rw [String.utf8Len_eq_zero.mp hmore, List.append_nil]

/-- A character that a token can hold is one byte. -/
theorem Config.utf8Size_eq_one {c : Char} (h : (CharClass.of? (cfg.fold c)).isSome) :
    c.utf8Size = 1 := by
  have hascii : c.toNat ≤ 127 := by
    obtain ⟨cls, hcls⟩ := Option.isSome_iff_exists.mp h
    cases cls with
    | letter =>
      have halpha : (cfg.fold c).isAlpha :=
        isAlpha_iff.mpr (.inl (CharClass.of?_eq_letter_iff.mp hcls))
      rw [Config.isAlpha_fold, isAlpha_iff, isUpper_iff, isLower_iff] at halpha
      omega
    | digit =>
      have hdigit : c.isDigit := by simpa using CharClass.of?_eq_digit_iff.mp hcls
      have hrange : 48 ≤ c.toNat ∧ c.toNat ≤ 57 := Char.isDigit_iff_toNat.mp hdigit
      omega
    | space =>
      rw [(Config.fold_eq_iff (by decide)).mp (CharClass.of?_eq_space_iff.mp hcls)]
      decide
    | mark l =>
      obtain ⟨hc, -⟩ | ⟨hc, -⟩ | ⟨hc, -⟩ | ⟨hc, -⟩ := CharClass.of?_eq_mark_iff.mp hcls <;>
        rw [(Config.fold_eq_iff (by decide)).mp hc] <;> decide
  rw [Char.utf8Size_eq_one_iff, UInt32.le_iff_toNat_le]
  exact hascii

/-- The characters that write a lexeme are as many as their bytes. -/
theorem Lexeme.SpelledBy.utf8Len_eq {l : Lexeme} {run : List Char} (h : l.SpelledBy cfg run) :
    utf8Len run = run.length := by
  have hone : ∀ c ∈ run, c.utf8Size = 1 := fun c hc => Config.utf8Size_eq_one (h.isSome_class hc)
  clear h
  induction run with
  | nil => rfl
  | cons c cs ih =>
    rw [String.utf8Len_cons, hone c List.mem_cons_self,
      ih fun d hd => hone d (List.mem_cons_of_mem c hd), List.length_cons]

/-! ### Places -/

namespace Token

/-- The tokens cover the line from the byte `n` on: there are none exactly if no byte is left, the
    first one starts at `n`, each starts where the one before it stops, and the last one stops
    where the line ends; none is empty, each is written by the bytes in its place, and no two
    neighbours run together. -/
structure Covers (cfg : Config) (line : List Char) (n : Nat) (ts : List Token) : Prop where
  eq_nil_iff : ts = [] ↔ n = utf8Len line
  first : ∀ t ∈ ts.head?, t.start = n
  adjacent : ts.IsChain fun t u => t.stop = u.start
  last : ∀ t ∈ ts.getLast?, t.stop = utf8Len line
  nonempty : ∀ t ∈ ts, t.start < t.stop
  spelled : ∀ t ∈ ts, ∃ run, IsSlice line t.start t.stop run ∧ t.lexeme.SpelledBy cfg run
  apart : ts.IsChain fun t u => t.lexeme.glues u.lexeme = false

variable {line pre cs : List Char} {n : Nat} {t : Token} {ts : List Token}

theorem covers_nil_iff : Covers cfg line n [] ↔ n = utf8Len line := by
  constructor
  · intro h
    exact h.eq_nil_iff.mp rfl
  · intro h
    exact ⟨by simpa using h, by simp, by simp, by simp, by simp, by simp, by simp⟩

/-- A token that is written has bytes, all of them in its line. -/
theorem bounds_of_slice {start stop : Nat} (h : ∃ run, IsSlice line start stop run ∧
    t.lexeme.SpelledBy cfg run) : start < stop ∧ stop ≤ utf8Len line := by
  obtain ⟨run, ⟨pre, post, rfl, rfl, rfl⟩, hrun⟩ := h
  have hpos : 0 < run.length := List.length_pos_iff.mpr hrun.ne_nil
  rw [← hrun.utf8Len_eq] at hpos
  simp only [String.utf8Len_append]
  omega

/-- Tokens cover a line exactly if the first one starts where they do, and the others cover the
    line from where the first one stops. -/
theorem covers_cons_iff :
    Covers cfg line n (t :: ts) ↔
      t.start = n ∧ (∃ run, IsSlice line t.start t.stop run ∧ t.lexeme.SpelledBy cfg run) ∧
        (∀ u ∈ ts.head?, t.lexeme.glues u.lexeme = false) ∧ Covers cfg line t.stop ts := by
  constructor
  · intro h
    obtain ⟨hstart, hadjacent⟩ := List.isChain_cons.mp h.adjacent
    obtain ⟨hglue, hapart⟩ := List.isChain_cons.mp h.apart
    obtain ⟨-, hnonempty⟩ := List.forall_mem_cons.mp h.nonempty
    obtain ⟨hspelled, hothers⟩ := List.forall_mem_cons.mp h.spelled
    refine ⟨h.first t rfl, hspelled, hglue, ?_, fun u hu => (hstart u hu).symm, hadjacent, ?_,
      hnonempty, hothers, hapart⟩
    · cases ts with
      | nil => simpa using h.last t rfl
      | cons u us =>
        -- a second token has bytes, so the first one does not stop at the end
        have hu := bounds_of_slice (hothers u List.mem_cons_self)
        have hstop : t.stop = u.start := hstart u rfl
        have hne : t.stop ≠ utf8Len line := by omega
        simpa using hne
    · cases ts with
      | nil => simp
      | cons u us => simpa using h.last
  · rintro ⟨hstart, hspelled, hglue, h⟩
    obtain ⟨hlt, hle⟩ := bounds_of_slice hspelled
    have hne : n ≠ utf8Len line := by omega
    refine ⟨by simpa using hne, by simpa using hstart, ?_, ?_, ?_, ?_, ?_⟩
    · exact List.isChain_cons.mpr ⟨fun u hu => (h.first u hu).symm, h.adjacent⟩
    · cases ts with
      | nil => simpa using h.eq_nil_iff.mp rfl
      | cons u us => simpa using h.last
    · exact List.forall_mem_cons.mpr ⟨hlt, h.nonempty⟩
    · exact List.forall_mem_cons.mpr ⟨hspelled, h.spelled⟩
    · exact List.isChain_cons.mpr ⟨hglue, h.apart⟩

/-- Behind characters of one byte each, tokens tile what is left of a line exactly if they cover
    it. -/
theorem tiles_iff_covers (hpre : utf8Len pre = pre.length) :
    Tiles cfg pre.length cs ts ↔ Covers cfg (pre ++ cs) pre.length ts := by
  induction ts generalizing pre cs with
  | nil =>
    rw [covers_nil_iff, String.utf8Len_append, hpre]
    constructor
    · intro h
      cases h
      simp
    · intro h
      have hcs : utf8Len cs = 0 := by omega
      rw [String.utf8Len_eq_zero.mp hcs]
      exact .nil
  | cons t ts ih =>
    have hlen : ∀ {run}, t.lexeme.SpelledBy cfg run →
        utf8Len (pre ++ run) = (pre ++ run).length := by
      intro run hrun
      rw [String.utf8Len_append, List.length_append, hpre, hrun.utf8Len_eq]
    rw [Tiles.cons_iff, covers_cons_iff]
    constructor
    · rintro ⟨run, rest, rfl, ⟨hstart, hstop⟩, hspelled, hapart, hts⟩
      have hrun : utf8Len run = run.length := hspelled.utf8Len_eq
      refine ⟨hstart, ⟨run, ⟨pre, rest, by simp, ?_, ?_⟩, hspelled⟩, hapart, ?_⟩
      · rw [hpre, hstart]
      · rw [hstart, hstop, hrun]
      · rw [← List.length_append, ih (hlen hspelled)] at hts
        rwa [hstop, ← List.append_assoc, ← List.length_append]
    · rintro ⟨hstart, ⟨run, ⟨pre', rest, hline, hpre', hstop⟩, hspelled⟩, hapart, hts⟩
      -- what is in front of the token in the line is what was read, as it has as many bytes
      obtain rfl : pre = pre' := by
        rw [List.append_assoc] at hline
        exact eq_of_utf8Len_eq hline (by rw [hpre', hstart, hpre])
      rw [List.append_assoc, List.append_cancel_left_eq] at hline
      subst hline
      have hstop' : t.stop = pre.length + run.length := by
        rw [← hstop, hstart, hspelled.utf8Len_eq]
      refine ⟨run, rest, rfl, ⟨hstart, hstop'⟩, hspelled, hapart, ?_⟩
      rw [← List.length_append, ih (hlen hspelled)]
      rwa [hstop', ← List.append_assoc, ← List.length_append] at hts

/-- **Tokens of a line.** The tokens of a line cover it, and no other list of tokens does. A line
    without tokens is covered by none. -/
theorem tokenize_eq_ok_iff_covers (cfg : Config) (line : String) (ts : List Token) :
    tokenize cfg line = .ok ts ↔ Covers cfg line.toList 0 ts := by
  rw [tokenize, scan_eq_ok_iff]
  have hstart : utf8Len ([] : List Char) = ([] : List Char).length := rfl
  exact tiles_iff_covers hstart

end Token

end MixAsm
