import Mathlib.Data.List.Chain
import MixAsm.Proofs.Outcome
import MixAsm.Proofs.Text.Runs
import MixAsm.Proofs.Token.CharClass
import MixAsm.Text.Decimal

namespace MixAsm

/-!
# Tokens tile their line

Cutting a line into tokens is described without the way the cutting is done: the tokens lie side
by side, each is written by the characters in its place, and no two neighbours would run together
into one token. There is one such list of tokens at most, and it is the one that is found.

* `Lexeme.SpelledBy` — the characters that write a lexeme;
* `Lexeme.glues` — the lexemes that cannot be told apart without something between them;
* `Token.Tiles` — tokens that cover a list of characters side by side;
* `Token.scan_eq_ok_iff` — the tokens of a list of characters are the ones that tile it.
-/

variable {cfg : Config}

/-! ### The characters of one lexeme -/

namespace Lexeme

/-- Do the characters `run` write the lexeme? A word keeps its letters as the reader takes them. -/
def SpelledBy (cfg : Config) (run : List Char) : Lexeme → Prop
  | word text =>
    (∃ c cs, run = c :: cs ∧ (cfg.fold c).isUpper) ∧
      (∀ c ∈ run, (cfg.fold c).isUpper ∨ c.isDigit) ∧ text = String.ofList (run.map cfg.fold)
  | number text => Text.isNumeral run ∧ text = String.ofList run
  | leftParen => run = ['(']
  | rightParen => run = [')']
  | colon => run = [':']
  | comma => run = [',']
  | space => run ≠ [] ∧ ∀ c ∈ run, c = ' '

/-- Would the lexeme take in the one behind it, if the two were written without a gap? -/
def glues : Lexeme → Lexeme → Bool
  | word _, word _ | word _, number _ | number _, number _ | space, space => true
  | _, _ => false

/-- A space runs together with nothing but a space. -/
theorem glues_space_left {l : Lexeme} (h : l ≠ space) : space.glues l = false := by
  cases l <;> simp_all [glues]

/-- Nothing but a space runs together with a space. -/
theorem glues_space_right {l : Lexeme} (h : l ≠ space) : l.glues space = false := by
  cases l <;> simp_all [glues]

/-- The class of the character that a lexeme starts with. -/
def charClass : Lexeme → CharClass
  | word _ => .letter
  | number _ => .digit
  | space => .space
  | l => .mark l

theorem SpelledBy.ne_nil {l : Lexeme} {run : List Char} (h : l.SpelledBy cfg run) : run ≠ [] := by
  rintro rfl
  cases l <;> simp [SpelledBy, Text.isNumeral] at h

/-- A lexeme is written by a character that starts one of its class, with characters behind it
    that can continue it. -/
theorem spelledBy_cons_iff {l : Lexeme} {c : Char} {cs : List Char} :
    l.SpelledBy cfg (c :: cs) ↔
      CharClass.of? (cfg.fold c) = some l.charClass ∧
        (∀ d ∈ cs, l.charClass.continues cfg d) ∧ l.charClass.lexeme cfg (c :: cs) = l := by
  cases l with
  | word text =>
    simp only [SpelledBy, charClass, CharClass.of?_eq_letter_iff, CharClass.continues,
      CharClass.lexeme, Bool.or_eq_true, Config.isDigit_fold]
    grind
  | number text =>
    simp only [SpelledBy, charClass, CharClass.of?_eq_digit_iff, CharClass.continues,
      CharClass.lexeme, Config.isDigit_fold, Text.isNumeral]
    grind
  | space =>
    simp (disch := decide) [SpelledBy, charClass, CharClass.of?_eq_space_iff, CharClass.continues,
      CharClass.lexeme, Config.fold_eq_iff]
  | leftParen | rightParen | colon | comma =>
    simp (disch := decide) [SpelledBy, charClass, CharClass.of?_eq_mark_iff, CharClass.continues,
      CharClass.lexeme, Config.fold_eq_iff, List.eq_nil_iff_forall_not_mem]

/-- Only a space is written with spaces. -/
theorem SpelledBy.eq_space_iff {l : Lexeme} {run : List Char} (h : l.SpelledBy cfg run) {c : Char}
    (hc : c ∈ run) : c = ' ' ↔ l = space := by
  have hfold : cfg.fold ' ' = ' ' := Config.fold_of_not_isAlpha (by decide)
  cases l with
  | word text =>
    have hword := h.2.1 c hc
    constructor
    · rintro rfl
      simp [hfold] at hword
    · simp
  | number text =>
    have hdigit := Text.isDigit_of_isNumeral h.1 hc
    constructor
    · rintro rfl
      simp at hdigit
    · simp
  | space => simpa using h.2 c hc
  | leftParen | rightParen | colon | comma =>
    obtain rfl : run = _ := h
    simp_all

/-- A lexeme is written with characters that have a class. -/
theorem SpelledBy.isSome_class {l : Lexeme} {run : List Char} (h : l.SpelledBy cfg run) {c : Char}
    (hc : c ∈ run) : (CharClass.of? (cfg.fold c)).isSome := by
  cases l with
  | word text =>
    obtain hupper | hdigit := h.2.1 c hc
    · rw [CharClass.of?_eq_letter_iff.mpr hupper, Option.isSome_some]
    · rw [CharClass.of?_eq_digit_iff.mpr (by rwa [Config.isDigit_fold]), Option.isSome_some]
  | number text =>
    have hdigit : (cfg.fold c).isDigit := by
      rw [Config.isDigit_fold]
      exact Text.isDigit_of_isNumeral h.1 hc
    rw [CharClass.of?_eq_digit_iff.mpr hdigit, Option.isSome_some]
  | space =>
    rw [h.2 c hc, Config.fold_of_not_isAlpha (by decide)]
    rfl
  | leftParen | rightParen | colon | comma =>
    obtain rfl : run = _ := h
    rw [List.mem_singleton.mp hc, Config.fold_of_not_isAlpha (by decide)]
    rfl

/-- Whether two lexemes run together is decided by the first character of the second. -/
theorem glues_eq_continues {l l' : Lexeme} {d : Char} {ds : List Char}
    (h : l'.SpelledBy cfg (d :: ds)) : l.glues l' = l.charClass.continues cfg d := by
  have hd := (spelledBy_cons_iff.mp h).1
  cases l' with
  | word text =>
    -- only a word takes in a capital
    have hu : (cfg.fold d).isUpper := CharClass.of?_eq_letter_iff.mp hd
    have hn : d.isDigit = false := by simpa using isDigit_of_isUpper hu
    have hs : d ≠ ' ' := by
      rintro rfl
      rw [Config.fold_of_not_isAlpha (by decide)] at hu
      simp at hu
    cases l <;> simp [glues, charClass, CharClass.continues, hu, hn, hs]
  | number text =>
    -- words and numbers take in a digit
    have hn : d.isDigit := by simpa using CharClass.of?_eq_digit_iff.mp hd
    have hs : d ≠ ' ' := by
      rintro rfl
      simp at hn
    cases l <;> simp [glues, charClass, CharClass.continues, hn, hs]
  | space =>
    obtain rfl : d = ' ' := (Config.fold_eq_iff (by decide)).mp (CharClass.of?_eq_space_iff.mp hd)
    have hf : cfg.fold ' ' = ' ' := Config.fold_of_not_isAlpha (by decide)
    cases l <;> simp [glues, charClass, CharClass.continues, hf]
  | leftParen | rightParen | colon | comma =>
    obtain ⟨rfl, -⟩ := List.cons.inj h
    cases l <;>
      simp (disch := decide) [glues, charClass, CharClass.continues, Config.fold_of_not_isAlpha]

/-- What a character of a class starts is a lexeme of that class. -/
theorem charClass_lexeme (cfg : Config) {c : Char} {cls : CharClass}
    (h : CharClass.of? c = some cls) (run : List Char) :
    (cls.lexeme cfg run).charClass = cls := by
  cases cls with
  | mark l =>
    obtain ⟨-, rfl⟩ | ⟨-, rfl⟩ | ⟨-, rfl⟩ | ⟨-, rfl⟩ := CharClass.of?_eq_mark_iff.mp h <;> rfl
  | _ => rfl

end Lexeme

/-! ### Tilings -/

namespace Token

/-- The tokens lie side by side from the position `n` on, cover the characters, and no two
    neighbours run together. -/
inductive Tiles (cfg : Config) : Nat → List Char → List Token → Prop
  | nil {n : Nat} : Tiles cfg n [] []
  | cons {n : Nat} {l : Lexeme} {run cs : List Char} {ts : List Token}
      (hspelled : l.SpelledBy cfg run) (hapart : ∀ t ∈ ts.head?, l.glues t.lexeme = false)
      (hts : Tiles cfg (n + run.length) cs ts) :
      Tiles cfg n (run ++ cs) (⟨l, n, n + run.length⟩ :: ts)

namespace Tiles

/-- A lexeme runs together with the first token exactly if the first character continues it. -/
theorem apart_iff {n : Nat} {cs : List Char} {ts : List Token} (h : Tiles cfg n cs ts)
    (l : Lexeme) :
    (∀ t ∈ ts.head?, l.glues t.lexeme = false) ↔
      ∀ d ∈ cs.head?, l.charClass.continues cfg d = false := by
  cases h with
  | nil => simp
  | @cons _ l' run cs ts hspelled _ _ =>
    obtain ⟨d, ds, rfl⟩ := List.exists_cons_of_ne_nil hspelled.ne_nil
    simp [Lexeme.glues_eq_continues hspelled]

/-- Characters that are covered have a class. -/
theorem isSome_class {n : Nat} {cs : List Char} {ts : List Token} (h : Tiles cfg n cs ts) {c : Char}
    (hc : c ∈ cs) : (CharClass.of? (cfg.fold c)).isSome := by
  induction h with
  | nil => simp at hc
  | cons hspelled _ _ ih =>
    obtain hc | hc := List.mem_append.mp hc
    · exact hspelled.isSome_class hc
    · exact ih hc

/-- Two tilings side by side are one, unless the last token of the first would run together with
    the first token of the second. -/
theorem append {n : Nat} {cs cs' : List Char} {ts ts' : List Token} (h : Tiles cfg n cs ts)
    (h' : Tiles cfg (n + cs.length) cs' ts')
    (hapart : ∀ t ∈ ts.getLast?, ∀ t' ∈ ts'.head?, t.lexeme.glues t'.lexeme = false) :
    Tiles cfg n (cs ++ cs') (ts ++ ts') := by
  induction h with
  | nil => simpa using h'
  | @cons n l run cs ts hspelled hfirst _ ih =>
    rw [List.append_assoc, List.cons_append]
    refine .cons hspelled ?_ (ih ?_ ?_)
    · -- the token behind the first one is in the second tiling if the first tiling ends here
      cases ts with
      | nil => simpa using hapart
      | cons t ts => simpa using hfirst
    · rwa [List.length_append, ← Nat.add_assoc] at h'
    · cases ts with
      | nil => simp
      | cons t ts => simpa using hapart

/-- A tiling can be cut behind any of its tokens. -/
theorem split {n : Nat} {cs : List Char} {ts ts' : List Token} (h : Tiles cfg n cs (ts ++ ts')) :
    ∃ cs₁ cs₂, cs = cs₁ ++ cs₂ ∧ Tiles cfg n cs₁ ts ∧ Tiles cfg (n + cs₁.length) cs₂ ts' := by
  induction ts generalizing n cs with
  | nil => exact ⟨[], cs, rfl, .nil, by simpa using h⟩
  | cons t ts ih =>
    rw [List.cons_append] at h
    cases h with
    | @cons _ l run cs _ hspelled hapart hts =>
      obtain ⟨cs₁, cs₂, rfl, h₁, h₂⟩ := ih hts
      refine ⟨run ++ cs₁, cs₂, by simp, .cons hspelled ?_ h₁, ?_⟩
      · cases ts with
        | nil => simp
        | cons u us => simpa using hapart
      · rwa [List.length_append, ← Nat.add_assoc]

/-- A token in front of others tiles a run of characters in front of those that the others tile. -/
theorem cons_iff {n : Nat} {cs : List Char} {t : Token} {ts : List Token} :
    Tiles cfg n cs (t :: ts) ↔
      ∃ run rest, cs = run ++ rest ∧ (t.start = n ∧ t.stop = n + run.length) ∧
        t.lexeme.SpelledBy cfg run ∧ (∀ u ∈ ts.head?, t.lexeme.glues u.lexeme = false) ∧
        Tiles cfg (n + run.length) rest ts := by
  constructor
  · intro h
    cases h with
    | @cons _ l run rest _ hspelled hapart hts =>
      exact ⟨run, rest, rfl, ⟨rfl, rfl⟩, hspelled, hapart, hts⟩
  · rintro ⟨run, rest, rfl, ⟨hstart, hstop⟩, hspelled, hapart, hts⟩
    have ht : t = ⟨t.lexeme, n, n + run.length⟩ := by rw [← hstop, ← hstart]
    rw [ht]
    exact .cons hspelled hapart hts

/-- The first token of a tiling covers the first characters, and the others tile the rest. -/
theorem exists_of_cons {n : Nat} {cs : List Char} {t : Token} {ts : List Token}
    (h : Tiles cfg n cs (t :: ts)) :
    ∃ run rest, cs = run ++ rest ∧ t.lexeme.SpelledBy cfg run ∧ t.width = run.length ∧
      Tiles cfg (n + run.length) rest ts := by
  obtain ⟨run, rest, hcs, ⟨hstart, hstop⟩, hspelled, -, hts⟩ := cons_iff.mp h
  have hwidth : t.width = run.length := by rw [width, hstop, hstart, Nat.add_sub_cancel_left]
  exact ⟨run, rest, hcs, hspelled, hwidth, hts⟩

end Tiles

/-- The tokens of some lexemes and the characters that write them, side by side from the position
    `n` on. -/
def lay (n : Nat) : List (Lexeme × List Char) → List Token
  | [] => []
  | (l, run) :: ps => ⟨l, n, n + run.length⟩ :: lay (n + run.length) ps

@[simp] theorem map_lexeme_lay (n : Nat) (ps : List (Lexeme × List Char)) :
    (lay n ps).map lexeme = ps.map Prod.fst := by
  induction ps generalizing n with
  | nil => rfl
  | cons p ps ih => simp [lay, ih]

theorem lay_append (n : Nat) (ps qs : List (Lexeme × List Char)) :
    lay n (ps ++ qs) = lay n ps ++ lay (n + (ps.flatMap Prod.snd).length) qs := by
  induction ps generalizing n with
  | nil => rfl
  | cons p ps ih => simp [lay, ih, Nat.add_assoc]

/-- Lexemes that are spelled out, none of which runs together with the next, tile what is
    written. -/
theorem tiles_lay {ps : List (Lexeme × List Char)} (hspelled : ∀ p ∈ ps, p.1.SpelledBy cfg p.2)
    (hapart : (ps.map Prod.fst).IsChain fun l l' => l.glues l' = false) (n : Nat) :
    Tiles cfg n (ps.flatMap Prod.snd) (lay n ps) := by
  induction ps generalizing n with
  | nil => exact .nil
  | cons p ps ih =>
    rw [List.map_cons, List.isChain_cons] at hapart
    rw [List.flatMap_cons, lay]
    refine .cons (hspelled p List.mem_cons_self) ?_ (ih ?_ hapart.2 _)
    · intro t ht
      apply hapart.1
      rw [← map_lexeme_lay (n + p.2.length), List.head?_map, ht]
      rfl
    · intro q hq
      exact hspelled q (List.mem_cons_of_mem p hq)

/-! ### Scanning -/

/-- The first token takes the first character and the longest run behind it that continues it. -/
theorem scan_cons {c : Char} {cls : CharClass} (h : CharClass.of? (cfg.fold c) = some cls)
    (n : Nat) (run cs : List Char) (hrun : ∀ d ∈ run, cls.continues cfg d)
    (hcs : ∀ d ∈ cs.head?, cls.continues cfg d = false) :
    scan cfg n (c :: run ++ cs) =
      (scan cfg (n + (c :: run).length) cs).map
        (⟨cls.lexeme cfg (c :: run), n, n + (c :: run).length⟩ :: ·) := by
  have hstop : n + 1 + run.length = n + (c :: run).length := by
    rw [List.length_cons]
    omega
  rw [List.cons_append, scan, h]
  simp only [Text.takeWhile_run hrun hcs, Text.dropWhile_run hrun hcs, hstop]

/-- The tokens that are found tile the characters. -/
theorem tiles_of_scan {n : Nat} {cs : List Char} {ts : List Token} (h : scan cfg n cs = .ok ts) :
    Tiles cfg n cs ts := by
  induction n, cs using scan.induct cfg generalizing ts with
  | case1 n =>
    rw [scan] at h
    cases h
    exact .nil
  | case2 n c rest hnone => simp [scan, hnone] at h
  | case3 n c rest cls hcls run stop =>
    rename_i ih
    have hrun : ∀ d ∈ run, cls.continues cfg d := fun d hd => List.mem_takeWhile_imp hd
    have hnext : ∀ d ∈ (rest.dropWhile (cls.continues cfg)).head?, cls.continues cfg d = false := by
      intro d hd
      have := List.head?_dropWhile_not (cls.continues cfg) rest
      rwa [hd] at this
    have hcover : rest = run ++ rest.dropWhile (cls.continues cfg) :=
      List.takeWhile_append_dropWhile.symm
    have hstop : stop = n + (c :: run).length := by
      simp only [stop, List.length_cons]
      omega
    rw [hcover, ← List.cons_append]
    rw [hcover, ← List.cons_append, scan_cons hcls n run _ hrun hnext, ← hstop] at h
    obtain ⟨ts, hts, rfl⟩ := map_eq_ok_iff.mp h
    have hclass := Lexeme.charClass_lexeme cfg hcls (c :: run)
    have hrest := ih hts
    rw [hstop] at hrest ⊢
    refine .cons (Lexeme.spelledBy_cons_iff.mpr ?_) ?_ hrest
    · rw [hclass]
      exact ⟨hcls, hrun, rfl⟩
    · -- the token takes the longest run, so what comes behind it does not continue it
      rw [hrest.apart_iff, hclass]
      exact hnext

/-- A tiling is what is found in the characters that it covers. -/
theorem scan_of_tiles {n : Nat} {cs : List Char} {ts : List Token} (h : Tiles cfg n cs ts) :
    scan cfg n cs = .ok ts := by
  induction h with
  | nil => rw [scan]
  | @cons n l run cs ts hspelled hapart hts ih =>
    obtain ⟨c, run, rfl⟩ := List.exists_cons_of_ne_nil hspelled.ne_nil
    obtain ⟨hclass, hrun, hlexeme⟩ := Lexeme.spelledBy_cons_iff.mp hspelled
    rw [scan_cons hclass n run cs hrun ((hts.apart_iff l).mp hapart), ih, hlexeme]
    rfl

/-- **Tokens tile.** Scanning finds a list of tokens exactly if it tiles the characters. -/
theorem scan_eq_ok_iff {n : Nat} {cs : List Char} {ts : List Token} :
    scan cfg n cs = .ok ts ↔ Tiles cfg n cs ts :=
  ⟨tiles_of_scan, scan_of_tiles⟩

/-- Characters are tiled in one way at most. -/
theorem Tiles.eq_of_tiles {n : Nat} {cs : List Char} {ts us : List Token} (h : Tiles cfg n cs ts)
    (h' : Tiles cfg n cs us) : ts = us := by
  have hscan := scan_of_tiles h
  rw [scan_of_tiles h', Except.ok.injEq] at hscan
  exact hscan.symm

/-- A character that starts a token, and the run behind it that continues it, are tiled by a token
    of their own. -/
theorem Tiles.exists_of_class {n : Nat} {c : Char} {run rest : List Char} {cls : CharClass}
    {ts : List Token} (h : Tiles cfg n (c :: run ++ rest) ts)
    (hclass : CharClass.of? (cfg.fold c) = some cls) (hrun : ∀ d ∈ run, cls.continues cfg d)
    (hrest : ∀ d ∈ rest.head?, cls.continues cfg d = false) :
    ∃ t us, ts = t :: us ∧ t.lexeme = cls.lexeme cfg (c :: run) ∧
      Tiles cfg (n + (c :: run).length) rest us := by
  have hscan := scan_of_tiles h
  rw [scan_cons hclass n run rest hrun hrest] at hscan
  obtain ⟨us, hus, rfl⟩ := map_eq_ok_iff.mp hscan
  exact ⟨_, us, rfl, rfl, tiles_of_scan hus⟩

end Token

end MixAsm
