import Mathlib.Data.List.Forall2
import MixAsm.Proofs.Agreement
import MixAsm.Proofs.Text.Squeeze
import MixAsm.Proofs.Token.Alphabet
import MixAsm.Proofs.Token.Trim

namespace MixAsm

open Text (collapseRuns squeeze strip)

/-!
# Tokens of a squeezed line

Squeezing a line moves its tokens and makes its spaces narrow, and does nothing else to them but
that the spaces at either end are gone. So the squeezed line has the tokens that trimming leaves of
those of the line, or the same illegal character.

* `Config.singleSpaced` — the configuration without the licence for spare spaces;
* `Token.Alike` — a token and what squeezing makes of it;
* `Token.agree_tokenize_squeeze` — the tokens of a squeezed line.
-/

/-- The configuration that takes single spaces only, and is otherwise the same. -/
def Config.singleSpaced (cfg : Config) : Config := { cfg with collapseSpaces := false }

variable {cfg : Config} {n : Nat} {cs : List Char} {ts us : List Token}

/-- What writes a lexeme is the same whatever spaces are allowed. -/
theorem Lexeme.spelledBy_singleSpaced {l : Lexeme} {run : List Char} :
    l.SpelledBy cfg.singleSpaced run ↔ l.SpelledBy cfg run := by
  cases l <;> rfl

namespace Token

/-! ### Alike tokens -/

/-- The second token is the first one in another place; if it is a space, then a single one. -/
structure Alike (t u : Token) : Prop where
  lexeme_eq : t.lexeme = u.lexeme
  width_le : u.lexeme = .space → u.width ≤ 1

theorem front?_eq (h : List.Forall₂ Alike ts us) : front? ts = front? us := by
  cases h with
  | nil => rfl
  | cons h _ => rw [front?, front?, List.head?_cons, List.head?_cons, Option.map_some,
      Option.map_some, h.lexeme_eq]

namespace Tiles

/-! ### Runs of spaces -/

/-- Where each run of spaces is collapsed to one, the tokens stay alike. -/
theorem exists_collapse (h : Tiles cfg n cs ts) (m : Nat) :
    ∃ us, Tiles cfg.singleSpaced m (collapseRuns cs) us ∧ List.Forall₂ Alike ts us := by
  induction h generalizing m with
  | nil => exact ⟨[], .nil, .nil⟩
  | @cons n l run cs ts hspelled hapart hts ih =>
    -- the first token is written by one space if it is a space, and else as before
    have hrun : ∃ run', collapseRuns (run ++ cs) = run' ++ collapseRuns cs ∧
        l.SpelledBy cfg run' ∧ (l = .space → run'.length ≤ 1) := by
      by_cases hl : l = .space
      · subst hl
        have hnext : cs.head? ≠ some ' ' := by
          intro hhead
          have hstop := (hts.apart_iff .space).mp hapart ' ' hhead
          simp [Lexeme.charClass, CharClass.continues] at hstop
        exact ⟨[' '], Text.collapseRuns_spaces hspelled.1 hspelled.2 hnext, ⟨by simp, by simp⟩,
          by simp⟩
      · have hnone : ∀ c ∈ run, c ≠ ' ' := fun c hc heq => hl ((hspelled.eq_space_iff hc).mp heq)
        exact ⟨run, Text.collapseRuns_append hnone cs, hspelled, fun heq => absurd heq hl⟩
    obtain ⟨run', hcollapse, hspelled', hwidth⟩ := hrun
    obtain ⟨us, hus, halike⟩ := ih (m + run'.length)
    have hapart' : ∀ u ∈ us.head?, l.glues u.lexeme = false := by
      intro u hu
      -- the second token keeps its lexeme, so it does not run together with the first one
      have hfront : front? ts = some u.lexeme := by
        rw [front?_eq halike, front?, hu, Option.map_some]
      obtain ⟨t, ht, heq⟩ := Option.map_eq_some_iff.mp hfront
      rw [← heq]
      exact hapart t ht
    rw [hcollapse]
    refine ⟨⟨l, m, m + run'.length⟩ :: us,
      .cons (Lexeme.spelledBy_singleSpaced.mpr hspelled') hapart' hus, .cons ⟨rfl, ?_⟩ halike⟩
    rwa [Token.width, Nat.add_sub_cancel_left]

/-! ### Ends of a line -/

theorem eq_nil (h : Tiles cfg n cs []) : cs = [] := by
  cases h
  rfl

/-- Characters that start with no space are tokens that start with none. -/
theorem front?_ne_space (h : Tiles cfg n cs ts) (hcs : cs.head? ≠ some ' ') :
    front? ts ≠ some .space := by
  cases h with
  | nil => simp [front?]
  | @cons _ l run cs ts hspelled _ _ =>
    intro hfront
    obtain rfl : l = .space := by simpa [front?] using hfront
    obtain ⟨c, run, rfl⟩ := List.exists_cons_of_ne_nil hspelled.ne_nil
    apply hcs
    rw [(hspelled.eq_space_iff List.mem_cons_self).mpr rfl]
    rfl

/-- Characters that end with no space are tokens that end with none. -/
theorem getLast?_ne_space (h : Tiles cfg n cs ts) (hcs : cs.getLast? ≠ some ' ') :
    ts.getLast?.map lexeme ≠ some .space := by
  intro hlast
  obtain ⟨t, ht, hspace⟩ := Option.map_eq_some_iff.mp hlast
  obtain ⟨front, rfl⟩ := List.getLast?_eq_some_iff.mp ht
  obtain ⟨cs₁, cs₂, rfl, -, hcs₂⟩ := h.split
  obtain ⟨run, rest, rfl, hrun, -, hrest⟩ := hcs₂.exists_of_cons
  cases hrest
  -- the last token covers the last characters, which are then spaces
  obtain ⟨run, c, rfl⟩ := List.eq_nil_or_concat run |>.resolve_left hrun.ne_nil
  apply hcs
  have hc : c = ' ' := (hrun.eq_space_iff (by simp)).mpr hspace
  simp [hc]

end Tiles

/-! ### Lines -/

theorem trimSpaces_of_isBlank (h : IsBlank ts) : trimSpaces ts = [] := by
  rcases h with rfl | ⟨t, rfl, ht⟩
  · rfl
  · simp [trimSpaces, front?, ht]

/-- The tokens of a stripped line are what trimming leaves of the tokens of the line. -/
theorem exists_tokenize_of_strip {line : String}
    (h : line.toList.find? (!cfg.accepts ·) = none) :
    ∃ ts m, tokenize cfg line = .ok ts ∧ Tiles cfg m (strip line.toList) (trimSpaces ts) := by
  obtain ⟨l, r, hline, hl, hr⟩ := Text.exists_strip line.toList
  have hstrip : (strip line.toList).find? (!cfg.accepts ·) = none := by
    rw [List.find?_eq_none] at h ⊢
    intro c hc
    apply h
    rw [hline]
    simp [hc]
  obtain ⟨us, hus⟩ := exists_scan_of_find?_eq_none (0 + l.length) hstrip
  have hcore : Tiles cfg (0 + l.length) (strip line.toList) us := scan_eq_ok_iff.mp hus
  by_cases hne : us = []
  · -- nothing but spaces, which are one token at most
    subst hne
    have hspaces : ∀ c ∈ line.toList, c = ' ' := by
      rw [hline, hcore.eq_nil]
      intro c hc
      rcases List.mem_append.mp (by simpa using hc) with hc | hc
      · exact hl c hc
      · exact hr c hc
    obtain ⟨ts, hblank, hts⟩ := Tiles.exists_of_spaces cfg 0 hspaces
    refine ⟨ts, 0 + l.length, scan_of_tiles hts, ?_⟩
    rwa [trimSpaces_of_isBlank hblank]
  · have hfirst := hcore.front?_ne_space (Text.head?_strip_ne line.toList)
    have hlast := hcore.getLast?_ne_space (Text.getLast?_strip_ne line.toList)
    obtain ⟨ts, hts, htrim⟩ := hcore.exists_surround hl hr hne hfirst hlast
    rw [← hline] at hts
    refine ⟨ts, 0 + l.length, scan_of_tiles hts, ?_⟩
    rwa [htrim]

/-- **Tokens of a squeezed line.** They are what trimming leaves of the tokens of the line, moved
    and with single spaces; or the illegal character is the same. -/
theorem agree_tokenize_squeeze (cfg : Config) (line : String) :
    Agree (List.Forall₂ Alike) ((tokenize cfg line).map trimSpaces)
      (tokenize cfg.singleSpaced (squeeze line)) := by
  cases hfind : line.toList.find? (!cfg.accepts ·) with
  | none =>
    obtain ⟨ts, m, hts, hcore⟩ := exists_tokenize_of_strip hfind
    obtain ⟨us, hus, halike⟩ := hcore.exists_collapse 0
    have hsqueeze : tokenize cfg.singleSpaced (squeeze line) = .ok us := by
      rw [tokenize, squeeze, String.toList_ofList]
      exact scan_of_tiles hus
    rw [hts, hsqueeze]
    exact .ok halike
  | some c =>
    have hfind' : (squeeze line).toList.find? (!cfg.singleSpaced.accepts ·) = some c := by
      rw [Text.find?_squeeze (by rw [Config.accepts_space, Bool.not_true])]
      exact hfind
    obtain ⟨column, hline⟩ := exists_scan_of_find?_eq_some 0 hfind
    obtain ⟨column', hsqueeze⟩ := exists_scan_of_find?_eq_some 0 hfind'
    rw [tokenize, tokenize, hline, hsqueeze]
    exact .error rfl

end Token

end MixAsm
