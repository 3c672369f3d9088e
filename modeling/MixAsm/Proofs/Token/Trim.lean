import Mathlib.Data.List.Basic
import MixAsm.Instruction.Parser
import MixAsm.Proofs.Token.Tiling

namespace MixAsm.Token

/-!
# Spaces around a line

Dropping the space token at either end of a tiling is dropping the spaces at either end of the
characters that it covers.

* `exists_trimSpaces` — what is dropped is a space token at most at either end;
* `trimSpaces_surround` — a space token at either end is dropped;
* `Tiles.exists_trim`, `Tiles.exists_surround` — the same of the characters.
-/

variable {cfg : Config} {n : Nat}

/-- One space token at most. -/
def IsBlank (ts : List Token) : Prop := ts = [] ∨ ∃ t, ts = [t] ∧ t.lexeme = .space

theorem IsBlank.eq_space {ts : List Token} (h : IsBlank ts) {t : Token} (ht : t ∈ ts) :
    t.lexeme = .space := by
  obtain rfl | ⟨u, rfl, hu⟩ := h
  · simp at ht
  · rwa [List.mem_singleton.mp ht]

/-! ### Tokens -/

/-- What trimming drops is a space token at most at either end. -/
theorem exists_trimSpaces (ts : List Token) :
    ∃ pre post, IsBlank pre ∧ IsBlank post ∧ ts = pre ++ trimSpaces ts ++ post := by
  -- the end is trimmed before the front, so the front is split off what trimming the end leaves
  have hback : ∃ post, IsBlank post ∧
      ts = (if ts.getLast?.map lexeme = some .space then ts.dropLast else ts) ++ post := by
    split
    · next h =>
      obtain ⟨t, ht, hspace⟩ := Option.map_eq_some_iff.mp h
      refine ⟨[t], .inr ⟨t, rfl, hspace⟩, ?_⟩
      exact (List.dropLast_append_getLast? t ht).symm
    · exact ⟨[], .inl rfl, by simp⟩
  have hfront : ∀ us : List Token, ∃ pre, IsBlank pre ∧
      us = pre ++ if front? us = some .space then us.tail else us := by
    intro us
    split
    · next h =>
      obtain ⟨t, ht, hspace⟩ := Option.map_eq_some_iff.mp h
      refine ⟨[t], .inr ⟨t, rfl, hspace⟩, ?_⟩
      exact (List.cons_head?_tail ht).symm
    · exact ⟨[], .inl rfl, by simp⟩
  obtain ⟨post, hpost, hts⟩ := hback
  obtain ⟨pre, hpre, hus⟩ := hfront (if ts.getLast?.map lexeme = some .space then ts.dropLast else ts)
  refine ⟨pre, post, hpre, hpost, ?_⟩
  rw [trimSpaces, ← hus]
  exact hts

/-- A space token at either end is all that trimming drops. -/
theorem trimSpaces_surround {pre ts post : List Token} (hpre : IsBlank pre) (hpost : IsBlank post)
    (hne : ts ≠ []) (hfirst : front? ts ≠ some .space)
    (hlast : ts.getLast?.map lexeme ≠ some .space) : trimSpaces (pre ++ ts ++ post) = ts := by
  have hback : (if (pre ++ ts ++ post).getLast?.map lexeme = some .space
      then (pre ++ ts ++ post).dropLast else pre ++ ts ++ post) = pre ++ ts := by
    obtain rfl | ⟨t, rfl, ht⟩ := hpost
    · rw [List.append_nil, List.getLast?_append_of_ne_nil _ hne, if_neg hlast]
    · simp [ht]
  rw [trimSpaces, hback]
  obtain rfl | ⟨t, rfl, ht⟩ := hpre
  · rw [List.nil_append, if_neg hfirst]
  · simp [front?, ht]

/-! ### Characters -/

namespace Tiles

/-- A space token covers spaces. -/
theorem eq_space_of_isBlank {cs : List Char} {ts : List Token} (h : Tiles cfg n cs ts)
    (hts : IsBlank ts) : ∀ c ∈ cs, c = ' ' := by
  obtain rfl | ⟨t, rfl, ht⟩ := hts
  · cases h
    simp
  · cases h with
    | cons hspelled _ hrest =>
      cases hrest
      intro c hc
      rw [List.append_nil] at hc
      exact (hspelled.eq_space_iff hc).mpr ht

/-- Spaces are covered by a space token. -/
theorem exists_of_spaces (cfg : Config) (n : Nat) {s : List Char} (hs : ∀ c ∈ s, c = ' ') :
    ∃ ts, IsBlank ts ∧ Tiles cfg n s ts := by
  by_cases hne : s = []
  · subst hne
    exact ⟨[], .inl rfl, .nil⟩
  · refine ⟨[⟨.space, n, n + s.length⟩], .inr ⟨_, rfl, rfl⟩, ?_⟩
    have htile : Tiles cfg n (s ++ []) [⟨.space, n, n + s.length⟩] :=
      .cons ⟨hne, hs⟩ (by simp) .nil
    rwa [List.append_nil] at htile

/-- Trimming the tokens leaves the characters between spaces. -/
theorem exists_trim {cs : List Char} {ts : List Token} (h : Tiles cfg n cs ts) :
    ∃ l core r, cs = l ++ core ++ r ∧ (∀ c ∈ l, c = ' ') ∧ (∀ c ∈ r, c = ' ') ∧
      Tiles cfg (n + l.length) core (trimSpaces ts) := by
  obtain ⟨pre, post, hpre, hpost, hts⟩ := exists_trimSpaces ts
  rw [hts] at h
  obtain ⟨front, r, rfl, hfront, hr⟩ := h.split
  obtain ⟨l, core, rfl, hl, hcore⟩ := hfront.split
  exact ⟨l, core, r, rfl, hl.eq_space_of_isBlank hpre, hr.eq_space_of_isBlank hpost, hcore⟩

/-- Tokens with no space at either end are what trimming leaves of the same characters between
    spaces. -/
theorem exists_surround {l core r : List Char} {ts : List Token}
    (h : Tiles cfg (n + l.length) core ts) (hl : ∀ c ∈ l, c = ' ') (hr : ∀ c ∈ r, c = ' ')
    (hne : ts ≠ []) (hfirst : front? ts ≠ some .space)
    (hlast : ts.getLast?.map lexeme ≠ some .space) :
    ∃ us, Tiles cfg n (l ++ core ++ r) us ∧ trimSpaces us = ts := by
  obtain ⟨pre, hpre, hltiles⟩ := exists_of_spaces cfg n hl
  obtain ⟨post, hpost, hrtiles⟩ := exists_of_spaces cfg (n + (l ++ core).length) hr
  refine ⟨pre ++ ts ++ post, ?_, trimSpaces_surround hpre hpost hne hfirst hlast⟩
  -- a space runs together with a space only, and there is none at either end of `ts`
  refine (hltiles.append h ?_).append hrtiles ?_
  · intro t ht t' ht'
    rw [hpre.eq_space (List.mem_of_getLast? ht)]
    apply Lexeme.glues_space_left
    intro hspace
    exact hfirst (by rw [front?, ht', Option.map_some, hspace])
  · intro t ht t' ht'
    rw [hpost.eq_space (List.mem_of_head? ht')]
    apply Lexeme.glues_space_right
    intro hspace
    rw [List.getLast?_append_of_ne_nil _ hne] at ht
    exact hlast (by rw [ht, Option.map_some, hspace])

end Tiles

end MixAsm.Token
