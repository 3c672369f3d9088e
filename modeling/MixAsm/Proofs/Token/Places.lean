import MixAsm.Proofs.Token.Tiling

namespace MixAsm

/-!
# Places in a line

What stands in a place of a line, by its characters and by its tokens.

* `Token.IsBoundary` — the places where a token starts or ends;
* `Token.Tiles.split_of_isBoundary` — there the tokens can be cut along with the characters;
* `Token.Tiles.head?_eq_some_iff` — punctuation marks in front of characters and of tokens.
-/

variable {cfg : Config} {n : Nat} {cs p q : List Char} {ts : List Token}

/-! ### Between tokens -/

namespace Token

/-- A token starts in the place, or one ends there. -/
def IsBoundary (ts : List Token) (k : Nat) : Prop := ∃ t ∈ ts, t.start = k ∨ t.stop = k

namespace Tiles

/-- The last token ends behind the characters. -/
theorem stop_eq {t : Token} (h : Tiles cfg n cs (ts ++ [t])) : t.stop = n + cs.length := by
  obtain ⟨cs₁, cs₂, rfl, -, ht⟩ := h.split
  obtain ⟨run, rest, rfl, ⟨-, hstop⟩, -, -, hnil⟩ := cons_iff.mp ht
  cases hnil
  rw [hstop, List.append_nil, List.length_append, Nat.add_assoc]

/-- A tiling can be cut wherever a token starts or ends. -/
theorem split_of_isBoundary (h : Tiles cfg n (p ++ q) ts)
    (hk : IsBoundary ts (n + p.length)) :
    ∃ ts₁ ts₂, ts = ts₁ ++ ts₂ ∧ Tiles cfg n p ts₁ ∧ Tiles cfg (n + p.length) q ts₂ := by
  obtain ⟨t, ht, hplace⟩ := hk
  obtain ⟨us, vs, rfl⟩ := List.append_of_mem ht
  -- the cut is in front of the token or behind it
  obtain hstart | hstop := hplace
  · obtain ⟨cs₁, cs₂, hcs, hus, hvs⟩ := h.split
    obtain ⟨-, -, -, ⟨hstart', -⟩, -⟩ := cons_iff.mp hvs
    obtain ⟨rfl, rfl⟩ := List.append_inj hcs (by omega)
    exact ⟨us, t :: vs, rfl, hus, hvs⟩
  · rw [List.append_cons] at h ⊢
    obtain ⟨cs₁, cs₂, hcs, hus, hvs⟩ := h.split
    have hstop' := hus.stop_eq
    obtain ⟨rfl, rfl⟩ := List.append_inj hcs (by omega)
    exact ⟨us ++ [t], vs, rfl, hus, hvs⟩

end Tiles

end Token

/-! ### Punctuation marks -/

variable {c : Char} {l : Lexeme}

/-- A punctuation mark is taken for itself. -/
theorem CharClass.of?_fold_of_mark (h : of? c = some (.mark l)) :
    of? (cfg.fold c) = some (.mark l) := by
  have halpha : c.isAlpha = false := by
    obtain ⟨rfl, -⟩ | ⟨rfl, -⟩ | ⟨rfl, -⟩ | ⟨rfl, -⟩ := of?_eq_mark_iff.mp h <;> decide
  rwa [Config.fold_of_not_isAlpha halpha]

/-- A punctuation mark is written by its character and by nothing else. -/
theorem Lexeme.SpelledBy.eq_of_mark {run : List Char} (h : l.SpelledBy cfg run)
    (hc : CharClass.of? c = some (.mark l)) : run = [c] := by
  obtain ⟨rfl, rfl⟩ | ⟨rfl, rfl⟩ | ⟨rfl, rfl⟩ | ⟨rfl, rfl⟩ := CharClass.of?_eq_mark_iff.mp hc <;>
    exact h

namespace Token.Tiles

/-- A punctuation mark in front of characters is a token of its own. -/
theorem exists_of_markChar (h : Tiles cfg n (c :: q) ts)
    (hc : CharClass.of? c = some (.mark l)) :
    ∃ t us, ts = t :: us ∧ t.lexeme = l ∧ Tiles cfg (n + 1) q us := by
  have hcs : Tiles cfg n (c :: [] ++ q) ts := h
  exact hcs.exists_of_class (CharClass.of?_fold_of_mark hc) (by simp) fun _ _ => rfl

/-- A punctuation mark in front of tokens is the first character. -/
theorem exists_of_mark {t : Token} (h : Tiles cfg n q (t :: ts))
    (hc : CharClass.of? c = some (.mark t.lexeme)) :
    ∃ rest, q = c :: rest ∧ Tiles cfg (n + 1) rest ts := by
  obtain ⟨run, rest, rfl, -, hrun, -, hts⟩ := cons_iff.mp h
  obtain rfl := hrun.eq_of_mark hc
  exact ⟨rest, rfl, hts⟩

/-- A punctuation mark is the first character exactly if it is the first token. -/
theorem head?_eq_some_iff {t : Token} (h : Tiles cfg n q (t :: ts))
    (hc : CharClass.of? c = some (.mark l)) : q.head? = some c ↔ t.lexeme = l := by
  constructor
  · intro hhead
    obtain ⟨rest, rfl⟩ := List.head?_eq_some_iff.mp hhead
    obtain ⟨u, us, heq, hu, -⟩ := h.exists_of_markChar hc
    rwa [(List.cons.inj heq).1]
  · rintro rfl
    obtain ⟨rest, rfl, -⟩ := h.exists_of_mark hc
    rfl

end Token.Tiles

end MixAsm
