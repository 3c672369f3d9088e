import MixAsm.Proofs.Token.Tiling

namespace MixAsm

/-!
# The alphabet of a line

The characters that tokens are made of are the alphabet. A line is cut into tokens exactly if all
its characters are in the alphabet; else the first one that is not is blamed, wherever it stands.

* `Config.accepts` — the alphabet;
* `Token.scan_eq_error_iff` — the character that is blamed, and its column;
* `Token.exists_scan_of_find?_eq_none` — a line without such a character.
-/

variable {cfg : Config}

/-- Does the character start a token? Then any token it can stand in has it in its alphabet. -/
def Config.accepts (cfg : Config) (c : Char) : Bool := (CharClass.of? (cfg.fold c)).isSome

theorem Config.accepts_space : cfg.accepts ' ' := by
  rw [accepts, fold_of_not_isAlpha (by decide)]
  rfl

namespace Token

/-- What takes in a character of a token is a token of its own, so it is in the alphabet. -/
theorem accepts_of_continues {c : Char} {cls : CharClass} {run : List Char}
    (hc : CharClass.of? (cfg.fold c) = some cls) (hrun : ∀ d ∈ run, cls.continues cfg d) :
    ∀ d ∈ c :: run, cfg.accepts d := by
  have hclass := Lexeme.charClass_lexeme cfg hc (c :: run)
  have hspelled : (cls.lexeme cfg (c :: run)).SpelledBy cfg (c :: run) := by
    rw [Lexeme.spelledBy_cons_iff, hclass]
    exact ⟨hc, hrun, rfl⟩
  exact fun d hd => hspelled.isSome_class hd

/-- What is blamed is the first character outside the alphabet. -/
theorem exists_of_scan_eq_error {n : Nat} {cs : List Char} {e : ParseError}
    (h : scan cfg n cs = .error e) :
    ∃ pre c post, cs = pre ++ c :: post ∧ (∀ d ∈ pre, cfg.accepts d) ∧ cfg.accepts c = false ∧
      e = ⟨n + pre.length + 1, .illegalCharacter c⟩ := by
  induction n, cs using scan.induct cfg with
  | case1 n =>
    rw [scan] at h
    cases h
  | case2 n c rest hnone =>
    refine ⟨[], c, rest, rfl, by simp, by rw [Config.accepts, hnone]; rfl, ?_⟩
    rw [scan, hnone] at h
    exact (Except.error.inj h).symm
  | case3 n c rest cls hcls run stop ih =>
    rw [scan, hcls] at h
    -- the first token is cut off without an error, so the error is one of the rest
    have hrest : scan cfg stop (rest.dropWhile (cls.continues cfg)) = .error e := by
      cases hscan : scan cfg stop (rest.dropWhile (cls.continues cfg)) with
      | ok ts => simp [run, stop, hscan, Except.map] at h
      | error e' =>
        simp only [run, stop, hscan, Except.map] at h
        exact h
    obtain ⟨pre, d, post, hdrop, hpre, hd, rfl⟩ := ih hrest
    have hcover : rest = run ++ rest.dropWhile (cls.continues cfg) :=
      List.takeWhile_append_dropWhile.symm
    have hrun : ∀ d ∈ c :: run, cfg.accepts d :=
      accepts_of_continues hcls fun d hd => List.mem_takeWhile_imp hd
    refine ⟨c :: run ++ pre, d, post, ?_, ?_, hd, ?_⟩
    · rw [hcover, hdrop]
      simp
    · intro d hd
      rcases List.mem_append.mp hd with hd | hd
      · exact hrun d hd
      · exact hpre d hd
    · have hcolumn : stop + pre.length + 1 = n + (c :: run ++ pre).length + 1 := by
        simp only [stop, List.length_append, List.length_cons]
        omega
      rw [hcolumn]

/-- Characters of the alphabet in front of one outside it are all that are in front of the first
    one outside it. -/
theorem takeWhile_accepts {pre : List Char} {c : Char} (hpre : ∀ d ∈ pre, cfg.accepts d)
    (hc : cfg.accepts c = false) (post : List Char) :
    (pre ++ c :: post).takeWhile cfg.accepts = pre ∧
      (pre ++ c :: post).dropWhile cfg.accepts = c :: post := by
  have hend : ∀ d ∈ (c :: post).head?, cfg.accepts d = false := by
    rintro d ⟨⟩
    exact hc
  exact ⟨Text.takeWhile_run hpre hend, Text.dropWhile_run hpre hend⟩

/-- **First illegal character.** Scanning fails exactly if there is a character outside the
    alphabet, on the first such character and in its column. -/
theorem scan_eq_error_iff {n : Nat} {cs : List Char} {e : ParseError} :
    scan cfg n cs = .error e ↔
      ∃ pre c post, cs = pre ++ c :: post ∧ (∀ d ∈ pre, cfg.accepts d) ∧ cfg.accepts c = false ∧
        e = ⟨n + pre.length + 1, .illegalCharacter c⟩ := by
  refine ⟨exists_of_scan_eq_error, ?_⟩
  rintro ⟨pre, c, post, rfl, hpre, hc, rfl⟩
  cases hscan : scan cfg n (pre ++ c :: post) with
  | ok ts =>
    -- tokens would cover the character
    have haccepts : cfg.accepts c := (tiles_of_scan hscan).isSome_class (by simp)
    rw [hc] at haccepts
    cases haccepts
  | error e =>
    -- there is one first character outside the alphabet only
    obtain ⟨pre', c', post', heq, hpre', hc', rfl⟩ := exists_of_scan_eq_error hscan
    obtain ⟨htake, hdrop⟩ := takeWhile_accepts hpre hc post
    obtain ⟨htake', hdrop'⟩ := takeWhile_accepts hpre' hc' post'
    rw [heq, htake'] at htake
    rw [heq, hdrop'] at hdrop
    obtain ⟨rfl, -⟩ := List.cons.inj hdrop
    rw [htake]

/-- A list of characters of the alphabet has tokens. -/
theorem exists_scan_of_find?_eq_none {cs : List Char} (n : Nat)
    (h : cs.find? (!cfg.accepts ·) = none) : ∃ ts, scan cfg n cs = .ok ts := by
  cases hscan : scan cfg n cs with
  | ok ts => exact ⟨ts, rfl⟩
  | error e =>
    obtain ⟨pre, c, post, rfl, -, hc, -⟩ := scan_eq_error_iff.mp hscan
    have haccepts := List.find?_eq_none.mp h c (by simp)
    simp [hc] at haccepts

/-- In a list of characters the first one outside the alphabet is blamed. -/
theorem exists_scan_of_find?_eq_some {cs : List Char} {c : Char} (n : Nat)
    (h : cs.find? (!cfg.accepts ·) = some c) :
    ∃ column, scan cfg n cs = .error ⟨column, .illegalCharacter c⟩ := by
  obtain ⟨hc, pre, post, rfl, hpre⟩ := List.find?_eq_some_iff_append.mp h
  refine ⟨n + pre.length + 1, scan_eq_error_iff.mpr ⟨pre, c, post, rfl, ?_, ?_, rfl⟩⟩
  · simpa using hpre
  · simpa using hc

end Token

end MixAsm
