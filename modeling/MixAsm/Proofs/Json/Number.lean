import MixAsm.Json.Number
import MixAsm.Proofs.Text.Runs

namespace MixAsm.Json.Number

/-!
# Numbers are read back

The literal of a number is read as the number, sign, fraction and exponent included. What a 64-bit
word holds is far from overflowing.

* `WellFormed` — the numbers that a literal writes;
* `ofLiteral?_text` — the literal of such a number;
* `isFinite_of_lt` — the integers that 64 bits hold are finite.
-/

/-- The fraction, where there is one, is made of digits and has one at least. -/
def WellFormed (n : Number) : Prop := ∀ ds ∈ n.fraction, Text.isNumeral ds

theorem wellFormed_ofNat (n : Nat) : (ofNat n).WellFormed := by
  intro ds hds
  cases hds

/-! ### Literals -/

/-- Only zero is written with a zero in front. -/
theorem eq_zero_of_head?_toDigits {n : Nat} (h : (Nat.toDigits 10 n).head? = some '0') : n = 0 := by
  induction n using Nat.strongRecOn with
  | ind n ih =>
    by_cases hn : n < 10
    · rw [Nat.toDigits_of_lt_base hn] at h
      exact Nat.digitChar_eq_zero.mp (by simpa using h)
    · -- the digits in front are those of the tens, of which there are some
      have htens : (Nat.toDigits 10 (n / 10)).head? = some '0' := by
        rw [Nat.toDigits_of_base_le (by omega) (by omega)] at h
        cases hd : Nat.toDigits 10 (n / 10) with
        | nil => exact absurd hd Nat.toDigits_ne_nil
        | cons d ds => simpa [hd] using h
      have hzero : n / 10 = 0 := ih (n / 10) (by omega) htens
      omega

/-- The digits of a number may stand in a literal: no zero is in front of others. -/
theorem toDigits_noLeadingZero (n : Nat) :
    ¬ (Nat.toDigits 10 n = [] ∨
      ((Nat.toDigits 10 n).head? = some '0' ∧ Nat.toDigits 10 n ≠ ['0'])) := by
  rintro (hnil | ⟨hhead, hne⟩)
  · exact Nat.toDigits_ne_nil hnil
  · obtain rfl := eq_zero_of_head?_toDigits hhead
    exact hne rfl

/-- Digits do not start with a sign. -/
theorem head?_toDigits_append_ne (n : Nat) (cs : List Char) :
    (Nat.toDigits 10 n ++ cs).head? ≠ some '-' := by
  intro hhead
  cases hdigits : Nat.toDigits 10 n with
  | nil => exact Nat.toDigits_ne_nil hdigits
  | cons d ds =>
    obtain rfl : d = '-' := by simpa [hdigits] using hhead
    have hminus : ('-').isDigit := by
      apply Text.isDigit_of_isNumeral (Text.isNumeral_toDigits n)
      rw [hdigits]
      exact List.mem_cons_self
    cases hminus

section

variable {negative : Bool} {whole : Nat} {rest : List Char}

/-- The digits of a number, taken from the front of a text that goes on with something else. -/
theorem takeWhile_toDigits (n : Nat) (hrest : ∀ c ∈ rest.head?, c.isDigit = false) :
    (Nat.toDigits 10 n ++ rest).takeWhile Char.isDigit = Nat.toDigits 10 n ∧
      (Nat.toDigits 10 n ++ rest).dropWhile Char.isDigit = rest := by
  have hdigits : ∀ c ∈ Nat.toDigits 10 n, c.isDigit := by
    intro c hc
    exact Text.isDigit_of_isNumeral (Text.isNumeral_toDigits n) hc
  exact ⟨Text.takeWhile_run hdigits hrest, Text.dropWhile_run hdigits hrest⟩

/-- Without a point behind it, the whole part is all there is in front of an exponent. -/
theorem ofDecimal?_whole (hrest : ∀ c ∈ rest.head?, c.isDigit = false ∧ c ≠ '.') :
    ofDecimal? negative (Nat.toDigits 10 whole ++ rest)
      = some (⟨negative, whole, none, none⟩, rest) := by
  obtain ⟨htake, hdrop⟩ := takeWhile_toDigits whole fun c hc => (hrest c hc).1
  unfold ofDecimal?
  simp only [htake, hdrop, if_neg (toDigits_noLeadingZero whole), Text.digitsValue_toDigits]
  split
  · next rest' => exact absurd rfl (hrest '.' rfl).2
  · rfl

/-- Digits behind a point are the fraction. -/
theorem ofDecimal?_fraction {ds : List Char} (hds : Text.isNumeral ds)
    (hrest : ∀ c ∈ rest.head?, c.isDigit = false) :
    ofDecimal? negative (Nat.toDigits 10 whole ++ '.' :: (ds ++ rest))
      = some (⟨negative, whole, some ds, none⟩, rest) := by
  have hpoint : ∀ c ∈ ('.' :: (ds ++ rest)).head?, c.isDigit = false := by
    rintro c ⟨⟩
    rfl
  obtain ⟨htake, hdrop⟩ := takeWhile_toDigits whole hpoint
  have hfraction := Text.takeWhile_run (fun c => Text.isDigit_of_isNumeral hds) hrest
  have hend := Text.dropWhile_run (fun c => Text.isDigit_of_isNumeral hds) hrest
  have hne : ds ≠ [] := by
    rintro rfl
    cases hds
  unfold ofDecimal?
  simp only [htake, hdrop, if_neg (toDigits_noLeadingZero whole), Text.digitsValue_toDigits,
    hfraction, hend, if_neg hne]

end

/-- The exponent that an integer writes. -/
theorem exponent?_intText (i : Int) : exponent? (intText i) = some i := by
  unfold intText
  by_cases hi : i < 0
  · have hnumeral := Text.isNumeral_toDigits i.natAbs
    rw [if_pos hi, List.singleton_append, exponent?, if_pos hnumeral, Text.digitsValue_toDigits]
    congr 1
    omega
  · rw [if_neg hi, List.nil_append]
    unfold exponent?
    split
    · next digits heq =>
      have hhead := head?_toDigits_append_ne i.natAbs []
      rw [List.append_nil, heq] at hhead
      exact absurd rfl hhead
    · rw [Text.literal?_toDigits, Option.map_some]
      congr 1
      show (i.natAbs : Int) = i
      omega

/-- What is written behind the digits of a number. -/
def exponentText (exponent : Option Int) : List Char :=
  (exponent.map ('e' :: intText ·)).getD []

theorem head?_exponentText {exponent : Option Int} :
    ∀ c ∈ (exponentText exponent).head?, c.isDigit = false ∧ c ≠ '.' := by
  cases exponent with
  | none => simp [exponentText]
  | some i => simp [exponentText]

theorem withExponent?_exponentText (n : Number) (exponent : Option Int) (h : n.exponent = none) :
    n.withExponent? (exponentText exponent) = some { n with exponent := exponent } := by
  cases exponent with
  | none =>
    obtain ⟨negative, whole, fraction, exponent⟩ := n
    obtain rfl : exponent = none := h
    rfl
  | some i =>
    show (if 'e' = 'e' ∨ 'e' = 'E' then
      (exponent? (intText i)).map fun i => { n with exponent := some i } else none) = _
    rw [if_pos (.inl rfl), exponent?_intText, Option.map_some]

/-- What a literal says of its sign. -/
theorem ofLiteral?_sign (negative : Bool) (cs : List Char) (h : cs.head? ≠ some '-') :
    ofLiteral? ((if negative then ['-'] else []) ++ cs)
      = (ofDecimal? negative cs).bind fun (n, rest) => n.withExponent? rest := by
  cases negative with
  | true => rfl
  | false =>
    simp only [Bool.false_eq_true, if_false, List.nil_append]
    unfold ofLiteral?
    split
    · next digits => exact absurd rfl h
    · rfl

/-- **Literals.** The literal of a number is read as the number. -/
theorem ofLiteral?_text {n : Number} (h : n.WellFormed) : ofLiteral? n.text = some n := by
  obtain ⟨negative, whole, fraction, exponent⟩ := n
  -- grouped as it is read: sign, whole part, and what the whole part has to end in front of
  have htext : text ⟨negative, whole, fraction, exponent⟩
      = (if negative then ['-'] else []) ++ (Nat.toDigits 10 whole
        ++ ((fraction.map ('.' :: ·)).getD [] ++ exponentText exponent)) := by
    simp [text, exponentText]
  rw [htext, ofLiteral?_sign negative _ (head?_toDigits_append_ne whole _)]
  cases fraction with
  | none =>
    show (ofDecimal? negative (Nat.toDigits 10 whole ++ exponentText exponent)).bind _ = _
    rw [ofDecimal?_whole head?_exponentText, Option.bind_some]
    exact withExponent?_exponentText _ exponent rfl
  | some ds =>
    show (ofDecimal? negative
      (Nat.toDigits 10 whole ++ '.' :: (ds ++ exponentText exponent))).bind _ = _
    rw [ofDecimal?_fraction (h ds rfl) fun c hc => (head?_exponentText c hc).1, Option.bind_some]
    exact withExponent?_exponentText _ exponent rfl

/-! ### Magnitude -/

theorem le_ofDigitChars (ds : List Char) (value : Nat) : value ≤ Nat.ofDigitChars 10 ds value := by
  induction ds generalizing value with
  | nil => exact Nat.le_refl value
  | cons d ds ih =>
    rw [Nat.ofDigitChars_cons]
    have hnext := ih (10 * value + (d.toNat - '0'.toNat))
    omega

/-- All digits of a number below `2 ^ 64` are significant. -/
theorem significand_of_lt {ds : List Char} {value length : Nat}
    (h : Nat.ofDigitChars 10 ds value < UInt64.size) :
    significand value length ds = (Nat.ofDigitChars 10 ds value, length + ds.length) := by
  induction ds generalizing value length with
  | nil => rfl
  | cons d ds ih =>
    rw [Nat.ofDigitChars_cons] at h ⊢
    have hnext := Nat.lt_of_le_of_lt (le_ofDigitChars ds _) h
    unfold significand
    simp only [if_pos hnext, ih h, List.length_cons]
    congr 1
    omega

/-- What 53 bits hold is not rounded. -/
theorem roundTo53Bits_of_lt {n : Nat} (h : n < Nat.pow 2 53) : roundTo53Bits n = n := by
  have hlog : n.log2 - 52 = 0 := by
    by_cases hn : n = 0
    · rw [hn]
      rfl
    · have hlt : n.log2 < 53 := (Nat.log2_lt hn).mpr h
      omega
  unfold roundTo53Bits
  simp [hlog, Nat.mod_one]

/-- Rounding does not double a number, as the unit that it is rounded to is no greater. -/
theorem roundTo53Bits_le (n : Nat) : roundTo53Bits n ≤ 2 * n := by
  by_cases hn : n = 0
  · subst hn
    decide
  · have hunit : Nat.pow 2 (n.log2 - 52) ≤ n := by
      calc Nat.pow 2 (n.log2 - 52)
          ≤ Nat.pow 2 n.log2 := Nat.pow_le_pow_right (by decide) (Nat.sub_le ..)
        _ ≤ n := Nat.log2_self_le hn
    have hquotient : n / Nat.pow 2 (n.log2 - 52) * Nat.pow 2 (n.log2 - 52) ≤ n :=
      Nat.div_mul_le_self ..
    unfold roundTo53Bits
    dsimp only
    split
    · rw [Nat.add_mul]
      omega
    · omega

/-- An integer in plain digits that 64 bits hold does not overflow. -/
theorem isFinite_of_lt {negative : Bool} {n : Nat} (h : n < UInt64.size) :
    (Number.mk negative n none none).isFinite := by
  -- all digits are significant, so no power of ten is left to multiply with
  have hvalue : Nat.ofDigitChars 10 (Nat.toDigits 10 n) 0 = n := Nat.ofDigitChars_ten_toDigits
  have hsignificand : significand 0 0 (Nat.toDigits 10 n) = (n, (Nat.toDigits 10 n).length) := by
    rw [significand_of_lt (by rwa [hvalue]), hvalue, Nat.zero_add]
  have hfits : roundTo53Bits n * roundTo53Bits (Nat.pow 10 0) < infinite := by
    have hone : roundTo53Bits (Nat.pow 10 0) = 1 := roundTo53Bits_of_lt (by decide)
    have hbound : 2 * UInt64.size ≤ infinite := by decide +kernel
    have hround := roundTo53Bits_le n
    rw [hone]
    omega
  unfold isFinite
  simp only [Option.getD_none, List.append_nil, hsignificand, Int.sub_self, Int.add_zero,
    Int.toNat_zero, hfits]
  simp

end MixAsm.Json.Number
