import MixAsm.Proofs.Operand.Literal
import MixAsm.Proofs.Text.Literal

namespace MixAsm

/-!
# Exact operands

An operand is read from a literal of any length as the number that the literal writes, if the number
is within bounds, and never as another one. So it makes no difference that the number is worked out
in a word, whose values go beyond the bounds.

* `OperandKind.parseIn` — reading in a word;
* `OperandKind.ReadsExactly`, `Fields.ReadsExactly` — what is read of literals, whatever they are;
* `Operand.parse_exact` — each kind of operand.
-/

variable {α : Type} {kind : OperandKind} {size : Nat} {accept : Nat → Option α} {value : α → Nat}

namespace OperandKind

/-- The value that `accept` takes of a literal that is worked out in a word of `size` values, or the
    error of an operand out of range. -/
def parseIn (kind : OperandKind) (size : Nat) (accept : Nat → Option α) (text : String)
    (column : Nat) : Except ParseError α :=
  match (Text.literalIn? size text.toList).bind accept with
  | some v => .ok v
  | none => .error ⟨column, .outOfRange kind text⟩

/-- The literal writes a number within the bounds. -/
def Within (lo hi : Nat) (text : String) : Prop :=
  ∃ n, Text.Literal n text.toList ∧ lo ≤ n ∧ n ≤ hi

/-- What is read in a word is the number that the literal writes, if it is within the bounds, and
    else the literal is refused as it stands, in its column. -/
structure ReadsExactly (kind : OperandKind) (size : Nat) (accept : Nat → Option α) (lo hi : Nat)
    (value : α → Nat) (text : String) (column : Nat) (r : Except ParseError α) : Prop where
  word : r = kind.parseIn size accept text column
  bounds : kind.min = lo ∧ kind.max = hi
  ok_iff : ∀ n, (∃ v, r = .ok v ∧ value v = n) ↔ Text.Literal n text.toList ∧ lo ≤ n ∧ n ≤ hi
  error_iff : ∀ e, r = .error e ↔ e = ⟨column, .outOfRange kind text⟩ ∧ ¬ Within lo hi text

/-- A word with room for all that is accepted gives what is read without one. -/
theorem parseIn_eq_parse (hsize : 0 < size) (haccept : ∀ n, size ≤ n → accept n = none)
    (text : String) (column : Nat) :
    kind.parseIn size accept text column = kind.parse accept text column := by
  have hvalue : (Text.literalIn? size text.toList).bind accept
      = (Text.literal? text.toList).bind accept := by
    rw [Text.literalIn?_eq hsize, Option.bind_assoc]
    congr 1
    funext n
    by_cases hfits : n < size
    · rw [Text.fits?, if_pos hfits, Option.bind_some]
    · rw [Text.fits?, if_neg hfits, Option.bind_none, haccept n (by omega)]
  rw [parseIn, hvalue]
  rfl

/-- Where numbers within the bounds are read, and no others, something is read exactly if the
    literal writes one of them. -/
theorem exists_ok_iff {lo hi : Nat} {text : String} {r : Except ParseError α}
    (hok : ∀ n, (∃ v, r = .ok v ∧ value v = n) ↔
      Text.Literal n text.toList ∧ lo ≤ n ∧ n ≤ hi) :
    (∃ v, r = .ok v) ↔ Within lo hi text := by
  rw [Within]
  simp only [← hok]
  constructor
  · rintro ⟨v, hv⟩
    exact ⟨value v, v, hv, rfl⟩
  · rintro ⟨_, v, hv, -⟩
    exact ⟨v, hv⟩

/-- **Exact reading.** Where the numbers that are accepted are those within the bounds of the kind,
    and a word has room for them, literals are read exactly. -/
theorem readsExactly_parse (haccept : ∀ n v, accept n = some v ↔ n = value v)
    (hbounds : ∀ n, accept n = none ↔ ¬ (kind.min ≤ n ∧ n ≤ kind.max)) (hsize : kind.max < size)
    (text : String) (column : Nat) :
    kind.ReadsExactly size accept kind.min kind.max value text column
      (kind.parse accept text column) := by
  have hword : kind.parse accept text column = kind.parseIn size accept text column := by
    refine (parseIn_eq_parse (by omega) (fun n hn => ?_) text column).symm
    rw [hbounds]
    omega
  have hok : ∀ n, (∃ v, kind.parse accept text column = .ok v ∧ value v = n) ↔
      Text.Literal n text.toList ∧ kind.min ≤ n ∧ n ≤ kind.max := by
    intro n
    simp only [parse_eq_ok_iff, haccept, Text.literal?_eq_some_iff,
      exists_eq_right]
    constructor
    · rintro ⟨v, hv, rfl⟩
      have hsome : accept (value v) ≠ none := by
        rw [(haccept _ v).mpr rfl]
        simp
      rw [Ne, hbounds, not_not] at hsome
      exact ⟨hv, hsome⟩
    · rintro ⟨hn, hrange⟩
      have hsome : accept n ≠ none := by
        rw [Ne, hbounds, not_not]
        exact hrange
      obtain ⟨v, hv⟩ := Option.ne_none_iff_exists'.mp hsome
      obtain rfl := (haccept n v).mp hv
      exact ⟨v, hn, rfl⟩
  refine ⟨hword, ⟨rfl, rfl⟩, hok, fun e => ?_⟩
  rw [← exists_ok_iff hok, parse]
  split <;> simp [eq_comm]

end OperandKind

/-! ### Each kind -/

open OperandKind (Within)

/-- A field of words is read exactly. -/
theorem Fields.readsExactly_word (text : String) (column : Nat) :
    OperandKind.fields.ReadsExactly UInt32.size word32? 0 4294967295 UInt32.toNat text column
      (OperandKind.fields.parse word32? text column) := by
  refine OperandKind.readsExactly_parse (fun n w => word32?_eq_some_iff) (fun n => ?_) (by decide)
    text column
  rw [word32?_eq_none_iff]
  simp [OperandKind.min, OperandKind.max]

/-- Two literals are read as fields if both can be, in any order of size, and else the left one is
    blamed, or the right one if the left one can be read. -/
structure Fields.ReadsExactly (left : String) (leftColumn : Nat) (right : String)
    (rightColumn : Nat) (r : Except ParseError Fields) : Prop where
  words : r = do
    let a ← OperandKind.fields.parseIn UInt32.size word32? left leftColumn
    let b ← OperandKind.fields.parseIn UInt32.size word32? right rightColumn
    return ⟨a, b⟩
  ok_iff : ∀ m n, (∃ f, r = .ok f ∧ f.left.toNat = m ∧ f.right.toNat = n) ↔
    (Text.Literal m left.toList ∧ m ≤ 4294967295) ∧ Text.Literal n right.toList ∧ n ≤ 4294967295
  error_iff : ∀ e, r = .error e ↔
    e = ⟨leftColumn, .outOfRange .fields left⟩ ∧ ¬ Within 0 4294967295 left ∨
      e = ⟨rightColumn, .outOfRange .fields right⟩ ∧ Within 0 4294967295 left ∧
        ¬ Within 0 4294967295 right

/-- Fields are read exactly, as each of their sides is. -/
theorem Fields.readsExactly_parse (left : String) (leftColumn : Nat) (right : String)
    (rightColumn : Nat) :
    Fields.ReadsExactly left leftColumn right rightColumn
      (Fields.parse left leftColumn right rightColumn) := by
  have hleft := readsExactly_word left leftColumn
  have hright := readsExactly_word right rightColumn
  refine ⟨?_, fun m n => ?_, fun e => ?_⟩
  · rw [← hleft.word, ← hright.word, Fields.parse]
  · have hsides := and_congr (hleft.ok_iff m) (hright.ok_iff n)
    simp only [Nat.zero_le, true_and] at hsides
    rw [← hsides, Fields.parse]
    simp only [bind_eq_ok_iff]
    constructor
    · rintro ⟨f, ⟨l, hl, r, hr, hf⟩, rfl, rfl⟩
      cases hf
      exact ⟨⟨l, hl, rfl⟩, r, hr, rfl⟩
    · rintro ⟨⟨l, hl, rfl⟩, r, hr, rfl⟩
      exact ⟨⟨l, r⟩, ⟨l, hl, r, hr, rfl⟩, rfl, rfl⟩
  · have hread := OperandKind.exists_ok_iff hleft.ok_iff
    rw [Fields.parse, bind_eq_error_iff, hleft.error_iff]
    simp only [bind_eq_error_iff, hright.error_iff, pure, Except.pure, reduceCtorEq, and_false,
      exists_false, or_false]
    rw [← hread]
    constructor
    · rintro (hl | ⟨l, hl, he, hr⟩)
      · exact .inl hl
      · exact .inr ⟨he, ⟨l, hl⟩, hr⟩
    · rintro (hl | ⟨he, ⟨l, hl⟩, hr⟩)
      · exact .inl hl
      · exact .inr ⟨l, hl, he, hr⟩

/-- **Exact operands.** Every kind of operand is read exactly, of any text and in any column. -/
theorem Operand.parse_exact (text : String) (column : Nat) (right : String) (rightColumn : Nat) :
    OperandKind.address.ReadsExactly UInt16.size Address.ofNat? 0 3999 Address.val text column
        (Address.parse text column) ∧
      OperandKind.index.ReadsExactly UInt8.size Index.ofNat? 1 5 Index.val text column
        (Index.parse text column) ∧
      OperandKind.argument.ReadsExactly UInt32.size (fun n => (word32? n).map Argument.mk)
        0 4294967295 (fun a => a.val.toNat) text column (Argument.parse text column) ∧
      Fields.ReadsExactly text column right rightColumn
        (Fields.parse text column right rightColumn) := by
  refine ⟨?_, ?_, ?_, Fields.readsExactly_parse text column right rightColumn⟩
  · exact OperandKind.readsExactly_parse (fun _ _ => Address.ofNat?_eq_some_iff)
      (fun _ => Address.ofNat?_eq_none_iff) (by decide) text column
  · exact OperandKind.readsExactly_parse (fun _ _ => Index.ofNat?_eq_some_iff)
      (fun _ => Index.ofNat?_eq_none_iff) (by decide) text column
  · refine OperandKind.readsExactly_parse (fun _ _ => map_word32?_eq_some_iff) (fun n => ?_)
      (by decide) text column
    rw [Option.map_eq_none_iff, word32?_eq_none_iff]
    simp [OperandKind.min, OperandKind.max]

/-- In sixteen bits the number would wrap to the address 5. -/
example : Address.parse "+0065541" 4 = .error ⟨4, .outOfRange .address "+0065541"⟩ := by
  decide +kernel

end MixAsm
