import MixAsm.Json.Reader
import MixAsm.Proofs.Json.Number
import MixAsm.Proofs.Json.String

namespace MixAsm.Json

/-!
# Documents are read back

A document is read as the value that it was written for, however it is laid out. The reader goes
from a state that awaits a value to the one where the value is complete, over the characters that
write the value, and leaves the arrays and objects that are open around it alone.

* `Legible` — the values that a document can hold;
* `State.run` — the state that a text leads to;
* `Restored` — a value that the reader completes from the characters that write it;
* `parse_write` — the value of a document.
-/

/-- Values in which every number is one that a literal writes. -/
inductive Legible : Json → Prop
  | null : Legible .null
  | bool (b : Bool) : Legible (.bool b)
  | number {n : Number} (h : n.WellFormed) : Legible (.number n)
  | string (text : Text) : Legible (.string text)
  | array {items : List Json} (h : ∀ v ∈ items, Legible v) : Legible (.array items)
  | object {members : List (Text × Json)} (h : ∀ m ∈ members, Legible m.2) :
      Legible (.object members)

/-! ### Tokens -/

/-- A word or a number in front of the characters ends there. -/
def Parted (cs : List Char) : Prop := ∀ c ∈ cs.head?, continuesAtom c = false

theorem parted_cons {c : Char} (h : continuesAtom c = false) (cs : List Char) : Parted (c :: cs) := by
  rintro d ⟨⟩
  exact h

theorem isSpace_of_mark? {c : Char} {t : Token} (h : mark? c = some t) : isSpace c = false := by
  have hne : ∀ d, mark? d = none → c ≠ d := by
    rintro d hd rfl
    rw [hd] at h
    cases h
  simp [isSpace, hne ' ' rfl, hne '\n' rfl, hne '\t' rfl, hne '\r' rfl]

theorem tokenize_mark {c : Char} {t : Token} (h : mark? c = some t) (rest : List Char) :
    tokenize (c :: rest) = (tokenize rest).map (t :: ·) := by
  have hspace : ¬ isSpace c := by simp [isSpace_of_mark? h]
  rw [tokenize, if_neg hspace, h]

theorem tokenize_quoted (text : Text) (rest : List Char) :
    tokenize (quoted text ++ rest) = (tokenize rest).map (.string text :: ·) := by
  obtain ⟨cs, ps, hquoted, hread, htext⟩ := exists_readString_quoted text rest
  rw [hquoted, tokenize, if_neg (by decide)]
  simp only [show mark? '"' = none from rfl, if_true]
  split
  · next ps' rest' hread' =>
    obtain ⟨rfl, rfl⟩ := Prod.mk.inj (Option.some.inj (hread.symm.trans hread'))
    rw [htext]
  · next hnone =>
    rw [hread] at hnone
    cases hnone

/-- The characters of words and numbers start nothing else. -/
theorem of_continuesAtom {c : Char} (h : continuesAtom c) :
    isSpace c = false ∧ mark? c = none ∧ c ≠ '"' := by
  have hne : ∀ d, continuesAtom d = false → c ≠ d := by
    rintro d hd rfl
    rw [hd] at h
    cases h
  have hmark : mark? c = none := by
    unfold mark?
    simp only [hne '[' rfl, hne ']' rfl, hne '{' rfl, hne '}' rfl, hne ',' rfl, hne ':' rfl, if_false]
  have hspace : isSpace c = false := by
    simp [isSpace, hne ' ' rfl, hne '\n' rfl, hne '\t' rfl, hne '\r' rfl]
  exact ⟨hspace, hmark, hne '"' rfl⟩

theorem tokenize_atom {cs rest : List Char} {t : Token} (h : atom? cs = some t)
    (hcs : ∀ c ∈ cs, continuesAtom c) (hrest : Parted rest) :
    tokenize (cs ++ rest) = (tokenize rest).map (t :: ·) := by
  cases cs with
  | nil => cases h
  | cons c cs =>
    rw [List.forall_mem_cons] at hcs
    obtain ⟨hspace, hmark, hquote⟩ := of_continuesAtom hcs.1
    rw [List.cons_append, tokenize, if_neg (by simp [hspace]), hmark]
    simp only [if_neg hquote, Text.takeWhile_run hcs.2 hrest, Text.dropWhile_run hcs.2 hrest, h]

theorem continuesAtom_of_isNumeral {ds : List Char} (h : Text.isNumeral ds) :
    ∀ c ∈ ds, continuesAtom c := by
  intro c hc
  simp [continuesAtom, Char.isAlphanum, Text.isDigit_of_isNumeral h hc]

/-- A number's literal has no character that would end it early. -/
theorem continuesAtom_text {n : Number} (h : n.WellFormed) : ∀ c ∈ n.text, continuesAtom c := by
  obtain ⟨negative, whole, fraction, exponent⟩ := n
  have hdigits : ∀ k, ∀ c ∈ Nat.toDigits 10 k, continuesAtom c := fun k =>
    continuesAtom_of_isNumeral (Text.isNumeral_toDigits k)
  have hsign : ∀ b : Bool, ∀ c ∈ (if b then ['-'] else []), continuesAtom c := by
    intro b
    cases b with
    | false => exact List.all_eq_true.mp rfl
    | true => exact List.all_eq_true.mp rfl
  have hfraction : ∀ c ∈ (fraction.map ('.' :: ·)).getD [], continuesAtom c := by
    cases fraction with
    | none => simp
    | some ds => exact List.forall_mem_cons.mpr ⟨rfl, continuesAtom_of_isNumeral (h ds rfl)⟩
  have hexponent : ∀ c ∈ (exponent.map ('e' :: Number.intText ·)).getD [], continuesAtom c := by
    cases exponent with
    | none => simp
    | some i =>
      refine List.forall_mem_cons.mpr ⟨rfl, ?_⟩
      rw [Number.intText, List.forall_mem_append]
      exact ⟨by simpa using hsign (decide (i < 0)), hdigits i.natAbs⟩
  simp only [Number.text, List.forall_mem_append]
  exact ⟨⟨⟨hsign negative, hdigits whole⟩, hfraction⟩, hexponent⟩

theorem atom?_text {n : Number} (h : n.WellFormed) : atom? n.text = some (.number n) := by
  -- no literal is one of the words, which write no number
  have hword : ∀ word, Number.ofLiteral? word = none → n.text ≠ word := by
    rintro word hnone heq
    rw [← heq, Number.ofLiteral?_text h] at hnone
    cases hnone
  rw [atom?, if_neg (hword _ rfl), if_neg (hword _ rfl), if_neg (hword _ rfl),
    Number.ofLiteral?_text h, Option.map_some]

/-! ### States -/

namespace State

variable {s : State} {t : Token} {rest : List Char}

/-- The state that the tokens of a text lead to. -/
def run (s : State) (cs : List Char) : Option State := (tokenize cs).bind (·.foldlM step s)

theorem run_nil : s.run [] = some s := by
  rw [run, tokenize]
  rfl

theorem run_space {c : Char} (h : isSpace c) : s.run (c :: rest) = s.run rest := by
  rw [run, tokenize, if_pos h, run]

/-- A text that starts with a token leads on from the state after the token. -/
theorem run_of_tokenize {cs : List Char} (h : tokenize cs = (tokenize rest).map (t :: ·)) :
    s.run cs = (s.step t).bind (·.run rest) := by
  rw [run, h]
  cases hrest : tokenize rest with
  | none => simp [run, hrest]
  | some ts => simp [run, hrest]

theorem run_mark {c : Char} (h : mark? c = some t) (rest : List Char) :
    s.run (c :: rest) = (s.step t).bind (·.run rest) :=
  run_of_tokenize (tokenize_mark h rest)

theorem run_quoted (text : Text) (rest : List Char) :
    s.run (quoted text ++ rest) = (s.step (.string text)).bind (·.run rest) :=
  run_of_tokenize (tokenize_quoted text rest)

theorem run_lineBreak (level : Level) (rest : List Char) :
    s.run (level.lineBreak ++ rest) = s.run rest := by
  have hspaces : ∀ k, s.run (List.replicate k ' ' ++ rest) = s.run rest := by
    intro k
    induction k with
    | zero => rfl
    | succ k ih => rw [List.replicate_succ, List.cons_append, run_space rfl, ih]
  cases level with
  | none => rfl
  | some n => rw [Level.lineBreak, List.cons_append, run_space rfl, hspaces]

theorem run_colon (level : Level) (rest : List Char) :
    s.run (level.colon ++ rest) = (s.step .colon).bind (·.run rest) := by
  cases level with
  | none => exact run_mark rfl rest
  | some n =>
    have hspace : ∀ s : State, s.run (' ' :: rest) = s.run rest := fun s => run_space rfl
    rw [Level.colon, List.cons_append, run_mark rfl]
    simp only [List.singleton_append, hspace]

/-- A value may follow, inside the frames `frames`. Where an array is just open its end may follow
    too, with which no value starts. -/
def Awaits (s : State) (frames : List Frame) : Prop :=
  ∀ t, t ≠ .closeArray → s.step t = start frames t

theorem awaits_value (frames : List Frame) : (value frames).Awaits frames := fun _ _ => rfl

theorem awaits_firstItem (frames : List Frame) :
    (firstItem frames).Awaits (.array [] :: frames) := by
  intro t ht
  cases t with
  | closeArray => exact absurd rfl ht
  | _ => rfl

end State

/-! ### Values -/

open State

/-- The characters that write the value complete it, whatever is open around it and whatever
    follows it. -/
def Restored (v : Json) : Prop :=
  ∀ (level : Level) (s : State) (frames : List Frame) (rest : List Char), s.Awaits frames →
    Parted rest → s.run (write level v ++ rest) = (complete v frames).run rest

/-- A word or a number is restored. -/
theorem restored_of_atom {v : Json} {cs : List Char} {t : Token} (hwrite : ∀ level, write level v = cs)
    (hcs : ∀ c ∈ cs, continuesAtom c) (hatom : atom? cs = some t) (ht : t ≠ .closeArray)
    (hstart : ∀ frames, start frames t = some (complete v frames)) : Restored v := by
  intro level s frames rest hs hrest
  rw [hwrite, run_of_tokenize (tokenize_atom hatom hcs hrest), hs t ht, hstart, Option.bind_some]

section

variable {level : Level} {frames : List Frame} {rest : List Char}

/-- What stands behind an item or a member. -/
theorem parted_lineBreak {c : Char} (h : continuesAtom c = false) (cs : List Char) :
    Parted (level.lineBreak ++ c :: cs) := by
  cases level with
  | none => exact parted_cons h cs
  | some n => exact parted_cons rfl _

theorem parted_writeItems (level : Level) (vs : List Json) (rest : List Char) :
    Parted (writeItems level vs ++ (level.lineBreak ++ ']' :: rest)) := by
  cases vs with
  | nil => exact parted_lineBreak rfl rest
  | cons v vs => exact parted_cons rfl _

theorem parted_writeMembers (level : Level) (ms : List (Text × Json)) (rest : List Char) :
    Parted (writeMembers level ms ++ (level.lineBreak ++ '\x7d' :: rest)) := by
  cases ms with
  | nil => exact parted_lineBreak rfl rest
  | cons m ms => exact parted_cons rfl _

/-- The items behind the one that was read last, and the end of the array. -/
theorem run_writeItems {vs : List Json} (h : ∀ v ∈ vs, Restored v) (v : Json) (done : List Json) :
    (complete v (.array done :: frames)).run
        (writeItems level vs ++ (level.lineBreak ++ ']' :: rest))
      = (complete (.array (done.reverse ++ v :: vs)) frames).run rest := by
  induction vs generalizing v done with
  | nil =>
    rw [writeItems, List.nil_append, run_lineBreak, run_mark rfl]
    simp [step]
  | cons w ws ih =>
    rw [List.forall_mem_cons] at h
    -- behind the item stands a comma, a line's end or the bracket, so the item ends where it should
    have hitem := h.1 level.inner (value (.array (v :: done) :: frames)) _ _ (awaits_value _)
      (parted_writeItems level ws rest)
    rw [writeItems, List.cons_append, run_mark rfl]
    simp only [step, Option.bind_some, List.append_assoc, run_lineBreak]
    rw [hitem, ih h.2]
    simp

/-- A key and its value. -/
theorem run_member {s : State} {done : List (Text × Json)} {key : Text} {v : Json} (level : Level)
    (hs : s.step (.string key) = some (colon done key frames)) (hv : Restored v)
    (hrest : Parted rest) :
    s.run (quoted key ++ (level.colon ++ (write level.inner v ++ rest)))
      = (complete v (.object done key :: frames)).run rest := by
  rw [run_quoted, hs, Option.bind_some, run_colon]
  simp only [step, Option.bind_some]
  exact hv level.inner _ _ rest (awaits_value _) hrest

/-- The members behind the one that was read last, and the end of the object. -/
theorem run_writeMembers {ms : List (Text × Json)} (h : ∀ m ∈ ms, Restored m.2) (key : Text)
    (v : Json) (done : List (Text × Json)) :
    (complete v (.object done key :: frames)).run
        (writeMembers level ms ++ (level.lineBreak ++ '\x7d' :: rest))
      = (complete (.object (done.reverse ++ (key, v) :: ms)) frames).run rest := by
  induction ms generalizing key v done with
  | nil =>
    rw [writeMembers, List.nil_append, run_lineBreak, run_mark rfl]
    simp [step]
  | cons m ms ih =>
    obtain ⟨key', v'⟩ := m
    rw [List.forall_mem_cons] at h
    have hkey : (State.key ((key, v) :: done) frames).step (.string key')
        = some (colon ((key, v) :: done) key' frames) := rfl
    have hmember := run_member level hkey h.1 (parted_writeMembers level ms rest)
    rw [writeMembers, List.cons_append, run_mark rfl]
    simp only [step, Option.bind_some, List.append_assoc, run_lineBreak]
    rw [hmember, ih h.2]
    simp

end

/-- An array is restored if its items are. -/
theorem restored_array {items : List Json} (h : ∀ v ∈ items, Restored v) :
    Restored (.array items) := by
  intro level s frames rest hs _
  cases items with
  | nil =>
    rw [write, List.cons_append, run_mark rfl, hs _ (by simp)]
    simp only [start, Option.bind_some, List.singleton_append, run_mark (c := ']') rfl, step]
  | cons v vs =>
    rw [List.forall_mem_cons] at h
    have hfirst := h.1 level.inner (firstItem frames) _ _ (awaits_firstItem frames)
      (parted_writeItems level vs rest)
    rw [write, List.cons_append, run_mark rfl, hs _ (by simp)]
    simp only [start, Option.bind_some, List.append_assoc, run_lineBreak, List.singleton_append]
    rw [hfirst, run_writeItems h.2]
    simp

/-- An object is restored if the values of its members are. -/
theorem restored_object {members : List (Text × Json)} (h : ∀ m ∈ members, Restored m.2) :
    Restored (.object members) := by
  intro level s frames rest hs _
  cases members with
  | nil =>
    rw [write, List.cons_append, run_mark rfl, hs _ (by simp)]
    simp only [start, Option.bind_some, List.singleton_append, run_mark (c := '\x7d') rfl, step]
  | cons m ms =>
    obtain ⟨key, v⟩ := m
    rw [List.forall_mem_cons] at h
    have hkey : (firstKey frames).step (.string key) = some (colon [] key frames) := rfl
    have hfirst := run_member level hkey h.1 (parted_writeMembers level ms rest)
    rw [write, List.cons_append, run_mark rfl, hs _ (by simp)]
    simp only [start, Option.bind_some, List.append_assoc, run_lineBreak, List.singleton_append]
    rw [hfirst, run_writeMembers h.2]
    simp

/-- **Values.** Every value that a document can hold is restored. -/
theorem restored_of_legible {v : Json} (h : Legible v) : Restored v := by
  -- the values inside are restored with one more frame open, which only their own end closes
  induction h with
  | null =>
    have hcs : ∀ c ∈ ['n', 'u', 'l', 'l'], continuesAtom c := List.all_eq_true.mp rfl
    exact restored_of_atom (fun _ => rfl) hcs rfl (by simp) (fun _ => rfl)
  | bool b =>
    cases b with
    | false =>
      have hcs : ∀ c ∈ ['f', 'a', 'l', 's', 'e'], continuesAtom c := List.all_eq_true.mp rfl
      exact restored_of_atom (fun _ => rfl) hcs rfl (by simp) (fun _ => rfl)
    | true =>
      have hcs : ∀ c ∈ ['t', 'r', 'u', 'e'], continuesAtom c := List.all_eq_true.mp rfl
      exact restored_of_atom (fun _ => rfl) hcs rfl (by simp) (fun _ => rfl)
  | number hn =>
    exact restored_of_atom (fun _ => rfl) (continuesAtom_text hn) (atom?_text hn) (by simp)
      (fun _ => rfl)
  | string text =>
    intro level s frames rest hs _
    rw [write, run_quoted, hs _ (by simp)]
    rfl
  | array _ ih => exact restored_array ih
  | object _ ih => exact restored_object ih

theorem parse_eq_run (text : String) :
    parse text = ((value []).run text.toList).bind State.result? := by
  rw [parse, run, Option.bind_assoc]
  rfl

/-- **Documents.** A document is read as the value that it was written for. -/
theorem parse_write {v : Json} (h : Legible v) (level : Level) :
    parse (String.ofList (write level v)) = some v := by
  have hrun := restored_of_legible h level (value []) [] [] (awaits_value []) (by simp [Parted])
  rw [List.append_nil, run_nil] at hrun
  rw [parse_eq_run, String.toList_ofList, hrun]
  rfl

theorem parse_compact {v : Json} (h : Legible v) : parse v.compact = some v := parse_write h none

/-- An object is read from the text that it is written with. -/
theorem parse_object {text : String} {members : List (Text × Json)}
    (htext : text = (object members).compact) (h : ∀ m ∈ members, Legible m.2) :
    parse text = some (.object members) := by
  rw [htext]
  exact parse_compact (.object h)

theorem parse_pretty {v : Json} (h : Legible v) : parse v.pretty = some v := parse_write h (some 0)

end MixAsm.Json
