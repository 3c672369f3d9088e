import MixAsm.Proofs.Text.Lines

namespace MixAsm.Text

/-!
# Lines and their ends

A text is its lines put one behind the other, each with a line feed as its end, or with a carriage
return and a line feed. The last line may go without an end, unless it is empty. The lines of a
text are the only ones that make it up in this way.

* `Lined` — the texts that some lines make up;
* `splitLines_eq_iff` — the lines of a text;
* `withReturns`, `lines_withReturns` — a carriage return put in front of each line feed;
* `lineAt?` — the line with a number;
* `isWhole_join`, `count_newline_join` — the text that a line feed behind each line makes.
-/

variable {c : Char} {cs l : List Char} {ls : List (List Char)}

/-- The lines make up the text, each with an end that is not part of it. -/
inductive Lined : List (List Char) → List Char → Prop
  | nil : Lined [] []
  | last {l : List Char} : l ≠ [] → '\n' ∉ l → Lined [l] l
  | newline {l cs : List Char} {ls : List (List Char)} :
    IsLine l → Lined ls cs → Lined (l :: ls) (l ++ '\n' :: cs)
  | carriageReturn {l cs : List Char} {ls : List (List Char)} :
    '\n' ∉ l → Lined ls cs → Lined (l :: ls) (l ++ '\r' :: '\n' :: cs)

/-- No line holds a line feed. -/
theorem Lined.newline_not_mem (h : Lined ls cs) : ∀ l ∈ ls, '\n' ∉ l := by
  induction h with
  | nil => simp
  | last _ hl => simpa using hl
  | newline hl _ ih => exact List.forall_mem_cons.mpr ⟨hl.newline_not_mem, ih⟩
  | carriageReturn hl _ ih => exact List.forall_mem_cons.mpr ⟨hl, ih⟩

/-! ### The lines that make up a text -/

/-- A character that is no part of a line's end belongs to the first line. -/
theorem splitLines_cons (hc : c ≠ '\n') (hend : ¬ (c = '\r' ∧ cs.head? = some '\n')) :
    splitLines (c :: cs) = consToHead c (splitLines cs) := by
  rw [splitLines, if_neg hc, if_neg hend]

theorem splitLines_carriageReturn (cs : List Char) :
    splitLines ('\r' :: '\n' :: cs) = [] :: splitLines cs := by
  simp [splitLines]

theorem ne_newline_of_not_mem (h : '\n' ∉ c :: l) : c ≠ '\n' ∧ '\n' ∉ l := by
  rw [List.mem_cons, not_or] at h
  exact ⟨fun hc => h.1 hc.symm, h.2⟩

/-- A line that nothing ends is the only line of its text. -/
theorem splitLines_of_not_mem (hne : l ≠ []) (h : '\n' ∉ l) : splitLines l = [l] := by
  induction l with
  | nil => exact absurd rfl hne
  | cons c l ih =>
    obtain ⟨hc, hl⟩ := ne_newline_of_not_mem h
    have hend : ¬ (c = '\r' ∧ l.head? = some '\n') := by
      rintro ⟨-, hhead⟩
      exact hl (List.mem_of_mem_head? hhead)
    rw [splitLines_cons hc hend]
    by_cases hnil : l = []
    · rw [hnil, splitLines_nil, consToHead]
    · rw [ih hnil hl, consToHead]

/-- A line at the front of a text that a carriage return ends with the line feed behind it. -/
theorem splitLines_append_carriageReturn (h : '\n' ∉ l) (cs : List Char) :
    splitLines (l ++ '\r' :: '\n' :: cs) = l :: splitLines cs := by
  induction l with
  | nil => exact splitLines_carriageReturn cs
  | cons c l ih =>
    obtain ⟨hc, hl⟩ := ne_newline_of_not_mem h
    have hend : ¬ (c = '\r' ∧ (l ++ '\r' :: '\n' :: cs).head? = some '\n') := by
      rintro ⟨-, hhead⟩
      cases l with
      | nil => cases hhead
      | cons d l => exact (ne_newline_of_not_mem hl).1 (Option.some.inj hhead)
    rw [List.cons_append, splitLines_cons hc hend, ih hl, consToHead]

/-- A character that is no part of a line's end, in front of a text and of its first line. -/
theorem Lined.consToHead (hc : c ≠ '\n') (hend : ¬ (c = '\r' ∧ cs.head? = some '\n'))
    (h : Lined ls cs) : Lined (consToHead c ls) (c :: cs) := by
  have hnotMem : ∀ {l : List Char}, '\n' ∉ l → '\n' ∉ c :: l := by
    intro l hl hmem
    rcases List.mem_cons.mp hmem with heq | hmem
    · exact hc heq.symm
    · exact hl hmem
  cases h with
  | nil => exact .last (by simp) (hnotMem (by simp))
  | last _ hl => exact .last (by simp) (hnotMem hl)
  | @newline l cs ls hl h =>
    refine .newline ⟨hnotMem hl.newline_not_mem, ?_⟩ h
    -- the line may have been empty, and then the line feed of its end stands behind `c`
    cases l with
    | nil => simpa using hend
    | cons d l =>
      rw [List.getLast?_cons_cons]
      exact hl.getLast?_ne
  | carriageReturn hl h => exact .carriageReturn (hnotMem hl) h

/-- A text is made up of its lines. -/
theorem lined_splitLines (cs : List Char) : Lined (splitLines cs) cs := by
  induction cs with
  | nil => exact .nil
  | cons c cs ih =>
    by_cases hc : c = '\n'
    · rw [hc, splitLines_newline]
      exact .newline ⟨by simp, by simp⟩ ih
    by_cases hend : c = '\r' ∧ cs.head? = some '\n'
    · obtain ⟨rfl, hhead⟩ := hend
      obtain ⟨cs, rfl⟩ := List.head?_eq_some_iff.mp hhead
      rw [splitLines_newline] at ih
      rw [splitLines_carriageReturn]
      -- the line feed ends an empty line, and the carriage return becomes part of that end
      generalize splitLines cs = ls at ih ⊢
      cases ih with
      | newline hl h => exact .carriageReturn hl.newline_not_mem h
    · rw [splitLines_cons hc hend]
      exact ih.consToHead hc hend

/-- **Lines.** The lines of a text are the only ones that make it up. -/
theorem splitLines_eq_iff : splitLines cs = ls ↔ Lined ls cs := by
  constructor
  · rintro rfl
    exact lined_splitLines cs
  · intro h
    induction h with
    | nil => rfl
    | last hne hl => exact splitLines_of_not_mem hne hl
    | newline hl _ ih => rw [splitLines_append_newline hl, ih]
    | carriageReturn hl _ ih => rw [splitLines_append_carriageReturn hl, ih]

/-! ### Either end of a line -/

/-- The characters with a carriage return put in front of each line feed. -/
def putReturns (cs : List Char) : List Char :=
  cs.flatMap fun c => if c = '\n' then ['\r', '\n'] else [c]

theorem putReturns_append (cs cs' : List Char) :
    putReturns (cs ++ cs') = putReturns cs ++ putReturns cs' := List.flatMap_append

theorem putReturns_of_not_mem (h : '\n' ∉ l) : putReturns l = l := by
  induction l with
  | nil => rfl
  | cons c l ih =>
    obtain ⟨hc, hl⟩ := ne_newline_of_not_mem h
    show (if c = '\n' then ['\r', '\n'] else [c]) ++ putReturns l = c :: l
    rw [if_neg hc, ih hl, List.singleton_append]

/-- Where lines end without carriage returns, these can be put in front of their line feeds. -/
theorem Lined.putReturns (h : Lined ls cs) (hcs : '\r' ∉ cs) : Lined ls (putReturns cs) := by
  induction h with
  | nil => exact .nil
  | last hne hl =>
    rw [putReturns_of_not_mem hl]
    exact .last hne hl
  | @newline l cs ls hl _ ih =>
    have hrest : '\r' ∉ cs := fun hmem => hcs (by simp [hmem])
    rw [putReturns_append, putReturns_of_not_mem hl.newline_not_mem]
    exact .carriageReturn hl.newline_not_mem (ih hrest)
  | carriageReturn => exact absurd (by simp) hcs

/-- A text with a carriage return put in front of each line feed. -/
def withReturns (text : String) : String := String.ofList (putReturns text.toList)

/-- A text has the same lines with either end, if it has no carriage returns that could be taken for
    part of an end. -/
theorem lines_withReturns {text : String} (h : '\r' ∉ text.toList) :
    lines (withReturns text) = lines text := by
  unfold lines withReturns
  rw [String.toList_ofList, splitLines_eq_iff.mpr ((lined_splitLines text.toList).putReturns h)]

/-- A line feed is one behind a carriage return. -/
theorem return_mem_withReturns {text : String} (h : '\n' ∈ text.toList) :
    '\r' ∈ (withReturns text).toList := by
  rw [withReturns, String.toList_ofList, putReturns, List.mem_flatMap]
  exact ⟨'\n', h, by simp⟩

/-! ### Lines by their numbers -/

/-- The line with the number, which is 1 for the first line. -/
def lineAt? (text : String) : Nat → Option String
  | 0 => none
  | k + 1 => (lines text)[k]?

theorem lineAt?_eq_some_iff {text line : String} {n : Nat} :
    lineAt? text n = some line ↔ 1 ≤ n ∧ (lines text)[n - 1]? = some line := by
  cases n with
  | zero => simp [lineAt?]
  | succ k => simp [lineAt?]

/-- The numbers of the lines go from 1 to the number of lines. -/
theorem exists_lineAt?_iff {text : String} {n : Nat} :
    (∃ line, lineAt? text n = some line) ↔ 1 ≤ n ∧ n ≤ (lines text).length := by
  simp only [lineAt?_eq_some_iff, exists_and_left, List.getElem?_eq_some_iff]
  constructor
  · rintro ⟨hn, -, hlt, -⟩
    omega
  · rintro ⟨hn, hle⟩
    exact ⟨hn, _, by omega, rfl⟩

/-- A line of a text holds no line feed. -/
theorem newline_not_mem_of_lineAt? {text line : String} {n : Nat}
    (h : lineAt? text n = some line) : '\n' ∉ line.toList := by
  have hmem : line ∈ lines text := List.mem_of_getElem? (lineAt?_eq_some_iff.mp h).2
  obtain ⟨l, hl, rfl⟩ := List.mem_map.mp hmem
  rw [String.toList_ofList]
  exact (lined_splitLines text.toList).newline_not_mem l hl

/-! ### A line feed behind each line -/

variable {ls : List String}

theorem isWhole_join (ls : List String) : IsWhole (String.join (ls.map (· ++ "\n"))) := by
  rcases ls.eq_nil_or_concat with rfl | ⟨front, l, rfl⟩
  · exact .inl rfl
  · refine .inr ⟨String.join (front.map (· ++ "\n")) ++ l, ?_⟩
    simp [String.join_append, String.append_assoc]

/-- There are as many line feeds as lines, if these hold none. -/
theorem count_newline_join (h : ∀ l ∈ ls, '\n' ∉ l.toList) :
    (String.join (ls.map (· ++ "\n"))).toList.count '\n' = ls.length := by
  induction ls with
  | nil => rfl
  | cons l ls ih =>
    rw [List.forall_mem_cons] at h
    have hl : l.toList.count '\n' = 0 := List.count_eq_zero.mpr h.1
    have hls := ih h.2
    simp only [List.map_cons, String.join_cons, String.toList_append, List.count_append, hl, hls,
      List.length_cons]
    rw [Nat.zero_add, Nat.add_comm]
    rfl

end MixAsm.Text
