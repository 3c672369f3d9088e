import Mathlib.Data.List.DropRight

namespace MixAsm.Text

/-!
# Squeezed lines

A line without its spare spaces: none at either end, and one only where several stand side by side.

* `strip` — no space at either end;
* `collapseRuns` — one space for each run of spaces;
* `squeeze` — a line with neither;
* `find?_squeeze` — squeezing takes away nothing but spaces.
-/

/-- The characters without the spaces at either end. -/
def strip (cs : List Char) : List Char := (cs.dropWhile (· = ' ')).rdropWhile (· = ' ')

/-- The characters with one space for each run of spaces. -/
def collapseRuns : List Char → List Char
  | [] => []
  | c :: cs => if c = ' ' ∧ cs.head? = some ' ' then collapseRuns cs else c :: collapseRuns cs

/-- The line without spaces at either end, and with one space for each run of spaces inside. -/
def squeeze (line : String) : String := String.ofList (collapseRuns (strip line.toList))

/-! ### Ends -/

/-- What is stripped off either end is spaces. -/
theorem exists_strip (cs : List Char) :
    ∃ l r, cs = l ++ strip cs ++ r ∧ (∀ c ∈ l, c = ' ') ∧ ∀ c ∈ r, c = ' ' := by
  refine ⟨cs.takeWhile (· = ' '), (cs.dropWhile (· = ' ')).rtakeWhile (· = ' '), ?_, ?_, ?_⟩
  · rw [List.append_assoc, strip, List.rdropWhile_append_rtakeWhile,
      List.takeWhile_append_dropWhile]
  · intro c hc
    simpa using List.mem_takeWhile_imp hc
  · intro c hc
    simpa using List.mem_rtakeWhile_imp hc

theorem head?_strip_ne (cs : List Char) : (strip cs).head? ≠ some ' ' := by
  intro h
  -- the front is stripped first, and what is left of it then stays in front
  obtain ⟨r, hr⟩ := List.rdropWhile_prefix (· = ' ') (cs.dropWhile (· = ' '))
  have hhead : (cs.dropWhile (· = ' ')).head? = some ' ' := by
    rw [← hr, List.head?_append]
    show (strip cs).head?.or r.head? = some ' '
    rw [h, Option.some_or]
  have hnot := List.head?_dropWhile_not (· = ' ') cs
  rw [hhead] at hnot
  simp at hnot

theorem getLast?_strip_ne (cs : List Char) : (strip cs).getLast? ≠ some ' ' := by
  intro h
  obtain ⟨front, hfront⟩ := List.getLast?_eq_some_iff.mp h
  have hne : (cs.dropWhile (· = ' ')).rdropWhile (· = ' ') ≠ [] := by
    show strip cs ≠ []
    simp [hfront]
  apply List.rdropWhile_last_not (· = ' ') (cs.dropWhile (· = ' ')) hne
  show decide ((strip cs).getLast hne = ' ') = true
  simp [hfront]

/-! ### Runs -/

/-- A run of spaces is collapsed to one. -/
theorem collapseRuns_spaces {run cs : List Char} (hne : run ≠ []) (hrun : ∀ c ∈ run, c = ' ')
    (hcs : cs.head? ≠ some ' ') : collapseRuns (run ++ cs) = ' ' :: collapseRuns cs := by
  induction run with
  | nil => exact absurd rfl hne
  | cons c run ih =>
    rw [List.forall_mem_cons] at hrun
    obtain ⟨rfl, hrun⟩ := hrun
    cases run with
    | nil => rw [List.singleton_append, collapseRuns, if_neg (fun h => hcs h.2)]
    | cons d run =>
      obtain rfl : d = ' ' := hrun d List.mem_cons_self
      rw [List.cons_append, collapseRuns, if_pos ⟨rfl, rfl⟩, ih (by simp) hrun]

/-- Characters that are no spaces are kept. -/
theorem collapseRuns_append {run : List Char} (hrun : ∀ c ∈ run, c ≠ ' ') (cs : List Char) :
    collapseRuns (run ++ cs) = run ++ collapseRuns cs := by
  induction run with
  | nil => rfl
  | cons c run ih =>
    rw [List.forall_mem_cons] at hrun
    rw [List.cons_append, collapseRuns, if_neg (fun h => hrun.1 h.1), ih hrun.2, List.cons_append]

/-! ### What is kept -/

theorem filter_collapseRuns (cs : List Char) :
    (collapseRuns cs).filter (!· = ' ') = cs.filter (!· = ' ') := by
  induction cs with
  | nil => rfl
  | cons c cs ih =>
    rw [collapseRuns]
    split
    · next h => simp [ih, h.1]
    · simp [List.filter_cons, ih]

theorem filter_strip (cs : List Char) : (strip cs).filter (!· = ' ') = cs.filter (!· = ' ') := by
  obtain ⟨l, r, hcs, hl, hr⟩ := exists_strip cs
  have hspaces : ∀ s : List Char, (∀ c ∈ s, c = ' ') → s.filter (!· = ' ') = [] := by
    intro s hs
    simpa using hs
  conv_rhs => rw [hcs, List.filter_append, List.filter_append, hspaces l hl, hspaces r hr]
  simp

/-- The first character with some property that spaces lack is the same in the squeezed line. -/
theorem find?_squeeze {p : Char → Bool} (hp : p ' ' = false) (line : String) :
    (squeeze line).toList.find? p = line.toList.find? p := by
  have hfilter : ∀ cs : List Char, (cs.filter (!· = ' ')).find? p = cs.find? p := by
    intro cs
    rw [List.find?_filter]
    congr 1
    funext c
    by_cases hc : c = ' '
    · simp [hc, hp]
    · simp [hc]
  rw [squeeze, String.toList_ofList, ← hfilter, filter_collapseRuns, filter_strip, hfilter]

end MixAsm.Text
