import MixAsm.Proofs.Program.Layout
import MixAsm.Proofs.Text.Lines

namespace MixAsm

/-!
# Programs one below the other

A text below another one that ends its last line is read as if it stood alone, save that its lines
have higher numbers. So no line of either has a part in what another one is read as, or in what is
written for it.

* `Program.append` — a program below another;
* `Program.parse_append` — what is read of a text below another;
* `Program.layout_parse_append` — what is written for it;
* `Program.lines_render_parse_append` — both together.
-/

/-- The line, with `k` more lines above it. -/
def ParsedLine.shift (k : Nat) (l : ParsedLine) : ParsedLine := { l with number := l.number + k }

namespace Program

variable {cfg : Config} {a b : String}

/-- The lines of `p`, and those of `q` below them. -/
def append (p q : Program) : Program where
  lines := p.lines ++ q.lines.map (ParsedLine.shift p.sourceLines)
  sourceLines := p.sourceLines + q.sourceLines

/-! ### Lines that are read -/

theorem linesFrom_append (n : Nat) (ls ls' : List String) :
    linesFrom cfg n (ls ++ ls') = linesFrom cfg n ls ++ linesFrom cfg (n + ls.length) ls' := by
  unfold linesFrom
  rw [List.zipIdx_append, List.filterMap_append]

/-- What is read of a line does not depend on its number. -/
theorem linesFrom_add (n k : Nat) (ls : List String) :
    linesFrom cfg (n + k) ls = (linesFrom cfg n ls).map (ParsedLine.shift k) := by
  induction ls generalizing n with
  | nil => rfl
  | cons l ls ih =>
    have hrest : linesFrom cfg (n + k + 1) ls
        = (linesFrom cfg (n + 1) ls).map (ParsedLine.shift k) := by
      rw [← ih, Nat.add_right_comm]
    cases hread : reading cfg l with
    | none => rw [linesFrom_cons_of_none hread, linesFrom_cons_of_none hread, hrest]
    | some r =>
      rw [linesFrom_cons_of_some hread, linesFrom_cons_of_some hread, hrest, List.map_cons]
      rfl

/-- A text below another that ends its last line is a program below a program. -/
theorem parse_append (h : Text.IsWhole a) :
    parse cfg (a ++ b) = (parse cfg a).append (parse cfg b) := by
  have hlines : (parse cfg (a ++ b)).lines
      = (parse cfg a).lines ++ (parse cfg b).lines.map (ParsedLine.shift (Text.lines a).length) := by
    rw [lines_parse, lines_parse, lines_parse, Text.lines_append h, linesFrom_append, linesFrom_add]
  have hnumber : (parse cfg (a ++ b)).sourceLines
      = (parse cfg a).sourceLines + (parse cfg b).sourceLines := by
    show (Text.lines (a ++ b)).length = (Text.lines a).length + (Text.lines b).length
    rw [Text.lines_append h, List.length_append]
  rw [append, ← hnumber]
  exact congrArg (Program.mk · _) hlines

/-! ### Lines that are written -/

theorem readings_append (h : Text.IsWhole a) :
    readings cfg (a ++ b) = readings cfg a ++ readings cfg b := by
  rw [readings, Text.lines_append h, List.map_append]
  rfl

/-- Lines stand for readings in two parts exactly if each part stands for its own. -/
theorem laidOut_append_iff {rs rs' : List (Option (Except ParseError Instruction))}
    {ls : List String} :
    List.Forall₂ LaidOut (rs ++ rs') ls ↔
      ∃ xs ys, List.Forall₂ LaidOut rs xs ∧ List.Forall₂ LaidOut rs' ys ∧ xs ++ ys = ls := by
  constructor
  · intro h
    -- the library cuts the other of two related lists
    have hflip := h.flip
    have hfront := (List.forall₂_take_append ls rs rs' hflip).flip
    have hback := (List.forall₂_drop_append ls rs rs' hflip).flip
    exact ⟨_, _, hfront, hback, List.take_append_drop rs.length ls⟩
  · rintro ⟨xs, ys, hxs, hys, rfl⟩
    exact List.rel_append hxs hys

/-- The layout of a text below another is a layout of each, one below the other. -/
theorem layout_parse_append (h : Text.IsWhole a) {ls : List String} :
    (parse cfg (a ++ b)).layout = .ok ls ↔
      ∃ xs ys, (parse cfg a).layout = .ok xs ∧ (parse cfg b).layout = .ok ys ∧ xs ++ ys = ls := by
  simp only [layout_parse_eq_ok_iff, readings_append h, laidOut_append_iff]

theorem render_parse_append (h : Text.IsWhole a) {out : String} :
    (parse cfg (a ++ b)).render = .ok out ↔
      ∃ x y, (parse cfg a).render = .ok x ∧ (parse cfg b).render = .ok y ∧ x ++ y = out := by
  simp only [render, map_eq_ok_iff, layout_parse_append h]
  constructor
  · rintro ⟨_, ⟨xs, ys, hxs, hys, rfl⟩, rfl⟩
    refine ⟨_, _, ⟨xs, hxs, rfl⟩, ⟨ys, hys, rfl⟩, ?_⟩
    rw [List.map_append, String.join_append]
  · rintro ⟨_, _, ⟨xs, hxs, rfl⟩, ⟨ys, hys, rfl⟩, rfl⟩
    refine ⟨xs ++ ys, ⟨xs, ys, hxs, hys, rfl⟩, ?_⟩
    rw [List.map_append, String.join_append]

/-- **Concatenation.** A text below another one that ends its last line adds its lines to the
    other's. Those that are read are read as they are in either text, the lower ones with the
    number of lines above added to theirs. And the canonical text of the whole is the canonical
    texts of both, one below the other; it has one exactly if both do. -/
theorem lines_render_parse_append (h : Text.IsWhole a) :
    let above := parse cfg a
    let below := parse cfg b
    let whole := parse cfg (a ++ b)
    whole.sourceLines = above.sourceLines + below.sourceLines ∧
      whole.lines = above.lines ++ below.lines.map (ParsedLine.shift above.sourceLines) ∧
      ∀ out, whole.render = .ok out ↔
        ∃ x y, above.render = .ok x ∧ below.render = .ok y ∧ x ++ y = out := by
  intro above below whole
  have happend : whole = above.append below := parse_append h
  refine ⟨?_, ?_, fun out => render_parse_append h⟩
  · rw [happend]
    rfl
  · rw [happend]
    rfl

/-- An empty line on either side of the seam, and no line feed at the end. -/
theorem lines_render_parse_append_blank :
    Text.IsWhole "nop\n\n" ∧
      (parse ⟨true, true, true⟩ ("nop\n\n" ++ "\r\nhalt")).sourceLines = 2 + 2 ∧
      (parse ⟨true, true, true⟩ ("nop\n\n" ++ "\r\nhalt")).lines
        = (parse ⟨true, true, true⟩ "nop\n\n").lines
          ++ (parse ⟨true, true, true⟩ "\r\nhalt").lines.map (ParsedLine.shift 2) ∧
      (parse ⟨true, true, true⟩ ("nop\n\n" ++ "\r\nhalt")).render
        = .ok ("NOP\n\n" ++ "\nHALT\n") := by
  have hwhole : Text.IsWhole "nop\n\n" := .inr ⟨"nop\n", rfl⟩
  obtain ⟨hnumber, hlines, hrender⟩ :=
    @lines_render_parse_append ⟨true, true, true⟩ "nop\n\n" "\r\nhalt" hwhole
  have habove : (parse ⟨true, true, true⟩ "nop\n\n").render = .ok "NOP\n\n" := by
    decide +kernel
  have hbelow : (parse ⟨true, true, true⟩ "\r\nhalt").render = .ok "\nHALT\n" := by
    decide +kernel
  have htwo : (parse ⟨true, true, true⟩ "nop\n\n").sourceLines = 2 := by
    decide +kernel
  have htwo' : (parse ⟨true, true, true⟩ "\r\nhalt").sourceLines = 2 := by
    decide +kernel
  refine ⟨hwhole, ?_, ?_, ?_⟩
  · rw [hnumber, htwo, htwo']
  · rw [hlines, htwo]
  · exact (hrender _).mpr ⟨_, _, habove, hbelow, rfl⟩

end Program

end MixAsm
