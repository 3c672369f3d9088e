namespace MixAsm

/-!
# Configuration

What a reader of lines lets pass beyond the strict grammar.
-/

/-- What a reader of lines lets pass; by default only what the grammar allows. -/
structure Config where
  /-- Letters of either case are read as capitals. -/
  caseInsensitive : Bool := false
  /-- Spaces may surround the line and be repeated before the operands. -/
  collapseSpaces : Bool := false
  /-- Blank lines of a text are passed over. -/
  skipBlankLines : Bool := true
  deriving DecidableEq, Repr

/-- The character that a reader takes `c` for. -/
def Config.fold (cfg : Config) (c : Char) : Char :=
  if cfg.caseInsensitive then c.toUpper else c

end MixAsm
