import MixAsm.Program

namespace MixAsm

/-!
# Reading a text on several threads

The lines of a text are cut into runs of equal length, one thread reads each run, and the results
are put together in the order of the runs.

* `workerCount` — how many threads share the lines;
* `chunks` — the runs;
* `Program.parseParallel` — the program, read on several threads.
-/

/-- How many threads share the work: no more than asked for, than there are lines and than the
    machine runs at once, but at least one. -/
def workerCount (requested lines limit : Nat) : Nat := max (min (min requested lines) limit) 1

/-- How many lines each of `workers` threads takes, the last one perhaps fewer. -/
def chunkSize (lines workers : Nat) : Nat := max ((lines + workers - 1) / workers) 1

/-- Cut a list into runs of `size` elements, or of one if `size` is zero; the last run may be
    shorter. -/
def chunks {α : Type} (size : Nat) (xs : List α) : List (List α) :=
  match xs with
  | [] => []
  | x :: rest => (x :: rest.take (size - 1)) :: chunks size (rest.drop (size - 1))
termination_by xs.length
decreasing_by
  simp only [List.length_drop, List.length_cons]
  omega

/-- The program that a text writes, read on at most `requested` threads of a machine that runs
    `limit` threads at once, or an unknown number of them. -/
def Program.parseParallel (cfg : Config) (limit : Option Nat) (requested : Nat) (text : String) :
    Program :=
  let numbered := numberedLines cfg text
  let workers := workerCount requested numbered.length (limit.getD 1)
  let runs := chunks (chunkSize numbered.length workers) numbered
  let threads := runs.map fun run => Task.spawn fun _ => run.map (NumberedLine.parse cfg)
  { lines := threads.flatMap Task.get
    sourceLines := (Text.lines text).length }

end MixAsm
