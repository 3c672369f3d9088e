import MixAsm.Program.Parallel

namespace MixAsm

/-!
# Threads change nothing

The runs that the threads read are the lines in order, whatever their length, and a thread reads a
line as it is read without threads. So a program read on several threads is the program.

* `flatten_chunks` — the runs in order are the list;
* `Program.parseParallel_eq_parse` — the program that is read on several threads.
-/

/-! ### Runs -/

/-- Nothing is lost or changes its place where a list is cut into runs. -/
theorem flatten_chunks {α : Type} (size : Nat) (xs : List α) : (chunks size xs).flatten = xs := by
  induction xs using chunks.induct size with
  | case1 => rw [chunks, List.flatten_nil]
  | case2 x rest ih =>
    rw [chunks, List.flatten_cons, ih, List.cons_append, List.take_append_drop]

/-! ### Threads -/

/-- Waiting for threads one after the other gives what they compute in this order. -/
theorem flatMap_get_spawn {α β : Type} (f : α → List β) (xs : List α) :
    (xs.map fun x => Task.spawn fun _ => f x).flatMap Task.get = xs.flatMap f := by
  rw [List.flatMap_map]
  rfl

/-- There is a thread at least, however few were asked for or can run. -/
theorem workerCount_pos (requested lines limit : Nat) : 0 < workerCount requested lines limit := by
  rw [workerCount]
  omega

/-- A run has a line at least. -/
theorem chunkSize_pos (lines workers : Nat) : 0 < chunkSize lines workers := by
  rw [chunkSize]
  omega

namespace Program

/-- Reading the lines in runs, on a thread each, reads the lines. -/
theorem flatMap_threads (cfg : Config) (size : Nat) (numbered : List NumberedLine) :
    ((chunks size numbered).map fun run =>
        Task.spawn fun _ => run.map (NumberedLine.parse cfg)).flatMap Task.get =
      numbered.map (NumberedLine.parse cfg) := by
  rw [flatMap_get_spawn, List.flatMap_def, ← List.map_flatten, flatten_chunks]

/-- **Threads.** A program read on several threads is the program read on one, however many are
    asked for and whatever the machine runs at once. The number of threads that the lines are
    divided by is never zero, nor is the length of a run. -/
theorem parseParallel_eq_parse (cfg : Config) (limit : Option Nat) (requested : Nat)
    (text : String) :
    let lines := (numberedLines cfg text).length
    let workers := workerCount requested lines (limit.getD 1)
    0 < workers ∧ 0 < chunkSize lines workers ∧
      parseParallel cfg limit requested text = parse cfg text := by
  intro lines workers
  refine ⟨workerCount_pos .., chunkSize_pos .., ?_⟩
  simp only [parseParallel, flatMap_threads, parse]

end Program

end MixAsm
