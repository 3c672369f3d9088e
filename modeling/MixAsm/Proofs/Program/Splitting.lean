import Mathlib.Algebra.Order.Floor.Div
import MixAsm.Proofs.Program.Parallel

namespace MixAsm

/-!
# How the lines are shared

The lines are cut into runs so long that the threads there are can take one each. So a line is in
exactly one run, and no more threads are started than were asked for, than there are lines and than
the machine runs at once, but for the one that there always is.

* `Runs` — a list cut into runs of one length, but for a shorter one at the end;
* `runs_chunks`, `length_chunks` — the runs that a list is cut into, and how many they are;
* `length_chunks_le` — there are threads enough to take them;
* `chunks_share_lines` — all of this together, for any list of lines.
-/

variable {α : Type} {size workers : Nat} {xs : List α}

/-! ### Threads -/

/-- Beyond the first thread none is started that was not asked for, would have no line or could
    not run. -/
theorem workerCount_le (requested lines limit : Nat) :
    workerCount requested lines limit ≤ max 1 (min requested (min lines limit)) := by
  rw [workerCount]
  omega

theorem chunkSize_eq_ceilDiv (lines workers : Nat) :
    chunkSize lines workers = max (lines ⌈/⌉ workers) 1 := by
  rw [chunkSize, Nat.ceilDiv_eq_add_pred_div]

/-- If each thread takes as many lines as a run has, no line is left. -/
theorem le_chunkSize_mul (hworkers : 0 < workers) (lines : Nat) :
    lines ≤ chunkSize lines workers * workers := by
  have hsize : lines ⌈/⌉ workers ≤ chunkSize lines workers := by
    rw [chunkSize_eq_ceilDiv]
    exact Nat.le_max_left _ 1
  calc lines
      ≤ workers * (lines ⌈/⌉ workers) := le_smul_ceilDiv hworkers
    _ ≤ workers * chunkSize lines workers := Nat.mul_le_mul_left workers hsize
    _ = chunkSize lines workers * workers := Nat.mul_comm ..

/-! ### Runs -/

/-- In their order the runs are the list. None of them is empty or has more than `size` elements,
    and only the last one may have fewer. -/
structure Runs (size : Nat) (xs : List α) (runs : List (List α)) : Prop where
  flatten_eq : runs.flatten = xs
  ne_nil : ∀ run ∈ runs, run ≠ []
  length_le : ∀ run ∈ runs, run.length ≤ size
  length_eq : ∀ run ∈ runs.dropLast, run.length = size

/-- A run in front of others has to be full, unless there are no others. -/
theorem Runs.cons {run : List α} {runs : List (List α)} (h : Runs size xs runs) (hne : run ≠ [])
    (hle : run.length ≤ size) (hfull : runs ≠ [] → run.length = size) :
    Runs size (run ++ xs) (run :: runs) := by
  refine ⟨?_, ?_, ?_, ?_⟩
  · rw [List.flatten_cons, h.flatten_eq]
  · exact List.forall_mem_cons.mpr ⟨hne, h.ne_nil⟩
  · exact List.forall_mem_cons.mpr ⟨hle, h.length_le⟩
  · cases runs with
    | nil => simp
    | cons next rest =>
      rw [List.dropLast_cons_cons]
      exact List.forall_mem_cons.mpr ⟨hfull (List.cons_ne_nil next rest), h.length_eq⟩

theorem chunks_eq_nil_iff : chunks size xs = [] ↔ xs = [] := by
  cases xs <;> simp [chunks]

theorem runs_chunks (hsize : 0 < size) (xs : List α) : Runs size xs (chunks size xs) := by
  induction xs using chunks.induct size with
  | case1 =>
    rw [chunks]
    exact ⟨rfl, by simp, by simp, by simp⟩
  | case2 x rest ih =>
    have hlength : (x :: rest.take (size - 1)).length = min size (rest.length + 1) := by
      rw [List.length_cons, List.length_take]
      omega
    have hfull : chunks size (rest.drop (size - 1)) ≠ [] →
        (x :: rest.take (size - 1)).length = size := by
      -- where something is left behind the run, the run took all it could
      intro hnext
      rw [Ne, chunks_eq_nil_iff, List.drop_eq_nil_iff] at hnext
      omega
    have hcons := ih.cons (List.cons_ne_nil x _) (hlength ▸ Nat.min_le_left ..) hfull
    rw [List.cons_append, List.take_append_drop] at hcons
    rwa [chunks]

/-- There are as many runs as it takes to hold the list. -/
theorem length_chunks (hsize : 0 < size) (xs : List α) :
    (chunks size xs).length = xs.length ⌈/⌉ size := by
  induction xs using chunks.induct size with
  | case1 => simp [chunks]
  | case2 x rest ih =>
    have hrest : (rest.length - (size - 1) + size - 1) / size = rest.length / size := by
      by_cases hlong : size - 1 ≤ rest.length
      · congr 1
        omega
      · rw [Nat.div_eq_of_lt (by omega), Nat.div_eq_of_lt (by omega)]
    calc (chunks size (x :: rest)).length
        = (rest.length - (size - 1)) ⌈/⌉ size + 1 := by
          rw [chunks, List.length_cons, ih, List.length_drop]
      _ = rest.length / size + 1 := by rw [Nat.ceilDiv_eq_add_pred_div, hrest]
      _ = (rest.length + size) / size := (Nat.add_div_right _ hsize).symm
      _ = (x :: rest).length ⌈/⌉ size := by
          rw [Nat.ceilDiv_eq_add_pred_div, List.length_cons]
          congr 1
          omega

/-- There is a thread for each run. -/
theorem length_chunks_le (hworkers : 0 < workers) (xs : List α) :
    (chunks (chunkSize xs.length workers) xs).length ≤ workers := by
  have hsize := chunkSize_pos xs.length workers
  rw [length_chunks hsize, ceilDiv_le_iff_le_mul hsize]
  exact le_chunkSize_mul hworkers xs.length

/-- **Shares.** Whatever number of threads is asked for and can run, there is at least one, and
    beyond the first none that was not asked for, would have no line or could not run. The lines
    are cut into runs of as many lines as fall to a thread, rounded up, and at least of one. There
    are no more runs than threads, and none exactly if there are no lines. -/
theorem chunks_share_lines (requested limit : Nat) (xs : List α) :
    let lines := xs.length
    let workers := workerCount requested lines limit
    let size := chunkSize lines workers
    1 ≤ workers ∧ workers ≤ max 1 (min requested (min lines limit)) ∧
      size = max (lines ⌈/⌉ workers) 1 ∧ (chunks size xs).length = lines ⌈/⌉ size ∧
      (chunks size xs).length ≤ workers ∧ Runs size xs (chunks size xs) ∧
      (chunks size xs = [] ↔ lines = 0) := by
  intro lines workers size
  have hworkers : 0 < workers := workerCount_pos requested lines limit
  have hsize : 0 < size := chunkSize_pos lines workers
  refine ⟨hworkers, workerCount_le requested lines limit, chunkSize_eq_ceilDiv lines workers,
    length_chunks hsize xs, length_chunks_le hworkers xs, runs_chunks hsize xs, ?_⟩
  rw [chunks_eq_nil_iff, List.length_eq_zero_iff]

/-- Of four threads that share five lines, one has nothing to do. -/
example : chunks (chunkSize 5 (workerCount 9 5 4)) [1, 2, 3, 4, 5] = [[1, 2], [3, 4], [5]] := by
  cbv

end MixAsm
