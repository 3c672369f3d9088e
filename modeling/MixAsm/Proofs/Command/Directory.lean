import MixAsm.Command.Directory
import MixAsm.Proofs.Lists
import MixAsm.Proofs.Outcome

namespace MixAsm.Command.Directory

/-!
# Writing a file leaves the others alone

A file that is written reads as what was written, under every path that names it. Every other file
keeps its contents, and every path that named a file names it still: a folder on the way stays a
folder, and no file becomes one.

* `step_put`, `walk_put`, `locate_put` — paths once a file is put;
* `read?_of_write` — the file that is written;
* `read?_of_write_of_ne` — any other file.
-/

variable {d after : Directory} {place : Location} {path : String}

/-! ### Contents -/

@[simp] theorem contents?_put (d : Directory) (place : Location) (contents : ByteArray) :
    (d.put place contents).contents? place = some contents := by
  simp [put, contents?]

/-- Putting a file leaves the others as they are. -/
theorem contents?_put_of_ne (d : Directory) {place other : Location} (contents : ByteArray)
    (h : other ≠ place) : (d.put place contents).contents? other = d.contents? other := by
  have hfirst : (other == place) = false := by simpa using h
  have hkept : ∀ file : Location × ByteArray, file.1 = other → decide (file.1 ≠ place) := by
    intro file hfile
    simpa [hfile] using h
  unfold put contents?
  rw [List.lookup_cons, hfirst]
  exact lookup_filter hkept d.files

/-! ### Folders -/

theorem isFolder_iff :
    d.isFolder place ↔ place = [] ∨ ∃ file ∈ d.files, place <+: file.1 ∧ file.1 ≠ place := by
  simp [isFolder]

/-- Whatever leads down to a folder is a folder. -/
theorem isFolder_of_prefix {other : Location} (h : d.isFolder place) (hleads : other <+: place) :
    d.isFolder other := by
  rw [isFolder_iff] at h ⊢
  by_cases hother : other = []
  · exact .inl hother
  rcases h with rfl | ⟨file, hmem, hbelow, hne⟩
  · exact absurd (List.prefix_nil.mp hleads) hother
  · refine .inr ⟨file, hmem, hleads.trans hbelow, ?_⟩
    rintro rfl
    exact hne (hleads.eq_of_length_le hbelow.length_le)

/-- Putting a file makes the places above it folders, and no others. -/
theorem isFolder_put (d : Directory) (place other : Location) (contents : ByteArray) :
    (d.put place contents).isFolder other
      = (d.isFolder other || (other.isPrefixOf place && place ≠ other)) := by
  rw [Bool.eq_iff_iff]
  simp only [isFolder, put, List.any_cons, Bool.or_eq_true, List.any_eq_true, List.mem_filter]
  constructor
  · rintro (h | h | ⟨file, ⟨hmem, -⟩, hbelow⟩)
    · exact .inl (.inl h)
    · exact .inr h
    · exact .inl (.inr ⟨file, hmem, hbelow⟩)
  · rintro ((h | ⟨file, hmem, hbelow⟩) | h)
    · exact .inl h
    · by_cases hp : file.1 = place
      · exact .inr (.inl (hp ▸ hbelow))
      · exact .inr (.inr ⟨file, ⟨hmem, by simpa using hp⟩, hbelow⟩)
    · exact .inr (.inl h)

/-- A step leads from a folder to a folder. -/
theorem isFolder_of_step {here : Option Location} {name : String}
    (hhere : ∀ inside ∈ here, d.isFolder inside) (h : d.step here name = .ok (some place)) :
    d.isFolder place := by
  unfold step at h
  by_cases hdot : name = "."
  · rw [if_pos hdot] at h
    exact hhere place (Except.ok.inj h)
  rw [if_neg hdot] at h
  by_cases hup : name = ".."
  · rw [if_pos hup] at h
    obtain ⟨inside, hinside, hplace⟩ := Option.bind_eq_some_iff.mp (Except.ok.inj h)
    split at hplace
    · cases hplace
    · cases hplace
      exact isFolder_of_prefix (hhere inside hinside) (List.dropLast_prefix inside)
  rw [if_neg hup] at h
  cases here with
  | none => cases h
  | some inside =>
    dsimp only at h
    split at h
    · next hfolder =>
      cases h
      exact hfolder
    · split at h <;> cases h

theorem isFolder_of_walk {here : Option Location} {names : List String}
    (hhere : ∀ inside ∈ here, d.isFolder inside) (h : d.walk here names = .ok (some place)) :
    d.isFolder place := by
  induction names generalizing here with
  | nil => exact hhere place (Except.ok.inj h)
  | cons name names ih =>
    unfold walk at h
    cases hstep : d.step here name with
    | error e => simp [hstep] at h
    | ok next =>
      rw [hstep] at h
      apply ih _ h
      rintro inside rfl
      exact isFolder_of_step hhere hstep

/-! ### Paths -/

/-- A path names a place in the folder that it leads to, and the place is no folder. -/
theorem locate_eq_ok_iff :
    d.locate path = .ok place ↔
      ∃ folder name, d.walk (Path.ofString path).start (Path.ofString path).way = .ok (some folder) ∧
        (Path.ofString path).file? = some name ∧ d.isFolder (folder ++ [name]) = false ∧
        folder ++ [name] = place := by
  unfold locate
  dsimp only
  split
  · simp_all
  · simp_all
  · simp_all
  · next folder name hwalk hfile =>
    rw [hwalk, hfile]
    split <;> simp_all

/-- The place that a path names lies in a folder. -/
theorem isFolder_of_walk_start {folder : Location}
    (h : d.walk (Path.ofString path).start (Path.ofString path).way = .ok (some folder)) :
    d.isFolder folder := by
  apply isFolder_of_walk _ h
  -- a path starts in the directory itself, if it starts anywhere that is known
  intro inside hinside
  unfold Path.ofString at hinside
  split at hinside
  · cases hinside
  · cases hinside
    simp [isFolder]

/-- A step that is taken can still be taken once a file is put. -/
theorem step_put (place : Location) (contents : ByteArray)
    {here folder : Option Location} {name : String} (h : d.step here name = .ok folder) :
    (d.put place contents).step here name = .ok folder := by
  unfold step at h ⊢
  by_cases hdot : name = "."
  · rw [if_pos hdot] at h ⊢
    exact h
  rw [if_neg hdot] at h ⊢
  by_cases hup : name = ".."
  · rw [if_pos hup] at h ⊢
    exact h
  rw [if_neg hup] at h ⊢
  cases here with
  | none => exact h
  | some inside =>
    by_cases hf : d.isFolder (inside ++ [name])
    · simpa [isFolder_put, hf] using h
    · dsimp only at h
      rw [if_neg hf] at h
      split at h <;> cases h

/-- A walk that arrives still arrives once a file is put. -/
theorem walk_put (place : Location) (contents : ByteArray)
    {here folder : Option Location} {names : List String} (h : d.walk here names = .ok folder) :
    (d.put place contents).walk here names = .ok folder := by
  induction names generalizing here with
  | nil => exact h
  | cons name names ih =>
    cases hstep : d.step here name with
    | error e => simp [walk, hstep] at h
    | ok next =>
      rw [walk, hstep] at h
      rw [walk, step_put place contents hstep]
      exact ih h

/-- A path still names its place once a file is put at a place that a path names, be it the same
    one or another. -/
theorem locate_put {other : String} {otherPlace : Location} (contents : ByteArray)
    (h : d.locate path = .ok place) (hother : d.locate other = .ok otherPlace) :
    (d.put place contents).locate other = .ok otherPlace := by
  obtain ⟨folder, name, hwalk, -, -, rfl⟩ := locate_eq_ok_iff.mp h
  obtain ⟨folder', name', hwalk', hfile', hplace', rfl⟩ := locate_eq_ok_iff.mp hother
  refine locate_eq_ok_iff.mpr ⟨folder', name', walk_put _ contents hwalk', hfile', ?_, rfl⟩
  rw [isFolder_put, hplace', Bool.false_or, Bool.eq_false_iff]
  intro hbelow
  rw [Bool.and_eq_true, List.isPrefixOf_iff_prefix, List.prefix_concat_iff,
    decide_eq_true_eq] at hbelow
  rcases hbelow with ⟨heq | hleads, hne⟩
  · exact hne heq.symm
  · -- the other place would lie on the way to this one, and be a folder
    have hfolder := isFolder_of_prefix (isFolder_of_walk_start hwalk) hleads
    rw [hplace'] at hfolder
    cases hfolder

/-! ### Reading what is written -/

theorem write_eq_ok_iff {contents : ByteArray} :
    d.write path contents = .ok after ↔
      ∃ place, d.locate path = .ok place ∧ d.put place contents = after := map_eq_ok_iff

/-- A file that is written reads as what was written. -/
theorem read?_of_write {contents : ByteArray} (h : d.write path contents = .ok after) :
    after.read? path = some contents := by
  obtain ⟨place, hplace, rfl⟩ := write_eq_ok_iff.mp h
  unfold read?
  rw [locate_put contents hplace hplace]
  exact contents?_put d place contents

/-- Any other file that could be read reads as before. -/
theorem read?_of_write_of_ne {other : String} {contents before : ByteArray}
    (h : d.write path contents = .ok after) (hne : d.locate other ≠ d.locate path)
    (hread : d.read? other = some before) : after.read? other = some before := by
  obtain ⟨place, hplace, rfl⟩ := write_eq_ok_iff.mp h
  unfold read? at hread ⊢
  cases hother : d.locate other with
  | error e => simp [hother] at hread
  | ok otherPlace =>
    have hplaces : otherPlace ≠ place := by
      rintro rfl
      exact hne (hother.trans hplace.symm)
    rw [hother] at hread
    rw [locate_put contents hplace hother]
    exact (contents?_put_of_ne d contents hplaces).trans hread

end MixAsm.Command.Directory
