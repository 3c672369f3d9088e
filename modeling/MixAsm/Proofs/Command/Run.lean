import MixAsm.Command.Run
import MixAsm.Proofs.Command.Directory

namespace MixAsm.Command

/-!
# What a run leaves behind

A run that fails leaves the directory as it was, and one that is to write a file and succeeds has
written it. Once a file is written it is read as the text that was written, and a configuration in
another file is read as before.

* `Response.directory_settle`, `Response.write_of_exitCode_settle` — code and directory;
* `Surroundings.text_of_write`, `Surroundings.config_of_write` — input that is read again.
-/

variable {d after : Directory} {stdin stdin' : ByteArray} {path text : String}

/-! ### Code and directory -/

namespace Response

variable {r : Response}

/-- A run that fails leaves the directory as it was. -/
theorem directory_settle (h : (r.settle d).exitCode ≠ 0) : (r.settle d).directory = d := by
  unfold settle at h ⊢
  split
  · rfl
  · rfl
  · next path text houtcome =>
    rw [houtcome] at h
    dsimp only at h
    split
    · next after hwrite =>
      rw [hwrite] at h
      exact absurd rfl h
    · rfl

theorem settle_of_success (h : r.outcome = .success) :
    r.settle d = ⟨0, r.stdout, r.stderr, d⟩ := by
  rw [settle, h]

theorem exitCode_settle_of_failure {why : Failure} (h : r.outcome = .failure why) :
    (r.settle d).exitCode = 1 := by
  rw [settle, h]

theorem settle_of_save (h : r.outcome = .save path text)
    (hwrite : d.write path text.toUTF8 = .ok after) :
    r.settle d = ⟨0, r.stdout, r.stderr, after⟩ := by
  rw [settle, h]
  dsimp only
  rw [hwrite]

/-- A run that is to write a file and succeeds has written it. -/
theorem write_of_exitCode_settle (h : r.outcome = .save path text)
    (hcode : (r.settle d).exitCode = 0) :
    d.write path text.toUTF8 = .ok (r.settle d).directory := by
  rw [settle, h] at hcode ⊢
  dsimp only at hcode ⊢
  cases hwrite : d.write path text.toUTF8 with
  | ok after => rfl
  | error e =>
    rw [hwrite] at hcode
    cases hcode

end Response

/-! ### Input that is read again -/

theorem fromUTF8?_toUTF8 (text : String) : String.fromUTF8? text.toUTF8 = some text := by
  have hvalid : text.toUTF8.IsValidUTF8 := text.isValidUTF8
  rw [String.fromUTF8?, dif_pos hvalid]
  rfl

namespace Surroundings

/-- A file that is written holds the text that was written. -/
theorem text_of_write (h : d.write path text.toUTF8 = .ok after) :
    (after.surroundings stdin).text path = .ok text := by
  have hread : (after.surroundings stdin).file? path = some text.toUTF8 := Directory.read?_of_write h
  rw [Surroundings.text, hread, Option.bind_some, fromUTF8?_toUTF8]

/-- Any other file that held a text holds it still. -/
theorem text_of_write_of_ne {contents : ByteArray} {other : String}
    (h : d.write path contents = .ok after) (hne : d.locate other ≠ d.locate path)
    (htext : (d.surroundings stdin).text other = .ok text) :
    (after.surroundings stdin').text other = .ok text := by
  unfold Surroundings.text at htext ⊢
  cases hread : (d.surroundings stdin).file? other with
  | none => simp [hread] at htext
  | some bytes =>
    have hread' : (after.surroundings stdin').file? other = some bytes :=
      Directory.read?_of_write_of_ne h hne hread
    rw [hread']
    rwa [hread] at htext

/-- A configuration is read as before where the file that holds it still holds the same text. -/
theorem config_of_text {see see' : Surroundings} {verb : String} {path? : Option String}
    {caseInsensitive collapseSpaces : Bool} {cfg : Config}
    (htext : ∀ path ∈ path?, ∀ text, see.text path = .ok text → see'.text path = .ok text)
    (h : see.config verb path? caseInsensitive collapseSpaces = .ok cfg) :
    see'.config verb path? caseInsensitive collapseSpaces = .ok cfg := by
  cases path? with
  | none => exact h
  | some path =>
    unfold config at h ⊢
    dsimp only at h ⊢
    cases hsee : see.text path with
    | error why =>
      rw [hsee] at h
      cases h
    | ok text =>
      rw [hsee] at h
      rw [htext path rfl text hsee]
      exact h

end Surroundings

end MixAsm.Command
