import MixAsm.Proofs.Json.RoundTrip

namespace MixAsm.Json

/-!
# Documents are written again

Every number of a document was read from a literal, so the value of the document is one that a
document can hold. Written in either layout it is read as the same value.

* `Number.wellFormed_of_ofLiteral?` — the number that a literal writes;
* `Token.legible_of_tokenize` — the tokens of a document;
* `State.Legible.step`, `State.Legible.foldlM` — what one token keeps, and what all of them keep;
* `legible_of_parse` — the value of a document.
-/

/-! ### Numbers -/

namespace Number

variable {cs rest : List Char} {n n' : Number}

/-- Behind a point there are digits, or there is no fraction. -/
theorem wellFormed_of_ofDecimal? {negative : Bool} (h : ofDecimal? negative cs = some (n, rest)) :
    n.WellFormed := by
  unfold ofDecimal? at h
  dsimp only at h
  split at h
  · cases h
  split at h
  · obtain ⟨hne, h⟩ := Option.ite_none_left_eq_some.mp h
    cases h
    rintro ds ⟨⟩
    simp [Text.isNumeral, hne]
  · cases h
    rintro ds ⟨⟩

/-- An exponent leaves the fraction as it is. -/
theorem wellFormed_of_withExponent? (hn : n.WellFormed) (h : n.withExponent? cs = some n') :
    n'.WellFormed := by
  cases cs with
  | nil =>
    cases h
    exact hn
  | cons e cs =>
    obtain ⟨-, h⟩ := Option.ite_none_right_eq_some.mp h
    obtain ⟨i, -, rfl⟩ := Option.map_eq_some_iff.mp h
    exact hn

theorem wellFormed_of_ofLiteral? (h : ofLiteral? cs = some n) : n.WellFormed := by
  obtain ⟨⟨decimal, rest⟩, hdecimal, hexponent⟩ := Option.bind_eq_some_iff.mp h
  refine wellFormed_of_withExponent? ?_ hexponent
  split at hdecimal
  · exact wellFormed_of_ofDecimal? hdecimal
  · exact wellFormed_of_ofDecimal? hdecimal

end Number

/-! ### Tokens -/

namespace Token

/-- If the token is a number, it is one that a literal writes. -/
def Legible : Token → Prop
  | number n => n.WellFormed
  | _ => True

theorem legible_of_mark? {c : Char} {t : Token} (h : mark? c = some t) : t.Legible := by
  unfold mark? at h
  split_ifs at h <;> cases h <;> trivial

theorem legible_of_atom? {cs : List Char} {t : Token} (h : atom? cs = some t) : t.Legible := by
  unfold atom? at h
  split_ifs at h
  · cases h
    trivial
  · cases h
    trivial
  · cases h
    trivial
  · obtain ⟨n, hn, rfl⟩ := Option.map_eq_some_iff.mp h
    exact Number.wellFormed_of_ofLiteral? hn

/-- A token in front of others. -/
theorem legible_of_map_cons {t : Token} {rest : Option (List Token)} {ts : List Token}
    (ht : t.Legible) (hrest : ∀ us, rest = some us → ∀ u ∈ us, u.Legible)
    (h : rest.map (t :: ·) = some ts) : ∀ u ∈ ts, u.Legible := by
  obtain ⟨us, hus, rfl⟩ := Option.map_eq_some_iff.mp h
  exact List.forall_mem_cons.mpr ⟨ht, hrest us hus⟩

/-- The tokens of a document are legible. -/
theorem legible_of_tokenize {cs : List Char} {ts : List Token} (h : tokenize cs = some ts) :
    ∀ t ∈ ts, t.Legible := by
  fun_induction tokenize cs generalizing ts with
  | case1 =>
    cases h
    simp
  | case2 c rest hspace ih => exact ih h
  | case3 c rest hspace t hmark ih =>
    exact legible_of_map_cons (legible_of_mark? hmark) (fun us hus => ih hus) h
  | case4 rest pieces tail hread hspace hmark ih =>
    have hstring : (string ((joinPieces pieces).map String.ofList)).Legible := trivial
    exact legible_of_map_cons hstring (fun us hus => ih hus) h
  | case6 c rest hspace hmark hquote t hatom ih =>
    exact legible_of_map_cons (legible_of_atom? hatom) (fun us hus => ih hus) h
  | case5 | case7 => cases h

end Token

/-! ### States -/

/-- What an open array or object holds so far is legible. -/
def Frame.Legible : Frame → Prop
  | array items => ∀ v ∈ items, Json.Legible v
  | object members _ => ∀ m ∈ members, Json.Legible m.2

namespace Frame

variable {v : Json} {items : List Json} {members : List (Text × Json)} {k : Text}

theorem Legible.item (h : (array items).Legible) (hv : Json.Legible v) :
    (array (v :: items)).Legible := List.forall_mem_cons.mpr ⟨hv, h⟩

theorem Legible.member (h : (object members k).Legible) (hv : Json.Legible v) (next : Text) :
    (object ((k, v) :: members) next).Legible := by
  intro m hm
  obtain rfl | hm := List.mem_cons.mp hm
  · exact hv
  · exact h m hm

/-- An array is legible once it ends. -/
theorem Legible.array_reverse (h : (array items).Legible) : Json.Legible (.array items.reverse) :=
  .array fun v hv => h v (List.mem_reverse.mp hv)

/-- An object is legible once it ends. -/
theorem Legible.object_reverse (h : (object members k).Legible) :
    Json.Legible (.object members.reverse) :=
  .object fun m hm => h m (List.mem_reverse.mp hm)

end Frame

namespace State

variable {s s' : State} {t : Token}

/-- What has been read so far is legible. -/
def Legible : State → Prop
  | value frames | firstItem frames | firstKey frames => ∀ f ∈ frames, f.Legible
  | key members frames | colon members _ frames =>
    (∀ m ∈ members, Json.Legible m.2) ∧ ∀ f ∈ frames, f.Legible
  | complete v frames => Json.Legible v ∧ ∀ f ∈ frames, f.Legible

/-- A token that starts a value leaves the state legible. -/
theorem legible_of_start {frames : List Frame} (hframes : ∀ f ∈ frames, f.Legible)
    (ht : t.Legible) (h : start frames t = some s) : s.Legible := by
  unfold start at h
  split at h <;> cases h
  · exact ⟨.null, hframes⟩
  · exact ⟨.bool _, hframes⟩
  · exact ⟨.number ht, hframes⟩
  · exact ⟨.string _, hframes⟩
  · exact hframes
  · exact hframes

theorem Legible.pop {v : Json} {f : Frame} {frames : List Frame}
    (h : (complete v (f :: frames)).Legible) :
    Json.Legible v ∧ f.Legible ∧ ∀ f ∈ frames, f.Legible := ⟨h.1, List.forall_mem_cons.mp h.2⟩

/-- **Step.** A token leaves a legible state legible. -/
theorem Legible.step (hs : s.Legible) (ht : t.Legible) (h : s.step t = some s') : s'.Legible := by
  unfold State.step at h
  split at h
  -- a value, or the end of an array or its first item
  · exact legible_of_start hs ht h
  · cases h
    exact ⟨.array (by simp), hs⟩
  · refine legible_of_start ?_ ht h
    exact List.forall_mem_cons.mpr ⟨by simp [Frame.Legible], hs⟩
  -- the end of an object, a key or a colon
  · cases h
    exact ⟨.object (by simp), hs⟩
  · cases h
    exact ⟨by simp, hs⟩
  · cases h
    exact hs
  · cases h
    exact List.forall_mem_cons.mpr hs
  -- what follows an item, and what follows a member
  · cases h
    obtain ⟨hv, hitems, hframes⟩ := hs.pop
    exact List.forall_mem_cons.mpr ⟨hitems.item hv, hframes⟩
  · cases h
    obtain ⟨hv, hitems, hframes⟩ := hs.pop
    exact ⟨(hitems.item hv).array_reverse, hframes⟩
  · cases h
    obtain ⟨hv, hmembers, hframes⟩ := hs.pop
    exact ⟨hmembers.member hv none, hframes⟩
  · cases h
    obtain ⟨hv, hmembers, hframes⟩ := hs.pop
    exact ⟨(hmembers.member hv none).object_reverse, hframes⟩
  · cases h

/-- **Run.** So do all tokens of a document, one after the other. -/
theorem Legible.foldlM {ts : List Token} (hs : s.Legible) (hts : ∀ t ∈ ts, t.Legible)
    (h : ts.foldlM State.step s = some s') : s'.Legible := by
  induction ts generalizing s with
  | nil =>
    cases h
    exact hs
  | cons t ts ih =>
    rw [List.forall_mem_cons] at hts
    rw [List.foldlM_cons] at h
    obtain ⟨next, hnext, h⟩ := Option.bind_eq_some_iff.mp h
    exact ih (hs.step hts.1 hnext) hts.2 h

end State

/-! ### Documents -/

variable {text : String} {v : Json}

/-- **Documents.** The value of a document is one that a document can hold. -/
theorem legible_of_parse (h : parse text = some v) : Legible v := by
  obtain ⟨ts, hts, h⟩ := Option.bind_eq_some_iff.mp h
  obtain ⟨s, hs, hv⟩ := Option.bind_eq_some_iff.mp h
  have hstart : (State.value []).Legible := by
    intro f hf
    cases hf
  have hlegible := hstart.foldlM (Token.legible_of_tokenize hts) hs
  unfold State.result? at hv
  split at hv
  · cases hv
    exact hlegible.1
  · cases hv

end MixAsm.Json
