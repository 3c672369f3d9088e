import MixAsm.Command.Arguments
import MixAsm.Proofs.Text.Runs

namespace MixAsm.Command

/-!
# Command lines by rules

Where no option takes more than one value, the items of a command line are found by a rule for each
kind of word. So an option can be left out of a command line: its words go, its item goes, and all
other items stay.

* `Sorts` — the rules;
* `sortWords_eq_some_iff` — words are sorted by the rules;
* `Without` — a command line and the same without an option;
* `Sorts.exists_without` — what is left when an option is left out.
-/

variable {arity : String → Option Arity}

/-! ### Options -/

/-- A word is a name alone, or a name and a value with an equals sign between them. -/
theorem exists_name (word : String) :
    '=' ∉ word.toList ∨ ∃ name value : String, '=' ∉ name.toList ∧ word = name ++ "=" ++ value := by
  by_cases h : '=' ∈ word.toList
  · obtain ⟨name, value, hword, hname⟩ := List.eq_append_cons_of_mem h
    refine .inr ⟨String.ofList name, String.ofList value, by simpa using hname, ?_⟩
    rw [← String.toList_inj, hword]
    simp
  · exact .inl h

theorem splitOption_name {name : String} (h : '=' ∉ name.toList) :
    splitOption name.toList = (name, none) := by
  have hrun : ∀ c ∈ name.toList, decide (c ≠ '=') := by
    intro c hc
    rw [decide_eq_true_eq]
    rintro rfl
    exact h hc
  rw [splitOption, List.takeWhile_eq_self_iff.mpr hrun, List.dropWhile_eq_nil_iff.mpr hrun]
  simp

theorem splitOption_joined {name value : String} (h : '=' ∉ name.toList) :
    splitOption (name ++ "=" ++ value).toList = (name, some value) := by
  have hrun : ∀ c ∈ name.toList, decide (c ≠ '=') := by
    intro c hc
    rw [decide_eq_true_eq]
    rintro rfl
    exact h hc
  have hword : (name ++ "=" ++ value).toList = name.toList ++ '=' :: value.toList := by simp
  rw [splitOption, hword, Text.takeWhile_run hrun (by simp), Text.dropWhile_run hrun (by simp)]
  simp

theorem readOption_name {name : String} (h : '=' ∉ name.toList) :
    readOption arity name.toList = (arity name).map fun
      | .flag => ([.flag name], .nothing)
      | .one => ([], .value name false)
      | .many => ([], .value name true) := by
  rw [readOption, splitOption_name h]
  dsimp only
  cases arity name with
  | none => rfl
  | some a => cases a <;> rfl

theorem readOption_joined {name value : String} (h : '=' ∉ name.toList) :
    readOption arity (name ++ "=" ++ value).toList =
      match arity name with
      | some .one | some .many => some ([.option name value], .nothing)
      | _ => none := by
  rw [readOption, splitOption_joined h]
  dsimp only
  cases arity name with
  | none => rfl
  | some a => cases a <;> rfl

/-! ### Words one by one -/

section

variable {word name value : String} {rest : List String}

theorem sortWords_dashes : sortWords arity .nothing ("--" :: rest) = some (rest.map .word) := by
  have hdashes : isOption "--".toList := by decide
  rw [sortWords, if_pos hdashes]
  exact if_pos rfl

theorem sortWords_plain (hword : isOption word.toList = false) :
    sortWords arity .nothing (word :: rest)
      = (sortWords arity .nothing rest).map (.word word :: ·) := by
  rw [sortWords, if_neg (by simp [hword])]

theorem sortWords_value :
    sortWords arity (.value name false) (word :: rest) =
      if isOption word.toList then none
      else (sortWords arity .nothing rest).map (.option name word :: ·) := by
  rw [sortWords]
  rfl

/-- What an option without an equals sign is depends on its arity. -/
theorem sortWords_name (hword : isOption name.toList) (hname : '=' ∉ name.toList)
    (hdashes : name ≠ "--") :
    sortWords arity .nothing (name :: rest) =
      match arity name with
      | some .flag => (sortWords arity .nothing rest).map (.flag name :: ·)
      | some .one => sortWords arity (.value name false) rest
      | some .many => sortWords arity (.value name true) rest
      | none => none := by
  rw [sortWords, if_pos hword, if_neg hdashes, readOption_name hname]
  cases arity name with
  | none => rfl
  | some a => cases a <;> simp

theorem sortWords_joined (hword : isOption (name ++ "=" ++ value).toList)
    (hname : '=' ∉ name.toList) :
    sortWords arity .nothing ((name ++ "=" ++ value) :: rest) =
      match arity name with
      | some .one | some .many => (sortWords arity .nothing rest).map (.option name value :: ·)
      | _ => none := by
  have hdashes : name ++ "=" ++ value ≠ "--" := by
    intro h
    have hmem : '=' ∈ (name ++ "=" ++ value).toList := by simp
    rw [h] at hmem
    exact absurd hmem (by decide)
  rw [sortWords, if_pos hword, if_neg hdashes, readOption_joined hname]
  cases arity name with
  | none => rfl
  | some a => cases a <;> simp

end

/-! ### Rules -/

/-- No option takes more than one value, and the two dashes are no option. -/
structure SingleValued (arity : String → Option Arity) : Prop where
  dashes_eq : arity "--" = none
  ne_many : ∀ name, arity name ≠ some .many

/-- The words of a command line make up the items. -/
inductive Sorts (arity : String → Option Arity) : List String → List Item → Prop
  | nil : Sorts arity [] []
  /-- Behind two dashes every word is plain. -/
  | dashes (rest : List String) : Sorts arity ("--" :: rest) (rest.map .word)
  | word {w : String} {rest : List String} {items : List Item}
      (hword : isOption w.toList = false) (h : Sorts arity rest items) :
      Sorts arity (w :: rest) (.word w :: items)
  | flag {name : String} {rest : List String} {items : List Item} (hword : isOption name.toList)
      (hname : '=' ∉ name.toList) (harity : arity name = some .flag) (h : Sorts arity rest items) :
      Sorts arity (name :: rest) (.flag name :: items)
  /-- The value of an option is the next word, if that is no option. -/
  | apart {name value : String} {rest : List String} {items : List Item}
      (hword : isOption name.toList) (hname : '=' ∉ name.toList) (harity : arity name = some .one)
      (hvalue : isOption value.toList = false) (h : Sorts arity rest items) :
      Sorts arity (name :: value :: rest) (.option name value :: items)
  /-- The value of an option stands behind an equals sign. -/
  | joined {name value : String} {rest : List String} {items : List Item}
      (hword : isOption (name ++ "=" ++ value).toList) (hname : '=' ∉ name.toList)
      (harity : arity name = some .one) (h : Sorts arity rest items) :
      Sorts arity ((name ++ "=" ++ value) :: rest) (.option name value :: items)

/-- Words that can be sorted follow the rules. So do those that stand behind an option that still
    lacks its value, but for the first of them, which is the value. -/
theorem sorts_of_sortWords (harity : SingleValued arity) (words : List String) :
    (∀ items, sortWords arity .nothing words = some items → Sorts arity words items) ∧
      ∀ name items, sortWords arity (.value name false) words = some items →
        ∃ value rest items', words = value :: rest ∧ isOption value.toList = false ∧
          items = .option name value :: items' ∧ Sorts arity rest items' := by
  induction words with
  | nil =>
    refine ⟨fun items h => ?_, fun name items h => ?_⟩
    · cases h
      exact .nil
    · cases h
  | cons word rest ih =>
    refine ⟨fun items h => ?_, fun name items h => ?_⟩
    · by_cases hdashes : word = "--"
      · rw [hdashes, sortWords_dashes] at h
        cases h
        rw [hdashes]
        exact .dashes rest
      by_cases hword : isOption word.toList
      · rcases exists_name word with hname | ⟨name, value, hname, rfl⟩
        · rw [sortWords_name hword hname hdashes] at h
          split at h
          · next hflag =>
            obtain ⟨items', hrest, rfl⟩ := Option.map_eq_some_iff.mp h
            exact .flag hword hname hflag (ih.1 _ hrest)
          · next hone =>
            obtain ⟨value, rest', items', rfl, hvalue, rfl, hrest⟩ := ih.2 _ _ h
            exact .apart hword hname hone hvalue hrest
          · next hmany => exact absurd hmany (harity.ne_many word)
          · cases h
        · rw [sortWords_joined hword hname] at h
          split at h
          · next hone =>
            obtain ⟨items', hrest, rfl⟩ := Option.map_eq_some_iff.mp h
            exact .joined hword hname hone (ih.1 _ hrest)
          · next hmany => exact absurd hmany (harity.ne_many name)
          · cases h
      · rw [Bool.not_eq_true] at hword
        rw [sortWords_plain hword] at h
        obtain ⟨items', hrest, rfl⟩ := Option.map_eq_some_iff.mp h
        exact .word hword (ih.1 _ hrest)
    · rw [sortWords_value, Option.ite_none_left_eq_some, Bool.not_eq_true] at h
      obtain ⟨hvalue, h⟩ := h
      obtain ⟨items', hrest, rfl⟩ := Option.map_eq_some_iff.mp h
      exact ⟨word, rest, items', rfl, hvalue, rfl, ih.1 _ hrest⟩

/-- **Rules.** Words are sorted into items by the rules, and by nothing else. -/
theorem sortWords_eq_some_iff (harity : SingleValued arity) {words : List String}
    {items : List Item} : sortWords arity .nothing words = some items ↔ Sorts arity words items := by
  refine ⟨(sorts_of_sortWords harity words).1 items, fun h => ?_⟩
  -- the two dashes are no option, so a word that is one is not taken for them
  have hdashes : ∀ {name a}, arity name = some a → name ≠ "--" := by
    rintro name a hname rfl
    rw [harity.dashes_eq] at hname
    cases hname
  induction h with
  | nil => rfl
  | dashes rest => exact sortWords_dashes
  | word hword _ ih => rw [sortWords_plain hword, ih, Option.map_some]
  | flag hword hname harity _ ih =>
    rw [sortWords_name hword hname (hdashes harity), harity, ih]
    rfl
  | apart hword hname harity hvalue _ ih =>
    rw [sortWords_name hword hname (hdashes harity), harity]
    dsimp only
    rw [sortWords_value, hvalue, ih]
    rfl
  | joined hword hname harity _ ih =>
    rw [sortWords_joined hword hname, harity, ih]
    rfl

/-! ### Leaving an option out -/

/-- The second command line is the first one without an option and its value. -/
inductive Without (name value : String) : List String → List String → Prop
  | apart (rest : List String) : Without name value (name :: value :: rest) rest
  | joined (rest : List String) : Without name value ((name ++ "=" ++ value) :: rest) rest
  | behind (word : String) {words words' : List String} (h : Without name value words words') :
      Without name value (word :: words) (word :: words')

theorem Without.append_left {name value : String} {words words' : List String}
    (front : List String) (h : Without name value words words') :
    Without name value (front ++ words) (front ++ words') := by
  induction front with
  | nil => exact h
  | cons word front ih => exact .behind word ih

/-- An option among the items can be left out of the words; the other items stay. -/
theorem Sorts.exists_without {words : List String} {items : List Item} {name value : String}
    (h : Sorts arity words items) (hmem : Item.option name value ∈ items) :
    ∃ words' front back, Without name value words words' ∧
      items = front ++ .option name value :: back ∧ Sorts arity words' (front ++ back) := by
  induction h with
  | nil => cases hmem
  | dashes rest => simp at hmem
  | @word w rest items hword _ ih =>
    obtain ⟨words', front, back, hwords, rfl, hrest⟩ := ih (by simpa using hmem)
    exact ⟨w :: words', .word w :: front, back, .behind w hwords, rfl, .word hword hrest⟩
  | @flag n rest items hword hname harity _ ih =>
    obtain ⟨words', front, back, hwords, rfl, hrest⟩ := ih (by simpa using hmem)
    exact ⟨n :: words', .flag n :: front, back, .behind n hwords, rfl,
      .flag hword hname harity hrest⟩
  | @apart n v rest items hword hname harity hvalue hrest ih =>
    rcases List.mem_cons.mp hmem with heq | hmem
    · cases heq
      exact ⟨rest, [], items, .apart rest, rfl, hrest⟩
    · obtain ⟨words', front, back, hwords, rfl, hrest'⟩ := ih hmem
      exact ⟨n :: v :: words', .option n v :: front, back, .behind n (.behind v hwords), rfl,
        .apart hword hname harity hvalue hrest'⟩
  | @joined n v rest items hword hname harity hrest ih =>
    rcases List.mem_cons.mp hmem with heq | hmem
    · cases heq
      exact ⟨rest, [], items, .joined rest, rfl, hrest⟩
    · obtain ⟨words', front, back, hwords, rfl, hrest'⟩ := ih hmem
      exact ⟨_ :: words', .option n v :: front, back, .behind _ hwords, rfl,
        .joined hword hname harity hrest'⟩

/-! ### The first plain word -/

/-- A word is refused, or it is the first plain one, or it leads to what is behind it; which of
    these does not depend on what is behind it. -/
theorem splitAtWord_cons (arity : String → Option Arity) (awaiting : Awaiting)
    (word : String) :
    (∀ rest, splitAtWord arity awaiting (word :: rest) = none) ∨
      (∀ rest, splitAtWord arity awaiting (word :: rest) = some ([], word, rest)) ∨
      ∃ next items, ∀ rest, splitAtWord arity awaiting (word :: rest) =
        (splitAtWord arity next rest).map fun (is, w, rest) => (items ++ is, w, rest) := by
  by_cases hword : isOption word.toList
  · cases hread : readOption arity word.toList with
    | none =>
      refine .inl fun rest => ?_
      cases awaiting <;> simp [splitAtWord, hword, hread]
    | some step =>
      obtain ⟨items, next⟩ := step
      cases awaiting with
      | value n many => exact .inl fun rest => by simp [splitAtWord, hword]
      | nothing | more =>
        exact .inr (.inr ⟨next, items, fun rest => by simp [splitAtWord, hword, hread]⟩)
  · cases awaiting with
    | nothing => exact .inr (.inl fun rest => by simp [splitAtWord, hword])
    | value n many =>
      refine .inr (.inr ⟨.afterValue n many, [.option n word], fun rest => ?_⟩)
      simp [splitAtWord, hword]
    | more n =>
      refine .inr (.inr ⟨.more n, [.option n word], fun rest => ?_⟩)
      simp [splitAtWord, hword]

/-- What stands behind the first plain word has no part in what is found before it. -/
theorem exists_of_splitAtWord {awaiting : Awaiting} {words rest : List String}
    {before : List Item} {name : String}
    (h : splitAtWord arity awaiting words = some (before, name, rest)) :
    ∃ front, words = front ++ name :: rest ∧ ∀ rest',
      splitAtWord arity awaiting (front ++ name :: rest') = some (before, name, rest') := by
  induction words generalizing awaiting before with
  | nil => cases h
  | cons word words ih =>
    rcases splitAtWord_cons arity awaiting word with hnone | hfirst | ⟨next, items, hnext⟩
    · rw [hnone] at h
      cases h
    · rw [hfirst] at h
      cases h
      exact ⟨[], rfl, hfirst⟩
    · rw [hnext] at h
      obtain ⟨⟨before', name', rest'⟩, hwords, heq⟩ := Option.map_eq_some_iff.mp h
      cases heq
      obtain ⟨front, rfl, hfront⟩ := ih hwords
      refine ⟨word :: front, rfl, fun rest' => ?_⟩
      rw [List.cons_append, hnext, hfront]
      rfl

/-! ### Items without an option -/

namespace Item

variable {name other value : String} {items front back : List Item}

theorem mem_of_values (h : values name items = [value]) : option name value ∈ items := by
  have hmem : value ∈ values name items := by simp [h]
  obtain ⟨item, hitem, hvalue⟩ := List.mem_filterMap.mp hmem
  split at hvalue
  · next n v =>
    obtain ⟨rfl, hv⟩ := Option.ite_none_right_eq_some.mp hvalue
    rwa [Option.some.inj hv] at hitem
  · cases hvalue

theorem single?_eq_some_some_iff :
    single? name items = some (some value) ↔ values name items = [value] := by
  unfold single?
  split <;> simp_all

theorem words_without : words (front ++ .option name value :: back) = words (front ++ back) := by
  simp [words]

theorem single?_without (h : other ≠ name) :
    single? other (front ++ .option name value :: back) = single? other (front ++ back) := by
  have hvalues : values other (front ++ .option name value :: back)
      = values other (front ++ back) := by
    simp [values, h.symm]
  rw [single?, hvalues]
  rfl

theorem given?_without :
    given? other (front ++ .option name value :: back) = given? other (front ++ back) := by
  have hcount : (front ++ .option name value :: back).count (flag other)
      = (front ++ back).count (flag other) := by
    simp [List.count_append]
  rw [given?, hcount]
  rfl

/-- An option that is given once is not given any more where it is left out. -/
theorem single?_self_without
    (h : single? name (front ++ .option name value :: back) = some (some value)) :
    single? name (front ++ back) = some none := by
  rw [single?_eq_some_some_iff] at h
  have hlength := congrArg List.length h
  simp only [values, List.filterMap_append, List.filterMap_cons, List.length_append,
    List.length_cons, List.length_nil, if_true] at hlength
  have hnone : values name (front ++ back) = [] := by
    rw [← List.length_eq_zero_iff, values, List.filterMap_append, List.length_append]
    omega
  rw [single?, hnone]

end Item

end MixAsm.Command
