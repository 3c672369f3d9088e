import MixAsm.Proofs.Command.Lint

namespace MixAsm.Command

/-!
# The linter's command lines

The words of a command line make up a command by way of their items: the name of an action, what
stands before it and what stands behind it. A command line that names a file for its output stays a
command line when the name is left out.

* `Settings`, `Lint.ofWords?_eq_some_iff` — commands made up of items;
* `Lint.action?_format_eq_some_iff`, `Lint.action?_dump_eq_some_iff` — actions on a file;
* `Lint.exists_without` — a command line without the name of a file for its output.
-/

/-- What a command line says of the configuration: the file that holds it, and the two flags that
    add to it. -/
structure Settings where
  config : Option String
  caseInsensitive : Bool
  collapseSpaces : Bool

/-- The command that is to do the action under the settings. -/
def Settings.command (s : Settings) (action : LintAction) : Lint where
  config := s.config
  caseInsensitive := s.caseInsensitive
  collapseSpaces := s.collapseSpaces
  action := action

namespace Lint

variable {c : Lint} {words : List String} {before items front back : List Item}
  {action : LintAction} {name other path value : String}

/-! ### Commands made up of items -/

/-- The settings of the items before and behind the name of an action. -/
def settings? (before items : List Item) : Option Settings := do
  let outerConfig ← path? "--config" before
  let config ← path? "--config" items
  let outerCase ← Item.given? "--case-insensitive" before
  let innerCase ← Item.given? "--case-insensitive" items
  let outerSpaces ← Item.given? "--collapse-spaces" before
  let innerSpaces ← Item.given? "--collapse-spaces" items
  return ⟨config.or outerConfig, outerCase || innerCase, outerSpaces || innerSpaces⟩

/-- Words make up a command by the name of its action, with the items before it and behind it. -/
theorem ofWords?_eq_some_iff :
    ofWords? words = some c ↔ ∃ before name rest arity items action settings,
      splitAtWord commonArity .nothing words = some (before, name, rest) ∧
        actionArity name = some arity ∧ sortWords arity .nothing rest = some items ∧
        action? name items = some action ∧ settings? before items = some settings ∧
        settings.command action = c := by
  simp only [ofWords?, settings?, Option.bind_eq_bind, Option.bind_eq_some_iff, Prod.exists,
    Option.pure_def, Option.some.injEq]
  constructor
  · rintro ⟨before, name, rest, hsplit, arity, harity, items, hitems, action, haction, outerConfig,
      houter, config, hconfig, outerCase, houterCase, innerCase, hinnerCase, outerSpaces,
      houterSpaces, innerSpaces, hinnerSpaces, rfl⟩
    exact ⟨before, name, rest, arity, items, action, _, hsplit, harity, hitems, haction,
      ⟨outerConfig, houter, config, hconfig, outerCase, houterCase, innerCase, hinnerCase,
        outerSpaces, houterSpaces, innerSpaces, hinnerSpaces, rfl⟩, rfl⟩
  · rintro ⟨before, name, rest, arity, items, action, settings, hsplit, harity, hitems, haction,
      ⟨outerConfig, houter, config, hconfig, outerCase, houterCase, innerCase, hinnerCase,
        outerSpaces, houterSpaces, innerSpaces, hinnerSpaces, rfl⟩, rfl⟩
    exact ⟨before, name, rest, hsplit, arity, harity, items, hitems, action, haction, outerConfig,
      houter, config, hconfig, outerCase, houterCase, innerCase, hinnerCase, outerSpaces,
      houterSpaces, innerSpaces, hinnerSpaces, rfl⟩

/-! ### Actions on a file -/

theorem action?_format_eq_some_iff :
    action? "fmt" items = some action ↔ ∃ file out only, onlyFile? items = some file ∧
      path? "--out" items = some out ∧ Item.given? "--check" items = some only ∧
      .format file out only = action := by
  simp [action?, Option.bind_eq_some_iff]

theorem action?_dump_eq_some_iff :
    action? "dump" items = some action ↔ ∃ file out, onlyFile? items = some file ∧
      path? "--out" items = some out ∧ .dump file out = action := by
  simp [action?, Option.bind_eq_some_iff]

/-- An action that can write to a file has one of two names. -/
theorem name_of_target? (h : action? name items = some action)
    (htarget : action.target? = some path) : name = "fmt" ∨ name = "dump" := by
  unfold action? at h
  split at h
  · simp only [Option.bind_eq_bind, Option.bind_eq_some_iff, Option.pure_def,
      Option.some.injEq] at h
    obtain ⟨file, -, form, -, rfl⟩ := h
    cases htarget
  split at h
  · next hname => exact .inl hname
  split at h
  · next hname => exact .inr hname
  split at h
  · simp only [Option.bind_eq_bind, Option.bind_eq_some_iff, Option.pure_def,
      Option.some.injEq] at h
    obtain ⟨categories, -, form, -, rfl⟩ := h
    cases htarget
  · cases h

/-- No option takes more than one value where none of the action's own does. -/
theorem singleValued_of_table {table : List (String × Arity)}
    (h : ∀ row ∈ table, row.1 ≠ "--" ∧ row.2 ≠ .many) :
    SingleValued fun name => (table.lookup name).or (commonArity name) := by
  have hrow : ∀ {name a}, table.lookup name = some a → (name, a) ∈ table := by
    intro name a hname
    obtain ⟨front, back, rfl, -⟩ := List.lookup_eq_some_iff.mp hname
    simp
  refine ⟨?_, fun name hmany => ?_⟩
  · rw [Option.or_eq_none_iff]
    refine ⟨?_, by decide⟩
    rw [Option.eq_none_iff_forall_ne_some]
    intro a ha
    exact (h _ (hrow ha)).1 rfl
  · rw [Option.or_eq_some_iff] at hmany
    rcases hmany with hmany | ⟨-, hmany⟩
    · exact (h _ (hrow hmany)).2 rfl
    · unfold commonArity at hmany
      split at hmany
      · cases hmany
      · split at hmany <;> cases hmany

/-- The options of an action that can write to a file take one value at most. -/
theorem singleValued_of_actionArity {arity : String → Option Arity}
    (h : actionArity name = some arity) (hname : name = "fmt" ∨ name = "dump") :
    SingleValued arity := by
  rcases hname with rfl | rfl
  · cases h
    exact singleValued_of_table (by decide)
  · cases h
    exact singleValued_of_table (by decide)

/-! ### Leaving an option out -/

theorem onlyFile?_without :
    onlyFile? (front ++ .option name value :: back) = onlyFile? (front ++ back) := by
  rw [onlyFile?, Item.words_without]
  rfl

theorem path?_without (h : other ≠ name) :
    path? other (front ++ .option name value :: back) = path? other (front ++ back) := by
  rw [path?, Item.single?_without h]
  rfl

/-- The settings do not depend on an option that is not the configuration's. -/
theorem settings?_without (h : "--config" ≠ name) :
    settings? before (front ++ .option name value :: back) = settings? before (front ++ back) := by
  unfold settings?
  rw [path?_without h, Item.given?_without, Item.given?_without]

theorem single?_of_path? (h : path? name items = some (some path)) :
    Item.single? name items = some (some path) := by
  obtain ⟨value, hvalue, hpath⟩ := Option.bind_eq_some_iff.mp h
  split at hpath
  · cases hpath
  · cases hpath
    exact hvalue

/-- The file that an action writes to is given by an option. -/
theorem path?_of_target? (h : action? name items = some action)
    (htarget : action.target? = some path) : path? "--out" items = some (some path) := by
  rcases name_of_target? h htarget with rfl | rfl
  · obtain ⟨file, out, only, -, hout, -, rfl⟩ := action?_format_eq_some_iff.mp h
    cases only with
    | true => cases htarget
    | false =>
      obtain rfl : out = some path := htarget
      exact hout
  · obtain ⟨file, out, -, hout, rfl⟩ := action?_dump_eq_some_iff.mp h
    obtain rfl : out = some path := htarget
    exact hout

/-- Where the option is left out, the action is the same but for the file. -/
theorem action?_without
    (h : action? name (front ++ .option "--out" path :: back) = some action)
    (htarget : action.target? = some path) :
    action? name (front ++ back) = some action.printing := by
  have hout : path? "--out" (front ++ back) = some none := by
    rw [path?, Item.single?_self_without (single?_of_path? (path?_of_target? h htarget))]
    rfl
  rcases name_of_target? h htarget with rfl | rfl
  · obtain ⟨file, out, only, hfile, -, honly, rfl⟩ := action?_format_eq_some_iff.mp h
    rw [onlyFile?_without] at hfile
    rw [Item.given?_without] at honly
    exact action?_format_eq_some_iff.mpr ⟨file, none, only, hfile, hout, honly, rfl⟩
  · obtain ⟨file, out, hfile, -, rfl⟩ := action?_dump_eq_some_iff.mp h
    rw [onlyFile?_without] at hfile
    exact action?_dump_eq_some_iff.mpr ⟨file, none, hfile, hout, rfl⟩

/-- A command line that names a file for its output can do without the name: then it makes up the
    same command but for the file. -/
theorem exists_without (h : ofWords? words = some c) (htarget : c.target? = some path) :
    ∃ words', Without "--out" path words words' ∧ ofWords? words' = some c.printing := by
  obtain ⟨before, name, rest, arity, items, action, settings, hsplit, harity, hitems, haction,
    hsettings, rfl⟩ := ofWords?_eq_some_iff.mp h
  have hsingle := singleValued_of_actionArity harity (name_of_target? haction htarget)
  have hmem : Item.option "--out" path ∈ items :=
    Item.mem_of_values (Item.single?_eq_some_some_iff.mp
      (single?_of_path? (path?_of_target? haction htarget)))
  -- the option goes from the words behind the name of the action, which stays the first plain word
  obtain ⟨rest', front, back, hwithout, rfl, hrest'⟩ :=
    ((sortWords_eq_some_iff hsingle).mp hitems).exists_without hmem
  obtain ⟨ahead, rfl, hsplit'⟩ := exists_of_splitAtWord hsplit
  rw [settings?_without (by decide)] at hsettings
  refine ⟨ahead ++ name :: rest', .append_left ahead (.behind name hwithout), ?_⟩
  exact ofWords?_eq_some_iff.mpr ⟨before, name, rest', arity, front ++ back, action.printing,
    settings, hsplit' rest', harity, (sortWords_eq_some_iff hsingle).mpr hrest',
    action?_without haction htarget, hsettings, rfl⟩

end Lint

end MixAsm.Command
