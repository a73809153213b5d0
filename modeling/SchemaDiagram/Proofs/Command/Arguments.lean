import Mathlib.Data.List.TakeWhile
import SchemaDiagram.Command.Arguments

/-!
# Command lines

What a level reads is what it offers: every option that was given has a value that the option takes
(`offers_of_readLevel`). So a selection of sources that some command line makes can be written out
again, and asked for together with any target that needs no path (`exists_shows_of_parse`).
-/

namespace SchemaDiagram.Arguments

/-- What a sequence gives is given by its second part for what the first part gives. -/
theorem of_bind_eq_ok {ε α β : Type} {x : Except ε α} {f : α → Except ε β} {b : β}
    (h : (x >>= f) = .ok b) : ∃ a, x = .ok a ∧ f a = .ok b := by
  cases x with
  | error e => cases h
  | ok a => exact ⟨a, rfl, h⟩

/-! ### What is read is on offer -/

/-- The option is one of the level, and it takes the value. -/
def Level.Offers (level : Level) (g : Given) : Prop :=
  ∃ spec ∈ level.options, spec.name = g.name ∧ spec.accepts.all (· g.value)

section Offers

variable {level : Level} {given read : List Given}

theorem offers_of_addOption {spec : OptionSpec} {value : String} (hspec : spec ∈ level.options)
    (hvalue : spec.accepts.all (· value)) (h : addOption spec value given = .ok read)
    (hgiven : ∀ g ∈ given, level.Offers g) : ∀ g ∈ read, level.Offers g := by
  unfold addOption at h
  split at h
  · cases h
  · cases h
    intro g hg
    rcases List.mem_append.1 hg with hg | hg
    · exact hgiven g hg
    · obtain rfl := List.mem_singleton.1 hg
      exact ⟨spec, hspec, rfl, hvalue⟩

theorem offers_of_addValue {spec : OptionSpec} {accepts : String → Bool} {value : String}
    (hspec : spec ∈ level.options) (haccepts : spec.accepts = some accepts)
    (h : addValue spec accepts value given = .ok read) (hgiven : ∀ g ∈ given, level.Offers g) :
    ∀ g ∈ read, level.Offers g := by
  unfold addValue at h
  split at h
  · rename_i hvalue
    exact offers_of_addOption hspec (by rw [haccepts]; exact hvalue) h hgiven
  · cases h

/-- Behind a single dash there are options without a value only. -/
theorem offers_of_readLetters {argument : String} {letters : List Char}
    (hletters : ∀ spec ∈ level.options, spec.letter.isSome → spec.accepts = none)
    (h : readLetters level argument given letters = .ok read)
    (hgiven : ∀ g ∈ given, level.Offers g) : ∀ g ∈ read, level.Offers g := by
  induction letters generalizing given with
  | nil => cases h; exact hgiven
  | cons letter letters ih =>
    unfold readLetters at h
    split at h
    · cases h
    split at h
    · cases h
    split at h
    · rename_i spec hspec
      obtain ⟨more, hadd, h⟩ := of_bind_eq_ok h
      have hmem := List.mem_of_find?_eq_some hspec
      have hletter : spec.letter = some letter := by simpa using List.find?_some hspec
      have hnone := hletters spec hmem (by rw [hletter]; rfl)
      exact ih h (offers_of_addOption hmem (by rw [hnone]; rfl) hadd hgiven)
    · cases h

/-- **What a level reads is what it offers.** -/
theorem offers_of_readLevel {arguments : List String} {reading : Reading}
    (hletters : ∀ spec ∈ level.options, spec.letter.isSome → spec.accepts = none)
    (h : readLevel level given arguments = .ok reading) (hgiven : ∀ g ∈ given, level.Offers g) :
    ∀ g ∈ reading.given, level.Offers g := by
  fun_induction readLevel level given arguments with
  | case1 => cases h; exact hgiven
  | case2 => cases h; exact hgiven
  | case7 given argument rest text _ _ name spec hspec hnone _ _ _ ih =>
    obtain ⟨more, hadd, h⟩ := of_bind_eq_ok h
    have hmem := List.mem_of_find?_eq_some hspec
    exact ih more h (offers_of_addOption hmem (by rw [hnone]; rfl) hadd hgiven)
  | case9 given argument rest text _ _ name spec hspec accepts value haccepts _ _ _ ih =>
    obtain ⟨more, hadd, h⟩ := of_bind_eq_ok h
    exact ih more h (offers_of_addValue (List.mem_of_find?_eq_some hspec) haccepts hadd hgiven)
  | case12 given argument text _ _ name spec hspec accepts haccepts value rest _ _ _ _ ih =>
    obtain ⟨more, hadd, h⟩ := of_bind_eq_ok h
    exact ih more h (offers_of_addValue (List.mem_of_find?_eq_some hspec) haccepts hadd hgiven)
  | case13 given argument rest c letters _ _ _ ih =>
    obtain ⟨more, hadd, h⟩ := of_bind_eq_ok h
    exact ih more h (offers_of_readLetters hletters hadd hgiven)
  | case14 => cases h; exact hgiven
  | _ => cases h

end Offers

/-! ### Options that are written out -/

section Written

variable {level : Level} {given : List Given} {spec : OptionSpec} {argument : String} {c : Char}
  {name value : List Char}

theorem splitEquals_of_not_mem (h : '=' ∉ name) :
    splitEquals name = (String.ofList name, none) := by
  have hname : ∀ c ∈ name, (c != '=') = true := by
    intro c hc
    simpa using fun heq : c = '=' ↦ h (heq ▸ hc)
  rw [splitEquals, List.takeWhile_eq_self_iff.2 hname, List.dropWhile_eq_nil_iff.2 hname]

theorem splitEquals_append (h : '=' ∉ name) :
    splitEquals (name ++ '=' :: value) = (String.ofList name, some (String.ofList value)) := by
  have hname : ∀ c ∈ name, (c != '=') = true := by
    intro c hc
    simpa using fun heq : c = '=' ↦ h (heq ▸ hc)
  rw [splitEquals, List.takeWhile_append_of_pos hname, List.dropWhile_append_of_pos hname]
  simp

/-- An option with its value behind an equals sign is read. -/
theorem readLevel_value {accepts : String → Bool}
    (hargument : argument.toList = '-' :: '-' :: (c :: name ++ '=' :: value))
    (hequals : '=' ∉ c :: name)
    (hspec : level.options.find? (fun spec ↦ spec.name == String.ofList (c :: name)) = some spec)
    (haccepts : spec.accepts = some accepts) (hvalue : accepts (String.ofList value))
    (hnew : spec.repeatable ∨ given.any (·.name == spec.name) = false) (rest : List String) :
    readLevel level given (argument :: rest) =
      readLevel level (given ++ [{ name := spec.name, value := String.ofList value }]) rest := by
  have hadd : addValue spec accepts (String.ofList value) given =
      .ok (given ++ [{ name := spec.name, value := String.ofList value }]) := by
    rw [addValue, if_pos hvalue, addOption, if_neg (by rcases hnew with h | h <;> simp [h])]
  rw [readLevel.eq_def]
  simp only [hargument, List.cons_append]
  rw [← List.cons_append, splitEquals_append hequals]
  simp only [reduceCtorEq, and_false, if_false, hspec, haccepts, hadd]
  rfl

/-- An option that takes no value is read. -/
theorem readLevel_flag (hargument : argument.toList = '-' :: '-' :: c :: name)
    (hequals : '=' ∉ c :: name) (hhelp : String.ofList (c :: name) ≠ "help")
    (hversion : level.hasVersion = false)
    (hspec : level.options.find? (fun spec ↦ spec.name == String.ofList (c :: name)) = some spec)
    (haccepts : spec.accepts = none) (hnew : given.any (·.name == spec.name) = false)
    (rest : List String) :
    readLevel level given (argument :: rest) =
      readLevel level (given ++ [{ name := spec.name }]) rest := by
  have hadd : addOption spec "" given = .ok (given ++ [{ name := spec.name }]) := by
    rw [addOption, if_neg (by simp [hnew])]
  rw [readLevel.eq_def]
  simp only [hargument]
  rw [splitEquals_of_not_mem hequals]
  simp only [hhelp, hversion, false_and, and_false, if_false, Bool.false_eq_true, hspec, haccepts,
    hadd]
  rfl

end Written

/-! ### Selections -/

/-- The options that make a selection. -/
def selectionFlags (s : Selection) : List String :=
  (s.modelsDir.map ("--models-dir=" ++ ·)).toList ++ s.only.map ("--only=" ++ ·) ++
    (s.recursive.map fun recursive ↦ if recursive then "--recursive" else "--no-recursive").toList

/-- What is read of them. -/
def selectionGiven (s : Selection) : List Given :=
  (s.modelsDir.map fun dir ↦ { name := "models-dir", value := dir }).toList ++
    (s.only.map fun name ↦ { name := "only", value := name }) ++
    (s.recursive.map fun recursive ↦
      { name := if recursive then "recursive" else "no-recursive" }).toList

theorem readLevel_modelsDir {dir : String} (hdir : dir ≠ "") (rest : List String) :
    readLevel generateLevel [] (("--models-dir=" ++ dir) :: rest) =
      readLevel generateLevel [{ name := "models-dir", value := dir }] rest := by
  have hargument : ("--models-dir=" ++ dir).toList = '-' :: '-' ::
      ('m' :: ['o', 'd', 'e', 'l', 's', '-', 'd', 'i', 'r'] ++ '=' :: dir.toList) := by
    rw [String.toList_append]
    rfl
  have hspec : generateLevel.options.find? (fun spec ↦ spec.name ==
      String.ofList ('m' :: ['o', 'd', 'e', 'l', 's', '-', 'd', 'i', 'r'])) =
        some { name := "models-dir", accepts := some acceptsPath } := rfl
  have haccepts : acceptsPath (String.ofList dir.toList) := by
    simpa [acceptsPath] using hdir
  rw [readLevel_value hargument (by decide) hspec rfl haccepts (.inr rfl), String.ofList_toList]
  rfl

theorem readLevel_only (given : List Given) (names rest : List String) :
    readLevel generateLevel given (names.map ("--only=" ++ ·) ++ rest) =
      readLevel generateLevel (given ++ names.map fun name ↦ { name := "only", value := name })
        rest := by
  induction names generalizing given with
  | nil => simp
  | cons name names ih =>
    have hargument : ("--only=" ++ name).toList =
        '-' :: '-' :: ('o' :: ['n', 'l', 'y'] ++ '=' :: name.toList) := by
      rw [String.toList_append]
      rfl
    have hspec : generateLevel.options.find? (fun spec ↦
        spec.name == String.ofList ('o' :: ['n', 'l', 'y'])) =
          some { name := "only", accepts := some fun _ ↦ true, repeatable := true } := rfl
    rw [List.map_cons, List.cons_append,
      readLevel_value hargument (by decide) hspec rfl rfl (.inl rfl), ih]
    simp

theorem readLevel_recursive {given : List Given} (recursive : Bool)
    (hnew : has given (if recursive then "recursive" else "no-recursive") = false)
    (rest : List String) :
    readLevel generateLevel given
        ((if recursive then "--recursive" else "--no-recursive") :: rest) =
      readLevel generateLevel
        (given ++ [{ name := if recursive then "recursive" else "no-recursive" }]) rest := by
  cases recursive with
  | true =>
    exact readLevel_flag (show "--recursive".toList = '-' :: '-' :: 'r' :: _ from rfl) (by decide)
      (by decide) rfl (show _ = some ({ name := "recursive" } : OptionSpec) from rfl) rfl hnew rest
  | false =>
    exact readLevel_flag (show "--no-recursive".toList = '-' :: '-' :: 'n' :: _ from rfl)
      (by decide) (by decide) rfl (show _ = some ({ name := "no-recursive" } : OptionSpec) from rfl)
      rfl hnew rest

theorem readLevel_stdout {given : List Given} (hnew : has given "stdout" = false) :
    readLevel generateLevel given ["--stdout"] =
      .ok { given := given ++ [{ name := "stdout" }], command := none } := by
  rw [readLevel_flag (show "--stdout".toList = '-' :: '-' :: 's' :: _ from rfl) (by decide)
    (by decide) rfl (show _ = some ({ name := "stdout" } : OptionSpec) from rfl) rfl hnew,
    readLevel]

/-- What was written out is read back. -/
theorem readLevel_selectionFlags {s : Selection} (h : s.modelsDir ≠ some "") :
    readLevel generateLevel [] (selectionFlags s ++ ["--stdout"]) =
      .ok { given := selectionGiven s ++ [{ name := "stdout" }], command := none } := by
  obtain ⟨modelsDir, only, recursive⟩ := s
  have hdir : ∀ rest, readLevel generateLevel []
      ((modelsDir.map ("--models-dir=" ++ ·)).toList ++ rest) =
        readLevel generateLevel
          (modelsDir.map fun dir ↦ { name := "models-dir", value := dir }).toList rest := by
    intro rest
    cases modelsDir with
    | none => rfl
    | some dir => exact readLevel_modelsDir (by simpa using h) rest
  have hrecursive : ∀ given, (∀ g ∈ given, g.name = "models-dir" ∨ g.name = "only") → ∀ rest,
      readLevel generateLevel given
        ((recursive.map fun r ↦ if r then "--recursive" else "--no-recursive").toList ++ rest) =
      readLevel generateLevel (given ++ (recursive.map fun r ↦
        ({ name := if r then "recursive" else "no-recursive" } : Given)).toList) rest := by
    intro given hgiven rest
    cases recursive with
    | none => simp
    | some r =>
      refine readLevel_recursive r ?_ rest
      rw [has, List.any_eq_false]
      intro g hg
      rcases hgiven g hg with hname | hname <;> cases r <;> simp [hname]
  simp only [selectionFlags, selectionGiven, List.append_assoc]
  have hnames : ∀ g ∈ (modelsDir.map fun dir ↦ { name := "models-dir", value := dir }).toList ++
      only.map fun name ↦ ({ name := "only", value := name } : Given),
      g.name = "models-dir" ∨ g.name = "only" := by
    intro g hg
    rcases List.mem_append.1 hg with hg | hg
    · obtain ⟨dir, -, rfl⟩ := by simpa using hg
      exact .inl rfl
    · obtain ⟨name, -, rfl⟩ := List.mem_map.1 hg
      exact .inr rfl
  rw [hdir, readLevel_only, hrecursive _ hnames, readLevel_stdout]
  · simp
  · rw [has, List.any_append, Bool.or_eq_false_iff, List.any_eq_false]
    refine ⟨fun g hg ↦ ?_, ?_⟩
    · rcases hnames g hg with hname | hname <;> simp [hname]
    · rcases recursive with _ | _ | _ <;> rfl

theorem readSelection_selectionGiven (s : Selection) :
    readSelection (selectionGiven s ++ [{ name := "stdout" }]) = .ok s := by
  obtain ⟨modelsDir, only, recursive⟩ := s
  rcases modelsDir with _ | dir <;> rcases recursive with _ | _ | _ <;>
    simp [readSelection, selectionGiven, exclude, has, valueOf?, valuesOf, List.any_map,
      List.filter_map, Function.comp_def, bind, Except.bind]

/-- The models directory that a command line selects is not empty. -/
theorem modelsDir_ne_of_readSelection {arguments : List String} {reading : Reading}
    (hreading : readLevel generateLevel [] arguments = .ok reading) {s : Selection}
    (h : readSelection reading.given = .ok s) : s.modelsDir ≠ some "" := by
  obtain ⟨-, -, h⟩ := of_bind_eq_ok h
  cases h
  intro hdir
  obtain ⟨g, hg, hvalue⟩ := Option.map_eq_some_iff.1 hdir
  have hname : g.name = "models-dir" := by simpa using List.find?_some hg
  obtain ⟨spec, hspec, hspecName, haccepts⟩ :=
    offers_of_readLevel (by decide) hreading (by simp) g (List.mem_of_find?_eq_some hg)
  have hpath : ∀ spec ∈ generateLevel.options, spec.name = "models-dir" →
      spec.accepts.all (· "") = false := by decide
  rw [hvalue, hpath spec hspec (hspecName.trans hname)] at haccepts
  cases haccepts

/-! ### What ends the reading -/

/-- A reading that ends early ends with an error, or with a request for help or for the version. -/
def EndsWithoutCommand {α : Type} (x : Except Stop α) : Prop :=
  ∀ options command, x ≠ .error (.request (.run options command))

namespace EndsWithoutCommand

variable {α β : Type} {level : Level} {given : List Given}

theorem ok (a : α) : EndsWithoutCommand (.ok a) := nofun

theorem error (e : UsageError) : EndsWithoutCommand (.error (.error e) : Except Stop α) := nofun

theorem help (topic : Topic) (full : Bool) :
    EndsWithoutCommand (.error (.request (.help topic full)) : Except Stop α) := nofun

theorem bind {x : Except Stop α} {f : α → Except Stop β} (hx : EndsWithoutCommand x)
    (hf : ∀ a, EndsWithoutCommand (f a)) : EndsWithoutCommand (x >>= f) := by
  cases x with
  | error stop => exact fun options command h ↦ hx options command (by cases h; rfl)
  | ok a => exact hf a

theorem addOption (spec : OptionSpec) (value : String) :
    EndsWithoutCommand (addOption spec value given) := by
  unfold Arguments.addOption
  split
  · exact error _
  · exact ok _

theorem addValue (spec : OptionSpec) (accepts : String → Bool) (value : String) :
    EndsWithoutCommand (addValue spec accepts value given) := by
  unfold Arguments.addValue
  split
  · exact addOption spec value
  · exact error _

theorem readLetters (argument : String) (letters : List Char) :
    EndsWithoutCommand (readLetters level argument given letters) := by
  induction letters generalizing given with
  | nil => exact ok _
  | cons letter letters ih =>
    unfold Arguments.readLetters
    split
    · exact help _ _
    split
    · exact nofun
    split
    · exact (addOption _ _).bind fun _ ↦ ih
    · exact error _

theorem readLevel (level : Level) (given : List Given) (arguments : List String) :
    EndsWithoutCommand (readLevel level given arguments) := by
  fun_induction Arguments.readLevel level given arguments with
  | case1 => exact ok _
  | case2 => exact ok _
  | case4 => exact help _ _
  | case5 => exact nofun
  | case7 _ _ _ _ _ _ _ _ _ _ _ _ _ ih => exact (addOption _ _).bind ih
  | case9 _ _ _ _ _ _ _ _ _ _ _ _ _ _ _ ih => exact (addValue _ _ _).bind ih
  | case12 _ _ _ _ _ _ _ _ _ _ _ _ _ _ _ _ ih => exact (addValue _ _ _).bind ih
  | case13 _ _ _ _ _ _ _ _ ih => exact (readLetters _ _).bind ih
  | case14 => exact ok _
  | _ => exact error _

theorem exclude (first second : String) : EndsWithoutCommand (exclude given first second) := by
  unfold Arguments.exclude
  split
  · exact error _
  · exact ok _

theorem readSelection : EndsWithoutCommand (readSelection given) :=
  (exclude _ _).bind fun _ ↦ ok _

theorem readTopic (names : List String) : EndsWithoutCommand (readTopic names) := by
  unfold Arguments.readTopic
  split
  · exact ok _
  · exact ok _
  · exact ok _
  · exact ok _
  · split
    · exact ok _
    · exact error _
  · exact error _

theorem readInspect (arguments : List String) : EndsWithoutCommand (readInspect arguments) := by
  refine (readLevel _ _ _).bind fun reading ↦ ?_
  split
  · exact error _
  · exact (readTopic _).bind fun _ ↦ help _ _
  · split
    · exact error _
    · exact (readLevel _ _ _).bind fun _ ↦ readSelection.bind fun _ ↦ ok _

theorem readCommand (name : String) (arguments : List String) :
    EndsWithoutCommand (readCommand name arguments) := by
  unfold Arguments.readCommand
  split
  · exact (readLevel _ _ _).bind fun _ ↦ ok _
  · exact (readLevel _ _ _).bind fun _ ↦ readSelection.bind fun _ ↦ (exclude _ _).bind fun _ ↦ ok _
  · exact readInspect arguments
  · exact (readTopic arguments).bind fun _ ↦ help _ _
  · exact error _

theorem read (arguments : List String) : EndsWithoutCommand (read arguments) := by
  refine (readLevel _ _ _).bind fun reading ↦ ?_
  split
  · exact error _
  · exact (readCommand _ _).bind fun _ ↦ ok _

end EndsWithoutCommand

/-! ### Command lines that make a selection -/

/-- What a diagram is made of was read by the level of that command. -/
theorem exists_reading_of_parse {arguments : List String} {options : GlobalOptions} {s : Selection}
    {target : Target} (h : parse arguments = .ok (.run options (.generate s target))) :
    ∃ rest reading, readLevel generateLevel [] rest = .ok reading ∧
      readSelection reading.given = .ok s := by
  have hread : read arguments = .ok (.run options (.generate s target)) := by
    unfold parse at h
    split at h
    · rename_i hread
      rw [hread, ← Except.ok.inj h]
    · rename_i hread
      rw [Except.ok.inj h] at hread
      exact absurd hread (EndsWithoutCommand.read arguments _ _)
    · cases h
  obtain ⟨reading, -, h⟩ := of_bind_eq_ok hread
  split at h
  · cases h
  · rename_i name rest _
    obtain ⟨command, hcommand, h⟩ := of_bind_eq_ok h
    obtain rfl : command = .generate s target := by cases h; rfl
    unfold readCommand at hcommand
    split at hcommand
    · obtain ⟨_, -, hcommand⟩ := of_bind_eq_ok hcommand
      cases hcommand
    · obtain ⟨inner, hinner, hcommand⟩ := of_bind_eq_ok hcommand
      obtain ⟨selection, hselection, hcommand⟩ := of_bind_eq_ok hcommand
      obtain ⟨-, -, hcommand⟩ := of_bind_eq_ok hcommand
      cases hcommand
      exact ⟨rest, inner, hinner, hselection⟩
    · obtain ⟨inner, -, hcommand⟩ := of_bind_eq_ok hcommand
      split at hcommand
      · cases hcommand
      · obtain ⟨_, -, hcommand⟩ := of_bind_eq_ok hcommand
        cases hcommand
      · split at hcommand
        · cases hcommand
        · obtain ⟨_, -, hcommand⟩ := of_bind_eq_ok hcommand
          obtain ⟨_, -, hcommand⟩ := of_bind_eq_ok hcommand
          cases hcommand
    · obtain ⟨_, -, hcommand⟩ := of_bind_eq_ok hcommand
      cases hcommand
    · cases hcommand

theorem has_selectionGiven (s : Selection) :
    has (selectionGiven s ++ [{ name := "stdout" }]) "stdout" = true ∧
      has (selectionGiven s ++ [{ name := "stdout" }]) "out" = false := by
  obtain ⟨modelsDir, only, recursive⟩ := s
  rcases modelsDir with _ | dir <;> rcases recursive with _ | _ | _ <;>
    simp [selectionGiven, has, List.any_map, Function.comp_def]

/-- A selection is asked for by its options. -/
theorem parse_selectionFlags {s : Selection} (h : s.modelsDir ≠ some "") :
    parse ("generate" :: (selectionFlags s ++ ["--stdout"])) =
      .ok (.run {} (.generate s .standardOutput)) := by
  obtain ⟨hstdout, hout⟩ := has_selectionGiven s
  have hcommand : readCommand "generate" (selectionFlags s ++ ["--stdout"]) =
      .ok (.generate s .standardOutput) := by
    simp only [readCommand, readLevel_selectionFlags h, bind, Except.bind,
      readSelection_selectionGiven, exclude, hstdout, hout]
    rfl
  have hprogram : readLevel programLevel []
      ("generate" :: (selectionFlags s ++ ["--stdout"])) =
        .ok { given := [], command := some ("generate", selectionFlags s ++ ["--stdout"]) } := by
    rw [readLevel.eq_def]
    rfl
  have hread : read ("generate" :: (selectionFlags s ++ ["--stdout"])) =
      .ok (.run {} (.generate s .standardOutput)) := by
    simp only [read, hprogram, bind, Except.bind, hcommand]
    rfl
  rw [parse, hread]

/-- The command line asks for the diagram of the selection on the standard output. -/
def Shows (arguments : List String) (s : Selection) : Prop :=
  ∃ options, parse arguments = .ok (.run options (.generate s .standardOutput))

/-- **What is written to a file can be shown on the standard output**, by another command line. -/
theorem exists_shows_of_parse {arguments : List String} {options : GlobalOptions}
    {s : Selection} {target : Target}
    (h : parse arguments = .ok (.run options (.generate s target))) :
    ∃ arguments, Shows arguments s := by
  obtain ⟨rest, reading, hreading, hselection⟩ := exists_reading_of_parse h
  exact ⟨_, {}, parse_selectionFlags (modelsDir_ne_of_readSelection hreading hselection)⟩

end SchemaDiagram.Arguments
