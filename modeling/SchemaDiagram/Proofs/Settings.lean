import SchemaDiagram.Proofs.Toml.Document
import SchemaDiagram.Settings

/-!
# Settings files

A settings file may leave out any of its keys. What it has is read as it was written, and the rest
is as it would be without the file (`parse?_renderOnly`); so settings that are written in full are
read back (`parse?_render`). Each key is read from the entry of its own name in its own table
(`lookup_entries`), whatever other keys are there.
-/

namespace SchemaDiagram

open Toml (FlatTable IsBareName IsValueText Line ReadsAs Value)

/-! ### Tables and keys -/

/-- A group of settings. -/
inductive SettingTable where
  /-- What is read. -/
  | scan
  /-- What is written. -/
  | output
  deriving DecidableEq

/-- A setting. -/
inductive SettingKey where
  /-- The directory of the sources. -/
  | modelsDir
  /-- The extensions of source files. -/
  | extensions
  /-- Whether subdirectories are searched. -/
  | recursive
  /-- The names of the files that count. -/
  | only
  /-- The file of the diagram. -/
  | file
  deriving DecidableEq

/-- The name of a setting in a settings file. -/
def SettingKey.name : SettingKey → String
  | modelsDir => "models_dir"
  | extensions => "extensions"
  | recursive => "recursive"
  | only => "only"
  | file => "file"

/-- A setting as it is written. -/
def SettingKey.write (s : Settings) : SettingKey → String
  | modelsDir => Settings.writeString s.scan.modelsDir
  | extensions => Settings.writeStrings s.scan.extensions
  | recursive => Settings.writeBool s.scan.recursive
  | only => Settings.writeStrings s.scan.only
  | file => Settings.writeString s.output.file

/-- The line of a setting. -/
def SettingKey.line (s : Settings) (key : SettingKey) : String :=
  key.name ++ " = " ++ key.write s ++ "\n"

namespace SettingTable

/-- The name of a group in a settings file. -/
def name : SettingTable → String
  | scan => "scan"
  | output => "output"

/-- The settings of a group, in the order in which they are written. -/
def keys : SettingTable → List SettingKey
  | scan => [.modelsDir, .extensions, .recursive, .only]
  | output => [.file]

/-- All groups, in the order in which they are written. -/
def all : List SettingTable := [scan, output]

/-- A group with some of its settings. -/
def render (kept : SettingKey → Bool) (s : Settings) (table : SettingTable) : String :=
  "[" ++ table.name ++ "]\n" ++ String.join ((table.keys.filter kept).map (SettingKey.line s))

/-- Whether a group is written: it has one of the settings, or it is written without any. -/
def isShown (kept : SettingKey → Bool) (shownEmpty : SettingTable → Bool) (table : SettingTable) :
    Bool :=
  table.keys.any kept || shownEmpty table

end SettingTable

namespace Settings

/-- A settings file with some of the settings only. Groups that have none of them are written if
they are among those that are shown empty. -/
def renderOnly (kept : SettingKey → Bool) (shownEmpty : SettingTable → Bool) (s : Settings) :
    String :=
  "\n".intercalate ((SettingTable.all.filter (SettingTable.isShown kept shownEmpty)).map
    (SettingTable.render kept s))

/-- The settings with the defaults in place of some of them. -/
def restrict (kept : SettingKey → Bool) (s : Settings) : Settings :=
  let defaults : Settings := {}
  { scan :=
      { modelsDir := if kept .modelsDir then s.scan.modelsDir else defaults.scan.modelsDir
        extensions := if kept .extensions then s.scan.extensions else defaults.scan.extensions
        recursive := if kept .recursive then s.scan.recursive else defaults.scan.recursive
        only := if kept .only then s.scan.only else defaults.scan.only }
    output := { file := if kept .file then s.output.file else defaults.output.file } }

end Settings

variable {kept : SettingKey → Bool} {shownEmpty : SettingTable → Bool} {s : Settings}

/-! ### What is written -/

/-- The value of a setting. -/
def SettingKey.value (s : Settings) : SettingKey → Value
  | modelsDir => .string s.scan.modelsDir
  | extensions => .array (s.scan.extensions.map .string)
  | recursive => .boolean s.scan.recursive
  | only => .array (s.scan.only.map .string)
  | file => .string s.output.file

theorem isValueText_writeString (depth : Nat) (text : String) :
    IsValueText (Toml.valueWithin? depth) (Settings.writeString text).toList (.string text) := by
  simpa [Settings.writeString] using Toml.isValueText_string depth text.toList

/-- The items of a list of texts, as they are written and as values. -/
def stringItems (items : List String) : List (List Char × Value) :=
  items.map fun item ↦ ((Settings.writeString item).toList, .string item)

theorem toList_writeStrings (items : List String) :
    (Settings.writeStrings items).toList = '[' :: (Toml.listBody (stringItems items) ++ [']']) := by
  match items with
  | [] => rfl
  | [item] => simp [Settings.writeStrings, stringItems, Toml.listBody]
  | first :: second :: items =>
    simp [Settings.writeStrings, stringItems, Toml.listBody, Toml.itemLine, String.toList_join,
      List.flatMap_map]

theorem isValueText_writeStrings (depth : Nat) (items : List String) :
    IsValueText (Toml.valueWithin? (depth + 1)) (Settings.writeStrings items).toList
      (.array (items.map .string)) := by
  have hitems : ∀ pair ∈ stringItems items,
      IsValueText (Toml.valueWithin? depth) pair.1 pair.2 := by
    intro pair hpair
    obtain ⟨item, -, rfl⟩ := List.mem_map.1 hpair
    exact isValueText_writeString depth item
  have hvalues : (stringItems items).map Prod.snd = items.map .string := by
    rw [stringItems, List.map_map]
    rfl
  rw [toList_writeStrings, ← hvalues]
  exact Toml.isValueText_list hitems

/-- **Each setting is read as its value.** -/
theorem SettingKey.isValueText (s : Settings) (key : SettingKey) :
    IsValueText Toml.value? (key.write s).toList (key.value s) := by
  cases key with
  | modelsDir => exact isValueText_writeString Toml.maxDepth s.scan.modelsDir
  | extensions => exact isValueText_writeStrings 78 s.scan.extensions
  | recursive =>
    rw [SettingKey.write, SettingKey.value, Settings.writeBool]
    cases s.scan.recursive with
    | true => exact Toml.isValueText_true Toml.maxDepth
    | false => exact Toml.isValueText_false Toml.maxDepth
  | only => exact isValueText_writeStrings 78 s.scan.only
  | file => exact isValueText_writeString Toml.maxDepth s.output.file

theorem SettingKey.isBareName (key : SettingKey) : IsBareName key.name.toList := by
  cases key <;> exact ⟨by decide, List.all_eq_true.1 (by decide)⟩

theorem SettingTable.isBareName (table : SettingTable) : IsBareName table.name.toList := by
  cases table <;> exact ⟨by decide, List.all_eq_true.1 (by decide)⟩

/-! ### What is read -/

/-- The passages of a group: its header and its lines. -/
def SettingTable.passages (kept : SettingKey → Bool) (s : Settings) (table : SettingTable) :
    List (List Char × List Line) :=
  ('[' :: (table.name.toList ++ [']']), [.header [table.name]]) ::
    (table.keys.filter kept).map fun key ↦
      (Toml.assignmentText key.name.toList (key.write s).toList, [.assign [key.name] (key.value s)])

/-- A group as a table. -/
def SettingTable.toFlat (kept : SettingKey → Bool) (s : Settings) (table : SettingTable) :
    FlatTable where
  name := table.name
  entries := (table.keys.filter kept).map fun key ↦ (key.name, key.value s)

theorem SettingTable.readsAs_of_mem_passages (kept : SettingKey → Bool) (s : Settings)
    (table : SettingTable) : ∀ passage ∈ table.passages kept s, ReadsAs passage.1 passage.2 := by
  refine List.forall_mem_cons.2 ⟨?_, fun passage hpassage ↦ ?_⟩
  · simpa using Toml.readsAs_header table.isBareName
  · obtain ⟨key, -, rfl⟩ := List.mem_map.1 hpassage
    simpa using Toml.readsAs_assign key.isBareName (key.isValueText s)

theorem SettingTable.toList_render (kept : SettingKey → Bool) (s : Settings)
    (table : SettingTable) : (table.render kept s).toList =
      (table.passages kept s).flatMap fun passage ↦ passage.1 ++ ['\n'] := by
  simp [render, passages, SettingKey.line, Toml.assignmentText, String.toList_join,
    List.flatMap_map]

theorem SettingTable.lines_toFlat (kept : SettingKey → Bool) (s : Settings)
    (table : SettingTable) :
    (table.passages kept s).flatMap Prod.snd = (table.toFlat kept s).lines := by
  simp only [passages, toFlat, FlatTable.lines, List.flatMap_cons, List.flatMap_map,
    List.map_map, List.singleton_append]
  rw [List.map_eq_flatMap]
  rfl

/-- The groups that are written. -/
def shownTables (kept : SettingKey → Bool) (shownEmpty : SettingTable → Bool) :
    List SettingTable :=
  SettingTable.all.filter (SettingTable.isShown kept shownEmpty)

theorem flatMap_intercalate {α β : Type} (f : α → List β) (sep : List α) (parts : List (List α)) :
    (sep.intercalate parts).flatMap f =
      (sep.flatMap f).intercalate (parts.map fun part ↦ part.flatMap f) := by
  induction parts with
  | nil => simp
  | cons part parts ih =>
    cases parts with
    | nil => simp
    | cons next parts =>
      rw [List.intercalate_cons_cons, List.flatMap_append, List.flatMap_append, ih]
      simp only [List.map_cons, List.intercalate_cons_cons]

/-- The passages of a settings file, with an empty line between two groups. -/
def Settings.passages (kept : SettingKey → Bool) (shownEmpty : SettingTable → Bool)
    (s : Settings) : List (List Char × List Line) :=
  [([], [])].intercalate ((shownTables kept shownEmpty).map fun table ↦ table.passages kept s)

theorem Settings.toList_renderOnly (kept : SettingKey → Bool) (shownEmpty : SettingTable → Bool)
    (s : Settings) : (s.renderOnly kept shownEmpty).toList =
      (s.passages kept shownEmpty).flatMap fun passage ↦ passage.1 ++ ['\n'] := by
  rw [passages, flatMap_intercalate, renderOnly, String.toList_intercalate, List.map_map,
    List.map_map]
  congr 1
  exact List.map_congr_left fun table _ ↦ table.toList_render kept s

theorem intercalate_nil_left {α : Type} (parts : List (List α)) :
    [].intercalate parts = parts.flatten := by
  induction parts with
  | nil => rfl
  | cons part parts ih =>
    cases parts with
    | nil => simp
    | cons next parts =>
      rw [List.intercalate_cons_cons, ih, List.append_nil]
      rfl

theorem Settings.lines_passages (kept : SettingKey → Bool) (shownEmpty : SettingTable → Bool)
    (s : Settings) : (s.passages kept shownEmpty).flatMap Prod.snd =
      ((shownTables kept shownEmpty).map (SettingTable.toFlat kept s)).flatMap FlatTable.lines := by
  have hlines : ([([], [])] : List (List Char × List Line)).flatMap Prod.snd = [] := rfl
  rw [passages, flatMap_intercalate, hlines, intercalate_nil_left, List.map_map,
    List.flatMap_map, ← List.flatMap_def]
  exact List.flatMap_congr fun table _ ↦ table.lines_toFlat kept s

theorem mem_or_exists_of_mem_intercalate {α : Type} {sep : List α} {parts : List (List α)} {a : α}
    (h : a ∈ sep.intercalate parts) : a ∈ sep ∨ ∃ part ∈ parts, a ∈ part := by
  induction parts with
  | nil => simp at h
  | cons part parts ih =>
    cases parts with
    | nil => exact .inr ⟨part, List.mem_cons_self, by simpa using h⟩
    | cons next parts =>
      rw [List.intercalate_cons_cons, List.mem_append, List.mem_append] at h
      rcases h with (hpart | hsep) | hrest
      · exact .inr ⟨part, List.mem_cons_self, hpart⟩
      · exact .inl hsep
      · exact (ih hrest).imp_right fun ⟨other, hother, ha⟩ ↦
          ⟨other, List.mem_cons_of_mem part hother, ha⟩

theorem Settings.readsAs_of_mem_passages {passage : List Char × List Line}
    (h : passage ∈ s.passages kept shownEmpty) : ReadsAs passage.1 passage.2 := by
  rcases mem_or_exists_of_mem_intercalate h with hblank | ⟨part, hpart, hpassage⟩
  · obtain rfl := List.mem_singleton.1 hblank
    exact Toml.readsAs_nil
  · obtain ⟨table, -, rfl⟩ := List.mem_map.1 hpart
    exact table.readsAs_of_mem_passages kept s passage hpassage

/-- A settings file starts with the header of a group, if it has any. -/
theorem Settings.head?_renderOnly (kept : SettingKey → Bool) (shownEmpty : SettingTable → Bool)
    (s : Settings) : (s.renderOnly kept shownEmpty).toList.head? ≠ some '\uFEFF' := by
  unfold renderOnly
  cases SettingTable.all.filter (SettingTable.isShown kept shownEmpty) with
  | nil => simp
  | cons table tables =>
    rw [List.map_cons, SettingTable.render, String.append_assoc, String.append_assoc,
      String.intercalate_cons_append, String.toList_append]
    simp

/-- **A settings file is read as its groups.** -/
theorem Settings.parse?_renderOnly_tables (kept : SettingKey → Bool)
    (shownEmpty : SettingTable → Bool) (s : Settings) :
    Toml.parse? (s.renderOnly kept shownEmpty) =
      some ((shownTables kept shownEmpty).map fun table ↦
        (table.name, .table (table.toFlat kept s).entries)) := by
  have hlines : Toml.lines? (s.renderOnly kept shownEmpty).toList =
      some (((shownTables kept shownEmpty).map (SettingTable.toFlat kept s)).flatMap
        FlatTable.lines) := by
    rw [toList_renderOnly, Toml.lines?_flatMap fun passage ↦ readsAs_of_mem_passages,
      lines_passages]
  have hnames : (((shownTables kept shownEmpty).map (SettingTable.toFlat kept s)).map
      FlatTable.name).Nodup := by
    have hall : (SettingTable.all.map SettingTable.name).Nodup := by decide
    rw [List.map_map]
    exact hall.sublist (List.filter_sublist.map _)
  have hentries : ∀ t ∈ (shownTables kept shownEmpty).map (SettingTable.toFlat kept s),
      (t.entries.map Prod.fst).Nodup := by
    intro t ht
    obtain ⟨table, -, rfl⟩ := List.mem_map.1 ht
    have hkeys : (table.keys.map SettingKey.name).Nodup := by cases table <;> decide
    rw [SettingTable.toFlat, List.map_map]
    exact hkeys.sublist (List.filter_sublist.map _)
  rw [Toml.parse?_tables (head?_renderOnly kept shownEmpty s) hlines hnames hentries, List.map_map]
  rfl

/-! ### Settings from a settings file -/

theorem SettingKey.name_injective : SettingKey.name.Injective := by
  intro key other h
  cases key <;> cases other <;> first | rfl | exact absurd h (by decide)

theorem SettingTable.name_injective : SettingTable.name.Injective := by
  intro table other h
  cases table <;> cases other <;> first | rfl | exact absurd h (by decide)

theorem lookup_map_of_mem {α β : Type} {name : α → String} (hname : name.Injective)
    (value : α → β) {items : List α} {a : α} (ha : a ∈ items) :
    (items.map fun b ↦ (name b, value b)).lookup (name a) = some (value a) := by
  induction items with
  | nil => cases ha
  | cons b items ih =>
    rw [List.map_cons, List.lookup_cons]
    by_cases hb : name a = name b
    · rw [hname hb, beq_self_eq_true]
    · rw [beq_false_of_ne hb]
      exact ih ((List.mem_cons.1 ha).resolve_left fun hab ↦ hb (by rw [hab]))

/-- An item is found by its name if it is kept. -/
theorem lookup_map_filter {α β : Type} {name : α → String} (hname : name.Injective)
    (value : α → β) (p : α → Bool) {items : List α} {a : α} (ha : a ∈ items) :
    ((items.filter p).map fun b ↦ (name b, value b)).lookup (name a) =
      if p a then some (value a) else none := by
  split
  · next hp => exact lookup_map_of_mem hname value (List.mem_filter.2 ⟨ha, hp⟩)
  · next hp =>
    refine List.lookup_eq_none_iff.2 fun pair hpair ↦ ?_
    obtain ⟨b, hb, rfl⟩ := List.mem_map.1 hpair
    have hne : name a ≠ name b := fun hab ↦ hp (hname hab ▸ (List.mem_filter.1 hb).2)
    simpa using hne

/-- A setting that is kept has its value, and any other one has the default. -/
theorem readEntry_toFlat {α : Type} (kept : SettingKey → Bool) (s : Settings)
    (table : SettingTable) (key : SettingKey) (hkey : key ∈ table.keys) (read : Value → Option α)
    (default : α) {value : α} (hread : read (key.value s) = some value) :
    Settings.readEntry key.name read default (table.toFlat kept s).entries =
      some (if kept key then value else default) := by
  rw [Settings.readEntry, SettingTable.toFlat,
    lookup_map_filter SettingKey.name_injective _ kept hkey]
  cases kept key with
  | true => exact hread
  | false => rfl

theorem readStrings_array (items : List String) :
    Settings.readStrings (.array (items.map .string)) = some items := by
  rw [Settings.readStrings]
  induction items with
  | nil => rfl
  | cons item items ih => rw [List.map_cons, List.mapM_cons, ih]; rfl

theorem SettingTable.mem_keys_scan {key : SettingKey} (h : key ≠ .file) : key ∈ scan.keys := by
  cases key <;> first | decide | exact absurd rfl h

theorem readScan_toFlat (kept : SettingKey → Bool) (s : Settings) :
    Settings.readScan (.table (SettingTable.scan.toFlat kept s).entries) =
      some (s.restrict kept).scan := by
  have hmodelsDir : Settings.readEntry "models_dir" Settings.readString
      ({} : ScanSettings).modelsDir (SettingTable.scan.toFlat kept s).entries =
        some (s.restrict kept).scan.modelsDir :=
    readEntry_toFlat kept s .scan .modelsDir (by decide) Settings.readString _ rfl
  have hextensions : Settings.readEntry "extensions" Settings.readStrings
      ({} : ScanSettings).extensions (SettingTable.scan.toFlat kept s).entries =
        some (s.restrict kept).scan.extensions :=
    readEntry_toFlat kept s .scan .extensions (by decide) Settings.readStrings _
      (readStrings_array _)
  have hrecursive : Settings.readEntry "recursive" Settings.readBool
      ({} : ScanSettings).recursive (SettingTable.scan.toFlat kept s).entries =
        some (s.restrict kept).scan.recursive :=
    readEntry_toFlat kept s .scan .recursive (by decide) Settings.readBool _ rfl
  have honly : Settings.readEntry "only" Settings.readStrings
      ({} : ScanSettings).only (SettingTable.scan.toFlat kept s).entries =
        some (s.restrict kept).scan.only :=
    readEntry_toFlat kept s .scan .only (by decide) Settings.readStrings _ (readStrings_array _)
  simp only [Settings.readScan, Settings.groupEntries, Option.bind_eq_bind, Option.bind_some,
    hmodelsDir, hextensions, hrecursive, honly]

theorem readOutput_toFlat (kept : SettingKey → Bool) (s : Settings) :
    Settings.readOutput (.table (SettingTable.output.toFlat kept s).entries) =
      some (s.restrict kept).output := by
  have hfile : Settings.readEntry "file" Settings.readString ({} : OutputSettings).file
      (SettingTable.output.toFlat kept s).entries = some (s.restrict kept).output.file :=
    readEntry_toFlat kept s .output .file (by decide) Settings.readString _ rfl
  simp only [Settings.readOutput, Settings.groupEntries, Option.bind_eq_bind, Option.bind_some,
    hfile]

/-- A group is read if it is written; otherwise it has the defaults. -/
theorem readEntry_shownTables {α : Type} (kept : SettingKey → Bool)
    (shownEmpty : SettingTable → Bool) (s : Settings) (table : SettingTable)
    {read : Value → Option α} {value : α}
    (hread : read (.table (table.toFlat kept s).entries) = some value) {default : α}
    (hdefault : table.isShown kept shownEmpty = false → default = value) :
    Settings.readEntry table.name read default
        ((shownTables kept shownEmpty).map fun other ↦
          (other.name, .table (other.toFlat kept s).entries)) = some value := by
  have htable : table ∈ SettingTable.all := by cases table <;> decide
  have hlookup := lookup_map_filter SettingTable.name_injective
    (fun other ↦ (.table (other.toFlat kept s).entries : Value))
    (SettingTable.isShown kept shownEmpty) htable
  rw [Settings.readEntry, shownTables, hlookup]
  cases hshown : table.isShown kept shownEmpty with
  | true => exact hread
  | false => exact congrArg some (hdefault hshown)

/-- A group that is not written has none of the settings. -/
theorem kept_eq_false_of_isShown {table : SettingTable} (h : table.isShown kept shownEmpty = false)
    {key : SettingKey} (hkey : key ∈ table.keys) : kept key = false := by
  rw [SettingTable.isShown, Bool.or_eq_false_iff, List.any_eq_false] at h
  simpa using h.1 key hkey

theorem parse?_renderOnly_eq (kept : SettingKey → Bool) (shownEmpty : SettingTable → Bool)
    (s : Settings) : Settings.parse? (s.renderOnly kept shownEmpty) = some (s.restrict kept) := by
  have hscan : Settings.readEntry "scan" Settings.readScan {}
      ((shownTables kept shownEmpty).map fun other ↦
        (other.name, .table (other.toFlat kept s).entries)) = some (s.restrict kept).scan :=
    readEntry_shownTables kept shownEmpty s .scan (readScan_toFlat kept s) fun h ↦ by
      have hkept {key : SettingKey} (hkey : key ≠ .file) : kept key = false :=
        kept_eq_false_of_isShown h (SettingTable.mem_keys_scan hkey)
      simp [Settings.restrict, hkept]
  have houtput : Settings.readEntry "output" Settings.readOutput {}
      ((shownTables kept shownEmpty).map fun other ↦
        (other.name, .table (other.toFlat kept s).entries)) = some (s.restrict kept).output :=
    readEntry_shownTables kept shownEmpty s .output (readOutput_toFlat kept s) fun h ↦ by
      simp [Settings.restrict, kept_eq_false_of_isShown h (show .file ∈ _ by decide)]
  rw [Settings.parse?, Settings.parse?_renderOnly_tables, Option.bind_some, Settings.ofEntries,
    hscan, houtput]
  rfl

theorem SettingTable.render_all (s : Settings) (table : SettingTable) :
    table.render (fun _ ↦ true) s =
      "[" ++ table.name ++ "]\n" ++ String.join (table.keys.map (SettingKey.line s)) := by
  rw [render, List.filter_eq_self.2 fun _ _ ↦ rfl]

/-- With all settings, a settings file is what is written for them. -/
theorem renderOnly_all (shownEmpty : SettingTable → Bool) (s : Settings) :
    s.renderOnly (fun _ ↦ true) shownEmpty = s.render := by
  have hshown : SettingTable.all.filter (SettingTable.isShown (fun _ ↦ true) shownEmpty) =
      [.scan, .output] := rfl
  have hscan : "[scan]\nmodels_dir = " = "[" ++ "scan" ++ "]\n" ++ "models_dir" ++ " = " := by simp
  have hextensions : "\nextensions = " = "\n" ++ "extensions" ++ " = " := by simp
  have hrecursive : "\nrecursive = " = "\n" ++ "recursive" ++ " = " := by simp
  have honly : "\nonly = " = "\n" ++ "only" ++ " = " := by simp
  have houtput : "\n\n[output]\nfile = " =
      "\n" ++ "\n" ++ "[" ++ "output" ++ "]\n" ++ "file" ++ " = " := by simp
  rw [Settings.renderOnly, hshown, List.map_cons, List.map_cons, List.map_nil,
    String.intercalate_cons_cons, String.intercalate_singleton]
  simp only [SettingTable.render_all, SettingTable.keys, SettingTable.name, List.map_cons,
    List.map_nil, String.join_cons, String.join_nil, SettingKey.line, SettingKey.name,
    SettingKey.write, String.append_assoc, String.append_empty, -String.reduceAppend]
  unfold Settings.render
  simp only [hscan, hextensions, hrecursive, honly, houtput, String.append_assoc,
    -String.reduceAppend]

/-- **What is written is read back, and the rest has the defaults**, whichever settings are written
and whether groups without any are written or not. In particular settings that are written in full
are read back. -/
theorem parse?_renderOnly :
    (∀ (kept : SettingKey → Bool) (shownEmpty : SettingTable → Bool) (s : Settings),
      Settings.parse? (s.renderOnly kept shownEmpty) = some (s.restrict kept)) ∧
    ∀ s : Settings, (∀ shownEmpty, s.renderOnly (fun _ ↦ true) shownEmpty = s.render) ∧
      Settings.parse? s.render = some s := by
  refine ⟨parse?_renderOnly_eq, fun s ↦ ⟨fun shownEmpty ↦ renderOnly_all shownEmpty s, ?_⟩⟩
  rw [← renderOnly_all (fun _ ↦ true) s, parse?_renderOnly_eq]
  rfl

end SchemaDiagram
