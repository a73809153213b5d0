import Mathlib.Data.String.Basic
import SchemaDiagram.Disk.Node
import SchemaDiagram.Disk.Path

/-!
# The path of an entry

The path of an entry has the names of its directory's path and then its own (`Path.steps_join`),
whether or not the path of the directory has a slash at its end, which asks for a directory. It is
longer than the path of the directory (`Path.utf8ByteSize_lt_join`).
-/

namespace SchemaDiagram.Path

open Node (IsName)

/-! ### Texts and slashes -/

theorem splitSlash_ne_nil (text : List Char) : splitSlash text ≠ [] := by
  fun_cases splitSlash text <;> simp_all

/-- A slash separates what stands before it from what follows. -/
theorem splitSlash_append (front back : List Char) :
    splitSlash (front ++ '/' :: back) = splitSlash front ++ splitSlash back := by
  induction front with
  | nil => simp [splitSlash]
  | cons c front ih =>
    rw [List.cons_append, splitSlash, splitSlash]
    split
    · rw [ih, List.cons_append]
    · obtain ⟨first, others, hfront⟩ := List.exists_cons_of_ne_nil (splitSlash_ne_nil front)
      rw [ih, hfront]
      rfl

/-- A text without slashes is one part. -/
theorem splitSlash_of_not_mem {text : List Char} (h : '/' ∉ text) : splitSlash text = [text] := by
  induction text with
  | nil => rfl
  | cons c text ih =>
    rw [List.mem_cons, not_or] at h
    rw [splitSlash, if_neg (Ne.symm h.1), ih h.2]

/-- The names on a path. -/
def names (p : Path) : List String :=
  ((splitSlash p.toList).filter fun part ↦ !part.isEmpty).map String.ofList

/-- A path is walked along by its names, behind which the directory may be asked for. -/
theorem steps_eq_or (p : Path) : p.steps = p.names ∨ p.steps = p.names ++ ["."] := by
  rw [steps]
  split
  · exact .inr rfl
  · exact .inl (List.append_nil _)

/-! ### Joined paths -/

section Join

variable {name : String} (hname : IsName name) (base : Path)
include hname

theorem isAbsolute_eq_false : isAbsolute name = false := by
  have hne : name.toList.head? ≠ some '/' := fun h ↦ hname.no_slash (List.mem_of_mem_head? h)
  simpa [isAbsolute] using hne

/-- A name is joined to a path behind a slash, unless the path is empty. -/
theorem toList_join : base = "" ∧ base.join name = name ∨
    ∃ front, (base.join name).toList = front ++ '/' :: name.toList ∧
      (base.toList = front ∨ base.toList = front ++ ['/']) := by
  rw [join, isAbsolute_eq_false hname, if_neg Bool.false_ne_true]
  split
  · next h =>
    rcases Bool.or_eq_true_iff.1 h with hempty | hslash
    · obtain rfl := String.isEmpty_iff.1 hempty
      exact .inl ⟨rfl, String.empty_append⟩
    · obtain ⟨front, hfront⟩ := List.getLast?_eq_some_iff.1 (beq_iff_eq.1 hslash)
      refine .inr ⟨front, ?_, .inr hfront⟩
      rw [String.toList_append, hfront, List.append_assoc, List.singleton_append]
  · refine .inr ⟨base.toList, ?_, .inl rfl⟩
    rw [String.toList_append, String.toList_append, List.append_assoc]
    rfl

/-- A joined path has one name more. -/
theorem names_join : (base.join name).names = base.names ++ [name] := by
  have hlast : splitSlash name.toList = [name.toList] := splitSlash_of_not_mem hname.no_slash
  have hne : name.toList.isEmpty = false := by simpa using hname.ne_empty
  rcases toList_join hname base with ⟨rfl, hjoin⟩ | ⟨front, hjoin, hbase⟩
  · simp [names, hjoin, hlast, hne, splitSlash]
  · rw [names, names, hjoin, splitSlash_append, hlast]
    rcases hbase with hbase | hbase
    · simp [hbase, hne]
    · rw [hbase, splitSlash_append]
      simp [hne, splitSlash]

/-- **The path of an entry goes by the names of its directory**, and then by its own. -/
theorem steps_join : (base.join name).steps = base.names ++ [name] := by
  rw [← names_join hname, steps, names]
  have hlast : splitSlash name.toList = [name.toList] := splitSlash_of_not_mem hname.no_slash
  have hends : (splitSlash (base.join name).toList).getLast? = some name.toList := by
    rcases toList_join hname base with ⟨-, hjoin⟩ | ⟨front, hjoin, -⟩
    · rw [hjoin, hlast]; rfl
    · rw [hjoin, splitSlash_append, hlast, List.getLast?_concat]
  rw [hends]
  simp [hname.ne_empty]

theorem utf8ByteSize_add_le_join :
    base.utf8ByteSize + name.utf8ByteSize ≤ (base.join name).utf8ByteSize := by
  rw [join, isAbsolute_eq_false hname, if_neg Bool.false_ne_true]
  split
  · rw [String.utf8ByteSize_append]
  · rw [String.utf8ByteSize_append, String.utf8ByteSize_append]
    omega

/-- The path of an entry is longer than the one of its directory. -/
theorem utf8ByteSize_lt_join : base.utf8ByteSize < (base.join name).utf8ByteSize := by
  have hpos : 0 < name.utf8ByteSize := Nat.pos_of_ne_zero fun h ↦
    hname.ne_empty (String.utf8ByteSize_eq_zero_iff.1 h)
  have hle := utf8ByteSize_add_le_join hname base
  omega

end Join

/-! ### Slashes in front -/

theorem utf8ByteSize_slashes (n : Nat) :
    (String.ofList (List.replicate n '/')).utf8ByteSize = n := by
  rw [String.utf8ByteSize_ofList]
  induction n with
  | zero => rfl
  | succ n ih => rw [List.replicate_succ, String.utf8Len_cons, ih]; rfl

/-- More slashes in front of a path say nothing. -/
theorem steps_slashes_append (n : Nat) (p : Path) :
    steps (String.ofList (List.replicate n '/') ++ p) = p.steps := by
  have hparts : splitSlash (List.replicate n '/' ++ p.toList) =
      List.replicate n [] ++ splitSlash p.toList := by
    induction n with
    | zero => rfl
    | succ n ih =>
      rw [List.replicate_succ, List.cons_append, splitSlash, if_pos rfl, ih, List.replicate_succ,
        List.cons_append]
  have hnames : (List.replicate n ([] : List Char)).filter (fun part ↦ !part.isEmpty) = [] := by
    simp
  obtain ⟨first, others, hp⟩ := List.exists_cons_of_ne_nil (splitSlash_ne_nil p.toList)
  simp only [steps, String.toList_append, String.toList_ofList, hparts, List.filter_append, hnames,
    List.nil_append, List.getLast?_append, hp, List.getLast?_cons, Option.some_or]

end SchemaDiagram.Path
