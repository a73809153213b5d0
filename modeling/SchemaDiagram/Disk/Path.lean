/-!
# Paths

A path is a text in which slashes separate names. Doubled slashes and single dots between names say
nothing, and a slash at the end asks for a directory. Paths are joined and shortened as texts, so
that a path is shown as it was written; what it leads to is decided by the disk.
-/

namespace SchemaDiagram

/-- The name of a place on disk. -/
abbrev Path := String

namespace Path

/-- Whether a path starts at the root. -/
def isAbsolute (p : Path) : Bool := p.toList.head? == some '/'

/-- A path seen from another one; an absolute path stands for itself. -/
def join (base p : Path) : Path :=
  if p.isAbsolute then p
  else if base.isEmpty || base.toList.getLast? == some '/' then base ++ p
  else base ++ "/" ++ p

/-- The parts of a text between its slashes. -/
def splitSlash : List Char → List (List Char)
  | [] => [[]]
  | c :: rest =>
    if c = '/' then [] :: splitSlash rest
    else
      match splitSlash rest with
      | first :: others => (c :: first) :: others
      | [] => [[c]]

/-- The names on a path, dots included, for walking along it. An empty part says nothing, except
that a slash at the end asks for a directory, as a dot does. -/
def steps (p : Path) : List String :=
  let parts := splitSlash p.toList
  let names := parts.filter fun part ↦ !part.isEmpty
  let asksDirectory := parts.getLast? == some [] && !names.isEmpty
  (names.map String.ofList) ++ (if asksDirectory then ["."] else [])

/-- Whether a part between slashes names nothing: it is empty or a single dot. -/
def isIdle (part : List Char) : Bool := part.isEmpty || part == ['.']

/-- The text without its idle parts at the front. The budget bounds their number. -/
def dropIdleFront : Nat → List Char → List Char
  | 0, text => text
  | budget + 1, text =>
    let part := text.takeWhile (· != '/')
    if isIdle part then
      match text.dropWhile (· != '/') with
      | _ :: rest => dropIdleFront budget rest
      | [] => []
    else text

/-- The text without its idle parts at the end. A text that has nothing else is left empty. -/
def dropIdleBack (text : List Char) : List Char :=
  (dropIdleFront (text.length + 1) text.reverse).reverse

/-- The rest of a path behind the slashes at its front. -/
def body (p : Path) : List Char := p.toList.dropWhile (· == '/')

/-- The path of the directory that a path lies in, as far as the text tells; the root and a path
without names lie in none. -/
def parent? (p : Path) : Option Path :=
  let names := dropIdleBack p.body
  if names.isEmpty then none
  else
    let back := (names.reverse.dropWhile (· != '/')).reverse
    some (String.ofList (p.toList.takeWhile (· == '/') ++ dropIdleBack back))

/-- The text behind the names of `base`, if `p` starts with them. -/
def afterNames : (base : List (List Char)) → List Char → Option (List Char)
  | [], text => some text
  | name :: base, text =>
    let text := dropIdleFront (text.length + 1) text
    if text.takeWhile (· != '/') = name then
      afterNames base ((text.dropWhile (· != '/')).drop 1)
    else none

/-- A path as seen from a directory, if it lies there. -/
def relativeTo? (base p : Path) : Option Path :=
  if base.isAbsolute = p.isAbsolute then
    let names := (splitSlash base.toList).filter fun part ↦ !isIdle part
    (afterNames names p.body).map fun rest ↦
      String.ofList (dropIdleBack (dropIdleFront (rest.length + 1) rest))
  else none

/-- The extension of a file name: what follows its last dot, unless that is the first character. -/
def extension? (name : String) : Option String :=
  let back := name.toList.reverse
  match back.dropWhile (· != '.') with
  | _ :: _ :: _ => some (String.ofList (back.takeWhile (· != '.')).reverse)
  | _ => none

end Path

end SchemaDiagram
