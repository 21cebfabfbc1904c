import TurtleGraphics.CommandLine.Job

/-!
# Jobs on a given file system

A file system says what is found at each place. A path leads to a place name by name: every name but
the last has to be that of a directory, also before a dot or two dots. A job carried out on a file
system prints a text and changes some files; a file can be made wherever there is a directory for
it.
-/

namespace TurtleGraphics.CommandLine

/-- The names on the way from the root to a place. -/
abbrev Place : Type := List String

/-- What is found at a place. -/
inductive Entry where
  /-- A file with a text, or with bytes that are none. -/
  | file (text : Option String)
  | directory
  /-- The device that reads as nothing and drops what is written. -/
  | null
deriving DecidableEq, Repr

/-- A file system, and the directory where paths begin that do not begin at the root. -/
structure Disk where
  home : Place
  /-- What is found where. Of two entries for one place the first counts. -/
  entries : List (Place × Entry)
deriving DecidableEq, Repr

/-! ## Paths -/

/-- The names of a path, which slashes divide. -/
def namesOf (path : String) : List String :=
  ((path.toList.splitOn '/').filter (· ≠ [])).map String.ofList

/-- Whether a path begins at the root. -/
def isAbsolute (path : String) : Bool := path.toList.head? = some '/'

/-- Whether a path can only be one of a directory, since it ends in a slash. -/
def endsInSlash (path : String) : Bool := path.toList.getLast? = some '/'

/-- How many bytes a name may have. -/
def greatestNameSize : Nat := 255

/-- How many bytes a path may have. -/
def greatestPathSize : Nat := 4095

namespace Disk

/-- What is found at a place, if anything. -/
def get? (d : Disk) (place : Place) : Option Entry := d.entries.lookup place

/-- The disk with a file written. -/
def put (d : Disk) (place : Place) (text : String) : Disk :=
  { d with entries := (place, .file (some text)) :: d.entries }

theorem get?_put (d : Disk) (place p : Place) (text : String) :
    (d.put place text).get? p = if p = place then some (.file (some text)) else d.get? p := by
  by_cases h : p = place
  · simp [get?, put, h]
  · simp [get?, put, List.lookup_cons, beq_eq_false_iff_ne.2 h, h]

/-- Looks a place up. A name that is too long is noticed then and not before. -/
def look (d : Disk) (place : Place) : Except FileFault (Option Entry) :=
  if place.getLast?.any (greatestNameSize < ·.utf8ByteSize) then .error .nameTooLong
  else .ok (d.get? place)

/-- The place that a name leads to from the given one. -/
def step (d : Disk) (place : Place) (name : String) : Except FileFault Place := do
  match ← d.look place with
  | none => throw .notFound
  | some .directory =>
    return if name = "." then place else if name = ".." then place.dropLast else place ++ [name]
  | some _ => throw .notDirectory

/-- The place that a path leads to, whatever is found there. -/
def locate (d : Disk) (path : String) : Except FileFault Place :=
  if greatestPathSize < path.utf8ByteSize then .error .nameTooLong
  else (namesOf path).foldlM d.step (if isAbsolute path then [] else d.home)

/-! ## Files -/

/-- The text of the file at a path. -/
def read (d : Disk) (path : String) : Except FileFault String := do
  match ← d.look (← d.locate path) with
  | none => throw .notFound
  | some .directory => throw .isDirectory
  | some (.file text) =>
    if endsInSlash path then throw .notDirectory
    match text with
    | some text => return text
    | none => throw .notText
  | some .null => if endsInSlash path then throw .notDirectory else return ""

/-- The disk after a file has been written at a path. -/
def write (d : Disk) (path text : String) : Except FileFault Disk := do
  let place ← d.locate path
  if endsInSlash path then throw .isDirectory
  match ← d.look place with
  | some .directory => throw .isDirectory
  | some .null => return d
  | some (.file _) | none => return d.put place text

/-- A working directory with the given files, in a system that has the directories and the device
that every system has. No path spells the name of the working directory. -/
def ofFiles (files : List (String × Option String)) : Disk where
  home := ["tmp", ""]
  entries :=
    [([], .directory), (["tmp"], .directory), (["tmp", ""], .directory), (["dev"], .directory),
      (["dev", "null"], .null)] ++
      files.map fun f ↦ (["tmp", "", f.1], .file f.2)

/-- The files in the working directory that are new or whose text is another one than before. -/
def changes (before after : Disk) : List (String × String) :=
  (after.entries.map Prod.fst).eraseDups.filterMap fun place ↦
    match place.getLast?, after.get? place with
    | some name, some (.file (some text)) =>
      if place = before.home ++ [name] ∧ before.get? place ≠ after.get? place then some (name, text)
      else none
    | _, _ => none

example : (ofFiles [("a", some "x")]).read ".//a" = .ok "x" := by cbv
example : (ofFiles [("a", some "x")]).read "a/." = .error .notDirectory := by cbv
example : (ofFiles []).write "a/../b" "x" = .error .notFound := by cbv
example : (ofFiles []).write "a/" "x" = .error .isDirectory := by cbv

end Disk

/-! ## Jobs -/

/-- What a job leaves behind. -/
structure Aftermath (α : Type) where
  value : α
  printed : String
  disk : Disk

/-- Carries a job out on a disk. -/
def Job.on {α : Type} (d : Disk) : Job α → Aftermath α
  | done value => ⟨value, "", d⟩
  | read path next => (next (d.read path)).on d
  | write path text next =>
    match d.write path text with
    | .error fault => (next (.error fault)).on d
    | .ok d => (next (.ok ())).on d
  | print text next =>
    let after := next.on d
    { after with printed := text ++ after.printed }

end TurtleGraphics.CommandLine
