import Daybook.Text.Blank
import Daybook.Source.Path

/-!
# File systems

What the expansion of includes needs of a file system: a path resolves to the canonical name of a file
or directory, a canonical name has a content, and there are finitely many canonical names.

`Tree` is a file system of its own: the files of one directory, with everything below it.
-/

namespace Daybook

/-- Why a file cannot be resolved or read. -/
inductive FileFault where
  | notFound
  | notADirectory
  | isADirectory
  | nameTooLong
  | nulInName
  | notUtf8
  /-- Anything else a system reports, in its own words. -/
  | other (message : String)
  deriving DecidableEq, Repr

def FileFault.message : FileFault → String
  | .notFound => "No such file or directory (os error 2)"
  | .notADirectory => "Not a directory (os error 20)"
  | .isADirectory => "Is a directory (os error 21)"
  | .nameTooLong => "File name too long (os error 36)"
  | .nulInName => "file name contained an unexpected NUL byte"
  | .notUtf8 => "stream did not contain valid UTF-8"
  | .other message => message

/-- A finite file system, seen through canonical names. -/
structure FileSystem where
  /-- The canonical name of what a path leads to. -/
  resolve : String → Except FileFault String
  /-- The content of a file, by canonical name. -/
  read : String → Except FileFault String
  /-- All canonical names. -/
  names : List String
  mem_names_of_resolve : ∀ {path name : String}, resolve path = .ok name → name ∈ names

def FileSystem.empty : FileSystem where
  resolve _ := .error .notFound
  read _ := .error .notFound
  names := []
  mem_names_of_resolve h := nomatch h

/-! ### Systems by table -/

/-- What is known of one path: the canonical name it leads to, and the content there. -/
structure FileSystem.Entry where
  path : String
  name : Except FileFault String
  content : Except FileFault String

/-- The system in which exactly the listed paths can be resolved. -/
def FileSystem.ofEntries (entries : List FileSystem.Entry) : FileSystem where
  resolve path :=
    match entries.find? (·.path == path) with
    | some entry => entry.name
    | none => .error .notFound
  read name :=
    match entries.find? (fun entry => entry.name.toOption == some name) with
    | some entry => entry.content
    | none => .error .notFound
  names := entries.filterMap (·.name.toOption)
  mem_names_of_resolve := by
    intro path name h
    split at h
    · next entry found =>
      exact List.mem_filterMap.2 ⟨entry, List.mem_of_find?_eq_some found, by simp [h, Except.toOption]⟩
    · cases h

/-! ### Directory trees -/

/-- A directory with files at paths below it. -/
structure Tree where
  /-- The components of each path, and the bytes there. -/
  files : List (List String × ByteArray)

namespace Tree

/-- Where a walk over a tree has come to. -/
inductive Place where
  | directory (components : List String)
  | file (components : List String)
  /-- So many directories above the tree. -/
  | above (levels : Nat)
  deriving DecidableEq, Repr

/-- The tree with these files, by path. -/
def ofFiles (files : List (String × ByteArray)) : Tree :=
  ⟨files.map fun (path, content) =>
    (((Path.pieces path).filter fun c => c ≠ [] ∧ c ≠ ['.']).map String.ofList, content)⟩

def content? (t : Tree) (components : List String) : Option ByteArray :=
  (t.files.find? (·.1 == components)).map (·.2)

def hasDirectory (t : Tree) (components : List String) : Bool :=
  components.isEmpty ||
    t.files.any fun (path, _) => components.isPrefixOf path && path != components

/-- The place at exactly these components. -/
def enter (t : Tree) (components : List String) : Except FileFault Place :=
  if (t.content? components).isSome then .ok (.file components)
  else if t.hasDirectory components then .ok (.directory components)
  else .error .notFound

/-- One step of a walk. Only a directory can be walked on from, and nothing is known to be above the
directory of the tree but directories. -/
def step (t : Tree) (place : Place) (component : String) : Except FileFault Place :=
  match place with
  | .file _ => .error .notADirectory
  | .above levels =>
    if component = "" ∨ component = "." then .ok (.above levels)
    else if component = ".." then .ok (.above (levels + 1))
    else if Path.isTooLong component then .error .nameTooLong
    else .error .notFound
  | .directory components =>
    if component = "" ∨ component = "." then .ok (.directory components)
    else if component = ".." then
      if components.isEmpty then .ok (.above 1) else .ok (.directory components.dropLast)
    else if Path.isTooLong component then .error .nameTooLong
    else t.enter (components ++ [component])

/-- Where a path leads. A NUL in it is told before anything else, and else what is wrong with its first
component that cannot be walked. -/
def walk (t : Tree) (path : String) : Except FileFault Place :=
  if Path.hasNul path then
    .error .nulInName
  else if path.isEmpty then
    .error .notFound
  else
    ((Path.pieces path).map String.ofList).foldlM t.step
      (if Path.isAbsolute path then .above 0 else .directory [])

/-- The canonical name of a place: the path of a file in the tree. All directories go by one name,
which no file has and which cannot be read. -/
def Place.name : Place → String
  | .file components => "/".intercalate components
  | .directory _ | .above _ => "/"

def names (t : Tree) : List String :=
  "/" :: t.files.map fun (path, _) => Place.name (.file path)

/-- A place that is no file outside the tree. -/
def Holds (t : Tree) : Place → Prop
  | .file components => (t.content? components).isSome
  | .directory _ | .above _ => True

/-- A step never leads to a file outside the tree. -/
theorem holds_of_step {t : Tree} {place next : Place} {component : String}
    (h : t.step place component = .ok next) : t.Holds next := by
  unfold step enter at h
  repeat' split at h
  all_goals cases h
  all_goals trivial

/-- A walk that starts in the tree does not end at a file outside it. -/
theorem holds_of_foldlM {t : Tree} {components : List String} {place final : Place}
    (start : t.Holds place) (h : components.foldlM t.step place = .ok final) : t.Holds final := by
  induction components generalizing place with
  | nil => cases h; exact start
  | cons c cs ih =>
    rw [List.foldlM_cons] at h
    cases hs : t.step place c with
    | error e => rw [hs] at h; cases h
    | ok next => rw [hs] at h; exact ih (holds_of_step hs) h

/-- No path leads to a file outside the tree. -/
theorem holds_of_walk {t : Tree} {path : String} {final : Place} (h : t.walk path = .ok final) :
    t.Holds final := by
  unfold walk at h
  split at h
  · cases h
  · split at h
    · cases h
    · refine holds_of_foldlM ?_ h
      split <;> trivial

/-- The name of a place of the tree is one of its names. -/
theorem name_mem_names {t : Tree} {place : Place} (h : t.Holds place) : place.name ∈ t.names := by
  cases place with
  | file components =>
    obtain ⟨content, h⟩ := Option.isSome_iff_exists.1 h
    obtain ⟨file, found, rfl⟩ := Option.map_eq_some_iff.1 h
    refine List.mem_cons_of_mem _ (List.mem_map.2 ⟨file, List.mem_of_find?_eq_some found, ?_⟩)
    have : file.1 = components := by simpa using List.find?_some found
    simp [this]
  | directory _ => exact List.mem_cons_self
  | above _ => exact List.mem_cons_self

/-- The content of the file with a canonical name. -/
def readName (t : Tree) (name : String) : Except FileFault String :=
  match t.files.find? fun (path, _) => Place.name (.file path) == name with
  | none => .error .isADirectory
  | some (_, bytes) =>
    match String.fromUTF8? bytes with
    | some content => .ok content
    | none => .error .notUtf8

/-- A tree as a file system, with its directory as the working directory. -/
def fileSystem (t : Tree) : FileSystem where
  resolve path := (t.walk path).map Place.name
  read := t.readName
  names := t.names
  mem_names_of_resolve := by
    intro path name h
    cases hw : t.walk path with
    | error e => rw [hw] at h; cases h
    | ok place => rw [hw] at h; cases h; exact name_mem_names (holds_of_walk hw)

end Tree

end Daybook
