import Daybook.Source.FileSystem
import Daybook.Source.Location

/-!
# Expanding includes

A source is read line by line. Blank lines and comments, which start with `#`, are dropped, and the
other lines are trimmed. A line `include <path>` is replaced by the lines of the file that the path
leads to from the directory of the including file, the first time that file is reached; later
directives for it are replaced by nothing.

`expand` keeps the lines still to be read in one list and puts the lines of an included file in front
of it. It ends because each included file leaves one canonical name fewer to visit.
-/

namespace Daybook

/-- A line that means something: trimmed, not blank, no comment and no include directive. -/
structure Line where
  text : String
  location : Location
  deriving DecidableEq, Repr

/-- Why a source cannot be read. -/
inductive LoadFault where
  /-- A directive names a path that leads nowhere. -/
  | cannotInclude (directive : Location) (path : String) (why : FileFault)
  /-- The first path leads nowhere. -/
  | cannotOpen (path : String) (why : FileFault)
  /-- A path leads to something without readable text. -/
  | cannotRead (path : String) (why : FileFault)
  deriving DecidableEq, Repr

def LoadFault.message : LoadFault → String
  | .cannotInclude directive path why =>
    directive.text ++ ": cannot include " ++ path ++ ": " ++ why.message
  | .cannotOpen path why => "cannot open " ++ path ++ ": " ++ why.message
  | .cannotRead path why => "cannot read " ++ path ++ ": " ++ why.message

namespace Source

/-! ### Lines -/

/-- A line still to be read, and the directory that an include on it starts from. -/
structure Pending where
  line : Line
  base : String

/-- The trimmed text of a line, unless it is blank or a comment. -/
def significant? (raw : List Char) : Option (List Char) :=
  match Text.trim raw with
  | [] => none
  | '#' :: _ => none
  | text => some text

/-- The significant lines of a text, with their places. -/
def pending (path base : String) (chain : List Site) (content : String) : List Pending :=
  (Text.lines content.toList).zipIdx.filterMap fun (raw, index) =>
    (significant? raw).map fun text =>
      { line := ⟨String.ofList text, ⟨⟨path, index + 1⟩, chain⟩⟩, base := base }

/-- The path of an include directive: what follows the word `include` and a blank. -/
def includeTarget? (text : List Char) : Option (List Char) :=
  match Text.after? "include".toList text with
  | some (c :: rest) =>
    if Text.isBlank c then
      match Text.trim rest with
      | [] => none
      | target => some target
    else
      none
  | _ => none

/-! ### Expansion -/

/-- The lines of a source, and the canonical names of the files that were not included again. -/
structure Expansion where
  lines : List Line
  skipped : List String

/-- The canonical names that are not among the visited ones. -/
def unvisited (fs : FileSystem) (visited : List String) : Nat :=
  (fs.names.filter (· ∉ visited)).length

/-- Visiting a new name leaves fewer to visit. -/
theorem unvisited_cons_lt {fs : FileSystem} {visited : List String} {name : String}
    (known : name ∈ fs.names) (fresh : name ∉ visited) :
    unvisited fs (name :: visited) < unvisited fs visited := by
  have : fs.names.filter (· ∉ name :: visited) = (fs.names.filter (· ∉ visited)).filter (· ≠ name) := by
    rw [List.filter_filter]
    exact List.filter_congr fun x _ => by simp [List.mem_cons, not_or]
  rw [unvisited, unvisited, this]
  exact List.length_filter_lt_length_iff_exists.2 ⟨name, by simp [known, fresh], by simp⟩

/-- The lines that pending lines expand to, when some files have been visited. -/
def expand (fs : FileSystem) (visited : List String) : List Pending → Except LoadFault Expansion
  | [] => .ok ⟨[], []⟩
  | p :: rest =>
    match includeTarget? p.line.text.toList with
    | none => do
      let later ← expand fs visited rest
      .ok { later with lines := p.line :: later.lines }
    | some target =>
      let path := Path.join p.base (String.ofList target)
      match _resolved : fs.resolve path with
      | .error why => .error (.cannotInclude p.line.location path why)
      | .ok name =>
        if _seen : name ∈ visited then do
          let later ← expand fs visited rest
          .ok { later with skipped := name :: later.skipped }
        else
          match fs.read name with
          | .error why => .error (.cannotRead path why)
          | .ok content =>
            expand fs (name :: visited)
              (pending path (Path.parent path) p.line.location.chain content ++ rest)
termination_by pending => (unvisited fs visited, pending.length)
decreasing_by
  · exact Prod.Lex.right _ (Nat.lt_succ_self _)
  · exact Prod.Lex.right _ (Nat.lt_succ_self _)
  · exact Prod.Lex.left _ _ (unvisited_cons_lt (fs.mem_names_of_resolve _resolved) _seen)

/-- The lines of the file at a path, with its includes. -/
def ofFile (fs : FileSystem) (path : String) : Except LoadFault Expansion :=
  match fs.resolve path with
  | .error why => .error (.cannotOpen path why)
  | .ok name =>
    match fs.read name with
    | .error why => .error (.cannotRead path why)
    | .ok content => expand fs [name] (pending path (Path.parent path) [] content)

/-- The lines of a text in memory, with its includes, which start from the working directory. The
origin names the text in locations. -/
def ofText (fs : FileSystem) (origin content : String) : Except LoadFault Expansion :=
  expand fs [] (pending origin "" [] content)

/-- The paths that the include directives of a file with this content name. -/
def includedPaths (path content : String) : List String :=
  (pending path (Path.parent path) [] content).filterMap fun p =>
    (includeTarget? p.line.text.toList).map fun target => Path.join p.base (String.ofList target)

end Source

end Daybook
