import Daybook.Proofs.Source.Lines
import Mathlib.Data.List.Nodup
import Mathlib.Data.List.Perm.Subperm

/-!
# Exploring the includes of a file

`Explores` says what the depth-first expansion of a file is: each include line is replaced by the
expansion of the file it leads to where that file is reached first, and by nothing where it was reached
before. It is told file by file, and does not stop at a path that leads nowhere.

`ofFile_explores` compares `ofFile` with it. Every file has such an expansion, with each canonical file
in it once, and with each line of these files once. `ofFile` gives its lines, and fails where one of the
paths in it cannot be read.
-/

namespace Daybook

/-- The path leads to a file with readable text. -/
def FileSystem.CanRead (fs : FileSystem) (path : String) : Prop :=
  ∃ name content, fs.resolve path = .ok name ∧ fs.read name = .ok content

namespace Source

/-! ### Files -/

/-- A file, as it is reached. -/
structure File where
  /-- Its canonical name. -/
  name : String
  /-- The path that leads to it. -/
  path : String
  /-- The sites of the include directives that lead to it, innermost first. -/
  chain : List Site
  content : String

/-- The file that a path leads to, if it can be read. -/
def open? (fs : FileSystem) (path : String) (chain : List Site) : Option File :=
  match fs.resolve path with
  | .error _ => none
  | .ok name =>
    match fs.read name with
    | .error _ => none
    | .ok content => some ⟨name, path, chain, content⟩

namespace File

/-- The significant lines of a file. -/
def pending (f : File) : List Pending :=
  Source.pending f.path (Path.parent f.path) f.chain f.content

/-- The line stands in the file, where it is trimmed, and it is not blank, no comment and no include
directive. -/
def Holds (f : File) (l : Line) : Prop :=
  ∃ index raw, (Text.lines f.content.toList)[index]? = some raw ∧
    Text.trim raw ≠ [] ∧ (Text.trim raw).head? ≠ some '#' ∧ includeTarget? (Text.trim raw) = none ∧
    l = ⟨String.ofList (Text.trim raw), ⟨⟨f.path, index + 1⟩, f.chain⟩⟩

end File

section Opening

variable {fs : FileSystem} {path : String} {chain : List Site} {f : File}

theorem open?_eq_some_iff : open? fs path chain = some f ↔
    fs.resolve path = .ok f.name ∧ fs.read f.name = .ok f.content ∧ f.path = path ∧ f.chain = chain := by
  obtain ⟨name, path', chain', content⟩ := f
  rw [open?]
  split
  · next missing =>
    rw [missing]
    exact ⟨fun h => (by cases h), fun h => (by cases h.1)⟩
  · next name' found =>
    split
    · next unread =>
      simp only [found, Except.ok.injEq, reduceCtorEq, false_iff]
      rintro ⟨rfl, read, -⟩
      cases unread.symm.trans read
    · next content' read =>
      rw [Option.some.injEq, File.mk.injEq, found, Except.ok.injEq]
      constructor
      · rintro ⟨rfl, rfl, rfl, rfl⟩
        exact ⟨rfl, read, rfl, rfl⟩
      · rintro ⟨rfl, read', rfl, rfl⟩
        exact ⟨rfl, rfl, rfl, Except.ok.inj (read.symm.trans read')⟩

theorem open?_eq_none_iff : open? fs path chain = none ↔ ¬ fs.CanRead path := by
  rw [Option.eq_none_iff_forall_ne_some]
  constructor
  · rintro missing ⟨name, content, resolved, read⟩
    exact missing ⟨name, path, chain, content⟩ (open?_eq_some_iff.2 ⟨resolved, read, rfl, rfl⟩)
  · intro unreadable f opened
    obtain ⟨resolved, read, -⟩ := open?_eq_some_iff.1 opened
    exact unreadable ⟨f.name, f.content, resolved, read⟩

end Opening

/-! ### Lines of a file -/

section Pendings

variable {path base content : String} {chain : List Site}

/-- The lines among pending lines that are no include directives. -/
def plain (pendings : List Pending) : List Line :=
  (pendings.filter (·.target?.isNone)).map (·.line)

theorem significant?_eq_some_iff {raw text : List Char} : significant? raw = some text ↔
    Text.trim raw ≠ [] ∧ (Text.trim raw).head? ≠ some '#' ∧ text = Text.trim raw := by
  rw [significant?]
  split
  · next blank =>
    rw [blank]
    exact ⟨fun h => (by cases h), fun h => absurd rfl h.1⟩
  · next comment =>
    rw [comment]
    exact ⟨fun h => (by cases h), fun h => absurd rfl h.2.1⟩
  · next notBlank notComment =>
    have significant : (Text.trim raw).head? ≠ some '#' := by
      intro head
      obtain ⟨rest, comment⟩ := List.head?_eq_some_iff.1 head
      exact notComment rest comment
    rw [Option.some.injEq]
    exact ⟨fun same => ⟨notBlank, significant, same.symm⟩, fun h => h.2.2.symm⟩

theorem mem_plain_pending_iff (f : File) {l : Line} : l ∈ plain f.pending ↔ f.Holds l := by
  rw [plain, List.mem_map]
  constructor
  · rintro ⟨p, mem, rfl⟩
    obtain ⟨mem, undirected⟩ := List.mem_filter.1 mem
    obtain ⟨⟨raw, index⟩, inLines, h⟩ := List.mem_filterMap.1 mem
    obtain ⟨text, significant, rfl⟩ := Option.map_eq_some_iff.1 h
    obtain ⟨notBlank, notComment, rfl⟩ := significant?_eq_some_iff.1 significant
    have undirected : includeTarget? (Text.trim raw) = none := by
      simpa [Pending.target?] using undirected
    exact ⟨index, raw, List.mem_zipIdx_iff_getElem?.1 inLines, notBlank, notComment, undirected, rfl⟩
  · rintro ⟨index, raw, inLines, notBlank, notComment, undirected, rfl⟩
    refine ⟨⟨⟨String.ofList (Text.trim raw), ⟨⟨f.path, index + 1⟩, f.chain⟩⟩, Path.parent f.path⟩, ?_, rfl⟩
    refine List.mem_filter.2 ⟨List.mem_filterMap.2 ⟨(raw, index), ?_, ?_⟩, ?_⟩
    · exact List.mem_zipIdx_iff_getElem?.2 inLines
    · simp [significant?_eq_some_iff.2 ⟨notBlank, notComment, rfl⟩]
    · simp [Pending.target?, undirected]

/-- No two significant lines of a text have the same site. -/
theorem nodup_sites_pending : ((pending path base chain content).map (·.line.location.site)).Nodup := by
  rw [pending, List.map_filterMap, List.Nodup, List.pairwise_filterMap]
  have numbered : (Text.lines content.toList).zipIdx.Pairwise (·.2 ≠ ·.2) := by
    apply List.pairwise_map.1
    show ((Text.lines content.toList).zipIdx.map Prod.snd).Nodup
    rw [List.zipIdx_map_snd]
    exact List.nodup_range'
  refine numbered.imp fun {a b} apart => ?_
  intro s hs t ht
  simp only [Option.map_map, Option.map_eq_some_iff] at hs ht
  obtain ⟨-, -, rfl⟩ := hs
  obtain ⟨-, -, rfl⟩ := ht
  intro same
  exact apart (Nat.succ.inj (congrArg Site.line same))

theorem nodup_sites_plain (f : File) : ((plain f.pending).map (·.location.site)).Nodup := by
  rw [plain, List.map_map]
  exact nodup_sites_pending.sublist (List.filter_sublist.map _)

/-- The directives of a file lead to the same paths, whatever leads to the file. -/
theorem filterMap_target?_pending (f : File) :
    f.pending.filterMap (·.target?) = includedPaths f.path f.content := by
  simp only [File.pending, includedPaths, pending, List.filterMap_filterMap]
  refine List.filterMap_congr fun a _ => ?_
  cases significant? a.1 <;> rfl

end Pendings

/-! ### Depth first -/

/-- What a walk through includes meets, in its order. -/
structure Exploration where
  /-- The files that are reached. -/
  files : List File
  /-- Their lines that are no include directives. -/
  lines : List Line
  /-- The paths that are tried. -/
  paths : List String

namespace Exploration

def names (x : Exploration) : List String := x.files.map (·.name)

/-- The names that have been visited after the walk. -/
def visited (x : Exploration) (before : List String) : List String := x.names.reverse ++ before

@[simp] theorem mem_visited {x : Exploration} {before : List String} {name : String} :
    name ∈ x.visited before ↔ name ∈ x.names ∨ name ∈ before := by
  simp [visited]

end Exploration

/-- The depth-first expansion of pending lines, when some files have been visited. -/
inductive Expands (fs : FileSystem) : List String → List Pending → Exploration → Prop
  | nil {visited} : Expands fs visited [] ⟨[], [], []⟩
  /-- A line that is no directive is kept. -/
  | line {visited p rest x} (undirected : p.target? = none) (later : Expands fs visited rest x) :
      Expands fs visited (p :: rest) { x with lines := p.line :: x.lines }
  | missing {visited p rest x path} (directive : p.target? = some path)
      (unread : open? fs path p.line.location.chain = none) (later : Expands fs visited rest x) :
      Expands fs visited (p :: rest) { x with paths := path :: x.paths }
  /-- A directive for a visited file is replaced by nothing. -/
  | again {visited p rest x path f} (directive : p.target? = some path)
      (opened : open? fs path p.line.location.chain = some f) (seen : f.name ∈ visited)
      (later : Expands fs visited rest x) :
      Expands fs visited (p :: rest) { x with paths := path :: x.paths }
  /-- A directive for another file is replaced by the expansion of the file. -/
  | first {visited p rest x path f y} (directive : p.target? = some path)
      (opened : open? fs path p.line.location.chain = some f) (fresh : f.name ∉ visited)
      (inside : Expands fs (f.name :: visited) f.pending y)
      (later : Expands fs (y.visited (f.name :: visited)) rest x) :
      Expands fs visited (p :: rest)
        ⟨f :: y.files ++ x.files, y.lines ++ x.lines, path :: y.paths ++ x.paths⟩

/-- The depth-first expansion of the file at a path. -/
inductive Explores (fs : FileSystem) (path : String) : Exploration → Prop
  | missing (unread : open? fs path [] = none) : Explores fs path ⟨[], [], [path]⟩
  | found {f x} (opened : open? fs path [] = some f) (inside : Expands fs [f.name] f.pending x) :
      Explores fs path ⟨f :: x.files, x.lines, path :: x.paths⟩

/-! ### There is an expansion -/

section

variable {fs : FileSystem} {visited : List String} {pendings : List Pending} {x : Exploration}

theorem unvisited_append_le {before : List String} :
    unvisited fs (before ++ visited) ≤ unvisited fs visited := by
  refine (List.monotone_filter_right fs.names fun name fresh => ?_).length_le
  simp only [List.mem_append, not_or, decide_eq_true_eq] at fresh ⊢
  exact fresh.2

theorem mem_names_of_open? {path : String} {chain : List Site} {f : File}
    (opened : open? fs path chain = some f) : f.name ∈ fs.names :=
  fs.mem_names_of_resolve (open?_eq_some_iff.1 opened).1

/-- Every list of pending lines has an expansion: each file that is reached first leaves fewer names to
visit, inside it and after it. -/
theorem exists_expands (fs : FileSystem) (visited : List String) :
    ∀ pendings, ∃ x, Expands fs visited pendings x
  | [] => ⟨_, .nil⟩
  | p :: rest => by
    have shorter : rest.length < (p :: rest).length := Nat.lt_succ_self _
    cases directive : p.target? with
    | none =>
      obtain ⟨x, later⟩ := exists_expands fs visited rest
      exact ⟨_, .line directive later⟩
    | some path =>
      cases opened : open? fs path p.line.location.chain with
      | none =>
        obtain ⟨x, later⟩ := exists_expands fs visited rest
        exact ⟨_, .missing directive opened later⟩
      | some f =>
        by_cases seen : f.name ∈ visited
        · obtain ⟨x, later⟩ := exists_expands fs visited rest
          exact ⟨_, .again directive opened seen later⟩
        · have fewer : unvisited fs (f.name :: visited) < unvisited fs visited :=
            unvisited_cons_lt (mem_names_of_open? opened) seen
          obtain ⟨y, inside⟩ := exists_expands fs (f.name :: visited) f.pending
          have : unvisited fs (y.visited (f.name :: visited)) < unvisited fs visited :=
            Nat.lt_of_le_of_lt unvisited_append_le fewer
          obtain ⟨x, later⟩ := exists_expands fs (y.visited (f.name :: visited)) rest
          exact ⟨_, .first directive opened seen inside later⟩
termination_by pendings => (unvisited fs visited, pendings.length)
decreasing_by
  all_goals first
    | exact Prod.Lex.right _ shorter
    | exact Prod.Lex.left _ _ ‹_›

/-! ### What an expansion has -/

namespace Expands

/-- The files are apart from each other and from those that had been visited. -/
theorem nodup_names (h : Expands fs visited pendings x) :
    x.names.Nodup ∧ ∀ name ∈ x.names, name ∉ visited := by
  induction h with
  | nil => exact ⟨List.nodup_nil, nofun⟩
  | line _ _ ih | missing _ _ _ ih | again _ _ _ _ ih => exact ih
  | @first visited p rest x path f y _ _ fresh _ _ inside later =>
    have split : Exploration.names ⟨f :: y.files ++ x.files, y.lines ++ x.lines,
        path :: y.paths ++ x.paths⟩ = f.name :: (y.names ++ x.names) := by
      simp [Exploration.names]
    rw [split, List.nodup_cons, List.nodup_append]
    refine ⟨⟨?_, inside.1, later.1, ?_⟩, ?_⟩
    · intro mem
      rcases List.mem_append.1 mem with mem | mem
      · exact inside.2 _ mem List.mem_cons_self
      · exact later.2 _ mem (Exploration.mem_visited.2 (.inr List.mem_cons_self))
    · rintro a memY _ memX rfl
      exact later.2 a memX (Exploration.mem_visited.2 (.inl memY))
    · intro name mem seen
      rcases List.mem_cons.1 mem with rfl | mem
      · exact fresh seen
      · rcases List.mem_append.1 mem with mem | mem
        · exact inside.2 name mem (List.mem_cons_of_mem _ seen)
        · exact later.2 name mem (Exploration.mem_visited.2 (.inr (List.mem_cons_of_mem _ seen)))

/-- Each file was opened under a path of the expansion. -/
theorem opened (h : Expands fs visited pendings x) :
    ∀ f ∈ x.files, f.path ∈ x.paths ∧ open? fs f.path f.chain = some f := by
  induction h with
  | nil => exact nofun
  | line _ _ ih => exact ih
  | missing _ _ _ ih | again _ _ _ _ ih =>
    exact fun f mem => ⟨List.mem_cons_of_mem _ (ih f mem).1, (ih f mem).2⟩
  | @first visited p rest x path f y _ opened _ _ _ inside later =>
    intro g mem
    rcases List.mem_cons.1 mem with rfl | mem
    · obtain ⟨-, -, rfl, chained⟩ := open?_eq_some_iff.1 opened
      exact ⟨List.mem_cons_self, chained ▸ opened⟩
    · rcases List.mem_append.1 mem with mem | mem
      · exact ⟨List.mem_cons_of_mem _ (List.mem_append_left _ (inside g mem).1), (inside g mem).2⟩
      · exact ⟨List.mem_cons_of_mem _ (List.mem_append_right _ (later g mem).1), (later g mem).2⟩

/-- The paths are those of the pending directives, and those of the files. -/
theorem mem_paths_iff (h : Expands fs visited pendings x) {path : String} :
    path ∈ x.paths ↔ path ∈ pendings.filterMap (·.target?) ∨
      ∃ f ∈ x.files, path ∈ includedPaths f.path f.content := by
  induction h with
  | nil => simp
  | line undirected _ ih => simp [ih, undirected]
  | missing directive _ _ ih | again directive _ _ _ ih =>
    simp [ih, directive, or_assoc]
  | @first visited p rest x path' f y directive _ _ _ _ inside later =>
    rw [List.filterMap_cons_some directive]
    simp only [List.cons_append, List.mem_cons, List.mem_append, inside, later,
      filterMap_target?_pending]
    grind

/-- Each path that can be read leads to a file of the expansion, or to one that had been visited. -/
theorem reached (h : Expands fs visited pendings x) :
    ∀ path ∈ x.paths, ∀ chain f, open? fs path chain = some f → f.name ∈ x.visited visited := by
  have same {path : String} {chain chain' : List Site} {f g : File}
      (hf : open? fs path chain = some f) (hg : open? fs path chain' = some g) : f.name = g.name :=
    Except.ok.inj ((open?_eq_some_iff.1 hf).1.symm.trans (open?_eq_some_iff.1 hg).1)
  induction h with
  | nil => exact nofun
  | line _ _ ih => exact ih
  | missing _ unread _ ih =>
    intro path mem chain f opened
    rcases List.mem_cons.1 mem with rfl | mem
    · obtain ⟨resolved, read, -⟩ := open?_eq_some_iff.1 opened
      exact absurd ⟨f.name, f.content, resolved, read⟩ (open?_eq_none_iff.1 unread)
    · exact ih path mem chain f opened
  | again _ openedHere seen _ ih =>
    intro path mem chain f opened
    rcases List.mem_cons.1 mem with rfl | mem
    · exact Exploration.mem_visited.2 (.inr (same opened openedHere ▸ seen))
    · exact ih path mem chain f opened
  | @first visited p rest x path' f y _ openedHere _ _ _ inside later =>
    intro path mem chain g opened
    have kept (h : g.name ∈ y.visited (f.name :: visited) ∨ g.name ∈ x.names) :
        g.name ∈ Exploration.visited ⟨f :: y.files ++ x.files, y.lines ++ x.lines,
          path' :: y.paths ++ x.paths⟩ visited := by
      simp only [Exploration.mem_visited, Exploration.names, List.mem_cons, List.cons_append,
        List.map_cons, List.map_append, List.mem_append] at h ⊢
      grind
    rcases List.mem_cons.1 mem with rfl | mem
    · exact kept (.inl (Exploration.mem_visited.2 (.inr (by simp [same opened openedHere]))))
    · rcases List.mem_append.1 mem with mem | mem
      · exact kept (.inl (inside path mem chain g opened))
      · exact kept ((Exploration.mem_visited.1 (later path mem chain g opened)).symm)

/-- The lines are the plain ones among the pending lines, and those of the files. -/
theorem perm_lines (h : Expands fs visited pendings x) :
    x.lines.Perm (plain pendings ++ x.files.flatMap fun f => plain f.pending) := by
  induction h with
  | nil => exact .nil
  | line undirected _ ih => simpa [plain, undirected] using ih
  | missing directive _ _ ih | again directive _ _ _ ih => simpa [plain, directive] using ih
  | @first visited p rest x path f y directive _ _ _ _ inside later =>
    have here : plain (p :: rest) = plain rest := by simp [plain, directive]
    rw [here, List.flatMap_append, List.flatMap_cons]
    exact (inside.append later).trans (List.perm_append_comm_assoc _ _ _)

/-- The visited files stay readable. -/
theorem known (h : Expands fs visited pendings x)
    (known : ∀ name ∈ visited, ∃ content, fs.read name = .ok content) :
    ∀ name ∈ x.visited visited, ∃ content, fs.read name = .ok content := by
  intro name mem
  rcases Exploration.mem_visited.1 mem with mem | mem
  · obtain ⟨f, reached, rfl⟩ := List.mem_map.1 mem
    exact ⟨f.content, (open?_eq_some_iff.1 (h.opened f reached).2).2.1⟩
  · exact known name mem

end Expands

/-! ### The expansion as it is computed -/

/-- Lines without directives are left as they are. -/
theorem expand_of_no_directive {pendings : List Pending} (undirected : ∀ p ∈ pendings, p.target? = none) :
    expand fs visited pendings = .ok ⟨pendings.map (·.line), []⟩ := by
  induction pendings with
  | nil => rw [expand, List.map_nil]
  | cons p rest ih =>
    rw [expand_of_undirected (undirected p List.mem_cons_self),
      ih fun q mem => undirected q (List.mem_cons_of_mem p mem)]
    rfl

theorem expand_first {p : Pending} {path : String} {f : File} (directive : p.target? = some path)
    (opened : open? fs path p.line.location.chain = some f) (fresh : f.name ∉ visited)
    (rest : List Pending) :
    expand fs visited (p :: rest) = expand fs (f.name :: visited) (f.pending ++ rest) := by
  obtain ⟨resolved, read, rfl, chained⟩ := open?_eq_some_iff.1 opened
  rw [expand_of_directive directive, resolved]
  dsimp only
  rw [if_neg fresh, read, File.pending, chained]

/-- **If every path of the expansion can be read, then `expand` goes through it.** What is pending after
it is expanded from the names that have been visited by then. -/
theorem expand_of_expands (h : Expands fs visited pendings x) (readable : ∀ path ∈ x.paths, fs.CanRead path) :
    ∃ skipped, ∀ rest, expand fs visited (pendings ++ rest) =
      (expand fs (x.visited visited) rest).map fun later =>
        ⟨x.lines ++ later.lines, skipped ++ later.skipped⟩ := by
  induction h with
  | @nil visited =>
    refine ⟨[], fun after => ?_⟩
    show expand fs visited after = (expand fs visited after).map _
    cases expand fs visited after <;> rfl
  | @line visited p rest x undirected _ ih =>
    obtain ⟨skipped, ih⟩ := ih readable
    refine ⟨skipped, fun after => ?_⟩
    rw [List.cons_append, expand_of_undirected undirected, ih]
    show _ = (expand fs (x.visited visited) after).map _
    cases expand fs (x.visited visited) after <;> rfl
  | missing directive unread _ _ =>
    exact absurd (readable _ List.mem_cons_self) (open?_eq_none_iff.1 unread)
  | @again visited p rest x path f directive opened seen _ ih =>
    obtain ⟨skipped, ih⟩ := ih fun path mem => readable path (List.mem_cons_of_mem _ mem)
    refine ⟨f.name :: skipped, fun after => ?_⟩
    rw [List.cons_append, expand_of_directive directive, (open?_eq_some_iff.1 opened).1]
    dsimp only
    rw [if_pos seen, ih]
    show _ = (expand fs (x.visited visited) after).map _
    cases expand fs (x.visited visited) after <;> rfl
  | @first visited p rest x path f y directive opened fresh _ _ inside later =>
    obtain ⟨skippedInside, inside⟩ := inside fun path mem =>
      readable path (List.mem_cons_of_mem _ (List.mem_append_left _ mem))
    obtain ⟨skippedLater, later⟩ := later fun path mem =>
      readable path (List.mem_cons_of_mem _ (List.mem_append_right _ mem))
    refine ⟨skippedInside ++ skippedLater, fun after => ?_⟩
    rw [List.cons_append, expand_first directive opened fresh, inside, later]
    have visitedAfter : Exploration.visited ⟨f :: y.files ++ x.files, y.lines ++ x.lines,
        path :: y.paths ++ x.paths⟩ visited = x.visited (y.visited (f.name :: visited)) := by
      simp [Exploration.visited, Exploration.names]
    rw [visitedAfter]
    cases expand fs (x.visited (y.visited (f.name :: visited))) after with
    | error e => rfl
    | ok s => simp [Except.map]

theorem unreadable_of_opened {path : String} {chain : List Site} {f : File} {paths : List String}
    (opened : open? fs path chain = some f)
    (unreadable : ∃ path' ∈ path :: paths, ¬ fs.CanRead path') : ∃ path' ∈ paths, ¬ fs.CanRead path' := by
  obtain ⟨bad, mem, unreadable⟩ := unreadable
  rcases List.mem_cons.1 mem with rfl | mem
  · obtain ⟨resolved, read, -⟩ := open?_eq_some_iff.1 opened
    exact absurd ⟨f.name, f.content, resolved, read⟩ unreadable
  · exact ⟨bad, mem, unreadable⟩

/-- **If a path of the expansion cannot be read, then `expand` fails**, whatever is pending after it. -/
theorem expand_error_of_expands (h : Expands fs visited pendings x)
    (known : ∀ name ∈ visited, ∃ content, fs.read name = .ok content)
    (unreadable : ∃ path ∈ x.paths, ¬ fs.CanRead path) (rest : List Pending) :
    ∃ e, expand fs visited (pendings ++ rest) = .error e := by
  induction h generalizing rest with
  | nil =>
    obtain ⟨path, mem, -⟩ := unreadable
    cases mem
  | line undirected _ ih =>
    obtain ⟨e, ih⟩ := ih known unreadable rest
    rw [List.cons_append, expand_of_undirected undirected, ih]
    exact ⟨e, rfl⟩
  | @missing visited p pendings x path directive unread _ ih =>
    rw [List.cons_append, expand_of_directive directive]
    split
    · exact ⟨_, rfl⟩
    · next name found =>
      have unknown : name ∉ visited := by
        intro seen
        obtain ⟨content, read⟩ := known name seen
        exact open?_eq_none_iff.1 unread ⟨name, content, found, read⟩
      rw [if_neg unknown]
      split
      · exact ⟨_, rfl⟩
      · next content read => exact absurd ⟨name, content, found, read⟩ (open?_eq_none_iff.1 unread)
  | @again visited p pendings x path f directive opened seen _ ih =>
    obtain ⟨resolved, -⟩ := open?_eq_some_iff.1 opened
    obtain ⟨e, ih⟩ := ih known (unreadable_of_opened opened unreadable) rest
    rw [List.cons_append, expand_of_directive directive, resolved]
    dsimp only
    rw [if_pos seen, ih]
    exact ⟨e, rfl⟩
  | @first visited p pendings x path f y directive opened fresh expands _ inside later =>
    have knownInside : ∀ name ∈ f.name :: visited, ∃ content, fs.read name = .ok content := by
      intro name mem
      rcases List.mem_cons.1 mem with rfl | mem
      · exact ⟨f.content, (open?_eq_some_iff.1 opened).2.1⟩
      · exact known name mem
    rw [List.cons_append, expand_first directive opened fresh]
    -- Either the file is read to its end, and what comes after it fails, or it fails itself.
    by_cases here : ∀ path ∈ y.paths, fs.CanRead path
    · obtain ⟨skipped, through⟩ := expand_of_expands expands here
      obtain ⟨bad, mem, unreadable⟩ := unreadable_of_opened opened unreadable
      have mem : bad ∈ x.paths := by
        rcases List.mem_append.1 mem with mem | mem
        · exact absurd (here bad mem) unreadable
        · exact mem
      obtain ⟨e, later⟩ := later (expands.known knownInside) ⟨bad, mem, unreadable⟩ rest
      rw [through, later]
      exact ⟨e, rfl⟩
    · simp only [not_forall] at here
      obtain ⟨bad, mem, unreadable⟩ := here
      exact inside knownInside ⟨bad, mem, unreadable⟩ (pendings ++ rest)

end

/-! ### The expansion of a file -/

section

variable {fs : FileSystem} {path : String} {x : Exploration}

/-- What the expansion of the file at a path has: every file that the path and the directives of its
files lead to, once, and every line of these files that is not blank, no comment and no directive, once. -/
structure Exploration.Complete (fs : FileSystem) (path : String) (x : Exploration) : Prop where
  /-- The root and the directives of the files are tried, and nothing else is. -/
  mem_paths_iff : ∀ p, p ∈ x.paths ↔ p = path ∨ ∃ f ∈ x.files, p ∈ includedPaths f.path f.content
  /-- The files are what they are in the file system. -/
  opened : ∀ f ∈ x.files, f.path ∈ x.paths ∧ fs.resolve f.path = .ok f.name ∧ fs.read f.name = .ok f.content
  /-- A path that is tried and can be read leads to one of the files. -/
  reached : ∀ p ∈ x.paths, ∀ name content, fs.resolve p = .ok name → fs.read name = .ok content →
    ∃ f ∈ x.files, f.name = name
  nodup_names : x.names.Nodup
  length_files_le : x.files.length ≤ fs.names.length
  mem_lines_iff : ∀ l, l ∈ x.lines ↔ ∃ f ∈ x.files, f.Holds l
  nodup_sites : (x.lines.map (·.location.site)).Nodup

/-- Lines of files with different names have different sites. -/
theorem nodup_sites_flatMap {files : List File} (apart : (files.map (·.name)).Nodup)
    (resolved : ∀ f ∈ files, fs.resolve f.path = .ok f.name) :
    ((files.flatMap fun f => plain f.pending).map (·.location.site)).Nodup := by
  have path_of_mem {f : File} {s : Site} (mem : s ∈ (plain f.pending).map (·.location.site)) :
      s.path = f.path := by
    obtain ⟨l, inFile, rfl⟩ := List.mem_map.1 mem
    obtain ⟨index, raw, -, -, -, -, rfl⟩ := (mem_plain_pending_iff f).1 inFile
    rfl
  rw [List.map_flatMap, List.nodup_flatMap]
  refine ⟨fun f _ => nodup_sites_plain f, ?_⟩
  have apart : files.Pairwise (·.name ≠ ·.name) := List.pairwise_map.1 apart
  refine apart.imp_of_mem fun {f g} memF memG apart => ?_
  intro s inF inG
  have same : f.path = g.path := (path_of_mem inF).symm.trans (path_of_mem inG)
  apply apart
  exact Except.ok.inj ((resolved f memF).symm.trans (same ▸ resolved g memG))

theorem Explores.complete (h : Explores fs path x) : x.Complete fs path := by
  cases h with
  | missing unread =>
    refine ⟨by simp, nofun, ?_, List.nodup_nil, Nat.zero_le _, by simp, List.nodup_nil⟩
    intro p mem name content resolved read
    obtain rfl := List.mem_singleton.1 mem
    exact absurd ⟨name, content, resolved, read⟩ (open?_eq_none_iff.1 unread)
  | @found f x opened inside =>
    obtain ⟨resolved, read, rfl, chained⟩ := open?_eq_some_iff.1 opened
    have openedAll : ∀ g ∈ f :: x.files, g.path ∈ f.path :: x.paths ∧
        fs.resolve g.path = .ok g.name ∧ fs.read g.name = .ok g.content := by
      intro g mem
      rcases List.mem_cons.1 mem with rfl | mem
      · exact ⟨List.mem_cons_self, resolved, read⟩
      · obtain ⟨tried, opened⟩ := inside.opened g mem
        obtain ⟨resolved, read, -⟩ := open?_eq_some_iff.1 opened
        exact ⟨List.mem_cons_of_mem _ tried, resolved, read⟩
    have apart : ((f :: x.files).map (·.name)).Nodup := by
      rw [List.map_cons, List.nodup_cons]
      exact ⟨fun mem => inside.nodup_names.2 _ mem List.mem_cons_self, inside.nodup_names.1⟩
    have lines : x.lines.Perm ((f :: x.files).flatMap fun g => plain g.pending) := inside.perm_lines
    constructor
    case mem_paths_iff =>
      intro p
      simp [inside.mem_paths_iff, filterMap_target?_pending]
    case opened => exact openedAll
    case reached =>
      intro p mem name content resolvedP readP
      rcases List.mem_cons.1 mem with rfl | mem
      · exact ⟨f, List.mem_cons_self, Except.ok.inj (resolved.symm.trans resolvedP)⟩
      · have := inside.reached p mem [] ⟨name, p, [], content⟩
          (open?_eq_some_iff.2 ⟨resolvedP, readP, rfl, rfl⟩)
        rcases Exploration.mem_visited.1 this with known | known
        · obtain ⟨g, mem, same⟩ := List.mem_map.1 known
          exact ⟨g, List.mem_cons_of_mem _ mem, same⟩
        · exact ⟨f, List.mem_cons_self, (List.mem_singleton.1 known).symm⟩
    case nodup_names => exact apart
    case length_files_le =>
      have known : (f :: x.files).map (·.name) ⊆ fs.names := by
        intro name mem
        obtain ⟨g, reached, rfl⟩ := List.mem_map.1 mem
        exact fs.mem_names_of_resolve (openedAll g reached).2.1
      simpa using (List.subperm_of_subset apart known).length_le
    case mem_lines_iff =>
      intro l
      rw [lines.mem_iff, List.mem_flatMap]
      simp only [mem_plain_pending_iff]
    case nodup_sites =>
      have := nodup_sites_flatMap apart fun g mem => (openedAll g mem).2.1
      exact (lines.map _).nodup_iff.2 this

/-- If every path of the expansion can be read, then the file has its lines. -/
theorem Explores.ofFile_ok (h : Explores fs path x) (readable : ∀ p ∈ x.paths, fs.CanRead p) :
    ∃ s, ofFile fs path = .ok s ∧ s.lines = x.lines := by
  cases h with
  | missing unread => exact absurd (readable path List.mem_cons_self) (open?_eq_none_iff.1 unread)
  | @found f x opened inside =>
    obtain ⟨resolved, read, rfl, chained⟩ := open?_eq_some_iff.1 opened
    obtain ⟨skipped, expanded⟩ :=
      expand_of_expands inside fun p mem => readable p (List.mem_cons_of_mem _ mem)
    have expanded := expanded []
    rw [List.append_nil, expand, File.pending, chained] at expanded
    refine ⟨⟨x.lines, skipped⟩, ?_, rfl⟩
    rw [ofFile, resolved]
    dsimp only
    rw [read]
    simpa [Except.map] using expanded

/-- If a path of the expansion cannot be read, then the file cannot be loaded. -/
theorem Explores.ofFile_error (h : Explores fs path x) (unreadable : ∃ p ∈ x.paths, ¬ fs.CanRead p) :
    ∃ e, ofFile fs path = .error e := by
  cases h with
  | missing unread =>
    rw [ofFile]
    split
    · exact ⟨_, rfl⟩
    · next name resolved =>
      split
      · exact ⟨_, rfl⟩
      · next content read => exact absurd ⟨name, content, resolved, read⟩ (open?_eq_none_iff.1 unread)
  | @found f x opened inside =>
    obtain ⟨resolved, read, rfl, chained⟩ := open?_eq_some_iff.1 opened
    have known : ∀ name ∈ [f.name], ∃ content, fs.read name = .ok content := by
      intro name mem
      obtain rfl := List.mem_singleton.1 mem
      exact ⟨f.content, read⟩
    obtain ⟨e, failed⟩ := expand_error_of_expands inside known (unreadable_of_opened opened unreadable) []
    rw [List.append_nil, File.pending, chained] at failed
    refine ⟨e, ?_⟩
    rw [ofFile, resolved]
    dsimp only
    rw [read]
    exact failed

theorem exists_explores (fs : FileSystem) (path : String) : ∃ x, Explores fs path x := by
  cases opened : open? fs path [] with
  | none => exact ⟨_, .missing opened⟩
  | some f =>
    obtain ⟨x, inside⟩ := exists_expands fs [f.name] f.pending
    exact ⟨_, .found opened inside⟩

/-- **A file is loaded by its depth-first expansion.** There always is one, it has every file and every
line once, the file has its lines, and loading fails exactly where a path in it cannot be read. -/
theorem ofFile_explores (fs : FileSystem) (path : String) :
    (∃ x, Explores fs path x) ∧ ∀ x, Explores fs path x →
      x.Complete fs path ∧
      (∀ s, ofFile fs path = .ok s → s.lines = x.lines) ∧
      ((∃ e, ofFile fs path = .error e) ↔ ∃ p ∈ x.paths, ¬ fs.CanRead p) := by
  refine ⟨exists_explores fs path, fun x h => ⟨h.complete, fun s loaded => ?_, fun failed => ?_, h.ofFile_error⟩⟩
  · by_cases readable : ∀ p ∈ x.paths, fs.CanRead p
    · obtain ⟨s', loaded', same⟩ := h.ofFile_ok readable
      cases loaded.symm.trans loaded'
      exact same
    · simp only [not_forall] at readable
      obtain ⟨p, mem, unreadable⟩ := readable
      obtain ⟨e, failed⟩ := h.ofFile_error ⟨p, mem, unreadable⟩
      cases loaded.symm.trans failed
  · by_contra readable
    obtain ⟨e, failed⟩ := failed
    obtain ⟨s, loaded, -⟩ := h.ofFile_ok fun p mem => by
      by_contra unreadable
      exact readable ⟨p, mem, unreadable⟩
    cases loaded.symm.trans failed

end

end Source

end Daybook
