import Daybook.Proofs.Source.Lines
import Mathlib.Data.List.Nodup

/-!
# Include chains

Every line of a source stands in a text where its location says, and its include chain leads from there to the
root over files that are all different (`leadsTo_of_expansion`). Only new files are included, so no file comes
twice in the chain of a line that is read while they are visited (`isKept_leadsTo`).
-/

namespace Daybook.Source

/-! ### Roots -/

/-- What a source starts from. -/
inductive Root where
  | file (path : String)
  /-- A text in memory, and the name that locations have for it. -/
  | text (origin content : String)

namespace Root

/-- The path of the lines of the root itself. -/
def path : Root → String
  | file path => path
  | text origin _ => origin

/-- The lines of the root, with its includes. -/
def expansion (fs : FileSystem) : Root → Except LoadFault Expansion
  | file path => ofFile fs path
  | text origin content => ofText fs origin content

/-- The sites of a chain that are in files: all of them, but for the text in memory that it may end at. -/
def inFiles (chain : List Site) : Root → List Site
  | file _ => chain
  | text _ _ => chain.dropLast

/-- The text that a chain over some files starts from: the first file, or the text in memory. -/
def Reads (fs : FileSystem) (names : List String) (content : String) (root : Root) : Prop :=
  match names, root with
  | name :: _, _ => fs.read name = .ok content
  | [], text _ own => content = own
  | [], file _ => False

/-- The line stands where its location says, and its include chain leads to the root over the files with these
canonical names. -/
structure LeadsTo (fs : FileSystem) (root : Root) (l : Line) (names : List String) : Prop where
  ends : l.location.chain.getLast?.map Site.path = some root.path
  files : List.Forall₂ (fun site name => fs.resolve site.path = .ok name) (root.inFiles l.location.chain) names
  /-- No file comes twice. -/
  nodup : names.Nodup
  stands : ∃ content index raw, root.Reads fs names content ∧ l.location.line = index + 1 ∧
    (Text.lines content.toList)[index]? = some raw ∧ significant? raw = some l.text.toList

end Root

/-! ### Steps -/

variable {fs : FileSystem} {root : Root} {path base content : String} {chain : List Site} {l : Line}
  {name : String} {names : List String} {p : Pending}

theorem stands_of_pending (mem : p ∈ pending path base chain content) :
    p.line.location.site.path = path ∧ p.line.location.includedFrom = chain ∧
      ∃ index raw, p.line.location.line = index + 1 ∧ (Text.lines content.toList)[index]? = some raw ∧
        significant? raw = some p.line.text.toList := by
  obtain ⟨⟨raw, index⟩, inLines, h⟩ := List.mem_filterMap.1 mem
  obtain ⟨text, significant, rfl⟩ := Option.map_eq_some_iff.1 h
  refine ⟨rfl, rfl, index, raw, rfl, List.mem_zipIdx_iff_getElem?.1 inLines, ?_⟩
  rw [significant]
  exact congrArg some String.toList_ofList.symm

theorem inFiles_cons {site : Site} (more : chain ≠ []) :
    root.inFiles (site :: chain) = site :: root.inFiles chain := by
  cases root with
  | file path => rfl
  | text origin content => exact List.dropLast_cons_of_ne_nil more

/-- The lines of a new file lead to the root by way of the directive for it. -/
theorem leadsTo_of_included (leads : root.LeadsTo fs l names) (resolved : fs.resolve path = .ok name)
    (fresh : name ∉ names) (read : fs.read name = .ok content)
    (mem : p ∈ pending path base l.location.chain content) : root.LeadsTo fs p.line (name :: names) := by
  obtain ⟨isPath, isChain, index, raw, number, isLine, text⟩ := stands_of_pending mem
  have some : l.location.chain ≠ [] := List.cons_ne_nil _ _
  have chain : p.line.location.chain = p.line.location.site :: l.location.chain := by
    rw [← isChain]
    rfl
  constructor
  · rw [chain, List.getLast?_cons_of_ne_nil some]
    exact leads.ends
  · rw [chain, inFiles_cons some]
    refine .cons ?_ leads.files
    rwa [isPath]
  · exact List.nodup_cons.2 ⟨fresh, leads.nodup⟩
  · exact ⟨content, index, raw, read, number, isLine, text⟩

/-- **Including keeps chains free of repetition**, since all of their files have been visited. -/
theorem isKept_leadsTo (root : Root) :
    IsKept fs fun visited l => ∃ names, root.LeadsTo fs l names ∧ ∀ name ∈ names, name ∈ visited := by
  constructor
  · rintro visited name l ⟨names, leads, seen⟩
    exact ⟨names, leads, fun n mem => List.mem_cons_of_mem _ (seen n mem)⟩
  · rintro visited name path content l ⟨names, leads, seen⟩ resolved fresh read q mem
    have new : name ∉ names := fun mem => fresh (seen name mem)
    refine ⟨name :: names, leadsTo_of_included leads resolved new read mem, fun n mem => ?_⟩
    rcases List.mem_cons.1 mem with rfl | mem
    · exact List.mem_cons_self
    · exact List.mem_cons_of_mem _ (seen n mem)

/-! ### From the root -/

theorem leadsTo_of_file (resolved : fs.resolve path = .ok name) (read : fs.read name = .ok content)
    (mem : p ∈ pending path base [] content) : (Root.file path).LeadsTo fs p.line [name] := by
  obtain ⟨isPath, isChain, index, raw, number, isLine, text⟩ := stands_of_pending mem
  have chain : p.line.location.chain = [p.line.location.site] := by
    rw [Location.chain, isChain]
  constructor
  · rw [chain, ← isPath]
    rfl
  · rw [chain]
    refine .cons ?_ .nil
    rwa [isPath]
  · exact List.nodup_singleton name
  · exact ⟨content, index, raw, read, number, isLine, text⟩

theorem leadsTo_of_text (mem : p ∈ pending path base [] content) :
    (Root.text path content).LeadsTo fs p.line [] := by
  obtain ⟨isPath, isChain, index, raw, number, isLine, text⟩ := stands_of_pending mem
  have chain : p.line.location.chain = [p.line.location.site] := by
    rw [Location.chain, isChain]
  constructor
  · rw [chain, ← isPath]
    rfl
  · rw [chain]
    exact .nil
  · exact List.nodup_nil
  · exact ⟨content, index, raw, rfl, number, isLine, text⟩

/-- **Every line of a source leads to the root over different files**, and stands where its location says. -/
theorem leadsTo_of_expansion {s : Expansion} (h : root.expansion fs = .ok s) :
    ∀ l ∈ s.lines, ∃ names, root.LeadsTo fs l names := by
  intro l mem
  cases root with
  | file path =>
    have h : ofFile fs path = .ok s := h
    rw [ofFile] at h
    split at h
    · cases h
    · next name resolved =>
      split at h
      · cases h
      · next content read =>
        have here : ∀ p ∈ pending path (Path.parent path) [] content,
            ∃ names, (Root.file path).LeadsTo fs p.line names ∧ ∀ n ∈ names, n ∈ [name] :=
          fun p mem => ⟨[name], leadsTo_of_file resolved read mem, fun n mem => mem⟩
        obtain ⟨_, names, leads, _⟩ := exists_of_expand (isKept_leadsTo (.file path)) here h l mem
        exact ⟨names, leads⟩
  | text origin content =>
    have here : ∀ p ∈ pending origin "" [] content,
        ∃ names, (Root.text origin content).LeadsTo fs p.line names ∧ ∀ n ∈ names, n ∈ [] :=
      fun p mem => ⟨[], leadsTo_of_text mem, fun n mem => mem⟩
    obtain ⟨_, names, leads, _⟩ := exists_of_expand (isKept_leadsTo (.text origin content)) here h l mem
    exact ⟨names, leads⟩

theorem isSingle_of_expansion {s : Expansion} (h : root.expansion fs = .ok s) : ∀ l ∈ s.lines, l.IsSingle := by
  cases root with
  | file path => exact isSingle_of_ofFile h
  | text origin content => exact isSingle_of_ofText h

end Daybook.Source
