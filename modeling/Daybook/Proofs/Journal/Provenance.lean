import Daybook.Proofs.Journal.Origins
import Daybook.Proofs.Source.Chains
import Daybook.Proofs.Source.Exploration

/-!
# Provenance

Everything that a journal says can be followed to where it is written. Lines are joined into one text, read by
places in it, and found again by counting lines back; blank lines, comments and includes are gone by then. Still
each item, leg and entry is located at the line of the source that holds its first character, and from there the
include chain leads to the root over files that are all different (`provenance_of_parse`).
-/

namespace Daybook

open Grammar (Part)

/-- **Everything in a journal is located where it is written.** The statements of a source that is read as a
journal are parts of its text, and the items are in blocks, one for each statement, that come from it
(`ComeFrom`). The lines of the source stand where their locations say, and their include chains end at the root
and never name the same file twice (`Source.Root.LeadsTo`). -/
theorem provenance_of_parse {fs : FileSystem} {root : Source.Root} {source : Source.Expansion} {j : Journal}
    (loaded : root.expansion fs = .ok source) (read : Journal.parse source.lines = .ok j) :
    Journal.statements source.lines = .ok ((Journal.parts source.lines).map Part.node) ∧
      (∃ blocks : List (List Item), blocks.flatten = j.items ∧
        List.Forall₂ (ComeFrom source.lines) (Journal.parts source.lines) blocks) ∧
      ∀ l ∈ source.lines, ∃ names, root.LeadsTo fs l names := by
  have single := Source.isSingle_of_expansion loaded
  rw [Journal.parse, except_bind_eq_ok_iff] at read
  obtain ⟨nodes, isLedger, read⟩ := read
  have parts := Journal.map_node_parts isLedger
  rw [← parts] at isLedger read
  exact ⟨isLedger, exists_blocks single (fun p mem => Journal.found_of_mem_parts mem) read,
    Source.leadsTo_of_expansion loaded⟩

/-! ### Books in two files -/

/-- The books of a branch. -/
def branchBook : Source.File where
  name := "/srv/books/branch"
  path := "books/branch"
  chain := [⟨"books/main", 3⟩]
  content := "tx 2021-01-03\nasset/bank -6 USD\n\nasset/purse 5 USD\nwith\nfee: 1 USD\nintermediary: teller\nend
dividend 2021-03-15\n  equity/broker ACME\n  asset/bank 50 USD\nend\n"

/-- The main books, which include those of the branch after a comment and a blank line. -/
def mainBook : Source.File where
  name := "/srv/books/main"
  path := "books/main"
  chain := []
  content := "# all books\n\ninclude branch\nbalance 2021-04-01\nasset/bank 44 USD\nend\n"

def bookFiles : FileSystem :=
  .ofEntries ([mainBook, branchBook].map fun f => ⟨f.path, .ok f.name, .ok f.content⟩)

def mainLine (n : Nat) : Location := ⟨⟨"books/main", n⟩, []⟩

def branchLine (n : Nat) : Location := ⟨⟨"books/branch", n⟩, [⟨"books/main", 3⟩]⟩

/-- The lines that are left of both books. -/
def bookLines : List Line :=
  [⟨"tx 2021-01-03", branchLine 1⟩, ⟨"asset/bank -6 USD", branchLine 2⟩, ⟨"asset/purse 5 USD", branchLine 4⟩,
    ⟨"with", branchLine 5⟩, ⟨"fee: 1 USD", branchLine 6⟩, ⟨"intermediary: teller", branchLine 7⟩,
    ⟨"end", branchLine 8⟩, ⟨"dividend 2021-03-15", branchLine 9⟩, ⟨"equity/broker ACME", branchLine 10⟩,
    ⟨"asset/bank 50 USD", branchLine 11⟩, ⟨"end", branchLine 12⟩, ⟨"balance 2021-04-01", mainLine 4⟩,
    ⟨"asset/bank 44 USD", mainLine 5⟩, ⟨"end", mainLine 6⟩]

theorem expansion_bookFiles : (Source.Root.file "books/main").expansion bookFiles = .ok ⟨bookLines, []⟩ := by
  have resolved : bookFiles.resolve "books/main" = .ok mainBook.name := by rfl
  have read : bookFiles.read mainBook.name = .ok mainBook.content := by rfl
  have pendings : Source.pending "books/main" (Path.parent "books/main") [] mainBook.content
      = ⟨⟨"include branch", mainLine 3⟩, "books"⟩ :: mainBook.pending.tail := by rfl
  have directive : Source.Pending.target? ⟨⟨"include branch", mainLine 3⟩, "books"⟩ = some "books/branch" := by rfl
  have opened : Source.open? bookFiles "books/branch" (mainLine 3).chain = some branchBook := by rfl
  have fresh : branchBook.name ∉ [mainBook.name] := by decide
  have lines : (branchBook.pending ++ mainBook.pending.tail).map (·.line) = bookLines := by decide +kernel
  have plain : ∀ l ∈ bookLines, Source.includeTarget? l.text.toList = none := by decide +kernel
  have undirected : ∀ p ∈ branchBook.pending ++ mainBook.pending.tail, p.target? = none := by
    intro p mem
    have isLine : p.line ∈ bookLines := by
      rw [← lines]
      exact List.mem_map_of_mem mem
    rw [Source.Pending.target?, plain p.line isLine]
    rfl
  show Source.ofFile bookFiles "books/main" = _
  rw [Source.ofFile, resolved]
  dsimp only
  rw [read]
  dsimp only
  rw [pendings, Source.expand_first directive opened fresh, Source.expand_of_no_directive undirected, lines]

/-- The items of the branch are located in its own book, at the lines where they are written: the fee where the
transfer is, and the revenue where the dividend is. -/
theorem provenance_of_bookFiles :
    ∃ j, Journal.parse bookLines = .ok j ∧
      j.items.map Item.location = [branchLine 1, branchLine 1, branchLine 9, branchLine 9, mainLine 4] ∧
      (∃ blocks : List (List Item), blocks.flatten = j.items ∧
        List.Forall₂ (ComeFrom bookLines) (Journal.parts bookLines) blocks) ∧
      ∀ l ∈ bookLines, ∃ names, (Source.Root.file "books/main").LeadsTo bookFiles l names := by
  have read : (Journal.parse bookLines).toOption.map (·.items.map Item.location)
      = some [branchLine 1, branchLine 1, branchLine 9, branchLine 9, mainLine 4] := by decide +kernel
  obtain ⟨j, read, located⟩ := Option.map_eq_some_iff.1 read
  have read := toOption_eq_some_iff.1 read
  obtain ⟨_, blocks, chains⟩ := provenance_of_parse expansion_bookFiles read
  exact ⟨j, read, located, blocks, chains⟩

end Daybook
