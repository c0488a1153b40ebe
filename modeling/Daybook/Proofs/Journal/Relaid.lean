import Daybook.Proofs.Journal.Relocated

/-!
# Layout does not matter

A text and the same text in a different layout are read as the same journal, or refused for the same reason,
up to the numbers of lines (`Journal.ofText_of_relaid`).
-/

namespace Daybook

namespace Journal

variable {g : Location → Location} {fs : FileSystem} {content content' : String}

/-- An expansion at other locations is read as the journal at other locations. -/
theorem relocates_ofExpansion (expansion : Except LoadFault Source.Expansion) :
    Relocates g (Journal.relocated g) (ofExpansion expansion)
      (ofExpansion ((expansion.map (Source.Expansion.relocated g)).mapError (LoadFault.relocated g))) := by
  cases expansion with
  | error why => rfl
  | ok source =>
    refine (parse_relocated source.lines).bind fun j => ?_
    show Except.ok (Journal.mk _ _) = Except.ok (Journal.mk _ _)
    have told : (source.skipped.map Notice.alreadyIncluded).map (Notice.relocated g)
        = source.skipped.map .alreadyIncluded := List.map_map
    rw [List.map_append, told]
    rfl

/-- **Layout does not matter.** A text in a different layout has the same significant lines, each with the number
of the corresponding line. It is read, with the same files for includes, as the same items and notices, or
refused with an error of the same kind and for the same problem; the numbers of its lines are the only
difference. -/
theorem ofText_of_relaid {number : Nat → Nat} (h : Text.Relaid number content.toList content'.toList) :
    Source.numbered 1 (Text.lines content'.toList)
        = (Source.numbered 1 (Text.lines content.toList)).map (fun line => (line.1, number line.2)) ∧
      ofText fs content' = ((ofText fs content).map (Journal.relocated (.renumbered number))).mapError
        (Error.relocated (.renumbered number)) := by
  refine ⟨Source.numbered_of_relaid h, ?_⟩
  rw [ofText, ofText, Source.expansion_of_relaid h]
  exact relocates_ofExpansion _

theorem ofExpansion_of_no_skipped (lines : List Line) : ofExpansion (.ok ⟨lines, []⟩) = parse lines := by
  show (parse lines >>= fun j => _) = parse lines
  cases parse lines <;> rfl

/-- A transfer, as somebody has written it. -/
def purseText : String := "tx 2021-01-03\nasset/bank -5 USD\n# pocket money\nasset/purse 5 USD\nend"

/-- The same after a blank line, with a carriage return on the line that the transfer starts on and a tab in
front of the next one, and without the comment. -/
def relaidPurseText : String := "\ntx 2021-01-03\r\n\tasset/bank -5 USD\nasset/purse 5 USD\nend"

theorem relaid_purseText :
    ∃ number, Text.Relaid number purseText.toList relaidPurseText.toList ∧ [1, 2, 4].map number = [2, 3, 4] := by
  let later := "asset/purse 5 USD\nend".toList
  let legs := "asset/bank -5 USD\n# pocket money\n".toList ++ later
  have blank := @Text.Edit.insert [] [] purseText.toList (by decide) (by decide)
  have crlf := @Text.Edit.crlf "\ntx 2021-01-03".toList legs
  have tab := @Text.Edit.indent "\ntx 2021-01-03\r\n".toList ['\t'] legs (by decide) (by decide)
  have comment := @Text.Edit.insert "\ntx 2021-01-03\r\n\tasset/bank -5 USD\n".toList "# pocket money".toList
    later (by decide) (by decide)
  have first : "\ntx 2021-01-03".toList ++ '\n' :: legs = '\n' :: purseText.toList := by
    simp [purseText, legs, later]
  have second : "\ntx 2021-01-03".toList ++ '\r' :: '\n' :: legs = "\ntx 2021-01-03\r\n".toList ++ legs := by
    simp [legs, later]
  have third : "\ntx 2021-01-03\r\n\tasset/bank -5 USD\n".toList ++ ("# pocket money".toList ++ '\n' :: later)
      = "\ntx 2021-01-03\r\n".toList ++ (['\t'] ++ legs) := by
    simp [legs, later]
  have last : "\ntx 2021-01-03\r\n\tasset/bank -5 USD\n".toList ++ later = relaidPurseText.toList := by
    simp [relaidPurseText, later]
  rw [first, second] at crlf
  rw [last, third] at comment
  exact ⟨_, .undo (.edit (.edit (.edit (.refl _) blank) crlf) tab) comment, rfl⟩

theorem expansion_purseText : Source.ofText .empty "<input>" purseText =
    .ok ⟨(Source.pending "<input>" "" [] purseText).map (·.line), []⟩ := by
  refine Source.expand_of_no_directive ?_
  decide +kernel

/-- The statement starts on the second line instead of the first, and the transfer moves with it. -/
theorem ofText_relaidPurseText :
    ∃ number j, Text.Relaid number purseText.toList relaidPurseText.toList ∧ [1, 2, 4].map number = [2, 3, 4] ∧
      ofText .empty purseText = .ok j ∧ j.items.map (fun i => i.location.text) = ["<input>:1"] ∧
      ofText .empty relaidPurseText = .ok (j.relocated (.renumbered number)) := by
  obtain ⟨number, relaid, moved⟩ := relaid_purseText
  have read : (parse ((Source.pending "<input>" "" [] purseText).map (·.line))).toOption.map
      (·.items.map fun i => i.location.text) = some ["<input>:1"] := by decide +kernel
  obtain ⟨j, isJournal, places⟩ := Option.map_eq_some_iff.1 read
  have isJournal : ofText .empty purseText = .ok j := by
    rw [ofText, expansion_purseText, ofExpansion_of_no_skipped, toOption_eq_some_iff.1 isJournal]
  refine ⟨number, j, relaid, moved, isJournal, places, ?_⟩
  rw [(ofText_of_relaid relaid).2, isJournal]
  rfl

end Journal

end Daybook
