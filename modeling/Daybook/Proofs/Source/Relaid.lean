import Daybook.Proofs.Source.Exploration
import Mathlib.Data.List.Basic
import Mathlib.Data.List.TakeWhile

/-!
# Changes of layout

A text is laid out anew by inserting or removing blank lines and comments, by white space at the start or end
of lines, and by the characters that end lines (`Text.Relaid`). Its significant lines stay, and only their
numbers change (`Source.numbered_of_relaid`). With the same files for includes the text then expands to the
same lines, where the numbers of its own lines are changed, also in the include chains of the lines of files
(`Source.expansion_of_relaid`).
-/

namespace Daybook

namespace Text

/-! ### Lines of texts put together -/

theorem exists_lines (cs : List Char) : ∃ first rest, lines cs = first :: rest := exists_splitAt _ cs

theorem exists_lines_concat (cs : List Char) : ∃ before last, lines cs = before ++ [last] := by
  obtain ⟨first, rest, split⟩ := exists_lines cs
  obtain nil | ⟨before, last, split'⟩ := List.eq_nil_or_concat (lines cs)
  · cases split.symm.trans nil
  · exact ⟨before, last, by rw [split', List.concat_eq_append]⟩

theorem lines_feed (cs : List Char) : lines ('\n' :: cs) = [] :: lines cs := by
  obtain ⟨first, rest, split⟩ := exists_lines cs
  rw [lines] at split
  rw [lines, lines, splitAt, split]
  rfl

theorem lines_cons {c : Char} {cs first : List Char} {rest : List (List Char)} (kept : c ≠ '\n')
    (split : lines cs = first :: rest) : lines (c :: cs) = (c :: first) :: rest := by
  rw [lines] at split
  rw [lines, splitAt, split]
  exact if_neg fun same => kept (beq_iff_eq.1 same)

theorem lines_of_notMem {line : List Char} (single : '\n' ∉ line) : lines line = [line] := by
  induction line with
  | nil => rfl
  | cons c cs ih =>
    obtain ⟨isKept, single⟩ := not_or.1 (mt List.mem_cons.2 single)
    exact lines_cons (Ne.symm isKept) (ih single)

/-- Where two texts meet, the last line of the first and the first line of the second become one. -/
theorem lines_append {a b last first : List Char} {before after : List (List Char)}
    (hb : lines b = first :: after) (ha : lines a = before ++ [last]) :
    lines (a ++ b) = before ++ (last ++ first) :: after := by
  induction a generalizing before last with
  | nil =>
    obtain ⟨rfl, rfl⟩ : before = [] ∧ last = [] := by
      cases before with
      | nil => exact ⟨rfl, (List.singleton_inj.1 ha).symm⟩
      | cons line before => cases before <;> cases ha
    exact hb
  | cons c cs ih =>
    obtain ⟨before', last', split⟩ := exists_lines_concat cs
    by_cases feed : c = '\n'
    · subst feed
      rw [lines_feed, split, ← List.cons_append] at ha
      obtain ⟨rfl, same⟩ := List.append_inj' ha rfl
      obtain rfl := List.singleton_inj.1 same
      rw [List.cons_append, lines_feed, ih split]
      rfl
    · cases before' with
      | nil =>
        rw [lines_cons feed split] at ha
        change [] ++ [c :: last'] = before ++ [last] at ha
        obtain ⟨rfl, same⟩ := List.append_inj' ha rfl
        obtain rfl := List.singleton_inj.1 same
        exact lines_cons feed (ih split)
      | cons line before' =>
        rw [lines_cons feed split] at ha
        change (c :: line) :: before' ++ [last'] = before ++ [last] at ha
        obtain ⟨rfl, same⟩ := List.append_inj' ha rfl
        obtain rfl := List.singleton_inj.1 same
        exact lines_cons feed (ih split)

theorem lines_append_feed (a b : List Char) : lines (a ++ '\n' :: b) = lines a ++ lines b := by
  obtain ⟨before, last, split⟩ := exists_lines_concat a
  rw [lines_append (lines_feed b) split, split, List.append_nil, List.append_assoc]
  rfl

theorem length_lines (cs : List Char) : (lines cs).length = cs.count '\n' + 1 := by
  induction cs with
  | nil => rfl
  | cons c cs ih =>
    by_cases feed : c = '\n'
    · subst feed
      rw [lines_feed, List.length_cons, ih, List.count_cons_self]
    · obtain ⟨first, rest, split⟩ := exists_lines cs
      rw [lines_cons feed split, List.count_cons_of_ne feed, ← ih, split]
      rfl

/-! ### White space around lines -/

/-- White space within a line. -/
def IsGap (gap : List Char) : Prop := ∀ c ∈ gap, isBlank c = true ∧ c ≠ '\n'

theorem trim_append_left {gap : List Char} (blank : ∀ c ∈ gap, isBlank c = true) (line : List Char) :
    trim (gap ++ line) = trim line := by
  rw [trim, trim, trimLeft, trimLeft, List.dropWhile_append_of_pos blank]

theorem trim_append_right {gap : List Char} (blank : ∀ c ∈ gap, isBlank c = true) (line : List Char) :
    trim (line ++ gap) = trim line := by
  have none : gap.dropWhile isBlank = [] := List.dropWhile_eq_nil_iff.2 blank
  rw [trim, trim, trimLeft, trimLeft, List.dropWhile_append]
  split
  · next allBlank => rw [none, List.isEmpty_iff.1 allBlank]
  · rw [trimRight, trimRight, List.reverse_append, List.dropWhile_append_of_pos]
    intro c mem
    exact blank c (List.mem_reverse.1 mem)

/-! ### Edits of the layout -/

/-- A line starts where the text ends. -/
def StartsLine (before : List Char) : Prop := ∀ c ∈ before.getLast?, c = '\n'

/-- The text starts where a line ends. -/
def EndsLine (after : List Char) : Prop := ∀ c ∈ after.head?, c = '\n'

/-- The line is blank, or the first character on it that is not blank is a `#`. -/
structure IsIdle (line : List Char) : Prop where
  single : '\n' ∉ line
  idle : ∀ c ∈ line.find? fun c => !isBlank c, c = '#'

theorem all_beq_iff {c? : Option Char} {c : Char} : c?.all (· == c) = true ↔ ∀ c' ∈ c?, c' = c := by
  cases c? with
  | none => simp
  | some c' => simp

instance (before : List Char) : Decidable (StartsLine before) := decidable_of_iff _ all_beq_iff

instance (after : List Char) : Decidable (EndsLine after) := decidable_of_iff _ all_beq_iff

instance (gap : List Char) : Decidable (IsGap gap) :=
  decidable_of_iff (gap.all fun c => isBlank c && c != '\n') (by simp [IsGap])

instance (line : List Char) : Decidable (IsIdle line) :=
  decidable_of_iff ('\n' ∉ line ∧ (line.find? fun c => !isBlank c).all (· == '#') = true)
    ⟨fun h => ⟨h.1, all_beq_iff.1 h.2⟩, fun h => ⟨h.single, all_beq_iff.2 h.idle⟩⟩

/-- One change of layout, and the number of the line that it inserts in front of others. -/
inductive Edit : Option Nat → List Char → List Char → Prop
  /-- A blank line or a comment is inserted at the start of a line. -/
  | insert {before line after : List Char} : StartsLine before → IsIdle line →
      Edit (some (before.count '\n' + 1)) (before ++ after) (before ++ (line ++ '\n' :: after))
  /-- A blank line or a comment is added after the last line. -/
  | append {text line : List Char} : IsIdle line → Edit none text (text ++ '\n' :: line)
  /-- White space is added at the start of a line. -/
  | indent {before gap after : List Char} : StartsLine before → IsGap gap →
      Edit none (before ++ after) (before ++ (gap ++ after))
  /-- White space is added at the end of a line. -/
  | trail {before gap after : List Char} : EndsLine after → IsGap gap →
      Edit none (before ++ after) (before ++ (gap ++ after))
  /-- A line that ends in a line feed is ended by a carriage return and a line feed. -/
  | crlf {before after : List Char} : Edit none (before ++ '\n' :: after) (before ++ '\r' :: '\n' :: after)

/-- The number of a line after another line, if any, has been inserted with some number. -/
def numberAfter : Option Nat → Nat → Nat
  | none, n => n
  | some inserted, n => if n < inserted then n else n + 1

/-- The number that a line had before. -/
def numberBefore : Option Nat → Nat → Nat
  | none, n => n
  | some inserted, n => if n < inserted then n else n - 1

theorem numberBefore_numberAfter (inserted : Option Nat) (n : Nat) :
    numberBefore inserted (numberAfter inserted n) = n := by
  cases inserted with
  | none => rfl
  | some k =>
    simp only [numberBefore, numberAfter]
    grind

/-- One text is another in a different layout: edits, made or undone one after the other, lead from one to the
other. The function says what the numbers of lines become. -/
inductive Relaid : (Nat → Nat) → List Char → List Char → Prop
  | refl (text : List Char) : Relaid id text text
  | edit {number : Nat → Nat} {text text' text'' : List Char} {inserted : Option Nat} :
      Relaid number text text' → Edit inserted text' text'' →
      Relaid (numberAfter inserted ∘ number) text text''
  | undo {number : Nat → Nat} {text text' text'' : List Char} {inserted : Option Nat} :
      Relaid number text text' → Edit inserted text'' text' →
      Relaid (numberBefore inserted ∘ number) text text''

/-- What stands before the start of a line is whole lines. -/
theorem StartsLine.exists_lines {before : List Char} (h : StartsLine before) :
    ∃ whole, whole.length = before.count '\n' ∧ ∀ after, lines (before ++ after) = whole ++ lines after := by
  rcases List.eq_nil_or_concat before with rfl | ⟨text, last, rfl⟩
  · exact ⟨[], rfl, fun _ => rfl⟩
  · rw [List.concat_eq_append] at h ⊢
    obtain rfl : last = '\n' := h last (by rw [List.getLast?_concat]; rfl)
    refine ⟨lines text, ?_, fun after => ?_⟩
    · rw [length_lines, List.count_append, List.count_singleton_self]
    · rw [List.append_assoc, List.singleton_append, lines_append_feed]

/-- What stands after the end of a line is the rest of the line, which is empty, and whole lines. -/
theorem EndsLine.exists_lines {after : List Char} (h : EndsLine after) : ∃ whole, lines after = [] :: whole := by
  cases after with
  | nil => exact ⟨[], rfl⟩
  | cons c rest =>
    obtain rfl : c = '\n' := h c rfl
    exact ⟨lines rest, lines_feed rest⟩

end Text

/-! ### Significant lines -/

namespace Source

theorem significant?_congr {raw raw' : List Char} (same : Text.trim raw = Text.trim raw') :
    significant? raw = significant? raw' := by
  rw [significant?, significant?, same]

/-- A blank line or a comment is dropped. -/
theorem significant?_of_isIdle {line : List Char} (h : Text.IsIdle line) : significant? line = none := by
  have first := h.idle
  rw [List.find?_not_eq_head?_dropWhile] at first
  rw [significant?, Text.trim, Text.trimLeft]
  cases left : line.dropWhile Text.isBlank with
  | nil => rfl
  | cons c rest =>
    rw [left] at first
    obtain rfl : c = '#' := first c rfl
    have isKept : Text.trimRight ('#' :: rest) = '#' :: Text.trimRight rest := by
      rw [Text.trimRight, Text.trimRight, List.reverse_cons, List.dropWhile_append]
      split
      · next allBlank =>
        rw [List.isEmpty_iff.1 allBlank]
        rfl
      · rw [List.reverse_append]
        rfl
    rw [isKept]
    rfl

/-- The significant lines among lines, with their numbers; the first line has the number `n`. -/
def numbered (n : Nat) (lines : List (List Char)) : List (List Char × Nat) :=
  (lines.zipIdx n).filterMap fun line => (significant? line.1).map fun text => (text, line.2)

variable {n : Nat} {a b : List (List Char)} {raw raw' : List Char}

theorem numbered_append (n : Nat) (a b : List (List Char)) :
    numbered n (a ++ b) = numbered n a ++ numbered (n + a.length) b := by
  rw [numbered, List.zipIdx_append, List.filterMap_append]
  rfl

theorem numbered_cons (n : Nat) (raw : List Char) (lines : List (List Char)) :
    numbered n (raw :: lines) = ((significant? raw).map fun text => (text, n)).toList ++ numbered (n + 1) lines := by
  rw [numbered, numbered, List.zipIdx_cons, List.filterMap_cons]
  cases significant? raw <;> rfl

theorem numbered_succ (n : Nat) (lines : List (List Char)) :
    numbered (n + 1) lines = (numbered n lines).map fun line => (line.1, line.2 + 1) := by
  rw [numbered, numbered, List.zipIdx_succ, List.filterMap_map, List.map_filterMap]
  refine List.filterMap_congr fun line _ => ?_
  rw [Function.comp_apply, Option.map_map]
  rfl

theorem bounds_of_mem_numbered {lines : List (List Char)} {line : List Char × Nat}
    (mem : line ∈ numbered n lines) : n ≤ line.2 ∧ line.2 < n + lines.length := by
  obtain ⟨⟨raw, i⟩, inLines, h⟩ := List.mem_filterMap.1 mem
  obtain ⟨text, significant, rfl⟩ := Option.map_eq_some_iff.1 h
  have first : n ≤ i := List.le_snd_of_mem_zipIdx inLines
  have last : i < n + lines.length := List.snd_lt_add_of_mem_zipIdx inLines
  exact ⟨first, last⟩

/-- A line counts by what is significant on it. -/
theorem numbered_congr (same : significant? raw = significant? raw') :
    numbered n (a ++ raw :: b) = numbered n (a ++ raw' :: b) := by
  rw [numbered_append, numbered_append, numbered_cons, numbered_cons, same]

/-- A line that is dropped moves the lines after it. -/
theorem numbered_insert (idle : significant? raw = none) :
    numbered 1 (a ++ raw :: b)
      = (numbered 1 (a ++ b)).map fun line => (line.1, Text.numberAfter (some (a.length + 1)) line.2) := by
  -- The lines in front keep their numbers, which are up to `a.length`, and those after it are one further down.
  have unmoved : (numbered 1 a).map (fun line => (line.1, Text.numberAfter (some (a.length + 1)) line.2))
      = numbered 1 a := by
    refine (List.map_congr_left fun line mem => ?_).trans (List.map_id _)
    have := (bounds_of_mem_numbered mem).2
    rw [Text.numberAfter, if_pos (by omega)]
    rfl
  have moved : (numbered (1 + a.length) b).map (fun line => (line.1, Text.numberAfter (some (a.length + 1)) line.2))
      = numbered (1 + a.length + 1) b := by
    rw [numbered_succ (1 + a.length)]
    refine List.map_congr_left fun line mem => ?_
    have := (bounds_of_mem_numbered mem).1
    rw [Text.numberAfter, if_neg (by omega)]
  rw [numbered_append, numbered_append, numbered_cons, idle, List.map_append, unmoved, moved]
  rfl

/-- White space at the end of a line changes nothing. -/
theorem numbered_trail {before gap after : List Char} (ends : Text.EndsLine after) (blank : Text.IsGap gap) :
    numbered 1 (Text.lines (before ++ (gap ++ after))) = numbered 1 (Text.lines (before ++ after)) := by
  obtain ⟨whole, last, split⟩ := Text.exists_lines_concat before
  obtain ⟨rest, split'⟩ := ends.exists_lines
  have single : Text.lines gap = [] ++ [gap] := Text.lines_of_notMem fun feed => (blank _ feed).2 rfl
  rw [Text.lines_append (Text.lines_append split' single) split, Text.lines_append split' split, List.append_nil,
    List.append_nil]
  exact numbered_congr (significant?_congr (Text.trim_append_right (fun c mem => (blank c mem).1) last))

/-- An edit of the layout leaves the significant lines, with other numbers. -/
theorem numbered_of_edit {inserted : Option Nat} {text text' : List Char} (h : Text.Edit inserted text text') :
    numbered 1 (Text.lines text')
      = (numbered 1 (Text.lines text)).map fun line => (line.1, Text.numberAfter inserted line.2) := by
  have unmoved (lines : List (List Char × Nat)) :
      lines.map (fun line => (line.1, Text.numberAfter none line.2)) = lines := List.map_id _
  cases h with
  | @insert before line after starts idle =>
    obtain ⟨whole, count, split⟩ := starts.exists_lines
    rw [split, split, Text.lines_append_feed, Text.lines_of_notMem idle.single, ← count]
    exact numbered_insert (significant?_of_isIdle idle)
  | append idle =>
    rw [unmoved, Text.lines_append_feed, Text.lines_of_notMem idle.single, numbered_append, numbered_cons,
      significant?_of_isIdle idle]
    exact List.append_nil _
  | @indent before gap after starts blank =>
    obtain ⟨whole, -, split⟩ := starts.exists_lines
    obtain ⟨first, rest, split'⟩ := Text.exists_lines after
    have single : Text.lines gap = [] ++ [gap] := Text.lines_of_notMem fun feed => (blank _ feed).2 rfl
    rw [unmoved, split, split, Text.lines_append split' single, split']
    exact numbered_congr (significant?_congr (Text.trim_append_left (fun c mem => (blank c mem).1) first))
  | @trail before gap after ends blank =>
    rw [unmoved]
    exact numbered_trail ends blank
  | crlf =>
    -- A carriage return is white space at the end of its line.
    have blank : Text.IsGap ['\r'] := fun c mem => by
      obtain rfl := List.mem_singleton.1 mem
      exact ⟨rfl, nofun⟩
    rw [unmoved]
    exact numbered_trail (fun c first => by cases first; rfl) blank

/-- A text in a different layout has the same significant lines, with other numbers. -/
theorem numbered_of_relaid {number : Nat → Nat} {text text' : List Char} (h : Text.Relaid number text text') :
    numbered 1 (Text.lines text')
      = (numbered 1 (Text.lines text)).map fun line => (line.1, number line.2) := by
  induction h with
  | refl text => exact (List.map_id _).symm
  | edit _ edited ih => rw [numbered_of_edit edited, ih, List.map_map]; rfl
  | @undo number text text' text'' inserted _ undone ih =>
    -- The edit leads back to the text before, so its numbers are taken back.
    have undo : (numbered 1 (Text.lines text')).map (fun line => (line.1, Text.numberBefore inserted line.2))
        = numbered 1 (Text.lines text'') := by
      rw [numbered_of_edit undone, List.map_map]
      refine (List.map_congr_left fun line _ => ?_).trans (List.map_id _)
      rw [Function.comp_apply, Text.numberBefore_numberAfter]
      rfl
    rw [← undo, ih, List.map_map]
    rfl

end Source

/-! ### Other locations -/

/-- The sites with another number in the last, which is the one in the text itself. -/
def renumberRoot (number : Nat → Nat) : List Site → List Site
  | [] => []
  | [root] => [{ root with line := number root.line }]
  | site :: outer :: rest => site :: renumberRoot number (outer :: rest)

namespace Location

/-- The location with another number for the line of the text itself: where it is, or where the include
directive stands that leads to it. -/
def renumbered (number : Nat → Nat) (l : Location) : Location :=
  match l.includedFrom with
  | [] => ⟨{ l.site with line := number l.site.line }, []⟩
  | outer :: rest => ⟨l.site, renumberRoot number (outer :: rest)⟩

theorem chain_renumbered (number : Nat → Nat) (l : Location) :
    (l.renumbered number).chain = renumberRoot number l.chain := by
  obtain ⟨site, chain⟩ := l
  cases chain <;> rfl

/-- A mapping of locations that leaves the places in included files, and goes along with the directives that
lead there. -/
def FollowsIncludes (g : Location → Location) : Prop :=
  ∀ site (directive : Location), g ⟨site, directive.chain⟩ = ⟨site, (g directive).chain⟩

theorem followsIncludes_renumbered (number : Nat → Nat) : FollowsIncludes (renumbered number) := by
  intro site directive
  rw [chain_renumbered]
  rfl

end Location

def Line.relocated (g : Location → Location) (l : Line) : Line := { l with location := g l.location }

def LoadFault.relocated (g : Location → Location) : LoadFault → LoadFault
  | cannotInclude directive path why => cannotInclude (g directive) path why
  | cannotOpen path why => cannotOpen path why
  | cannotRead path why => cannotRead path why

/-! ### Expansion -/

namespace Source

def Pending.relocated (g : Location → Location) (p : Pending) : Pending := { p with line := p.line.relocated g }

def Expansion.relocated (g : Location → Location) (s : Expansion) : Expansion :=
  { s with lines := s.lines.map (Line.relocated g) }

variable {fs : FileSystem} {g : Location → Location} {origin path base content content' : String}

theorem pending_eq_map_numbered (path base : String) (chain : List Site) (content : String) :
    pending path base chain content = (numbered 1 (Text.lines content.toList)).map fun line =>
      ⟨⟨String.ofList line.1, ⟨⟨path, line.2⟩, chain⟩⟩, base⟩ := by
  rw [numbered_succ 0, pending, numbered, List.map_map, List.map_filterMap]
  refine List.filterMap_congr fun line _ => ?_
  rw [Option.map_map]
  rfl

/-- The lines of an included file go along with the directive that leads to it. -/
theorem pending_relocated (follows : Location.FollowsIncludes g) (path base : String) (directive : Location)
    (content : String) :
    (pending path base directive.chain content).map (Pending.relocated g)
      = pending path base (g directive).chain content := by
  rw [pending_eq_map_numbered, pending_eq_map_numbered, List.map_map]
  refine List.map_congr_left fun line _ => ?_
  rw [Function.comp_apply, Pending.relocated, Line.relocated, follows]

/-- What lines expand to does not depend on where they are located. -/
theorem expand_relocated (follows : Location.FollowsIncludes g) (visited : List String)
    (pendings : List Pending) :
    expand fs visited (pendings.map (Pending.relocated g))
      = ((expand fs visited pendings).map (Expansion.relocated g)).mapError (LoadFault.relocated g) := by
  -- Whether a line is a directive, and for which file, is up to its text, so both runs take the same branch; only
  -- the lines of a file that is opened are located by the directive.
  induction visited, pendings using expand.induct fs with
  | case1 visited =>
    rw [List.map_nil, expand]
    rfl
  | case2 visited p rest plain ih =>
    have undirected : p.target? = none := by rw [Pending.target?, plain]; rfl
    rw [List.map_cons, expand_of_undirected undirected, expand_of_undirected (p := p.relocated g) undirected, ih]
    cases expand fs visited rest <;> rfl
  | case3 visited p rest target directive path why missing =>
    have directed := target?_of_includeTarget? directive
    rw [List.map_cons, expand_of_directive directed, expand_of_directive (p := p.relocated g) directed, missing]
    rfl
  | case4 visited p rest target directive path name resolved seen ih =>
    have directed := target?_of_includeTarget? directive
    rw [List.map_cons, expand_of_directive directed, expand_of_directive (p := p.relocated g) directed, resolved]
    dsimp only
    rw [if_pos seen, if_pos seen, ih]
    cases expand fs visited rest <;> rfl
  | case5 visited p rest target directive path name resolved fresh why unread =>
    have directed := target?_of_includeTarget? directive
    rw [List.map_cons, expand_of_directive directed, expand_of_directive (p := p.relocated g) directed, resolved]
    dsimp only
    rw [if_neg fresh, if_neg fresh, unread]
    rfl
  | case6 visited p rest target directive path name resolved fresh content read ih =>
    have directed := target?_of_includeTarget? directive
    rw [List.map_cons, expand_of_directive directed, expand_of_directive (p := p.relocated g) directed, resolved]
    dsimp only
    rw [if_neg fresh, if_neg fresh, read]
    dsimp only
    rw [← ih, List.map_append, pending_relocated follows]
    rfl

/-- **The lines of a text do not depend on its layout.** -/
theorem expansion_of_relaid {number : Nat → Nat} (h : Text.Relaid number content.toList content'.toList) :
    ofText fs origin content' = ((ofText fs origin content).map (Expansion.relocated (.renumbered number))).mapError
      (LoadFault.relocated (.renumbered number)) := by
  have same : pending origin "" [] content'
      = (pending origin "" [] content).map (Pending.relocated (.renumbered number)) := by
    rw [pending_eq_map_numbered, pending_eq_map_numbered, numbered_of_relaid h, List.map_map, List.map_map]
    rfl
  rw [ofText, ofText, same]
  exact expand_relocated (Location.followsIncludes_renumbered number) [] _

end Source

end Daybook
