import Daybook.Proofs.Grammar.Shift

/-!
# Texts that go on

When more text is added to the end of a text, an expression may read on, or read something else. Most
parts of the ledger language cannot: what they read, or that they are refused, is settled before the last
line feed of the text. Which expressions are so is computed from their structure (`Expr.traits`), and is
true of every reading that starts at an *open* place, one with a line feed at the end of the text still to
come (`has_traits`). A *sure* expression reads the same whatever text follows, and repeating it goes on
where the text ended (`readAll_extend`).
-/

namespace Daybook.Grammar

/-! ### Open places -/

namespace Cursor

/-- The same place in a text that goes on. -/
def extend (more : List Char) (c : Cursor) : Cursor := { c with rest := c.rest ++ more }

/-- The text ends with a line feed, which is still to come. -/
def IsOpen (c : Cursor) : Prop := c.rest.getLast? = some '\n'

/-- The line that the end of the text is on. -/
def lastLine (c : Cursor) : Nat := c.line + c.rest.count '\n'

variable {c stop : Cursor} {passed : List Char}

theorem IsOpen.rest_ne_nil (h : c.IsOpen) : c.rest ≠ [] := by
  intro empty
  rw [IsOpen, empty] at h
  cases h

theorem IsOpen.of_leads (h : c.IsOpen) (led : c.Leads passed stop) (more : stop.rest ≠ []) : stop.IsOpen := by
  rw [IsOpen, led.rest, List.getLast?_append] at h
  obtain ⟨x, last⟩ := Option.isSome_iff_exists.1 (List.getLast?_isSome.2 more)
  rw [last, Option.some_or] at h
  rw [IsOpen, last, h]

/-- A place that leads to an open one is open. -/
theorem Leads.isOpen (led : c.Leads passed stop) (h : stop.IsOpen) : c.IsOpen := by
  rw [IsOpen, led.rest, List.getLast?_append, h, Option.some_or]

/-- Within a line, an open place leads to open places. -/
theorem IsOpen.of_notMem (h : c.IsOpen) (led : c.Leads passed stop) (inLine : '\n' ∉ passed) : stop.IsOpen := by
  refine h.of_leads led fun empty => inLine ?_
  rw [IsOpen, led.rest, empty, List.append_nil] at h
  exact List.mem_of_getLast? h

theorem Leads.lastLine (led : c.Leads passed stop) : stop.lastLine = c.lastLine := by
  rw [Cursor.lastLine, Cursor.lastLine, led.line, led.rest, List.count_append, Nat.add_assoc]

theorem IsOpen.line_lt (h : c.IsOpen) : c.line < c.lastLine :=
  Nat.lt_add_of_pos_right (List.count_pos_iff.2 (List.mem_of_getLast? h))

theorem Leads.extend (led : c.Leads passed stop) (more : List Char) :
    (c.extend more).Leads passed (stop.extend more) where
  rest := by
    show c.rest ++ more = passed ++ (stop.rest ++ more)
    rw [led.rest, List.append_assoc]
  offset := led.offset
  line := led.line

theorem after?_extend {text : List Char} (h : c.after? text = some stop) (more : List Char) :
    (c.extend more).after? text = some (stop.extend more) := by
  induction text generalizing c with
  | nil =>
    cases h
    rfl
  | cons x xs ih =>
    obtain ⟨offset, line, rest⟩ := c
    cases rest with
    | nil => cases h
    | cons y rest =>
      simp only [after?, extend, List.cons_append] at h ⊢
      split at h
      · next same =>
        rw [if_pos same]
        exact ih h
      · cases h

/-- A word that may end a line, but does not go over the end of one, is refused for what is there. -/
theorem after?_extend_eq_none {text : List Char} (h : c.IsOpen) (inLine : '\n' ∉ text.dropLast)
    (refused : c.after? text = none) (more : List Char) : (c.extend more).after? text = none := by
  induction text generalizing c with
  | nil => cases refused
  | cons x xs ih =>
    obtain ⟨offset, line, rest⟩ := c
    cases rest with
    | nil => exact absurd rfl h.rest_ne_nil
    | cons y rest =>
      simp only [after?, extend, List.cons_append] at refused ⊢
      split at refused
      · next same =>
        subst same
        rw [if_pos rfl]
        cases xs with
        | nil => cases refused
        | cons x' xs =>
          rw [List.dropLast_cons_cons, List.mem_cons, not_or] at inLine
          have led := leads_next (c := ⟨offset, line, x :: rest⟩) rfl
          have open' := h.of_notMem led (by simpa using inLine.1)
          exact ih open' inLine.2 refused
      · next other => rw [if_neg other]

end Cursor

open Cursor (Leads)

/-- A part, with all parts inside it, starts before a line. -/
inductive Node.Before (line : Nat) : Node → Prop where
  | mk {rule : Rule} {start : Nat} {text : String} {children : List Node} (place : start < line)
      (parts : ∀ n ∈ children, n.Before line) : Before line (.mk rule start text children)

/-- Parts before a line are alike to themselves for any relation that holds of the lines before it. -/
theorem Node.Before.alike {numbers : Nat → Nat → Prop} {line : Nat} (same : ∀ n < line, numbers n n)
    {n : Node} (h : n.Before line) : n.Alike numbers n := by
  induction h with
  | mk place parts ih => exact .mk (same _ place) (List.forall₂_same.2 ih)

namespace Expr

/-- The reading of a text is the same if the text goes on, and its parts start before the last line. -/
structure Keeps (e : Expr) (c : Cursor) (nodes : List Node) (stop : Cursor) : Prop where
  extended : ∀ more, e.read (c.extend more) = some (nodes, stop.extend more)
  before : ∀ n ∈ nodes, n.Before c.lastLine

/-! ### Alternatives that exclude each other -/

/-- Words one of which everything that is read starts with, if there are such. -/
def openers? : Expr → Option (List (List Char))
  | word text => some [text]
  | seq first _ => first.openers?
  | alt first second => first.openers?.bind fun words => second.openers?.map (words ++ ·)
  | rule _ _ body => body.openers?
  | char _ | done | star _ | opt _ | ahead _ | «unless» _ => none

/-- No text starts with words of both expressions. -/
def apart (e e' : Expr) : Bool :=
  match e.openers?, e'.openers? with
  | some words, some words' =>
    words.all fun w => words'.all fun w' => !w.isPrefixOf w' && !w'.isPrefixOf w
  | _, _ => false

variable {e e' first second body : Expr} {c stop : Cursor} {nodes : List Node}

theorem exists_opener {words : List (List Char)} (h : e.openers? = some words)
    (taken : e.read c = some (nodes, stop)) : ∃ w ∈ words, w <+: c.rest := by
  induction e generalizing c nodes stop words with
  | word text =>
    cases h
    have led := Cursor.leads_of_after? (read_word_eq_some_iff.1 taken).1
    exact ⟨text, List.mem_singleton_self text, stop.rest, led.rest.symm⟩
  | seq first second ih =>
    obtain ⟨before, m, after, begun, _, _⟩ := read_seq_eq_some_iff.1 taken
    exact ih h begun
  | alt first second ih ih' =>
    obtain ⟨words₁, h₁, h⟩ := Option.bind_eq_some_iff.1 h
    obtain ⟨words₂, h₂, rfl⟩ := Option.map_eq_some_iff.1 h
    rcases read_alt_eq_some_iff.1 taken with taken | ⟨_, taken⟩
    · obtain ⟨w, mem, starts⟩ := ih h₁ taken
      exact ⟨w, List.mem_append_left _ mem, starts⟩
    · obtain ⟨w, mem, starts⟩ := ih' h₂ taken
      exact ⟨w, List.mem_append_right _ mem, starts⟩
  | rule name kind body ih =>
    obtain ⟨inside, taken, _⟩ := read_rule_eq_some_iff.1 taken
    exact ih h taken
  | char _ | done | star _ | opt _ | ahead _ | «unless» _ => cases h

/-- Where one expression reads something, one that is apart from it is refused, whatever text follows. -/
theorem read_eq_none_of_apart (h : apart e e' = true) (taken : e'.read c = some (nodes, stop))
    (more : List Char) : e.read (c.extend more) = none := by
  rw [apart] at h
  split at h
  · next words words' isOpeners isOpeners' =>
    cases also : e.read (c.extend more) with
    | none => rfl
    | some reading =>
      obtain ⟨w, mem, starts⟩ := exists_opener isOpeners also
      obtain ⟨w', mem', starts'⟩ := exists_opener isOpeners' taken
      have different := List.all_eq_true.1 (List.all_eq_true.1 h w mem) w' mem'
      rw [Bool.and_eq_true, Bool.not_eq_true', Bool.not_eq_true', ← Bool.not_eq_true,
        ← Bool.not_eq_true, List.isPrefixOf_iff_prefix, List.isPrefixOf_iff_prefix] at different
      -- Both words are at the start of the same text.
      rcases List.prefix_or_prefix_of_prefix starts (starts'.trans (List.prefix_append _ _)) with sub | sub
      · exact absurd sub different.1
      · exact absurd sub different.2
  · cases h

/-! ### Traits -/

/-- What is known of the readings of an expression from its structure. -/
structure Traits where
  /-- It is never refused. -/
  total : Bool
  /-- From open places it leads to open places. -/
  stays : Bool
  /-- If it is refused at an open place, it is so whatever text follows. -/
  firm : Bool
  /-- What it reads between open places it reads whatever text follows. -/
  settled : Bool
  /-- What it reads from an open place it reads whatever text follows. -/
  sure : Bool

namespace Traits

def char (accepts : Char → Bool) : Traits := ⟨false, !accepts '\n', true, true, true⟩

def word (text : List Char) : Traits :=
  ⟨text.isEmpty, !text.contains '\n', !text.dropLast.contains '\n', true, true⟩

def done : Traits := ⟨false, true, true, true, true⟩

/-- A sequence is also sure if the second part reads something: then the first part leads to an open
place. -/
def seq (t t' : Traits) (reads : Bool) : Traits where
  total := t.total && t'.total
  stays := t.stays && t'.stays
  firm := t.firm && (t'.total || t.stays && t.sure && t'.firm)
  settled := t.settled && t'.settled
  sure := t.settled && t'.sure && (t.stays || reads)

/-- The alternative that is tried first must be refused again where the other one reads something. -/
def alt (t t' : Traits) (apart : Bool) : Traits where
  total := t.total || t'.total
  stays := t.stays && t'.stays
  firm := t.firm && t'.firm
  settled := t.settled && t'.settled && (t.firm || apart)
  sure := t.sure && t'.sure && (t.firm || apart)

def star (t : Traits) (reads : Bool) : Traits where
  total := true
  stays := t.stays && reads
  firm := true
  settled := t.settled && t.firm && reads
  sure := t.settled && t.firm && reads && t.stays

def opt (t : Traits) : Traits := ⟨true, t.stays, true, t.settled && t.firm, t.sure && t.firm⟩

def ahead (t : Traits) : Traits := ⟨false, true, t.firm, t.sure, t.sure⟩

def «unless» (t : Traits) : Traits := ⟨false, true, t.sure, t.firm, t.firm⟩

end Traits

/-- The traits of an expression, from those of its parts. -/
def traits : Expr → Traits
  | char accepts => .char accepts
  | word text => .word text
  | done => .done
  | seq first second => .seq first.traits second.traits second.consumes
  | alt first second => .alt first.traits second.traits (apart first second)
  | star body => .star body.traits body.consumes
  | opt body => .opt body.traits
  | ahead body => .ahead body.traits
  | «unless» body => .unless body.traits
  | rule _ _ body => body.traits

/-- An expression has traits: its readings are as these say. -/
structure Has (e : Expr) (t : Traits) : Prop where
  total : t.total = true → ∀ c, e.read c ≠ none
  stays : t.stays = true → ∀ {c nodes stop}, c.IsOpen → e.read c = some (nodes, stop) → stop.IsOpen
  firm : t.firm = true → ∀ {c}, c.IsOpen → e.read c = none → ∀ more, e.read (c.extend more) = none
  settled : t.settled = true → ∀ {c nodes stop}, c.IsOpen → e.read c = some (nodes, stop) →
    stop.IsOpen → e.Keeps c nodes stop
  sure : t.sure = true → ∀ {c nodes stop}, c.IsOpen → e.read c = some (nodes, stop) →
    e.Keeps c nodes stop

variable {t t' : Traits}

theorem has_char (accepts : Char → Bool) : (char accepts).Has (.char accepts) := by
  have keeps {c stop : Cursor} {nodes : List Node} (taken : (char accepts).read c = some (nodes, stop)) :
      (char accepts).Keeps c nodes stop := by
    obtain ⟨x, rest, isRest, accepted, rfl, rfl⟩ := read_char_eq_some_iff.1 taken
    refine ⟨fun more => ?_, nofun⟩
    exact read_char_eq_some_iff.2 ⟨x, rest ++ more, by rw [Cursor.extend, isRest]; rfl, accepted, rfl, rfl⟩
  refine ⟨nofun, fun stays c nodes stop isOpen taken => ?_, fun _ c isOpen refused more => ?_,
    fun _ _ _ _ _ taken _ => keeps taken, fun _ _ _ _ _ taken => keeps taken⟩
  · obtain ⟨x, rest, isRest, accepted, rfl, rfl⟩ := read_char_eq_some_iff.1 taken
    refine isOpen.of_notMem (Cursor.leads_next isRest) fun mem => ?_
    rw [← List.mem_singleton.1 mem] at accepted
    simp [Traits.char, accepted] at stays
  · obtain ⟨x, rest, isRest⟩ := List.exists_cons_of_ne_nil isOpen.rest_ne_nil
    refine read_char_eq_none_iff.2 fun x' rest' same => ?_
    rw [Cursor.extend, isRest] at same
    cases same
    exact read_char_eq_none_iff.1 refused x rest isRest

theorem has_word (text : List Char) : (word text).Has (.word text) := by
  have keeps {c stop : Cursor} {nodes : List Node} (taken : (word text).read c = some (nodes, stop)) :
      (word text).Keeps c nodes stop := by
    obtain ⟨after, rfl⟩ := read_word_eq_some_iff.1 taken
    exact ⟨fun more => read_word_eq_some_iff.2 ⟨Cursor.after?_extend after more, rfl⟩, nofun⟩
  refine ⟨fun empty c => ?_, fun stays c nodes stop isOpen taken => ?_, fun firm c isOpen refused more => ?_,
    fun _ _ _ _ _ taken _ => keeps taken, fun _ _ _ _ _ taken => keeps taken⟩
  · obtain rfl := List.isEmpty_iff.1 empty
    exact nofun
  · refine isOpen.of_notMem (Cursor.leads_of_after? (read_word_eq_some_iff.1 taken).1) ?_
    simpa [Traits.word] using stays
  · have inLine : '\n' ∉ text.dropLast := by simpa [Traits.word] using firm
    exact read_word_eq_none_iff.2
      (Cursor.after?_extend_eq_none isOpen inLine (read_word_eq_none_iff.1 refused) more)

/-- An open place is not the end, and not the end of a text that goes on either. -/
theorem has_done : done.Has .done := by
  have none {c : Cursor} (isOpen : c.IsOpen) (nodes : List Node) (stop : Cursor) :
      done.read c ≠ some (nodes, stop) :=
    fun taken => isOpen.rest_ne_nil (read_done_eq_some_iff.1 taken).1
  refine ⟨nofun, fun _ _ nodes stop isOpen taken => absurd taken (none isOpen nodes stop),
    fun _ c isOpen _ more => ?_, fun _ _ nodes stop isOpen taken _ => absurd taken (none isOpen nodes stop),
    fun _ _ nodes stop isOpen taken => absurd taken (none isOpen nodes stop)⟩
  exact read_done_eq_none_iff.2 fun empty => isOpen.rest_ne_nil (List.append_eq_nil_iff.1 empty).1

theorem Keeps.seq {before after : List Node} {m : Cursor} {passed : List Char}
    (h : first.Keeps c before m) (h' : second.Keeps m after stop) (led : c.Leads passed m) :
    (Expr.seq first second).Keeps c (before ++ after) stop where
  extended more := read_seq_eq_some_iff.2 ⟨before, _, after, h.extended more, h'.extended more, rfl⟩
  before n mem := by
    rcases List.mem_append.1 mem with mem | mem
    · exact h.before n mem
    · rw [← led.lastLine]
      exact h'.before n mem

theorem has_seq (h : first.Has t) (h' : second.Has t') :
    (seq first second).Has (.seq t t' second.consumes) := by
  refine ⟨fun total c refused => ?_, fun stays c nodes stop isOpen taken => ?_,
    fun firm c isOpen refused more => ?_, fun settled c nodes stop isOpen taken isOpen' => ?_,
    fun sure c nodes stop isOpen taken => ?_⟩
  · rw [Traits.seq, Bool.and_eq_true] at total
    rcases read_seq_eq_none_iff.1 refused with refused | ⟨_, m, _, refused⟩
    · exact h.total total.1 c refused
    · exact h'.total total.2 m refused
  · rw [Traits.seq, Bool.and_eq_true] at stays
    obtain ⟨before, m, after, begun, later, rfl⟩ := read_seq_eq_some_iff.1 taken
    exact h'.stays stays.2 (h.stays stays.1 isOpen begun) later
  · simp only [Traits.seq, Bool.and_eq_true, Bool.or_eq_true] at firm
    rcases read_seq_eq_none_iff.1 refused with refused | ⟨before, m, begun, refused⟩
    · exact read_seq_eq_none_iff.2 (.inl (h.firm firm.1 isOpen refused more))
    · rcases firm.2 with total | ⟨⟨stays, sure⟩, firm⟩
      · exact absurd refused (h'.total total m)
      · refine read_seq_eq_none_iff.2 (.inr ⟨before, _, (h.sure sure isOpen begun).extended more, ?_⟩)
        exact h'.firm firm (h.stays stays isOpen begun) refused more
  · rw [Traits.seq, Bool.and_eq_true] at settled
    obtain ⟨before, m, after, begun, later, rfl⟩ := read_seq_eq_some_iff.1 taken
    obtain ⟨_, led⟩ := leads_of_read begun
    obtain ⟨_, led'⟩ := leads_of_read later
    have middle := led'.isOpen isOpen'
    exact (h.settled settled.1 isOpen begun middle).seq (h'.settled settled.2 middle later isOpen') led
  · simp only [Traits.seq, Bool.and_eq_true, Bool.or_eq_true] at sure
    obtain ⟨⟨settled, sure⟩, reaches⟩ := sure
    obtain ⟨before, m, after, begun, later, rfl⟩ := read_seq_eq_some_iff.1 taken
    obtain ⟨_, led⟩ := leads_of_read begun
    have middle : m.IsOpen := by
      rcases reaches with stays | consumes
      · exact h.stays stays isOpen begun
      · exact isOpen.of_leads led (rest_ne_nil_of_consumes consumes later)
    exact (h.settled settled isOpen begun middle).seq (h'.sure sure middle later) led

theorem Keeps.alt_left (h : first.Keeps c nodes stop) : (alt first second).Keeps c nodes stop :=
  ⟨fun more => read_alt_eq_some_iff.2 (.inl (h.extended more)), h.before⟩

theorem Keeps.alt_right (h : second.Keeps c nodes stop)
    (refused : ∀ more, first.read (c.extend more) = none) : (alt first second).Keeps c nodes stop :=
  ⟨fun more => read_alt_eq_some_iff.2 (.inr ⟨refused more, h.extended more⟩), h.before⟩

theorem has_alt (h : first.Has t) (h' : second.Has t') :
    (alt first second).Has (.alt t t' (apart first second)) := by
  -- An alternative that was refused before another is refused if the text goes on.
  have still {c stop : Cursor} {nodes : List Node} (isOpen : c.IsOpen) (refused : first.read c = none)
      (taken : second.read c = some (nodes, stop))
      (either : (t.firm || apart first second) = true) (more : List Char) :
      first.read (c.extend more) = none := by
    rcases (Bool.or_eq_true _ _).mp either with firm | apart
    · exact h.firm firm isOpen refused more
    · exact read_eq_none_of_apart apart taken more
  refine ⟨fun total c refused => ?_, fun stays c nodes stop isOpen taken => ?_,
    fun firm c isOpen refused more => ?_, fun settled c nodes stop isOpen taken isOpen' => ?_,
    fun sure c nodes stop isOpen taken => ?_⟩
  · rw [Traits.alt, Bool.or_eq_true] at total
    obtain ⟨refused, refused'⟩ := read_alt_eq_none_iff.1 refused
    rcases total with total | total
    · exact h.total total c refused
    · exact h'.total total c refused'
  · rw [Traits.alt, Bool.and_eq_true] at stays
    rcases read_alt_eq_some_iff.1 taken with taken | ⟨_, taken⟩
    · exact h.stays stays.1 isOpen taken
    · exact h'.stays stays.2 isOpen taken
  · rw [Traits.alt, Bool.and_eq_true] at firm
    obtain ⟨refused, refused'⟩ := read_alt_eq_none_iff.1 refused
    exact read_alt_eq_none_iff.2 ⟨h.firm firm.1 isOpen refused more, h'.firm firm.2 isOpen refused' more⟩
  · simp only [Traits.alt, Bool.and_eq_true] at settled
    rcases read_alt_eq_some_iff.1 taken with taken | ⟨refused, taken⟩
    · exact (h.settled settled.1.1 isOpen taken isOpen').alt_left
    · exact (h'.settled settled.1.2 isOpen taken isOpen').alt_right (still isOpen refused taken settled.2)
  · simp only [Traits.alt, Bool.and_eq_true] at sure
    rcases read_alt_eq_some_iff.1 taken with taken | ⟨refused, taken⟩
    · exact (h.sure sure.1.1 isOpen taken).alt_left
    · exact (h'.sure sure.1.2 isOpen taken).alt_right (still isOpen refused taken sure.2)

theorem isOpen_readAll (consumes : body.consumes = true)
    (stays : ∀ {c nodes stop}, c.IsOpen → body.read c = some (nodes, stop) → stop.IsOpen) (c : Cursor)
    (isOpen : c.IsOpen) : (body.readAll c).2.IsOpen := by
  induction c using readAll_induction consumes with
  | none c refused => rwa [readAll_of_none refused]
  | some c nodes m taken ih =>
    rw [readAll_of_some consumes taken]
    exact ih (stays isOpen taken)

/-- A repetition that stops at an open place does so because the next time is refused there, whatever text
follows. -/
theorem keeps_readAll (consumes : body.consumes = true) (h : body.Has t)
    (settled : t.settled = true) (firm : t.firm = true) (c : Cursor)
    (isOpen : (body.readAll c).2.IsOpen) :
    (star body).Keeps c (body.readAll c).1 (body.readAll c).2 := by
  induction c using readAll_induction consumes with
  | none c refused =>
    rw [readAll_of_none refused] at isOpen ⊢
    refine ⟨fun more => ?_, nofun⟩
    rw [read_star, readAll_of_none (h.firm firm isOpen refused more)]
  | some c nodes m taken ih =>
    rw [readAll_of_some consumes taken] at isOpen ⊢
    obtain ⟨_, led⟩ := leads_of_read taken
    obtain ⟨_, led'⟩ := leads_readAll body m
    have middle : m.IsOpen := led'.isOpen isOpen
    have keeps := h.settled settled (led.isOpen middle) taken middle
    refine ⟨fun more => ?_, fun n mem => ?_⟩
    · have later := (ih isOpen).extended more
      rw [read_star, Option.some.injEq] at later
      rw [read_star, readAll_of_some consumes (keeps.extended more), later]
    · rcases List.mem_append.1 mem with mem | mem
      · exact keeps.before n mem
      · rw [← led.lastLine]
        exact (ih isOpen).before n mem

theorem has_star (h : body.Has t) : (star body).Has (.star t body.consumes) := by
  refine ⟨fun _ _ => nofun, fun stays c nodes stop isOpen taken => ?_, fun _ _ _ => nofun,
    fun settled c nodes stop isOpen taken isOpen' => ?_, fun sure c nodes stop isOpen taken => ?_⟩
  · rw [Traits.star, Bool.and_eq_true] at stays
    rw [read_star, Option.some.injEq] at taken
    have stops := isOpen_readAll stays.2 (h.stays stays.1) c isOpen
    rwa [taken] at stops
  · simp only [Traits.star, Bool.and_eq_true] at settled
    rw [read_star, Option.some.injEq] at taken
    have keeps := keeps_readAll settled.2 h settled.1.1 settled.1.2 c (by rwa [taken])
    rwa [taken] at keeps
  · simp only [Traits.star, Bool.and_eq_true] at sure
    obtain ⟨⟨⟨settled, firm⟩, consumes⟩, stays⟩ := sure
    rw [read_star, Option.some.injEq] at taken
    have keeps := keeps_readAll consumes h settled firm c (isOpen_readAll consumes (h.stays stays) c isOpen)
    rwa [taken] at keeps

theorem Keeps.opt (h : body.Keeps c nodes stop) : (Expr.opt body).Keeps c nodes stop :=
  ⟨fun more => read_opt_eq_some_iff.2 (.inl (h.extended more)), h.before⟩

theorem keeps_opt (refused : ∀ more, body.read (c.extend more) = none) : (opt body).Keeps c [] c :=
  ⟨fun more => read_opt_eq_some_iff.2 (.inr ⟨refused more, rfl⟩), nofun⟩

theorem has_opt (h : body.Has t) : (opt body).Has (.opt t) := by
  refine ⟨fun _ _ => nofun, fun stays c nodes stop isOpen taken => ?_, fun _ _ _ => nofun,
    fun settled c nodes stop isOpen taken isOpen' => ?_, fun sure c nodes stop isOpen taken => ?_⟩
  · rcases read_opt_eq_some_iff.1 taken with taken | ⟨_, same⟩
    · exact h.stays stays isOpen taken
    · cases same
      exact isOpen
  · rw [Traits.opt, Bool.and_eq_true] at settled
    rcases read_opt_eq_some_iff.1 taken with taken | ⟨refused, same⟩
    · exact (h.settled settled.1 isOpen taken isOpen').opt
    · cases same
      exact keeps_opt (h.firm settled.2 isOpen refused)
  · rw [Traits.opt, Bool.and_eq_true] at sure
    rcases read_opt_eq_some_iff.1 taken with taken | ⟨refused, same⟩
    · exact (h.sure sure.1 isOpen taken).opt
    · cases same
      exact keeps_opt (h.firm sure.2 isOpen refused)

theorem has_ahead (h : body.Has t) : (ahead body).Has (.ahead t) := by
  have keeps (sure : t.sure = true) {c stop : Cursor} {nodes : List Node} (isOpen : c.IsOpen)
      (taken : (ahead body).read c = some (nodes, stop)) : (ahead body).Keeps c nodes stop := by
    obtain ⟨⟨r, found⟩, rfl, rfl⟩ := read_ahead_eq_some_iff.1 taken
    refine ⟨fun more => ?_, nofun⟩
    exact read_ahead_eq_some_iff.2 ⟨⟨_, (h.sure sure isOpen found).extended more⟩, rfl, rfl⟩
  refine ⟨nofun, fun _ c nodes stop isOpen taken => ?_, fun firm c isOpen refused more => ?_,
    fun sure _ _ _ isOpen taken _ => keeps sure isOpen taken,
    fun sure _ _ _ isOpen taken => keeps sure isOpen taken⟩
  · obtain ⟨_, _, rfl⟩ := read_ahead_eq_some_iff.1 taken
    exact isOpen
  · exact read_ahead_eq_none_iff.2 (h.firm firm isOpen (read_ahead_eq_none_iff.1 refused) more)

theorem has_unless (h : body.Has t) : («unless» body).Has (.unless t) := by
  have keeps (firm : t.firm = true) {c stop : Cursor} {nodes : List Node} (isOpen : c.IsOpen)
      (taken : («unless» body).read c = some (nodes, stop)) : («unless» body).Keeps c nodes stop := by
    obtain ⟨refused, rfl, rfl⟩ := read_unless_eq_some_iff.1 taken
    exact ⟨fun more => read_unless_eq_some_iff.2 ⟨h.firm firm isOpen refused more, rfl, rfl⟩, nofun⟩
  refine ⟨nofun, fun _ c nodes stop isOpen taken => ?_, fun sure c isOpen refused more => ?_,
    fun firm _ _ _ isOpen taken _ => keeps firm isOpen taken,
    fun firm _ _ _ isOpen taken => keeps firm isOpen taken⟩
  · obtain ⟨_, _, rfl⟩ := read_unless_eq_some_iff.1 taken
    exact isOpen
  · obtain ⟨r, found⟩ := read_unless_eq_none_iff.1 refused
    exact read_unless_eq_none_iff.2 ⟨_, (h.sure sure isOpen found).extended more⟩

theorem has_rule (h : body.Has t) (name : Rule) (kind : RuleKind) : (rule name kind body).Has t := by
  have keeps {c stop : Cursor} {inside : List Node} (isOpen : c.IsOpen)
      (taken : body.read c = some (inside, stop)) (h : body.Keeps c inside stop) :
      (rule name kind body).Keeps c
        [.mk name c.line (String.ofList (c.upTo stop)) (if kind = .token then [] else inside)] stop := by
    obtain ⟨_, led⟩ := leads_of_read taken
    refine ⟨fun more => read_rule_eq_some_iff.2 ⟨inside, h.extended more, ?_⟩, fun n mem => ?_⟩
    · rw [led.upTo, (led.extend more).upTo]
      rfl
    · obtain rfl := List.mem_singleton.1 mem
      refine .mk isOpen.line_lt fun n mem => ?_
      split at mem
      · cases mem
      · exact h.before n mem
  refine ⟨fun total c refused => ?_, fun stays c nodes stop isOpen taken => ?_,
    fun firm c isOpen refused more => ?_, fun settled c nodes stop isOpen taken isOpen' => ?_,
    fun sure c nodes stop isOpen taken => ?_⟩
  · exact h.total total c (read_rule_eq_none_iff.1 refused)
  · obtain ⟨inside, taken, _⟩ := read_rule_eq_some_iff.1 taken
    exact h.stays stays isOpen taken
  · exact read_rule_eq_none_iff.2 (h.firm firm isOpen (read_rule_eq_none_iff.1 refused) more)
  · obtain ⟨inside, within, rfl⟩ := read_rule_eq_some_iff.1 taken
    exact keeps isOpen within (h.settled settled isOpen within isOpen')
  · obtain ⟨inside, within, rfl⟩ := read_rule_eq_some_iff.1 taken
    exact keeps isOpen within (h.sure sure isOpen within)

/-- **Every expression has the traits that its structure says it has.** -/
theorem has_traits (e : Expr) : e.Has e.traits := by
  induction e with
  | char accepts => exact has_char accepts
  | word text => exact has_word text
  | done => exact has_done
  | seq first second ih ih' => exact has_seq ih ih'
  | alt first second ih ih' => exact has_alt ih ih'
  | star body ih => exact has_star ih
  | opt body ih => exact has_opt ih
  | ahead body ih => exact has_ahead ih
  | «unless» body ih => exact has_unless ih
  | rule name kind body ih => exact has_rule ih name kind

/-- **A repetition goes on where it ended**, if it was through with a text and more text follows. -/
theorem readAll_extend (consumes : body.consumes = true) (sure : body.traits.sure = true) (c : Cursor)
    (isOpen : c.rest ≠ [] → c.IsOpen) (ended : (body.readAll c).2.rest = []) (more : List Char) :
    body.readAll (c.extend more)
        = ((body.readAll c).1 ++ (body.readAll ((body.readAll c).2.extend more)).1,
            (body.readAll ((body.readAll c).2.extend more)).2) ∧
      ∀ n ∈ (body.readAll c).1, n.Before c.lastLine := by
  induction c using readAll_induction consumes with
  | none c refused =>
    rw [readAll_of_none refused]
    exact ⟨rfl, nofun⟩
  | some c nodes m taken ih =>
    have keeps := (has_traits body).sure sure (isOpen (rest_ne_nil_of_consumes consumes taken)) taken
    obtain ⟨_, led⟩ := leads_of_read taken
    have isOpen' (more : m.rest ≠ []) : m.IsOpen :=
      (isOpen (rest_ne_nil_of_consumes consumes taken)).of_leads led more
    rw [readAll_of_some consumes taken] at ended ⊢
    obtain ⟨later, before⟩ := ih isOpen' ended
    refine ⟨?_, fun n mem => ?_⟩
    · rw [readAll_of_some consumes (keeps.extended more), later, List.append_assoc]
    · rcases List.mem_append.1 mem with mem | mem
      · exact keeps.before n mem
      · rw [← led.lastLine]
        exact before n mem

end Expr

end Daybook.Grammar
