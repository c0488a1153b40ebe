import Daybook.Proofs.Checked
import Daybook.Source.Expansion

/-!
# Lines of a source

The lines that a source expands to are single lines: none has a line feed in it (`isSingle_of_ofFile`,
`isSingle_of_ofText`). They neither start nor end with a blank (`isTrimmed_of_ofFile`, `isTrimmed_of_ofText`).
-/

namespace Daybook

/-- The text of the line has no line feed. -/
def Line.IsSingle (l : Line) : Prop := '\n' ∉ l.text.toList

instance (l : Line) : Decidable l.IsSingle := inferInstanceAs (Decidable (¬ _ ∈ _))

/-- The text of the line neither starts nor ends with a blank. -/
structure Line.IsTrimmed (l : Line) : Prop where
  starts : ∀ c ∈ l.text.toList.head?, Text.isBlank c = false
  ends : ∀ c ∈ l.text.toList.getLast?, Text.isBlank c = false

/-! ### Cutting and trimming -/

namespace Text

/-- A text always has a piece. -/
theorem exists_splitAt (cut : Char → Bool) (cs : List Char) : ∃ first pieces, splitAt cut cs = first :: pieces := by
  cases cs with
  | nil => exact ⟨[], [], rfl⟩
  | cons c cs =>
    rw [splitAt]
    split
    · exact ⟨_, _, rfl⟩
    · split <;> exact ⟨_, _, rfl⟩

/-- No piece has one of the characters at which a text is cut. -/
theorem not_cut_of_mem_splitAt {cut : Char → Bool} {cs piece : List Char} (mem : piece ∈ splitAt cut cs) :
    ∀ c ∈ piece, cut c = false := by
  induction cs generalizing piece with
  | nil =>
    obtain rfl := List.mem_singleton.1 mem
    exact nofun
  | cons c cs ih =>
    obtain ⟨first, pieces, text⟩ := exists_splitAt cut cs
    rw [text] at ih
    rw [splitAt, text] at mem
    dsimp only at mem
    split at mem
    · rcases List.mem_cons.1 mem with rfl | mem
      · exact nofun
      · exact ih mem
    · next kept =>
      rcases List.mem_cons.1 mem with rfl | mem
      · intro x inside
        rcases List.mem_cons.1 inside with rfl | inside
        · exact Bool.eq_false_iff.2 kept
        · exact ih List.mem_cons_self x inside
      · exact ih (List.mem_cons_of_mem _ mem)

theorem notMem_of_mem_lines {cs line : List Char} (mem : line ∈ lines cs) : '\n' ∉ line := by
  intro feed
  have := not_cut_of_mem_splitAt mem '\n' feed
  cases this

theorem mem_of_mem_trim {cs : List Char} {c : Char} (mem : c ∈ trim cs) : c ∈ cs := by
  rw [trim, trimRight, List.mem_reverse] at mem
  have mem := List.mem_reverse.1 ((List.dropWhile_sublist _).mem mem)
  exact (List.dropWhile_sublist _).mem mem

theorem not_blank_of_head?_dropWhile {cs : List Char} {c : Char} (h : c ∈ (cs.dropWhile isBlank).head?) :
    isBlank c = false := by
  have first := List.head?_dropWhile_not isBlank cs
  rw [Option.mem_def.1 h] at first
  exact first

theorem not_blank_of_head?_trim {cs : List Char} {c : Char} (h : c ∈ (trim cs).head?) : isBlank c = false := by
  have kept : trim cs <+: trimLeft cs := by
    have := List.dropWhile_suffix isBlank (l := (trimLeft cs).reverse)
    rwa [← List.reverse_prefix, List.reverse_reverse] at this
  obtain ⟨rest, same⟩ := kept
  refine @not_blank_of_head?_dropWhile cs c ?_
  show c ∈ (trimLeft cs).head?
  rw [← same, List.head?_append, Option.mem_def.1 h]
  rfl

theorem not_blank_of_getLast?_trim {cs : List Char} {c : Char} (h : c ∈ (trim cs).getLast?) :
    isBlank c = false := by
  rw [trim, trimRight, List.getLast?_reverse] at h
  exact not_blank_of_head?_dropWhile h

end Text

/-! ### Expansion -/

namespace Source

variable {fs : FileSystem} {path content : String}

theorem eq_trim_of_significant? {raw text : List Char} (h : significant? raw = some text) :
    text = Text.trim raw := by
  rw [significant?] at h
  split at h
  · cases h
  · cases h
  · exact (Option.some.inj h).symm

theorem isSingle_of_pending {base : String} {chain : List Site} {p : Pending}
    (mem : p ∈ pending path base chain content) : p.line.IsSingle := by
  obtain ⟨⟨raw, index⟩, inLines, h⟩ := List.mem_filterMap.1 mem
  obtain ⟨text, significant, rfl⟩ := Option.map_eq_some_iff.1 h
  have isLine : raw ∈ Text.lines content.toList := List.fst_mem_of_mem_zipIdx inLines
  show '\n' ∉ (String.ofList text).toList
  rw [String.toList_ofList, eq_trim_of_significant? significant]
  exact fun feed => Text.notMem_of_mem_lines isLine (Text.mem_of_mem_trim feed)

theorem isTrimmed_of_pending {base : String} {chain : List Site} {p : Pending}
    (mem : p ∈ pending path base chain content) : p.line.IsTrimmed := by
  obtain ⟨⟨raw, index⟩, _, h⟩ := List.mem_filterMap.1 mem
  obtain ⟨text, significant, rfl⟩ := Option.map_eq_some_iff.1 h
  have isText : (String.ofList text).toList = Text.trim raw := by
    rw [String.toList_ofList, eq_trim_of_significant? significant]
  exact ⟨fun c first => Text.not_blank_of_head?_trim (isText ▸ first),
    fun c last => Text.not_blank_of_getLast?_trim (isText ▸ last)⟩

/-- The path that an include directive leads to. -/
def Pending.target? (p : Pending) : Option String :=
  (includeTarget? p.line.text.toList).map fun target => Path.join p.base (String.ofList target)

theorem target?_of_includeTarget? {p : Pending} {target : List Char}
    (directive : includeTarget? p.line.text.toList = some target) :
    p.target? = some (Path.join p.base (String.ofList target)) := by
  rw [Pending.target?, directive]
  rfl

theorem expand_of_undirected {visited : List String} {p : Pending} (undirected : p.target? = none)
    (rest : List Pending) :
    expand fs visited (p :: rest) =
      (expand fs visited rest).map fun later => { later with lines := p.line :: later.lines } := by
  rw [expand]
  have undirected : includeTarget? p.line.text.toList = none := by
    simpa [Pending.target?] using undirected
  rw [undirected]
  cases expand fs visited rest <;> rfl

theorem expand_of_directive {visited : List String} {p : Pending} (directive : p.target? = some path)
    (rest : List Pending) :
    expand fs visited (p :: rest) =
      match fs.resolve path with
      | .error why => .error (.cannotInclude p.line.location path why)
      | .ok name =>
        if name ∈ visited then
          (expand fs visited rest).map fun later => { later with skipped := name :: later.skipped }
        else
          match fs.read name with
          | .error why => .error (.cannotRead path why)
          | .ok content =>
            expand fs (name :: visited)
              (pending path (Path.parent path) p.line.location.chain content ++ rest) := by
  obtain ⟨target, named, rfl⟩ := Option.map_eq_some_iff.1 directive
  rw [expand, named]
  dsimp only
  split
  · next missing => rw [missing]
  · next name found =>
    rw [found]
    by_cases seen : name ∈ visited
    · rw [dif_pos seen]
      dsimp only
      rw [if_pos seen]
      cases expand fs visited rest <;> rfl
    · rw [dif_neg seen]
      exact (if_neg seen).symm

/-- Including keeps what is known of the lines still to be read: it goes on to hold when one more file has been
visited, and it holds of the lines of that file. -/
structure IsKept (fs : FileSystem) (P : List String → Line → Prop) : Prop where
  visiting : ∀ {visited : List String} {name : String} {l : Line}, P visited l → P (name :: visited) l
  including : ∀ {visited : List String} {name path content : String} {l : Line}, P visited l →
    fs.resolve path = .ok name → name ∉ visited → fs.read name = .ok content →
    ∀ q ∈ pending path (Path.parent path) l.location.chain content, P (name :: visited) q.line

/-- What including keeps holds of the lines that are left when everything is expanded. -/
theorem exists_of_expand {P : List String → Line → Prop} (kept : IsKept fs P) {visited : List String}
    {pendings : List Pending} {s : Expansion} (here : ∀ p ∈ pendings, P visited p.line)
    (h : expand fs visited pendings = .ok s) : ∀ l ∈ s.lines, ∃ after, P after l := by
  induction visited, pendings using expand.induct fs generalizing s with
  | case1 visited =>
    rw [expand] at h
    cases h
    exact nofun
  | case2 visited p rest plain ih =>
    have undirected : p.target? = none := by rw [Pending.target?, plain]; rfl
    rw [expand_of_undirected undirected, map_eq_ok_iff] at h
    obtain ⟨later, expanded, rfl⟩ := h
    intro l mem
    rcases List.mem_cons.1 mem with rfl | mem
    · exact ⟨visited, here p List.mem_cons_self⟩
    · exact ih (fun q mem => here q (List.mem_cons_of_mem _ mem)) expanded l mem
  | case3 visited p rest target directive path why =>
    rename_i missing
    rw [expand_of_directive (target?_of_includeTarget? directive), missing] at h
    cases h
  | case4 visited p rest target directive path name resolved seen =>
    rename_i ih
    rw [expand_of_directive (target?_of_includeTarget? directive), resolved] at h
    dsimp only at h
    rw [if_pos seen, map_eq_ok_iff] at h
    obtain ⟨later, expanded, rfl⟩ := h
    intro l mem
    exact ih (fun q mem => here q (List.mem_cons_of_mem _ mem)) expanded l mem
  | case5 visited p rest target directive path name resolved fresh why =>
    rename_i unread
    rw [expand_of_directive (target?_of_includeTarget? directive), resolved] at h
    dsimp only at h
    rw [if_neg fresh, unread] at h
    cases h
  | case6 visited p rest target directive path name resolved fresh content read =>
    rename_i ih
    rw [expand_of_directive (target?_of_includeTarget? directive), resolved] at h
    dsimp only at h
    rw [if_neg fresh, read] at h
    refine ih (fun q mem => ?_) h
    rcases List.mem_append.1 mem with mem | mem
    · exact kept.including (here p List.mem_cons_self) resolved fresh read q mem
    · exact kept.visiting (here q (List.mem_cons_of_mem _ mem))

/-- What holds of the pending lines of all texts holds of the lines that they expand to. -/
theorem forall_of_expand {P : Line → Prop} {visited : List String} {pendings : List Pending} {s : Expansion}
    (everywhere : ∀ {path base chain content}, ∀ p ∈ pending path base chain content, P p.line)
    (here : ∀ p ∈ pendings, P p.line) (h : expand fs visited pendings = .ok s) : ∀ l ∈ s.lines, P l := by
  have kept : IsKept fs fun _ => P := ⟨fun holds => holds, fun _ _ _ _ => everywhere⟩
  intro l mem
  obtain ⟨_, holds⟩ := exists_of_expand kept here h l mem
  exact holds

/-- What holds of the pending lines of all texts holds of the lines of a file, with its includes. -/
theorem forall_of_ofFile {P : Line → Prop} {s : Expansion}
    (everywhere : ∀ {path base chain content}, ∀ p ∈ pending path base chain content, P p.line)
    (h : ofFile fs path = .ok s) : ∀ l ∈ s.lines, P l := by
  rw [ofFile] at h
  split at h
  · cases h
  · split at h
    · cases h
    · exact forall_of_expand everywhere everywhere h

/-- **The lines of a file, with its includes, are single lines.** -/
theorem isSingle_of_ofFile {s : Expansion} (h : ofFile fs path = .ok s) : ∀ l ∈ s.lines, l.IsSingle :=
  forall_of_ofFile (fun _ mem => isSingle_of_pending mem) h

/-- **The lines of a text, with its includes, are single lines.** -/
theorem isSingle_of_ofText {origin : String} {s : Expansion} (h : ofText fs origin content = .ok s) :
    ∀ l ∈ s.lines, l.IsSingle :=
  forall_of_expand (fun _ mem => isSingle_of_pending mem) (fun _ mem => isSingle_of_pending mem) h

theorem isTrimmed_of_ofFile {s : Expansion} (h : ofFile fs path = .ok s) : ∀ l ∈ s.lines, l.IsTrimmed :=
  forall_of_ofFile (fun _ mem => isTrimmed_of_pending mem) h

theorem isTrimmed_of_ofText {origin : String} {s : Expansion} (h : ofText fs origin content = .ok s) :
    ∀ l ∈ s.lines, l.IsTrimmed :=
  forall_of_expand (fun _ mem => isTrimmed_of_pending mem) (fun _ mem => isTrimmed_of_pending mem) h

end Source

end Daybook
