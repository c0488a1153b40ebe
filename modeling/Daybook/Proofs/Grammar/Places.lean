import Daybook.Proofs.Grammar.Reading

/-!
# Where parts stand

A node says on which line its part of a text starts. Here every part keeps the place itself: `Expr.place` reads
as `Expr.read` does and leaves parts with their places, which are the same nodes when the places are forgotten
(`read_eq_map_place`). The places are right: the characters of a part stand there, after those of the parts before
it and around those of the parts inside it (`laid_of_place`).
-/

namespace Daybook.Grammar

/-! ### Parts with places -/

/-- A part of a text that a rule has read, as a node is, with the place where it starts. -/
inductive Part where
  | mk (rule : Rule) (start : Cursor) (text : List Char) (parts : List Part)

namespace Part

def rule : Part → Rule
  | mk rule _ _ _ => rule

def start : Part → Cursor
  | mk _ start _ _ => start

def text : Part → List Char
  | mk _ _ text _ => text

/-- The parts inside. -/
def parts : Part → List Part
  | mk _ _ _ parts => parts

mutual

/-- The part as a node, which knows no more than the line of the place. -/
def node : Part → Node
  | mk rule start text parts => .mk rule start.line (String.ofList text) (nodes parts)

def nodes : List Part → List Node
  | [] => []
  | p :: ps => p.node :: nodes ps

end

theorem nodes_eq_map (ps : List Part) : nodes ps = ps.map node := by
  induction ps with
  | nil => rfl
  | cons p ps ih => rw [nodes, ih, List.map_cons]

@[simp] theorem rule_node (p : Part) : p.node.rule = p.rule := by
  cases p
  rw [node]
  rfl

@[simp] theorem line_node (p : Part) : p.node.line = p.start.line := by
  cases p
  rw [node]
  rfl

@[simp] theorem text_node (p : Part) : p.node.text = String.ofList p.text := by
  cases p
  rw [node]
  rfl

@[simp] theorem children_node (p : Part) : p.node.children = p.parts.map node := by
  cases p
  rw [node, ← nodes_eq_map]
  rfl

end Part

/-- What a reading leaves, with places. -/
abbrev Placing := List Part × Cursor

/-- The reading without the places of the parts inside it. -/
def Placing.reading (placing : Placing) : Reading := (placing.1.map Part.node, placing.2)

/-- Repeats as `iterate` does. -/
def placeAll (place : Cursor → Option Placing) : List Char → Cursor → Placing
  | [], c => (place c).getD ([], c)
  | _ :: left, c =>
    match place c with
    | none => ([], c)
    | some (parts, c) =>
      let (more, stop) := placeAll place left c
      (parts ++ more, stop)

/-- What an expression reads at a place, with the places of its parts. -/
def Expr.place : Expr → Cursor → Option Placing
  | .char accepts, c => ((Expr.char accepts).read c).map fun r => ([], r.2)
  | .word text, c => (c.after? text).map fun stop => ([], stop)
  | .done, c => (Expr.done.read c).map fun r => ([], r.2)
  | .seq first second, c =>
    (first.place c).bind fun r => (second.place r.2).map fun r' => (r.1 ++ r'.1, r'.2)
  | .alt first second, c => (first.place c).or (second.place c)
  | .star body, c => some (placeAll (body.place ·) c.rest c)
  | .opt body, c => some ((body.place c).getD ([], c))
  | .ahead body, c => (body.read c).map fun _ => ([], c)
  | .unless body, c => if (body.read c).isSome then none else some ([], c)
  | .rule name kind body, c =>
    (body.place c).map fun r => ([.mk name c (c.upTo r.2) (if kind = .token then [] else r.1)], r.2)

/-! ### Placing is reading -/

theorem iterate_eq_placeAll {read : Cursor → Option Reading} {place : Cursor → Option Placing}
    (same : ∀ c, read c = (place c).map Placing.reading) (left : List Char) (c : Cursor) :
    iterate read left c = (placeAll place left c).reading := by
  induction left generalizing c with
  | nil =>
    rw [iterate, placeAll, same]
    cases place c <;> rfl
  | cons _ left ih =>
    rw [iterate, placeAll, same]
    cases place c with
    | none => rfl
    | some placing =>
      obtain ⟨parts, m⟩ := placing
      dsimp only [Option.map_some, Placing.reading]
      rw [ih, Placing.reading, List.map_append]

/-- **Reading leaves the nodes of the parts that placing leaves.** -/
theorem read_eq_map_place (e : Expr) (c : Cursor) : e.read c = (e.place c).map Placing.reading := by
  induction e generalizing c with
  | char accepts =>
    rw [Expr.place, Option.map_map, Expr.read_char]
    cases c.rest with
    | nil => rfl
    | cons x rest =>
      dsimp only [List.head?_cons, Option.bind_some]
      split <;> rfl
  | word text =>
    rw [Expr.place, Option.map_map]
    rfl
  | done =>
    rw [Expr.place, Option.map_map, Expr.read]
    split <;> rfl
  | seq first second ih ih' =>
    rw [Expr.place, Expr.read_seq, ih]
    cases first.place c with
    | none => rfl
    | some placing =>
      dsimp only [Option.map_some, Option.bind_some]
      rw [ih', Option.map_map, Option.map_map]
      refine congrArg (Option.map · _) (funext fun placing' => ?_)
      simp [Placing.reading]
  | alt first second ih ih' =>
    rw [Expr.place, Expr.read_alt, ih, ih']
    cases first.place c <;> rfl
  | star body ih =>
    show some (iterate (body.read ·) c.rest c) = _
    rw [iterate_eq_placeAll ih]
    rfl
  | opt body ih =>
    show some ((body.read c).getD ([], c)) = _
    rw [Expr.place, ih]
    cases body.place c <;> rfl
  | ahead body =>
    rw [Expr.place, Expr.read_ahead, Option.map_map]
    rfl
  | «unless» body =>
    rw [Expr.place, Expr.read_unless]
    split <;> rfl
  | rule name kind body ih =>
    rw [Expr.place, Expr.read_rule, ih, Option.map_map, Option.map_map]
    refine congrArg (Option.map · _) (funext fun placing => ?_)
    simp only [Placing.reading, Function.comp_apply, List.map_cons, List.map_nil, Part.node,
      Part.nodes_eq_map]
    split <;> rfl

theorem place_of_read {e : Expr} {c stop : Cursor} {nodes : List Node} (h : e.read c = some (nodes, stop)) :
    ∃ parts, e.place c = some (parts, stop) ∧ parts.map Part.node = nodes := by
  rw [read_eq_map_place, Option.map_eq_some_iff] at h
  obtain ⟨⟨parts, _⟩, placed, same⟩ := h
  cases same
  exact ⟨parts, placed, rfl⟩

theorem read_of_place {e : Expr} {c stop : Cursor} {ps : List Part} (h : e.place c = some (ps, stop)) :
    e.read c = some (ps.map Part.node, stop) := by
  rw [read_eq_map_place, h]
  rfl

/-! ### The places are right -/

/-- Between two places there are these parts, one after the other, each over its characters and around the parts
inside it. -/
inductive Laid : Cursor → List Part → Cursor → Prop where
  | nil {c stop : Cursor} {passed : List Char} (gap : c.Leads passed stop) : Laid c [] stop
  | cons {c m stop : Cursor} {passed : List Char} {p : Part} {ps : List Part} (gap : c.Leads passed p.start)
      (spans : p.start.Leads p.text m) (inside : Laid p.start p.parts m) (after : Laid m ps stop) :
      Laid c (p :: ps) stop

namespace Laid

variable {c m stop : Cursor} {ps more : List Part} {passed : List Char}

theorem after_gap (gap : c.Leads passed m) (h : Laid m ps stop) : Laid c ps stop := by
  cases h with
  | nil gap' => exact .nil (gap.trans gap')
  | cons gap' spans inside after => exact .cons (gap.trans gap') spans inside after

theorem append (h : Laid c ps m) (h' : Laid m more stop) : Laid c (ps ++ more) stop := by
  induction h with
  | nil gap => exact h'.after_gap gap
  | cons gap spans inside after _ ih => exact .cons gap spans inside (ih h')

theorem of_mem (h : Laid c ps stop) {p : Part} (mem : p ∈ ps) :
    ∃ passed m, c.Leads passed p.start ∧ p.start.Leads p.text m ∧ Laid p.start p.parts m := by
  induction h with
  | nil gap => cases mem
  | cons gap spans inside after _ ih =>
    rcases List.mem_cons.1 mem with rfl | mem
    · exact ⟨_, _, gap, spans, inside⟩
    · obtain ⟨further, m, led, rest⟩ := ih mem
      exact ⟨_, m, (gap.trans spans).trans led, rest⟩

end Laid

theorem laid_placeAll {place : Cursor → Option Placing}
    (laid : ∀ c ps stop, place c = some (ps, stop) → Laid c ps stop) (left : List Char) (c : Cursor) :
    Laid c (placeAll place left c).1 (placeAll place left c).2 := by
  induction left generalizing c with
  | nil =>
    rw [placeAll]
    cases placed : place c with
    | none => exact .nil (.refl c)
    | some placing => exact laid c _ _ placed
  | cons _ left ih =>
    rw [placeAll]
    split
    · exact .nil (.refl c)
    · next parts m placed => exact (laid c parts m placed).append (ih m)

theorem leads_of_place {e : Expr} {c stop : Cursor} {ps : List Part} (h : e.place c = some (ps, stop)) :
    ∃ passed, c.Leads passed stop := Expr.leads_of_read (read_of_place h)

/-- **Parts stand where they are placed.** -/
theorem laid_of_place {e : Expr} {c stop : Cursor} {ps : List Part} (h : e.place c = some (ps, stop)) :
    Laid c ps stop := by
  induction e generalizing c ps stop with
  | char _ | word _ | done =>
    obtain ⟨passed, led⟩ := leads_of_place h
    obtain ⟨_, _, same⟩ := Option.map_eq_some_iff.1 h
    cases same
    exact .nil led
  | seq first second ih ih' =>
    obtain ⟨⟨before, m⟩, begun, h⟩ := Option.bind_eq_some_iff.1 h
    obtain ⟨⟨after, stop⟩, later, same⟩ := Option.map_eq_some_iff.1 h
    cases same
    exact (ih begun).append (ih' later)
  | alt first second ih ih' =>
    rcases Option.or_eq_some_iff.1 h with placed | ⟨_, placed⟩
    · exact ih placed
    · exact ih' placed
  | star body ih =>
    have laid := laid_placeAll (fun _ _ _ placed => ih placed) c.rest c
    rw [Option.some.inj h] at laid
    exact laid
  | opt body ih =>
    rw [Expr.place] at h
    cases placed : body.place c with
    | none =>
      rw [placed] at h
      cases h
      exact .nil (.refl c)
    | some placing =>
      rw [placed] at h
      cases h
      exact ih placed
  | ahead body =>
    obtain ⟨_, _, same⟩ := Option.map_eq_some_iff.1 h
    cases same
    exact .nil (.refl c)
  | «unless» body =>
    rw [Expr.place] at h
    split at h
    · cases h
    · cases h
      exact .nil (.refl c)
  | rule name kind body ih =>
    obtain ⟨⟨inside, m⟩, placed, same⟩ := Option.map_eq_some_iff.1 h
    cases same
    obtain ⟨passed, led⟩ := leads_of_place placed
    have spans : c.Leads (c.upTo m) m := by
      rw [led.upTo]
      exact led
    refine .cons (.refl c) spans ?_ (.nil (.refl m))
    show Laid c (if kind = .token then [] else inside) m
    split
    · exact .nil led
    · exact ih placed

end Daybook.Grammar
