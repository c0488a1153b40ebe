import Daybook.Ledger
import Daybook.Proofs.Checked
import Daybook.Proofs.Replay.Chronology

/-!
# What the order of a ledger's items matters for

A ledger is computed in passes: settings, accounts and groups in the order in which they are written,
and everything that is replayed in the order in which it counts. So only the order within each of these
kinds matters, and for what is replayed only the order among items of one date: lists that agree in that
come to the same ledger, or fail with the same error (`compute_eq_of_sameOrder`).
-/

namespace Daybook

/-! ### Kinds of items -/

namespace Item

def isSetting : Item → Bool
  | setting _ => true
  | _ => false

def isAccountChange : Item → Bool
  | opening _ | closing _ => true
  | _ => false

def isGroup : Item → Bool
  | group _ => true
  | _ => false

/-- Whether the replay looks at an item at all. -/
def isReplayed : Item → Bool
  | rates _ | balance _ | transaction _ => true
  | _ => false

end Item

/-- The items that matter to the same pass stand in the same order in both lists: the settings, the
openings and closings together, the groups, and of what is replayed the items of every single date. -/
structure SameOrder (xs ys : List Item) : Prop where
  settings : xs.filter Item.isSetting = ys.filter Item.isSetting
  accounts : xs.filter Item.isAccountChange = ys.filter Item.isAccountChange
  groups : xs.filter Item.isGroup = ys.filter Item.isGroup
  replayed : ∀ t, xs.filter (fun i => i.isReplayed && decide (i.effectiveDate = t))
    = ys.filter fun i => i.isReplayed && decide (i.effectiveDate = t)

/-- Two lists of items that set up the same before anything is replayed. -/
structure SameSetup (xs ys : List Item) : Prop where
  config : foldTelling Config.step .empty xs = foldTelling Config.step .empty ys
  registry : Registry.ofItems xs = Registry.ofItems ys
  groups : Ledger.groupsOf xs = Ledger.groupsOf ys

/-! ### One pass at a time -/

variable {xs ys : List Item}

theorem foldTelling_configStep (c : Config) (xs : List Item) :
    foldTelling Config.step c (xs.filter Item.isSetting) = foldTelling Config.step c xs := by
  refine foldTelling_filter _ (fun c x other => ?_) c xs
  cases x with
  | setting s => cases other
  | _ => rfl

theorem ofItems_filter_isAccountChange (xs : List Item) :
    Registry.ofItems (xs.filter Item.isAccountChange) = Registry.ofItems xs := by
  rw [Registry.ofItems, Registry.ofItems, List.foldlM_filter]
  congr 1
  funext r x
  cases x <;> rfl

theorem groupsOf_filter_isGroup (xs : List Item) :
    Ledger.groupsOf (xs.filter Item.isGroup) = Ledger.groupsOf xs := by
  rw [Ledger.groupsOf, Ledger.groupsOf, List.filterMap_filter]
  congr 1
  funext x
  cases x <;> rfl

/-- Items that are the same in a part of two lists are the same in a part of that part. -/
theorem filter_eq_of_filter_eq {p q : Item → Bool} (passes : ∀ i, p i = true → q i = true)
    (h : xs.filter q = ys.filter q) : xs.filter p = ys.filter p := by
  have picked (zs : List Item) : zs.filter p = (zs.filter q).filter p := by
    rw [List.filter_filter]
    refine List.filter_congr fun i _ => ?_
    cases here : p i with
    | true => simp [passes i here]
    | false => simp
  rw [picked, h, ← picked]

/-- Whatever is replayed may be added, left out or written anew: the rest sets up the same. -/
theorem sameSetup_of_filter (h : (xs.filter fun i => !i.isReplayed) = ys.filter fun i => !i.isReplayed) :
    SameSetup xs ys := by
  have settings : xs.filter Item.isSetting = ys.filter Item.isSetting :=
    filter_eq_of_filter_eq (fun i picked => by cases i <;> first | rfl | cases picked) h
  have accounts : xs.filter Item.isAccountChange = ys.filter Item.isAccountChange :=
    filter_eq_of_filter_eq (fun i picked => by cases i <;> first | rfl | cases picked) h
  have groups : xs.filter Item.isGroup = ys.filter Item.isGroup :=
    filter_eq_of_filter_eq (fun i picked => by cases i <;> first | rfl | cases picked) h
  constructor
  · rw [← foldTelling_configStep, settings, foldTelling_configStep]
  · rw [← ofItems_filter_isAccountChange, accounts, ofItems_filter_isAccountChange]
  · rw [← groupsOf_filter_isGroup, groups, groupsOf_filter_isGroup]

theorem apply_eq_of_not_isReplayed {o : Options} {b : Books} {x : Item} (h : x.isReplayed = false) :
    Books.apply o b x = .ok (b, []) := by
  cases x with
  | rates _ | balance _ | transaction _ => cases h
  | _ => rfl

theorem replay_eq_foldTelling_filter (o : Options) (b : Books) (xs : List Item) :
    replay o b xs = foldTelling (Books.apply o) b ((chronological xs).filter Item.isReplayed) :=
  (foldTelling_filter Item.isReplayed (fun _ _ other => apply_eq_of_not_isReplayed other) b _).symm

/-- Items that agree date by date are replayed in the same order. -/
theorem filter_isReplayed_chronological_eq
    (h : ∀ t, xs.filter (fun i => i.isReplayed && decide (i.effectiveDate = t))
      = ys.filter fun i => i.isReplayed && decide (i.effectiveDate = t)) :
    (chronological xs).filter Item.isReplayed = (chronological ys).filter Item.isReplayed := by
  have byDate (zs : List Item) (t : Timestamp) :
      ((chronological zs).filter Item.isReplayed).filter (fun i => decide (i.effectiveDate = t))
        = zs.filter fun i => i.isReplayed && decide (i.effectiveDate = t) := by
    calc ((chronological zs).filter Item.isReplayed).filter (fun i => decide (i.effectiveDate = t))
        = ((chronological zs).filter fun i => decide (i.effectiveDate = t)).filter Item.isReplayed := by
          simp only [List.filter_filter, Bool.and_comm]
      _ = (zs.filter fun i => decide (i.effectiveDate = t)).filter Item.isReplayed := by
          rw [filter_date_chronological]
      _ = zs.filter fun i => i.isReplayed && decide (i.effectiveDate = t) := List.filter_filter
  refine eq_of_filter_date_eq ((pairwise_chronological xs).filter _)
    ((pairwise_chronological ys).filter _) fun t => ?_
  rw [byDate, byDate, h t]

/-! ### The whole computation -/

/-- **The order within a file matters only where it should**: two lists with the same order within each
kind, and within each date, come to the same ledger with the same notices, or to the same error. -/
theorem compute_eq_of_sameOrder (h : SameOrder xs ys) (o : Options) :
    Ledger.compute o xs = Ledger.compute o ys := by
  have settings : foldTelling Config.step .empty xs = foldTelling Config.step .empty ys := by
    rw [← foldTelling_configStep, h.settings, foldTelling_configStep]
  have accounts : Registry.ofItems xs = Registry.ofItems ys := by
    rw [← ofItems_filter_isAccountChange, h.accounts, ofItems_filter_isAccountChange]
  have groups : Ledger.groupsOf xs = Ledger.groupsOf ys := by
    rw [← groupsOf_filter_isGroup, h.groups, groupsOf_filter_isGroup]
  have played (b : Books) : replay o b xs = replay o b ys := by
    rw [replay_eq_foldTelling_filter, replay_eq_foldTelling_filter,
      filter_isReplayed_chronological_eq h.replayed]
  simp only [Ledger.compute, settings, accounts, groups, played]

/-- What a euro is worth from the first of a month of 2021. -/
def euroRate (month : Nat) (zlotys : Nat) : Item :=
  let day := (Date.ofParts? 2021 month 1).getD .epoch
  let rate := (Decimal.fit? false zlotys 0).getD .zero
  .rates ⟨.midnight day, [⟨⟨.eur, .pln⟩, rate, .one⟩], ⟨⟨"rates", month⟩, []⟩⟩

/-- An account and two rates, in the order in which they count. -/
def inOrder : List Item :=
  [.opening ⟨.epoch, ⟨.asset, "purse"⟩, .zero .eur, .empty, ⟨⟨"book", 1⟩, []⟩⟩, euroRate 1 4, euroRate 2 5]

/-- The same, written backwards. -/
def backwards : List Item :=
  [euroRate 2 5, euroRate 1 4, .opening ⟨.epoch, ⟨.asset, "purse"⟩, .zero .eur, .empty, ⟨⟨"book", 1⟩, []⟩⟩]

theorem compute_backwards :
    SameOrder backwards inOrder ∧
      Ledger.compute { now := .epoch } backwards = Ledger.compute { now := .epoch } inOrder := by
  have same : SameOrder backwards inOrder := by
    refine ⟨rfl, rfl, rfl, fun t => ?_⟩
    have dates : (euroRate 1 4).effectiveDate ≠ (euroRate 2 5).effectiveDate := by decide
    by_cases first : (euroRate 1 4).effectiveDate = t
    · have second : (euroRate 2 5).effectiveDate ≠ t := fun h => dates (first.trans h.symm)
      simp [backwards, inOrder, List.filter_cons, first, second, Item.isReplayed]
    · simp [backwards, inOrder, List.filter_cons, first, Item.isReplayed]
  exact ⟨same, compute_eq_of_sameOrder same _⟩

end Daybook
