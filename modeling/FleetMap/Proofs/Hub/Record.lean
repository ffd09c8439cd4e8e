import FleetMap.Proofs.Hub.Change

set_option autoImplicit false

namespace FleetMap

inductive Dispatch where
  /-- The registry stored a new collection. -/
  | stored (devices : List Device)
  /-- The fan-out with this number handed a collection to a listener. -/
  | handed (fanOut : Nat) (who : Listener) (devices : List Device)
  deriving DecidableEq

abbrev Record := List Dispatch

/-- What a listener is handed at some moment. -/
structure Delivery where
  edition : Nat
  /-- The newest edition at that moment. -/
  newest : Nat
  devices : List Device
  deriving DecidableEq

def Delivery.Belated (d : Delivery) : Prop := d.edition < d.newest

instance (d : Delivery) : Decidable d.Belated := inferInstanceAs (Decidable (_ < _))

def Entry.dispatch? : Entry → Option Dispatch
  | .stored ds => some (.stored ds)
  | .called number who (.notice ds) => some (.handed number who ds)
  | _ => none

def World.record (w : World) : Record := w.journal.filterMap Entry.dispatch?

def Change.IsRecorded : Change → Prop
  | .store _ | .call _ _ (.notice _) => True
  | _ => False

theorem World.record_apply {w : World} {c : Change} (unrecorded : ¬ c.IsRecorded) :
    (c.apply w).record = w.record := by
  have only : c.OfView → w.OnlyViews (c.apply w) := Change.onlyViews_apply w
  cases c with
  | activate | deactivate | tell | ask | cycle | toggle =>
    exact (only trivial).journal (fun _ => rfl) (fun _ _ => rfl) fun _ => rfl
  | call number who signal =>
    cases signal with
    | notice ds => exact absurd trivial unrecorded
    | trigger | scene => rfl
  | store => exact absurd trivial unrecorded
  | _ => rfl

namespace Record

/-- The newest edition; editions are counted from 0, the collection that was there first. -/
def newest : Record → Nat
  | [] => 0
  | .stored _ :: older => newest older + 1
  | .handed _ _ _ :: older => newest older

/-- All editions, the oldest first. -/
def editions (initial : List Device) : Record → List (List Device)
  | [] => [initial]
  | .stored ds :: older => editions initial older ++ [ds]
  | .handed _ _ _ :: older => editions initial older

def hasBegun (number : Nat) : Record → Bool
  | [] => false
  | .stored _ :: older => hasBegun number older
  | .handed m _ _ :: older => m == number || hasBegun number older

/-- The edition that a fan-out hands out: the newest one, up to the moment when it begins. -/
def editionOf (number : Nat) : Record → Nat
  | [] => 0
  | d :: older => if hasBegun number older then editionOf number older else newest (d :: older)

/-- All that a listener was handed, the newest first. -/
def receivedBy (l : Listener) : Record → List Delivery
  | [] => []
  | .stored _ :: older => receivedBy l older
  | .handed number who ds :: older =>
    if who = l then ⟨editionOf number older, newest older, ds⟩ :: receivedBy l older
    else receivedBy l older

variable {number : Nat} {initial : List Device} {l : Listener} {older newer : Record}

theorem exists_handed_of_hasBegun (begun : hasBegun number older = true) :
    ∃ who ds, .handed number who ds ∈ older := by
  induction older with
  | nil => exact nomatch begun
  | cons d older ih =>
    have later : hasBegun number older = true → ∃ who ds, .handed number who ds ∈ d :: older := by
      intro begun
      obtain ⟨who, ds, member⟩ := ih begun
      exact ⟨who, ds, List.mem_cons_of_mem d member⟩
    cases d with
    | stored ds => exact later begun
    | handed m who ds =>
      rcases Bool.or_eq_true_iff.mp begun with same | begun
      · obtain rfl := beq_iff_eq.mp same
        exact ⟨who, ds, List.mem_cons_self⟩
      · exact later begun

theorem editionOf_of_not_hasBegun (fresh : hasBegun number older = false) :
    editionOf number older = newest older := by
  cases older with
  | nil => rfl
  | cons d older =>
    have fresh_older : hasBegun number older = false := by
      cases d with
      | stored ds => exact fresh
      | handed m who ds => exact (Bool.or_eq_false_iff.mp fresh).2
    rw [editionOf, fresh_older]
    rfl

theorem newest_le_cons (d : Dispatch) (older : Record) : newest older ≤ newest (d :: older) := by
  cases d with
  | stored ds => exact Nat.le_succ _
  | handed m who ds => exact Nat.le_refl _

theorem editionOf_le_newest (number : Nat) (r : Record) : editionOf number r ≤ newest r := by
  induction r with
  | nil => exact Nat.le_refl _
  | cons d older ih =>
    rw [editionOf]
    split
    · exact Nat.le_trans ih (newest_le_cons d older)
    · exact Nat.le_refl _

theorem hasBegun_of_suffix (begun : hasBegun number older = true) (suffix : older <:+ newer) :
    hasBegun number newer = true := by
  obtain ⟨added, rfl⟩ := suffix
  induction added with
  | nil => exact begun
  | cons d added ih =>
    cases d with
    | stored ds => exact ih
    | handed m who ds => exact Bool.or_eq_true_iff.mpr (.inr ih)

theorem editionOf_of_suffix (begun : hasBegun number older = true) (suffix : older <:+ newer) :
    editionOf number newer = editionOf number older := by
  obtain ⟨added, rfl⟩ := suffix
  induction added with
  | nil => rfl
  | cons d added ih =>
    have begun_later := hasBegun_of_suffix begun (List.suffix_append added older)
    rw [List.cons_append, editionOf, if_pos begun_later]
    exact ih

/-- Handing out its edition leaves a fan-out with its edition. -/
theorem editionOf_cons_handed (m : Nat) (who : Listener) (ds : List Device) :
    editionOf number (.handed m who ds :: older) = editionOf number older := by
  rw [editionOf]
  split
  · rfl
  · rename_i fresh
    exact (editionOf_of_not_hasBegun (Bool.eq_false_iff.mpr fresh)).symm

theorem editions_of_suffix (suffix : older <:+ newer) :
    editions initial older <+: editions initial newer := by
  obtain ⟨added, rfl⟩ := suffix
  induction added with
  | nil => exact List.prefix_refl _
  | cons d added ih =>
    cases d with
    | stored ds => exact ih.trans (List.prefix_append _ _)
    | handed m who ds => exact ih

theorem getElem?_editions_of_suffix (suffix : older <:+ newer) {k : Nat} {ds : List Device}
    (found : (editions initial older)[k]? = some ds) :
    (editions initial newer)[k]? = some ds := by
  obtain ⟨rest, same⟩ : editions initial older <+: editions initial newer :=
    editions_of_suffix suffix
  obtain ⟨bound, _⟩ := List.getElem?_eq_some_iff.mp found
  rw [← same, List.getElem?_append_left bound, found]

theorem length_editions (initial : List Device) (r : Record) :
    (editions initial r).length = newest r + 1 := by
  induction r with
  | nil => rfl
  | cons d older ih =>
    cases d with
    | stored ds => simp [editions, newest, ih]
    | handed m who ds => exact ih

theorem bounds_of_mem_receivedBy {d : Delivery} {r : Record} (received : d ∈ receivedBy l r) :
    d.edition ≤ d.newest ∧ d.newest ≤ newest r := by
  induction r with
  | nil => exact nomatch received
  | cons e older ih =>
    cases e with
    | stored ds =>
      obtain ⟨edition, seen⟩ := ih received
      exact ⟨edition, Nat.le_succ_of_le seen⟩
    | handed m who ds =>
      rw [receivedBy] at received
      split at received
      · rcases List.mem_cons.mp received with rfl | earlier
        · exact ⟨editionOf_le_newest m older, Nat.le_refl _⟩
        · exact ih earlier
      · exact ih received

/-- Whatever is not belated comes in the order of publication. -/
theorem receivedBy_inOrder (l : Listener) (r : Record) :
    (receivedBy l r).Pairwise fun later earlier =>
      later.Belated ∨ earlier.edition ≤ later.edition := by
  induction r with
  | nil => exact List.Pairwise.nil
  | cons e older ih =>
    cases e with
    | stored ds => exact ih
    | handed m who ds =>
      rw [receivedBy]
      split
      · refine List.Pairwise.cons ?_ ih
        intro earlier received
        obtain ⟨edition, seen⟩ := bounds_of_mem_receivedBy received
        -- what came earlier is of an edition that was stored by then, and this one is the newest
        by_cases belated : editionOf m older < newest older
        · exact .inl belated
        · right
          have begun_late : newest older ≤ editionOf m older := Nat.le_of_not_lt belated
          exact Nat.le_trans edition (Nat.le_trans seen begun_late)
      · exact ih

end Record

end FleetMap
