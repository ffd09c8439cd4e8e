import FleetMap.Projection
import FleetMap.Proofs.Number.Double

set_option autoImplicit false

namespace FleetMap

theorem sameList_iff {α : Type} {same : α → α → Bool} {k l : List α} :
    sameList same k l = true ↔ List.Forall₂ (fun a b => same a b = true) k l := by
  induction k generalizing l with
  | nil =>
    cases l with
    | nil => simp [sameList]
    | cons b rest' => simp [sameList]
  | cons a rest ih =>
    cases l with
    | nil => simp [sameList]
    | cons b rest' => simp only [sameList, Bool.and_eq_true, List.forall₂_cons, ih]

theorem sameList_self {α : Type} {same : α → α → Bool} (self : ∀ a, same a a = true)
    (l : List α) : sameList same l l = true :=
  sameList_iff.mpr (List.forall₂_same.mpr fun a _ => self a)

/-- What is read off entries that are the same is read off the lists alike. -/
theorem map_eq_of_sameList {α β : Type} {same : α → α → Bool} {f : α → β}
    (alike : ∀ {a b}, same a b = true → f a = f b) {k l : List α}
    (same_lists : sameList same k l = true) : k.map f = l.map f := by
  rw [sameList_iff] at same_lists
  induction same_lists with
  | nil => rfl
  | cons same_entry _ ih => rw [List.map_cons, List.map_cons, alike same_entry, ih]

theorem sameOption_self {α : Type} {same : α → α → Bool} (self : ∀ a, same a a = true)
    (o : Option α) : sameOption same o o = true := by
  cases o with
  | none => rfl
  | some a => exact self a

theorem Position.same_self (p : Position) : p.same p = true := by
  simp only [Position.same, sameFloat_self, Bool.and_self]

theorem Orientation.same_self (o : Orientation) : o.same o = true := by
  simp only [Orientation.same, sameFloat_self, Bool.and_self]

theorem Device.same_self (d : Device) : d.same d = true := by
  simp only [Device.same, beq_self_eq_true, sameOption_self Position.same_self,
    sameOption_self Orientation.same_self, Bool.and_self]

theorem sameOption_cases {α : Type} {same : α → α → Bool} {a b : Option α}
    (alike : sameOption same a b = true) :
    (a = none ∧ b = none) ∨ ∃ x y, a = some x ∧ b = some y ∧ same x y = true := by
  cases a with
  | none =>
    cases b with
    | none => exact .inl ⟨rfl, rfl⟩
    | some y => exact nomatch alike
  | some x =>
    cases b with
    | none => exact nomatch alike
    | some y => exact .inr ⟨x, y, rfl, rfl, alike⟩

theorem sameList_of_third {α : Type} {same : α → α → Bool}
    (of_third : ∀ {a b c}, same a c = true → same b c = true → same a b = true) {k l m : List α}
    (first : sameList same k m = true) (second : sameList same l m = true) :
    sameList same k l = true := by
  rw [sameList_iff] at first second ⊢
  induction first generalizing l with
  | nil =>
    obtain rfl := List.forall₂_nil_right_iff.mp second
    exact .nil
  | cons same_entry _ ih =>
    obtain ⟨b, rest, same_entry', others, rfl⟩ := List.forall₂_cons_right_iff.mp second
    exact .cons (of_third same_entry same_entry') (ih others)

theorem sameOption_of_third {α : Type} {same : α → α → Bool}
    (of_third : ∀ {a b c}, same a c = true → same b c = true → same a b = true)
    {a b c : Option α} (first : sameOption same a c = true) (second : sameOption same b c = true) :
    sameOption same a b = true := by
  rcases sameOption_cases first with ⟨rfl, rfl⟩ | ⟨x, z, rfl, rfl, same_x⟩
  · rcases sameOption_cases second with ⟨rfl, _⟩ | ⟨_, _, _, absent, _⟩
    · rfl
    · exact nomatch absent
  · rcases sameOption_cases second with ⟨_, absent⟩ | ⟨y, _, rfl, present, same_y⟩
    · exact nomatch absent
    · obtain rfl := Option.some.inj present
      exact of_third same_x same_y

theorem Position.same_of_third {p q r : Position} (first : p.same r = true)
    (second : q.same r = true) : p.same q = true := by
  simp only [Position.same, Bool.and_eq_true] at first second ⊢
  exact ⟨⟨sameFloat_of_third first.1.1 second.1.1, sameFloat_of_third first.1.2 second.1.2⟩,
    sameFloat_of_third first.2 second.2⟩

theorem Orientation.same_of_third {o p q : Orientation} (first : o.same q = true)
    (second : p.same q = true) : o.same p = true := by
  simp only [Orientation.same, Bool.and_eq_true] at first second ⊢
  exact ⟨⟨sameFloat_of_third first.1.1 second.1.1, sameFloat_of_third first.1.2 second.1.2⟩,
    sameFloat_of_third first.2 second.2⟩

theorem Device.same_of_third {d e f : Device} (first : d.same f = true)
    (second : e.same f = true) : d.same e = true := by
  simp only [Device.same, Bool.and_eq_true, beq_iff_eq] at first second ⊢
  obtain ⟨⟨⟨⟨name, visible⟩, position⟩, orientation⟩, kind⟩ := first
  obtain ⟨⟨⟨⟨name', visible'⟩, position'⟩, orientation'⟩, kind'⟩ := second
  have positions : sameOption Position.same d.position e.position = true := by
    apply sameOption_of_third _ position position'
    exact Position.same_of_third
  have orientations : sameOption Orientation.same d.orientation e.orientation = true := by
    apply sameOption_of_third _ orientation orientation'
    exact Orientation.same_of_third
  exact ⟨⟨⟨⟨name.trans name'.symm, visible.trans visible'.symm⟩, positions⟩, orientations⟩,
    kind.trans kind'.symm⟩

theorem Device.name_of_same {d e : Device} (same : d.same e = true) : d.name = e.name := by
  simp only [Device.same, Bool.and_eq_true, beq_iff_eq] at same
  exact same.1.1.1.1

theorem Device.visible_of_same {d e : Device} (same : d.same e = true) :
    d.visible = e.visible := by
  simp only [Device.same, Bool.and_eq_true, beq_iff_eq] at same
  exact same.1.1.1.2

theorem Sprite.texts_of_same {a b : Sprite} (same : a.same b = true) :
    a.name = b.name ∧ a.color = b.color ∧ a.label = b.label := by
  simp only [Sprite.same, Bool.and_eq_true, beq_iff_eq] at same
  obtain ⟨⟨⟨⟨⟨⟨⟨⟨⟨name, color⟩, _⟩, _⟩, _⟩, _⟩, _⟩, _⟩, _⟩, label⟩ := same
  exact ⟨name, color, label⟩

/-- Placements of the same numbers. -/
structure Placement.Same (p q : Placement) : Prop where
  left : sameFloat p.left q.left = true
  top : sameFloat p.top q.top = true
  depth : sameFloat p.depth q.depth = true
  yaw : sameFloat p.yaw q.yaw = true
  pitch : sameFloat p.pitch q.pitch = true
  roll : sameFloat p.roll q.roll = true

namespace Placement.Same

variable {p q : Placement}

theorem numbers_finite (same : p.Same q) :
    p.numbers.all Float.isFinite = q.numbers.all Float.isFinite := by
  have finite : ∀ {x y : Float}, sameFloat x y = true → x.isFinite = y.isFinite :=
    fun same => eq_of_sameFloat _ rfl same
  simp only [numbers, List.all_cons, List.all_nil, finite same.left, finite same.top,
    finite same.depth, finite same.yaw, finite same.pitch, finite same.roll]

/-- Both zeros have the same nearest integer and are spoken alike. -/
theorem describe_eq (same : p.Same q) (name : String) : p.describe name = q.describe name := by
  have rounded : ∀ {x y : Float}, sameFloat x y = true → roundHalfUp x = roundHalfUp y :=
    fun same => eq_of_sameFloat _ rfl same
  have spoken : ∀ {x y : Float}, sameFloat x y = true → angleText x = angleText y :=
    fun same => eq_of_sameFloat _ (by decide +kernel) same
  simp only [describe, words, rounded same.left, rounded same.top, rounded same.depth,
    spoken same.yaw, spoken same.pitch, spoken same.roll]

theorem ofGeometry (scale : Float) {p q : Position} (positions : p.same q = true)
    {o r : Orientation} (orientations : o.same r = true) :
    (Placement.ofGeometry scale p o).Same (Placement.ofGeometry scale q r) := by
  simp only [Position.same, Bool.and_eq_true] at positions
  simp only [Orientation.same, Bool.and_eq_true] at orientations
  obtain ⟨⟨x, y⟩, z⟩ := positions
  obtain ⟨⟨yaw, pitch⟩, roll⟩ := orientations
  exact ⟨sameFloat_mul scale x, sameFloat_mul scale y, sameFloat_mul scale z, yaw, pitch, roll⟩

end Placement.Same

/-- Attempts that came to the same: the same sprite, or misfits of the same name. -/
def sameAttempt : Except Misfit Sprite → Except Misfit Sprite → Bool
  | .ok a, .ok b => a.same b
  | .error m, .error n => m.name == n.name
  | _, _ => false

theorem Device.same_place {s : Settings} {d e : Device} (same : d.same e = true) :
    (∃ p q, d.place s = .ok p ∧ e.place s = .ok q ∧ p.Same q) ∨
      ∃ m n, d.place s = .error m ∧ e.place s = .error n := by
  simp only [Device.same, Bool.and_eq_true, beq_iff_eq] at same
  obtain ⟨⟨⟨⟨_, _⟩, positions⟩, orientations⟩, _⟩ := same
  unfold place
  rcases sameOption_cases positions with ⟨unknown, unknown'⟩ | ⟨p, q, known, known', positions⟩
  · rw [unknown, unknown']
    exact .inr ⟨_, _, rfl, rfl⟩
  · rw [known, known']
    rcases sameOption_cases orientations with
      ⟨unknown, unknown'⟩ | ⟨o, r, known, known', orientations⟩
    · rw [unknown, unknown']
      exact .inr ⟨_, _, rfl, rfl⟩
    · rw [known, known']
      have placed := Placement.Same.ofGeometry s.scale positions orientations
      dsimp only
      rw [placed.numbers_finite]
      split
      · exact .inl ⟨_, _, rfl, rfl, placed⟩
      · exact .inr ⟨_, _, rfl, rfl⟩

/-- A device that cannot be placed is a misfit of its own name. -/
theorem Device.name_of_unplaced {s : Settings} {d : Device} {m : Misfit}
    (unplaced : d.place s = .error m) : m.name = d.name := by
  unfold place at unplaced
  dsimp only at unplaced
  split at unplaced
  · split at unplaced
    · exact nomatch unplaced
    · rw [← Except.error.inj unplaced]
      rfl
  · rw [← Except.error.inj unplaced]
    rfl

/-- The same device is drawn as the same sprite, or it is a misfit of the same name. -/
theorem Device.same_sprite {s : Settings} {d e : Device} (same : d.same e = true) (index : Int) :
    sameAttempt (d.sprite s index) (e.sprite s index) = true := by
  have same_name := name_of_same same
  unfold sprite
  rcases Device.same_place (s := s) same with
    ⟨p, q, placed, placed', same_place⟩ | ⟨m, n, unplaced, unplaced'⟩
  · rw [placed, placed', same_name]
    simp only [bind, Except.bind]
    rw [same_place.describe_eq]
    cases q.describe e.name with
    | error m => simp only [sameAttempt, beq_self_eq_true]
    | ok label =>
      simp only [pure, Except.pure, sameAttempt, Sprite.same, beq_self_eq_true, Bool.and_true,
        same_place.left, same_place.top, same_place.depth, same_place.yaw,
        same_place.pitch, same_place.roll]
  · have named : m.name = n.name := by
      rw [name_of_unplaced unplaced, name_of_unplaced unplaced', same_name]
    rw [unplaced, unplaced']
    simp only [bind, Except.bind, sameAttempt, named, beq_self_eq_true]

namespace Projection

/-- Of the same devices, the same become of the visible ones. -/
theorem same_attempts (s : Settings) {ds es : List Device}
    (same : sameList Device.same ds es = true) (index : Nat) :
    sameList sameAttempt (attemptsFrom s index ds) (attemptsFrom s index es) = true := by
  rw [sameList_iff] at same
  induction same generalizing index with
  | nil => rfl
  | cons same_device _ ih =>
    unfold attemptsFrom
    rw [Device.visible_of_same same_device]
    split
    · simp only [sameList, Bool.and_eq_true]
      exact ⟨Device.same_sprite same_device index, ih (index + 1)⟩
    · exact ih index

theorem same_sprites_of_attempts {a b : List (Except Misfit Sprite)}
    (same : sameList sameAttempt a b = true) :
    sameList Sprite.same (sprites a) (sprites b) = true ∧
      (misfits a).map Misfit.name = (misfits b).map Misfit.name := by
  rw [sameList_iff] at same
  induction same with
  | nil => exact ⟨rfl, rfl⟩
  | @cons x y rest rest' first _ ih =>
    obtain ⟨same_sprites, same_names⟩ := ih
    cases x with
    | ok sprite =>
      cases y with
      | ok sprite' =>
        refine ⟨?_, same_names⟩
        simp only [sprites, sameList, Bool.and_eq_true]
        exact ⟨first, same_sprites⟩
      | error n => exact nomatch first
    | error m =>
      cases y with
      | ok sprite' => exact nomatch first
      | error n =>
        refine ⟨same_sprites, ?_⟩
        have named : m.name = n.name := by simpa [sameAttempt] using first
        simp only [misfits, List.map_cons, named, same_names]

theorem same_sprites (s : Settings) {ds es : List Device}
    (same : sameList Device.same ds es = true) (index : Nat) :
    sameList Sprite.same (sprites (attemptsFrom s index ds)) (sprites (attemptsFrom s index es)) =
      true :=
  (same_sprites_of_attempts (same_attempts s same index)).1

theorem same_skipped (s : Settings) {ds es : List Device}
    (same : sameList Device.same ds es = true) (index : Nat) :
    (misfits (attemptsFrom s index ds)).map Misfit.name =
      (misfits (attemptsFrom s index es)).map Misfit.name :=
  (same_sprites_of_attempts (same_attempts s same index)).2

end Projection

end FleetMap
