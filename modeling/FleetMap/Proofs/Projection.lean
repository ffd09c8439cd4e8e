import FleetMap.Proofs.Number.Rounding

set_option autoImplicit false

namespace FleetMap

/-- What can go wrong in a projection besides devices that are left out. -/
inductive ProjectionFault where
  | noColors
  | noPatterns
  | longPattern
  | unrounded (f : RoundFault)
  deriving DecidableEq

/-- The description of a placement, failing where a pixel has no nearest integer. -/
def Placement.describeStrictly (name : String) (p : Placement) : Except ProjectionFault String := do
  let left ← (roundHalfUp p.left).mapError .unrounded
  let top ← (roundHalfUp p.top).mapError .unrounded
  let depth ← (roundHalfUp p.depth).mapError .unrounded
  return p.words name left top depth

def Settings.colorStrictly (s : Settings) (index : Nat) : Except ProjectionFault String :=
  match s.palette[index % s.palette.length]? with
  | some color => .ok color
  | none => .error .noColors

/-- The sprite of a device, or why it is left out; everything else that goes wrong is a fault. -/
def Device.spriteStrictly (s : Settings) (index : Nat) (d : Device) :
    Except ProjectionFault (Except Misfit Sprite) :=
  match d.place s with
  | .error m => .ok (.error m)
  | .ok p => do
    let color ← s.colorStrictly index
    let label ← p.describeStrictly d.name
    return .ok { name := d.name, color := color, size := s.spriteSize, left := p.left,
                 top := p.top, depth := p.depth, yaw := p.yaw, pitch := p.pitch, roll := p.roll,
                 label := label }

namespace Projection

def attemptsStrictlyFrom (s : Settings) (index : Nat) :
    List Device → Except ProjectionFault (List (Except Misfit Sprite))
  | [] => .ok []
  | d :: rest =>
    if d.visible then do
      let attempt ← d.spriteStrictly s index
      let others ← attemptsStrictlyFrom s (index + 1) rest
      return attempt :: others
    else attemptsStrictlyFrom s index rest

end Projection

def Settings.backdropStrictly (s : Settings) (stance : Stance) : Except ProjectionFault Backdrop :=
  if s.patternCount = 0 then .error .noPatterns
  else
    match s.backdrop stance.isometric stance.patternIndex with
    | some backdrop => .ok backdrop
    | none => .error .longPattern

/-- Like `project`, with every fault on the way made explicit. -/
def projectStrictly (s : Settings) (stance : Stance) (ds : List Device) :
    Except ProjectionFault Scene := do
  let attempts ← Projection.attemptsStrictlyFrom s 0 ds
  let backdrop ← s.backdropStrictly stance
  return { backdrop := backdrop
           sprites := Projection.sprites attempts
           skipped := (Projection.misfits attempts).map Misfit.name }

theorem Settings.colorStrictly_eq {s : Settings} (colored : s.palette ≠ []) (index : Nat) :
    s.colorStrictly index = .ok (s.colorAt index) := by
  have bound : index % s.palette.length < s.palette.length :=
    Nat.mod_lt _ (List.length_pos_iff.mpr colored)
  have same_index : ((index : Int) % (s.palette.length : Int)).toNat = index % s.palette.length :=
    by omega
  unfold colorStrictly colorAt
  rw [same_index, List.getD_eq_getElem?_getD, List.getElem?_eq_getElem bound]
  rfl

/-- A device is placed exactly if all it takes is known and finite once scaled. -/
def Device.isPlaceable (s : Settings) (d : Device) : Bool :=
  match d.position, d.orientation with
  | some p, some o =>
    [s.scale * p.x, s.scale * p.y, s.scale * p.z, o.yaw, o.pitch, o.roll].all Float.isFinite
  | _, _ => false

/-- A device is placed where its geometry puts it, or it is a misfit of its own name. -/
theorem Device.place_cases (s : Settings) (d : Device) :
    (d.isPlaceable s = true ∧ ∃ p o, d.position = some p ∧ d.orientation = some o ∧
      d.place s = .ok (.ofGeometry s.scale p o)) ∨
    (d.isPlaceable s = false ∧ ∃ m, d.place s = .error m ∧ m.name = d.name) := by
  unfold place isPlaceable
  cases position : d.position with
  | none => exact .inr ⟨rfl, _, rfl, rfl⟩
  | some p =>
    cases orientation : d.orientation with
    | none => exact .inr ⟨rfl, _, rfl, rfl⟩
    | some o =>
      dsimp only
      split
      · rename_i bounded
        exact .inl ⟨bounded, p, o, rfl, rfl, rfl⟩
      · rename_i unbounded
        exact .inr ⟨Bool.not_eq_true _ ▸ unbounded, .unbounded d.name, rfl, rfl⟩

/-- What a sprite shows of the visible device with an index. -/
structure Sprite.Shows (s : Settings) (index : Nat) (d : Device) (sprite : Sprite) : Prop where
  name : sprite.name = d.name
  color : s.palette[index % s.palette.length]? = some sprite.color
  size : sprite.size = s.spriteSize
  pixels : ∃ p, d.position = some p ∧ sprite.left = s.scale * p.x ∧ sprite.top = s.scale * p.y ∧
    sprite.depth = s.scale * p.z
  angles : ∃ o, d.orientation = some o ∧ sprite.yaw = o.yaw ∧ sprite.pitch = o.pitch ∧
    sprite.roll = o.roll
  finite : ∀ x ∈ [sprite.left, sprite.top, sprite.depth, sprite.yaw, sprite.pitch, sprite.roll],
    x.isFinite = true
  label : d.describe s = .ok sprite.label

/-- Finite pixels have nearest integers, so whatever is placed can be described. -/
theorem Placement.describeStrictly_eq {p : Placement} (name : String)
    (left : p.left.isFinite = true) (top : p.top.isFinite = true)
    (depth : p.depth.isFinite = true) :
    ∃ label, p.describe name = .ok label ∧ p.describeStrictly name = .ok label := by
  obtain ⟨x, rounded_left⟩ := roundHalfUp_of_isFinite left
  obtain ⟨y, rounded_top⟩ := roundHalfUp_of_isFinite top
  obtain ⟨z, rounded_depth⟩ := roundHalfUp_of_isFinite depth
  refine ⟨p.words name x y z, ?_, ?_⟩
  · unfold describe
    rw [rounded_left, rounded_top, rounded_depth]
  · unfold describeStrictly
    rw [rounded_left, rounded_top, rounded_depth]
    rfl

/-- A visible device becomes the sprite that shows it, or a misfit of its own name, and nothing
else goes wrong. -/
theorem Device.sprite_cases {s : Settings} (colored : s.palette ≠ []) (index : Nat) (d : Device) :
    d.spriteStrictly s index = .ok (d.sprite s index) ∧
      ((d.isPlaceable s = true ∧ ∃ sprite, d.sprite s index = .ok sprite ∧ sprite.Shows s index d) ∨
        (d.isPlaceable s = false ∧ ∃ m, d.sprite s index = .error m ∧ m.name = d.name)) := by
  have bound : index % s.palette.length < s.palette.length :=
    Nat.mod_lt _ (List.length_pos_iff.mpr colored)
  rcases d.place_cases s with
    ⟨placeable, p, o, position, orientation, placed⟩ | ⟨unplaceable, m, unplaced, named⟩
  · have finite := placeable
    unfold isPlaceable at finite
    rw [position, orientation] at finite
    simp only [List.all_cons, List.all_nil, Bool.and_eq_true] at finite
    obtain ⟨left, top, depth, yaw, pitch, roll, _⟩ := finite
    obtain ⟨label, described, strictly⟩ :=
      Placement.describeStrictly_eq (p := .ofGeometry s.scale p o) d.name left top depth
    let shown : Sprite :=
      { name := d.name, color := s.colorAt index, size := s.spriteSize, left := s.scale * p.x,
        top := s.scale * p.y, depth := s.scale * p.z, yaw := o.yaw, pitch := o.pitch,
        roll := o.roll, label := label }
    have drawn : d.sprite s index = .ok shown := by
      unfold sprite
      simp only [placed, described, bind, Except.bind]
      rfl
    refine ⟨?_, .inl ⟨placeable, shown, drawn, ?_⟩⟩
    · rw [drawn]
      unfold spriteStrictly
      simp only [placed, strictly, Settings.colorStrictly_eq colored, bind, Except.bind]
      rfl
    · constructor
      · rfl
      · have taken := Settings.colorStrictly_eq colored index
        unfold Settings.colorStrictly at taken
        rw [List.getElem?_eq_getElem bound] at taken ⊢
        exact congrArg some (Except.ok.inj taken)
      · rfl
      · exact ⟨p, position, rfl, rfl, rfl⟩
      · exact ⟨o, orientation, rfl, rfl, rfl⟩
      · simp only [List.forall_mem_cons]
        exact ⟨left, top, depth, yaw, pitch, roll, nofun⟩
      · unfold describe
        simp only [placed, bind, Except.bind]
        exact described
  · refine ⟨?_, .inr ⟨unplaceable, m, ?_, named⟩⟩
    · unfold spriteStrictly sprite
      rw [unplaced]
      rfl
    · unfold sprite
      rw [unplaced]
      rfl

namespace Projection

variable {s : Settings}

/-- Hidden devices are passed over, and colors are counted over the visible ones. -/
theorem attemptsFrom_eq_map (index : Nat) (ds : List Device) :
    attemptsFrom s index ds =
      ((ds.filter (·.visible)).zipIdx index).map fun v => v.1.sprite s v.2 := by
  induction ds generalizing index with
  | nil => rfl
  | cons d rest ih =>
    unfold attemptsFrom
    split
    · rename_i visible
      rw [List.filter_cons_of_pos visible, List.zipIdx_cons, List.map_cons, ih]
    · rename_i hidden
      rw [List.filter_cons_of_neg hidden, ih]

theorem attempts_visible (ds : List Device) :
    attempts s (ds.filter (·.visible)) = attempts s ds := by
  unfold attempts
  rw [attemptsFrom_eq_map, attemptsFrom_eq_map, List.filter_filter]
  simp only [Bool.and_self]

theorem length_attempts (ds : List Device) :
    (attempts s ds).length = (ds.filter (·.visible)).length := by
  unfold attempts
  rw [attemptsFrom_eq_map, List.length_map, List.length_zipIdx]

theorem attemptsStrictlyFrom_eq (colored : s.palette ≠ []) (index : Nat) (ds : List Device) :
    attemptsStrictlyFrom s index ds = .ok (attemptsFrom s index ds) := by
  induction ds generalizing index with
  | nil => rfl
  | cons d rest ih =>
    unfold attemptsStrictlyFrom attemptsFrom
    rw [(Device.sprite_cases colored index d).1, ih, ih]
    split
    · rfl
    · rfl

theorem sprites_append (first second : List (Except Misfit Sprite)) :
    sprites (first ++ second) = sprites first ++ sprites second := by
  induction first with
  | nil => rfl
  | cons attempt rest ih =>
    cases attempt with
    | ok sprite => exact congrArg (sprite :: ·) ih
    | error m => exact ih

theorem misfits_append (first second : List (Except Misfit Sprite)) :
    misfits (first ++ second) = misfits first ++ misfits second := by
  induction first with
  | nil => rfl
  | cons attempt rest ih =>
    cases attempt with
    | ok sprite => exact ih
    | error m => exact congrArg (m :: ·) ih

theorem length_sprites_add_length_misfits (attempts : List (Except Misfit Sprite)) :
    (sprites attempts).length + (misfits attempts).length = attempts.length := by
  induction attempts with
  | nil => rfl
  | cons attempt rest ih =>
    cases attempt with
    | ok sprite =>
      simp only [sprites, misfits, List.length_cons]
      omega
    | error m =>
      simp only [sprites, misfits, List.length_cons]
      omega

/-- The placeable ones of numbered devices are shown, in their order. -/
theorem sprites_show (colored : s.palette ≠ []) (numbered : List (Device × Nat)) :
    List.Forall₂ (fun v sprite => sprite.Shows s v.2 v.1)
      (numbered.filter fun v => v.1.isPlaceable s)
      (sprites (numbered.map fun v => v.1.sprite s v.2)) := by
  induction numbered with
  | nil => exact .nil
  | cons v rest ih =>
    rcases (Device.sprite_cases colored v.2 v.1).2 with
      ⟨placeable, sprite, drawn, shows⟩ | ⟨unplaceable, m, skipped, _⟩
    · rw [List.filter_cons_of_pos (by simpa using placeable), List.map_cons, drawn]
      exact .cons shows ih
    · rw [List.filter_cons_of_neg (by simpa using unplaceable), List.map_cons, skipped]
      exact ih

theorem names_of_misfits (colored : s.palette ≠ []) (numbered : List (Device × Nat)) :
    (misfits (numbered.map fun v => v.1.sprite s v.2)).map Misfit.name =
      (numbered.filter fun v => !v.1.isPlaceable s).map (·.1.name) := by
  induction numbered with
  | nil => rfl
  | cons v rest ih =>
    rcases (Device.sprite_cases colored v.2 v.1).2 with
      ⟨placeable, sprite, drawn, _⟩ | ⟨unplaceable, m, skipped, named⟩
    · rw [List.filter_cons_of_neg (by simpa using placeable), List.map_cons, drawn]
      exact ih
    · rw [List.filter_cons_of_pos (by simpa using unplaceable), List.map_cons, List.map_cons,
        skipped, ← named, ← ih]
      rfl

/-- A visible device among others: what comes before and after it does not depend on it. -/
theorem attemptsFrom_append_cons (index : Nat) (earlier later : List Device) {d : Device}
    (visible : d.visible = true) :
    attemptsFrom s index (earlier ++ d :: later) =
      attemptsFrom s index earlier ++
        d.sprite s (index + (earlier.filter (·.visible)).length : Nat) ::
          attemptsFrom s (index + (earlier.filter (·.visible)).length + 1) later := by
  simp only [attemptsFrom_eq_map, List.filter_append, List.filter_cons_of_pos visible,
    List.zipIdx_append, List.zipIdx_cons, List.map_append, List.map_cons]

end Projection

/-- A scene shows what its settings make of the devices, whatever the stance. -/
theorem project_eq_some {s : Settings} {stance : Stance} {ds : List Device} {scene : Scene}
    (drawn : project s stance ds = some scene) :
    s.backdrop stance.isometric stance.patternIndex = some scene.backdrop ∧
      scene.sprites = projectSprites s ds ∧
      scene.skipped = (projectMisfits s ds).map Misfit.name := by
  obtain ⟨backdrop, painted, rfl⟩ := Option.map_eq_some_iff.mp drawn
  exact ⟨painted, rfl, rfl⟩

theorem writeInt?_of_lt {n : Nat} (short : n < 10 ^ digitLimit) :
    writeInt? n = some (decimalOfInt n) :=
  if_pos ((Nat.length_toDigits_le_iff (by decide) (by decide)).mpr short)

theorem writeInt?_eq_none {n : Nat} : writeInt? n = none ↔ 10 ^ digitLimit ≤ n := by
  have short := Nat.length_toDigits_le_iff (n := n) (b := 10) (k := digitLimit) (by decide)
    (by decide)
  unfold writeInt?
  rw [ite_eq_right_iff, Int.natAbs_natCast, short, ← Nat.not_lt]
  simp

theorem Settings.backdrop_natCast (s : Settings) (isometric : Bool) (index : Nat) :
    s.backdrop isometric index =
      (writeInt? (index % s.patternCount : Nat)).map fun number =>
        { transform := if isometric then isometricTransform else flatTransform
          top := if isometric then s.isometricTop else 0
          pattern := "pattern" ++ number } := by
  unfold backdrop
  rw [Int.natCast_emod]

theorem Settings.backdrop_of_lt {s : Settings} {index : Nat} (isometric : Bool)
    (short : index % s.patternCount < 10 ^ digitLimit) :
    s.backdrop isometric index =
      some { transform := if isometric then isometricTransform else flatTransform
             top := if isometric then s.isometricTop else 0
             pattern := "pattern" ++ decimalOfInt (index % s.patternCount : Nat) } := by
  rw [backdrop_natCast, writeInt?_of_lt short]
  rfl

theorem Settings.pattern_of_backdrop {s : Settings} {isometric : Bool} {index : Nat} {b : Backdrop}
    (painted : s.backdrop isometric index = some b) :
    b.pattern = "pattern" ++ decimalOfInt (index % s.patternCount : Nat) := by
  rcases Nat.lt_or_ge (index % s.patternCount) (10 ^ digitLimit) with short | long
  · rw [backdrop_of_lt isometric short] at painted
    obtain rfl := Option.some.inj painted
    rfl
  · rw [backdrop_natCast, writeInt?_eq_none.mpr long] at painted
    exact nomatch painted

/-- There is a scene unless the number of the pattern is too long to be written. -/
theorem project_eq_none {s : Settings} {stance : Stance} {ds : List Device} :
    project s stance ds = none ↔ 10 ^ digitLimit ≤ stance.patternIndex % s.patternCount := by
  rw [project, Option.map_eq_none_iff, Settings.backdrop_natCast, Option.map_eq_none_iff,
    writeInt?_eq_none]

def initialScene (s : Settings) (ds : List Device) : Scene where
  backdrop := ⟨Settings.flatTransform, 0, "pattern0"⟩
  sprites := projectSprites s ds
  skipped := (projectMisfits s ds).map Misfit.name

theorem project_initial (s : Settings) (ds : List Device) :
    project s .initial ds = some (initialScene s ds) := by
  have first : 0 % s.patternCount = 0 := Nat.zero_mod _
  have painted : s.backdrop false (0 : Nat) = some ⟨Settings.flatTransform, 0, "pattern0"⟩ := by
    rw [Settings.backdrop_natCast, first]
    rfl
  exact congrArg (Option.map _) painted

/-- With valid settings, what can go wrong is that the pattern has too long a number. -/
theorem projectStrictly_eq {s : Settings} (valid : s.Valid) (stance : Stance) (ds : List Device) :
    projectStrictly s stance ds =
      match project s stance ds with
      | some scene => .ok scene
      | none => .error .longPattern := by
  have patterns : s.patternCount ≠ 0 := Nat.pos_iff_ne_zero.mp valid.patternCount_pos
  unfold projectStrictly project Settings.backdropStrictly
  rw [Projection.attemptsStrictlyFrom_eq valid.palette_nonempty]
  simp only [bind, Except.bind, if_neg patterns]
  cases s.backdrop stance.isometric stance.patternIndex with
  | none => rfl
  | some backdrop => rfl

def Device.drawn (s : Settings) (index : Nat) (d : Device) : List Sprite :=
  Projection.sprites [d.sprite s index]

theorem projectSprites_append_cons {s : Settings} (colored : s.palette ≠ [])
    (earlier later : List Device) :
    ∃ before after skipped_before skipped_after, ∀ d : Device, d.visible = true →
      projectSprites s (earlier ++ d :: later) =
          before ++ d.drawn s (earlier.filter (·.visible)).length ++ after ∧
        (projectMisfits s (earlier ++ d :: later)).map Misfit.name =
          skipped_before ++ (if d.isPlaceable s then [] else [d.name]) ++ skipped_after := by
  let index := (earlier.filter (·.visible)).length
  let first := Projection.attemptsFrom s 0 earlier
  let last := Projection.attemptsFrom s (index + 1) later
  refine ⟨Projection.sprites first, Projection.sprites last,
    (Projection.misfits first).map Misfit.name, (Projection.misfits last).map Misfit.name, ?_⟩
  intro d visible
  have attempted : Projection.attempts s (earlier ++ d :: later) =
      first ++ ([d.sprite s index] ++ last) := by
    unfold Projection.attempts
    rw [Projection.attemptsFrom_append_cons 0 earlier later visible, Nat.zero_add]
    rfl
  refine ⟨?_, ?_⟩
  · rw [projectSprites, attempted, Projection.sprites_append, Projection.sprites_append,
      List.append_assoc]
    rfl
  · have own : (Projection.misfits [d.sprite s index]).map Misfit.name =
        if d.isPlaceable s then [] else [d.name] := by
      rcases (Device.sprite_cases colored index d).2 with
        ⟨placeable, sprite, drawn, _⟩ | ⟨unplaceable, m, skipped, named⟩
      · rw [drawn, if_pos placeable]
        rfl
      · rw [skipped, unplaceable, ← named]
        rfl
    rw [projectMisfits, attempted, Projection.misfits_append, Projection.misfits_append,
      List.map_append, List.map_append, own, List.append_assoc]

/-- With valid settings a projection returns and accounts for every device, unless the number of
the pattern has more than `digitLimit` digits. The visible devices are numbered in their order.
Those with known and finite geometry are drawn, each with the color of its number, and the others
are skipped by name. Hidden devices leave no trace, and whatever becomes of the geometry of one
visible device, all other sprites and skipped names stay as they are. -/
theorem project_accounts_for_every_device {s : Settings} (valid : s.Valid) (stance : Stance)
    (ds : List Device) :
    let numbered := (ds.filter (·.visible)).zipIdx
    (10 ^ digitLimit ≤ stance.patternIndex % s.patternCount →
      projectStrictly s stance ds = .error .longPattern ∧ project s stance ds = none) ∧
    (stance.patternIndex % s.patternCount < 10 ^ digitLimit →
      ∃ scene, projectStrictly s stance ds = .ok scene ∧ project s stance ds = some scene ∧
        List.Forall₂ (fun v sprite => sprite.Shows s v.2 v.1)
          (numbered.filter fun v => v.1.isPlaceable s) scene.sprites ∧
        scene.skipped = (numbered.filter fun v => !v.1.isPlaceable s).map (·.1.name) ∧
        scene.sprites.length + scene.skipped.length = (ds.filter (·.visible)).length ∧
        project s stance (ds.filter (·.visible)) = some scene ∧
        ∀ earlier d later, ds = earlier ++ d :: later → d.visible = true →
          ∃ before after skipped_before skipped_after, ∀ position orientation,
            let moved : Device := { d with position := position, orientation := orientation }
            ∃ changed, project s stance (earlier ++ moved :: later) = some changed ∧
              changed.backdrop = scene.backdrop ∧
              changed.sprites =
                before ++ moved.drawn s (earlier.filter (·.visible)).length ++ after ∧
              changed.skipped = skipped_before ++ (if moved.isPlaceable s then [] else [d.name]) ++
                skipped_after) := by
  have colored := valid.palette_nonempty
  refine ⟨?_, ?_⟩
  · intro long
    have undrawn : project s stance ds = none := project_eq_none.mpr long
    rw [projectStrictly_eq valid, undrawn]
    exact ⟨rfl, rfl⟩
  · intro short
    have painted := Settings.backdrop_of_lt stance.isometric short
    have drawn : ∀ es, project s stance es = some ⟨_, projectSprites s es,
        (projectMisfits s es).map Misfit.name⟩ := fun es => congrArg (Option.map _) painted
    refine ⟨_, ?_, drawn ds, ?_, ?_, ?_, ?_, ?_⟩
    · rw [projectStrictly_eq valid, drawn ds]
    · have shown := Projection.sprites_show colored (ds.filter (·.visible)).zipIdx
      rw [← Projection.attemptsFrom_eq_map 0 ds] at shown
      exact shown
    · have named := Projection.names_of_misfits colored (ds.filter (·.visible)).zipIdx
      rw [← Projection.attemptsFrom_eq_map 0 ds] at named
      exact named
    · rw [← Projection.length_attempts (s := s) ds, List.length_map]
      exact Projection.length_sprites_add_length_misfits (Projection.attempts s ds)
    · rw [drawn, projectSprites, projectMisfits, Projection.attempts_visible]
      rfl
    · intro earlier d later split visible
      obtain ⟨before, after, skipped_before, skipped_after, account⟩ :=
        projectSprites_append_cons colored earlier later
      refine ⟨before, after, skipped_before, skipped_after, ?_⟩
      intro position orientation
      obtain ⟨sprites, skipped⟩ :=
        account { d with position := position, orientation := orientation } visible
      exact ⟨_, drawn _, rfl, sprites, skipped⟩

/-- A drawn device, a hidden one, one without orientation and one that is nowhere. -/
def mixedFleet : List Device :=
  [⟨"van", true, some ⟨1, 2, 3⟩, some ⟨90, 0, 0⟩, none⟩,
    ⟨"ghost", false, none, none, none⟩,
    ⟨"buoy", true, some ⟨1, 1, 0⟩, none, none⟩,
    ⟨"probe", true, some ⟨0.0 / 0.0, 0, 0⟩, some ⟨0, 0, 0⟩, none⟩,
    ⟨"van", true, some ⟨-1, 0, 0⟩, some ⟨12.5, 0, 0⟩, none⟩]

theorem mixedFleet_is_accounted_for :
    Settings.standard.Valid ∧
      ∃ scene, projectStrictly .standard .initial mixedFleet = .ok scene ∧
        scene.skipped = ["buoy", "probe"] ∧
        scene.sprites.map (·.color) = ["red", "green"] := by
  have account := project_accounts_for_every_device Settings.standard_valid .initial mixedFleet
  have short : Stance.initial.patternIndex % Settings.standard.patternCount < 10 ^ digitLimit :=
    Nat.pow_pos (by decide)
  obtain ⟨scene, strictly, drawn, _, skipped, _⟩ := account.2 short
  refine ⟨Settings.standard_valid, scene, strictly, skipped.trans (by decide), ?_⟩
  rw [(project_eq_some drawn).2.1]
  decide

/-- Settings with more patterns than there are numbers that can be written. -/
def boundlessSettings : Settings := { Settings.standard with patternCount := 10 ^ (digitLimit + 1) }

def remoteStance : Stance := ⟨10 ^ digitLimit, false⟩

/-- Not every projection with valid settings returns. -/
theorem remoteStance_is_not_projected :
    boundlessSettings.Valid ∧
      projectStrictly boundlessSettings remoteStance [] = .error .longPattern ∧
      project boundlessSettings remoteStance [] = none := by
  have standard := Settings.standard_valid
  have valid : boundlessSettings.Valid :=
    ⟨standard.scale_positive, standard.palette_nonempty, standard.palette_not_blank,
      Nat.pow_pos (by decide), standard.interval_positive⟩
  have index : remoteStance.patternIndex = 10 ^ digitLimit := rfl
  have less : 10 ^ digitLimit < boundlessSettings.patternCount :=
    Nat.pow_lt_pow_right (by decide) (Nat.lt_succ_self digitLimit)
  have long : 10 ^ digitLimit ≤ remoteStance.patternIndex % boundlessSettings.patternCount := by
    rw [index, Nat.mod_eq_of_lt less]
  have undrawn : project boundlessSettings remoteStance [] = none := project_eq_none.mpr long
  rw [projectStrictly_eq valid, undrawn]
  exact ⟨valid, rfl, rfl⟩

end FleetMap
