import FleetMap.Proofs.Projection
import FleetMap.Table

set_option autoImplicit false

namespace FleetMap

/-- The color in which a visible device with an index is drawn, if it is. -/
def Device.color? (s : Settings) (index : Nat) (d : Device) : Option String :=
  match d.place s with
  | .ok _ => some (s.colorAt index)
  | .error _ => none

/-- A visible device is given the color of its sprite, or it is a misfit and is given none. -/
theorem Device.color?_cases {s : Settings} (colored : s.palette ≠ []) (index : Nat) (d : Device) :
    (∃ sprite, d.sprite s index = .ok sprite ∧ sprite.Shows s index d ∧
        d.color? s index = some sprite.color) ∨
      ∃ m, d.sprite s index = .error m ∧ m.name = d.name ∧ d.color? s index = none := by
  have placed := d.place_cases s
  rcases (d.sprite_cases colored index).2 with
    ⟨placeable, sprite, drawn, shows⟩ | ⟨unplaceable, m, skipped, named⟩
  · left
    rcases placed with ⟨_, p, o, _, _, place⟩ | ⟨unplaceable, _⟩
    · have taken := Settings.colorStrictly_eq colored index
      unfold Settings.colorStrictly at taken
      rw [shows.color] at taken
      refine ⟨sprite, drawn, shows, ?_⟩
      unfold color?
      rw [place, Except.ok.inj taken]
    · rw [unplaceable] at placeable
      contradiction
  · right
    rcases placed with ⟨placeable, _⟩ | ⟨_, m', place, _⟩
    · rw [unplaceable] at placeable
      contradiction
    · refine ⟨m, skipped, named, ?_⟩
      unfold color?
      rw [place]

section Colors

variable (s : Settings)

theorem colorsFrom_cons_of_visible (index : Nat) {d : Device} (visible : d.visible = true)
    (rest : List Device) :
    colorsFrom s index (d :: rest) = d.color? s index :: colorsFrom s (index + 1) rest := by
  rw [colorsFrom, if_pos visible]
  rfl

theorem colorsFrom_cons_of_hidden (index : Nat) {d : Device} (hidden : d.visible = false)
    (rest : List Device) :
    colorsFrom s index (d :: rest) = none :: colorsFrom s index rest := by
  rw [colorsFrom, if_neg (Bool.eq_false_iff.mp hidden)]

/-- Colors are counted on after the visible devices that come before. -/
theorem colorsFrom_append (index : Nat) (earlier later : List Device) :
    colorsFrom s index (earlier ++ later) =
      colorsFrom s index earlier ++
        colorsFrom s (index + (earlier.filter (·.visible)).length) later := by
  induction earlier generalizing index with
  | nil => rfl
  | cons d rest ih =>
    cases visible : d.visible with
    | true =>
      rw [List.cons_append, colorsFrom_cons_of_visible s index visible,
        colorsFrom_cons_of_visible s index visible, ih, List.filter_cons_of_pos visible,
        List.length_cons, Nat.add_assoc, Nat.add_comm 1, List.cons_append]
    | false =>
      rw [List.cons_append, colorsFrom_cons_of_hidden s index visible,
        colorsFrom_cons_of_hidden s index visible, ih,
        List.filter_cons_of_neg (Bool.eq_false_iff.mp visible), List.cons_append]

theorem Projection.attemptsFrom_append (index : Nat) (earlier later : List Device) :
    attemptsFrom s index (earlier ++ later) =
      attemptsFrom s index earlier ++
        attemptsFrom s (index + (earlier.filter (·.visible)).length) later := by
  simp only [attemptsFrom_eq_map, List.filter_append, List.zipIdx_append, List.map_append]

variable {s} (colored : s.palette ≠ [])

include colored

/-- The colors that are given are those of the sprites, in their order. -/
theorem colorsFrom_filterMap (index : Nat) (ds : List Device) :
    (colorsFrom s index ds).filterMap id =
      (Projection.sprites (Projection.attemptsFrom s index ds)).map (·.color) := by
  induction ds generalizing index with
  | nil => rfl
  | cons d rest ih =>
    cases visible : d.visible with
    | true =>
      rw [colorsFrom_cons_of_visible s index visible, Projection.attemptsFrom, if_pos visible]
      rcases d.color?_cases colored index with
        ⟨sprite, drawn, _, color⟩ | ⟨m, skipped, _, color⟩
      · rw [drawn, color]
        exact congrArg (sprite.color :: ·) (ih (index + 1))
      · rw [skipped, color]
        exact ih (index + 1)
    | false =>
      rw [colorsFrom_cons_of_hidden s index visible, Projection.attemptsFrom,
        if_neg (Bool.eq_false_iff.mp visible)]
      exact ih index

/-- The visible devices without a color are the misfits, in their order. -/
theorem names_without_color (index : Nat) (ds : List Device) :
    ((ds.zip (colorsFrom s index ds)).filter fun v => v.1.visible && v.2.isNone).map (·.1.name) =
      (Projection.misfits (Projection.attemptsFrom s index ds)).map Misfit.name := by
  induction ds generalizing index with
  | nil => rfl
  | cons d rest ih =>
    cases visible : d.visible with
    | true =>
      rw [colorsFrom_cons_of_visible s index visible, Projection.attemptsFrom, if_pos visible,
        List.zip_cons_cons]
      rcases d.color?_cases colored index with
        ⟨sprite, drawn, _, color⟩ | ⟨m, skipped, named, color⟩
      · rw [drawn, color, List.filter_cons_of_neg (by simp)]
        exact ih (index + 1)
      · rw [skipped, color, List.filter_cons_of_pos (by simp [visible]), List.map_cons, ih,
          ← named]
        rfl
    | false =>
      rw [colorsFrom_cons_of_hidden s index visible, Projection.attemptsFrom,
        if_neg (Bool.eq_false_iff.mp visible), List.zip_cons_cons,
        List.filter_cons_of_neg (by simp [visible])]
      exact ih index

omit colored in
/-- What is added to the sprites by one device after others. -/
theorem projectSprites_append (earlier later : List Device) :
    projectSprites s (earlier ++ later) =
      projectSprites s earlier ++
        Projection.sprites
          (Projection.attemptsFrom s (earlier.filter (·.visible)).length later) := by
  rw [projectSprites, Projection.attempts, Projection.attemptsFrom_append,
    Projection.sprites_append, Nat.zero_add]
  rfl

/-- A device adds its sprite, of which the color is entered, or it adds nothing and no color is
entered: it is hidden or it is a misfit. -/
theorem own_sprite_cases (index : Nat) (d : Device) :
    ∃ own color, Projection.sprites (Projection.attemptsFrom s index [d]) = own ∧
      colorsFrom s index [d] = [color] ∧ (∀ sprite ∈ own, sprite.Shows s index d) ∧
      own.map (·.color) = color.toList ∧ (color = none ↔ d.visible = false ∨ own = []) := by
  cases visible : d.visible with
  | true =>
    rw [colorsFrom_cons_of_visible s index visible, Projection.attemptsFrom, if_pos visible]
    rcases d.color?_cases colored index with
      ⟨sprite, drawn, shows, color⟩ | ⟨m, skipped, _, color⟩
    · rw [drawn, color]
      exact ⟨[sprite], _, rfl, rfl, by simpa using shows, rfl, by simp⟩
    · rw [skipped, color]
      exact ⟨[], _, rfl, rfl, by simp, rfl, by simp⟩
  | false =>
    rw [colorsFrom_cons_of_hidden s index visible, Projection.attemptsFrom,
      if_neg (Bool.eq_false_iff.mp visible)]
    exact ⟨[], none, rfl, rfl, by simp, rfl, by simp⟩

end Colors

namespace Table

def cell? (column : String) (cells : List Value) : Option Value :=
  lookupField column (columns.zip cells)

/-- A cell holds a number, or null or NaN where the number is missing. -/
def Holds (number : Option Float) (cell : Option Value) : Prop :=
  match number with
  | some x => cell = some (.float x)
  | none => cell = some .null ∨ cell = some (.float (0.0 / 0.0))

/-- What the cells of a row say of a device and of the color in which it is drawn, if it is. -/
structure Tells (d : Device) (color : Option String) (cells : List Value) : Prop where
  name : cell? "name" cells = some (.text d.name)
  kind : cell? "device_type" cells = some (.ofOption .text d.kind)
  visible : cell? "visible" cells = some (.bool d.visible)
  x : Holds (d.position.map (·.x)) (cell? "x" cells)
  y : Holds (d.position.map (·.y)) (cell? "y" cells)
  z : Holds (d.position.map (·.z)) (cell? "z" cells)
  yaw : Holds (d.orientation.map (·.yaw)) (cell? "yaw" cells)
  pitch : Holds (d.orientation.map (·.pitch)) (cell? "pitch" cells)
  roll : Holds (d.orientation.map (·.roll)) (cell? "roll" cells)
  color : cell? "color" cells = some (.ofOption .text color)

/-- What stands for a missing number is null or NaN, in each of the six columns. -/
theorem gaps_cases (rows : List Row) :
    ∃ x y z yaw pitch roll, gaps rows = [x, y, z, yaw, pitch, roll] ∧
      ∀ gap ∈ gaps rows, gap = .null ∨ gap = .float (0.0 / 0.0) := by
  refine ⟨_, _, _, _, _, _, rfl, ?_⟩
  intro gap member
  obtain ⟨column, _, rfl⟩ := List.mem_map.mp member
  split
  · exact .inl rfl
  · exact .inr rfl

theorem holds_number {gap : Value} (stands : gap = .null ∨ gap = .float (0.0 / 0.0))
    (number : Option Float) : Holds number (some ((number.map Value.float).getD gap)) := by
  cases number with
  | some x => rfl
  | none => exact stands.imp (congrArg some) (congrArg some)

theorem tells_cells (rows : List Row) (r : Row) :
    Tells r.device r.color (cells (gaps rows) r) := by
  obtain ⟨x, y, z, yaw, pitch, roll, six, stands⟩ := gaps_cases rows
  rw [six] at stands ⊢
  simp only [List.forall_mem_cons] at stands
  obtain ⟨gap_x, gap_y, gap_z, gap_yaw, gap_pitch, gap_roll, _⟩ := stands
  exact
    { name := rfl
      kind := rfl
      visible := rfl
      x := holds_number gap_x _
      y := holds_number gap_y _
      z := holds_number gap_z _
      yaw := holds_number gap_yaw _
      pitch := holds_number gap_pitch _
      roll := holds_number gap_roll _
      color := rfl }

theorem rows_eq_map (s : Settings) (ds : List Device) :
    rows s ds = (ds.zip (assignColors s ds)).map fun v => ⟨v.1, v.2⟩ := by
  unfold rows
  rw [List.map_zip_eq_zipWith]
  rfl

/-- The rows of a table tell of the devices and their colors, one by one and in order. -/
theorem grid_tells (s : Settings) (ds : List Device) :
    List.Forall₂ (fun v cells => Tells v.1 v.2 cells) (ds.zip (assignColors s ds))
      (grid s ds) := by
  unfold grid
  rw [rows_eq_map, List.map_map, List.forall₂_map_right_iff, List.forall₂_same]
  exact fun v _ => tells_cells _ ⟨v.1, v.2⟩

end Table

/-- With valid settings, each device is given a color exactly if it has a sprite, and that of its
sprite. What its own sprite is can be told by projecting the devices up to it and with it: `own` is
what it adds. The table has a row for each device, in order, and says of it what it is and which
color it was given. The visible ones without a color are those that the projection skips. A scene of
the devices, in whatever stance, has these sprites and skips these names. -/
theorem table_agrees_with_map {s : Settings} (valid : s.Valid) (ds : List Device) :
    let sprites := projectSprites s ds
    let skipped := (projectMisfits s ds).map Misfit.name
    let colors := assignColors s ds
    colors.length = ds.length ∧
      (∀ earlier d later, ds = earlier ++ d :: later →
        ∃ own others color,
          projectSprites s (earlier ++ [d]) = projectSprites s earlier ++ own ∧
          sprites = projectSprites s (earlier ++ [d]) ++ others ∧
          (∀ sprite ∈ own, sprite.Shows s (earlier.filter (·.visible)).length d) ∧
          colors[earlier.length]? = some color ∧ own.map (·.color) = color.toList ∧
          (color = none ↔ d.visible = false ∨ own = [])) ∧
      colors.filterMap id = sprites.map (·.color) ∧
      List.Forall₂ (fun v cells => Table.Tells v.1 v.2 cells) (ds.zip colors) (Table.grid s ds) ∧
      ((ds.zip colors).filter fun v => v.1.visible && v.2.isNone).map (·.1.name) = skipped ∧
      ∀ stance scene, project s stance ds = some scene →
        scene.sprites = sprites ∧ scene.skipped = skipped := by
  have colored := valid.palette_nonempty
  intro sprites skipped colors
  refine ⟨length_colorsFrom s 0 ds, ?_, colorsFrom_filterMap colored 0 ds,
    Table.grid_tells s ds, names_without_color colored 0 ds,
    fun _ _ drawn => (project_eq_some drawn).2⟩
  rintro earlier d later rfl
  obtain ⟨own, color, drawn, given, shows, same_color, absent⟩ :=
    own_sprite_cases colored (earlier.filter (·.visible)).length d
  have entered : colors[earlier.length]? = some color := by
    change (colorsFrom s 0 (earlier ++ ([d] ++ later)))[earlier.length]? = _
    rw [colorsFrom_append, Nat.zero_add, colorsFrom_append, given,
      List.getElem?_append_right (length_colorsFrom s 0 earlier).le, length_colorsFrom,
      Nat.sub_self]
    rfl
  have up_to : projectSprites s (earlier ++ [d]) = projectSprites s earlier ++ own := by
    rw [projectSprites_append, drawn]
  have beyond := projectSprites_append (s := s) (earlier ++ [d]) later
  rw [← List.append_cons] at beyond
  exact ⟨own, _, color, up_to, beyond, shows, entered, same_color, absent⟩

/-- Of the mixed fleet, the two vans are drawn, the second in the fourth color. -/
theorem mixedFleet_table_agrees_with_map :
    Settings.standard.Valid ∧
      assignColors .standard mixedFleet = [some "red", none, none, none, some "green"] ∧
      (assignColors .standard mixedFleet).filterMap id =
        (projectSprites .standard mixedFleet).map (·.color) ∧
      ((mixedFleet.zip (assignColors .standard mixedFleet)).filter
        fun v => v.1.visible && v.2.isNone).map (·.1.name) = ["buoy", "probe"] := by
  have agrees := table_agrees_with_map Settings.standard_valid mixedFleet
  exact ⟨Settings.standard_valid, by decide, agrees.2.2.1,
    agrees.2.2.2.2.1.trans (by decide)⟩

end FleetMap
