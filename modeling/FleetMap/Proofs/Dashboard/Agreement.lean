import FleetMap.Proofs.Dashboard.Touch
import FleetMap.Proofs.SameSprites
import FleetMap.Proofs.Table

set_option autoImplicit false

namespace FleetMap

/-- The rows with a color are those of the sprites, in their order. -/
theorem colored_rows_eq {s : Settings} (colored : s.palette ≠ []) (index : Nat)
    (ds : List Device) :
    (List.zipWith Row.mk ds (colorsFrom s index ds)).filterMap
        (fun r => r.color.map (r.device.name, ·)) =
      (Projection.sprites (Projection.attemptsFrom s index ds)).map
        fun sprite => (sprite.name, sprite.color) := by
  induction ds generalizing index with
  | nil => rfl
  | cons d rest ih =>
    cases visible : d.visible with
    | true =>
      rw [colorsFrom_cons_of_visible s index visible, Projection.attemptsFrom, if_pos visible]
      rcases d.color?_cases colored index with
        ⟨sprite, drawn, shows, color⟩ | ⟨m, skipped, _, color⟩
      · rw [drawn, color, Projection.sprites, List.map_cons, shows.name, ← ih (index + 1)]
        rfl
      · rw [skipped, color]
        exact ih (index + 1)
    | false =>
      rw [colorsFrom_cons_of_hidden s index visible, Projection.attemptsFrom,
        if_neg (Bool.eq_false_iff.mp visible)]
      exact ih index

theorem names_and_colors_of_same {a b : List Sprite} (same : sameList Sprite.same a b = true) :
    a.map (fun sprite => (sprite.name, sprite.color)) =
      b.map fun sprite => (sprite.name, sprite.color) := by
  apply map_eq_of_sameList _ same
  intro x y same_sprite
  obtain ⟨name, color, _⟩ := Sprite.texts_of_same same_sprite
  rw [name, color]

theorem names_of_same {ds es : List Device} (same : sameList Device.same ds es = true) :
    ds.map (·.name) = es.map (·.name) := by
  apply map_eq_of_sameList _ same
  exact Device.name_of_same

namespace Table

theorem device_rows (s : Settings) (ds : List Device) : (rows s ds).map (·.device) = ds := by
  rw [rows_eq_map, List.map_map]
  exact List.map_fst_zip (length_colorsFrom s 0 ds).ge

theorem names_rows (s : Settings) (ds : List Device) :
    (rows s ds).map (·.device.name) = ds.map (·.name) := by
  have same := congrArg (List.map (·.name)) (device_rows s ds)
  rwa [List.map_map] at same

theorem rows_tell (s : Settings) (ds : List Device) :
    List.Forall₂ (fun r cells => Tells r.device r.color cells) (rows s ds) (grid s ds) := by
  unfold grid
  rw [List.forall₂_map_right_iff, List.forall₂_same]
  exact fun r _ => tells_cells _ r

/-- What a map shows of devices is what a table tells of devices that are the same. -/
theorem rows_agree {s : Settings} (colored : s.palette ≠ []) {shown held : List Device}
    (same : sameList Device.same shown held = true) :
    (projectSprites s shown).map (fun sprite => (sprite.name, sprite.color)) =
        (rows s held).filterMap (fun r => r.color.map (r.device.name, ·)) ∧
      (projectMisfits s shown).map Misfit.name =
        ((rows s held).filter fun r => r.device.visible && r.color.isNone).map (·.device.name) := by
  constructor
  · exact (names_and_colors_of_same (Projection.same_sprites s same 0)).trans
      (colored_rows_eq colored 0 held).symm
  · rw [rows_eq_map, List.filter_map, List.map_map]
    exact (Projection.same_skipped s same 0).trans (names_without_color colored 0 held).symm

end Table

namespace Draft

variable (draft : Draft)

theorem valid_settle (valid : draft.lastValid.Valid) :
    draft.settle.1.Valid ∧ draft.settle.2.lastValid.Valid := by
  cases checked : draft.check with
  | ok s =>
    rw [draft.settle_of_valid checked]
    exact ⟨draft.valid_of_check checked, draft.valid_of_check checked⟩
  | error r =>
    rw [draft.settle_of_invalid checked]
    exact ⟨valid, valid⟩

/-- Settings that were asked for once are in effect until something is edited. -/
theorem settle_settle : draft.settle.2.settle.1 = draft.settle.1 := by
  cases checked : draft.check with
  | ok s =>
    have again : draft.settle.2.check = .ok s := by
      unfold check at checked ⊢
      rw [entries_settle, checked]
    rw [settle_of_valid _ again, settle_of_valid _ checked]
  | error r => rw [settle_of_invalid _ checked, settle_of_invalid _ checked]

end Draft

namespace Dashboard

variable {d e : Dashboard}

/-- Every map on the screen works with the settings that are in effect for it. -/
def IsStyled (d : Dashboard) : Prop :=
  ∀ id view own, (id, .map view own) ∈ d.widgets →
    ∃ v, d.hub.views[view]? = some v ∧ v.settings = d.settingsFor own

theorem steady_applySettings (d : Dashboard) (w : World) (widget : Widget) :
    w.Steady (d.applySettings w widget) := by
  cases widget with
  | map view own =>
    exact .of_modify (w.registry_modifyView view _) (fun bus => w.bus_modifyView view _ bus) rfl rfl
      (fun _ => rfl) fun _ => .inl rfl
  | settings | table | controls | playback => exact .refl w

theorem advances_applySettings (d : Dashboard) (widgets : List (String × Widget)) (w : World) :
    w.Advances (widgets.foldl (fun w entry => d.applySettings w entry.2) w) := by
  induction widgets generalizing w with
  | nil => exact .refl w
  | cons entry rest ih => exact (d.steady_applySettings w entry.2).advances.trans (ih _)

theorem views_applySettings (d : Dashboard) (w : World) (widget : Widget) (view : Nat) :
    (∀ own, widget ≠ .map view own) ∧ (d.applySettings w widget).views[view]? = w.views[view]? ∨
      ∃ own, widget = .map view own ∧ (d.applySettings w widget).views[view]? =
        w.views[view]?.map fun v => { v with settings := d.settingsFor own } := by
  cases widget with
  | map changed own =>
    change _ ∧ (w.views.modify changed _)[view]? = _ ∨ _
    by_cases same : changed = view
    · subst same
      exact .inr ⟨own, rfl, List.getElem?_modify_eq ..⟩
    · refine .inl ⟨?_, List.getElem?_modify_ne _ _ same⟩
      intro other map
      exact same (Widget.map.inj map).1
  | settings | table | controls | playback => exact .inl ⟨nofun, rfl⟩

/-- If all widgets of a view agree on its settings, the view works with these once one of them was
looked at. -/
theorem styled_applySettings (d : Dashboard) {view : Nat} {own : Option Settings}
    (widgets : List (String × Widget)) (w : World)
    (agree : ∀ f ∈ widgets, ∀ other, f.2 = .map view other → other = own)
    {v : View} (found : w.views[view]? = some v)
    (looked_at : (∃ f ∈ widgets, f.2 = .map view own) ∨ v.settings = d.settingsFor own) :
    ∃ v, (widgets.foldl (fun w entry => d.applySettings w entry.2) w).views[view]? = some v ∧
      v.settings = d.settingsFor own := by
  induction widgets generalizing w v with
  | nil =>
    rcases looked_at with ⟨f, member, _⟩ | settings
    · exact nomatch member
    · exact ⟨v, found, settings⟩
  | cons entry rest ih =>
    have agree_rest : ∀ f ∈ rest, ∀ other, f.2 = .map view other → other = own :=
      fun f member => agree f (List.mem_cons_of_mem entry member)
    rcases d.views_applySettings w entry.2 view with ⟨unrelated, same⟩ | ⟨other, map, changed⟩
    · refine ih _ agree_rest (same.trans found) (looked_at.imp_left ?_)
      rintro ⟨f, member, map⟩
      rcases List.mem_cons.mp member with rfl | later
      · exact absurd map (unrelated own)
      · exact ⟨f, later, map⟩
    · obtain rfl := agree entry List.mem_cons_self other map
      exact ih _ agree_rest (changed.trans (congrArg (Option.map _) found)) (.inr rfl)

@[simp] theorem listener?_updateWidget (d : Dashboard) (widget : Widget) :
    (d.updateWidget widget).listener? = widget.listener? := by
  cases widget with
  | settings | map | table | controls | playback => rfl

theorem updateWidget_eq_map (d : Dashboard) {widget : Widget} {view : Nat} {own : Option Settings}
    (map : d.updateWidget widget = .map view own) : widget = .map view own := by
  cases widget with
  | map => exact map
  | settings | table | controls | playback => exact nomatch map

/-- Bringing everything up to date changes no settings that are in effect. -/
theorem settingsFor_refreshed (d : Dashboard) (own : Option Settings) :
    d.refreshed.settingsFor own = d.settingsFor own := by
  have same : d.refreshed.draft.settle.1 = d.draft.settle.1 := by
    unfold refreshed
    dsimp only
    split
    · exact d.draft.settle_settle
    · rfl
  unfold settingsFor
  rw [same]

theorem InTouch.refreshed (touch : d.InTouch) : d.refreshed.InTouch := by
  have advances := d.advances_applySettings d.widgets d.hub
  refine ⟨?_, advances.wires touch.wires, ?_, ?_⟩
  · unfold Dashboard.refreshed
    dsimp only
    split
    · exact (d.draft.valid_settle touch.valid).2
    · exact touch.valid
  · intro e member l listens
    obtain ⟨f, listed, rfl⟩ := List.mem_map.mp member
    rw [listener?_updateWidget] at listens
    exact advances.informs l (touch.informed f listed l listens)
  · intro e member e' member' l listens listens'
    obtain ⟨f, listed, rfl⟩ := List.mem_map.mp member
    obtain ⟨f', listed', rfl⟩ := List.mem_map.mp member'
    rw [listener?_updateWidget] at listens listens'
    rw [touch.apart f listed f' listed' l listens listens']

theorem InTouch.isStyled_refreshed (touch : d.InTouch) : d.refreshed.IsStyled := by
  intro id view own member
  obtain ⟨⟨id', widget⟩, listed, same⟩ := List.mem_map.mp member
  obtain ⟨rfl, map⟩ := Prod.mk.inj same
  obtain rfl := d.updateWidget_eq_map map
  obtain ⟨_, _, holds, _⟩ := touch.informed _ listed _ rfl
  obtain ⟨v, found, _⟩ := Option.map_eq_some_iff.mp holds
  have agree : ∀ f ∈ d.widgets, ∀ other, f.2 = .map view other → other = own := by
    intro f listed' other map
    have listens : f.2.listener? = some (.view view) := by rw [map]; rfl
    have itself := touch.apart f listed' _ listed _ listens rfl
    rw [itself] at map
    exact (Widget.map.inj map).2.symm
  rw [settingsFor_refreshed]
  exact d.styled_applySettings d.widgets d.hub agree (Option.filter_eq_some_iff.mp found).1
    (.inl ⟨_, listed, rfl⟩)

/-- The dashboard after a command; one that fails answers with its failure and changes nothing. -/
def perform (d : Dashboard) (c : Command) : Dashboard :=
  match d.step c with
  | .ok (_, d) => d
  | .error _ => d

def performAll (d : Dashboard) (commands : List Command) : Dashboard := commands.foldl perform d

theorem perform_keeps (touch : d.InTouch) (styled : d.IsStyled) (c : Command) :
    (d.perform c).InTouch ∧ (d.perform c).IsStyled := by
  unfold perform
  split
  · rename_i reply e step
    obtain ⟨⟨_, f⟩, ran, same⟩ := map_eq_ok.mp step
    obtain ⟨_, rfl⟩ := Prod.mk.inj same
    have touch := touch.carryOut ran
    exact ⟨touch.refreshed, touch.isStyled_refreshed⟩
  · exact ⟨touch, styled⟩

theorem performAll_keeps (touch : d.InTouch) (styled : d.IsStyled) (commands : List Command) :
    (d.performAll commands).InTouch ∧ (d.performAll commands).IsStyled := by
  induction commands generalizing d with
  | nil => exact ⟨touch, styled⟩
  | cons c rest ih =>
    obtain ⟨touch, styled⟩ := perform_keeps touch styled c
    exact ih touch styled

end Dashboard

/-- After any commands, a map and a table on the screen that follow the draft agree. The table has
one row for each stored device, in order, and tells what it is and in which color it is drawn; the
sprites of the map have the names and colors of the rows with a color, in order; and the devices
that the map says are not shown are those of the visible rows without a color. The map is drawn with
these unless the number of its pattern is too long to be written. -/
theorem map_and_table_on_the_screen_agree (files : Tree) (commands : List Dashboard.Command) :
    let d := (Dashboard.start files).performAll commands
    ∀ i view j inbox, (i, .map view none) ∈ d.widgets → (j, .table inbox none) ∈ d.widgets →
      ∃ v held, d.hub.views[view]? = some v ∧ d.hub.inboxes[inbox]? = some held ∧
        let rows := Table.rows (d.settingsFor none) held
        rows.map (·.device.name) = d.hub.registry.devices.map (·.name) ∧
        List.Forall₂ (fun r cells => Table.Tells r.device r.color cells) rows
          (Table.grid (d.settingsFor none) held) ∧
        v.sprites.map (fun sprite => (sprite.name, sprite.color)) =
          rows.filterMap (fun r => r.color.map (r.device.name, ·)) ∧
        v.skipped =
          (rows.filter fun r => r.device.visible && r.color.isNone).map (·.device.name) ∧
        (v.scene = none ↔ 10 ^ digitLimit ≤ v.stance.patternIndex % v.settings.patternCount) ∧
        ∀ scene ∈ v.scene, scene.sprites = v.sprites ∧ scene.skipped = v.skipped := by
  intro d i view j inbox map table
  obtain ⟨touch, styled⟩ :=
    Dashboard.performAll_keeps (Dashboard.inTouch_start files) nofun commands
  obtain ⟨v, found, settings⟩ := styled i view none map
  obtain ⟨_, shown, holds_shown, current_shown⟩ := touch.informed _ map _ rfl
  obtain ⟨x, active, rfl⟩ := Option.map_eq_some_iff.mp holds_shown
  obtain rfl := Option.some.inj ((Option.filter_eq_some_iff.mp active).1.symm.trans found)
  obtain ⟨_, held, holds, current⟩ := touch.informed _ table _ rfl
  have colored : x.settings.palette ≠ [] := by
    rw [settings]
    exact (d.draft.valid_settle touch.valid).1.palette_nonempty
  have same : sameList Device.same x.devices held = true := by
    apply sameList_of_third _ current_shown current
    exact Device.same_of_third
  obtain ⟨sprites, skipped⟩ := Table.rows_agree colored same
  have names := (Table.names_rows x.settings held).trans (names_of_same current)
  refine ⟨x, held, found, holds, ?_⟩
  rw [show d.settingsFor none = x.settings from settings.symm]
  exact ⟨names, Table.rows_tell x.settings held, sprites, skipped, project_eq_none,
    fun _ drawn => (project_eq_some drawn).2⟩

/-- Devices, settings on file and a signal reach a map and a table one after the other. -/
def busyScreen : List Dashboard.Command :=
  [.put "scenarios/hall.json"
      (.file "\x7b\"palette\": [\"pink\", \"teal\"]\x7d".toUTF8.toList),
    .mount "form" .settings none, .mount "map" .map none,
    .update (.entries (mixedFleet.map .device)), .mount "table" .table none,
    .choose "form" "hall.json", .emit Bus.toggleTopic,
    .updateDevice "buoy" [("visible", .bool false)]]

/-- The map is new when there are no devices, the table when there are five; two are hidden in the
end, and one of the others cannot be placed. -/
theorem busy_screen_agrees :
    let d := (Dashboard.start (.empty "/")).performAll busyScreen
    ("map", .map 0 none) ∈ d.widgets ∧ ("table", .table 0 none) ∈ d.widgets ∧
      ∃ v held, d.hub.views[0]? = some v ∧ d.hub.inboxes[0]? = some held ∧
        let rows := Table.rows (d.settingsFor none) held
        rows.map (·.device.name) = ["van", "ghost", "buoy", "probe", "van"] ∧
        rows.filterMap (fun r => r.color.map (r.device.name, ·)) =
          [("van", "pink"), ("van", "pink")] ∧
        (rows.filter fun r => r.device.visible && r.color.isNone).map (·.device.name) =
          ["probe"] := by
  intro d
  have map : ("map", .map 0 none) ∈ d.widgets := by decide +kernel
  have table : ("table", .table 0 none) ∈ d.widgets := by decide +kernel
  obtain ⟨v, held, shown, holds, names, _, sprites, skipped, _, _⟩ :=
    map_and_table_on_the_screen_agree (.empty "/") busyScreen "map" 0 "table" 0 map table
  have seen : d.hub.views[0]?.map (fun v =>
      (v.sprites.map fun sprite => (sprite.name, sprite.color), v.skipped)) =
      some ([("van", "pink"), ("van", "pink")], ["probe"]) := by decide +kernel
  rw [shown] at seen
  obtain ⟨drawn, left_out⟩ := Prod.mk.inj (Option.some.inj seen)
  exact ⟨map, table, v, held, shown, holds, names.trans (by decide +kernel),
    sprites.symm.trans drawn, skipped.symm.trans left_out⟩

end FleetMap
