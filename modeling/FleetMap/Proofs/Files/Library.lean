import FleetMap.Files.Library
import FleetMap.Proofs.Files.Tree
import FleetMap.Proofs.Intake.Device
import FleetMap.Proofs.Json.RoundTrip
import FleetMap.Proofs.Number.Shortest
import FleetMap.Proofs.Text.Utf8

set_option autoImplicit false

namespace FleetMap

open Json (Readable)

theorem Json.tellsNumbers_recording : Json.Style.recording.TellsNumbers :=
  fun _ finite => tells_writeFloat rfl _ finite

theorem Json.tellsNumbers_settings : Json.Style.settings.TellsNumbers :=
  fun _ finite => tells_writeFloat rfl _ finite

namespace Library

variable {t t' : Tree} {folder name : String} {text : List Char}

/-- Text without carriage returns is read as it was written. -/
theorem textOfBytes_encode (no_return : '\r' ∉ text) :
    textOfBytes (Utf8.encode text) = .ok text := by
  unfold textOfBytes
  rw [Utf8.decode_encode]
  exact congrArg Except.ok (unifyLineEnds_of_not_mem no_return)

/-- What was saved is there, as the value that its text is read as. -/
theorem loadValue_of_save {folder : Path} (saved : save t folder name text = (.ok (), t'))
    (no_return : '\r' ∉ text) {v : Value} (read : Json.read text = .ok v)
    (absent : String → Failure) : loadValue t' folder name absent = .ok v := by
  unfold save at saved
  split at saved
  · exact nomatch saved
  · split at saved
    · exact nomatch saved
    · rename_i written
      obtain rfl := (Prod.mk.inj saved).2
      obtain ⟨p, located⟩ := Tree.locate_of_write written
      unfold loadValue
      rw [located]
      simp only [valueOfBytes, textOfBytes_encode no_return, bind, Except.bind, read]
      rfl

/-- A file with a plain name is saved where nothing is in its way. -/
theorem save_of_admits (named : folder ≠ "..") (plain : IsFileName name)
    (admits : t.Admits folder name) (text : List Char) :
    ∃ t', save t [folder] name text = (.ok (), t') := by
  obtain ⟨made, makes, there, others⟩ := Tree.makeDirectories_folder admits.folder_no_file
  have no_directory : made.node? [folder, name] ≠ some .directory := by
    rw [others _ (by simp)]
    exact admits.file_no_directory
  obtain ⟨t', written⟩ := Tree.write_of_admits named there plain no_directory (Utf8.encode text)
  exact ⟨t', by simp [save, makes, written]⟩

end Library

theorem Item.check_raw {v : Value} {d : Device} (accepted : Intake.device v = .accepted d) :
    (Item.raw v).check.conclude .device = .ok d :=
  Checked.conclude_eq_ok.mpr accepted

/-- Items that stand for devices one and all are received one and all. -/
theorem Reception.ofItemsFrom_map {ds : List Device} {item : Device → Item}
    (each : ∀ d ∈ ds, (item d).check.conclude .device = .ok d) (index : Nat) :
    ofItemsFrom index (ds.map item) = ⟨ds, []⟩ := by
  induction ds generalizing index with
  | nil => rfl
  | cons d rest ih =>
    obtain ⟨checked, each⟩ := List.forall_mem_cons.mp each
    rw [List.map_cons, ofItemsFrom, ih each, checked]

section Readable

variable {depth : Nat}

/-- Finite numbers under distinct keys are within the limits of the reader. -/
theorem readable_numbers (fields : List (String × Float)) (distinct : (fields.map (·.1)).Nodup)
    (finite : ∀ e ∈ fields, e.2.isFinite = true) :
    Readable (depth + 1) (.object (fields.map fun e => (e.1, .float e.2))) := by
  refine .object _ _ (by simpa [Function.comp_def] using distinct) fun e member => ?_
  obtain ⟨number, listed, rfl⟩ := List.mem_map.mp member
  exact .float _ _ (finite number listed)

theorem readable_position {p : Position} (finite : ∀ v ∈ p.coordinates, v.isFinite = true) :
    Readable (depth + 1) p.toValue :=
  readable_numbers [("x", p.x), ("y", p.y), ("z", p.z)] (by simp)
    (by simpa [Position.coordinates] using finite)

theorem readable_orientation {o : Orientation} (finite : ∀ v ∈ o.angles, v.isFinite = true) :
    Readable (depth + 1) o.toValue :=
  readable_numbers [("yaw", o.yaw), ("pitch", o.pitch), ("roll", o.roll)] (by simp)
    (by simpa [Orientation.angles] using finite)

theorem readable_ofOption {α : Type} {toValue : α → Value} {a? : Option α}
    (readable : ∀ a, a? = some a → Readable depth (toValue a)) :
    Readable depth (.ofOption toValue a?) := by
  cases a? with
  | none => exact .null _
  | some a => exact readable a rfl

/-- The entries of a finite device are within the limits of the reader. -/
theorem Device.readable_entries {d : Device} (finite : d.IsFinite) :
    ∀ e ∈ d.entries, Readable (depth + 1) e.2 := by
  simp only [Device.entries, List.forall_mem_cons]
  exact ⟨.text _ _, .bool _ _,
    readable_ofOption fun p known => readable_position (finite.1 p known),
    readable_ofOption fun o known => readable_orientation (finite.2 o known),
    readable_ofOption fun k _ => .text _ k, List.forall_mem_nil _⟩

theorem Device.readable_toSparseValue {d : Device} (finite : d.IsFinite) :
    Readable (depth + 2) d.toSparseValue := by
  have kept : (d.entries.filter fun e => e.2.kind != .null).Sublist d.entries := List.filter_sublist
  exact .object _ _ (d.entries_distinct.sublist (kept.map _))
    fun e member => d.readable_entries finite e (kept.subset member)

theorem Settings.entries_distinct (s : Settings) : (s.entries.map (·.1)).Nodup := by
  have keys : s.entries.map (·.1) = ["name", "scale", "palette", "sprite_size", "pattern_count",
    "isometric_top_px", "playback_interval"] := rfl
  rw [keys]
  decide

/-- The entries of settings are within the limits of the reader if their integers are. -/
theorem Settings.readable_toValue {s : Settings} (valid : s.Valid)
    (count_short : (Nat.toDigits 10 s.patternCount).length ≤ digitLimit)
    (top_short : (Nat.toDigits 10 s.isometricTop).length ≤ digitLimit) :
    Readable (depth + 2) s.toValue := by
  have colors : Readable (depth + 1) (.list (s.palette.map .text)) := by
    refine .list _ _ fun v member => ?_
    obtain ⟨color, _, rfl⟩ := List.mem_map.mp member
    exact .text _ color
  refine .object _ _ s.entries_distinct ?_
  simp only [Settings.entries, List.forall_mem_cons]
  exact ⟨.text _ _, .float _ _ valid.scale_positive.1, colors, .text _ _, .int _ _ count_short,
    .int _ _ top_short, .float _ _ valid.interval_positive.1, List.forall_mem_nil _⟩

end Readable

namespace Library

/-- The devices of a frame, received again, are the same devices, and none is dropped. -/
theorem ofItemsFrom_toSparseValue {ds : List Device} (finite : ∀ d ∈ ds, d.IsFinite)
    (index : Nat) :
    Reception.ofItemsFrom index ((ds.map Device.toSparseValue).map .raw) = ⟨ds, []⟩ := by
  rw [List.map_map]
  exact Reception.ofItemsFrom_map
    (fun d frame => Item.check_raw (Device.device_toSparseValue (finite d frame))) index

theorem framesOfValue?_list (frames : List (List Value)) :
    framesOfValue? (.list (frames.map .list)) = some frames := by
  unfold framesOfValue?
  dsimp only
  induction frames with
  | nil => rfl
  | cons items frames ih =>
    rw [List.map_cons, List.mapM_cons, ih]
    rfl

/-- A recording that was saved is loaded as it was: every frame in order with all its devices, none
of which is dropped. It can be saved under every plain name that nothing stands in the way of. -/
theorem recording_survives_saving (t : Tree) {frames : List (List Device)}
    (validated : ∀ ds ∈ frames, ∀ d ∈ ds, d.IsValidated) (name : String) :
    (∀ t', saveRecording t frames name = (.ok (), t') →
        loadRecording t' name = .ok (frames.map fun ds => ⟨ds, []⟩)) ∧
      (IsFileName name → t.Admits "frames" name →
        ∃ t', saveRecording t frames name = (.ok (), t')) := by
  have finite : ∀ ds ∈ frames, ∀ d ∈ ds, d.IsFinite :=
    fun ds frame d member => Device.isValidated_iff.mp (validated ds frame d member)
  refine ⟨?_, fun plain admits => save_of_admits (by decide) plain admits _⟩
  intro t' saved
  have items : frames.map (fun ds => Value.list (ds.map Device.toSparseValue)) =
      (frames.map (·.map Device.toSparseValue)).map .list := by
    rw [List.map_map]
    rfl
  have readable : Readable Json.depthLimit
      (.list (frames.map fun ds => .list (ds.map Device.toSparseValue))) := by
    refine .list 984 _ fun v member => ?_
    obtain ⟨ds, frame, rfl⟩ := List.mem_map.mp member
    refine .list 983 _ fun v member => ?_
    obtain ⟨d, device, rfl⟩ := List.mem_map.mp member
    exact Device.readable_toSparseValue (finite ds frame d device)
  have loaded := loadValue_of_save saved
    (Json.carriageReturn_not_mem_write Json.tellsNumbers_recording readable)
    (Json.read_text Json.tellsNumbers_recording readable) .missingRecording
  unfold loadRecording
  rw [loaded, items]
  simp only [bind, Except.bind, framesOfValue?_list]
  rw [List.map_map]
  apply congrArg Except.ok
  apply List.map_congr_left
  intro ds frame
  exact ofItemsFrom_toSparseValue (finite ds frame) 0

/-- A frame without devices, and one whose devices share a name that has to be escaped. One of them
has a negative zero, the least and a very large double in it, the other knows nothing. -/
def roughRecording : List (List Device) :=
  [[], [⟨"say \"hi\"\\\n\x07\t😀", true, some ⟨-0, 5e-324, 1.7e308⟩, none, some "é"⟩,
    ⟨"say \"hi\"\\\n\x07\t😀", false, none, none, none⟩]]

def staleTree (folder name : String) : Tree :=
  ⟨"/srv", [([folder], .directory), ([folder, name], .file [0xFF])]⟩

theorem staleTree_admits (folder name : String) : (staleTree folder name).Admits folder name where
  folder_no_file bytes := by simp [staleTree, Tree.node?]
  file_no_directory := by simp [staleTree, Tree.node?]

theorem roughRecording_survives_saving :
    (∀ ds ∈ roughRecording, ∀ d ∈ ds, d.IsValidated) ∧ IsFileName "rough.json" ∧
      (staleTree "frames" "rough.json").Admits "frames" "rough.json" ∧
      ∃ t', saveRecording (staleTree "frames" "rough.json") roughRecording "rough.json" =
          (.ok (), t') ∧
        loadRecording t' "rough.json" = .ok (roughRecording.map fun ds => ⟨ds, []⟩) := by
  have finite : ∀ ds ∈ roughRecording, ∀ d ∈ ds, d.IsFinite := by decide +kernel
  have validated : ∀ ds ∈ roughRecording, ∀ d ∈ ds, d.IsValidated :=
    fun ds frame d member => Device.isValidated_iff.mpr (finite ds frame d member)
  have plain : IsFileName "rough.json" := ⟨by decide, by decide, by decide, by decide⟩
  have admits := staleTree_admits "frames" "rough.json"
  have survives :=
    recording_survives_saving (staleTree "frames" "rough.json") validated "rough.json"
  obtain ⟨t', saved⟩ := survives.2 plain admits
  exact ⟨validated, plain, admits, t', saved, survives.1 t' saved⟩

/-- Settings that were saved are loaded as they were, whatever stood in the file before. They can be
saved under every plain name that nothing stands in the way of. -/
theorem settings_survive_saving (t : Tree) {s : Settings} (valid : s.Valid)
    (count_short : (Nat.toDigits 10 s.patternCount).length ≤ digitLimit)
    (top_short : (Nat.toDigits 10 s.isometricTop).length ≤ digitLimit) (name : String) :
    (∀ t', saveSettings t s name = (.ok (), t') → loadSettings t' name = .ok s) ∧
      (IsFileName name → t.Admits "scenarios" name →
        ∃ t', saveSettings t s name = (.ok (), t')) := by
  refine ⟨?_, fun plain admits => save_of_admits (by decide) plain admits _⟩
  intro t' saved
  have readable : Readable Json.depthLimit s.toValue :=
    s.readable_toValue valid count_short top_short
  have loaded := loadValue_of_save saved
    (Json.carriageReturn_not_mem_write Json.tellsNumbers_settings readable)
    (Json.read_text Json.tellsNumbers_settings readable) .missingSettings
  have accepted := Intake.settingsFields_of_entries valid
    fun e member => lookupField_of_mem s.entries_distinct member
  unfold loadSettings
  rw [loaded]
  simp only [bind, Except.bind, settingsOfValue, Settings.toValue, accepted]
  rfl

/-- Settings with texts that have to be escaped, numbers of extreme size and an integer as long as
is read. -/
def roughSettings : Settings where
  name := "tab\t \"quoted\" 🗺 \x00"
  scale := 5e-324
  palette := ["red", " no\u00e9l\\"]
  spriteSize := ""
  patternCount := 10 ^ (digitLimit - 1)
  isometricTop := 0
  playbackInterval := 123456789012345680000

theorem roughSettings_survive_saving :
    roughSettings.Valid ∧
      (Nat.toDigits 10 roughSettings.patternCount).length ≤ digitLimit ∧
      (Nat.toDigits 10 roughSettings.isometricTop).length ≤ digitLimit ∧
      IsFileName "rough.json" ∧
      (staleTree "scenarios" "rough.json").Admits "scenarios" "rough.json" ∧
      ∃ t', saveSettings (staleTree "scenarios" "rough.json") roughSettings "rough.json" =
          (.ok (), t') ∧ loadSettings t' "rough.json" = .ok roughSettings := by
  have valid : roughSettings.Valid := {
    scale_positive := ⟨by decide +kernel, by decide +kernel⟩
    palette_nonempty := by decide
    palette_not_blank := by decide
    patternCount_pos := Nat.one_le_pow _ _ (by decide)
    interval_positive := ⟨by decide, by decide⟩ }
  have count_short : (Nat.toDigits 10 roughSettings.patternCount).length ≤ digitLimit :=
    (Nat.length_toDigits_le_iff (by decide) (by decide)).mpr
      (Nat.pow_lt_pow_right (by decide) (by decide))
  have top_short : (Nat.toDigits 10 roughSettings.isometricTop).length ≤ digitLimit := by decide
  have plain : IsFileName "rough.json" := ⟨by decide, by decide, by decide, by decide⟩
  have admits := staleTree_admits "scenarios" "rough.json"
  have survive := settings_survive_saving (staleTree "scenarios" "rough.json") valid count_short
    top_short "rough.json"
  obtain ⟨t', saved⟩ := survive.2 plain admits
  exact ⟨valid, count_short, top_short, plain, admits, t', saved, survive.1 t' saved⟩

end Library

end FleetMap
