import FleetMap.Proofs.Replay

set_option autoImplicit false

namespace FleetMap

/-- The device that an item stands for: itself, or what its data are accepted as. -/
def Item.device? : Item → Option Device
  | .device d => some d
  | .raw v => ((Intake.device v).conclude .device).toOption

def Item.rejection? : Item → Option Rejection
  | .device _ => none
  | .raw v =>
    match (Intake.device v).conclude .device with
    | .ok _ => none
    | .error r => some r

theorem Item.check_cases (item : Item) :
    (∃ d, item.check.conclude .device = .ok d ∧ item.device? = some d ∧ item.rejection? = none) ∨
      ∃ r, item.check.conclude .device = .error r ∧ item.device? = none ∧
        item.rejection? = some r := by
  cases item with
  | device d => exact .inl ⟨d, rfl, rfl, rfl⟩
  | raw v =>
    unfold check device? rejection?
    dsimp only
    cases checked : (Intake.device v).conclude .device with
    | ok d => exact .inl ⟨d, rfl, rfl, rfl⟩
    | error r => exact .inr ⟨r, rfl, rfl, rfl⟩

theorem Item.rejection?_eq_some {item : Item} {r : Rejection} : item.rejection? = some r ↔
    ∃ v, item = .raw v ∧ (Intake.device v).conclude .device = .error r := by
  cases item with
  | device d => simp [rejection?]
  | raw v =>
    unfold rejection?
    dsimp only
    cases checked : (Intake.device v).conclude .device with
    | ok d => simp [checked]
    | error r => simp [checked]

namespace Reception

theorem ofItemsFrom_cons (index : Nat) (item : Item) (rest : List Item) :
    ofItemsFrom index (item :: rest) =
      ⟨item.device?.toList ++ (ofItemsFrom (index + 1) rest).devices,
        (item.rejection?.map (index, ·)).toList ++ (ofItemsFrom (index + 1) rest).dropped⟩ := by
  rw [ofItemsFrom]
  rcases item.check_cases with ⟨d, checked, device, kept⟩ | ⟨r, checked, none, dropped⟩
  · rw [checked, device, kept]
    rfl
  · rw [checked, none, dropped]
    rfl

theorem devices_ofItemsFrom (index : Nat) (items : List Item) :
    (ofItemsFrom index items).devices = items.filterMap Item.device? := by
  induction items generalizing index with
  | nil => rfl
  | cons item rest ih =>
    rw [ofItemsFrom_cons, ih]
    cases received : item.device? with
    | none => rw [List.filterMap_cons_none received]; rfl
    | some d => rw [List.filterMap_cons_some received]; rfl

theorem dropped_ofItemsFrom (index : Nat) (items : List Item) :
    (ofItemsFrom index items).dropped =
      (items.zipIdx index).filterMap fun entry => entry.1.rejection?.map (entry.2, ·) := by
  induction items generalizing index with
  | nil => rfl
  | cons item rest ih =>
    rw [ofItemsFrom_cons, ih, List.zipIdx_cons]
    cases refused : item.rejection? with
    | none => rw [List.filterMap_cons_none (by rw [refused]; rfl)]; rfl
    | some r => rw [List.filterMap_cons_some (by rw [refused]; rfl)]; rfl

theorem dropped_sublist (index : Nat) (items : List Item) :
    ((ofItemsFrom index items).dropped.map (·.1)).Sublist (List.range' index items.length) := by
  induction items generalizing index with
  | nil => exact List.Sublist.slnil
  | cons item rest ih =>
    rw [ofItemsFrom_cons, List.length_cons, List.range'_succ]
    cases item.rejection? with
    | none => exact (ih (index + 1)).cons index
    | some r => exact (ih (index + 1)).cons_cons index

theorem ascending_dropped (items : List Item) :
    ((ofItems items).dropped.map (·.1)).Pairwise (· < ·) :=
  (List.pairwise_lt_range' 1).sublist (dropped_sublist 0 items)

theorem mem_dropped {items : List Item} {index : Nat} {r : Rejection} :
    (index, r) ∈ (ofItems items).dropped ↔
      ∃ v, items[index]? = some (.raw v) ∧ (Intake.device v).conclude .device = .error r := by
  rw [ofItems, dropped_ofItemsFrom, List.mem_filterMap]
  constructor
  · rintro ⟨⟨item, place⟩, listed, dropped⟩
    obtain ⟨rejection, refused, same⟩ := Option.map_eq_some_iff.mp dropped
    obtain ⟨rfl, rfl⟩ := Prod.mk.inj same
    obtain ⟨v, rfl, rejected⟩ := Item.rejection?_eq_some.mp refused
    exact ⟨v, List.mem_zipIdx_iff_getElem?.mp listed, rejected⟩
  · rintro ⟨v, found, rejected⟩
    have refused := Item.rejection?_eq_some.mpr ⟨v, rfl, rejected⟩
    exact ⟨(.raw v, index), List.mem_zipIdx_iff_getElem?.mpr found, by rw [refused]; rfl⟩

theorem devices_append (items more : List Item) :
    (ofItems (items ++ more)).devices = (ofItems items).devices ++ (ofItems more).devices := by
  simp only [ofItems, devices_ofItemsFrom, List.filterMap_append]

/-- Devices that are received out of raw data alone are finite. -/
theorem isFinite_of_received {items : List Item} (raw : ∀ item ∈ items, ∃ v, item = .raw v)
    {d : Device} (received : d ∈ (ofItems items).devices) : d.IsFinite := by
  rw [ofItems, devices_ofItemsFrom] at received
  obtain ⟨item, member, device⟩ := List.mem_filterMap.mp received
  obtain ⟨v, rfl⟩ := raw item member
  unfold Item.device? at device
  dsimp only at device
  cases checked : (Intake.device v).conclude .device with
  | error r =>
    rw [checked] at device
    exact nomatch device
  | ok e =>
    rw [checked] at device
    rw [← Option.some.inj device]
    exact Intake.isFinite_of_device (Checked.conclude_eq_ok.mp checked)

end Reception

namespace Library

theorem framesOfValue?_eq_some {v : Value} {frames : List (List Value)} :
    framesOfValue? v = some frames ↔ v = .list (frames.map .list) := by
  constructor
  · intro given
    cases v with
    | list items =>
      unfold framesOfValue? at given
      dsimp only at given
      induction items generalizing frames with
      | nil =>
        rw [← Option.some.inj given]
        rfl
      | cons item rest ih =>
        rw [List.mapM_cons] at given
        cases item with
        | list values =>
          obtain ⟨_, this_one, given⟩ := Option.bind_eq_some_iff.mp given
          obtain ⟨others, found, same⟩ := Option.bind_eq_some_iff.mp given
          rw [← Option.some.inj same, ← Option.some.inj this_one, List.map_cons,
            Value.list.inj (ih found)]
        | _ => exact nomatch given
    | _ => exact nomatch given
  · rintro rfl
    exact framesOfValue?_list frames

/-- A file that holds a list of lists is loaded, list by list. -/
theorem loadRecording_of_lists {t : Tree} {name : String} {p : Path} {bytes : List UInt8}
    (located : t.locate recordingsFolder name = .present p (.file bytes))
    {frames : List (List Value)} (known : valueOfBytes bytes = .ok (.list (frames.map .list))) :
    loadRecording t name = .ok (frames.map fun items => Reception.ofItems (items.map .raw)) := by
  rw [loadRecording_eq located, recordingOfBytes, known]
  simp only [bind, Except.bind, framesOfValue?_list]
  rfl

theorem loadRecording_of_other {t : Tree} {name : String} {p : Path} {bytes : List UInt8}
    (located : t.locate recordingsFolder name = .present p (.file bytes)) {v : Value}
    (known : valueOfBytes bytes = .ok v)
    (other : ∀ frames : List (List Value), v ≠ .list (frames.map .list)) :
    loadRecording t name = .error (.notFrames name) := by
  have none : framesOfValue? v = none := by
    cases given : framesOfValue? v with
    | none => rfl
    | some frames => exact absurd (framesOfValue?_eq_some.mp given) (other frames)
  rw [loadRecording_eq located, recordingOfBytes, known]
  simp only [bind, Except.bind, none]

end Library

/-- Of items are received, in order, the devices and what raw data are accepted as; the indexes of
all others are reported in ascending order, each with the reason. Items that follow are received as
if they came alone. What was received is received again as it is, also out of the entries with which
it is written, if no device was among the items to begin with. Of a recording whose JSON can be read
every frame is received by itself if it is a list of lists, and else it is refused as data. -/
theorem frames_keep_their_valid_records :
    (∀ items more : List Item,
      let r := Reception.ofItems items
      r.devices = items.filterMap Item.device? ∧
      (r.dropped.map (·.1)).Pairwise (· < ·) ∧
      (∀ index rejection, (index, rejection) ∈ r.dropped ↔ ∃ v,
        items[index]? = some (.raw v) ∧ (Intake.device v).conclude .device = .error rejection) ∧
      (Reception.ofItems (items ++ more)).devices =
        r.devices ++ (Reception.ofItems more).devices ∧
      Reception.ofItems (r.devices.map .device) = ⟨r.devices, []⟩ ∧
      ((∀ item ∈ items, ∃ v, item = .raw v) → ∀ dump ∈ [Device.toValue, Device.toSparseValue],
        Reception.ofItems (r.devices.map fun d => .raw (dump d)) = ⟨r.devices, []⟩)) ∧
    ∀ (t : Tree) (name : String) (p : Path) (bytes : List UInt8) (v : Value),
      t.locate Library.recordingsFolder name = .present p (.file bytes) →
      Library.valueOfBytes bytes = .ok v →
      (∀ frames : List (List Value), v = .list (frames.map .list) →
        Library.loadRecording t name =
          .ok (frames.map fun items => Reception.ofItems (items.map .raw))) ∧
      ((∀ frames : List (List Value), v ≠ .list (frames.map .list)) →
        Library.loadRecording t name = .error (.notFrames name) ∧
        (Failure.notFrames name).isDataFault = true) := by
  refine ⟨fun items more => ⟨Reception.devices_ofItemsFrom 0 items,
    Reception.ascending_dropped items, fun _ _ => Reception.mem_dropped,
    Reception.devices_append items more, ?_, ?_⟩, ?_⟩
  · exact Reception.ofItemsFrom_map (fun _ _ => rfl) 0
  · intro raw dump dumps
    apply Reception.ofItemsFrom_map
    intro d received
    have finite := Reception.isFinite_of_received raw received
    apply Item.check_raw
    rcases List.mem_pair.mp dumps with rfl | rfl
    · exact Device.device_toValue finite
    · exact Device.device_toSparseValue finite
  · intro t name p bytes v located known
    constructor
    · rintro frames rfl
      exact Library.loadRecording_of_lists located known
    · exact fun other => ⟨Library.loadRecording_of_other located known other, rfl⟩

def mixedFrames : List (List Value) :=
  [[.object [("name", .text "van")], .int 5], []]

theorem number_in_frame_is_dropped :
    let t := twoRecordings (Utf8.encode (Json.text .line (.list (mixedFrames.map .list)))) [53]
    (∀ dump ∈ [Device.toValue, Device.toSparseValue],
      Reception.ofItems ((Reception.ofItems [.raw (.int 5), .raw (.object [("name", .text "van")])]
        ).devices.map fun d => .raw (dump d)) = ⟨[⟨"van", true, none, none, none⟩], []⟩) ∧
    (∃ r, Library.loadRecording t "a.json" =
      .ok [⟨[⟨"van", true, none, none, none⟩], [(1, r)]⟩, ⟨[], []⟩]) ∧
    Library.loadRecording t "b.json" = .error (.notFrames "b.json") := by
  intro t
  obtain ⟨bulk, files⟩ := frames_keep_their_valid_records
  obtain ⟨first, second⟩ := locate_twoRecordings
    (Utf8.encode (Json.text .line (.list (mixedFrames.map .list)))) [53]
  have loaded := (files t "a.json" _ _ _ first rfl).1 mixedFrames rfl
  have refused := (files t "b.json" _ _ (.int 5) second rfl).2 (by rintro _ ⟨⟩)
  refine ⟨?_, ⟨_, loaded.trans rfl⟩, refused.1⟩
  have again := (bulk [.raw (.int 5), .raw (.object [("name", .text "van")])] []).2.2.2.2.2
  exact again (by simp)

def nest : Nat → Value
  | 0 => .list []
  | n + 1 => .list [nest n]

theorem write_nest (n level : Nat) : Json.write .line level (nest n) =
    List.replicate (n + 1) '[' ++ List.replicate (n + 1) ']' := by
  induction n generalizing level with
  | zero =>
    rw [nest, Json.write]
    rfl
  | succ n ih =>
    have no_break : ∀ level, Json.Style.line.lineBreak level = [] := fun _ => rfl
    rw [nest, Json.write, Json.writeItems, no_break, no_break, ih, List.replicate_succ (n := n + 1),
      List.replicate_succ' (n := n + 1)]
    simp

/-- A frame that is nested too deeply is neither loaded nor refused as data. -/
theorem nested_frame_is_not_loaded :
    let bytes := Utf8.encode (Json.text .line (.list ([[nest 1999]].map .list)))
    (twoRecordings bytes [53]).locate Library.recordingsFolder "a.json" =
        .present ["frames", "a.json"] (.file bytes) ∧
      Library.loadRecording (twoRecordings bytes [53]) "a.json" = .error (.deepJson true) ∧
      (Failure.deepJson true).isDataFault = false := by
  intro bytes
  obtain ⟨located, _⟩ := locate_twoRecordings bytes [53]
  have text : Json.text .line (.list ([[nest 1999]].map .list)) =
      List.replicate (2001 + 1) '[' ++ List.replicate (2001 + 1) ']' := write_nest 2001 1
  refine ⟨located, ?_, rfl⟩
  rw [Library.loadRecording_eq located]
  change Library.recordingOfBytes "a.json" (Utf8.encode _) = _
  rw [text]
  exact Library.recordingOfBytes_encode_nested _ "a.json" (by decide)
    fun member => absurd (List.eq_of_mem_replicate member) (by decide)

end FleetMap
