import FleetMap.Proofs.Hub.Wiring
import FleetMap.Proofs.Intake.Device
import FleetMap.Proofs.Projection

set_option autoImplicit false

namespace FleetMap

open Act Hub

/-- Finite, and given back as it is when all its entries are checked again. -/
def Device.IsSound (d : Device) : Prop := d.IsFinite ∧ Intake.device d.toValue = .accepted d

theorem Device.isSound_iff {d : Device} : d.IsSound ↔ d.IsFinite :=
  ⟨And.left, fun bounded => ⟨bounded, device_toValue bounded⟩⟩

instance (d : Device) : Decidable d.IsSound := decidable_of_iff _ Device.isSound_iff.symm

/-- Raw data of any kind, or a device that came of raw data. -/
def Item.IsValidated : Item → Prop
  | .raw _ => True
  | .device d => d.IsValidated

/-- What holds of all entries of an array; other data has no entries of its own. -/
def Feed.All {α : Type} (P : α → Prop) : Feed α → Prop
  | .entries items => ∀ item ∈ items, P item
  | .other _ => True

def Payload.IsValidated (payload : Payload) : Prop := payload.All Item.IsValidated

def Recording.IsValidated (recording : Recording) : Prop := recording.All Payload.IsValidated

def Command.IsValidated : Command → Prop
  | .update payload => payload.IsValidated
  | .notify (some items) | .tell _ items => ∀ item ∈ items, item.IsValidated
  | .player recording | .load recording _ => recording.IsValidated
  | _ => True

section Given

theorem Item.isValidated_raw (v : Value) : (Item.raw v).IsValidated := trivial

theorem Item.isFinite_of_check {item : Item} (validated : item.IsValidated) {d : Device}
    (accepted : item.check = .accepted d) : d.IsFinite := by
  cases item with
  | raw v => exact Intake.isFinite_of_device accepted
  | device given =>
    obtain rfl := Checked.accepted.inj accepted
    exact Device.isValidated_iff.mp validated

/-- Of validated items, those that are received are finite devices. -/
theorem Reception.isFinite_of_mem {index : Nat} {items : List Item}
    (validated : ∀ item ∈ items, item.IsValidated) :
    ∀ d ∈ (ofItemsFrom index items).devices, d.IsFinite := by
  induction items generalizing index with
  | nil => exact nofun
  | cons item rest ih =>
    obtain ⟨first, others⟩ := List.forall_mem_cons.mp validated
    unfold ofItemsFrom
    split
    · rename_i d accepted
      have accepted := Checked.conclude_eq_ok.mp accepted
      exact List.forall_mem_cons.mpr ⟨item.isFinite_of_check first accepted, ih others⟩
    · exact ih others

theorem isFinite_of_requireDevices {items : List Item} {ds : List Device}
    (validated : ∀ item ∈ items, item.IsValidated) (accepted : requireDevices items = .ok ds) :
    ∀ d ∈ ds, d.IsFinite := by
  induction items generalizing ds with
  | nil =>
    obtain rfl := Except.ok.inj accepted
    exact nofun
  | cons item rest ih =>
    obtain ⟨first, others⟩ := List.forall_mem_cons.mp validated
    unfold requireDevices at accepted
    cases checked : item.check.conclude .device with
    | error r =>
      rw [checked] at accepted
      exact nomatch accepted
    | ok d =>
      cases required : requireDevices rest with
      | error r =>
        rw [checked, required] at accepted
        exact nomatch accepted
      | ok remaining =>
        rw [checked, required] at accepted
        obtain rfl := Except.ok.inj accepted
        have accepted := Checked.conclude_eq_ok.mp checked
        exact List.forall_mem_cons.mpr
          ⟨item.isFinite_of_check first accepted, ih others required⟩

theorem Feed.All.of_items {α : Type} {P : α → Prop} {feed : Feed α} (all : feed.All P)
    {ofValue : Value → α} (made : ∀ v, P (ofValue v)) {items : List α}
    (read : feed.items ofValue = .ok items) : ∀ item ∈ items, P item := by
  cases feed with
  | entries given =>
    obtain rfl := Except.ok.inj read
    exact all
  | other v =>
    simp only [Feed.items] at read
    split at read
    · obtain rfl := Except.ok.inj read
      intro item member
      obtain ⟨part, _, rfl⟩ := List.mem_map.mp member
      exact made part
    · exact nomatch read

theorem Payload.isFinite_of_parsed {payload : Payload} (validated : payload.IsValidated)
    {ds : List Device} (parsed : payload.parsed = .ok ds) : ∀ d ∈ ds, d.IsFinite := by
  unfold Payload.parsed at parsed
  cases read : payload.items .raw with
  | error kind =>
    rw [read] at parsed
    exact nomatch parsed
  | ok items =>
    rw [read] at parsed
    obtain rfl := Except.ok.inj parsed
    exact Reception.isFinite_of_mem (Feed.All.of_items validated Item.isValidated_raw read)

theorem Payload.isValidated_ofValue (v : Value) : (Payload.ofValue v).IsValidated := by
  cases v with
  | list items =>
    intro item member
    obtain ⟨part, _, rfl⟩ := List.mem_map.mp member
    trivial
  | _ => trivial

theorem Player.isValidated_framesOf {recording : Recording} (validated : recording.IsValidated)
    {frames : List Payload} (read : Player.framesOf recording = .ok frames) :
    ∀ frame ∈ frames, frame.IsValidated := by
  unfold framesOf at read
  split at read
  · obtain rfl := Except.ok.inj read
    exact nofun
  · exact Feed.All.of_items validated Payload.isValidated_ofValue read

end Given

section Patch

variable (changes : List (String × Value))

/-- The device is still accepted after the changes. -/
def Device.AcceptsPatch (d : Device) : Prop :=
  ∃ patched, Intake.device (.object (Registry.patchedEntries d changes)) = .accepted patched

variable (name : String)

/-- A patch touches the first device of the name alone. If there is none, or if what the patch makes
of it is not accepted, nothing is stored. -/
theorem Registry.patch_cases (ds : List Device) :
    (∃ before d after patched, ds = before ++ d :: after ∧ d.name = name ∧
      (∀ other ∈ before, other.name ≠ name) ∧
      Intake.device (.object (patchedEntries d changes)) = .accepted patched ∧
      patch name changes ds = .stored (before ++ patched :: after)) ∨
    (∀ d, ds.find? (·.name = name) = some d → ¬ d.AcceptsPatch changes) ∧
      ∀ stored, patch name changes ds ≠ .stored stored := by
  induction ds with
  | nil => exact .inr ⟨by simp, by simp [patch]⟩
  | cons d rest ih =>
    by_cases named : d.name = name
    · cases checked : Intake.device (.object (patchedEntries d changes)) with
      | accepted patched =>
        left
        refine ⟨[], d, rest, patched, rfl, named, by simp, checked, ?_⟩
        simp only [patch, named, if_true, checked, Checked.conclude, List.nil_append]
      | faulty first others =>
        right
        constructor
        · intro found same accepts
          rw [List.find?_cons_of_pos (by simpa using named)] at same
          obtain rfl := Option.some.inj same
          obtain ⟨patched, accepted⟩ := accepts
          simp [checked] at accepted
        · simp [patch, named, checked, Checked.conclude]
    · rcases ih with ⟨before, found, after, patched, rfl, same, apart, accepted, stored⟩ | ⟨refused,
        unstored⟩
      · left
        refine ⟨d :: before, found, after, patched, rfl, same, ?_, accepted, ?_⟩
        · exact List.forall_mem_cons.mpr ⟨named, apart⟩
        · simp only [patch, named, if_false, stored, List.cons_append]
      · right
        constructor
        · rw [List.find?_cons_of_neg (by simpa using named)]
          exact refused
        · cases patched : patch name changes rest with
          | stored others => exact absurd patched (unstored others)
          | unmatched | rejected => simp [patch, named, patched]

theorem Registry.isFinite_of_patch {ds stored : List Device} (bounded : ∀ d ∈ ds, d.IsFinite)
    (patched : patch name changes ds = .stored stored) : ∀ d ∈ stored, d.IsFinite := by
  rcases patch_cases changes name ds with
    ⟨before, d, after, found, rfl, _, _, accepted, same⟩ | ⟨_, unstored⟩
  · rw [same] at patched
    obtain rfl := Patched.stored.inj patched
    simp only [List.forall_mem_append, List.forall_mem_cons] at bounded ⊢
    exact ⟨bounded.1, Intake.isFinite_of_device accepted, bounded.2.2⟩
  · exact absurd patched (unstored stored)

variable {name} in
/-- The first device of a name is the one that no other of that name stands before. -/
theorem Registry.find?_named {before after : List Device} {d : Device} (named : d.name = name)
    (apart : ∀ other ∈ before, other.name ≠ name) :
    (before ++ d :: after).find? (·.name = name) = some d := by
  rw [List.find?_append, List.find?_eq_none.mpr (by simpa using apart),
    List.find?_cons_of_pos (by simpa using named)]
  rfl

/-- Changes without a reserved key are not refused for one. -/
theorem Hub.reserved_eq_none
    (unreserved : ∀ key ∈ ["name", "self"], lookupField key changes = none) :
    (["name", "self"].find? fun key => (lookupField key changes).isSome) = none := by
  rw [List.find?_eq_none]
  intro key member
  rw [unreserved key member]
  simp

/-- A patch to a device that is not there, or that is not accepted after it, is noted and nothing
else happens. -/
theorem Hub.run_updateDevice_refused (fire : Fire) (w : World)
    (unreserved : ∀ key ∈ ["name", "self"], lookupField key changes = none)
    (refused : ∀ d, w.registry.devices.find? (·.name = name) = some d →
      ¬ d.AcceptsPatch changes) :
    ∃ note, (updateDevice fire name changes).run w = .ok false (w.enter (.noted note)) := by
  unfold updateDevice
  simp only [reserved_eq_none changes unreserved, EStateM.run_bind, EStateM.run_get]
  rcases Registry.patch_cases changes name w.registry.devices with
    ⟨before, d, after, patched, split, named, apart, accepted, _⟩ | ⟨_, unstored⟩
  · have found : w.registry.devices.find? (·.name = name) = some d := by
      rw [split, Registry.find?_named named apart]
    exact absurd ⟨patched, accepted⟩ (refused d found)
  · cases outcome : Registry.patch name changes w.registry.devices with
    | unmatched => exact ⟨_, rfl⟩
    | rejected r => exact ⟨_, rfl⟩
    | stored ds => exact absurd outcome (unstored ds)

end Patch

/-- The collection that an entry tells was stored or handed to a listener. -/
def Entry.collection? : Entry → Option (List Device)
  | .stored ds | .called _ _ (.notice ds) => some ds
  | _ => none

/-- All collections that were stored or handed out. -/
def World.collections (w : World) : List (List Device) := w.journal.filterMap Entry.collection?

/-- The devices that are stored are sound, and so are all that were ever stored or handed out. -/
structure World.IsSound (w : World) : Prop where
  stored : ∀ d ∈ w.registry.devices, d.IsSound
  collected : ∀ ds ∈ w.collections, ∀ d ∈ ds, d.IsSound

theorem World.isSound_iff {w : World} : w.IsSound ↔
    (∀ d ∈ w.registry.devices, d.IsSound) ∧ ∀ ds ∈ w.collections, ∀ d ∈ ds, d.IsSound :=
  ⟨fun sound => ⟨sound.stored, sound.collected⟩, fun ⟨stored, collected⟩ => ⟨stored, collected⟩⟩

instance (w : World) : Decidable w.IsSound := decidable_of_iff _ World.isSound_iff.symm

/-- A change that brings in finite devices and validated frames only. -/
def Change.IsSound : Change → Prop
  | .store ds | .tell _ ds | .call _ _ (.notice ds) => ∀ d ∈ ds, d.IsFinite
  | .makePlayer frames => ∀ frame ∈ frames, frame.IsValidated
  | .modifyPlayer _ f => ∀ p : Player, (∀ frame ∈ p.frames, frame.IsValidated) →
    ∀ frame ∈ (f p).frames, frame.IsValidated
  | _ => True

/-- The scripts are the given ones, the world is sound and players hold validated frames. -/
def soundness (scripts : List (String × Script)) : Law where
  holds w := w.scripts = scripts ∧ w.IsSound ∧
    ∀ p ∈ w.players, ∀ frame ∈ p.frames, frame.IsValidated
  moves _ _ := True
  breaks := True
  refl _ := trivial
  trans _ _ := trivial

theorem World.IsSound.of_same {w v : World} (sound : w.IsSound)
    (devices : v.registry.devices = w.registry.devices) (same : v.collections = w.collections) :
    v.IsSound := by
  constructor
  · rw [devices]
    exact sound.stored
  · rw [same]
    exact sound.collected

namespace Law

variable {scripts : List (String × Script)}

theorem soundness_change {w : World} {c : Change} (sound : c.IsSound)
    (holds : (soundness scripts).holds w) :
    (soundness scripts).holds (c.apply w) ∧ (soundness scripts).moves w (c.apply w) := by
  refine ⟨?_, trivial⟩
  obtain ⟨same_scripts, sound_w, validated⟩ := holds
  have only : c.OfView → w.OnlyViews (c.apply w) := Change.onlyViews_apply w
  have collect : ∀ ds : List Device, (∀ d ∈ ds, d.IsFinite) →
      ∀ other ∈ ds :: w.collections, ∀ d ∈ other, d.IsSound := by
    intro ds bounded
    rw [List.forall_mem_cons]
    exact ⟨fun d member => Device.isSound_iff.mpr (bounded d member), sound_w.collected⟩
  cases c with
  | activate | deactivate | tell | ask | cycle | toggle =>
    obtain ⟨devices, _, players, kept, _, _, journal⟩ := only trivial
    exact ⟨kept.trans same_scripts,
      sound_w.of_same devices (journal (fun _ => rfl) (fun _ _ => rfl) fun _ => rfl),
      by rwa [players]⟩
  | store ds =>
    have stored := fun d member => Device.isSound_iff.mpr (sound d member)
    exact ⟨same_scripts, ⟨stored, collect ds sound⟩, validated⟩
  | call fanOut who signal =>
    cases signal with
    | notice ds => exact ⟨same_scripts, ⟨sound_w.stored, collect ds sound⟩, validated⟩
    | trigger | scene => exact ⟨same_scripts, sound_w.of_same rfl rfl, validated⟩
  | makePlayer frames =>
    refine ⟨same_scripts, sound_w.of_same rfl rfl, ?_⟩
    intro p member
    rcases List.mem_append.mp member with held | made
    · exact validated p held
    · obtain rfl := List.mem_singleton.mp made
      exact sound
  | modifyPlayer number f =>
    refine ⟨same_scripts, sound_w.of_same rfl rfl, ?_⟩
    intro p member
    obtain ⟨k, found⟩ := List.mem_iff_getElem?.mp member
    change (w.players.modify number f)[k]? = some p at found
    rw [List.getElem?_modify] at found
    obtain ⟨q, held, rfl⟩ := Option.map_eq_some_iff.mp found
    have validated_q := validated q (List.mem_of_getElem? held)
    split
    · exact sound q validated_q
    · exact validated_q
  | register l =>
    exact ⟨same_scripts, sound_w.of_same (Registry.devices_register _ l) rfl, validated⟩
  | _ => exact ⟨same_scripts, sound_w.of_same rfl rfl, validated⟩

theorem fansOut_sound : FansOut Change.IsSound where
  note _ := trivial
  begins := trivial
  called number who signal tells := by
    cases signal with
    | notice ds => exact tells ds rfl 0
    | trigger | scene => trivial
  settled _ _ _ := trivial

theorem soundness_permits : (soundness scripts).Permits Change.IsSound :=
  .of_change soundness_change fansOut_sound

theorem routine_sound : Routine Change.IsSound := by
  apply routine_of_allowed
  intro c routine
  cases c with
  | store | tell | call | makePlayer | modifyPlayer => exact routine.elim
  | _ => trivial

end Law

theorem steering_sound : Steering Change.IsSound where
  modifyPlayer := by
    intro number f same p validated
    rwa [same p]
  setLooping := fun _ => trivial

/-- What a validated command can publish is finite, whichever way it takes. -/
theorem Command.isFinite_of_mayPublish {scripts : List (String × Script)} {c : Command}
    (validated : c.IsValidated) {ds : List Device} (may : c.MayPublish (soundness scripts) ds) :
    ∀ d ∈ ds, d.IsFinite := by
  cases c with
  | update payload => exact Payload.isFinite_of_parsed validated may
  | updateDevice name changes =>
    obtain ⟨w, ⟨_, sound, _⟩, patched⟩ := may
    exact Registry.isFinite_of_patch changes name (fun d member => (sound.stored d member).1)
      patched
  | clear =>
    obtain rfl := may
    exact nofun
  | step | playLoop =>
    obtain ⟨w, p, frame, ⟨_, _, validated_frames⟩, held, listed, parsed⟩ := may
    exact Payload.isFinite_of_parsed (validated_frames p held frame listed) parsed
  | _ => exact may.elim

theorem Command.within_soundness {scripts : List (String × Script)} {c : Command}
    (validated : c.IsValidated) : c.Within (soundness scripts) Change.IsSound := by
  have publishes : ∀ ds, c.MayPublish (soundness scripts) ds →
      Change.IsSound (.store ds) ∧ ∀ number, Change.IsSound (.tell number ds) := by
    intro ds may
    have bounded := isFinite_of_mayPublish validated may
    exact ⟨bounded, fun _ => bounded⟩
  cases c with
  | update | updateDevice | clear | step | playLoop => exact ⟨publishes, steering_sound⟩
  | notify items =>
    cases items with
    | none => exact fun w _ holds d member => (holds.2.1.stored d member).1
    | some items => exact fun ds accepted _ => isFinite_of_requireDevices validated accepted
  | tell id items => exact fun ds accepted _ => isFinite_of_requireDevices validated accepted
  | player recording => exact fun frames read => Player.isValidated_framesOf validated read
  | load recording name =>
    intro frames read number p _
    exact Feed.All.of_items validated Payload.isValidated_ofValue read
  | play | reset => exact steering_sound
  | register | remove | subscribe | unsubscribe => exact fun _ _ _ _ => trivial
  | setSettings | setStance => exact fun _ _ => trivial
  | view => exact fun _ => trivial
  | pause => exact fun number => steering_sound.modifyPlayer number _ fun _ => rfl
  | devices | isRegistered | emit | listenerCount | gesture => trivial

/-- What keeps a device off the map: its position or orientation is not known, or one of its
coordinates is a number but none any more once it is scaled. -/
def Device.IsOffMap (s : Settings) (d : Device) : Prop :=
  d.position = none ∨ d.orientation = none ∨
    ∃ p, d.position = some p ∧
      ∃ x ∈ p.coordinates, x.isFinite = true ∧ (s.scale * x).isFinite = false

theorem Device.isOffMap_iff {s : Settings} {d : Device} (bounded : d.IsFinite) :
    d.IsOffMap s ↔ d.isPlaceable s = false := by
  unfold IsOffMap isPlaceable
  cases position : d.position with
  | none => simp
  | some p =>
    cases orientation : d.orientation with
    | none => simp
    | some o =>
      have coordinates := bounded.1 p position
      have angles := bounded.2 o orientation
      simp only [Position.coordinates, Orientation.angles, List.forall_mem_cons]
        at coordinates angles
      obtain ⟨x, y, z, _⟩ := coordinates
      obtain ⟨yaw, pitch, roll, _⟩ := angles
      simp [Position.coordinates, x, y, z, yaw, pitch, roll, ← Bool.not_eq_true, imp_iff_not_or]

/-- A device is not drawn where it is not described, whatever its color. -/
theorem Device.sprite_eq_error {s : Settings} {d : Device} (index : Int) {m : Misfit} :
    d.sprite s index = .error m ↔ d.describe s = .error m := by
  unfold sprite describe
  cases d.place s with
  | error n => simp [bind, Except.bind]
  | ok p =>
    simp only [bind, Except.bind]
    cases p.describe d.name with
    | error n => simp
    | ok label => exact ⟨nofun, nofun⟩

/-- Where a sound device is not described or not drawn, something keeps it off the map. -/
theorem Device.rejected_iff {s : Settings} (valid : s.Valid) {d : Device} (sound : d.IsSound)
    (index : Int) :
    ((∃ m, d.describe s = .error m) ↔ d.IsOffMap s) ∧
      ((∃ m, d.sprite s index = .error m) ↔ d.IsOffMap s) := by
  have described : (∃ m, d.describe s = .error m) ↔ d.IsOffMap s := by
    rw [isOffMap_iff sound.1]
    rcases (d.sprite_cases valid.palette_nonempty 0).2 with
      ⟨placeable, sprite, _, shows⟩ | ⟨unplaceable, m, undrawn, _⟩
    · simp [placeable, shows.label]
    · simp [unplaceable, (sprite_eq_error _).mp undrawn]
  refine ⟨described, ?_⟩
  simp only [sprite_eq_error, described]

/-- What cannot be walked through is refused before anything is done. -/
theorem Hub.run_update_refused (fire : Fire) (w : World) {v : Value} (whole : v.parts? = none) :
    (update fire (.other v)).run w = .error (.failed (.notIterable v.kind)) w := by
  simp only [update, receive, Feed.items, whole, EStateM.run_bind, run_fail]

theorem soundness_start {initial : Payload} (validated : initial.IsValidated)
    {scripts : List (String × Script)} {w : World} (starts : start initial scripts = .ok w) :
    (soundness scripts).holds w := by
  unfold start at starts
  split at starts
  · obtain rfl := Except.ok.inj starts
    exact ⟨rfl, ⟨nofun, nofun⟩, nofun⟩
  · split at starts
    · exact nomatch starts
    · rename_i items read
      obtain rfl := Except.ok.inj starts
      have given := Feed.All.of_items validated Item.isValidated_raw read
      have bounded : ∀ d ∈ (Reception.ofItems items).devices, d.IsFinite :=
        Reception.isFinite_of_mem given
      exact ⟨rfl, ⟨fun d member => Device.isSound_iff.mpr (bounded d member), nofun⟩, nofun⟩

theorem soundness_binds {scripts : List (String × Script)} {steps : List Command}
    (validated : ∀ c ∈ allCommands scripts steps, c.IsValidated) :
    (soundness scripts).Binds Change.IsSound := by
  intro w name script holds found
  obtain ⟨rfl, _⟩ := holds
  refine ⟨?_, fun _ => trivial⟩
  intro c member
  apply Command.within_soundness
  apply validated
  apply List.mem_append_right
  exact List.mem_flatMap.mpr ⟨(name, script), mem_of_lookupField found, member⟩

/-- In every session in which devices come of raw data, whatever data that is and whatever scripts
do, all devices that are stored or handed out are sound: after each step, and whenever a script is
called. For the latter, let every call of a script, however deeply nested, go another way where they
are not: whatever that way is, it is never taken. So what is stored is kept off the map by missing
geometry or by a coordinate that grows too large alone. An update or a patch that is refused changes
nothing and is told to nobody, in whatever world and by whatever scripts it is tried. -/
theorem registry_keeps_sound_devices {initial : Payload} {scripts : List (String × Script)}
    {steps : List Command} {w : World} (starts : start initial scripts = .ok w)
    (given : initial.IsValidated)
    (validated : ∀ c ∈ allCommands scripts steps, c.IsValidated) :
    (∀ earlier, earlier <+: steps →
      (carryOutAll w earlier).IsSound ∧
        ∀ d ∈ (carryOutAll w earlier).registry.devices, ∀ s : Settings, s.Valid → ∀ index,
          ((∃ m, d.describe s = .error m) ↔ d.IsOffMap s) ∧
            ((∃ m, d.sprite s index = .error m) ↔ d.IsOffMap s)) ∧
      (∀ otherwise, carryOutAllBy (fireWhere World.IsSound otherwise) w steps =
        carryOutAll w steps) ∧
      ∀ (fire : Fire) (now : World),
        (∀ v : Value, v.parts? = none →
          (update fire (.other v)).run now = .error (.failed (.notIterable v.kind)) now) ∧
        ∀ name changes, (∀ key ∈ ["name", "self"], lookupField key changes = none) →
          (∀ d, now.registry.devices.find? (·.name = name) = some d →
            ¬ d.AcceptsPatch changes) →
          ∃ note, (updateDevice fire name changes).run now =
            .ok false (now.enter (.noted note)) := by
  have holds := soundness_start given starts
  have binds := soundness_binds validated
  have within : ∀ c ∈ steps, c.Within (soundness scripts) Change.IsSound :=
    fun c member => Command.within_soundness (validated c (List.mem_append_left _ member))
  refine ⟨?_, ?_, ?_⟩
  · intro earlier before
    have kept := Law.carryOutAll_admits Law.soundness_permits Law.routine_sound binds
      (fun c member => within c (before.subset member)) holds
    obtain ⟨_, sound, _⟩ := kept.1
    exact ⟨sound, fun d stored s valid index => d.rejected_iff valid (sound.stored d stored) index⟩
  · intro otherwise
    exact Law.carryOutAllBy_fireWhere Law.soundness_permits Law.routine_sound binds
      (fun _ holds => holds.2.1) otherwise within holds
  · intro fire now
    exact ⟨fun v whole => run_update_refused fire now whole,
      fun name changes unreserved refused =>
        run_updateDevice_refused changes name fire now unreserved refused⟩

/-- An observer that patches a device twice and publishes a broken payload while it is told of a
collection, and then fails. -/
def meddler : List (String × Script) :=
  [("meddle", ⟨true, 1,
    [.updateDevice "van" [("position", .object [("x", .text "7.5")])],
      .updateDevice "van" [("position", .object [("y", .float (0 / 0))])], .update (.other .null)],
    .raises "boom", none⟩)]

def brokenFrame : Recording :=
  .other (.list [.list [.object [("name", .text "van"), ("position", .object [("z", .int 3)])],
    .object [("name", .text "buoy"), ("position", .object [("x", .float (1 / 0))])]]])

def meddledFleet : List Command :=
  [.register (.named "meddle"), .player brokenFrame, .play, .playLoop,
    .update (.entries [.device ⟨"kite", true, some ⟨1e308, 2, 3⟩, some ⟨90, 0, 0⟩, none⟩,
      .raw (.object [("name", .int 1)])])]

theorem meddledFleet_is_sound :
    let w := { World.empty with scripts := meddler }
    let played := carryOutAll w (meddledFleet.take 4)
    let ended := carryOutAll w meddledFleet
    start (.entries []) meddler = .ok w ∧ Payload.IsValidated (.entries []) ∧
      (∀ c ∈ allCommands meddler meddledFleet, c.IsValidated) ∧
      played.registry.devices = [⟨"van", true, some ⟨7.5, 0, 3⟩, none, none⟩] ∧
      played.IsSound ∧ played.collections.length = 4 ∧ ended.IsSound ∧
      ended.registry.devices.map (·.name) = ["kite"] := by
  intro w played ended
  have starts : start (.entries []) meddler = .ok w := rfl
  have kite : Device.IsValidated ⟨"kite", true, some ⟨1e308, 2, 3⟩, some ⟨90, 0, 0⟩, none⟩ :=
    Device.isValidated_iff.mpr (by decide +kernel)
  have given : Payload.IsValidated (.entries []) := nofun
  have validated : ∀ c ∈ allCommands meddler meddledFleet, c.IsValidated := by
    simp [allCommands, meddler, meddledFleet, Command.IsValidated, Payload.IsValidated,
      Recording.IsValidated, brokenFrame, Feed.All, Item.IsValidated, kite]
  have sound := (registry_keeps_sound_devices starts given validated).1
  exact ⟨starts, given, validated, by decide +kernel,
    (sound _ (List.take_prefix 4 meddledFleet)).1, by decide +kernel,
    (sound _ (List.prefix_refl _)).1, by decide +kernel⟩

end FleetMap
