import FleetMap.Proofs.Dashboard.Touch
import FleetMap.Proofs.Files.Tree
import FleetMap.Proofs.Replay

set_option autoImplicit false

namespace FleetMap

namespace Library

def settingsOfBytes (bytes : List UInt8) : Except Failure Settings := do
  let v ← valueOfBytes bytes
  settingsOfValue v

theorem loadSettings_eq {t : Tree} {name : String} {p : Path} {bytes : List UInt8}
    (located : t.locate settingsFolder name = .present p (.file bytes)) :
    loadSettings t name = settingsOfBytes bytes := by
  unfold loadSettings loadValue
  rw [located]
  rfl

/-- Why bytes are no settings, by the stage at which they fail. -/
inductive SettingsFault (bytes : List UInt8) : Failure → Prop where
  | text {fault : Utf8.Fault} (undecoded : Utf8.decode bytes = .error fault) :
    SettingsFault bytes (.brokenText fault)
  | json {cs : List Char} {fault : Json.Fault} (decoded : textOfBytes bytes = .ok cs)
    (refused : Json.read cs = .error fault) : SettingsFault bytes (fault.toFailure cs)
  | shape {v : Value} (known : valueOfBytes bytes = .ok v) (other : ∀ fields, v ≠ .object fields) :
    SettingsFault bytes (.notMapping v.kind)
  | entries {fields : Intake.Fields} {r : Rejection}
    (known : valueOfBytes bytes = .ok (.object fields))
    (rejected : (Intake.settingsFields fields).conclude .settings = .error r) :
    SettingsFault bytes (.rejected r)

/-- A value fails as settings by its sort or by its entries. -/
theorem settingsFault_of_value {bytes : List UInt8} {v : Value} {f : Failure}
    (known : valueOfBytes bytes = .ok v) (refused : settingsOfValue v = .error f) :
    SettingsFault bytes f := by
  cases v with
  | object fields =>
    obtain ⟨r, rejected, rfl⟩ := mapError_eq_error.mp refused
    exact .entries known rejected
  | _ =>
    rw [← Except.error.inj refused]
    exact .shape known (by simp)

theorem settingsFault_of_error {bytes : List UInt8} {f : Failure}
    (refused : settingsOfBytes bytes = .error f) : SettingsFault bytes f := by
  rcases bind_eq_error.mp refused with unread | ⟨v, known, refused⟩
  · rcases bind_eq_error.mp unread with no_text | ⟨cs, decoded, unread⟩
    · unfold textOfBytes at no_text
      split at no_text
      · exact nomatch no_text
      · rename_i fault undecoded
        rw [← Except.error.inj no_text]
        exact .text undecoded
    · obtain ⟨fault, read, rfl⟩ := mapError_eq_error.mp unread
      exact .json decoded read
  · exact settingsFault_of_value known refused

theorem SettingsFault.refused {bytes : List UInt8} {f : Failure} (fault : SettingsFault bytes f) :
    settingsOfBytes bytes = .error f := by
  unfold settingsOfBytes
  cases fault with
  | text undecoded =>
    unfold valueOfBytes textOfBytes
    rw [undecoded]
    rfl
  | json decoded refused =>
    unfold valueOfBytes
    rw [decoded]
    simp only [bind, Except.bind, refused]
    rfl
  | @shape v known other =>
    rw [known]
    cases v with
    | object fields => exact absurd rfl (other fields)
    | _ => rfl
  | entries known rejected =>
    rw [known]
    change Except.mapError _ _ = _
    rw [rejected]
    rfl

theorem settingsOfBytes_eq_error {bytes : List UInt8} {f : Failure} :
    settingsOfBytes bytes = .error f ↔ SettingsFault bytes f :=
  ⟨settingsFault_of_error, SettingsFault.refused⟩

theorem SettingsFault.isDataFault_eq_false {bytes : List UInt8} {f : Failure}
    (fault : SettingsFault bytes f) : f.isDataFault = false ↔
      (∃ kind, f = .notMapping kind) ∨ ∃ array, f = .deepJson array := by
  cases fault with
  | text | entries | shape => simp [Failure.isDataFault]
  | @json cs fault => cases fault <;> simp [Json.Fault.toFailure, Failure.isDataFault]

/-- A file that is found under a plain name with the right ending is listed. -/
theorem mem_settingsNames {t : Tree} {name : String} (plain : IsFileName name)
    (ending : isJsonName name = true) {p : Path} {bytes : List UInt8}
    (located : t.locate settingsFolder name = .present p (.file bytes)) :
    name ∈ settingsNames t := by
  have named : "scenarios" ≠ ".." := by decide
  obtain ⟨folder, file⟩ := Tree.node?_of_locate_file named plain located
  have listed :
      t.locate [] ("/".intercalate settingsFolder) = .present ["scenarios"] .directory := by
    have steps : Tree.steps "scenarios" = ["scenarios"] := by decide
    change t.locate [] "scenarios" = _
    unfold Tree.locate
    rw [if_neg (by decide +kernel), steps]
    simp only [List.nil_append, Tree.walk, named, if_false, folder]
  unfold settingsNames list
  rw [listed]
  dsimp only
  rw [List.mem_mergeSort, List.mem_filter]
  exact ⟨Tree.mem_entries_of_node? file, ending⟩

end Library

namespace Replay

def HasDefault (t : Tree) (bytes : List UInt8) : Prop :=
  ∃ p, t.locate Library.settingsFolder defaultName = .present p (.file bytes)

section Default

variable {t : Tree} {bytes : List UInt8} (there : HasDefault t bytes)

include there

theorem defaultName_mem : defaultName ∈ Library.settingsNames t := by
  obtain ⟨p, located⟩ := there
  exact Library.mem_settingsNames ⟨by decide, by decide, by decide, by decide⟩ (by decide +kernel)
    located

theorem loadSettings_default :
    Library.loadSettings t defaultName = Library.settingsOfBytes bytes := by
  obtain ⟨p, located⟩ := there
  exact Library.loadSettings_eq located

theorem uses_of_settingsOfBytes {s : Settings} (known : Library.settingsOfBytes bytes = .ok s) :
    Uses t s := by
  unfold Uses
  rw [if_pos (defaultName_mem there), loadSettings_default there, known]

/-- Default settings that are not accepted are reported, and nothing is replayed. -/
theorem all_of_rejected {r : Rejection}
    (rejected : Library.settingsOfBytes bytes = .error (.rejected r)) :
    all t = ⟨ofLines ["Invalid map config: " ++ r.report], [], .ok 1⟩ := by
  unfold all
  rw [if_pos (defaultName_mem there), loadSettings_default there, rejected]

/-- A file that is no record at all ends the replay with the failure itself. -/
theorem all_of_refused {f : Failure} (refused : Library.settingsOfBytes bytes = .error f)
    (other : ∀ r, f ≠ .rejected r) : all t = ⟨"", [], .error f⟩ := by
  unfold all
  rw [if_pos (defaultName_mem there), loadSettings_default there, refused]
  cases f with
  | rejected r => exact absurd rfl (other r)
  | _ => rfl

end Default

end Replay

namespace Dashboard

/-- A file with the bytes is chosen in the settings form that does not show it. -/
structure Picks (d : Dashboard) (id name : String) (form : SettingsForm) (bytes : List UInt8) :
    Prop where
  widget : d.widget id = .ok (.settings form)
  other : form.picker.shown ≠ some name
  named : name ≠ ""
  located : ∃ p, d.files.locate Library.settingsFolder name = .present p (.file bytes)

section Form

variable {d : Dashboard} {id name : String} {form : SettingsForm} {bytes : List UInt8}
  (picks : d.Picks id name form bytes)

include picks

theorem choose_eq_chooseSettings : d.choose id name = d.chooseSettings id name form := by
  unfold choose
  rw [picks.widget]
  simp only [bind, Except.bind]
  rw [if_neg picks.other]

theorem loadSettings_picked :
    Library.loadSettings d.files name = Library.settingsOfBytes bytes := by
  obtain ⟨p, located⟩ := picks.located
  exact Library.loadSettings_eq located

theorem choose_of_ok {s : Settings} (known : Library.settingsOfBytes bytes = .ok s) :
    ∃ picker, picker.behind = some name ∧ d.choose id name =
      .ok ({ d with draft := d.draft.load s }.setWidget id
        (.settings { form with picker := picker, alert := none })) := by
  refine ⟨(form.picker.enter (some name)).follow (some name), Follower.behind_follow _ _, ?_⟩
  rw [choose_eq_chooseSettings picks, chooseSettings, if_neg picks.named,
    loadSettings_picked picks, known]

/-- A failure that is contained is shown, and nothing else changes. -/
theorem choose_of_error {f : Failure} (refused : Library.settingsOfBytes bytes = .error f)
    (data : f.isDataFault = true) :
    ∃ picker, picker.behind = form.picker.behind ∧ d.choose id name =
      .ok (d.setWidget id (.settings { form with picker := picker, alert := some f.message })) := by
  have shown : contained f = .ok f.message := by rw [contained, data]; rfl
  refine ⟨form.picker.enter (some name), rfl, ?_⟩
  rw [choose_eq_chooseSettings picks, chooseSettings, if_neg picks.named,
    loadSettings_picked picks, refused]
  dsimp only
  rw [shown]
  rfl

theorem choose_of_uncontained {f : Failure} (refused : Library.settingsOfBytes bytes = .error f)
    (other : f.isDataFault = false) : d.choose id name = .error f := by
  have there : f.isMissingFile = false := by
    rcases (Library.settingsFault_of_error refused).isDataFault_eq_false.mp other with
      ⟨kind, rfl⟩ | ⟨array, rfl⟩
    · rfl
    · rfl
  have thrown : contained f = .error f := by rw [contained, other, there]; rfl
  rw [choose_eq_chooseSettings picks, chooseSettings, if_neg picks.named,
    loadSettings_picked picks, refused]
  dsimp only
  rw [thrown]
  rfl

end Form

end Dashboard

/-- Bytes on file are settings, or they fail at one of four stages. As default settings they are
used if they are settings, and otherwise the replay ends: with a line and status one if they are a
record that is not accepted, with the failure itself in all other cases. In the settings form all
entries of settings are loaded, they are in effect then, and no message is left; a failure that lies
in the data is shown, while the draft, the hub, the files and the file that is selected stay; and
what remains, data that is no record or nested too deeply, ends the command with the failure. -/
theorem settings_files_are_taken_or_reported (bytes : List UInt8) :
    (∀ f, Library.settingsOfBytes bytes = .error f ↔ Library.SettingsFault bytes f) ∧
    (∀ t, Replay.HasDefault t bytes →
      (∀ s, Library.settingsOfBytes bytes = .ok s → Replay.Uses t s) ∧
      (∀ r, Library.settingsOfBytes bytes = .error (.rejected r) →
        Replay.all t = ⟨Replay.ofLines ["Invalid map config: " ++ r.report], [], .ok 1⟩) ∧
      ∀ f, Library.settingsOfBytes bytes = .error f → (∀ r, f ≠ .rejected r) →
        Replay.all t = ⟨"", [], .error f⟩) ∧
    ∀ (d : Dashboard) (id name : String) (form : SettingsForm), d.Picks id name form bytes →
      (∀ s, Library.settingsOfBytes bytes = .ok s → ∃ picker,
        picker.behind = some name ∧
        d.carryOut (.choose id name) =
          .ok (.nothing, { d with draft := d.draft.load s }.setWidget id
            (.settings { form with picker := picker, alert := none })) ∧
        (∀ e ∈ s.entries, lookupField e.1 (d.draft.load s).entries = some e.2) ∧
        (d.draft.load s).lastValid = s ∧ (d.draft.load s).settle.1 = s) ∧
      (∀ f, Library.settingsOfBytes bytes = .error f → f.isDataFault = true → ∃ picker,
        picker.behind = form.picker.behind ∧
        d.carryOut (.choose id name) = .ok (.nothing, d.setWidget id
          (.settings { form with picker := picker, alert := some f.message }))) ∧
      ∀ f, Library.settingsOfBytes bytes = .error f → f.isDataFault = false →
        d.carryOut (.choose id name) = .error f ∧
        ((∃ kind, f = .notMapping kind) ∨ ∃ array, f = .deepJson array) := by
  refine ⟨fun f => Library.settingsOfBytes_eq_error, fun t there => ?_,
    fun d id name form picks => ?_⟩
  · exact ⟨fun s => Replay.uses_of_settingsOfBytes there, fun r => Replay.all_of_rejected there,
      fun f => Replay.all_of_refused there⟩
  refine ⟨fun s known => ?_, fun f refused data => ?_, fun f refused other => ?_⟩
  · obtain ⟨picker, behind, chosen⟩ := Dashboard.choose_of_ok picks known
    obtain ⟨p, located⟩ := picks.located
    have valid : s.Valid :=
      Library.valid_of_loadSettings ((Library.loadSettings_eq located).trans known)
    refine ⟨picker, behind, ?_, fun e => d.draft.lookupField_load valid, rfl, ?_⟩
    · rw [Dashboard.carryOut, chosen]
      rfl
    · rw [Draft.settle_of_valid _ (d.draft.check_load valid)]
  · obtain ⟨picker, behind, chosen⟩ := Dashboard.choose_of_error picks refused data
    refine ⟨picker, behind, ?_⟩
    rw [Dashboard.carryOut, chosen]
    rfl
  · refine ⟨?_, (Library.settingsFault_of_error refused).isDataFault_eq_false.mp other⟩
    rw [Dashboard.carryOut, Dashboard.choose_of_uncontained picks refused other]
    rfl

def onlyDefault (bytes : List UInt8) : Tree :=
  ⟨".", [(["scenarios"], .directory), (["scenarios", "default.json"], .file bytes)]⟩

def formOver (bytes : List UInt8) : Dashboard :=
  { Dashboard.start (onlyDefault bytes) with
    widgets := [("form", .settings ⟨["default.json"], .ofValue none, none, []⟩)] }

theorem locate_onlyDefault (bytes : List UInt8) :
    (onlyDefault bytes).locate Library.settingsFolder Replay.defaultName =
      .present ["scenarios", "default.json"] (.file bytes) := by cbv

theorem picks_formOver (bytes : List UInt8) : (formOver bytes).Picks "form" "default.json"
    ⟨["default.json"], .ofValue none, none, []⟩ bytes where
  widget := rfl
  other := by decide
  named := by decide
  located := ⟨_, locate_onlyDefault bytes⟩

def numberedSettings : List UInt8 := [123, 34, 110, 97, 109, 101, 34, 58, 49, 125]

theorem numbered_settings_are_reported : ∃ r,
    Library.settingsOfBytes numberedSettings = .error (.rejected r) ∧
    Replay.HasDefault (onlyDefault numberedSettings) numberedSettings ∧
    Replay.all (onlyDefault numberedSettings) =
      ⟨Replay.ofLines ["Invalid map config: " ++ r.report], [], .ok 1⟩ ∧
    (formOver numberedSettings).Picks "form" "default.json"
      ⟨["default.json"], .ofValue none, none, []⟩ numberedSettings ∧
    ∃ picker, picker.behind = none ∧
      (formOver numberedSettings).carryOut (.choose "form" "default.json") =
        .ok (.nothing, (formOver numberedSettings).setWidget "form"
          (.settings ⟨["default.json"], picker, some r.report, []⟩)) := by
  obtain ⟨r, rejected⟩ : ∃ r, Library.settingsOfBytes numberedSettings = .error (.rejected r) :=
    ⟨_, rfl⟩
  have there : Replay.HasDefault (onlyDefault numberedSettings) numberedSettings :=
    ⟨_, locate_onlyDefault numberedSettings⟩
  have picks := picks_formOver numberedSettings
  obtain ⟨_, replay, form⟩ := settings_files_are_taken_or_reported numberedSettings
  exact ⟨r, rejected, there, (replay _ there).2.1 r rejected, picks,
    (form _ _ _ _ picks).2.1 _ rejected rfl⟩

/-- Neither an opening brace alone nor a byte that begins no character is reported by a replay, and
a list in place of a record is not even reported in the form. -/
theorem failures_pass_through :
    Replay.all (onlyDefault [123]) = ⟨"", [], .error (.brokenJson .name 1 2 1)⟩ ∧
    Replay.all (onlyDefault [255]) = ⟨"", [], .error (.brokenText ⟨0, 255, 1, .start⟩)⟩ ∧
    Replay.all (onlyDefault [91, 49, 93]) = ⟨"", [], .error (.notMapping .list)⟩ ∧
    (formOver [91, 49, 93]).carryOut (.choose "form" "default.json") =
      .error (.notMapping .list) := by
  have there : ∀ bytes, Replay.HasDefault (onlyDefault bytes) bytes :=
    fun bytes => ⟨_, locate_onlyDefault bytes⟩
  refine ⟨Replay.all_of_refused (there _) rfl nofun, Replay.all_of_refused (there _) rfl nofun,
    Replay.all_of_refused (there _) rfl nofun, ?_⟩
  rw [Dashboard.carryOut, Dashboard.choose_of_uncontained (picks_formOver _) rfl rfl]
  rfl

end FleetMap
