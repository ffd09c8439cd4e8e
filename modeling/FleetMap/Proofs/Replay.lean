import FleetMap.Proofs.Files.Library
import FleetMap.Proofs.Hub.Freshness
import FleetMap.Proofs.Hub.Listening
import FleetMap.Proofs.Projection
import FleetMap.Replay

set_option autoImplicit false

namespace FleetMap

open Act Hub

namespace Library

def recordingOfBytes (name : String) (bytes : List UInt8) : Except Failure (List Reception) := do
  let v ← valueOfBytes bytes
  match framesOfValue? v with
  | some frames => return frames.map fun items => Reception.ofItems (items.map .raw)
  | none => .error (.notFrames name)

theorem loadRecording_eq {t : Tree} {name : String} {p : Path} {bytes : List UInt8}
    (located : t.locate recordingsFolder name = .present p (.file bytes)) :
    loadRecording t name = recordingOfBytes name bytes := by
  unfold loadRecording loadValue
  rw [located]
  rfl

/-- Bytes of a recording are at fault as data, unless they are nested too deeply to be read. -/
theorem fault_of_recordingOfBytes {name : String} {bytes : List UInt8} {f : Failure}
    (refused : recordingOfBytes name bytes = .error f) :
    f.isDataFault = true ∨ ∃ array, f = .deepJson array := by
  unfold recordingOfBytes valueOfBytes textOfBytes at refused
  cases decoded : Utf8.decode bytes with
  | error fault =>
    rw [decoded] at refused
    rw [← Except.error.inj refused]
    exact .inl rfl
  | ok cs =>
    rw [decoded] at refused
    simp only [bind, Except.bind] at refused
    cases read : Json.read (unifyLineEnds cs) with
    | error fault =>
      rw [read] at refused
      rw [← Except.error.inj refused]
      cases fault with
      | broken complaint rest => exact .inl rfl
      | tooLong digits => exact .inl rfl
      | tooDeep array => exact .inr ⟨array, rfl⟩
    | ok v =>
      rw [read] at refused
      simp only [Except.mapError] at refused
      split at refused
      · exact nomatch refused
      · rw [← Except.error.inj refused]
        exact .inl rfl

end Library

section Nested

variable {n : Nat} (rest : List Char)

/-- More opening brackets than are read are refused, whatever follows them. -/
theorem Json.readValue_nested {depth : Nat} (deep : depth ≤ n) :
    readValue depth (List.replicate (n + 1) '[' ++ rest) = .error (.tooDeep true) := by
  induction depth generalizing n with
  | zero => rfl
  | succ depth ih =>
    obtain ⟨m, rfl⟩ : ∃ m, n = m + 1 := ⟨n - 1, by omega⟩
    have refused := ih (Nat.le_of_succ_le_succ deep)
    generalize more : List.replicate (m + 1) '[' ++ rest = inner at refused
    have opened : readValue (depth + 1) (List.replicate (m + 1 + 1) '[' ++ rest) =
        (readItems (readValue depth) (inner.length + 1) inner).map
          fun found => (.list found.1, found.2) := by
      rw [← more]
      rfl
    rw [opened, readItems, refused]
    rfl

theorem Json.read_nested (deep : depthLimit ≤ n) :
    read (List.replicate (n + 1) '[' ++ rest) = .error (.tooDeep true) := by
  have no_space : skipSpace (List.replicate (n + 1) '[' ++ rest) =
      List.replicate (n + 1) '[' ++ rest := rfl
  have no_mark : (List.replicate (n + 1) '[' ++ rest).head? ≠ some '\uFEFF' := by
    rw [List.replicate_succ, List.cons_append, List.head?_cons]
    decide
  rw [read, if_neg no_mark, no_space, readValue_nested rest deep]
  rfl

theorem Library.recordingOfBytes_encode_nested (name : String) (deep : Json.depthLimit ≤ n)
    (no_return : '\r' ∉ rest) :
    recordingOfBytes name (Utf8.encode (List.replicate (n + 1) '[' ++ rest)) =
      .error (.deepJson true) := by
  have plain : '\r' ∉ List.replicate (n + 1) '[' ++ rest := by
    rw [List.mem_append, List.mem_replicate, not_or]
    exact ⟨fun member => absurd member.2 (by decide), no_return⟩
  unfold recordingOfBytes valueOfBytes
  simp only [textOfBytes_encode plain, bind, Except.bind, Json.read_nested rest deep]
  rfl

end Nested

theorem Library.recordingOfBytes_nested (name : String) {n : Nat} (deep : Json.depthLimit ≤ n) :
    recordingOfBytes name (List.replicate (n + 1) 91) = .error (.deepJson true) := by
  have brackets : Utf8.encode (List.replicate (n + 1) '[' ++ []) = List.replicate (n + 1) 91 := by
    rw [List.append_nil, Utf8.encode, List.flatMap_replicate]
    exact List.flatten_replicate_singleton
  rw [← brackets]
  exact recordingOfBytes_encode_nested [] name deep List.not_mem_nil

namespace Replay

def frameLines (s : Settings) (number : Nat) (ds : List Device) : List String :=
  ("Frame " ++ decimalOfInt number ++ ":") :: sceneLines (initialScene s ds)

/-- What is printed of frames, the first of which has the number after `k`. -/
def framesLines (s : Settings) (k : Nat) : List (List Device) → List String
  | [] => []
  | ds :: rest => frameLines s (k + 1) ds ++ framesLines s (k + 1) rest

/-- The scenes of the same devices look the same in print. -/
theorem sceneLines_of_same (s : Settings) {ds es : List Device}
    (same : sameList Device.same ds es = true) :
    sceneLines (initialScene s ds) = sceneLines (initialScene s es) := by
  have same_sprites := Projection.same_sprites s same 0
  have lines := map_eq_of_sameList
    (f := fun sprite => "    " ++ padded 7 sprite.color ++ " " ++ sprite.label)
    (fun same_sprite => by
      obtain ⟨_, color, label⟩ := Sprite.texts_of_same same_sprite
      rw [color, label]) same_sprites
  have length := (sameList_iff.mp same_sprites).length_eq
  have skipped := Projection.same_skipped s same 0
  unfold sceneLines initialScene projectSprites projectMisfits Projection.attempts
  simp only [length, lines, skipped]

/-- The hub of a replay: its one view is active and alone in the registry, and the player stands at
a frame. -/
structure Shows (s : Settings) (frames : List Payload) (w : World) (k : Nat) : Prop where
  observers : w.registry.observers = [.view 0]
  view : ∃ v, w.views[0]? = some v ∧ v.active = true ∧ v.hook = none ∧ v.settings = s ∧
    v.stance = .initial
  player : w.players[0]? = some ⟨frames, k, false, none⟩

def Holds (ds : List Device) (w : World) : Prop :=
  ∃ v, w.views[0]? = some v ∧ sameList Device.same v.devices ds = true

section Shown

variable {s : Settings} {frames : List Payload} {w : World} {k : Nat}

theorem Shows.of_same (shows : Shows s frames w k) {v : World}
    (observers : v.registry.observers = w.registry.observers) (views : v.views = w.views)
    (players : v.players = w.players) : Shows s frames v k := by
  obtain ⟨alone, view, player⟩ := shows
  rw [← observers] at alone
  rw [← views] at view
  rw [← players] at player
  exact ⟨alone, view, player⟩

theorem run_callHook {v : View} (found : w.views[0]? = some v) (unhooked : v.hook = none) :
    (callHook noScripts 0).run w = .ok () w := by
  simp only [callHook, EStateM.run_bind, run_view?, found, unhooked]
  rfl

/-- A collection that is delivered is held by the view then, or a collection that is the same. -/
theorem run_deliver (shows : Shows s frames w k) (ds : List Device) :
    ∃ u, (deliver noScripts ds (.view 0)).run w = .ok () u ∧ Shows s frames u k ∧ Holds ds u := by
  obtain ⟨alone, ⟨v, found, active, unhooked, settings, stance⟩, player⟩ := shows
  have is_active : w.isActive 0 = true := by
    rw [World.isActive, found]
    exact active
  have told : (Change.tell 0 ds).apply w = (w.modifyView 0 (·.tell ds)).asked 0 := if_pos is_active
  have views : ((Change.tell 0 ds).apply w).views[0]? =
      some { v.tell ds with revision := v.revision + 1 } := by
    rw [told, World.views_asked, World.modifyView, List.modify_modify_eq, List.getElem?_modify_eq,
      found]
    rfl
  refine ⟨(Change.tell 0 ds).apply w, ?_, ⟨?_, ⟨_, views, active, unhooked, settings, stance⟩, ?_⟩,
    _, views, v.holds_tell ds⟩
  · change (tellView noScripts 0 ds).run w = _
    rw [run_tellView, if_pos is_active]
    simp only [EStateM.run_bind, run_make]
    exact run_callHook views unhooked
  · rw [told, World.registry_asked]
    exact alone
  · rw [(Change.onlyViews_apply w (c := .tell 0 ds) trivial).players]
    exact player

theorem run_notify (shows : Shows s frames w k) :
    ∃ count u, (notify noScripts none).run w = .ok count u ∧ Shows s frames u k ∧
      Holds w.registry.devices u := by
  let called := ({ w with fanOuts := w.fanOuts + 1 } : World).enter
    (.called w.fanOuts (.view 0) (.notice w.registry.devices))
  have shows_called : Shows s frames called k := shows.of_same rfl rfl rfl
  obtain ⟨u, delivered, shows_u, holds⟩ := run_deliver shows_called w.registry.devices
  refine ⟨1, u.enter (.settled w.fanOuts (.view 0) true), ?_, shows_u.of_same rfl rfl rfl, holds⟩
  have run_served : (serve w.fanOuts (.notice w.registry.devices)
      (deliver noScripts w.registry.devices) (observerComplaint w) [.view 0]).run
        { w with fanOuts := w.fanOuts + 1 } =
      .ok 1 (u.enter (.settled w.fanOuts (.view 0) true)) := by
    have attempted : (attempt (deliver noScripts w.registry.devices (.view 0))).run called =
        .ok (.ok ()) u := by rw [run_attempt, delivered]
    simp only [serve, EStateM.run_bind, run_enter]
    rw [attempted]
    rfl
  rw [← run_served, ← shows.observers]
  rfl

theorem parsed_devices (ds : List Device) :
    Payload.parsed (.entries (ds.map .device)) = .ok ds := by
  have received : Reception.ofItems (ds.map .device) = ⟨ds, []⟩ :=
    Reception.ofItemsFrom_map (fun _ _ => rfl) 0
  exact congrArg (fun r => Except.ok r.devices) received

theorem run_stepPlayer (shows : Shows s frames w k) {ds : List Device}
    (next : frames[k]? = some (.entries (ds.map .device))) :
    ∃ u, (stepPlayer noScripts 0).run w = .ok true u ∧ Shows s frames u (k + 1) ∧ Holds ds u := by
  obtain ⟨notes, received⟩ := run_receive w (parsed_devices ds)
  rw [World.foldl_noted] at received
  let stored := (Change.store ds).apply
    { w with journal := (notes.map fun n => Entry.noted n).reverse ++ w.journal }
  have shows_stored : Shows s frames stored k := shows.of_same rfl rfl rfl
  obtain ⟨count, u, delivered, shows_u, holds⟩ := run_notify shows_stored
  have updated : (update noScripts (.entries (ds.map .device))).run w = .ok count u := by
    rw [← delivered]
    exact run_update_of_receive noScripts w received
  refine ⟨u.modifyPlayer 0 fun q => { q with index := k + 1 }, ?_, ?_, holds⟩
  · simp only [stepPlayer, EStateM.run_bind, run_player?, shows.player, next, run_discard, updated,
      run_modifyPlayer, EStateM.run_pure]
  · obtain ⟨observers, view, player⟩ := shows_u
    refine ⟨observers, view, ?_⟩
    change (u.players.modify 0 _)[0]? = _
    rw [List.getElem?_modify_eq, player]
    rfl

theorem run_stepPlayer_none (shows : Shows s frames w k) (ended : frames[k]? = none) :
    (stepPlayer noScripts 0).run w = .ok false w := by
  simp only [stepPlayer, EStateM.run_bind, run_player?, shows.player, ended]
  rfl

/-- A view that holds a frame shows its projection, to the eye of a reader. -/
theorem run_render (shows : Shows s frames w k) {ds : List Device} (holds : Holds ds w) :
    ∃ scene u, (render 0).run w = .ok scene u ∧ Shows s frames u k ∧
      sceneLines scene = sceneLines (initialScene s ds) := by
  obtain ⟨v, found, active, unhooked, rfl, stance⟩ := shows.view
  obtain ⟨x, found_x, same⟩ := holds
  obtain rfl : v = x := Option.some.inj (found.symm.trans found_x)
  have drawn : v.scene = some (initialScene v.settings v.devices) := by
    unfold View.scene
    rw [stance]
    exact project_initial v.settings v.devices
  let misfits := projectMisfits v.settings v.devices
  refine ⟨initialScene v.settings v.devices, { w with
    journal := (misfits.map fun m => Entry.noted m.note).reverse ++ w.journal }, ?_,
    shows.of_same rfl rfl rfl, sceneLines_of_same v.settings same⟩
  simp only [render, EStateM.run_bind, run_view?, found, run_noteMisfits, World.foldl_noted, drawn,
    EStateM.run_pure]
  rfl

end Shown

abbrev payloads (frames : List (List Device)) : List Payload :=
  frames.map fun ds => .entries (ds.map .device)

/-- Each frame is printed as it is, whatever the view held before. -/
theorem run_playFrames {s : Settings} {frames : List (List Device)} {w : World} {k : Nat}
    (shows : Shows s (payloads frames) w k) {fuel : Nat} (enough : frames.length - k < fuel) :
    ∃ u, (playFrames 0 0 fuel).run w = .ok (framesLines s k (frames.drop k)) u := by
  induction fuel generalizing w k with
  | zero => exact absurd enough (Nat.not_lt_zero _)
  | succ fuel ih =>
    by_cases inside : k < frames.length
    · have next : (payloads frames)[k]? = some (.entries (frames[k].map .device)) := by
        simp [inside]
      obtain ⟨u, stepped, shows_u, holds⟩ := run_stepPlayer shows next
      obtain ⟨scene, v, rendered, shows_v, alike⟩ := run_render shows_u holds
      obtain ⟨x, others⟩ := ih shows_v (by omega)
      refine ⟨x, ?_⟩
      simp only [playFrames, EStateM.run_bind, stepped, if_true, run_player?, shows_u.player,
        rendered, others, EStateM.run_pure, Option.map_some, Option.getD_some, alike]
      rw [List.drop_eq_getElem_cons inside]
      rfl
    · have ended : (payloads frames)[k]? = none := by
        simp only [List.getElem?_eq_none_iff, List.length_map]
        omega
      refine ⟨w, ?_⟩
      simp only [playFrames, EStateM.run_bind, run_stepPlayer_none shows ended, Bool.false_eq_true,
        if_false]
      rw [List.drop_eq_nil_of_le (by omega)]
      rfl

def recordingLines (s : Settings) (name : String) (frames : List (List Device)) : List String :=
  headline name frames.length :: framesLines s 0 frames ++ ["", ""]

def prepared (s : Settings) (frames : List (List Device)) : World :=
  { World.empty with
    views := [View.fresh "main" s none]
    players := [Player.ofFrames (payloads frames)] }

/-- Activation lists the view, which is told of nothing yet. -/
theorem shows_activated (s : Settings) (frames : List (List Device)) :
    (activate noScripts 0).run (prepared s frames) =
        .ok () ((Change.activate 0).apply (prepared s frames)) ∧
      Shows s (payloads frames) ((Change.activate 0).apply (prepared s frames)) 0 := by
  let v := View.fresh "main" s none
  have attached :
      (Change.activate 0).apply (prepared s frames) = (prepared s frames).attached 0 v :=
    rfl
  have views : ((prepared s frames).attached 0 v).views[0]? =
      some { ({ v with active := true } : View).tell [] with revision := v.revision + 1 } := by
    rw [World.views_attached]
    rfl
  rw [attached]
  refine ⟨?_, ?_, ⟨_, views, rfl, rfl, rfl, rfl⟩, ?_⟩
  · rw [run_activate, if_pos (show (prepared s frames).views[0]?.any (!·.active) = true from rfl)]
    exact run_callHook views rfl
  · rw [World.registry_attached]
    rfl
  · rw [((prepared s frames).onlyViews_attached 0 v).players]
    rfl

theorem run_recording (name : String) (frames : List (List Device)) (s : Settings) :
    ∃ u, (recording name frames s).run World.empty = .ok (recordingLines s name frames) u := by
  obtain ⟨activated, shows⟩ := shows_activated s frames
  obtain ⟨u, played⟩ := run_playFrames shows (Nat.lt_succ_self frames.length)
  have deactivated : (deactivate 0).run u = .ok () ((Change.deactivate 0).apply u) := by
    rw [deactivate_eq, run_make]
  refine ⟨(Change.deactivate 0).apply u, ?_⟩
  have begun : (modify fun w : World => { w with
      views := [View.fresh "main" s none]
      players := [Player.ofFrames (payloads frames)] } : Act Unit).run World.empty =
        .ok () (prepared s frames) := rfl
  unfold payloads at begun
  simp only [recording, EStateM.run_bind, begun, activated, played, deactivated, EStateM.run_pure]
  rfl

/-- The text on a recording, out of its name, its bytes and the settings; none if the bytes are not
even at fault as data. -/
def textOf (s : Settings) (name : String) (bytes : List UInt8) : Except Failure String :=
  match Library.recordingOfBytes name bytes with
  | .ok receptions => .ok (ofLines (recordingLines s name (receptions.map (·.devices))))
  | .error f =>
    if f.isDataFault then .ok (ofLines ["Skipping " ++ name ++ ": " ++ f.message]) else .error f

section Files

variable {t : Tree} {s : Settings} {contents : String → List UInt8}

/-- A recording whose text can be had is printed, and then come the others. -/
theorem recordings_cons {name : String} {rest : List String} {p : Path} {bytes : List UInt8}
    (located : t.locate Library.recordingsFolder name = .present p (.file bytes)) {text : String}
    (had : textOf s name bytes = .ok text) :
    (recordings t s (name :: rest)).printed = text ++ (recordings t s rest).printed ∧
      (recordings t s (name :: rest)).result = (recordings t s rest).result := by
  have loaded := Library.loadRecording_eq located
  unfold textOf at had
  cases read : Library.recordingOfBytes name bytes with
  | error f =>
    rw [read] at loaded had
    dsimp only at had
    split at had
    · rename_i fault
      rw [← Except.ok.inj had, recordings, loaded]
      simp only [fault, if_true]
      exact ⟨trivial, trivial⟩
    · exact nomatch had
  | ok receptions =>
    rw [read] at loaded had
    obtain ⟨u, run⟩ := run_recording name (receptions.map (·.devices)) s
    rw [← Except.ok.inj had, recordings, loaded]
    simp only [run]
    exact ⟨trivial, trivial⟩

theorem recordings_append {readable rest : List String} {texts : String → String}
    (regular : ∀ name ∈ readable, ∃ p,
      t.locate Library.recordingsFolder name = .present p (.file (contents name)))
    (had : ∀ name ∈ readable, textOf s name (contents name) = .ok (texts name)) :
    (recordings t s (readable ++ rest)).printed =
        String.join (readable.map texts) ++ (recordings t s rest).printed ∧
      (recordings t s (readable ++ rest)).result = (recordings t s rest).result := by
  induction readable with
  | nil => exact ⟨String.empty_append.symm, rfl⟩
  | cons name others ih =>
    obtain ⟨p, located⟩ := regular name List.mem_cons_self
    obtain ⟨printed, result⟩ : (recordings t s (name :: (others ++ rest))).printed =
        texts name ++ (recordings t s (others ++ rest)).printed ∧
        (recordings t s (name :: (others ++ rest))).result =
          (recordings t s (others ++ rest)).result :=
      recordings_cons located (had name List.mem_cons_self)
    obtain ⟨printed_others, result_others⟩ :=
      ih (fun n member => regular n (List.mem_cons_of_mem name member))
        fun n member => had n (List.mem_cons_of_mem name member)
    refine ⟨?_, result.trans result_others⟩
    rw [List.cons_append, printed, printed_others, List.map_cons, String.join_cons,
      String.append_assoc]

theorem recordings_fatal {name : String} {rest : List String} {p : Path} {bytes : List UInt8}
    (located : t.locate Library.recordingsFolder name = .present p (.file bytes)) {f : Failure}
    (fatal : textOf s name bytes = .error f) :
    (recordings t s (name :: rest)).printed = "" ∧
      (recordings t s (name :: rest)).result = .error f := by
  have loaded := Library.loadRecording_eq located
  unfold textOf at fatal
  cases read : Library.recordingOfBytes name bytes with
  | error g =>
    rw [read] at loaded fatal
    dsimp only at fatal
    split at fatal
    · exact nomatch fatal
    · rename_i no_fault
      obtain rfl := Except.error.inj fatal
      rw [recordings, loaded]
      simp only [no_fault, Bool.false_eq_true, if_false]
      exact ⟨trivial, trivial⟩
  | ok receptions =>
    rw [read] at fatal
    exact nomatch fatal

/-- The text of a file can be had unless its data are nested too deeply to be read. -/
theorem deep_of_textOf_error {name : String} {bytes : List UInt8} {f : Failure}
    (fatal : textOf s name bytes = .error f) : ∃ array, f = .deepJson array := by
  unfold textOf at fatal
  cases read : Library.recordingOfBytes name bytes with
  | ok receptions =>
    rw [read] at fatal
    exact nomatch fatal
  | error g =>
    rw [read] at fatal
    dsimp only at fatal
    split at fatal
    · exact nomatch fatal
    · rename_i no_fault
      rw [← Except.error.inj fatal]
      exact (Library.fault_of_recordingOfBytes read).resolve_left no_fault

end Files

/-- The settings of a replay: its own, if there are any and they are valid, or the standard ones. -/
def Uses (t : Tree) (s : Settings) : Prop :=
  if defaultName ∈ Library.settingsNames t then Library.loadSettings t defaultName = .ok s
  else s = .standard

theorem all_eq {t : Tree} {s : Settings} (uses : Uses t s)
    (some_recording : Library.recordingNames t ≠ []) :
    all t = recordings t s (Library.recordingNames t) := by
  unfold Uses at uses
  unfold all
  cases names : Library.recordingNames t with
  | nil => exact absurd names some_recording
  | cons name rest =>
    split at uses
    · rename_i own
      simp only [own, if_true, uses]
    · rename_i none_own
      simp only [none_own, if_false, uses]

end Replay

namespace Library

/-- The recordings of a tree are the files of its folder, in the order of their names. -/
theorem recordingNames_cases (t : Tree) : (recordingNames t).Pairwise (· ≤ ·) ∧
    (recordingNames t ≠ [] → ∃ folder,
      t.locate [] ("/".intercalate recordingsFolder) = .present folder .directory ∧
        (recordingNames t).Perm ((t.entries folder).filter isJsonName)) := by
  have ordered : ∀ l : List String,
      (l.mergeSort fun a b => !decide (b < a)).Pairwise (· ≤ ·) := by
    intro l
    have sorted : (l.mergeSort fun a b => !decide (b < a)).Pairwise
        fun a b => (!decide (b < a)) = true := by
      apply List.pairwise_mergeSort
      · intro a b c first second
        simp only [Bool.not_eq_true', decide_eq_false_iff_not] at first second ⊢
        exact String.le_trans first second
      · intro a b
        simp only [Bool.or_eq_true, Bool.not_eq_true', decide_eq_false_iff_not]
        exact String.le_total a b
    apply sorted.imp
    intro a b before
    simp only [Bool.not_eq_true', decide_eq_false_iff_not] at before
    exact before
  unfold recordingNames list
  split
  · rename_i folder located
    exact ⟨ordered _, fun _ => ⟨folder, located, List.mergeSort_perm _ _⟩⟩
  · exact ⟨.nil, fun absent => absurd rfl absent⟩

end Library

/-- What a replay prints is the texts of its recordings one after another, in the order of their
names, up to the first whose data are nested too deeply to be read; that one ends the replay. The
text of a recording depends on its name, its bytes and the settings, and on nothing else. -/
theorem replay_prints_each_recording_by_itself {t : Tree} {s : Settings}
    {contents : String → List UInt8} (uses : Replay.Uses t s)
    (regular : ∀ name ∈ Library.recordingNames t, ∃ p,
      t.locate Library.recordingsFolder name = .present p (.file (contents name)))
    (some_recording : Library.recordingNames t ≠ []) :
    let names := Library.recordingNames t
    names.Pairwise (· ≤ ·) ∧
      (∃ folder, t.locate [] ("/".intercalate Library.recordingsFolder) =
          .present folder .directory ∧
        names.Perm ((t.entries folder).filter Library.isJsonName)) ∧
      ∀ (readable rest : List String) (texts : String → String), names = readable ++ rest →
        (∀ name ∈ readable, Replay.textOf s name (contents name) = .ok (texts name)) →
          (rest = [] → (Replay.all t).printed = String.join (readable.map texts) ∧
            (Replay.all t).result = .ok 0) ∧
          ∀ name ∈ rest.head?, ∀ f, Replay.textOf s name (contents name) = .error f →
            (Replay.all t).printed = String.join (readable.map texts) ∧
              (Replay.all t).result = .error f ∧ ∃ array, f = .deepJson array := by
  intro names
  obtain ⟨sorted, listed⟩ := Library.recordingNames_cases t
  refine ⟨sorted, listed some_recording, ?_⟩
  intro readable rest texts parted had
  have regular_names : ∀ name ∈ readable ++ rest, ∃ p,
      t.locate Library.recordingsFolder name = .present p (.file (contents name)) := by
    rw [← parted]
    exact regular
  obtain ⟨printed, result⟩ : (Replay.recordings t s (readable ++ rest)).printed = _ ∧ _ :=
    Replay.recordings_append
      (fun name member => regular_names name (List.mem_append_left rest member)) had
  have whole : Replay.all t = Replay.recordings t s (readable ++ rest) := by
    rw [← parted]
    exact Replay.all_eq uses some_recording
  rw [whole, printed, result]
  constructor
  · rintro rfl
    exact ⟨String.append_empty, rfl⟩
  · intro name first f fatal
    cases rest with
    | nil => exact nomatch first
    | cons other later =>
      obtain rfl : other = name := Option.some.inj first
      obtain ⟨p, located⟩ := regular_names other
        (List.mem_append_right readable List.mem_cons_self)
      obtain ⟨nothing, ends⟩ : (Replay.recordings t s (other :: later)).printed = "" ∧ _ :=
        Replay.recordings_fatal located fatal
      rw [nothing, ends]
      exact ⟨String.append_empty, rfl, Replay.deep_of_textOf_error fatal⟩

def twoRecordings (first second : List UInt8) : Tree :=
  ⟨".", [(["frames"], .directory), (["frames", "a.json"], .file first),
    (["frames", "b.json"], .file second)]⟩

theorem recordingNames_twoRecordings (first second : List UInt8) :
    Library.recordingNames (twoRecordings first second) = ["a.json", "b.json"] := by
  have folder : (twoRecordings first second).locate []
      ("/".intercalate Library.recordingsFolder) = .present ["frames"] .directory := by cbv
  have names : ((twoRecordings first second).entries ["frames"]).filter Library.isJsonName =
      ["a.json", "b.json"] := by cbv
  unfold Library.recordingNames Library.list
  rw [folder]
  dsimp only
  rw [names]
  apply List.mergeSort_of_pairwise
  decide

theorem locate_twoRecordings (first second : List UInt8) :
    (twoRecordings first second).locate Library.recordingsFolder "a.json" =
        .present ["frames", "a.json"] (.file first) ∧
      (twoRecordings first second).locate Library.recordingsFolder "b.json" =
        .present ["frames", "b.json"] (.file second) := by
  constructor
  · cbv
  · cbv

theorem uses_twoRecordings (first second : List UInt8) :
    Replay.Uses (twoRecordings first second) .standard := by
  have no_settings : Library.settingsNames (twoRecordings first second) = [] := by cbv
  unfold Replay.Uses
  rw [no_settings, if_neg List.not_mem_nil]

/-- A van at the origin, told of twice with different zeros, and a buoy that is nowhere. -/
def restingFrames : List UInt8 :=
  Utf8.encode ("[[\x7b\"name\":\"van\",\"position\":\x7b\"x\":0.0\x7d," ++
    "\"orientation\":\x7b\x7d\x7d,\x7b\"name\":\"buoy\"\x7d]," ++
    "[\x7b\"name\":\"van\",\"position\":\x7b\"x\":-0.0\x7d," ++
    "\"orientation\":\x7b\x7d\x7d,\x7b\"name\":\"buoy\"\x7d]]").toList

def restingText : String :=
  "  [flat, pattern0] 1 devices\n" ++
    "    red     van on Device Map, Position: 0, 0, 0, Orientation: yaw: 0, pitch: 0, roll: 0\n" ++
    "    (skipped malformed device 'buoy')\n"

def restingReport : String :=
  "--- Replaying a.json: 2 frames ---\n" ++ "Frame 1:\n" ++ restingText ++ "Frame 2:\n" ++
    restingText ++ "\n\n"

theorem textOf_restingFrames :
    Replay.textOf .standard "a.json" restingFrames = .ok restingReport := by
  have read : (Replay.textOf .standard "a.json" restingFrames).toOption = some restingReport := by
    decide +kernel
  cases text : Replay.textOf .standard "a.json" restingFrames with
  | error f => rw [text] at read; exact absurd read (by simp [Except.toOption])
  | ok printed => rw [text] at read; exact congrArg Except.ok (Option.some.inj read)

theorem resting_frames_are_replayed :
    let t := twoRecordings restingFrames [123, 125]
    Replay.Uses t .standard ∧ Library.recordingNames t = ["a.json", "b.json"] ∧
      (Replay.all t).printed =
        restingReport ++ "Skipping b.json: b.json: expected a list of device lists\n" := by
  intro t
  let contents (name : String) := if name = "a.json" then restingFrames else [123, 125]
  let texts (name : String) := if name = "a.json" then restingReport
    else "Skipping b.json: b.json: expected a list of device lists\n"
  have first : contents "a.json" = restingFrames ∧ texts "a.json" = restingReport :=
    ⟨if_pos rfl, if_pos rfl⟩
  have uses : Replay.Uses t .standard := uses_twoRecordings _ _
  have names : Library.recordingNames t = ["a.json", "b.json"] := recordingNames_twoRecordings _ _
  have located := locate_twoRecordings restingFrames [123, 125]
  have regular : ∀ name ∈ Library.recordingNames t, ∃ p,
      t.locate Library.recordingsFolder name = .present p (.file (contents name)) := by
    rw [names]
    simp only [List.forall_mem_cons, List.not_mem_nil, false_imp_iff, implies_true, and_true]
    exact ⟨⟨_, by rw [first.1]; exact located.1⟩, _, located.2⟩
  have had : ∀ name ∈ Library.recordingNames t,
      Replay.textOf .standard name (contents name) = .ok (texts name) := by
    rw [names]
    simp only [List.forall_mem_cons, List.not_mem_nil, false_imp_iff, implies_true, and_true]
    exact ⟨by rw [first.1, first.2]; exact textOf_restingFrames, rfl⟩
  have prints := replay_prints_each_recording_by_itself uses regular (by rw [names]; decide)
  obtain ⟨printed, _⟩ := (prints.2.2 _ [] texts (List.append_nil _).symm had).1 rfl
  refine ⟨uses, names, ?_⟩
  rw [printed, names, List.map_cons, first.2]
  rfl

/-- Brackets that are nested too deeply, followed by a recording without frames. -/
def nestedRecording : Tree := twoRecordings (List.replicate 2000 91) [91, 93]

/-- The second recording has a text, but since the first one ends the replay it is not printed,
whatever the text of the first one is taken to be. -/
theorem nested_recording_hides_the_next :
    Replay.Uses nestedRecording .standard ∧
      Library.recordingNames nestedRecording = ["a.json", "b.json"] ∧
      nestedRecording.locate Library.recordingsFolder "a.json" =
        .present ["frames", "a.json"] (.file (List.replicate 2000 91)) ∧
      nestedRecording.locate Library.recordingsFolder "b.json" =
        .present ["frames", "b.json"] (.file [91, 93]) ∧
      Library.recordingOfBytes "b.json" [91, 93] = .ok [] ∧
      ∀ text : String → List UInt8 → String,
        text "b.json" [91, 93] =
            Replay.ofLines (Replay.recordingLines .standard "b.json" []) →
          (Replay.all nestedRecording).printed ≠
            text "a.json" (List.replicate 2000 91) ++ text "b.json" [91, 93] := by
  have uses : Replay.Uses nestedRecording .standard := uses_twoRecordings _ _
  have names : Library.recordingNames nestedRecording = ["a.json", "b.json"] :=
    recordingNames_twoRecordings _ _
  obtain ⟨first, second⟩ := locate_twoRecordings (List.replicate 2000 91) [91, 93]
  have fatal : Replay.textOf .standard "a.json" (List.replicate 2000 91) =
      .error (.deepJson true) := by
    unfold Replay.textOf
    rw [Library.recordingOfBytes_nested "a.json" (show Json.depthLimit ≤ 1999 by decide)]
    rfl
  refine ⟨uses, names, first, second, rfl, ?_⟩
  intro text printed_alone whole
  have nothing : (Replay.all nestedRecording).printed = "" := by
    rw [Replay.all_eq uses (by rw [names]; decide), names]
    exact (Replay.recordings_fatal first fatal).1
  rw [nothing, printed_alone] at whole
  have empty := (String.append_eq_empty_iff.mp whole.symm).2
  revert empty
  decide

end FleetMap
