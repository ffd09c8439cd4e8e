import FleetMap.Proofs.Hub.FanOut
import FleetMap.Proofs.Hub.Soundness
import FleetMap.Proofs.Intake.Patch

set_option autoImplicit false

namespace FleetMap

open Act Hub

def Entry.delivery? : Entry → Option (Listener × List Device)
  | .called _ who (.notice ds) => some (who, ds)
  | _ => none

/-- All collections that were handed out, and to whom, the newest first. -/
def World.deliveries (w : World) : List (Listener × List Device) :=
  w.journal.filterMap Entry.delivery?

/-- The registry keeps its devices and hands nothing out; whether acts may break off is left open.
-/
def sparing (scripts : List (String × Script)) (breaks : Prop) : Law where
  holds w := w.scripts = scripts
  moves w v := v.registry.devices = w.registry.devices ∧ v.deliveries = w.deliveries
  breaks := breaks
  refl _ := ⟨rfl, rfl⟩
  trans first second := ⟨second.1.trans first.1, second.2.trans first.2⟩

/-- Scripts that are fired in this way leave the registry alone. -/
def Fire.Spares (fire : Fire) (scripts : List (String × Script)) (breaks : Prop) : Prop :=
  ∀ name signal, (sparing scripts breaks).Agree (fire name signal) (fire name signal)

def Command.spares : Command → Bool
  | .notify _ => false
  | c => !c.publishes

/-- Scripts that neither publish nor notify. -/
def Hub.spare (scripts : List (String × Script)) : Bool :=
  scripts.all fun s => s.2.acts.all (·.spares)

namespace Law

variable {scripts : List (String × Script)} {breaks : Prop}

theorem sparing_ofView {w : World} {c : Change} (ofView : c.OfView)
    (holds : (sparing scripts breaks).holds w) :
    (sparing scripts breaks).holds (c.apply w) ∧
      (sparing scripts breaks).moves w (c.apply w) := by
  have only := Change.onlyViews_apply w ofView
  have journal : (c.apply w).deliveries = w.deliveries :=
    only.journal (fun _ => rfl) (fun _ _ => rfl) fun _ => rfl
  exact ⟨only.scripts.trans holds, only.devices, journal⟩

theorem sparing_change {w : World} {c : Change} (spares : c.Spares)
    (holds : (sparing scripts breaks).holds w) :
    (sparing scripts breaks).holds (c.apply w) ∧
      (sparing scripts breaks).moves w (c.apply w) := by
  have kept := (Change.apply_names w c).1.trans holds
  cases c with
  | activate | deactivate | ask | cycle | toggle => exact sparing_ofView trivial holds
  | register l => exact ⟨kept, Registry.devices_register _ l, rfl⟩
  | call fanOut who signal =>
    cases signal with
    | notice ds => exact spares.elim
    | trigger | scene => exact ⟨kept, rfl, rfl⟩
  | store | tell => exact spares.elim
  | _ => exact ⟨kept, rfl, rfl⟩

theorem fansOut_spares : FansOut Change.Spares where
  note _ := trivial
  begins := trivial
  called number who signal tells := by
    cases signal with
    | notice ds => exact (tells ds rfl 0).elim
    | trigger | scene => trivial
  settled _ _ _ := trivial

theorem sparing_permits : (sparing scripts breaks).Permits Change.Spares :=
  .of_change sparing_change fansOut_spares

theorem routine_spares : Routine Change.Spares :=
  routine_of_allowed fun _ => Change.spares_of_routine

theorem spares_tellView {fire : Fire} (spares : fire.Spares scripts breaks) (number : Nat)
    (ds : List Device) :
    (sparing scripts breaks).Agree (tellView fire number ds) (tellView fire number ds) := by
  intro w holds
  rw [run_tellView]
  split
  · have told : (sparing scripts breaks).Agree (make (.tell number ds)) (make (.tell number ds)) :=
      fun w holds => ⟨rfl, sparing_ofView trivial holds⟩
    exact agree_bind told (fun _ => agree_callHook spares number) w holds
  · exact agree_pure () w holds

theorem spares_deliver {fire : Fire} (spares : fire.Spares scripts breaks) (ds : List Device)
    (who : Listener) :
    (sparing scripts breaks).Agree (deliver fire ds who) (deliver fire ds who) := by
  cases who with
  | script name => exact spares name (.notice ds)
  | view number => exact spares_tellView spares number ds
  | inbox number => exact agree_tellInbox sparing_permits routine_spares.toAside number ds
  | gesture g number => exact agree_fail _
  | inert => exact agree_fail _

theorem spares_command {fire : Fire} (spares : fire.Spares scripts breaks) {c : Command}
    (sparing_c : c.spares) : (sparing scripts breaks).Agree (command fire c) (command fire c) := by
  have other := fun within : c.Within (sparing scripts breaks) Change.Spares =>
    agree_command sparing_permits routine_spares spares c within
  cases c with
  | update | updateDevice | clear | step | playLoop | notify => exact nomatch sparing_c
  | tell id items =>
    apply agree_bind (agree_viewNamed id)
    intro number
    apply agree_accept_bind
    intro ds _
    exact agree_bind (spares_tellView spares number ds) fun _ => agree_pure _
  | register | remove | subscribe | unsubscribe => exact other fun _ _ _ _ => trivial
  | view => exact other fun _ => trivial
  | player | setSettings | setStance => exact other fun _ _ => trivial
  | load => exact other fun _ _ _ => trivial
  | play | reset => exact other ⟨fun _ _ _ => trivial, fun _ => trivial⟩
  | pause => exact other fun _ => trivial
  | devices | isRegistered | emit | listenerCount | gesture => exact other trivial

/-- Scripts that neither publish nor notify leave the registry alone, to whatever depth they are
fired. -/
theorem fireAt_spares (spare_scripts : spare scripts)
    (endings : (∃ s ∈ scripts, s.2.ending.breaks = true) → breaks) (depth : Nat) :
    (fireAt depth).Spares scripts breaks := by
  apply agree_fireAt_of_acts
  · exact fun name signal w holds => sparing_change trivial holds
  · intro w name script holds found fire spares c member
    obtain rfl : w.scripts = scripts := holds
    have spare_acts := List.all_eq_true.mp spare_scripts (name, script) (mem_of_lookupField found)
    exact spares_command spares (List.all_eq_true.mp spare_acts c member)
  · intro w name script holds found broken
    obtain rfl : w.scripts = scripts := holds
    exact endings ⟨(name, script), mem_of_lookupField found, broken⟩

end Law

theorem Round.left_spares (r : Round) (c : Call) :
    (r.left c).scripts = (leaves (r.result c)).scripts ∧
      (r.left c).registry = (leaves (r.result c)).registry ∧
        (r.left c).deliveries = (leaves (r.result c)).deliveries := by
  unfold Round.left
  cases r.result c with
  | ok _ v => exact ⟨rfl, rfl, rfl⟩
  | error stop v =>
    cases stop with
    | cancelled => exact ⟨rfl, rfl, rfl⟩
    | failed _ | mute _ =>
      simp only
      split
      · exact ⟨rfl, rfl, rfl⟩
      · exact ⟨rfl, rfl, rfl⟩

/-- A notification of what is stored in `w` stopped in `v` with the call to the last of those who
were told: that call was cancelled, or its error has no text or the listener no name to be noted
with. -/
def World.IsBrokenOff (fire : Fire) (w : World) (told : List Listener) (stop : Stop) (v : World) :
    Prop :=
  told <+: w.registry.observers ∧ ∃ last : Call, told.getLast? = some last.who ∧
    last.start.deliveries = v.deliveries ∧ (noticeRound fire w none).breaksOff last = some stop

section Told

variable {scripts : List (String × Script)} {breaks : Prop}

/-- Each call of a notification is one delivery, and nothing else is delivered meanwhile. -/
theorem Round.Makes.delivers {r : Round} {ds : List Device} (hands : r.signal = .notice ds)
    (spares : ∀ who, (sparing scripts breaks).Agree (r.call who) (r.call who)) {w v : World}
    {calls : List Call} (makes : r.Makes w calls v) (holds : w.scripts = scripts) :
    v.registry.devices = w.registry.devices ∧
      v.deliveries = ((calls.map (·.who)).map (·, ds)).reverse ++ w.deliveries ∧
        (∀ c ∈ calls, (sparing scripts breaks).Admits c.start (r.result c)) ∧
          ∀ c ∈ calls.getLast?, c.start.deliveries = v.deliveries := by
  induction makes with
  | none w => exact ⟨rfl, rfl, nofun, nofun⟩
  | @next w v c rest starts others ih =>
    have begun : c.start.deliveries = (c.who, ds) :: w.deliveries := by
      rw [starts, hands]
      rfl
    have ends := (spares c.who c.start (by rw [starts]; exact holds)).2
    obtain ⟨kept, devices, deliveries⟩ := ends.after
    obtain ⟨left_scripts, left_registry, left_deliveries⟩ := r.left_spares c
    have left_delivered : (r.left c).deliveries = c.start.deliveries :=
      left_deliveries.trans deliveries
    obtain ⟨rest_devices, rest_deliveries, rest_ends, rest_last⟩ := ih (left_scripts.trans kept)
    refine ⟨?_, ?_, List.forall_mem_cons.mpr ⟨ends, rest_ends⟩, ?_⟩
    · rw [rest_devices, left_registry]
      exact devices.trans (by rw [starts]; rfl)
    · rw [rest_deliveries, left_delivered, begun]
      simp
    · intro d last
      cases rest with
      | nil =>
        obtain rfl := Option.some.inj last
        rw [rest_deliveries, left_delivered]
        rfl
      | cons e later => exact rest_last d last

/-- A collection that is published is handed to everyone in turn, unless a call breaks it off, and
to nobody twice. -/
theorem Fire.Spares.run_publish {fire : Fire} {w : World}
    (spares : fire.Spares w.scripts breaks) (ds : List Device) :
    ∃ v told, v.registry.devices = ds ∧
      v.deliveries = (told.map (·, ds)).reverse ++ w.deliveries ∧
        ((∃ count, (publish fire ds).run w = .ok count v) ∧ told = w.registry.observers ∨
          (breaks ∨ named w.scripts = false) ∧ ∃ stop, (publish fire ds).run w = .error stop v ∧
            ((Change.store ds).apply w).IsBrokenOff fire told stop v) := by
  let stored := (Change.store ds).apply w
  let r := noticeRound fire stored none
  have run : (publish fire ds).run w = (notify fire none).run stored := rfl
  obtain ⟨calls, describes⟩ := notify_describes fire stored none
  have before : World.deliveries { stored with fanOuts := stored.fanOuts + 1 } = w.deliveries := rfl
  obtain ⟨devices, deliveries, lawful, last_start⟩ :=
    describes.makes.delivers rfl (fun who => Law.spares_deliver spares ds who) rfl
  rw [before] at deliveries
  have accounts := describes.accounts
  rw [run]
  cases ends : (notify fire none).run stored with
  | ok count v =>
    rw [ends] at devices deliveries accounts
    obtain ⟨everyone, _⟩ := accounts
    exact ⟨v, _, devices, deliveries, .inl ⟨⟨count, rfl⟩, everyone⟩⟩
  | error stop v =>
    rw [ends] at devices deliveries accounts last_start
    obtain ⟨earlier, last, rfl, broken, _, in_order⟩ := accounts
    have allowed : breaks ∨ named w.scripts = false := by
      rcases Law.breaks_of_breaksOff (lawful last (by simp)) broken with breaks | ⟨f, nameless, _⟩
      · exact .inl breaks
      · right
        by_contra known
        obtain ⟨note, noted⟩ := observerComplaint_of_named (w := stored)
          (Bool.not_eq_false _ ▸ known) last.who
        exact nomatch nameless.symm.trans noted
    refine ⟨v, _, devices, deliveries, .inr ⟨allowed, stop, rfl, in_order, last, ?_,
      last_start last (by simp), broken⟩⟩
    simp

end Told

theorem Hub.run_updateDevice_stored {fire : Fire} {w : World} {name : String}
    {changes : Intake.Fields} {ds : List Device}
    (unreserved : ∀ key ∈ ["name", "self"], lookupField key changes = none)
    (patched : Registry.patch name changes w.registry.devices = .stored ds) :
    (updateDevice fire name changes).run w = ((fun _ => true) <$> publish fire ds).run w := by
  simp only [updateDevice, reserved_eq_none changes unreserved, EStateM.run_bind,
    EStateM.run_get, patched, run_discard, run_map]
  cases (publish fire ds).run w with
  | ok count v => rfl
  | error stop v => rfl

/-- A patch touches one device or nothing. If no stored device has the name, or if the first that
has it is not accepted after the changes, nothing happens but a note. Otherwise this device alone is
replaced, under its name and in its place, and everyone registered is told once, in order, of the
new collection; only a call that is cancelled, or whose error cannot be noted, ends this early. It
is the last one then, and what is stored stays stored. If the device was finite, the one in its
place is the only one that follows the changes. This holds for whatever listeners do while they are
told, if they leave the registry alone; scripts that neither publish nor notify do so. -/
theorem patch_replaces_one_device_or_nothing {fire : Fire} {w : World} {breaks : Prop}
    (spares : fire.Spares w.scripts breaks) {changes : Intake.Fields}
    (distinct : Intake.AreDistinct changes)
    (unreserved : ∀ key ∈ ["name", "self"], lookupField key changes = none) (name : String) :
    ((∀ d, w.registry.devices.find? (·.name = name) = some d → ¬ d.AcceptsPatch changes) →
      ∃ note, (updateDevice fire name changes).run w = .ok false (w.enter (.noted note))) ∧
    (∀ d, w.registry.devices.find? (·.name = name) = some d → d.AcceptsPatch changes →
      ∃ before patched after v told,
        w.registry.devices = before ++ d :: after ∧ (∀ other ∈ before, other.name ≠ name) ∧
        d.name = name ∧ patched.name = name ∧
        (d.IsFinite → ∀ new, d.Follows changes new ↔ new = patched) ∧
        v.registry.devices = before ++ patched :: after ∧
        v.deliveries = (told.map (·, before ++ patched :: after)).reverse ++ w.deliveries ∧
        ((updateDevice fire name changes).run w = .ok true v ∧ told = w.registry.observers ∨
          (breaks ∨ named w.scripts = false) ∧
            ∃ stop, (updateDevice fire name changes).run w = .error stop v ∧
              ((Change.store (before ++ patched :: after)).apply w).IsBrokenOff fire told stop v)) ∧
    ∀ scripts depth, spare scripts →
      (fireAt depth).Spares scripts (∃ s ∈ scripts, s.2.ending.breaks = true) := by
  refine ⟨fun refused => run_updateDevice_refused changes name fire w unreserved refused, ?_,
    fun scripts depth spared => Law.fireAt_spares spared id depth⟩
  intro d found accepts
  rcases Registry.patch_cases changes name w.registry.devices with
    ⟨before, e, after, patched, split, named, apart, accepted, stored⟩ | ⟨refused, _⟩
  · have first : w.registry.devices.find? (·.name = name) = some e := by
      rw [split, Registry.find?_named named apart]
    obtain rfl : e = d := Option.some.inj (first.symm.trans found)
    have unnamed := unreserved "name" (by simp)
    have renamed : patched.name = e.name := by
      obtain ⟨⟨v, found_name, read⟩, _⟩ := Intake.device_eq_accepted.mp accepted
      rw [Registry.name_patchedEntries e distinct.keys unnamed] at found_name
      obtain rfl := Option.some.inj found_name
      exact (Checked.accepted.inj read).symm
    obtain ⟨v, told, devices, deliveries, ends⟩ :=
      spares.run_publish (before ++ patched :: after)
    refine ⟨before, patched, after, v, told, split, apart, named, renamed.trans named, ?_, devices,
      deliveries, ?_⟩
    · intro bounded new
      rw [← Intake.device_patchedEntries bounded distinct unnamed, accepted]
      simp [eq_comm]
    · rw [run_updateDevice_stored unreserved stored, run_map]
      rcases ends with ⟨⟨count, run⟩, everyone⟩ | ⟨allowed, stop, run, broken⟩
      · rw [run]
        exact .inl ⟨rfl, everyone⟩
      · rw [run]
        exact .inr ⟨allowed, stop, rfl, broken⟩
  · exact absurd accepts (refused d found)

def tilter : List (String × Script) :=
  [("tilt", ⟨true, 2, [.gesture .toggleIsometric "a", .emit "main" Bus.cycleTopic],
    .raises "boom", none⟩), ("log", ⟨false, 0, [], .returns, none⟩)]

def parkedVan : Device := ⟨"van", false, some ⟨1, 2, 3⟩, none, some "car"⟩

def twoVans : World :=
  { World.empty with
    registry := ⟨[⟨"buoy", true, none, none, none⟩, parkedVan, ⟨"van", true, none, none, none⟩],
      [.script "tilt", .script "log"]⟩
    views := [View.fresh "main" .standard none]
    viewNames := [("a", 0)]
    scripts := tilter }

/-- One coordinate, one angle, a kind taken back and a key that means nothing. -/
def partialChanges : Intake.Fields :=
  [("position", .object [("y", .float 7.5)]), ("orientation", .object [("yaw", .int 90)]),
    ("device_type", .null), ("color", .text "red")]

theorem partial_patch_keeps_the_rest :
    let patched : Device := ⟨"van", false, some ⟨1, 7.5, 3⟩, some ⟨90, 0, 0⟩, none⟩
    let run := (updateDevice (fireAt 4) "van" partialChanges).run twoVans
    parkedVan.Follows partialChanges patched ∧ (∃ v, run = .ok true v) ∧
      (leaves run).registry.devices =
        [⟨"buoy", true, none, none, none⟩, patched, ⟨"van", true, none, none, none⟩] ∧
      (leaves run).deliveries.map (·.1) = [.script "log", .script "tilt"] ∧
      ∃ note, (updateDevice (fireAt 4) "ship" partialChanges).run twoVans =
        .ok false (twoVans.enter (.noted note)) := by
  intro patched run
  have spares : (fireAt 4).Spares twoVans.scripts False :=
    Law.fireAt_spares (by decide) (by simp [twoVans, tilter, Ending.breaks]) 4
  have distinct : Intake.AreDistinct partialChanges := by decide
  have unreserved : ∀ key ∈ ["name", "self"], lookupField key partialChanges = none := by decide
  have accepts : parkedVan.AcceptsPatch partialChanges := ⟨patched, rfl⟩
  obtain ⟨before, found, after, v, told, split, apart, _, _, follows, devices, _, ends⟩ :=
    (patch_replaces_one_device_or_nothing spares distinct unreserved "van").2.1 parkedVan rfl
      accepts
  have ship := (patch_replaces_one_device_or_nothing spares distinct unreserved "ship").1 nofun
  obtain ⟨returns, _⟩ : _ ∧ _ := ends.resolve_right fun broken =>
    broken.1.elim id fun nameless => absurd nameless (by decide)
  have bounded : parkedVan.IsFinite := by decide
  have same : patched = found := by
    have accepted : Intake.device (.object (Registry.patchedEntries parkedVan partialChanges)) =
        .accepted patched := rfl
    exact (follows bounded patched).mp
      ((Intake.device_patchedEntries bounded distinct rfl patched).mp accepted)
  exact ⟨(follows bounded patched).mpr same, ⟨v, returns⟩, by decide, by decide,
    ship⟩

/-- The first observer cancels what is under way, the second one would listen. -/
def canceller : World :=
  { World.empty with
    registry := ⟨[⟨"van", true, none, none, none⟩], [.script "halt", .script "log"]⟩
    scripts := [("halt", ⟨false, 0, [], .cancels, none⟩), ("log", ⟨false, 0, [], .returns, none⟩)] }

/-- A patch that is accepted is stored, but a cancelled call keeps it from being told to everyone,
and from answering. -/
theorem cancelled_patch_is_not_told_to_everyone :
    let c := Command.updateDevice "van" [("visible", .bool false)]
    let v := (carryOut c).after canceller
    spare canceller.scripts = true ∧
      Device.AcceptsPatch [("visible", .bool false)] ⟨"van", true, none, none, none⟩ ∧
      (¬ ∃ u, (carryOut c).run canceller = .ok (.flag true) u) ∧
      v.registry.devices = [⟨"van", false, none, none, none⟩] ∧
      .script "log" ∈ v.registry.observers ∧ ∀ ds, (.script "log", ds) ∉ v.deliveries := by
  intro c v
  have run : ∃ u, (carryOut c).run canceller = .error .cancelled u := ⟨_, rfl⟩
  obtain ⟨u, run⟩ := run
  have told : v.deliveries.map (·.1) = [.script "halt"] := by decide
  refine ⟨by decide, ⟨⟨"van", false, none, none, none⟩, rfl⟩, ?_, by decide, by decide, ?_⟩
  · rintro ⟨_, returns⟩
    rw [run] at returns
    exact nomatch returns
  · intro ds member
    have listed : .script "log" ∈ v.deliveries.map (·.1) := List.mem_map_of_mem member
    rw [told] at listed
    exact absurd listed (by decide)

end FleetMap
