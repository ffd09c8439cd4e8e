import FleetMap.Proofs.Hub.Chronicle

set_option autoImplicit false

namespace FleetMap

open Act Hub

namespace World

/-- A listener attends when a step begins and when it is done, and whenever a script carries out a
command meanwhile: if something else were done wherever it does not, that would make no
difference. -/
def AttendsDuring (w : World) (c : Command) (l : Listener) : Prop :=
  w.attends l = true ∧ ((carryOut c).after w).attends l = true ∧
    ∀ otherwise,
      (command (fireAtWhere (fun v => v.attends l = true) otherwise (scriptDepth w.scripts)) c).run
        w = (carryOut c).run w

/-- A view that holds the stored collection or is inactive, or any other listener that was handed
it last. -/
def UpToDate (w : World) : Listener → Prop
  | .view number => ¬ w.Stale number
  | l => ∃ d ∈ (w.record.receivedBy l).head?,
      d.edition = w.record.newest ∧ d.devices = w.registry.devices

variable {w : World} {initial : List Device} {given : List Device → Prop} {quiet : Prop}
  {l : Listener}

theorem Chronicled.upToDate (told : w.Chronicled initial given quiet) (current : ¬ w.Behind l)
    (led : ¬ w.Misled given l) : w.UpToDate l := by
  cases l with
  | view number => exact current
  | script | gesture | inbox | inert =>
    by_contra outdated
    apply current
    intro d last newest
    have ungiven : ¬ given d.devices := fun held => led ⟨d, last, .inr held⟩
    have edition := (told.faithful _ d (List.mem_of_mem_head? last)).resolve_right ungiven
    rw [newest, told.stored] at edition
    exact outdated ⟨d, last, newest, (Option.some.inj edition).symm⟩

theorem Behind.not_upToDate (behind : w.Behind l) : ¬ w.UpToDate l := by
  cases l with
  | view number => exact not_not.mpr behind
  | script | gesture | inbox | inert =>
    rintro ⟨d, last, newest, _⟩
    exact behind d last newest

theorem chronicled_start {payload : Payload} {scripts : List (String × Script)}
    (starts : start payload scripts = .ok w) : w.Chronicled w.registry.devices given quiet := by
  obtain ⟨ds, rfl⟩ := start_eq starts
  exact ⟨nofun, rfl, fun _ => nofun, fun _ _ => nofun⟩

end World

/-- A collection that a command of a session gives to be handed out without its being stored. -/
def Hub.Gives (scripts : List (String × Script)) (steps : List Command) (ds : List Device) : Prop :=
  ∃ items, .notify (some items) ∈ allCommands scripts steps ∧ requireDevices items = .ok ds

/-- Where observers are handed nothing but what is stored, nothing is given. -/
theorem not_gives_of_tellsStored {scripts : List (String × Script)} {steps : List Command}
    (stored : tellsStored scripts steps) (ds : List Device) : ¬ Gives scripts steps ds := by
  rintro ⟨items, member, _⟩
  exact nomatch List.all_eq_true.mp stored _ member

section Session

variable {scripts : List (String × Script)} {steps : List Command} {initial : List Device}
  {quiet : Prop}

theorem mem_allCommands_of_script {s : String × Script} (listed : s ∈ scripts) {c : Command}
    (member : c ∈ s.2.acts) : c ∈ allCommands scripts steps :=
  List.mem_append_right _ (List.mem_flatMap.mpr ⟨s, listed, member⟩)

/-- Scripts of a session pay a watched listener, unless it is a view that may be told by hand. -/
theorem fireAt_pays {watched : Option Listener} (known : watched.isSome → named scripts)
    (unbroken : watched.isSome → unbreaking scripts)
    (tells : ∀ c ∈ allCommands scripts steps, c.tells = true → ∀ number, .view number ∉ watched)
    (silent : quiet → ∀ s ∈ scripts, ∀ c ∈ s.2.acts, c.publishes = false) (depth : Nat)
    (name : String) (signal : Signal) :
    (chronicle scripts initial (Gives scripts steps) watched quiet quiet).Agree
      (fireAtWhere (Law.Attended watched) Law.refuse depth name signal)
      (fireAtWhere (Law.Attended watched) Law.refuse depth name signal) := by
  apply Law.fireAtWhere_pays known unbroken _ _ silent
  · intro s listed items ds member accepted
    exact ⟨items, mem_allCommands_of_script listed member, accepted⟩
  · intro s listed c member
    exact tells c (mem_allCommands_of_script listed member)

theorem chronicled_carryOutAll
    (silent : quiet → ∀ s ∈ scripts, ∀ c ∈ s.2.acts, c.publishes = false) {w : World}
    (same_scripts : w.scripts = scripts)
    (told : w.Chronicled initial (Gives scripts steps) quiet) {earlier : List Command}
    (before : earlier <+: steps) :
    (carryOutAll w earlier).scripts = scripts ∧
      (carryOutAll w earlier).Chronicled initial (Gives scripts steps) quiet := by
  have always : ∀ v, Law.Attended none v := fun _ => rfl
  have nobody : ∀ {p : Prop}, (none : Option Listener).isSome → p :=
    fun watching => absurd watching Bool.false_ne_true
  have unwatched : ∀ c ∈ allCommands scripts steps, c.tells = true → ∀ number,
      .view number ∉ (none : Option Listener) := fun _ _ _ _ => nofun
  let L := chronicle scripts initial (Gives scripts steps) none
  have agree : ∀ c ∈ earlier, ∀ depth,
      (L quiet False).Agree (command (fireAt depth) c) (command (fireAt depth) c) := by
    intro c member depth u holds
    have fired : ∀ name signal,
        (L quiet quiet).Agree (fireAt depth name signal) (fireAt depth name signal) := by
      intro name signal
      rw [← fireAtWhere_of_always always Law.refuse]
      exact fireAt_pays nobody nobody unwatched silent depth name signal
    have gives : ∀ items ds, c = .notify (some items) → requireDevices items = .ok ds →
        Gives scripts steps ds := by
      rintro items ds rfl accepted
      exact ⟨items, List.mem_append_left _ (before.subset member), accepted⟩
    exact ⟨rfl, Law.step_pays fired nobody gives (fun _ _ => nofun) holds nofun⟩
  exact (Law.carryOutAll_admits_of_agree agree ⟨same_scripts, told⟩).1

/-- A listener that attends during a step comes to be owed nothing in it, unless it is a view that
may be told by hand. -/
theorem owed_of_attendsDuring (known : named scripts) (unbroken : unbreaking scripts) {w : World}
    (same_scripts : w.scripts = scripts)
    (told : w.Chronicled initial (Gives scripts steps) False) {c : Command} (member : c ∈ steps)
    {l : Listener}
    (untold : ∀ number, l = .view number → ∀ c ∈ allCommands scripts steps, c.tells = false)
    (attends : w.AttendsDuring c l)
    (owed : ((carryOut c).after w).Owed (Gives scripts steps) l) :
    w.Owed (Gives scripts steps) l ∧
      ((carryOut c).after w).record.newest = w.record.newest := by
  obtain ⟨first, _, meanwhile⟩ := attends
  have tells : ∀ c ∈ allCommands scripts steps, c.tells = true → ∀ number,
      .view number ∉ some l := by
    intro c member told number watched
    have same : l = .view number := Option.mem_some.mp watched
    exact absurd (told.symm.trans (untold number same c member)) nofun
  have gives : ∀ items ds, c = .notify (some items) → requireDevices items = .ok ds →
      Gives scripts steps ds := by
    rintro items ds rfl accepted
    exact ⟨items, List.mem_append_left _ member, accepted⟩
  have attending : ∀ k ∈ some l, w.attends k = true := by
    rintro k same
    obtain rfl := Option.mem_some.mp same
    exact first
  have fired : ∀ name signal,
      (chronicle scripts initial (Gives scripts steps) (some l) False False).Agree
        (fireAtWhere (Law.Attended (some l)) Law.refuse (scriptDepth w.scripts) name signal)
        (fireAtWhere (Law.Attended (some l)) Law.refuse (scriptDepth w.scripts) name signal) :=
    fireAt_pays (fun _ => known) (fun _ => unbroken) tells False.elim _
  have admits :=
    Law.step_pays fired (fun _ => known) gives (tells c (List.mem_append_left _ member))
    ⟨same_scripts, told⟩ attending
  -- the guard is met wherever a script carries out a command, so this is the step itself
  have run : (command (fireAtWhere (Law.Attended (some l)) Law.refuse (scriptDepth w.scripts))
      c).run w = (carryOut c).run w := meanwhile Law.refuse
  rw [run] at admits
  exact admits.after.2.2.2.1 l rfl owed

end Session

def Command.removes (name : String) : Command → Bool
  | .remove (.named other) => other == name
  | _ => false

def attendance (scripts : List (String × Script)) (name : String) : Law where
  holds w := w.scripts = scripts ∧ .script name ∈ w.registry.observers
  moves _ _ := True
  breaks := True
  refl _ := trivial
  trans _ _ := trivial

def Change.Keeps (name : String) : Change → Prop
  | .remove l => l ≠ .script name
  | _ => True

namespace Law

variable {scripts : List (String × Script)} {name : String}

theorem attendance_change {w : World} {c : Change} (keeps : c.Keeps name)
    (holds : (attendance scripts name).holds w) :
    (attendance scripts name).holds (c.apply w) ∧
      (attendance scripts name).moves w (c.apply w) := by
  refine ⟨⟨(Change.apply_names w c).1.trans holds.1, ?_⟩, trivial⟩
  have listed := holds.2
  cases c with
  | register l => exact Registry.mem_register_of_mem listed
  | remove l => exact Registry.mem_remove_of_ne (Ne.symm keeps) listed
  | activate number =>
    rcases Change.apply_activate w number with same | ⟨x, _, _, attached⟩
    · rwa [same]
    · rw [attached, World.registry_attached]
      exact Registry.mem_register_of_mem listed
  | deactivate number =>
    rcases Change.apply_deactivate w number with same | ⟨x, _, _, detached⟩
    · rwa [same]
    · rw [detached, World.registry_detached]
      exact Registry.mem_remove_of_ne nofun listed
  | tell number ds =>
    rcases Change.apply_tell w number ds with same | ⟨_, told⟩
    · rwa [same]
    · rwa [told, World.registry_asked]
  | ask number | cycle number | toggle number =>
    change _ ∈ (World.asked _ number).registry.observers
    rwa [World.registry_asked]
  | _ => exact listed

theorem attendance_permits : (attendance scripts name).Permits (Change.Keeps name) :=
  .of_change attendance_change
    ⟨fun _ => trivial, trivial, fun _ _ _ _ => trivial, fun _ _ _ => trivial⟩

theorem routine_attendance : Routine (Change.Keeps name) := by
  apply routine_of_allowed
  intro c routine
  cases c with
  | remove => exact routine.elim
  | _ => trivial

theorem within_attendance {c : Command} (keeps : c.removes name = false) :
    c.Within (attendance scripts name) (Change.Keeps name) := by
  have contents : ∀ change : Change, change.SetsContents → change.Keeps name := by
    intro change sets
    cases change with
    | remove => exact sets.elim
    | _ => trivial
  cases c with
  | remove who =>
    rintro w l - stands rfl
    cases who with
    | inert => exact nomatch Mention.standsFor_inert stands
    | gesture g id =>
      obtain ⟨number, same⟩ := Mention.standsFor_gesture stands
      exact nomatch same
    | named other =>
      rcases Mention.standsFor_named stands with same | ⟨_, _, number, same⟩
      · obtain rfl := Listener.script.inj same
        simp [Command.removes] at keeps
      · exact nomatch same
  | register | subscribe | unsubscribe => exact fun _ _ _ _ => trivial
  | view => exact fun _ => trivial
  | _ => exact Command.within_of_contents contents rfl

theorem attendance_binds {steps : List Command}
    (keeps : ∀ c ∈ allCommands scripts steps, c.removes name = false) :
    (attendance scripts name).Binds (Change.Keeps name) := by
  intro w other script holds found
  obtain ⟨rfl, _⟩ := holds
  refine ⟨?_, fun _ => trivial⟩
  intro c member
  apply within_attendance (keeps c _)
  exact List.mem_append_right _ (List.mem_flatMap.mpr ⟨_, mem_of_lookupField found, member⟩)

end Law

/-- A script that is registered attends during a step if no command of the session removes it. -/
theorem attendsDuring_of_keeps {scripts : List (String × Script)} {steps : List Command}
    {name : String} (keeps : ∀ c ∈ allCommands scripts steps, c.removes name = false) {w : World}
    (same_scripts : w.scripts = scripts) (listed : .script name ∈ w.registry.observers)
    {c : Command} (member : c ∈ steps) : w.AttendsDuring c (.script name) := by
  have holds : (attendance scripts name).holds w := ⟨same_scripts, listed⟩
  have within : c.Within (attendance scripts name) (Change.Keeps name) :=
    Law.within_attendance (keeps c (List.mem_append_left _ member))
  have attends : ∀ v, (attendance scripts name).holds v → v.attends (.script name) = true :=
    fun v holds => World.attends_iff.mpr ⟨holds.2, fun _ => nofun⟩
  have after := (Law.carryOut_admits Law.attendance_permits Law.routine_attendance
    (Law.attendance_binds keeps) within holds).after
  refine ⟨attends w holds, attends _ after.1, ?_⟩
  intro otherwise
  have fired := Law.agree_fireAtWhere Law.attendance_permits Law.routine_attendance
    (Law.attendance_binds keeps) attends otherwise (scriptDepth w.scripts)
  exact (Law.agree_command Law.attendance_permits Law.routine_attendance fired c within w holds).1

/-- Every observer is handed editions in the order of publication, apart from belated deliveries:
what it is handed is the edition that was the newest when the fan-out began, or was given to be
handed out as it is, and unless it is belated nobody was handed a newer edition before. Without
scripts that publish nothing is belated. And when a step is done in a session in which nobody
cancels, all errors have a text and all observers a name, then everyone who attended all the time is
up to date, unless the last delivery to it was belated or of a collection that was given, or nothing
was stored and it was not up to date before. This holds of views, too, as long as nobody tells them
of devices but the registry. -/
theorem deliveries_follow_publication {initial : Payload} {scripts : List (String × Script)}
    {steps : List Command} {w : World} (starts : start initial scripts = .ok w) :
    (∀ earlier, earlier <+: steps →
      let r := (carryOutAll w earlier).record
      (r.editions w.registry.devices)[r.newest]? = some (carryOutAll w earlier).registry.devices ∧
        ∀ l,
          (∀ d ∈ r.receivedBy l, (r.editions w.registry.devices)[d.edition]? = some d.devices ∨
            Gives scripts steps d.devices) ∧
          ((r.receivedBy l).Pairwise fun later earlier =>
            later.Belated ∨ earlier.edition ≤ later.edition) ∧
          ((∀ s ∈ scripts, ∀ c ∈ s.2.acts, c.publishes = false) →
            ∀ d ∈ r.receivedBy l, ¬ d.Belated)) ∧
    (unbreaking scripts → named scripts → ∀ earlier c, earlier ++ [c] <+: steps →
      let before := carryOutAll w earlier
      let after := (carryOut c).after before
      ∀ l, (∀ number, l = .view number → ∀ c ∈ allCommands scripts steps, c.tells = false) →
        before.AttendsDuring c l →
          after.UpToDate l ∨ after.Misled (Gives scripts steps) l ∨
            ¬ before.UpToDate l ∧ after.record.newest = before.record.newest) := by
  have same_scripts : w.scripts = scripts := by
    obtain ⟨ds, rfl⟩ := start_eq starts
    rfl
  have told : ∀ {quiet : Prop}, (quiet → ∀ s ∈ scripts, ∀ c ∈ s.2.acts, c.publishes = false) →
      ∀ {earlier}, earlier <+: steps → (carryOutAll w earlier).scripts = scripts ∧
        (carryOutAll w earlier).Chronicled w.registry.devices (Gives scripts steps) quiet :=
    fun silent _ before => chronicled_carryOutAll silent same_scripts
      (World.chronicled_start starts) before
  constructor
  · intro earlier before
    have chronicled := (told id before).2
    exact ⟨chronicled.stored, fun l => ⟨chronicled.faithful l, Record.receivedBy_inOrder l _,
      fun silent => chronicled.prompt silent l⟩⟩
  · intro unbroken known earlier c within before after l untold attends
    obtain ⟨same, chronicled⟩ := told False.elim ((List.prefix_append earlier [c]).trans within)
    have chronicled_after := (told False.elim within).2
    have after_eq : carryOutAll w (earlier ++ [c]) = after := by
      simp only [carryOutAll, List.foldl_append, List.foldl_cons, List.foldl_nil, after, before]
    rw [after_eq] at chronicled_after
    by_cases misled : after.Misled (Gives scripts steps) l
    · exact .inr (.inl misled)
    · by_cases behind : after.Behind l
      · obtain ⟨owed, newest⟩ := owed_of_attendsDuring known unbroken same chronicled
          (within.subset (by simp)) untold attends ⟨attends.2.1, behind, misled⟩
        exact .inr (.inr ⟨owed.behind.not_upToDate, newest⟩)
      · exact .inl (chronicled_after.upToDate behind misled)

/-- An observer that publishes a bus when it is first told of anything, and one that only listens.
-/
def echoing : List (String × Script) :=
  [("echo",
      ⟨false, 1, [.update (.entries [.device ⟨"bus", true, none, none, none⟩])], .returns, none⟩),
    ("log", ⟨false, 0, [], .returns, none⟩)]

def updateVan : Command := .update (.entries [.device ⟨"van", true, none, none, none⟩])

def echoLast : List Command :=
  [.view "map" "main" none none, .gesture .activate "map", .register (.named "log"),
    .register (.named "echo")]

theorem echo_at_the_end_comes_in_order :
    let w := { World.empty with scripts := echoing }
    let before := carryOutAll w echoLast
    let after := (carryOut updateVan).after before
    start (.entries []) echoing = .ok w ∧ unbreaking echoing = true ∧ named echoing = true ∧
      before.AttendsDuring updateVan (.script "log") ∧
      ¬ after.Misled (Gives echoing (echoLast ++ [updateVan])) (.script "log") ∧
      after.UpToDate (.script "log") ∧
      (after.record.receivedBy (.script "log")).map (fun d => (d.edition, d.devices.map (·.name))) =
        [(2, ["bus"]), (1, ["van"])] := by
  intro w before after
  have starts : start (.entries []) echoing = .ok w := rfl
  have unbroken : unbreaking echoing = true := by decide
  have known : named echoing = true := by decide
  have keeps : ∀ c ∈ allCommands echoing (echoLast ++ [updateVan]), c.removes "log" = false := by
    decide
  have same : before.scripts = echoing :=
    (chronicled_carryOutAll False.elim rfl (World.chronicled_start starts)
      (List.prefix_append echoLast [updateVan])).1
  have attends : before.AttendsDuring updateVan (.script "log") :=
    attendsDuring_of_keeps keeps same (by decide) (by simp)
  have last : (after.record.receivedBy (.script "log")).head? =
      some ⟨2, 2, [⟨"bus", true, none, none, none⟩]⟩ := by decide
  have not_misled : ¬ after.Misled (Gives echoing (echoLast ++ [updateVan])) (.script "log") := by
    rintro ⟨d, head, misleads⟩
    rw [last] at head
    obtain rfl := Option.mem_some.mp head
    rcases misleads with belated | given
    · exact Nat.lt_irrefl _ belated
    · exact not_gives_of_tellsStored (by decide) _ given
  have follow := (deliveries_follow_publication starts).2 unbroken known echoLast updateVan
    (List.prefix_refl _) (.script "log") (fun _ => nofun) attends
  have newer : after.record.newest ≠ before.record.newest := by decide
  refine ⟨starts, unbroken, known, attends, not_misled, ?_, by decide⟩
  exact follow.resolve_right fun late => late.elim not_misled fun unchanged => newer unchanged.2

def echoFirst : List Command :=
  [.register (.named "echo"), .register (.named "log"), .view "map" "main" none none,
    .gesture .activate "map"]

/-- Those who are called after an observer that publishes are handed the bus first and the van last.
Nobody cancels, all stay registered, and the registry is left with the bus. -/
theorem overtaken_update_arrives_last :
    let w := { World.empty with scripts := echoing }
    let before := carryOutAll w echoFirst
    let after := (carryOut updateVan).after before
    start (.entries []) echoing = .ok w ∧ tellsStored echoing (echoFirst ++ [updateVan]) = true ∧
      unbreaking echoing = true ∧ before.AttendsDuring updateVan (.script "log") ∧
      before.attends (.view 0) = true ∧ after.attends (.view 0) = true ∧
      (after.record.receivedBy (.script "log")).map (fun d => (d.edition, d.devices.map (·.name))) =
        [(1, ["van"]), (2, ["bus"])] ∧
      after.registry.devices.map (·.name) = ["bus"] ∧
      after.views.map (·.devices.map (·.name)) = [["van"]] := by
  intro w before after
  have starts : start (.entries []) echoing = .ok w := rfl
  have stored : tellsStored echoing (echoFirst ++ [updateVan]) = true := by decide
  have unbroken : unbreaking echoing = true := by decide
  have keeps : ∀ c ∈ allCommands echoing (echoFirst ++ [updateVan]), c.removes "log" = false := by
    decide
  have same : before.scripts = echoing :=
    (chronicled_carryOutAll False.elim rfl (World.chronicled_start starts)
      (List.prefix_append echoFirst [updateVan])).1
  refine ⟨starts, stored, unbroken,
    attendsDuring_of_keeps keeps same (by decide) (by simp), ?_⟩
  decide

end FleetMap
