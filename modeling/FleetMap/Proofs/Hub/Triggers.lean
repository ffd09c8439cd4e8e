import FleetMap.Proofs.Hub.Freshness
import FleetMap.Proofs.Hub.Redrawing
import Mathlib.Data.Nat.Bits

set_option autoImplicit false

namespace FleetMap

open Act Hub

/-- What becomes of an active view that is cycled and toggled a number of times while collections
are stored, of which the newest comes first. -/
structure View.Ran (cycles toggles : Nat) (stored : List (List Device)) (x y : View) : Prop where
  active : y.active = true
  bus : y.bus = x.bus
  settings : y.settings = x.settings
  pattern : y.stance.patternIndex % x.settings.patternCount =
    (x.stance.patternIndex + cycles) % x.settings.patternCount
  isometric : y.stance.isometric = (x.stance.isometric ^^ toggles.bodd)
  revision : y.revision = x.revision + (cycles + toggles + stored.length)
  kept : stored = [] → y.devices = x.devices
  told : ∀ ds, stored.head? = some ds → sameList Device.same y.devices ds = true

namespace View

variable {x y z : View}

theorem Ran.refl (active : x.active = true) : x.Ran 0 0 [] x where
  active := active
  bus := rfl
  settings := rfl
  pattern := rfl
  isometric := (Bool.xor_false _).symm
  revision := rfl
  kept _ := rfl
  told _ none_stored := nomatch none_stored

theorem Ran.trans {cycles toggles cycles' toggles' : Nat} {stored stored' : List (List Device)}
    (first : x.Ran cycles toggles stored y) (second : y.Ran cycles' toggles' stored' z) :
    x.Ran (cycles + cycles') (toggles + toggles') (stored' ++ stored) z where
  active := second.active
  bus := second.bus.trans first.bus
  settings := second.settings.trans first.settings
  pattern := by
    have later := second.pattern
    rw [first.settings] at later
    rw [later, Nat.add_mod, first.pattern, ← Nat.add_mod, Nat.add_assoc]
  isometric := by rw [second.isometric, first.isometric, Nat.bodd_add, Bool.xor_assoc]
  revision := by
    rw [second.revision, first.revision, List.length_append]
    omega
  kept none_stored := by
    obtain ⟨none_later, none_before⟩ := List.append_eq_nil_iff.mp none_stored
    rw [second.kept none_later, first.kept none_before]
  told ds newest := by
    cases stored' with
    | nil =>
      rw [second.kept rfl]
      exact first.told ds newest
    | cons d rest => exact second.told ds newest

end View

/-- What becomes of a world in which buses are signalled to cycle and to toggle that often. -/
def World.Ran (cycles toggles : String → Nat) (w v : World) : Prop :=
  ∃ stored, v.publications = stored ++ w.publications ∧
    v.registry.devices = stored.headD w.registry.devices ∧
    ∀ (number : Nat) (x : View), w.views[number]? = some x → x.active = true →
      ∃ y, v.views[number]? = some y ∧ x.Ran (cycles x.bus) (toggles x.bus) stored y

namespace World

variable {u v w : World} {cycles toggles cycles' toggles' : String → Nat}

theorem Ran.trans (first : u.Ran cycles toggles v) (second : v.Ran cycles' toggles' w) :
    u.Ran (cycles + cycles') (toggles + toggles') w := by
  obtain ⟨stored, published, devices, views⟩ := first
  obtain ⟨stored', published', devices', views'⟩ := second
  refine ⟨stored' ++ stored, by rw [published', published, List.append_assoc], ?_, ?_⟩
  · rw [devices', devices]
    cases stored' with
    | nil => rfl
    | cons ds rest => rfl
  · intro number x found active
    obtain ⟨y, found_y, ran⟩ := views number x found active
    obtain ⟨z, found_z, ran'⟩ := views' number y found_y ran.active
    rw [ran.bus] at ran'
    exact ⟨z, found_z, ran.trans ran'⟩

theorem Still.ran (still : w.Still v) : w.Ran 0 0 v := by
  refine ⟨[], still.publications, by rw [still.registry]; rfl, ?_⟩
  intro number x found active
  exact ⟨x, by rw [still.views, found]; rfl, .refl active⟩

theorem Ran.refl (w : World) : w.Ran 0 0 w := (Still.refl w).ran

end World

/-- An emission of a topic on a bus. -/
def Command.fires (topic bus : String) : Command → Bool
  | .emit b t => b = bus && t = topic
  | _ => false

/-- How often a topic is fired on a bus. -/
def Hub.firingsIn (run : List Command) (topic bus : String) : Nat := run.countP (·.fires topic bus)

theorem Hub.firingsIn_cons (c : Command) (rest : List Command) (topic : String) :
    firingsIn (c :: rest) topic = firingsIn [c] topic + firingsIn rest topic := by
  funext bus
  rw [Pi.add_apply]
  unfold firingsIn
  rw [List.countP_cons, List.countP_singleton, Nat.add_comm]

theorem Hub.firingsIn_emit (bus topic other name : String) :
    firingsIn [.emit bus topic] other name = if bus = name ∧ topic = other then 1 else 0 := by
  unfold firingsIn
  rw [List.countP_singleton]
  simp only [Command.fires, Bool.and_eq_true, decide_eq_true_eq]

namespace View

variable {x : View} (active : x.active = true)

include active

theorem ran_cycled : x.Ran 1 0 [] (x.turned .cyclePattern) where
  active := active
  bus := rfl
  settings := rfl
  pattern := Nat.mod_mod _ _
  isometric := (Bool.xor_false _).symm
  revision := rfl
  kept _ := rfl
  told _ none_stored := nomatch none_stored

theorem ran_toggled : x.Ran 0 1 [] (x.turned .toggleIsometric) where
  active := active
  bus := rfl
  settings := rfl
  pattern := rfl
  isometric := (Bool.xor_true _).symm
  revision := rfl
  kept _ := rfl
  told _ none_stored := nomatch none_stored

theorem ran_signalled (bus topic : String) :
    x.Ran (firingsIn [.emit bus topic] Bus.cycleTopic x.bus)
      (firingsIn [.emit bus topic] Bus.toggleTopic x.bus) [] (x.signalled bus topic) := by
  have different : Bus.toggleTopic ≠ Bus.cycleTopic := by decide
  simp only [firingsIn_emit]
  unfold signalled
  cases stands : Gesture.ofTopic? topic with
  | none =>
    have no_cycle : topic ≠ Bus.cycleTopic := by
      rintro rfl
      exact nomatch stands
    have no_toggle : topic ≠ Bus.toggleTopic := by
      rintro rfl
      exact nomatch stands
    simp only [no_cycle, no_toggle, and_false, if_false]
    exact .refl active
  | some g =>
    have topic_eq := Gesture.ofTopic?_eq_some.mp stands
    by_cases here : bus = x.bus
    · subst here
      simp only [active, true_and, and_self, if_true]
      cases g with
      | cyclePattern =>
        obtain rfl := Option.some.inj topic_eq
        simpa [different.symm] using ran_cycled active
      | toggleIsometric =>
        obtain rfl := Option.some.inj topic_eq
        simpa [different] using ran_toggled active
      | requestRender | activate | deactivate | render | receive => exact nomatch topic_eq
    · simp only [here, Ne.symm here, and_false, false_and, if_false]
      exact .refl active

theorem ran_informed (ds : List Device) : x.Ran 0 0 [ds] (x.informed ds) := by
  have heard : x.informed ds = (x.tell ds).redrawn := if_pos active
  rw [heard]
  refine ⟨active, rfl, rfl, rfl, (Bool.xor_false _).symm, rfl, nofun, ?_⟩
  rintro _ ⟨⟩
  exact x.holds_tell ds

end View

/-- A run consists of emissions, of commands that publish, and of commands that only look on. -/
def Command.isTrigger : Command → Bool
  | .emit _ _ => true
  | c => c.publishes || c.looksOn

/-- The hub is in order, and active views are told of whatever is stored. -/
def publishing (scripts : List (String × Script)) (ids : List String) : Law where
  holds := World.InOrder scripts ids
  moves := World.Ran 0 0
  breaks := False
  refl := World.Ran.refl
  trans first second := by simpa only [add_zero] using first.trans second

namespace Law

variable {scripts : List (String × Script)} {ids : List String}

theorem leavesHandlers_of_looksOn {c : Change} (looks : c.LooksOn) : c.LeavesHandlers ids := by
  cases c with
  | note | firing | openBus | tellInbox | makePlayer | modifyPlayer | setLooping | beginFanOut
  | call | settle => trivial
  | _ => exact looks.elim

theorem publishing_permits : (publishing scripts ids).Permits Change.LooksOn := by
  have change : ∀ {w : World} {c : Change}, c.LooksOn → (publishing scripts ids).holds w →
      (publishing scripts ids).holds (c.apply w) ∧
        (publishing scripts ids).moves w (c.apply w) := by
    intro w c looks order
    exact ⟨(tuning_change (leavesHandlers_of_looksOn looks) order).1,
      (looking_change looks order.1.2.1).2.ran⟩
  exact .of_change change
    ⟨fun _ => trivial, trivial, fun _ _ _ _ => trivial, fun _ _ _ => trivial⟩

section Session

variable {steps : List Command} (leaves : leavesHandlers scripts steps)
  (lookers : lookOn scripts) (depth : Nat)

include leaves lookers

theorem publishing_publish (ds : List Device) :
    (publishing scripts (viewIds scripts steps)).Agree (publish (fireAt depth) ds)
      (publish (fireAt depth) ds) := by
  intro w order
  refine ⟨rfl, ?_⟩
  have agree : (tuning scripts (viewIds scripts steps)).Agree (publish (fireAt depth) ds)
      (publish (fireAt depth) ds) :=
    agree_publish tuning_permits (tuning_fireAt leaves depth) routine_leavesHandlers.toAside
      trivial fun _ => trivial
  have in_order := (agree w order).2
  obtain ⟨_, _, known⟩ := lookOn_iff.mp lookers
  obtain ⟨count, v, run, turns⟩ := publish_turns order (looking_fireAt lookers depth) known ds
  rw [run] at in_order ⊢
  refine ⟨in_order.1, [ds], turns.publications, by rw [turns.registry]; rfl, ?_⟩
  intro number x found active
  refine ⟨x.informed ds, ?_, x.ran_informed active ds⟩
  rw [turns.views]
  exact congrArg (Option.map _) found

omit leaves in
/-- An emission leaves the registry and the views on other buses as they are. -/
theorem emission_turns (bus topic : String) {w : World}
    (order : w.InOrder scripts (viewIds scripts steps)) :
    w.Turns (fun _ x => x.signalled bus topic)
      ((command (fireAt depth) (.emit bus topic)).after w) := by
  obtain ⟨count, v, run, turns⟩ := emit_turns order (looking_fireAt lookers depth) bus topic
  have left : (command (fireAt depth) (.emit bus topic)).after w = v := by
    unfold Act.after
    change leaves ((Answer.number <$> emit (fireAt depth) bus topic).run w) = v
    rw [run_map, run]
    rfl
  rw [left]
  exact turns

theorem command_ran {c : Command} (member : c ∈ allCommands scripts steps)
    (triggers : c.isTrigger) {w : World} (order : w.InOrder scripts (viewIds scripts steps)) :
    let v := (command (fireAt depth) c).after w
    v.InOrder scripts (viewIds scripts steps) ∧
      w.Ran (firingsIn [c] Bus.cycleTopic) (firingsIn [c] Bus.toggleTopic) v := by
  intro v
  have in_order := (agree_command tuning_permits routine_leavesHandlers
    (tuning_fireAt leaves depth) c (within_of_leavesHandlers leaves member) w order).2.after.1
  refine ⟨in_order, ?_⟩
  have unfired : (∀ bus topic, c ≠ .emit bus topic) → ∀ topic, firingsIn [c] topic = 0 := by
    intro no_emission topic
    funext bus
    cases c with
    | emit b t => exact absurd rfl (no_emission b t)
    | _ => rfl
  -- an emission counts by its topic; of the others only those that publish make a difference
  by_cases emission : ∃ bus topic, c = .emit bus topic
  · obtain ⟨bus, topic, rfl⟩ := emission
    have turns := emission_turns lookers depth bus topic order
    refine ⟨[], turns.publications, by rw [turns.registry]; rfl, ?_⟩
    intro number x found active
    refine ⟨x.signalled bus topic, ?_, x.ran_signalled active bus topic⟩
    rw [turns.views, found]
    rfl
  · have no_emission : ∀ bus topic, c ≠ .emit bus topic := by
      rintro bus topic rfl
      exact emission ⟨bus, topic, rfl⟩
    rw [unfired no_emission, unfired no_emission]
    cases publishes : c.publishes with
    | true =>
      have published := agree_publication publishing_permits aside_looksOn steering_looksOn
        (fun ds _ => publishing_publish leaves lookers depth ds) publishes w order
      exact published.2.after.2
    | false =>
      have looks : c.looksOn := by
        cases c with
        | emit => exact absurd rfl (no_emission _ _)
        | _ => simpa only [Command.isTrigger, publishes, Bool.false_or] using triggers
      have looked := looking_command (looking_fireAt lookers depth) looks w order.1.2.1
      exact looked.2.after.2.ran

omit depth in
theorem carryOutAll_ran {run : List Command} (members : ∀ c ∈ run, c ∈ allCommands scripts steps)
    (triggers : ∀ c ∈ run, c.isTrigger) {w : World}
    (order : w.InOrder scripts (viewIds scripts steps)) :
    (carryOutAll w run).InOrder scripts (viewIds scripts steps) ∧
      w.Ran (firingsIn run Bus.cycleTopic) (firingsIn run Bus.toggleTopic) (carryOutAll w run) := by
  induction run generalizing w with
  | nil => exact ⟨order, .refl w⟩
  | cons c rest ih =>
    obtain ⟨member, later⟩ := List.forall_mem_cons.mp members
    obtain ⟨trigger, triggers_later⟩ := List.forall_mem_cons.mp triggers
    obtain ⟨order_then, first⟩ := command_ran leaves lookers (scriptDepth w.scripts) member trigger
      order
    obtain ⟨order_last, others⟩ := ih later triggers_later order_then
    refine ⟨order_last, ?_⟩
    rw [firingsIn_cons c rest, firingsIn_cons c rest]
    exact first.trans others

end Session

end Law

section Shown

variable {x y : View} {cycles toggles : Nat} {stored : List (List Device)}

theorem Settings.backdrop_of_mod (s : Settings) (isometric : Bool) {i j : Nat}
    (same : i % s.patternCount = j % s.patternCount) :
    s.backdrop isometric i = s.backdrop isometric j := by
  have same : (i : Int) % (s.patternCount : Int) = j % s.patternCount := by
    exact_mod_cast congrArg (Nat.cast : Nat → Int) same
  unfold Settings.backdrop
  rw [same]

/-- What a view shows has the class of the pattern with this number. A view cannot be drawn if the
number is too long to be written. -/
def View.ShowsPattern (x : View) (p : Nat) : Prop :=
  (x.scene = none ↔ 10 ^ digitLimit ≤ p) ∧
    ∀ scene ∈ x.scene, scene.backdrop.pattern = "pattern" ++ decimalOfInt p

theorem View.showsPattern (x : View) :
    x.ShowsPattern (x.stance.patternIndex % x.settings.patternCount) :=
  ⟨project_eq_none, fun _ drawn => Settings.pattern_of_backdrop (project_eq_some drawn).1⟩

theorem View.Ran.showsPattern (ran : x.Ran cycles toggles stored y) :
    y.ShowsPattern ((x.stance.patternIndex + cycles) % x.settings.patternCount) := by
  have shows := y.showsPattern
  rwa [ran.settings, ran.pattern] at shows

theorem View.Ran.backdrop (ran : x.Ran cycles toggles stored y) {scene : Scene}
    (drawn : y.scene = some scene) :
    x.settings.backdrop (x.stance.isometric ^^ toggles.bodd)
      ((x.stance.patternIndex + cycles : Nat) : Int) = some scene.backdrop := by
  rw [← (project_eq_some drawn).1, ran.settings, ran.isometric]
  exact (x.settings.backdrop_of_mod _ ran.pattern).symm

/-- A view that was told of something, or was up to date before, shows what is stored last. -/
theorem View.Ran.shows (ran : x.Ran cycles toggles stored y) {ds : List Device}
    (current : stored ≠ [] ∨ sameList Device.same x.devices ds) {scene shown : Scene}
    (drawn : y.scene = some scene) {stance : Stance}
    (projected : project x.settings stance (stored.headD ds) = some shown) :
    sameList Sprite.same scene.sprites shown.sprites ∧ scene.skipped = shown.skipped := by
  have up_to_date : sameList Device.same y.devices (stored.headD ds) := by
    cases stored with
    | nil =>
      rw [ran.kept rfl]
      exact current.resolve_left (absurd rfl)
    | cons newest rest => exact ran.told newest rfl
  obtain ⟨_, sprites, skipped⟩ := project_eq_some drawn
  obtain ⟨_, sprites_now, skipped_now⟩ := project_eq_some projected
  rw [sprites, skipped, sprites_now, skipped_now, ran.settings]
  exact ⟨Projection.same_sprites x.settings up_to_date 0,
    Projection.same_skipped x.settings up_to_date 0⟩

end Shown

/-- In a session in which views are wired by activation and deactivation only, and whose scripts
only look on, let there be a run of emissions and publications, in any order. What is seen of an
active view afterwards is told by how often its bus was signalled to cycle and to toggle and by how
many collections were stored: the revision, the backdrop and, once something was stored or if the
view was up to date, the sprites and the names of what is left out, which are those of the stored
collection in any stance. No emission touches the registry or a view on another bus. And whatever
happened before, also to the settings, one more emission moves an active view to the next pattern.
-/
theorem triggers_are_counted {initial : Payload} {scripts : List (String × Script)}
    {earlier run : List Command} {start_world : World}
    (starts : start initial scripts = .ok start_world)
    (leaves : leavesHandlers scripts (earlier ++ run)) (lookers : lookOn scripts)
    (triggers : ∀ c ∈ run, c.isTrigger) :
    let w := carryOutAll start_world earlier
    let v := carryOutAll w run
    (∃ stored, v.publications = stored ++ w.publications ∧
      v.registry.devices = stored.headD w.registry.devices ∧
      ∀ (number : Nat) (x : View), w.views[number]? = some x → x.active = true →
        let cycles := firingsIn run Bus.cycleTopic x.bus
        let toggles := firingsIn run Bus.toggleTopic x.bus
        ∃ y, v.views[number]? = some y ∧ y.active = true ∧
          y.revision = x.revision + (cycles + toggles + stored.length) ∧
          y.ShowsPattern ((x.stance.patternIndex + cycles) % x.settings.patternCount) ∧
          ∀ scene ∈ y.scene,
            x.settings.backdrop (x.stance.isometric ^^ toggles.bodd)
              ((x.stance.patternIndex + cycles : Nat) : Int) = some scene.backdrop ∧
            (stored ≠ [] ∨ sameList Device.same x.devices w.registry.devices →
              ∀ stance, ∀ shown ∈ project x.settings stance v.registry.devices,
                sameList Sprite.same scene.sprites shown.sprites ∧
                  scene.skipped = shown.skipped)) ∧
    (∀ before bus topic, before <+: run →
      let u := carryOutAll w before
      let u' := (carryOut (.emit bus topic)).after u
      u'.registry = u.registry ∧
        ∀ (number : Nat) (x : View), u.views[number]? = some x → x.bus ≠ bus →
          u'.views[number]? = some x) ∧
    ∀ (number : Nat) (x : View), w.views[number]? = some x → x.active = true →
      let p := x.stance.patternIndex % x.settings.patternCount
      x.ShowsPattern p ∧
        ∃ y, ((carryOut (.emit x.bus Bus.cycleTopic)).after w).views[number]? = some y ∧
          y.ShowsPattern ((p + 1) % x.settings.patternCount) := by
  intro w v
  let steps := earlier ++ run
  have order : w.InOrder scripts (viewIds scripts steps) := by
    have listed : ∀ c ∈ earlier, c ∈ allCommands scripts steps := fun c member =>
      List.mem_append_left _ (List.mem_append_left _ member)
    exact (Law.carryOutAll_admits Law.tuning_permits Law.routine_leavesHandlers
      (tuning_binds leaves) (fun c member => within_of_leavesHandlers leaves (listed c member))
      (inOrder_start starts _)).1
  have members : ∀ c ∈ run, c ∈ allCommands scripts steps := fun c member =>
    List.mem_append_left _ (List.mem_append_right _ member)
  refine ⟨?_, ?_, ?_⟩
  · obtain ⟨_, stored, published, devices, views⟩ :=
      Law.carryOutAll_ran leaves lookers members triggers order
    refine ⟨stored, published, devices, ?_⟩
    intro number x found active cycles toggles
    obtain ⟨y, found_y, ran⟩ := views number x found active
    refine ⟨y, found_y, ran.active, ran.revision, ran.showsPattern, ?_⟩
    intro scene drawn
    refine ⟨ran.backdrop drawn, ?_⟩
    intro current stance shown projected
    change project x.settings stance (carryOutAll w run).registry.devices = some shown at projected
    rw [devices] at projected
    exact ran.shows current drawn projected
  · intro before bus topic earlier_on u u'
    have order_u := (Law.carryOutAll_ran leaves lookers
      (fun c member => members c (earlier_on.subset member))
      (fun c member => triggers c (earlier_on.subset member)) order).1
    have turns := Law.emission_turns lookers (scriptDepth u.scripts) bus topic order_u
    refine ⟨turns.registry, ?_⟩
    intro number x found elsewhere
    have found_then := turns.views number
    rw [found, Option.map_some, x.signalled_of_ne elsewhere] at found_then
    exact found_then
  · intro number x found active p
    have turns := Law.emission_turns lookers (scriptDepth w.scripts) x.bus Bus.cycleTopic order
    have ran := x.ran_signalled active x.bus Bus.cycleTopic
    rw [firingsIn_emit, if_pos ⟨rfl, rfl⟩] at ran
    refine ⟨x.showsPattern, x.signalled x.bus Bus.cycleTopic, ?_, ?_⟩
    · have found_then := turns.views number
      rw [found] at found_then
      exact found_then
    · rw [Nat.mod_add_mod]
      exact ran.showsPattern

/-- A callback that fails whenever it is called, after it has asked for the devices. -/
def grumbler : List (String × Script) :=
  [("log", ⟨true, 1, [.devices, .play], .raises "boom", none⟩)]

/-- Two maps on two buses, one of them with a pattern index beyond the number of patterns. -/
def twoMaps : List Command :=
  [.subscribe "main" Bus.cycleTopic (.named "log"), .register (.named "log"),
    .view "a" "main" none (some "log"), .view "b" "pier" none none, .gesture .activate "a",
    .gesture .activate "b",
    .setStance "a" (some (.object [("pattern_index", .int 7), ("isometric", .bool true)]))]

def mixedTriggers : List Command :=
  [.emit "main" Bus.cycleTopic, .update (.entries [.device ⟨"van", true, none, none, none⟩]),
    .emit "main" Bus.toggleTopic, .emit "pier" Bus.cycleTopic, .clear,
    .emit "main" Bus.cycleTopic]

/-- Two cycles, one toggle and two publications for one map, one cycle and as many publications for
the other. -/
theorem mixed_triggers_are_counted :
    let start_world := { World.empty with scripts := grumbler }
    let w := carryOutAll start_world twoMaps
    let v := carryOutAll w mixedTriggers
    start (.entries []) grumbler = .ok start_world ∧
      leavesHandlers grumbler (twoMaps ++ mixedTriggers) = true ∧ lookOn grumbler = true ∧
      (∀ c ∈ mixedTriggers, c.isTrigger = true) ∧
      (∃ stored, v.publications = stored ++ w.publications ∧
        ∀ (number : Nat) (x : View), w.views[number]? = some x → x.active = true →
          ∃ y, v.views[number]? = some y ∧
            y.revision = x.revision + (firingsIn mixedTriggers Bus.cycleTopic x.bus +
              firingsIn mixedTriggers Bus.toggleTopic x.bus + stored.length)) ∧
      w.views.map (fun x => (x.active, x.stance.patternIndex, x.stance.isometric, x.revision)) =
        [(true, 7, true, 1), (true, 0, false, 1)] ∧
      v.views.map (fun x => (x.active, x.stance.patternIndex, x.stance.isometric, x.revision)) =
        [(true, 0, false, 6), (true, 1, false, 4)] := by
  intro start_world w v
  have starts : start (.entries []) grumbler = .ok start_world := rfl
  have leaves : leavesHandlers grumbler (twoMaps ++ mixedTriggers) = true := by decide
  have lookers : lookOn grumbler = true := by decide
  have triggers : ∀ c ∈ mixedTriggers, c.isTrigger = true :=
    List.all_eq_true.mp (by decide : mixedTriggers.all (·.isTrigger) = true)
  obtain ⟨⟨stored, published, _, views⟩, _⟩ :=
    triggers_are_counted starts leaves lookers triggers
  refine ⟨starts, leaves, lookers, triggers, ⟨stored, published, ?_⟩, by decide, by decide⟩
  intro number x found active
  obtain ⟨y, found_y, _, revision, _⟩ := views number x found active
  exact ⟨y, found_y, revision⟩

def stopper : List (String × Script) := [("stop", ⟨false, 0, [], .cancels, none⟩)]

/-- None of the three sessions below has a script that performs anything, and in each of them the
map stays active; but in the first an emission is cancelled before it comes to the map, in the
second the map was unsubscribed by hand, and in the third it was told of a device that is not
stored. -/
theorem triggers_may_count_for_nothing :
    let seen := fun w : World =>
      w.views.map fun x => (x.active, x.stance.patternIndex, x.revision)
    let cancelled := carryOutAll { World.empty with scripts := stopper }
      [.subscribe "main" Bus.cycleTopic (.named "stop"), .view "a" "main" none none,
        .gesture .activate "a"]
    let unsubscribed := carryOutAll World.empty
      [.view "a" "main" none none, .gesture .activate "a",
        .unsubscribe "main" Bus.cycleTopic (.gesture .cyclePattern "a")]
    let emission := Command.emit "main" Bus.cycleTopic
    let told := carryOutAll World.empty
      [.view "a" "main" none none, .gesture .activate "a",
        .tell "a" [.device ⟨"van", true, some ⟨1, 2, 3⟩, some ⟨90, 0, 0⟩, none⟩]]
    (∀ s ∈ stopper, s.2.acts.length = 0) ∧
      seen cancelled = [(true, 0, 1)] ∧ seen (carryOutAll cancelled [emission]) = [(true, 0, 1)] ∧
      seen unsubscribed = [(true, 0, 1)] ∧
      seen (carryOutAll unsubscribed [emission]) = [(true, 0, 1)] ∧
      (carryOutAll told [emission]).views.map
        (fun x => (x.active, x.scene.map fun scene => scene.sprites.map (·.name))) =
          [(true, some ["van"])] ∧
      (carryOutAll told [emission]).registry.devices = [] := by
  intro seen cancelled unsubscribed emission told
  exact ⟨by decide, by decide, by decide, by decide, by decide, by decide, by decide⟩

end FleetMap
