import FleetMap.Proofs.Hub.Listening
import FleetMap.Proofs.Hub.Rest
import Mathlib.Data.List.Basic
import Mathlib.Logic.Function.Iterate

set_option autoImplicit false

namespace FleetMap

open Act Hub

namespace View

def redrawn (x : View) : View := { x with revision := x.revision + 1 }

/-- After a gesture that views are subscribed with; the other gestures turn nothing. -/
def turned (g : Gesture) (x : View) : View :=
  match g with
  | .cyclePattern => x.cycled.redrawn
  | .toggleIsometric => x.toggled.redrawn
  | _ => x

def informed (ds : List Device) (x : View) : View :=
  if x.active then (x.tell ds).redrawn else x

end View

def Gesture.ofTopic? (topic : String) : Option Gesture :=
  Gesture.all.find? fun g => g.topic? = some topic

theorem Gesture.ofTopic?_eq_some {g : Gesture} {topic : String} :
    ofTopic? topic = some g ↔ g.topic? = some topic := by
  constructor
  · intro found
    simpa using List.find?_some found
  · intro stands
    cases g with
    | cyclePattern | toggleIsometric =>
      obtain rfl := Option.some.inj stands
      decide
    | requestRender | activate | deactivate | render | receive => exact nomatch stands

/-- After an emission, to which the active views of its bus listen. -/
def View.signalled (bus topic : String) (x : View) : View :=
  match Gesture.ofTopic? topic with
  | some g => if x.active ∧ x.bus = bus then x.turned g else x
  | none => x

theorem View.signalled_of_ne (x : View) {bus topic : String} (elsewhere : x.bus ≠ bus) :
    x.signalled bus topic = x := by
  unfold signalled
  split
  · exact if_neg fun both => elsewhere both.2
  · rfl

/-- From one world to the other every view was turned as `f` says of its number; the registry and
the buses stayed as they are, and nothing was published. -/
structure World.Turns (f : Nat → View → View) (w v : World) : Prop where
  views : ∀ number, v.views[number]? = w.views[number]?.map (f number)
  registry : v.registry = w.registry
  bus : ∀ name, v.bus name = w.bus name
  publications : v.publications = w.publications

/-- Nothing was turned at all. -/
abbrev World.Still : World → World → Prop := World.Turns fun _ => id

namespace World

variable {u v w : World} {f g : Nat → View → View}

theorem Turns.trans (first : u.Turns f v) (second : v.Turns g w) :
    u.Turns (fun number => g number ∘ f number) w where
  views number := by rw [second.views, first.views, Option.map_map]
  registry := second.registry.trans first.registry
  bus name := (second.bus name).trans (first.bus name)
  publications := second.publications.trans first.publications

theorem Turns.congr (turns : w.Turns f v)
    (same : ∀ number x, w.views[number]? = some x → f number x = g number x) : w.Turns g v where
  views number := by
    rw [turns.views]
    exact Option.map_congr fun x found => same number x found
  registry := turns.registry
  bus := turns.bus
  publications := turns.publications

theorem Still.of_same (views : v.views = w.views) (registry : v.registry = w.registry)
    (bus : ∀ name, v.bus name = w.bus name) (publications : v.publications = w.publications) :
    w.Still v :=
  ⟨fun number => by rw [views, Option.map_id_fun, id], registry, bus, publications⟩

theorem Still.refl (w : World) : w.Still w := .of_same rfl rfl (fun _ => rfl) rfl

/-- Telling a view, or turning it by a gesture, and asking for a rendering of it. -/
theorem turns_asked (w : World) (number : Nat) (h : View → View) :
    w.Turns (fun n x => if number = n then (h x).redrawn else x)
      ((w.modifyView number h).asked number) := by
  have only := (w.onlyViews_modifyView number h).trans (onlyViews_asked _ number)
  refine ⟨?_, by rw [registry_asked]; rfl, fun name => by rw [bus_asked]; rfl,
    only.journal (fun _ => rfl) (fun _ _ => rfl) fun _ => rfl⟩
  intro n
  rw [views_asked, modifyView, List.modify_modify_eq, List.getElem?_modify]
  by_cases same : number = n
  · simp [same, View.redrawn]
  · simp [same]

end World

/-- A change to nothing that belongs to views, the registry or a bus. -/
def Change.LooksOn : Change → Prop
  | .note _ | .firing _ _ | .openBus _ | .tellInbox _ _ | .makePlayer _ | .modifyPlayer _ _
  | .setLooping _ | .beginFanOut | .call _ _ _ | .settle _ _ _ => True
  | _ => False

/-- A command that at most asks the registry or a bus something, or steers a player. -/
def Command.looksOn : Command → Bool
  | .devices | .isRegistered _ | .listenerCount _ _ | .player _ | .load _ _ | .play | .pause
  | .reset => true
  | _ => false

/-- Scripts that perform nothing on the registry, a bus or a view, and leave every fan-out able to
go on: they do not break it off, and they have names. -/
def Hub.lookOn (scripts : List (String × Script)) : Bool :=
  scripts.all (·.2.acts.all (·.looksOn)) && unbreaking scripts && named scripts

theorem Hub.lookOn_iff {scripts : List (String × Script)} :
    lookOn scripts = true ↔
      (∀ s ∈ scripts, ∀ c ∈ s.2.acts, c.looksOn = true) ∧ unbreaking scripts = true ∧
        named scripts = true := by
  simp only [lookOn, Bool.and_eq_true, List.all_eq_true, and_assoc]

/-- The scripts are the given ones; views, registry and buses stay as they are. -/
def looking (scripts : List (String × Script)) : Law where
  holds w := w.scripts = scripts
  moves := World.Still
  breaks := False
  refl := World.Still.refl
  trans := World.Turns.trans

namespace Law

variable {scripts : List (String × Script)}

theorem looking_change {w : World} {c : Change} (looks : c.LooksOn)
    (holds : (looking scripts).holds w) :
    (looking scripts).holds (c.apply w) ∧ (looking scripts).moves w (c.apply w) := by
  refine ⟨(Change.apply_names w c).1.trans holds, ?_⟩
  cases c with
  | openBus bus =>
    refine .of_same rfl rfl ?_ rfl
    intro name
    change (w.setBus bus (w.bus bus)).bus name = w.bus name
    rw [World.bus_setBus]
    split
    · rename_i same
      rw [same]
    · rfl
  | note | firing | tellInbox | makePlayer | modifyPlayer | setLooping | beginFanOut | call
  | settle => exact .of_same rfl rfl (fun _ => rfl) rfl
  | _ => exact looks.elim

theorem looking_permits : (looking scripts).Permits Change.LooksOn :=
  .of_change looking_change
    ⟨fun _ => trivial, trivial, fun _ _ _ _ => trivial, fun _ _ _ => trivial⟩

theorem aside_looksOn : Aside Change.LooksOn := by
  constructor
  all_goals
    intros
    trivial

theorem steering_looksOn : Steering Change.LooksOn := by
  constructor
  all_goals
    intros
    trivial

theorem looking_command {fire : Fire}
    (fired : ∀ name signal, (looking scripts).Agree (fire name signal) (fire name signal))
    {c : Command} (looks : c.looksOn) :
    (looking scripts).Agree (command fire c) (command fire c) := by
  apply agree_command_of looking_permits aside_looksOn fired c
  · intro _
    cases c with
    | devices | isRegistered | listenerCount => trivial
    | player => exact fun _ _ => trivial
    | load => exact fun _ _ _ => trivial
    | play | reset => exact steering_looksOn
    | pause => exact fun _ => trivial
    | _ => exact nomatch looks
  · intro handles
    cases c with
    | emit | gesture | setSettings | setStance => exact nomatch looks
    | _ => exact nomatch handles

theorem looking_fireAt (lookers : lookOn scripts) (depth : Nat) (name : String)
    (signal : Signal) :
    (looking scripts).Agree (fireAt depth name signal) (fireAt depth name signal) := by
  obtain ⟨looks, unbroken, _⟩ := lookOn_iff.mp lookers
  apply agree_fireAt_of_acts
  · exact fun _ _ _ => looking_change trivial
  · rintro w name script rfl found fire fired c member
    exact looking_command fired (looks _ (mem_of_lookupField found) c member)
  · rintro w name script rfl found broken
    exact absurd broken (unbreaking_of_lookup unbroken found)

end Law

/-- An act that returned, or failed with an error that has a text, left a world like this. -/
def Act.Ends {α : Type} (P : World → Prop) : EStateM.Result Stop World α → Prop
  | .ok _ v => P v
  | .error (.failed _) v => P v
  | .error _ _ => False

section Fired

variable {α : Type} {scripts : List (String × Script)} {f : Nat → View → View}

/-- What looking on is done in a world that was turned before. -/
theorem World.Turns.ends {u w : World} (turns : u.Turns f w)
    {ends : EStateM.Result Stop World α} (admits : (looking scripts).Admits w ends) :
    Act.Ends (fun v => v.scripts = scripts ∧ u.Turns f v) ends := by
  cases ends with
  | ok a v => exact ⟨admits.1, turns.trans admits.2⟩
  | error stop v =>
    obtain ⟨same, turned, unbroken⟩ := admits
    cases stop with
    | failed e => exact ⟨same, turns.trans turned⟩
    | mute _ | cancelled => exact unbroken rfl

/-- A call that ends like this lets the fan-out go on, which only takes notes. -/
theorem Round.left_turns {r : Round} {c : Call} (known : ∃ note, r.complaint c.who = .ok note)
    (ends : Act.Ends (fun v => v.scripts = scripts ∧ c.start.Turns f v) (r.result c)) :
    r.breaksOff c = none ∧ (r.left c).scripts = scripts ∧ c.start.Turns f (r.left c) := by
  have entered : ∀ (e : Entry) (v : World), e.publication? = none → v.Still (v.enter e) :=
    fun e v silent => .of_same rfl rfl (fun _ => rfl) (List.filterMap_cons_none silent)
  obtain ⟨note, known⟩ := known
  unfold Round.breaksOff Round.left
  cases result : r.result c with
  | ok a v =>
    rw [result] at ends
    exact ⟨rfl, ends.1, ends.2.trans (entered _ v rfl)⟩
  | error stop v =>
    rw [result] at ends
    cases stop with
    | failed e =>
      simp only [Complaint.word_failed known]
      exact ⟨trivial, ends.1, (ends.2.trans (entered _ v rfl)).trans (entered _ _ rfl)⟩
    | mute _ | cancelled => exact ends.elim

/-- If each call of a fan-out turns the views in the way of the one who is called, all of them
together do so in the ways of all who are listed, one after another. -/
theorem Round.serve_turns (r : Round) {turn : Listener → Nat → View → View}
    {listeners : List Listener} (known : ∀ who ∈ listeners, ∃ note, r.complaint who = .ok note)
    (each : ∀ who ∈ listeners, ∀ w : World, w.scripts = scripts →
      Act.Ends (fun v => v.scripts = scripts ∧ w.Turns (turn who) v) ((r.call who).run w))
    {w : World} (same : w.scripts = scripts) :
    ∃ count v, (r.serve listeners).run w = .ok count v ∧ v.scripts = scripts ∧
      w.Turns (fun number x => listeners.foldl (fun x who => turn who number x) x) v := by
  -- each call turns what the calls before it have left, which makes a fold over the listeners
  induction listeners generalizing w with
  | nil => exact ⟨0, w, rfl, same, World.Still.refl w⟩
  | cons who rest ih =>
    obtain ⟨first, others⟩ := List.forall_mem_cons.mp each
    obtain ⟨known_first, known_others⟩ := List.forall_mem_cons.mp known
    have called : w.Still (w.enter (.called r.number who r.signal)) :=
      .of_same rfl rfl (fun _ => rfl) rfl
    obtain ⟨goes_on, same_left, turned⟩ :=
      Round.left_turns (r := r) (c := r.firstCall w who) known_first (first _ same)
    obtain ⟨count, v, run, same_then, turns⟩ := ih known_others others same_left
    have run_all : (r.serve (who :: rest)).run w = _ := r.run_serve_cons goes_on
    rw [run_map, run] at run_all
    exact ⟨_, v, run_all, same_then, (called.trans turned).trans turns⟩

theorem fanOut_turns (listeners : List Listener) (signal : Signal) {call : Listener → Act Unit}
    {complaint : Complaint} (known : ∀ who ∈ listeners, ∃ note, complaint who = .ok note)
    {turn : Listener → Nat → View → View}
    (each : ∀ who ∈ listeners, ∀ w : World, w.scripts = scripts →
      Act.Ends (fun v => v.scripts = scripts ∧ w.Turns (turn who) v) ((call who).run w))
    {w : World} (same : w.scripts = scripts) :
    ∃ count v, (fanOut listeners signal call complaint).run w = .ok count v ∧
      v.scripts = scripts ∧
      w.Turns (fun number x => listeners.foldl (fun x who => turn who number x) x) v := by
  let begun : World := { w with fanOuts := w.fanOuts + 1 }
  have still : w.Still begun := .of_same rfl rfl (fun _ => rfl) rfl
  have same_begun : begun.scripts = scripts := same
  obtain ⟨count, v, run, same_then, turns⟩ :=
    Round.serve_turns ⟨w.fanOuts, signal, call, complaint⟩ known each same_begun
  exact ⟨count, v, run, same_then, still.trans turns⟩

theorem foldl_of_count {l : Listener} (h : View → View) (listeners : List Listener) (x : View) :
    listeners.foldl (fun x who => if who = l then h x else x) x = h^[listeners.count l] x := by
  induction listeners generalizing x with
  | nil => rfl
  | cons who rest ih =>
    rw [List.foldl_cons, ih]
    by_cases itself : who = l
    · rw [if_pos itself, itself, List.count_cons_self, Function.iterate_succ_apply]
    · rw [if_neg itself, List.count_cons_of_ne itself]

variable {fire : Fire}
  (fired : ∀ name signal, (looking scripts).Agree (fire name signal) (fire name signal))

include fired

/-- A gesture that a view is subscribed with turns it, and its hook looks on. -/
theorem perform_turns {g : Gesture} {topic : String} (stands : g.topic? = some topic)
    (turned : Nat) {w : World} (same : w.scripts = scripts) :
    Act.Ends (fun v => v.scripts = scripts ∧
        w.Turns (fun number x =>
          if Listener.gesture g turned = .gesture g number then x.turned g else x) v)
      ((perform fire g turned).run w) := by
  have hooked : ∀ v : World, v.scripts = scripts →
      (looking scripts).Admits v ((callHook fire turned).run v) :=
    fun v same_now => (Law.agree_callHook fired turned v same_now).2
  cases g with
  | cyclePattern =>
    change Act.Ends _ ((cyclePattern fire turned).run w)
    rw [cyclePattern_eq]
    have names := (Change.apply_names w (.cycle turned)).1.trans same
    have turns := w.turns_asked turned View.cycled
    exact (turns.congr fun _ _ _ => by simp [View.turned]).ends (hooked _ names)
  | toggleIsometric =>
    change Act.Ends _ ((toggleIsometric fire turned).run w)
    rw [toggleIsometric_eq]
    have names := (Change.apply_names w (.toggle turned)).1.trans same
    have turns := w.turns_asked turned View.toggled
    exact (turns.congr fun _ _ _ => by simp [View.turned]).ends (hooked _ names)
  | requestRender | activate | deactivate | render | receive => exact nomatch stands

/-- A notice turns only the view that it is delivered to; other observers look on. -/
theorem deliver_turns (ds : List Device) (who : Listener) {w : World}
    (same : w.scripts = scripts) :
    Act.Ends (fun v => v.scripts = scripts ∧
        w.Turns (fun number x => if who = .view number then x.informed ds else x) v)
      ((deliver fire ds who).run w) := by
  have other : (∀ number, who ≠ .view number) →
      w.Turns (fun number x => if who = .view number then x.informed ds else x) w := by
    intro no_view
    simp only [no_view, if_false]
    exact World.Still.refl w
  cases who with
  | script name => exact (other nofun).ends (fired name (.notice ds) w same).2
  | inbox number =>
    exact (other nofun).ends
      (Law.agree_tellInbox Law.looking_permits Law.aside_looksOn number ds w same).2
  | gesture | inert => exact ⟨same, other nofun⟩
  | view told =>
    change Act.Ends _ ((tellView fire told ds).run w)
    rw [run_tellView]
    cases active : w.isActive told with
    | true =>
      have told_now : (Change.tell told ds).apply w = (w.modifyView told (·.tell ds)).asked told :=
        if_pos active
      have turns : w.Turns (fun number x => if Listener.view told = .view number then
          x.informed ds else x) ((Change.tell told ds).apply w) := by
        rw [told_now]
        apply (w.turns_asked told (·.tell ds)).congr
        intro number x found
        by_cases same : told = number
        · subst same
          simp only [World.isActive, found, Option.any_some] at active
          simp [View.informed, active]
        · simp [same]
      have names := (Change.apply_names w (.tell told ds)).1.trans same
      exact turns.ends (Law.agree_callHook fired told _ names).2
    | false =>
      refine ⟨same, (World.Still.refl w).congr ?_⟩
      intro number x found
      by_cases same : told = number
      · subst same
        simp only [World.isActive, found, Option.any_some] at active
        simp [View.informed, active]
      · simp [same]

/-- On a topic only gestures that it stands for turn views; other handlers look on. -/
theorem trigger_turns {topic : String} {who : Listener}
    (tuned : ∀ g number, who = .gesture g number → g.topic? = some topic) {w : World}
    (same : w.scripts = scripts) :
    Act.Ends (fun v => v.scripts = scripts ∧
        w.Turns (fun number x =>
          match Gesture.ofTopic? topic with
          | some g => if who = .gesture g number then x.turned g else x
          | none => x) v)
      ((trigger fire who).run w) := by
  have other : (∀ g number, who ≠ .gesture g number) →
      w.Turns (fun number x =>
        match Gesture.ofTopic? topic with
        | some g => if who = .gesture g number then x.turned g else x
        | none => x) w := by
    intro no_gesture
    apply (World.Still.refl w).congr
    intro number x _
    split
    · rw [if_neg (no_gesture _ number)]
      rfl
    · rfl
  cases who with
  | script name => exact (other nofun).ends (fired name .trigger w same).2
  | view | inbox | inert => exact ⟨same, other nofun⟩
  | gesture g n =>
    have stands := tuned g n rfl
    have turned := perform_turns fired stands n same
    rw [Gesture.ofTopic?_eq_some.mpr stands]
    exact turned

end Fired

section InOrder

variable {scripts : List (String × Script)} {ids : List String} {w : World}
  (order : w.InOrder scripts ids)

include order

/-- A view is listed on a topic for its bus while it is active, and only once. -/
theorem World.InOrder.count_gesture {number : Nat} {x : View} (found : w.views[number]? = some x)
    {g : Gesture} {topic : String} (stands : g.topic? = some topic) (bus : String) :
    ((w.bus bus).handlers topic).count (.gesture g number) =
      if x.active ∧ x.bus = bus then 1 else 0 := by
  by_cases same : x.bus = bus
  · subst same
    obtain ⟨_, cycled, toggled⟩ := order.1.1.inStep number x found
    simp only [and_true]
    cases g with
    | cyclePattern =>
      obtain rfl := Option.some.inj stands
      exact cycled
    | toggleIsometric =>
      obtain rfl := Option.some.inj stands
      exact toggled
    | requestRender | activate | deactivate | render | receive => exact nomatch stands
  · rw [if_neg fun both => same both.2, List.count_eq_zero]
    intro member
    obtain ⟨y, found_too, elsewhere, _⟩ := order.2 bus topic g number member
    obtain rfl := Option.some.inj (found.symm.trans found_too)
    exact same elsewhere.symm

variable {fire : Fire}
  (fired : ∀ name signal, (looking scripts).Agree (fire name signal) (fire name signal))

include fired

/-- An emission turns the active views of its bus, each once. -/
theorem emit_turns (bus topic : String) :
    ∃ count v, (emit fire bus topic).run w = .ok count v ∧
      w.Turns (fun _ x => x.signalled bus topic) v := by
  let opened := (Change.openBus bus).apply w
  have still : w.Still opened := (Law.looking_change (c := .openBus bus) trivial order.1.2.1).2
  have tuned : ∀ who ∈ (w.bus bus).handlers topic, ∀ g number, who = .gesture g number →
      g.topic? = some topic := by
    rintro who listed g number rfl
    obtain ⟨_, _, _, stands⟩ := order.2 bus topic g number listed
    exact stands
  have known : ∀ who ∈ (w.bus bus).handlers topic, ∃ note, handlerComplaint topic who = .ok note :=
    fun _ _ => ⟨_, rfl⟩
  obtain ⟨count, v, run, _, turns⟩ := fanOut_turns ((w.bus bus).handlers topic) .trigger known
    (fun who listed _ same => trigger_turns fired (tuned who listed) same) (w := opened)
    order.1.2.1
  refine ⟨count, v, ?_, (still.trans turns).congr ?_⟩
  · rw [← run, ← still.bus bus]
    rfl
  · intro number x found
    simp only [Function.comp, id]
    unfold View.signalled
    cases stands : Gesture.ofTopic? topic with
    | none => exact List.foldl_fixed _
    | some g =>
      rw [foldl_of_count, order.count_gesture found (Gesture.ofTopic?_eq_some.mp stands) bus]
      split
      · rfl
      · rfl

/-- A publication is stored, and every active view is told once. -/
theorem publish_turns (known : named scripts) (ds : List Device) :
    ∃ count v, (publish fire ds).run w = .ok count v ∧
      ((Change.store ds).apply w).Turns (fun _ x => x.informed ds) v := by
  let stored := (Change.store ds).apply w
  have known_now : named stored.scripts := by
    change named w.scripts
    rw [order.1.2.1]
    exact known
  obtain ⟨count, v, run, _, turns⟩ := fanOut_turns stored.registry.observers (.notice ds)
    (fun who _ => observerComplaint_of_named known_now who)
    (fun who _ _ same => deliver_turns fired ds who same) (w := stored) order.1.2.1
  refine ⟨count, v, run, turns.congr ?_⟩
  intro number x found
  have listed : stored.registry.observers.count (.view number) = if x.active then 1 else 0 :=
    (order.1.1.inStep number x found).1
  rw [foldl_of_count, listed]
  split
  · rfl
  · rename_i inactive
    exact (if_neg inactive).symm

end InOrder

end FleetMap
