import FleetMap.Hub.Session

set_option autoImplicit false

namespace FleetMap

def View.drawing (v : View) (number : Nat) : Entry :=
  match v.scene with
  | some scene => .drawn number scene
  | none => .undrawn number

namespace World

def isActive (w : World) (number : Nat) : Bool := w.views[number]?.any (·.active)

/-- The misfits of a view are noted and its scene is handed out, if there is one. -/
def drawn (w : World) (number : Nat) (v : View) : World :=
  ((projectMisfits v.settings v.devices).foldl (fun w m => w.enter (.noted m.note)) w).enter
    (v.drawing number)

/-- A rendering of a view is asked for; a view with a hook draws its scene. -/
def asked (w : World) (number : Nat) : World :=
  let w := w.modifyView number fun v => { v with revision := v.revision + 1 }
  match w.views[number]? with
  | some v => if v.hook.isSome then w.drawn number v else w
  | none => w

/-- A view takes its place in the registry and on both topics, and takes over what is stored. -/
def attached (w : World) (number : Nat) (v : View) : World :=
  let w := { w with registry := w.registry.register (.view number) }
  let w := w.setBus v.bus
    ((w.bus v.bus).subscribe Bus.cycleTopic (.gesture .cyclePattern number))
  let w := w.setBus v.bus
    ((w.bus v.bus).subscribe Bus.toggleTopic (.gesture .toggleIsometric number))
  let w := w.modifyView number fun v => { v with active := true }
  (w.modifyView number (·.tell w.registry.devices)).asked number

def detached (w : World) (number : Nat) (v : View) : World :=
  let w := w.setBus v.bus
    ((w.bus v.bus).unsubscribe Bus.toggleTopic (.gesture .toggleIsometric number))
  let w := w.setBus v.bus
    ((w.bus v.bus).unsubscribe Bus.cycleTopic (.gesture .cyclePattern number))
  let w := { w with registry := w.registry.remove (.view number) }
  w.modifyView number fun v => { v with active := false }

end World

namespace World

theorem foldl_noted {α : Type} (note : α → Note) (l : List α) (w : World) :
    l.foldl (fun w a => w.enter (.noted (note a))) w =
      { w with journal := (l.map fun a => Entry.noted (note a)).reverse ++ w.journal } := by
  induction l generalizing w with
  | nil => rfl
  | cons a rest ih =>
    rw [List.foldl_cons, ih, List.map_cons, List.reverse_cons, List.append_assoc]
    rfl

theorem drawn_eq (w : World) (number : Nat) (v : View) :
    ∃ journal, w.drawn number v = { w with journal := journal } := by
  unfold drawn
  rw [foldl_noted]
  exact ⟨_, rfl⟩

/-- Besides the journal, asking for a rendering counts it. -/
theorem asked_eq (w : World) (number : Nat) :
    ∃ journal, w.asked number =
      { w.modifyView number fun v => { v with revision := v.revision + 1 } with
        journal := journal } := by
  unfold asked
  dsimp only
  split
  · rename_i v _
    split
    · exact drawn_eq _ number v
    · exact ⟨_, rfl⟩
  · exact ⟨_, rfl⟩

/-- What is told of drawing when a rendering of a view is asked for; nothing without a hook. -/
def pending (w : World) (number : Nat) : Option Entry :=
  match w.views[number]? with
  | some v => if v.hook.isSome then some (v.drawing number) else none
  | none => none

/-- Of all that drawing enters into the journal, only the last is no note. -/
theorem filterMap_drawn {β : Type} {f : Entry → Option β} (notes : ∀ n, f (.noted n) = none)
    (w : World) (number : Nat) (v : View) :
    (w.drawn number v).journal.filterMap f =
      (f (v.drawing number)).toList ++ w.journal.filterMap f := by
  have noted : ∀ misfits : List Misfit,
      (misfits.map fun m => Entry.noted m.note).reverse.filterMap f = [] := by
    intro misfits
    apply List.filterMap_eq_nil_iff.mpr
    intro e member
    obtain ⟨m, _, rfl⟩ := List.mem_map.mp (List.mem_reverse.mp member)
    exact notes m.note
  unfold drawn
  rw [foldl_noted, enter, List.filterMap_cons, List.filterMap_append, noted]
  cases f (v.drawing number) with
  | none => rfl
  | some b => rfl

theorem filterMap_asked {β : Type} {f : Entry → Option β} (notes : ∀ n, f (.noted n) = none)
    (w : World) (number : Nat) :
    (w.asked number).journal.filterMap f =
      ((w.pending number).bind f).toList ++ w.journal.filterMap f := by
  unfold asked pending
  simp only [modifyView, List.getElem?_modify_eq]
  cases found : w.views[number]? with
  | none => rfl
  | some v =>
    cases hooked : v.hook with
    | none => simp [hooked]
    | some hook =>
      simp only [Option.map_eq_map, Option.map_some, hooked, Option.isSome_some, if_true,
        Option.bind_some]
      exact filterMap_drawn notes _ number _

/-- From one world to the other only the views changed and the places where they listen, and notes
and scenes were added to the journal. -/
structure OnlyViews (w v : World) : Prop where
  devices : v.registry.devices = w.registry.devices
  viewNames : v.viewNames = w.viewNames
  players : v.players = w.players
  scripts : v.scripts = w.scripts
  firings : v.firings = w.firings
  looping : v.looping = w.looping
  journal : ∀ {β : Type} {f : Entry → Option β}, (∀ n, f (.noted n) = none) →
    (∀ view scene, f (.drawn view scene) = none) → (∀ view, f (.undrawn view) = none) →
      v.journal.filterMap f = w.journal.filterMap f

theorem OnlyViews.refl (w : World) : w.OnlyViews w :=
  ⟨rfl, rfl, rfl, rfl, rfl, rfl, fun _ _ _ => rfl⟩

theorem OnlyViews.trans {u v w : World} (first : u.OnlyViews v) (second : v.OnlyViews w) :
    u.OnlyViews w where
  devices := second.devices.trans first.devices
  viewNames := second.viewNames.trans first.viewNames
  players := second.players.trans first.players
  scripts := second.scripts.trans first.scripts
  firings := second.firings.trans first.firings
  looping := second.looping.trans first.looping
  journal := fun notes scenes failures =>
    (second.journal notes scenes failures).trans (first.journal notes scenes failures)

theorem onlyViews_asked (w : World) (number : Nat) : w.OnlyViews (w.asked number) := by
  obtain ⟨journal, same⟩ := w.asked_eq number
  have entered : ∀ {β : Type} {f : Entry → Option β}, (∀ n, f (.noted n) = none) →
      (∀ view scene, f (.drawn view scene) = none) → (∀ view, f (.undrawn view) = none) →
        (w.asked number).journal.filterMap f = w.journal.filterMap f := by
    intro β f notes scenes failures
    have passed_over : ∀ v : View, f (v.drawing number) = none := by
      intro v
      unfold View.drawing
      split
      · exact scenes number _
      · exact failures number
    rw [filterMap_asked notes]
    unfold pending
    split
    · split
      · simp [passed_over]
      · rfl
    · rfl
  rw [same] at entered ⊢
  exact ⟨rfl, rfl, rfl, rfl, rfl, rfl, entered⟩

theorem onlyViews_modifyView (w : World) (number : Nat) (f : View → View) :
    w.OnlyViews (w.modifyView number f) :=
  ⟨rfl, rfl, rfl, rfl, rfl, rfl, fun _ _ _ => rfl⟩

theorem onlyViews_attached (w : World) (number : Nat) (v : View) :
    w.OnlyViews (w.attached number v) := by
  apply OnlyViews.trans _ (onlyViews_asked _ number)
  exact ⟨Registry.devices_register _ _, rfl, rfl, rfl, rfl, rfl, fun _ _ _ => rfl⟩

theorem onlyViews_detached (w : World) (number : Nat) (v : View) :
    w.OnlyViews (w.detached number v) :=
  ⟨rfl, rfl, rfl, rfl, rfl, rfl, fun _ _ _ => rfl⟩

variable (w : World) (number : Nat)

theorem views_drawn (v : View) : (w.drawn number v).views = w.views := by
  obtain ⟨journal, same⟩ := w.drawn_eq number v
  rw [same]

@[simp] theorem registry_asked : (w.asked number).registry = w.registry := by
  obtain ⟨journal, same⟩ := w.asked_eq number
  rw [same]
  rfl

@[simp] theorem bus_asked (bus : String) : (w.asked number).bus bus = w.bus bus := by
  obtain ⟨journal, same⟩ := w.asked_eq number
  rw [same]
  rfl

@[simp] theorem views_asked : (w.asked number).views =
    w.views.modify number fun v => { v with revision := v.revision + 1 } := by
  obtain ⟨journal, same⟩ := w.asked_eq number
  rw [same]
  rfl

theorem bus_setBus (bus other : String) (b : Bus) :
    (w.setBus bus b).bus other = if other = bus then b else w.bus other := by
  unfold World.bus setBus
  split
  · rename_i same
    rw [same, lookupField_putField_self]
    rfl
  · rename_i different
    rw [lookupField_putField_of_ne different]

@[simp] theorem registry_modifyView (f : View → View) :
    (w.modifyView number f).registry = w.registry := rfl

@[simp] theorem bus_modifyView (f : View → View) (bus : String) :
    (w.modifyView number f).bus bus = w.bus bus := rfl

variable (v : View)

@[simp] theorem registry_attached :
    (w.attached number v).registry = w.registry.register (.view number) := by
  rw [attached, registry_asked]
  rfl

theorem bus_attached (bus : String) : (w.attached number v).bus bus =
    if bus = v.bus then
      ((w.bus v.bus).subscribe Bus.cycleTopic (.gesture .cyclePattern number)).subscribe
        Bus.toggleTopic (.gesture .toggleIsometric number)
    else w.bus bus := by
  simp only [attached, bus_asked, bus_modifyView, bus_setBus, if_true]
  split
  · rfl
  · rfl

theorem views_attached : (w.attached number v).views =
    w.views.modify number fun v =>
      { ({ v with active := true } : View).tell w.registry.devices with
        revision := v.revision + 1 } := by
  simp only [attached, views_asked, modifyView, setBus, Registry.devices_register,
    List.modify_modify_eq]
  rfl

@[simp] theorem registry_detached :
    (w.detached number v).registry = w.registry.remove (.view number) := rfl

theorem bus_detached (bus : String) : (w.detached number v).bus bus =
    if bus = v.bus then
      ((w.bus v.bus).unsubscribe Bus.toggleTopic (.gesture .toggleIsometric number)).unsubscribe
        Bus.cycleTopic (.gesture .cyclePattern number)
    else w.bus bus := by
  have unregistered : ∀ (w : World) r f, ({ w with registry := r }.modifyView number f).bus bus =
      w.bus bus := fun _ _ _ => rfl
  simp only [detached, unregistered, bus_setBus, if_true]
  split
  · rfl
  · rfl

theorem views_detached : (w.detached number v).views =
    w.views.modify number fun v => { v with active := false } := rfl

end World

/-- All that the operations of the hub can do to the world by themselves. -/
inductive Change where
  | note (n : Note)
  /-- A script is called. -/
  | firing (name : String) (signal : Signal)
  | openBus (bus : String)
  | register (l : Listener)
  | remove (l : Listener)
  | subscribe (bus topic : String) (l : Listener)
  | unsubscribe (bus topic : String) (l : Listener)
  | store (ds : List Device)
  | makeView (id bus : String) (settings : Settings) (hook : Option String)
  | activate (number : Nat)
  | deactivate (number : Nat)
  | tell (number : Nat) (ds : List Device)
  | ask (number : Nat)
  | cycle (number : Nat)
  | toggle (number : Nat)
  | restyle (number : Nat) (settings : Settings)
  | pose (number : Nat) (stance : Stance)
  | tellInbox (number : Nat) (ds : List Device)
  | makePlayer (frames : List Payload)
  | modifyPlayer (number : Nat) (f : Player → Player)
  | setLooping (looping : Bool)
  | beginFanOut
  | call (fanOut : Nat) (who : Listener) (signal : Signal)
  | settle (fanOut : Nat) (who : Listener) (cleanly : Bool)

def Change.IsOrdinary : Change → Prop
  | .beginFanOut | .call _ _ _ | .settle _ _ _ => False
  | _ => True

/-- A change that stores nothing and hands nothing out. Telling a single view is no step of a
fan-out, but what a fan-out hands out may be told; so it is left out here. -/
def Change.Spares : Change → Prop
  | .store _ | .tell _ _ | .call _ _ (.notice _) => False
  | _ => True

/-- The world after a change. Only an inactive view is activated, only an active one deactivated
or told of devices. -/
def Change.apply (w : World) : Change → World
  | .note n => w.enter (.noted n)
  | .firing name signal =>
    { w.enter (.fired name signal) with
      firings := putField name (w.firingsOf name + 1) w.firings }
  | .openBus bus => w.setBus bus (w.bus bus)
  | .register l => { w with registry := w.registry.register l }
  | .remove l => { w with registry := w.registry.remove l }
  | .subscribe bus topic l => w.setBus bus ((w.bus bus).subscribe topic l)
  | .unsubscribe bus topic l => w.setBus bus ((w.bus bus).unsubscribe topic l)
  | .store ds => { w with registry.devices := ds }.enter (.stored ds)
  | .makeView id bus settings hook =>
    { w with
      views := w.views ++ [View.fresh bus settings hook]
      viewNames := putField id w.views.length w.viewNames }
  | .activate number =>
    match w.views[number]? with
    | some v => if v.active then w else w.attached number v
    | none => w
  | .deactivate number =>
    match w.views[number]? with
    | some v => if v.active then w.detached number v else w
    | none => w
  | .tell number ds =>
    if w.isActive number then (w.modifyView number (·.tell ds)).asked number else w
  | .ask number => w.asked number
  | .cycle number => (w.modifyView number View.cycled).asked number
  | .toggle number => (w.modifyView number View.toggled).asked number
  | .restyle number settings =>
    (w.modifyView number fun v => { v with settings := settings }).enter (.replaced number)
  | .pose number stance =>
    (w.modifyView number fun v => { v with stance := stance }).enter (.replaced number)
  | .tellInbox number ds =>
    { w with inboxes := w.inboxes.modify number (keepIfSame (sameList Device.same) · ds) }
  | .makePlayer frames => { w with players := w.players ++ [Player.ofFrames frames] }
  | .modifyPlayer number f => w.modifyPlayer number f
  | .setLooping looping => { w with looping := looping }
  | .beginFanOut => { w with fanOuts := w.fanOuts + 1 }
  | .call fanOut who signal => w.enter (.called fanOut who signal)
  | .settle fanOut who cleanly => w.enter (.settled fanOut who cleanly)

namespace Change

variable (w : World) (number : Nat)

theorem apply_activate : (activate number).apply w = w ∨
    ∃ v, w.views[number]? = some v ∧ v.active = false ∧
      (activate number).apply w = w.attached number v := by
  simp only [apply]
  split
  · rename_i v found
    cases active : v.active with
    | true => exact .inl rfl
    | false => exact .inr ⟨v, found, active, rfl⟩
  · exact .inl rfl

theorem apply_deactivate : (deactivate number).apply w = w ∨
    ∃ v, w.views[number]? = some v ∧ v.active = true ∧
      (deactivate number).apply w = w.detached number v := by
  simp only [apply]
  split
  · rename_i v found
    cases active : v.active with
    | true => exact .inr ⟨v, found, active, rfl⟩
    | false => exact .inl rfl
  · exact .inl rfl

theorem apply_tell (ds : List Device) : (tell number ds).apply w = w ∨
    w.isActive number = true ∧
      (tell number ds).apply w = (w.modifyView number (·.tell ds)).asked number := by
  simp only [apply]
  split
  · rename_i active
    exact .inr ⟨active, rfl⟩
  · exact .inl rfl

def OfView : Change → Prop
  | .activate _ | .deactivate _ | .tell _ _ | .ask _ | .cycle _ | .toggle _ => True
  | _ => False

theorem onlyViews_apply {c : Change} (ofView : c.OfView) : w.OnlyViews (c.apply w) := by
  cases c with
  | activate number =>
    rcases apply_activate w number with same | ⟨v, _, _, attached⟩
    · rw [same]
      exact World.OnlyViews.refl w
    · rw [attached]
      exact w.onlyViews_attached number v
  | deactivate number =>
    rcases apply_deactivate w number with same | ⟨v, _, _, detached⟩
    · rw [same]
      exact World.OnlyViews.refl w
    · rw [detached]
      exact w.onlyViews_detached number v
  | tell number ds =>
    rcases apply_tell w number ds with same | ⟨_, told⟩
    · rw [same]
      exact World.OnlyViews.refl w
    · rw [told]
      exact (w.onlyViews_modifyView number _).trans (World.onlyViews_asked _ number)
  | ask number => exact w.onlyViews_asked number
  | cycle number | toggle number =>
    exact (w.onlyViews_modifyView number _).trans (World.onlyViews_asked _ number)
  | _ => exact ofView.elim

/-- No change touches the scripts, and only making a view touches the names of views. -/
theorem apply_names (c : Change) :
    (c.apply w).scripts = w.scripts ∧
      ((∀ id bus settings hook, c ≠ .makeView id bus settings hook) →
        (c.apply w).viewNames = w.viewNames) := by
  have only : c.OfView → w.OnlyViews (c.apply w) := onlyViews_apply w
  cases c with
  | activate | deactivate | tell | ask | cycle | toggle =>
    exact ⟨(only trivial).scripts, fun _ => (only trivial).viewNames⟩
  | makeView id bus settings hook =>
    exact ⟨rfl, fun none_made => absurd rfl (none_made id bus settings hook)⟩
  | _ => exact ⟨rfl, fun _ => rfl⟩

theorem apply_devices {c : Change} (stores : ∀ ds, c ≠ .store ds) :
    (c.apply w).registry.devices = w.registry.devices := by
  have only : c.OfView → w.OnlyViews (c.apply w) := onlyViews_apply w
  cases c with
  | store ds => exact absurd rfl (stores ds)
  | register l => exact Registry.devices_register _ l
  | activate | deactivate | tell | ask | cycle | toggle => exact (only trivial).devices
  | _ => rfl

end Change

theorem Act.ext {α : Type} {x y : Act α} (same : ∀ w, x.run w = y.run w) : x = y := funext same

def Act.make (c : Change) : Act Unit := modify fun w => c.apply w

@[simp] theorem Act.run_make (c : Change) (w : World) :
    (Act.make c).run w = .ok () (c.apply w) := rfl

namespace Hub

open Act

theorem run_noteMisfits (misfits : List Misfit) (w : World) :
    (noteMisfits misfits).run w =
      .ok () (misfits.foldl (fun w m => w.enter (.noted m.note)) w) := by
  unfold noteMisfits
  induction misfits generalizing w with
  | nil => rfl
  | cons m rest ih => exact ih _

theorem run_draw (number : Nat) (v : View) (w : World) :
    (draw number v).run w =
      match v.scene with
      | some scene => .ok scene (w.drawn number v)
      | none => .error (.failed (.longInteger none)) (w.drawn number v) := by
  unfold World.drawn View.drawing
  simp only [draw, EStateM.run_bind, run_noteMisfits]
  cases v.scene with
  | none => rfl
  | some scene => rfl

variable (fire : Fire)

def callHook (number : Nat) : Act Unit := do
  match ← view? number with
  | some v =>
    match v.hook with
    | some hook =>
      match v.scene with
      | some scene => fire hook (.scene scene)
      | none => fail (.longInteger none)
    | none => return
  | none => return

theorem requestRender_eq (number : Nat) :
    requestRender fire number = (do make (.ask number); callHook fire number) := by
  apply Act.ext
  intro w
  simp only [requestRender, callHook, Change.apply, World.asked, EStateM.run_bind,
    run_modifyView, run_view?, run_make]
  generalize w.modifyView number _ = w
  cases found : w.views[number]? with
  | none => simp [found]
  | some v =>
    cases hooked : v.hook with
    | none => simp [found, hooked]
    | some hook =>
      cases drawn : v.scene with
      | none => simp [found, hooked, drawn, run_draw, World.views_drawn]
      | some scene => simp [found, hooked, drawn, run_draw, World.views_drawn]

theorem cyclePattern_eq (number : Nat) :
    cyclePattern fire number = (do make (.cycle number); callHook fire number) := by
  unfold cyclePattern
  rw [requestRender_eq]
  rfl

theorem toggleIsometric_eq (number : Nat) :
    toggleIsometric fire number = (do make (.toggle number); callHook fire number) := by
  unfold toggleIsometric
  rw [requestRender_eq]
  rfl

theorem run_tellView (number : Nat) (ds : List Device) (w : World) :
    (tellView fire number ds).run w =
      if w.isActive number then (do make (.tell number ds); callHook fire number).run w
      else .ok () w := by
  unfold tellView
  rw [requestRender_eq]
  cases found : w.views[number]? with
  | none => simp [found, World.isActive]
  | some v =>
    cases active : v.active with
    | false => simp [found, active, World.isActive]
    | true => simp [found, active, World.isActive, Change.apply]

theorem run_activate (number : Nat) (w : World) :
    (activate fire number).run w =
      if w.views[number]?.any (!·.active) then
        (do make (.activate number); callHook fire number).run w
      else .ok () w := by
  unfold activate
  rw [requestRender_eq]
  cases found : w.views[number]? with
  | none => simp [found]
  | some v =>
    cases active : v.active with
    | true => simp [found, active]
    | false => simp [found, active, Change.apply, World.attached]

theorem deactivate_eq (number : Nat) : deactivate number = make (.deactivate number) := by
  apply Act.ext
  intro w
  unfold deactivate
  cases found : w.views[number]? with
  | none => simp [found, Change.apply]
  | some v =>
    cases active : v.active with
    | false => simp [found, active, Change.apply]
    | true => simp [found, active, Change.apply, World.detached]

theorem run_whileLooping (x : Act Unit) (w : World) :
    (whileLooping x).run w =
      match x.run ((Change.setLooping true).apply w) with
      | .ok a v => .ok a ((Change.setLooping false).apply v)
      | .error stop v => .error stop ((Change.setLooping false).apply v) := rfl

def heard (script : Script) (signal : Signal) : Signal :=
  if script.empties then signal.emptied else signal

theorem run_beginFiring (name : String) (script : Script) (signal : Signal) (w : World) :
    (beginFiring name script signal).run w =
      .ok (decide (w.firingsOf name < script.times))
        ((Change.firing name (heard script signal)).apply w) := rfl

end Hub

end FleetMap
