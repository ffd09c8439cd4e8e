import FleetMap.Dashboard.Command
import FleetMap.Proofs.Dashboard.Informed
import FleetMap.Proofs.Settings.Draft

set_option autoImplicit false

namespace FleetMap

open Act

section Results

variable {ε ζ α β : Type}

theorem map_eq_ok {f : α → β} {x : Except ε α} {b : β} :
    x.map f = .ok b ↔ ∃ a, x = .ok a ∧ f a = b := by
  cases x with
  | ok a => simp [Except.map]
  | error e => simp [Except.map]

theorem bind_eq_ok {x : Except ε α} {f : α → Except ε β} {b : β} :
    (x >>= f) = .ok b ↔ ∃ a, x = .ok a ∧ f a = .ok b := by
  cases x with
  | ok a => simp [bind, Except.bind]
  | error e => simp [bind, Except.bind]

theorem bind_eq_error {x : Except ε α} {f : α → Except ε β} {e : ε} :
    (x >>= f) = .error e ↔ x = .error e ∨ ∃ a, x = .ok a ∧ f a = .error e := by
  cases x with
  | ok a => simp [bind, Except.bind]
  | error e => simp [bind, Except.bind]

theorem mapError_eq_error {f : ε → ζ} {x : Except ε α} {e : ζ} :
    x.mapError f = .error e ↔ ∃ d, x = .error d ∧ f d = e := by
  cases x with
  | ok a => simp [Except.mapError]
  | error e => simp [Except.mapError]

theorem mapError_eq_ok {f : ε → ζ} {x : Except ε α} {a : α} :
    x.mapError f = .ok a ↔ x = .ok a := by
  cases x with
  | ok b => simp [Except.mapError]
  | error e => simp [Except.mapError]

end Results

theorem Library.valid_of_loadSettings {files : Tree} {name : String} {s : Settings}
    (loaded : Library.loadSettings files name = .ok s) : s.Valid := by
  obtain ⟨v, _, read⟩ := bind_eq_ok.mp loaded
  cases v with
  | object fields =>
    exact Intake.valid_of_settingsFields (Checked.conclude_eq_ok.mp (mapError_eq_ok.mp read))
  | _ => exact nomatch read

theorem mem_putField {α : Type} {key : String} {value : α} {fields : List (String × α)}
    {e : String × α} (member : e ∈ putField key value fields) :
    e = (key, value) ∨ e ∈ fields := by
  induction fields with
  | nil => exact .inl (List.mem_singleton.mp member)
  | cons entry rest ih =>
    unfold putField at member
    split at member
    · exact (List.mem_cons.mp member).imp_right (List.mem_cons_of_mem entry)
    · rcases List.mem_cons.mp member with rfl | later
      · exact .inr List.mem_cons_self
      · exact (ih later).imp_right (List.mem_cons_of_mem entry)

namespace World

variable {w v : World} {l : Listener}

/-- A listener that is still registered is informed if it holds what it held, and nothing was
stored. -/
theorem Informs.of_held (informed : w.Informs l) (registered : l ∈ v.registry.observers)
    (held : ∀ ds, w.holding? l = some ds → v.holding? l = some ds)
    (devices : v.registry.devices = w.registry.devices) : v.Informs l := by
  obtain ⟨_, ds, holds, current⟩ := informed
  exact ⟨registered, ds, held ds holds, devices ▸ current⟩

theorem Informs.view_lt {number : Nat} (informed : w.Informs (.view number)) :
    number < w.views.length := by
  obtain ⟨_, _, holds, _⟩ := informed
  obtain ⟨x, found, _⟩ := Option.map_eq_some_iff.mp holds
  exact (List.getElem?_eq_some_iff.mp (Option.filter_eq_some_iff.mp found).1).1

theorem Informs.inbox_lt {number : Nat} (informed : w.Informs (.inbox number)) :
    number < w.inboxes.length := by
  obtain ⟨_, _, holds, _⟩ := informed
  exact (List.getElem?_eq_some_iff.mp holds).1

theorem advances_makeView (w : World) (x : View) :
    w.Advances { w with views := w.views ++ [x] } where
  wires := id
  informs := by
    intro l informed
    refine informed.of_held informed.1 ?_ rfl
    intro ds holds
    cases l with
    | view number =>
      change ((w.views ++ [x])[number]?.filter (·.active)).map View.devices = some ds
      rw [List.getElem?_append_left informed.view_lt]
      exact holds
    | inbox | script | gesture | inert => exact holds

/-- A table that is new on the screen takes over what is stored. -/
theorem informs_makeTable (w : World) (v : World)
    (made : v = { w with
      inboxes := w.inboxes ++ [w.registry.devices]
      registry := w.registry.register (.inbox w.inboxes.length) }) :
    v.Informs (.inbox w.inboxes.length) ∧ w.Advances v := by
  have devices : v.registry.devices = w.registry.devices := by
    rw [made]
    exact Registry.devices_register _ _
  constructor
  · refine ⟨?_, w.registry.devices, ?_, ?_⟩
    · rw [made]
      exact Registry.mem_register_self _ (by simp [Listener.identical])
    · rw [made]
      exact List.getElem?_concat_length
    · rw [devices]
      exact sameList_self Device.same_self _
  · refine ⟨?_, ?_⟩
    · rw [made]
      exact id
    · intro l informed
      refine informed.of_held ?_ ?_ devices
      · rw [made]
        exact Registry.mem_register_of_mem informed.1
      · intro ds holds
        rw [made]
        cases l with
        | inbox number =>
          change (w.inboxes ++ [_])[number]? = some ds
          rw [List.getElem?_append_left informed.inbox_lt]
          exact holds
        | view | script | gesture | inert => exact holds

end World

theorem run_callHook_unhooked {w : World} {number : Nat} {x : View}
    (found : w.views[number]? = some x) (unhooked : x.hook = none) :
    (Hub.callHook noScripts number).run w = .ok () w := by
  simp only [Hub.callHook, EStateM.run_bind, run_view?, found, unhooked]
  rfl

/-- A view without a hook is attached, and that is all that its activation does. -/
theorem run_activate_fresh {w : World} {number : Nat} {x : View}
    (found : w.views[number]? = some x) (inactive : x.active = false) (unhooked : x.hook = none) :
    (Hub.activate noScripts number).run w = .ok () (w.attached number x) := by
  have attached : (Change.activate number).apply w = w.attached number x := by
    simp [Change.apply, found, inactive]
  have now := congrArg (·[number]?) (w.views_attached number x)
  simp only [List.getElem?_modify_eq, found] at now
  rw [Hub.run_activate, found, Option.any_some, inactive, Bool.not_false, if_pos rfl,
    EStateM.run_bind, run_make, attached]
  exact run_callHook_unhooked now unhooked

def Widget.listener? : Widget → Option Listener
  | .map view _ => some (.view view)
  | .table inbox _ => some (.inbox inbox)
  | _ => none

namespace Dashboard

/-- Maps and tables on the screen hold what is stored, each by a listener of its own, and settings
that are kept are valid. -/
structure InTouch (d : Dashboard) : Prop where
  valid : d.draft.lastValid.Valid
  wires : d.hub.OnlyWires
  informed : ∀ e ∈ d.widgets, ∀ l, e.2.listener? = some l → d.hub.Informs l
  apart : ∀ e ∈ d.widgets, ∀ f ∈ d.widgets, ∀ l, e.2.listener? = some l →
    f.2.listener? = some l → e = f

variable {d e : Dashboard}

theorem inTouch_start (files : Tree) : (start files).InTouch where
  valid := Settings.standard_valid
  wires := by
    intro bus topic l member
    have silent : ((start files).hub.bus bus).handlers topic = [] := by
      simp only [World.bus, start, lookupField]
      split
      · rfl
      · rfl
    rw [silent] at member
    exact absurd member List.not_mem_nil
  informed := fun _ member => absurd member List.not_mem_nil
  apart := fun _ member => absurd member List.not_mem_nil

namespace InTouch

theorem of_advances (touch : d.InTouch) {w : World} (advances : d.hub.Advances w) :
    ({ d with hub := w } : Dashboard).InTouch :=
  ⟨touch.valid, advances.wires touch.wires,
    fun e member l listens => advances.informs l (touch.informed e member l listens), touch.apart⟩

theorem of_draft (touch : d.InTouch) {draft : Draft} (valid : draft.lastValid.Valid) :
    ({ d with draft := draft } : Dashboard).InTouch :=
  ⟨valid, touch.wires, touch.informed, touch.apart⟩

theorem of_files (touch : d.InTouch) (files : Tree) :
    ({ d with files := files } : Dashboard).InTouch :=
  ⟨touch.valid, touch.wires, touch.informed, touch.apart⟩

/-- A widget may be put on the screen if its listener is informed and no other widget has it. -/
theorem setWidget (touch : d.InTouch) (id : String) {widget : Widget}
    (informed : ∀ l, widget.listener? = some l → d.hub.Informs l)
    (unused : ∀ l, widget.listener? = some l → ∀ e ∈ d.widgets, e.2.listener? ≠ some l) :
    (d.setWidget id widget).InTouch where
  valid := touch.valid
  wires := touch.wires
  informed := by
    intro e member l listens
    rcases mem_putField member with rfl | before
    · exact informed l listens
    · exact touch.informed e before l listens
  apart := by
    intro e member f member' l listens listens'
    rcases mem_putField member with rfl | before
    · rcases mem_putField member' with rfl | before'
      · rfl
      · exact absurd listens' (unused l listens f before')
    · rcases mem_putField member' with rfl | before'
      · exact absurd listens (unused l listens' e before)
      · exact touch.apart e before f before' l listens listens'

/-- A widget without a listener may always be put on the screen. -/
theorem setWidget_deaf (touch : d.InTouch) (id : String) {widget : Widget}
    (deaf : widget.listener? = none) : (d.setWidget id widget).InTouch := by
  refine touch.setWidget id ?_ ?_
  · intro l listens
    rw [deaf] at listens
    exact nomatch listens
  · intro l listens
    rw [deaf] at listens
    exact nomatch listens

end InTouch

theorem act_eq_ok {α : Type} {x : Act α} {a : α} : d.act x = .ok (a, e) ↔
    ∃ v, x.run d.hub = .ok a v ∧ e = { d with hub := { v with journal := [] } } := by
  have same : x.run d.hub = x d.hub := rfl
  rw [same, Dashboard.act]
  cases ran : x d.hub with
  | ok b v => simp [Prod.ext_iff, eq_comm]
  | error stop v =>
    cases stop with
    | failed f => simp
    | mute asking => simp
    | cancelled => simp

/-- An act leaves the dashboard in touch if it keeps informed who is. -/
theorem InTouch.act {α : Type} {x : Act α} {a : α} (touch : d.InTouch)
    (ran : d.act x = .ok (a, e)) (advances : ∀ v, x.run d.hub = .ok a v → d.hub.Advances v) :
    e.InTouch := by
  obtain ⟨v, run, rfl⟩ := act_eq_ok.mp ran
  exact touch.of_advances ((advances v run).trans (advances_of_journal ⟨[], rfl⟩))

theorem InTouch.emit {topic : String} {count : Nat} (touch : d.InTouch)
    (ran : d.emit topic = .ok (count, e)) : e.InTouch := by
  apply touch.act ran
  intro v run
  have kept := advances_emit touch.wires sharedBus topic
  unfold Act.after at kept
  rwa [run] at kept

section Mounting

variable {reply : Reply} {id : String}

theorem InTouch.mountMap {own : Option Settings} (touch : d.InTouch)
    (ran : d.mountMap id own = .ok (reply, e)) : e.InTouch := by
  let number := d.hub.views.length
  let view := View.fresh sharedBus (d.settingsFor own) none
  let made : World := { d.hub with views := d.hub.views ++ [view] }
  have found : made.views[number]? = some view := List.getElem?_concat_length
  obtain ⟨⟨_, activated⟩, act, placed⟩ := bind_eq_ok.mp ran
  obtain ⟨_, rfl⟩ := Prod.mk.inj (Except.ok.inj placed)
  obtain ⟨v, run, rfl⟩ := act_eq_ok.mp act
  obtain ⟨_, rfl⟩ := EStateM.Result.ok.inj ((run_activate_fresh found rfl rfl).symm.trans run)
  obtain ⟨informs, others⟩ := informs_attached found rfl
  have attached : made.Advances (made.attached number view) := ⟨onlyWires_attached, others⟩
  have told : (made.attached number view).Advances
      { made.attached number view with journal := [] } := advances_of_journal ⟨[], rfl⟩
  have advances := ((World.advances_makeView d.hub view).trans attached).trans told
  refine (touch.of_advances advances).setWidget id ?_ ?_
  · intro l listens
    obtain rfl := Option.some.inj listens
    exact told.informs _ informs
  · intro l listens f member listens'
    obtain rfl := Option.some.inj listens
    exact absurd (touch.informed f member _ listens').view_lt (lt_irrefl _)

theorem InTouch.mountTable (touch : d.InTouch) (id : String) (own : Option Settings) :
    (d.mountTable id own).InTouch := by
  obtain ⟨informs, advances⟩ := d.hub.informs_makeTable _ rfl
  refine (touch.of_advances advances).setWidget id ?_ ?_
  · intro l listens
    obtain rfl := Option.some.inj listens
    exact informs
  · intro l listens f member listens'
    obtain rfl := Option.some.inj listens
    exact absurd (touch.informed f member _ listens').inbox_lt (lt_irrefl _)

def mountWith (d : Dashboard) (id : String) (own : Option Settings) : WidgetSort → Result
  | .settings => .ok (.nothing, d.setWidget id (.settings d.settingsForm))
  | .map => d.mountMap id own
  | .table => .ok (.nothing, d.mountTable id own)
  | .controls => .ok (.nothing, d.setWidget id .controls)
  | .playback => .ok (.nothing, d.setWidget id (.playback d.playbackPanel))

/-- Whatever settings are given, they are read before anything else happens. -/
theorem mount_eq_ok {sort : WidgetSort} {settings : Option Value}
    (ran : d.mount id sort settings = .ok (reply, e)) :
    ∃ own, d.mountWith id own sort = .ok (reply, e) := by
  cases settings with
  | none =>
    refine ⟨none, ?_⟩
    cases sort <;> exact ran
  | some v =>
    obtain ⟨own, _, placed⟩ := bind_eq_ok.mp ran
    refine ⟨own, ?_⟩
    cases sort <;> exact placed

theorem InTouch.mount {sort : WidgetSort} {settings : Option Value} (touch : d.InTouch)
    (ran : d.mount id sort settings = .ok (reply, e)) : e.InTouch := by
  obtain ⟨own, placed⟩ := mount_eq_ok ran
  cases sort with
  | map => exact touch.mountMap placed
  | table =>
    obtain ⟨_, rfl⟩ := Prod.mk.inj (Except.ok.inj placed)
    exact touch.mountTable id own
  | settings | controls | playback =>
    obtain ⟨_, rfl⟩ := Prod.mk.inj (Except.ok.inj placed)
    exact touch.setWidget_deaf id rfl

theorem widget_eq_ok {widget : Widget} (found : d.widget id = .ok widget) :
    (id, widget) ∈ d.widgets := by
  unfold Dashboard.widget at found
  split at found
  · rename_i held known
    obtain rfl := Except.ok.inj found
    exact mem_of_lookupField known
  · exact nomatch found

/-- A widget leaves the screen and its listener the hub; the others stay informed. -/
theorem InTouch.remove {widget : Widget} (touch : d.InTouch) (member : (id, widget) ∈ d.widgets)
    {w : World} (wires : w.OnlyWires)
    (informs : ∀ l, widget.listener? ≠ some l → d.hub.Informs l → w.Informs l) :
    ({ d with hub := w, widgets := d.widgets.filter (·.1 != id) } : Dashboard).InTouch where
  valid := touch.valid
  wires := wires
  informed := by
    intro f remains l listens
    obtain ⟨listed, other⟩ := List.mem_filter.mp remains
    refine informs l ?_ (touch.informed f listed l listens)
    intro listens'
    obtain rfl := touch.apart f listed _ member l listens listens'
    simp at other
  apart := fun f remains g remains' =>
    touch.apart f (List.mem_filter.mp remains).1 g (List.mem_filter.mp remains').1

theorem InTouch.unmount (touch : d.InTouch) (ran : d.unmount id = .ok (reply, e)) :
    e.InTouch := by
  obtain ⟨widget, found, left⟩ := bind_eq_ok.mp ran
  have member := widget_eq_ok found
  cases widget with
  | map view own =>
    obtain ⟨⟨_, deactivated⟩, act, same⟩ := bind_eq_ok.mp left
    obtain ⟨_, rfl⟩ := Prod.mk.inj (Except.ok.inj same)
    obtain ⟨v, run, rfl⟩ := act_eq_ok.mp act
    rw [Hub.deactivate_eq, run_make] at run
    obtain ⟨_, rfl⟩ := EStateM.Result.ok.inj run
    have told (w : World) : w.Advances { w with journal := [] } := advances_of_journal ⟨[], rfl⟩
    rcases Change.apply_deactivate d.hub view with same | ⟨x, _, _, detached⟩
    · change ({ d with
        hub := { (Change.deactivate view).apply d.hub with journal := [] }
        widgets := _ } : Dashboard).InTouch
      rw [same]
      exact touch.remove member ((told _).wires touch.wires) fun l _ => (told _).informs l
    · change ({ d with
        hub := { (Change.deactivate view).apply d.hub with journal := [] }
        widgets := _ } : Dashboard).InTouch
      rw [detached]
      refine touch.remove member ((told _).wires (onlyWires_detached touch.wires)) ?_
      intro l other informed
      refine (told _).informs l (informs_detached ?_ informed)
      rintro rfl
      exact other rfl
  | table inbox own =>
    obtain ⟨_, rfl⟩ := Prod.mk.inj (Except.ok.inj left)
    refine touch.remove member
      (w := { d.hub with registry := d.hub.registry.remove (.inbox inbox) }) touch.wires ?_
    intro l other informed
    refine informed.of_held ?_ (fun _ holds => holds) rfl
    apply Registry.mem_remove_of_ne _ informed.1
    rintro rfl
    exact other rfl
  | settings | controls | playback =>
    obtain ⟨_, rfl⟩ := Prod.mk.inj (Except.ok.inj left)
    exact touch.remove member touch.wires fun _ _ informed => informed

theorem InTouch.press {α : Type} {x : Act α} {enabled : Bool} (touch : d.InTouch)
    (ran : d.press enabled x = .ok (reply, e))
    (advances : ∀ a v, x.run d.hub = .ok a v → d.hub.Advances v) : e.InTouch := by
  unfold Dashboard.press at ran
  split at ran
  · obtain ⟨⟨a, f⟩, act, same⟩ := map_eq_ok.mp ran
    obtain ⟨_, rfl⟩ := Prod.mk.inj same
    exact touch.act act (advances a)
  · obtain ⟨_, rfl⟩ := Prod.mk.inj (Except.ok.inj ran)
    exact touch

theorem InTouch.clickSettings (touch : d.InTouch) (id : String) (form : SettingsForm)
    (button : Button) : (d.clickSettings id form button).InTouch := by
  cases button with
  | refresh => exact touch.setWidget_deaf id rfl
  | reset => exact touch.of_draft Settings.standard_valid
  | play | pause | step | changeMap | isometric => exact touch

theorem InTouch.clickPlayback {panel : PlaybackPanel} {button : Button} (touch : d.InTouch)
    (ran : d.clickPlayback id panel button = .ok (reply, e)) : e.InTouch := by
  cases button with
  | refresh =>
    obtain ⟨_, rfl⟩ := Prod.mk.inj (Except.ok.inj ran)
    exact touch.setWidget_deaf id rfl
  | play | pause =>
    apply touch.press ran
    intro _ v run
    obtain ⟨_, rfl⟩ := EStateM.Result.ok.inj run
    exact advances_modifyPlayer 0 _
  | step => exact touch.press ran fun _ _ => advances_stepPlayer
  | reset | changeMap | isometric =>
    obtain ⟨_, rfl⟩ := Prod.mk.inj (Except.ok.inj ran)
    exact touch

theorem InTouch.click {button : Button} (touch : d.InTouch)
    (ran : d.click id button = .ok (reply, e)) : e.InTouch := by
  obtain ⟨widget, _, clicked⟩ := bind_eq_ok.mp ran
  have emitted {topic : String}
      (ran : (d.emit topic).map (fun r => (Reply.nothing, r.2)) = .ok (reply, e)) : e.InTouch := by
    obtain ⟨⟨count, f⟩, emitted, same⟩ := map_eq_ok.mp ran
    obtain ⟨_, rfl⟩ := Prod.mk.inj same
    exact touch.emit emitted
  have idle (ran : Except.ok (Reply.nothing, d) = (.ok (reply, e) : Result)) : e.InTouch := by
    obtain ⟨_, rfl⟩ := Prod.mk.inj (Except.ok.inj ran)
    exact touch
  cases widget with
  | settings form =>
    obtain ⟨_, rfl⟩ := Prod.mk.inj (Except.ok.inj clicked)
    exact touch.clickSettings id form button
  | playback panel => exact touch.clickPlayback clicked
  | controls =>
    cases button with
    | changeMap | isometric => exact emitted clicked
    | refresh | reset | play | pause | step => exact idle clicked
  | map | table => exact idle clicked

end Mounting

section Editing

variable {id name : String}

theorem InTouch.chooseSettings {form : SettingsForm} (touch : d.InTouch)
    (ran : d.chooseSettings id name form = .ok e) : e.InTouch := by
  unfold Dashboard.chooseSettings at ran
  dsimp only at ran
  split at ran
  · rw [← Except.ok.inj ran]
    exact touch.setWidget_deaf id rfl
  · split at ran
    · rename_i s loaded
      rw [← Except.ok.inj ran]
      exact (touch.of_draft (Library.valid_of_loadSettings loaded)).setWidget_deaf id rfl
    · obtain ⟨text, _, same⟩ := map_eq_ok.mp ran
      rw [← same]
      exact touch.setWidget_deaf id rfl

theorem InTouch.choosePlayback {panel : PlaybackPanel} (touch : d.InTouch)
    (ran : d.choosePlayback id name panel = .ok e) : e.InTouch := by
  unfold Dashboard.choosePlayback at ran
  dsimp only at ran
  split at ran
  · rw [← Except.ok.inj ran]
    exact touch.setWidget_deaf id rfl
  · split at ran
    · rw [← Except.ok.inj ran]
      exact (touch.of_advances (advances_modifyPlayer 0 _)).setWidget_deaf id rfl
    · obtain ⟨text, _, same⟩ := map_eq_ok.mp ran
      rw [← same]
      exact touch.setWidget_deaf id rfl

theorem InTouch.choose (touch : d.InTouch) (ran : d.choose id name = .ok e) : e.InTouch := by
  obtain ⟨widget, _, chosen⟩ := bind_eq_ok.mp ran
  cases widget with
  | settings form =>
    dsimp only at chosen
    split at chosen
    · rw [← Except.ok.inj chosen]
      exact touch
    · exact touch.chooseSettings chosen
  | playback panel =>
    dsimp only at chosen
    split at chosen
    · rw [← Except.ok.inj chosen]
      exact touch
    · exact touch.choosePlayback chosen
  | map | table | controls =>
    rw [← Except.ok.inj chosen]
    exact touch

theorem lastValid_enter (f : Field) (typed : String) (draft : Draft) :
    (f.enter typed draft).lastValid = draft.lastValid := by
  unfold Field.enter
  split
  · rfl
  · rfl

theorem InTouch.edit {label typed : String} (touch : d.InTouch)
    (ran : d.edit id label typed = .ok e) : e.InTouch := by
  obtain ⟨widget, _, edited⟩ := bind_eq_ok.mp ran
  cases widget with
  | settings form =>
    dsimp only at edited
    split at edited
    · rename_i f input _ _
      split at edited
      · rw [← Except.ok.inj edited]
        exact touch
      · rw [← Except.ok.inj edited]
        refine (touch.of_draft ?_).setWidget_deaf id rfl
        rw [lastValid_enter]
        exact touch.valid
    · rw [← Except.ok.inj edited]
      exact touch
  | map | table | controls | playback =>
    rw [← Except.ok.inj edited]
    exact touch

end Editing

theorem InTouch.carryOut {c : Command} {reply : Reply} (touch : d.InTouch)
    (ran : d.carryOut c = .ok (reply, e)) : e.InTouch := by
  cases c with
  | mount id sort settings => exact touch.mount ran
  | unmount id => exact touch.unmount ran
  | click id button => exact touch.click ran
  | choose id name =>
    obtain ⟨f, chosen, same⟩ := map_eq_ok.mp ran
    obtain ⟨_, rfl⟩ := Prod.mk.inj same
    exact touch.choose chosen
  | edit id label typed =>
    obtain ⟨f, edited, same⟩ := map_eq_ok.mp ran
    obtain ⟨_, rfl⟩ := Prod.mk.inj same
    exact touch.edit edited
  | fields =>
    obtain ⟨_, rfl⟩ := Prod.mk.inj (Except.ok.inj ran)
    exact touch
  | update payload =>
    obtain ⟨⟨count, f⟩, act, same⟩ := map_eq_ok.mp ran
    obtain ⟨_, rfl⟩ := Prod.mk.inj same
    exact touch.act act fun _ => advances_update
  | updateDevice name changes =>
    obtain ⟨⟨changed, f⟩, act, same⟩ := map_eq_ok.mp ran
    obtain ⟨_, rfl⟩ := Prod.mk.inj same
    exact touch.act act fun _ => advances_updateDevice
  | clear =>
    obtain ⟨⟨_, f⟩, act, same⟩ := map_eq_ok.mp ran
    obtain ⟨_, rfl⟩ := Prod.mk.inj same
    exact touch.act act fun _ => advances_clear
  | emit topic =>
    obtain ⟨⟨count, f⟩, emitted, same⟩ := map_eq_ok.mp ran
    obtain ⟨_, rfl⟩ := Prod.mk.inj same
    exact touch.emit emitted
  | put path node =>
    obtain ⟨t, _, same⟩ := map_eq_ok.mp ran
    obtain ⟨_, rfl⟩ := Prod.mk.inj same
    exact touch.of_files t

end Dashboard

end FleetMap
