import FleetMap.Proofs.Hub.Law

set_option autoImplicit false

namespace FleetMap

/-- Changes that hardly any law forbids and that are to no view. -/
structure Aside (A : Change → Prop) : Prop where
  note : ∀ n, A (.note n)
  firing : ∀ name signal, A (.firing name signal)
  openBus : ∀ bus, A (.openBus bus)
  tellInbox : ∀ number ds, A (.tellInbox number ds)

/-- What is done to a view when its methods are called may be done to this one. -/
structure Handles (A : Change → Prop) (number : Nat) : Prop where
  activate : A (.activate number)
  deactivate : A (.deactivate number)
  ask : A (.ask number)
  cycle : A (.cycle number)
  toggle : A (.toggle number)

/-- Changes that hardly any law forbids. -/
structure Routine (A : Change → Prop) : Prop extends Aside A where
  handles : ∀ number, Handles A number

/-- What scripts, inboxes and views do to the world when they are called. -/
def Change.IsRoutine : Change → Prop
  | .note _ | .firing _ _ | .openBus _ | .tellInbox _ _ => True
  | .activate _ | .deactivate _ | .ask _ | .cycle _ | .toggle _ => True
  | _ => False

theorem routine_of_allowed {A : Change → Prop} (allowed : ∀ c : Change, c.IsRoutine → A c) :
    Routine A where
  note n := allowed (.note n) trivial
  firing name signal := allowed (.firing name signal) trivial
  openBus bus := allowed (.openBus bus) trivial
  tellInbox number ds := allowed (.tellInbox number ds) trivial
  handles number :=
    ⟨allowed (.activate number) trivial, allowed (.deactivate number) trivial,
      allowed (.ask number) trivial, allowed (.cycle number) trivial,
      allowed (.toggle number) trivial⟩

theorem Change.isOrdinary_of_routine {c : Change} (routine : c.IsRoutine) : c.IsOrdinary := by
  cases c with
  | beginFanOut | call | settle => exact routine.elim
  | _ => trivial

theorem Change.spares_of_routine {c : Change} (routine : c.IsRoutine) : c.Spares := by
  cases c with
  | store | tell | call => exact routine.elim
  | _ => trivial

theorem routine_ordinary : Routine Change.IsOrdinary :=
  routine_of_allowed fun _ => Change.isOrdinary_of_routine

/-- Players may be steered, which leaves them their frames, and marked as looping. -/
structure Steering (A : Change → Prop) : Prop where
  modifyPlayer : ∀ number f, (∀ p : Player, (f p).frames = p.frames) → A (.modifyPlayer number f)
  setLooping : ∀ looping, A (.setLooping looping)

theorem Player.frames_started (p : Player) : p.started.frames = p.frames := by
  unfold Player.started
  split
  · rfl
  · rfl

/-- The devices of a payload, or the sort of data that is no payload. -/
def Payload.parsed (p : Payload) : Except Kind (List Device) :=
  (fun items => (Reception.ofItems items).devices) <$> p.items .raw

namespace Hub

/-- All scripts have names to be shown by. -/
def named (scripts : List (String × Script)) : Bool := scripts.all (·.2.nameless.isNone)

/-- No script ends in a way that can break off a fan-out. -/
def unbreaking (scripts : List (String × Script)) : Bool := scripts.all (!·.2.ending.breaks)

theorem unbreaking_of_lookup {scripts : List (String × Script)} (unbroken : unbreaking scripts)
    {name : String} {script : Script} (found : lookupField name scripts = some script) :
    ¬ script.ending.breaks = true := by
  have listed := List.all_eq_true.mp unbroken (name, script) (mem_of_lookupField found)
  rwa [Bool.not_eq_true', ← Bool.not_eq_true] at listed

theorem shown_of_named {w : World} (named : Hub.named w.scripts) (who : Listener) :
    w.shown who = .ok who.shown := by
  cases who with
  | script name =>
    have known : (lookupField name w.scripts).bind (·.nameless) = none := by
      cases found : lookupField name w.scripts with
      | none => rfl
      | some script =>
        have listed := List.all_eq_true.mp named (name, script) (mem_of_lookupField found)
        exact Option.isNone_iff_eq_none.mp listed
    simp only [World.shown, known]
  | view | gesture | inbox | inert => rfl

theorem observerComplaint_of_named {w : World} (named : Hub.named w.scripts) (who : Listener) :
    ∃ note, observerComplaint w who = .ok note := by
  unfold observerComplaint
  rw [shown_of_named named]
  exact ⟨_, rfl⟩

end Hub

theorem Hub.publish_eq (fire : Fire) (ds : List Device) :
    Hub.publish fire ds = (do Act.make (.store ds); Hub.notify fire (some ds)) := by
  apply Act.ext
  intro w
  rfl

namespace Law

open Act Hub

variable {L : Law} {A : Change → Prop}

theorem agree_noteMisfits (permits : L.Permits A) (aside : Aside A)
    (misfits : List Misfit) : L.Agree (noteMisfits misfits) (noteMisfits misfits) := by
  unfold noteMisfits
  induction misfits with
  | nil => exact agree_pure ()
  | cons m rest ih => exact agree_bind (permits.make (aside.note m.note)) fun _ => ih

theorem agree_render (permits : L.Permits A) (aside : Aside A) (number : Nat) :
    L.Agree (render number) (render number) := by
  apply agree_view?_bind
  intro v
  cases v with
  | none => exact agree_fail _
  | some v =>
    apply agree_bind (agree_noteMisfits permits aside _)
    intro _
    cases v.scene with
    | none => exact agree_fail _
    | some scene => exact agree_pure scene

theorem agree_deactivate (permits : L.Permits A) {number : Nat}
    (deactivates : A (.deactivate number)) :
    L.Agree (deactivate number) (deactivate number) := by
  rw [deactivate_eq]
  exact permits.make deactivates

theorem agree_tellInbox (permits : L.Permits A) (aside : Aside A) (number : Nat)
    (ds : List Device) : L.Agree (tellInbox number ds) (tellInbox number ds) :=
  permits.make (aside.tellInbox number ds)

theorem agree_notes (permits : L.Permits A) (aside : Aside A) (notes : List Note) :
    L.Agree (notes.forM fun n => enter (.noted n)) (notes.forM fun n => enter (.noted n)) := by
  induction notes with
  | nil => exact agree_pure ()
  | cons n rest ih => exact agree_bind (permits.make (aside.note n)) fun _ => ih

theorem agree_receive (permits : L.Permits A) (aside : Aside A) (payload : Payload) :
    L.Agree (receive payload) (receive payload) := by
  unfold receive
  split
  · exact agree_fail _
  · rename_i items _
    exact agree_bind (agree_notes permits aside _) fun _ => agree_pure _

theorem agree_modifyPlayer (permits : L.Permits A) {number : Nat} {f : Player → Player}
    (modifies : A (.modifyPlayer number f)) :
    L.Agree (modifyPlayer number f) (modifyPlayer number f) :=
  permits.make modifies

theorem agree_load (permits : L.Permits A) (aside : Aside A) {number : Nat}
    {recording : Recording} {name : Option String}
    (loads : ∀ frames, recording.items Payload.ofValue = .ok frames →
      A (.modifyPlayer number fun p => p.loaded frames name)) :
    L.Agree (load number recording name) (load number recording name) := by
  unfold load
  split
  · exact agree_fail _
  · rename_i frames read
    exact agree_bind (agree_modifyPlayer permits (loads frames read))
      fun _ => permits.make (aside.note _)

/-- The mark on the playback loop is set and taken back, however the act ends. -/
theorem agree_whileLooping (permits : L.Permits A) (marks : ∀ looping, A (.setLooping looping))
    {x y : Act Unit} (agree : L.Agree x y) : L.Agree (whileLooping x) (whileLooping y) := by
  intro w holds
  have begun := permits.change (marks true) holds
  obtain ⟨same, ends⟩ := agree _ begun.1
  have ends := ends.trans begun.2
  rw [run_whileLooping, run_whileLooping, same]
  refine ⟨rfl, ?_⟩
  cases run : x.run ((Change.setLooping true).apply w) with
  | ok a v =>
    rw [run] at ends
    have ended := permits.change (marks false) ends.1
    exact ⟨ended.1, L.trans ends.2 ended.2⟩
  | error stop v =>
    rw [run] at ends
    have ended := permits.change (marks false) ends.1
    exact ⟨ended.1, L.trans ends.2.1 ended.2, ends.2.2⟩

section Fired

variable (permits : L.Permits A) {fire other : Fire}
  (fired : ∀ name signal, L.Agree (fire name signal) (other name signal))

include fired in
theorem agree_callHook (number : Nat) :
    L.Agree (callHook fire number) (callHook other number) := by
  apply agree_view?_bind
  intro v
  cases v with
  | none => exact agree_pure ()
  | some v =>
    cases hooked : v.hook with
    | none => simpa only [hooked] using agree_pure ()
    | some hook =>
      simp only [hooked]
      cases v.scene with
      | none => exact agree_fail _
      | some scene => exact fired hook (.scene scene)

include permits fired

theorem agree_tellView (number : Nat) (ds : List Device) (tells : A (.tell number ds)) :
    L.Agree (tellView fire number ds) (tellView other number ds) := by
  intro w holds
  rw [run_tellView, run_tellView]
  split
  · exact agree_bind (permits.make tells) (fun _ => agree_callHook fired number) w holds
  · exact agree_pure () w holds

section Handled

variable {number : Nat} (handles : Handles A number)

include handles

theorem agree_requestRender :
    L.Agree (requestRender fire number) (requestRender other number) := by
  rw [requestRender_eq, requestRender_eq]
  exact agree_bind (permits.make handles.ask) fun _ => agree_callHook fired number

theorem agree_cyclePattern :
    L.Agree (cyclePattern fire number) (cyclePattern other number) := by
  rw [cyclePattern_eq, cyclePattern_eq]
  exact agree_bind (permits.make handles.cycle) fun _ => agree_callHook fired number

theorem agree_toggleIsometric :
    L.Agree (toggleIsometric fire number) (toggleIsometric other number) := by
  rw [toggleIsometric_eq, toggleIsometric_eq]
  exact agree_bind (permits.make handles.toggle) fun _ => agree_callHook fired number

theorem agree_activate :
    L.Agree (activate fire number) (activate other number) := by
  intro w holds
  rw [run_activate, run_activate]
  split
  · exact agree_bind (permits.make handles.activate)
      (fun _ => agree_callHook fired number) w holds
  · exact agree_pure () w holds

end Handled

variable (aside : Aside A)

include aside

theorem agree_perform (g : Gesture) {number : Nat} (handles : Handles A number) :
    L.Agree (perform fire g number) (perform other g number) := by
  cases g with
  | cyclePattern => exact agree_cyclePattern permits fired handles
  | toggleIsometric => exact agree_toggleIsometric permits fired handles
  | requestRender => exact agree_requestRender permits fired handles
  | activate => exact agree_activate permits fired handles
  | deactivate => exact agree_deactivate permits handles.deactivate
  | render => exact agree_discard (agree_render permits aside number)
  | receive => exact agree_fail _

theorem agree_deliver (ds : List Device) (tells : ∀ number, A (.tell number ds))
    (who : Listener) : L.Agree (deliver fire ds who) (deliver other ds who) := by
  cases who with
  | script name => exact fired name (.notice ds)
  | view number => exact agree_tellView permits fired number ds (tells number)
  | inbox number => exact agree_tellInbox permits aside number ds
  | gesture g number => exact agree_fail _
  | inert => exact agree_fail _

/-- A handler is a method of a view that may be called, or no method of a view. -/
theorem agree_trigger {who : Listener}
    (handles : ∀ g number, who = .gesture g number → Handles A number) :
    L.Agree (trigger fire who) (trigger other who) := by
  cases who with
  | script name => exact fired name .trigger
  | gesture g number => exact agree_perform permits fired aside g (handles g number rfl)
  | view number => exact agree_fail _
  | inbox number => exact agree_fail _
  | inert => exact agree_fail _

theorem agree_notify (given : Option (List Device))
    (tells : ∀ w number, L.holds w → A (.tell number (given.getD w.registry.devices))) :
    L.Agree (notify fire given) (notify other given) := by
  apply agree_get_bind
  intro w holds
  apply permits.fanOut
  · intro ds same number
    rw [← Signal.notice.inj same]
    exact tells w number holds
  · intro who
    exact agree_deliver permits fired aside _ (fun number => tells w number holds) who

/-- A law that lets a collection be stored and told lets it be published. -/
theorem agree_publish {ds : List Device} (stores : A (.store ds))
    (tells : ∀ number, A (.tell number ds)) : L.Agree (publish fire ds) (publish other ds) := by
  rw [publish_eq, publish_eq]
  exact agree_bind (permits.make stores)
    fun _ => agree_notify permits fired aside (some ds) fun _ number _ => tells number

omit aside in
theorem agree_emit (routine : Routine A) (bus topic : String) :
    L.Agree (emit fire bus topic) (emit other bus topic) := by
  apply agree_bind (permits.make (routine.openBus bus))
  intro _
  apply agree_get_bind
  intro w _
  apply permits.fanOut
  · exact fun _ notice => nomatch notice
  · intro who
    exact agree_trigger permits fired routine.toAside fun _ number _ => routine.handles number

end Fired

/-- Where nothing breaks off and all scripts have names, a notification reaches its end. -/
theorem notify_returns (permits : L.Permits A) {fire : Fire}
    (fired : ∀ name signal, L.Agree (fire name signal) (fire name signal)) (unbroken : ¬ L.breaks)
    {w : World} (holds : L.holds w) (aside : Aside A) (given : Option (List Device))
    (tells : ∀ number, A (.tell number (given.getD w.registry.devices)))
    (named : Hub.named w.scripts) :
    ∃ count v, (notify fire given).run w = .ok count v ∧ L.holds v ∧ L.moves w v := by
  refine permits.fanOut_returns unbroken ?_ ?_ ?_ holds
  · intro ds same number
    rw [← Signal.notice.inj same]
    exact tells number
  · intro who
    exact agree_deliver permits fired aside _ tells who
  · exact fun who _ => observerComplaint_of_named named who

section Published

variable (permits : L.Permits A) (aside : Aside A) {fire other : Fire}

include permits aside

theorem agree_update {payload : Payload}
    (published : ∀ ds, payload.parsed = .ok ds → L.Agree (publish fire ds) (publish other ds)) :
    L.Agree (update fire payload) (update other payload) := by
  unfold Payload.parsed at published
  unfold update receive
  cases read : payload.items .raw with
  | error kind => exact agree_fail _
  | ok items =>
    rw [read] at published
    simp only [bind_assoc, pure_bind]
    exact agree_bind (agree_notes permits aside _) fun _ => published _ rfl

theorem agree_updateDevice {name : String} {changes : List (String × Value)}
    (published : ∀ w ds, L.holds w →
      Registry.patch name changes w.registry.devices = .stored ds →
        L.Agree (publish fire ds) (publish other ds)) :
    L.Agree (updateDevice fire name changes) (updateDevice other name changes) := by
  unfold updateDevice
  split
  · exact agree_fail _
  · apply agree_get_bind
    intro w holds
    split
    · exact agree_bind (permits.make (aside.note _)) fun _ => agree_pure false
    · exact agree_bind (permits.make (aside.note _)) fun _ => agree_pure false
    · rename_i ds patched
      exact agree_bind (agree_discard (published w ds holds patched)) fun _ => agree_pure true

omit permits aside in
theorem agree_clear (published : L.Agree (publish fire []) (publish other [])) :
    L.Agree (clear fire) (clear other) := agree_discard published

/-- A law that lets a player publish every frame it can hold where the law holds. -/
def Frames (L : Law) (P : List Device → Prop) : Prop :=
  ∀ w p frame ds, L.holds w → p ∈ w.players → frame ∈ p.frames → frame.parsed = .ok ds → P ds

theorem agree_stepPlayer {number : Nat}
    (advances : ∀ index, A (.modifyPlayer number fun q => { q with index := index }))
    (framed : L.Frames fun ds => L.Agree (publish fire ds) (publish other ds)) :
    L.Agree (stepPlayer fire number) (stepPlayer other number) := by
  apply agree_player?_bind
  intro w holds
  cases held : w.players[number]? with
  | none => exact agree_pure false
  | some p =>
    cases next : p.frames[p.index]? with
    | none => simpa only [next] using agree_pure false
    | some frame =>
      simp only [next]
      have published := fun ds => framed w p frame ds holds (List.mem_of_getElem? held)
        (List.mem_of_getElem? next)
      apply agree_bind (agree_discard (agree_update permits aside published))
      intro _
      exact agree_bind (agree_modifyPlayer permits (advances _)) fun _ => agree_pure true

/-- A loop that ends for want of a frame, or with an error, takes a note and stops the player. -/
theorem agree_playFrames {number : Nat} (pauses : A (.modifyPlayer number Player.paused))
    (stepped : L.Agree (stepPlayer fire number) (stepPlayer other number)) (fuel : Nat) :
    L.Agree (playFrames fire number fuel) (playFrames other number fuel) := by
  induction fuel with
  | zero => exact agree_pure ()
  | succ fuel ih =>
    apply agree_player?_bind
    intro w _
    split
    · apply agree_attempt_bind stepped
      · intro left
        cases left with
        | true => exact ih
        | false =>
          exact agree_bind (permits.make (aside.note _)) fun _ => agree_modifyPlayer permits pauses
      · intro stop may
        apply agree_bind (agree_orStop fun _ wordless _ => may (Stop.breaks_of_text wordless))
        intro text
        exact agree_bind (permits.make (aside.note _)) fun _ => agree_modifyPlayer permits pauses
    · exact agree_pure ()

theorem agree_playLoop {number : Nat} (marks : ∀ looping, A (.setLooping looping))
    (pauses : A (.modifyPlayer number Player.paused))
    (stepped : L.Agree (stepPlayer fire number) (stepPlayer other number)) :
    L.Agree (playLoop fire number) (playLoop other number) := by
  apply agree_get_bind
  intro w _
  split
  · exact agree_fail _
  · apply agree_whileLooping permits marks
    apply agree_player?_bind
    intro w _
    split
    · exact agree_bind (permits.make (aside.note _))
        fun _ => agree_playFrames permits aside pauses stepped _
    · exact agree_pure ()

end Published

end Law

end FleetMap
