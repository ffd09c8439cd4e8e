import FleetMap.Proofs.Hub.Lawful

set_option autoImplicit false

namespace FleetMap

open Act Hub

def Mention.StandsFor (who : Mention) (w : World) (l : Listener) : Prop :=
  ∃ v, (resolve who).run w = .ok l v

theorem Hub.resolve_cases (who : Mention) (w : World) :
    (∃ l, (resolve who).run w = .ok l w) ∨ ∃ f, (resolve who).run w = .error (.failed f) w := by
  have named : ∀ id, (∃ number, (viewNamed id).run w = .ok number w) ∨
      ∃ f, (viewNamed id).run w = .error (.failed f) w := by
    intro id
    simp only [viewNamed, EStateM.run_bind, EStateM.run_get]
    cases lookupField id w.viewNames with
    | none => exact .inr ⟨_, rfl⟩
    | some number => exact .inl ⟨number, rfl⟩
  cases who with
  | inert => exact .inl ⟨_, rfl⟩
  | gesture g id =>
    simp only [resolve, EStateM.run_bind]
    rcases named id with ⟨number, run⟩ | ⟨f, run⟩
    · rw [run]
      exact .inl ⟨_, rfl⟩
    · rw [run]
      exact .inr ⟨f, rfl⟩
  | named name =>
    simp only [resolve, EStateM.run_bind, EStateM.run_get]
    split
    · exact .inl ⟨_, rfl⟩
    · simp only [EStateM.run_bind]
      rcases named name with ⟨number, run⟩ | ⟨f, run⟩
      · rw [run]
        exact .inl ⟨_, rfl⟩
      · rw [run]
        exact .inr ⟨f, rfl⟩

/-- Commands that store a new collection. -/
def Command.publishes : Command → Bool
  | .update _ | .updateDevice _ _ | .clear | .step | .playLoop => true
  | _ => false

/-- Commands that fire a topic, or that call a method of a view or replace what belongs to it. -/
def Command.handlesViews : Command → Bool
  | .emit _ _ | .gesture _ _ | .setSettings _ _ | .setStance _ _ => true
  | _ => false

def Command.MayPublish (L : Law) : Command → List Device → Prop
  | .update payload, ds => payload.parsed = .ok ds
  | .updateDevice name changes, ds =>
    ∃ w, L.holds w ∧ Registry.patch name changes w.registry.devices = .stored ds
  | .clear, ds => ds = []
  | .step, ds | .playLoop, ds =>
    ∃ w p frame, L.holds w ∧ p ∈ w.players ∧ frame ∈ p.frames ∧ frame.parsed = .ok ds
  | _, _ => False

/-- A command keeps to the changes `A`, given that the law holds when it is carried out. -/
def Command.Within (L : Law) (A : Change → Prop) (c : Command) : Prop :=
  match c with
  | .update _ | .updateDevice _ _ | .clear | .step | .playLoop =>
    (∀ ds, c.MayPublish L ds → A (.store ds) ∧ ∀ number, A (.tell number ds)) ∧ Steering A
  | .notify none => ∀ w number, L.holds w → A (.tell number w.registry.devices)
  | .notify (some items) | .tell _ items =>
    ∀ ds, requireDevices items = .ok ds → ∀ number, A (.tell number ds)
  | .register who => ∀ w l, L.holds w → who.StandsFor w l → A (.register l)
  | .remove who => ∀ w l, L.holds w → who.StandsFor w l → A (.remove l)
  | .subscribe bus topic who =>
    ∀ w l, L.holds w → who.StandsFor w l → A (.subscribe bus topic l)
  | .unsubscribe bus topic who =>
    ∀ w l, L.holds w → who.StandsFor w l → A (.unsubscribe bus topic l)
  | .view id bus _ hook => ∀ settings, A (.makeView id bus settings hook)
  | .setSettings _ _ => ∀ number settings, A (.restyle number settings)
  | .setStance _ _ => ∀ number stance, A (.pose number stance)
  | .player recording => ∀ frames, Player.framesOf recording = .ok frames → A (.makePlayer frames)
  | .load recording name => ∀ frames, recording.items Payload.ofValue = .ok frames →
    ∀ number, A (.modifyPlayer number fun p => p.loaded frames name)
  | .play | .reset => Steering A
  | .pause => ∀ number, A (.modifyPlayer number Player.paused)
  | _ => True

/-- Commands that change who listens to what, or that make a view. -/
def Command.enlists : Command → Bool
  | .register _ | .remove _ | .subscribe _ _ _ | .unsubscribe _ _ _ | .view _ _ _ _ => true
  | _ => false

/-- A change to what is stored, told or set. -/
def Change.SetsContents : Change → Prop
  | .store _ | .tell _ _ | .restyle _ _ | .pose _ _ => True
  | .makePlayer _ | .modifyPlayer _ _ | .setLooping _ => True
  | _ => False

/-- Commands that enlist nobody change contents only. -/
theorem Command.within_of_contents {L : Law} {A : Change → Prop} {c : Command}
    (allowed : ∀ change : Change, change.SetsContents → A change) (quiet : c.enlists = false) :
    c.Within L A := by
  have steering : Steering A :=
    ⟨fun number f _ => allowed (.modifyPlayer number f) trivial,
      fun looping => allowed (.setLooping looping) trivial⟩
  cases c with
  | register | remove | subscribe | unsubscribe | view => cases quiet
  | update | updateDevice | clear | step | playLoop =>
    refine ⟨fun ds _ => ⟨?_, fun number => ?_⟩, steering⟩
    · exact allowed (.store ds) trivial
    · exact allowed (.tell number ds) trivial
  | notify items =>
    cases items with
    | none => exact fun w number _ => allowed (.tell number w.registry.devices) trivial
    | some items => exact fun ds _ number => allowed (.tell number ds) trivial
  | tell => exact fun ds _ number => allowed (.tell number ds) trivial
  | setSettings => exact fun number settings => allowed (.restyle number settings) trivial
  | setStance => exact fun number stance => allowed (.pose number stance) trivial
  | player => exact fun frames _ => allowed (.makePlayer frames) trivial
  | load recording name => exact fun frames _ number => allowed (.modifyPlayer number _) trivial
  | play | reset => exact steering
  | pause => exact fun number => allowed (.modifyPlayer number Player.paused) trivial
  | devices | isRegistered | emit | listenerCount | gesture => trivial

theorem Command.within_ordinary {L : Law} (c : Command) : c.Within L Change.IsOrdinary := by
  have contents : ∀ change : Change, change.SetsContents → change.IsOrdinary := by
    intro change sets
    cases change with
    | beginFanOut | call | settle => exact sets.elim
    | _ => trivial
  cases c with
  | register | remove | subscribe | unsubscribe => exact fun _ _ _ _ => trivial
  | view => exact fun _ => trivial
  | _ => exact Command.within_of_contents contents rfl

namespace Law

variable {L : Law} {A : Change → Prop}

theorem agree_resolve (who : Mention) : L.Agree (resolve who) (resolve who) := by
  cases who with
  | inert => exact agree_pure _
  | gesture g id => exact agree_bind (agree_viewNamed id) fun number => agree_pure _
  | named name =>
    apply agree_get_bind
    intro w _
    split
    · exact agree_pure _
    · exact agree_bind (agree_viewNamed name) fun number => agree_pure _

theorem agree_givenSettings (settings : Option Value) :
    L.Agree (givenSettings settings) (givenSettings settings) := by
  cases settings with
  | none => exact agree_pure _
  | some v => exact agree_accept _

theorem agree_givenStance (stance : Option Value) :
    L.Agree (givenStance stance) (givenStance stance) := by
  cases stance with
  | none => exact agree_pure _
  | some v => exact agree_accept _

theorem agree_mention (l : Listener) : L.Agree (Hub.mention l) (Hub.mention l) := by
  apply agree_get_bind
  intro w _
  split
  · exact agree_pure ()
  · exact agree_fail _

/-- A change that is made to the listener that a mention stands for. -/
theorem agree_resolve_make (permits : L.Permits A) (who : Mention) (c : Listener → Change)
    (within : ∀ w l, L.holds w → who.StandsFor w l → A (c l)) {next : Listener → Act Answer}
    (lawful : ∀ l, L.Agree (next l) (next l)) :
    L.Agree (do let l ← resolve who; make (c l); next l)
      (do let l ← resolve who; make (c l); next l) := by
  apply agree_bind_of_run (agree_resolve who)
  intro l u v holds run
  exact agree_bind (permits.make (within u l holds ⟨v, run⟩)) fun _ => lawful l

theorem agree_accept_bind {α β : Type} {checked : Except Rejection α} {f g : α → Act β}
    (next : ∀ a, checked = .ok a → L.Agree (f a) (g a)) :
    L.Agree (accept checked >>= f) (accept checked >>= g) := by
  cases checked with
  | ok a => exact next a rfl
  | error r => exact agree_fail _

/-- The commands that store a collection obey a law if publishing what they can store does. -/
theorem agree_publication (permits : L.Permits A) (aside : Aside A) (steering : Steering A)
    {fire other : Fire} {c : Command}
    (published : ∀ ds, c.MayPublish L ds → L.Agree (publish fire ds) (publish other ds))
    (publication : c.publishes = true) : L.Agree (command fire c) (command other c) := by
  have framed : c = .step ∨ c = .playLoop →
      L.Frames fun ds => L.Agree (publish fire ds) (publish other ds) := by
    rintro (rfl | rfl) w p frame ds holds held listed parsed
    · exact published ds ⟨w, p, frame, holds, held, listed, parsed⟩
    · exact published ds ⟨w, p, frame, holds, held, listed, parsed⟩
  cases c with
  | update payload => exact agree_map _ (agree_update permits aside published)
  | updateDevice name changes =>
    exact agree_map _ (agree_updateDevice permits aside
      fun w ds holds patched => published ds ⟨w, holds, patched⟩)
  | clear => exact agree_bind (agree_clear (published [] rfl)) fun _ => agree_pure _
  | step =>
    apply agree_bind (agree_playerInUse _)
    intro number
    have advances := fun index => steering.modifyPlayer number
      (fun q => { q with index := index }) fun _ => rfl
    exact agree_map _ (agree_stepPlayer permits aside advances (framed (.inl rfl)))
  | playLoop =>
    apply agree_bind (agree_playerInUse _)
    intro number
    have advances := fun index => steering.modifyPlayer number
      (fun q => { q with index := index }) fun _ => rfl
    have stepped := agree_stepPlayer permits aside advances (framed (.inr rfl))
    have pauses := steering.modifyPlayer number Player.paused fun _ => rfl
    exact agree_bind (agree_playLoop permits aside steering.setLooping pauses stepped)
      fun _ => agree_pure _
  | _ => exact nomatch publication

/-- A command obeys a law if it keeps to the changes `A` or is known to obey. The latter is for
those that may call a method of a view or replace what belongs to it. -/
theorem agree_command_of (permits : L.Permits A) (aside : Aside A) {fire other : Fire}
    (fired : ∀ name signal, L.Agree (fire name signal) (other name signal)) (c : Command)
    (within : c.handlesViews = false → c.Within L A)
    (handled : c.handlesViews = true → L.Agree (command fire c) (command other c)) :
    L.Agree (command fire c) (command other c) := by
  cases c with
  | update | updateDevice | clear | step | playLoop =>
    have within := within rfl
    refine agree_publication permits aside within.2 ?_ rfl
    intro ds may
    obtain ⟨stores, tells⟩ := within.1 ds may
    exact agree_publish permits fired aside stores tells
  | emit | gesture | setSettings | setStance => exact handled rfl
  | devices => exact agree_get_bind fun w _ => agree_pure _
  | notify items =>
    cases items with
    | none => exact agree_map _ (agree_notify permits fired aside none (within rfl))
    | some items =>
      exact agree_accept_bind fun ds accepted =>
        agree_map _ (agree_notify permits fired aside (some ds)
          fun w number _ => within rfl ds accepted number)
  | register who =>
    exact agree_resolve_make permits who .register (within rfl)
      fun l => agree_bind (agree_mention l) fun _ => agree_pure _
  | remove who =>
    exact agree_resolve_make permits who .remove (within rfl)
      fun l => agree_bind (agree_mention l) fun _ => agree_pure _
  | isRegistered who =>
    exact agree_bind (agree_resolve who) fun l => agree_get_bind fun w _ => agree_pure _
  | subscribe bus topic who =>
    exact agree_bind (permits.make (aside.openBus bus))
      fun _ => agree_resolve_make permits who (.subscribe bus topic) (within rfl)
        fun _ => agree_pure _
  | unsubscribe bus topic who =>
    exact agree_bind (permits.make (aside.openBus bus))
      fun _ => agree_resolve_make permits who (.unsubscribe bus topic) (within rfl)
        fun _ => agree_pure _
  | listenerCount bus topic =>
    exact agree_bind (permits.make (aside.openBus bus))
      fun _ => agree_get_bind fun w _ => agree_pure _
  | view id bus settings hook =>
    apply agree_bind (permits.make (aside.openBus bus))
    intro _
    apply agree_bind (agree_givenSettings settings)
    intro s
    exact agree_bind (permits.make (within rfl s)) fun _ => agree_pure _
  | tell id items =>
    apply agree_bind (agree_viewNamed id)
    intro number
    apply agree_accept_bind
    intro ds accepted
    exact agree_bind (agree_tellView permits fired number ds (within rfl ds accepted number))
      fun _ => agree_pure _
  | player recording =>
    simp only [command]
    cases read : Player.framesOf recording with
    | error kind => exact agree_fail _
    | ok frames =>
      exact agree_bind (permits.make (within rfl frames read)) fun _ => agree_pure _
  | load recording name =>
    exact agree_bind (agree_playerInUse _) fun number =>
      agree_bind (agree_load permits aside fun frames read => within rfl frames read number)
        fun _ => agree_pure _
  | play =>
    have starts := fun number => (within rfl).modifyPlayer number _ Player.frames_started
    exact agree_bind (agree_playerInUse _) fun number =>
      agree_bind (agree_modifyPlayer permits (starts number)) fun _ => agree_pure _
  | reset =>
    have rewinds := fun number => (within rfl).modifyPlayer number Player.rewound fun _ => rfl
    exact agree_bind (agree_playerInUse _) fun number =>
      agree_bind (agree_modifyPlayer permits (rewinds number)) fun _ => agree_pure _
  | pause =>
    exact agree_bind (agree_playerInUse _) fun number =>
      agree_bind (agree_modifyPlayer permits (within rfl number)) fun _ => agree_pure _

/-- A method is called on a view that a name stands for where the law holds. -/
theorem agree_gesture (permits : L.Permits A) (aside : Aside A) {fire other : Fire}
    (fired : ∀ name signal, L.Agree (fire name signal) (other name signal)) (g : Gesture)
    {id : String} (handles : ∀ w number, L.holds w → lookupField id w.viewNames = some number →
      Handles A number) :
    L.Agree (command fire (.gesture g id)) (command other (.gesture g id)) := by
  have named : ∀ number u v, L.holds u → (viewNamed id).run u = .ok number v →
      Handles A number := by
    intro number u v holds run
    exact handles u number holds (run_viewNamed_ok run).1
  cases g with
  | render =>
    exact agree_bind (agree_viewNamed id)
      fun number => agree_map _ (agree_render permits aside number)
  | cyclePattern | toggleIsometric | requestRender | activate | deactivate | receive =>
    apply agree_bind_of_run (agree_viewNamed id)
    intro number u v holds run
    exact agree_bind (agree_perform permits fired aside _ (named number u v holds run))
      fun _ => agree_pure _

theorem agree_setSettings (permits : L.Permits A) {fire other : Fire} {id : String}
    (settings : Option Value)
    (within : ∀ w number s, L.holds w → lookupField id w.viewNames = some number →
      A (.restyle number s)) :
    L.Agree (command fire (.setSettings id settings))
      (command other (.setSettings id settings)) := by
  apply agree_bind_of_run (agree_viewNamed id)
  intro number u v holds run
  have within := fun s => within u number s holds (run_viewNamed_ok run).1
  apply agree_bind (agree_givenSettings settings)
  intro s
  exact agree_bind (permits.make (within s)) fun _ => agree_pure _

theorem agree_setStance (permits : L.Permits A) {fire other : Fire} {id : String}
    (stance : Option Value)
    (within : ∀ w number s, L.holds w → lookupField id w.viewNames = some number →
      A (.pose number s)) :
    L.Agree (command fire (.setStance id stance)) (command other (.setStance id stance)) := by
  apply agree_bind_of_run (agree_viewNamed id)
  intro number u v holds run
  have within := fun s => within u number s holds (run_viewNamed_ok run).1
  apply agree_bind (agree_givenStance stance)
  intro s
  exact agree_bind (permits.make (within s)) fun _ => agree_pure _

theorem agree_command (permits : L.Permits A) (routine : Routine A) {fire other : Fire}
    (fired : ∀ name signal, L.Agree (fire name signal) (other name signal)) (c : Command)
    (within : c.Within L A) : L.Agree (command fire c) (command other c) := by
  apply agree_command_of permits routine.toAside fired c fun _ => within
  intro handles
  cases c with
  | emit bus topic => exact agree_map _ (agree_emit permits fired routine bus topic)
  | gesture g id =>
    exact agree_gesture permits routine.toAside fired g fun _ number _ _ => routine.handles number
  | setSettings id settings =>
    exact agree_setSettings permits settings fun _ number s _ _ => within number s
  | setStance id stance =>
    exact agree_setStance permits stance fun _ number s _ _ => within number s
  | _ => exact nomatch handles

theorem agree_commands (permits : L.Permits A) (routine : Routine A) {fire other : Fire}
    (fired : ∀ name signal, L.Agree (fire name signal) (other name signal))
    (acts : List Command) (within : ∀ c ∈ acts, c.Within L A) :
    L.Agree (commands fire acts) (commands other acts) := by
  induction acts with
  | nil => exact agree_pure ()
  | cons c rest ih =>
    have first := agree_command permits routine fired c (within c List.mem_cons_self)
    have others := ih fun d member => within d (List.mem_cons_of_mem c member)
    exact agree_bind (agree_discard first) fun _ => others

/-- Whatever scripts can be called where the law holds keep to the changes `A` and break off only if
the law lets them. -/
def Binds (L : Law) (A : Change → Prop) : Prop :=
  ∀ w name script, L.holds w → lookupField name w.scripts = some script →
    (∀ c ∈ script.acts, c.Within L A) ∧ (script.ending.breaks = true → L.breaks)

theorem agree_finish (ending : Ending) (allowed : ending.breaks = true → L.breaks) :
    L.Agree (finish ending) (finish ending) := by
  cases ending with
  | returns => exact agree_pure ()
  | raises text => exact agree_fail _
  | raisesMute asking => exact fun w holds => ⟨rfl, holds, L.refl w, fun _ => allowed rfl⟩
  | cancels => exact fun w holds => ⟨rfl, holds, L.refl w, fun _ => allowed rfl⟩

/-- A script whose commands obey a law that bears its being called obeys it. -/
theorem agree_callScript_of_acts
    (firing : ∀ name signal w, L.holds w →
      L.holds ((Change.firing name signal).apply w) ∧
        L.moves w ((Change.firing name signal).apply w))
    (endings : ∀ w name script, L.holds w → lookupField name w.scripts = some script →
      script.ending.breaks = true → L.breaks)
    {perform other : List Command → Act Unit}
    (acts : ∀ w name script, L.holds w → lookupField name w.scripts = some script →
      L.Agree (perform script.acts) (other script.acts))
    (name : String) (signal : Signal) :
    L.Agree (callScript perform name signal) (callScript other name signal) := by
  apply agree_get_bind
  intro w holds
  cases found : lookupField name w.scripts with
  | none => exact agree_fail _
  | some script =>
    have begun : L.Agree (beginFiring name script signal) (beginFiring name script signal) :=
      fun v holds => ⟨rfl, firing name (heard script signal) v holds⟩
    have finished := agree_finish script.ending (endings w name script holds found)
    apply agree_bind begun
    intro first
    cases first with
    | true => exact agree_bind (acts w name script holds found) fun _ => finished
    | false => exact agree_bind (agree_pure ()) fun _ => finished

theorem agree_callScript (permits : L.Permits A) (routine : Routine A) (binds : L.Binds A)
    {perform other : List Command → Act Unit}
    (agree : ∀ acts, (∀ c ∈ acts, c.Within L A) → L.Agree (perform acts) (other acts))
    (name : String) (signal : Signal) :
    L.Agree (callScript perform name signal) (callScript other name signal) :=
  agree_callScript_of_acts
    (fun name signal _ => permits.change (routine.firing name signal))
    (fun w name script holds found => (binds w name script holds found).2)
    (fun w name script holds found => agree script.acts (binds w name script holds found).1)
    name signal

end Law

namespace Hub

/-- Fires a script in one way where `P` holds of the world and in another way elsewhere. -/
def guarded (P : World → Prop) [DecidablePred P] (fire otherwise : Fire) : Fire :=
  fun name signal => do if P (← get) then fire name signal else otherwise name signal

/-- Like `fireAt`, with every single call of a script, however deeply nested, guarded. -/
def fireWhere (P : World → Prop) [DecidablePred P] (otherwise : Fire) : Nat → Fire
  | 0 => guarded P (callScript fun _ => pure ()) otherwise
  | depth + 1 => guarded P (callScript (commands (fireWhere P otherwise depth))) otherwise

/-- Carries out a command where `P` holds of the world and does something else elsewhere. -/
def commandWhere (P : World → Prop) [DecidablePred P] (otherwise : Command → Act Answer)
    (fire : Fire) (c : Command) : Act Answer := do
  if P (← get) then command fire c else otherwise c

def commandsWhere (P : World → Prop) [DecidablePred P] (otherwise : Command → Act Answer)
    (fire : Fire) : List Command → Act Unit
  | [] => return
  | c :: rest => do
    discard (commandWhere P otherwise fire c)
    commandsWhere P otherwise fire rest

/-- Like `fireAt`, with every single command of a script, however deeply nested, guarded. -/
def fireAtWhere (P : World → Prop) [DecidablePred P] (otherwise : Command → Act Answer) : Nat → Fire
  | 0 => callScript fun _ => pure ()
  | depth + 1 => callScript (commandsWhere P otherwise (fireAtWhere P otherwise depth))

theorem run_commandWhere (P : World → Prop) [DecidablePred P] (otherwise : Command → Act Answer)
    (fire : Fire) (c : Command) (w : World) :
    (commandWhere P otherwise fire c).run w =
      if P w then (command fire c).run w else (otherwise c).run w := by
  simp only [commandWhere, EStateM.run_bind, EStateM.run_get]
  split
  · rfl
  · rfl

theorem fireAtWhere_of_always {P : World → Prop} [DecidablePred P] (always : ∀ w, P w)
    (otherwise : Command → Act Answer) (depth : Nat) :
    fireAtWhere P otherwise depth = fireAt depth := by
  have unguarded : ∀ fire, commandsWhere P otherwise fire = commands fire := by
    intro fire
    funext acts
    induction acts with
    | nil => rfl
    | cons c rest ih =>
      have first : commandWhere P otherwise fire c = command fire c := by
        apply Act.ext
        intro w
        rw [run_commandWhere, if_pos (always w)]
      rw [commandsWhere, commands, first, ih]
  induction depth with
  | zero => rfl
  | succ depth ih => rw [fireAtWhere, fireAt, ih, unguarded]

/-- The world after the steps of a session in which scripts are fired in a given way. -/
def carryOutAllBy (fire : Nat → Fire) (w : World) (steps : List Command) : World :=
  steps.foldl (fun w c => (command (fire (scriptDepth w.scripts)) c).after w) w

theorem carryOutAll_cons (w : World) (c : Command) (rest : List Command) :
    carryOutAll w (c :: rest) = carryOutAll ((carryOut c).after w) rest := rfl

theorem carryOutAllBy_cons (fire : Nat → Fire) (w : World) (c : Command) (rest : List Command) :
    carryOutAllBy fire w (c :: rest) =
      carryOutAllBy fire ((command (fire (scriptDepth w.scripts)) c).after w) rest := rfl

end Hub

namespace Law

variable {L : Law} {A : Change → Prop} (permits : L.Permits A) (routine : Routine A)
  (binds : L.Binds A)

theorem agree_guarded {P : World → Prop} [DecidablePred P] (kept : ∀ w, L.holds w → P w)
    {fire other otherwise : Fire} {name : String} {signal : Signal}
    (agree : L.Agree (fire name signal) (other name signal)) :
    L.Agree (fire name signal) (guarded P other otherwise name signal) := by
  intro w holds
  have unguarded : (guarded P other otherwise name signal).run w = (other name signal).run w := by
    simp only [guarded, EStateM.run_bind, EStateM.run_get, if_pos (kept w holds)]
  rw [unguarded]
  exact agree w holds

include permits routine binds

theorem agree_fireWhere {P : World → Prop} [DecidablePred P] (kept : ∀ w, L.holds w → P w)
    (otherwise : Fire) (depth : Nat) (name : String) (signal : Signal) :
    L.Agree (fireAt depth name signal) (fireWhere P otherwise depth name signal) := by
  -- commands of a script fire others one level down, where the guard is met again
  induction depth generalizing name signal with
  | zero =>
    apply agree_guarded kept
    exact agree_callScript permits routine binds (fun _ _ => agree_pure ()) name signal
  | succ depth ih =>
    apply agree_guarded kept
    exact agree_callScript permits routine binds
      (fun acts within => agree_commands permits routine ih acts within) name signal

theorem agree_fireAtWhere {P : World → Prop} [DecidablePred P] (kept : ∀ w, L.holds w → P w)
    (otherwise : Command → Act Answer) (depth : Nat) (name : String) (signal : Signal) :
    L.Agree (fireAt depth name signal) (fireAtWhere P otherwise depth name signal) := by
  have guarded : ∀ {fire other : Fire},
      (∀ name signal, L.Agree (fire name signal) (other name signal)) →
        ∀ acts, (∀ c ∈ acts, c.Within L A) →
          L.Agree (commands fire acts) (commandsWhere P otherwise other acts) := by
    intro fire other fired acts within
    induction acts with
    | nil => exact agree_pure ()
    | cons c rest ih =>
      obtain ⟨first, later⟩ := List.forall_mem_cons.mp within
      have met : L.Agree (command fire c) (commandWhere P otherwise other c) := by
        intro w holds
        rw [run_commandWhere, if_pos (kept w holds)]
        exact agree_command permits routine fired c first w holds
      exact agree_bind (agree_discard met) fun _ => ih later
  induction depth generalizing name signal with
  | zero => exact agree_callScript permits routine binds (fun _ _ => agree_pure ()) name signal
  | succ depth ih => exact agree_callScript permits routine binds (guarded ih) name signal

/-- Scripts obey the law themselves: a guard that is always met changes nothing. -/
theorem agree_fireAt (depth : Nat) (name : String) (signal : Signal) :
    L.Agree (fireAt depth name signal) (fireAt depth name signal) := by
  have always : ∀ w, L.holds w → True := fun _ _ => trivial
  exact (agree_fireWhere permits routine binds always noScripts depth name signal).left

omit permits routine binds in
/-- Scripts whose commands are guarded obey a law that bears their being called, if the guarded
commands do in whatever lawful way scripts are fired meanwhile. -/
theorem agree_fireAtWhere_of_acts {P : World → Prop} [DecidablePred P]
    {otherwise : Command → Act Answer}
    (firing : ∀ name signal w, L.holds w →
      L.holds ((Change.firing name signal).apply w) ∧
        L.moves w ((Change.firing name signal).apply w))
    (acts : ∀ w name script, L.holds w → lookupField name w.scripts = some script →
      ∀ fire : Fire, (∀ name signal, L.Agree (fire name signal) (fire name signal)) →
        ∀ c ∈ script.acts,
          L.Agree (commandWhere P otherwise fire c) (commandWhere P otherwise fire c))
    (endings : ∀ w name script, L.holds w → lookupField name w.scripts = some script →
      script.ending.breaks = true → L.breaks)
    (depth : Nat) (name : String) (signal : Signal) :
    L.Agree (fireAtWhere P otherwise depth name signal)
      (fireAtWhere P otherwise depth name signal) := by
  induction depth generalizing name signal with
  | zero =>
    exact agree_callScript_of_acts firing endings (fun _ _ _ _ _ => agree_pure ()) name signal
  | succ depth ih =>
    apply agree_callScript_of_acts firing endings
    intro w name script holds found
    have each := acts w name script holds found _ ih
    generalize script.acts = listed at each
    induction listed with
    | nil => exact agree_pure ()
    | cons c rest others =>
      obtain ⟨first, later⟩ := List.forall_mem_cons.mp each
      exact agree_bind (agree_discard first) fun _ => others later

omit permits routine binds in
theorem agree_fireAt_of_acts
    (firing : ∀ name signal w, L.holds w →
      L.holds ((Change.firing name signal).apply w) ∧
        L.moves w ((Change.firing name signal).apply w))
    (acts : ∀ w name script, L.holds w → lookupField name w.scripts = some script →
      ∀ fire : Fire, (∀ name signal, L.Agree (fire name signal) (fire name signal)) →
        ∀ c ∈ script.acts, L.Agree (command fire c) (command fire c))
    (endings : ∀ w name script, L.holds w → lookupField name w.scripts = some script →
      script.ending.breaks = true → L.breaks)
    (depth : Nat) (name : String) (signal : Signal) :
    L.Agree (fireAt depth name signal) (fireAt depth name signal) := by
  rw [← fireAtWhere_of_always (P := fun _ => True) (fun _ => trivial) fun _ => pure .nothing]
  apply agree_fireAtWhere_of_acts firing _ endings
  intro w name script holds found fire fired c member u holds_u
  rw [run_commandWhere, if_pos trivial]
  exact acts w name script holds found fire fired c member u holds_u

theorem carryOut_admits {c : Command} (within : c.Within L A) {w : World} (holds : L.holds w) :
    L.Admits w ((carryOut c).run w) := by
  rw [run_carryOut]
  exact (agree_command permits routine (agree_fireAt permits routine binds _) c within w holds).2

omit permits routine binds in
theorem carryOutAll_admits_of_agree {steps : List Command}
    (agree : ∀ c ∈ steps, ∀ depth,
      L.Agree (command (fireAt depth) c) (command (fireAt depth) c))
    {w : World} (holds : L.holds w) :
    L.holds (carryOutAll w steps) ∧ L.moves w (carryOutAll w steps) := by
  induction steps generalizing w with
  | nil => exact ⟨holds, L.refl w⟩
  | cons c rest ih =>
    have first : L.Admits w ((carryOut c).run w) := by
      rw [run_carryOut]
      exact (agree c List.mem_cons_self (scriptDepth w.scripts) w holds).2
    have others := ih (fun d member => agree d (List.mem_cons_of_mem c member)) first.after.1
    exact ⟨others.1, L.trans first.after.2 others.2⟩

/-- A whole session. -/
theorem carryOutAll_admits {steps : List Command} (within : ∀ c ∈ steps, c.Within L A)
    {w : World} (holds : L.holds w) :
    L.holds (carryOutAll w steps) ∧ L.moves w (carryOutAll w steps) := by
  apply carryOutAll_admits_of_agree _ holds
  intro c member depth
  exact agree_command permits routine (agree_fireAt permits routine binds depth) c
    (within c member)

/-- Ways of firing scripts that cannot be told apart where the law holds make the same session. -/
theorem carryOutAllBy_of_agree {fire : Nat → Fire}
    (agree : ∀ depth name signal, L.Agree (fireAt depth name signal) (fire depth name signal))
    {steps : List Command} (within : ∀ c ∈ steps, c.Within L A) {w : World} (holds : L.holds w) :
    carryOutAllBy fire w steps = carryOutAll w steps := by
  induction steps generalizing w with
  | nil => simp only [carryOutAllBy, carryOutAll, List.foldl_nil]
  | cons c rest ih =>
    have step := within c List.mem_cons_self
    have same : (command (fire (scriptDepth w.scripts)) c).after w = (carryOut c).after w := by
      unfold Act.after
      rw [(agree_command permits routine (agree (scriptDepth w.scripts)) c step w holds).1,
        run_carryOut]
    have first := (carryOut_admits permits routine binds step holds).after
    rw [carryOutAllBy_cons, carryOutAll_cons, same]
    exact ih (fun d member => within d (List.mem_cons_of_mem c member)) first.1

/-- Where the law holds, guarding every call of a script changes nothing at all. -/
theorem carryOutAllBy_fireWhere {P : World → Prop} [DecidablePred P]
    (kept : ∀ w, L.holds w → P w) (otherwise : Fire) {steps : List Command}
    (within : ∀ c ∈ steps, c.Within L A) {w : World} (holds : L.holds w) :
    carryOutAllBy (fireWhere P otherwise) w steps = carryOutAll w steps :=
  carryOutAllBy_of_agree permits routine binds
    (fun depth name signal =>
      agree_fireWhere permits routine binds kept otherwise depth name signal)
    within holds

/-- Where the law holds, guarding every command of a script changes nothing at all. -/
theorem carryOutAllBy_fireAtWhere {P : World → Prop} [DecidablePred P]
    (kept : ∀ w, L.holds w → P w) (otherwise : Command → Act Answer) {steps : List Command}
    (within : ∀ c ∈ steps, c.Within L A) {w : World} (holds : L.holds w) :
    carryOutAllBy (fireAtWhere P otherwise) w steps = carryOutAll w steps :=
  carryOutAllBy_of_agree permits routine binds
    (fun depth name signal =>
      agree_fireAtWhere permits routine binds kept otherwise depth name signal)
    within holds

end Law

def keptScripts (scripts : List (String × Script)) : Law where
  holds w := w.scripts = scripts
  moves _ _ := True
  breaks := True
  refl _ := trivial
  trans _ _ := trivial

theorem Law.keptScripts_permits {scripts : List (String × Script)} {A : Change → Prop} :
    (keptScripts scripts).Permits A :=
  .of_always fun {w} c holds => ⟨(Change.apply_names w c).1.trans holds, trivial⟩

end FleetMap
