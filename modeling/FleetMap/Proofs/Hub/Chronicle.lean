import FleetMap.Proofs.Hub.Freshness
import FleetMap.Proofs.Hub.Record

/-!
What observers are owed. A listener that attends is behind if it was not handed the newest edition
last, or holds another collection if it is a view. It is owed the newest edition then, unless it was
misled: by a belated delivery, or by a collection that was given to be handed out. Whatever
callbacks do, nobody who attends comes to be owed anything while nothing is stored, and publishing
pays everyone who is registered when the collection is stored. Nobody else can come to attend
unpaid: a view that is activated takes over what is stored, and commands that begin while the
watched listener does not attend are left out of account.
-/

set_option autoImplicit false

namespace FleetMap

open Act Hub

namespace World

/-- The record tells what is stored and what was handed out, which is an edition or one of the
collections that may be given to be handed out as they are. If `quiet`, nothing was belated. -/
structure Chronicled (initial : List Device) (given : List Device → Prop) (quiet : Prop)
    (w : World) : Prop where
  numbered : ∀ number who ds, .handed number who ds ∈ w.record → number < w.fanOuts
  stored : (w.record.editions initial)[w.record.newest]? = some w.registry.devices
  faithful : ∀ l, ∀ d ∈ w.record.receivedBy l,
    (w.record.editions initial)[d.edition]? = some d.devices ∨ given d.devices
  prompt : quiet → ∀ l, ∀ d ∈ w.record.receivedBy l, ¬ d.Belated

/-- A listener is registered and, if it is a view, active. -/
def attends (w : World) (l : Listener) : Bool :=
  decide (l ∈ w.registry.observers) &&
    match l with
    | .view number => w.isActive number
    | _ => true

/-- A view that holds another collection than the stored one, or any other listener that was not
handed the newest edition last. -/
def Behind (w : World) : Listener → Prop
  | .view number => w.Stale number
  | l => ∀ d ∈ (w.record.receivedBy l).head?, d.edition ≠ w.record.newest

/-- The last delivery to the listener was belated or of a collection that was given. -/
def Misled (given : List Device → Prop) (w : World) (l : Listener) : Prop :=
  ∃ d ∈ (w.record.receivedBy l).head?, d.Belated ∨ given d.devices

/-- A listener that attends is behind and was not misled. -/
structure Owed (given : List Device → Prop) (w : World) (l : Listener) : Prop where
  attends : w.attends l = true
  behind : w.Behind l
  not_misled : ¬ w.Misled given l

variable {w v : World} {initial : List Device} {given : List Device → Prop} {quiet : Prop}
  {l : Listener}

theorem Chronicled.of_record (told : w.Chronicled initial given quiet)
    (record : v.record = w.record)
    (devices : v.registry.devices = w.registry.devices) (fanOuts : w.fanOuts ≤ v.fanOuts) :
    v.Chronicled initial given quiet := by
  constructor
  · intro number who ds member
    rw [record] at member
    exact Nat.lt_of_lt_of_le (told.numbered number who ds member) fanOuts
  · rw [record, devices]
    exact told.stored
  · rw [record]
    exact told.faithful
  · rw [record]
    exact told.prompt

theorem Chronicled.store (told : w.Chronicled initial given quiet) (ds : List Device) :
    ((Change.store ds).apply w).Chronicled initial given quiet := by
  constructor
  · intro number who handed member
    rcases List.mem_cons.mp member with same | earlier
    · exact nomatch same
    · exact told.numbered number who handed earlier
  · change (w.record.editions initial ++ [ds])[w.record.newest + 1]? = some ds
    rw [← Record.length_editions initial, List.getElem?_concat_length]
  · intro l d received
    exact (told.faithful l d received).imp_left
      (Record.getElem?_editions_of_suffix (List.suffix_cons _ _))
  · exact told.prompt

theorem Chronicled.editionOf_fanOuts (told : w.Chronicled initial given quiet) :
    w.record.editionOf w.fanOuts = w.record.newest := by
  apply Record.editionOf_of_not_hasBegun
  rw [Bool.eq_false_iff]
  intro begun
  obtain ⟨who, ds, member⟩ := Record.exists_handed_of_hasBegun begun
  exact Nat.lt_irrefl _ (told.numbered _ who ds member)

theorem attends_iff : w.attends l = true ↔
    l ∈ w.registry.observers ∧ ∀ number, l = .view number → w.isActive number = true := by
  cases l with
  | view number => simp [attends]
  | script | gesture | inbox | inert => simp [attends]

theorem Stale.isActive {number : Nat} (stale : w.Stale number) : w.isActive number = true := by
  obtain ⟨x, found, active, _⟩ := stale
  unfold World.isActive
  rw [found]
  exact active

/-- Who is owed the newest edition is owed it already if nothing came of it meanwhile. -/
theorem Owed.of_same (owed : v.Owed given l) (listed : l ∈ w.registry.observers)
    (received : v.record.receivedBy l = w.record.receivedBy l)
    (newest : v.record.newest = w.record.newest)
    (stale : ∀ number, l = .view number → v.Stale number → w.Stale number) : w.Owed given l := by
  have behind : w.Behind l := by
    cases l with
    | view number => exact stale number rfl owed.behind
    | script | gesture | inbox | inert =>
      intro d last
      rw [← received] at last
      rw [← newest]
      exact owed.behind d last
  constructor
  · rw [attends_iff]
    refine ⟨listed, ?_⟩
    rintro number rfl
    exact behind.isActive
  · exact behind
  · rintro ⟨d, last, belated⟩
    rw [← received] at last
    exact owed.not_misled ⟨d, last, belated⟩

/-- Who is listed after a change was listed before, unless the change lists it. -/
theorem mem_observers_of_apply {c : Change} (listed : l ∈ (c.apply w).registry.observers)
    (registers : c = .register l → l ∈ w.registry.observers)
    (active : ∀ number, l = .view number → w.isActive number = true) :
    l ∈ w.registry.observers := by
  cases c with
  | register other =>
    rcases w.registry.mem_register listed with before | rfl
    · exact before
    · exact registers rfl
  | remove other => exact w.registry.mem_remove listed
  | activate number =>
    rcases Change.apply_activate w number with same | ⟨x, found, inactive, attached⟩
    · rwa [same] at listed
    · rw [attached, registry_attached] at listed
      rcases w.registry.mem_register listed with before | rfl
      · exact before
      · -- a view that was active is not activated
        have was_active := active number rfl
        unfold isActive at was_active
        rw [found] at was_active
        exact absurd (was_active.symm.trans inactive) nofun
  | deactivate number =>
    rcases Change.apply_deactivate w number with same | ⟨x, _, _, detached⟩
    · rwa [same] at listed
    · rw [detached, registry_detached] at listed
      exact w.registry.mem_remove listed
  | tell number ds =>
    rcases Change.apply_tell w number ds with same | ⟨_, told⟩
    · rwa [same] at listed
    · rwa [told, registry_asked] at listed
  | ask number | cycle number | toggle number =>
    change l ∈ (World.asked _ number).registry.observers at listed
    rwa [registry_asked] at listed
  | _ => exact listed

/-- No change that is not recorded makes anyone who attends come to be owed anything, but telling a
view by hand. -/
theorem Owed.of_apply {c : Change} (unrecorded : ¬ c.IsRecorded)
    (registers : c = .register l → l ∈ w.registry.observers)
    (tells : ∀ number ds, c = .tell number ds → l ≠ .view number)
    (owed : (c.apply w).Owed given l) : w.Owed given l := by
  have record := record_apply (w := w) unrecorded
  have stale : ∀ number, l = .view number → (c.apply w).Stale number → w.Stale number := by
    intro number same stale
    apply stale.of_apply
    · rintro ds rfl
      exact unrecorded trivial
    · intro ds told
      exact absurd same (tells number ds told)
  refine owed.of_same ?_ (by rw [record]) (by rw [record]) stale
  apply mem_observers_of_apply (attends_iff.mp owed.attends).1 registers
  rintro number rfl
  exact (stale number rfl owed.behind).isActive

end World

theorem Change.fanOuts_le (w : World) (c : Change) : w.fanOuts ≤ (c.apply w).fanOuts := by
  have leads : c.IsOrdinary → w.fanOuts ≤ (c.apply w).fanOuts := by
    intro ordinary
    obtain ⟨_, _, grown, _⟩ := leadsTo_apply ordinary w
    exact grown
  cases c with
  | beginFanOut => exact Nat.le_succ _
  | call | settle => exact Nat.le_refl _
  | _ => exact leads trivial

/-- The record is kept, and a watched listener that attends comes to be owed nothing. If `still`,
nothing is stored. Acts may break off only while nobody is watched. -/
def chronicle (scripts : List (String × Script)) (initial : List Device)
    (given : List Device → Prop) (watched : Option Listener) (quiet still : Prop) : Law where
  holds w := w.scripts = scripts ∧ w.Chronicled initial given quiet
  moves w v := w.record <:+ v.record ∧ w.fanOuts ≤ v.fanOuts ∧
    (∀ l ∈ watched, v.Owed given l → w.Owed given l ∧ v.record.newest = w.record.newest) ∧
      (still → v.record.newest = w.record.newest)
  breaks := watched = none
  refl w := ⟨List.suffix_refl _, Nat.le_refl _, fun _ _ owed => ⟨owed, rfl⟩, fun _ => rfl⟩
  trans := by
    rintro u v w ⟨suffix, grown, owed, same⟩ ⟨suffix', grown', owed', same'⟩
    refine ⟨suffix.trans suffix', Nat.le_trans grown grown', ?_,
      fun still => (same' still).trans (same still)⟩
    intro l member owed_w
    obtain ⟨owed_v, newest'⟩ := owed' l member owed_w
    obtain ⟨owed_u, newest⟩ := owed l member owed_v
    exact ⟨owed_u, newest'.trans newest⟩

def Command.tells : Command → Bool
  | .tell _ _ => true
  | _ => false

/-- A change that stores nothing, hands nothing out and does not register the watched listener. -/
def Change.Abides (watched : Option Listener) (c : Change) : Prop :=
  c.Spares ∧ ∀ l ∈ watched, c ≠ .register l

namespace Law

variable {scripts : List (String × Script)} {initial : List Device} {given : List Device → Prop}
  {watched : Option Listener} {quiet still : Prop}

theorem chronicle_apply {w : World} {c : Change} (unrecorded : ¬ c.IsRecorded)
    (registers : ∀ l ∈ watched, c = .register l → l ∈ w.registry.observers)
    (tells : ∀ number ds, c = .tell number ds → .view number ∉ watched)
    (holds : (chronicle scripts initial given watched quiet still).holds w) :
    (chronicle scripts initial given watched quiet still).holds (c.apply w) ∧
      (chronicle scripts initial given watched quiet still).moves w (c.apply w) := by
  have record := World.record_apply (w := w) unrecorded
  have grown := Change.fanOuts_le w c
  have devices : (c.apply w).registry.devices = w.registry.devices := by
    apply Change.apply_devices
    rintro ds rfl
    exact unrecorded trivial
  refine ⟨⟨(Change.apply_names w c).1.trans holds.1, holds.2.of_record record devices grown⟩, ?_⟩
  refine ⟨by rw [record], grown, ?_, fun _ => by rw [record]⟩
  intro l member owed
  refine ⟨owed.of_apply unrecorded (registers l member) ?_, by rw [record]⟩
  rintro number ds told rfl
  exact tells number ds told member

theorem unrecorded_of_spares {c : Change} (spares : c.Spares) : ¬ c.IsRecorded := by
  cases c with
  | store | tell => exact spares.elim
  | call number who signal =>
    cases signal with
    | notice ds => exact spares.elim
    | trigger | scene => exact id
  | _ => exact id

theorem chronicle_change {w : World} {c : Change} (abides : c.Abides watched)
    (holds : (chronicle scripts initial given watched quiet still).holds w) :
    (chronicle scripts initial given watched quiet still).holds (c.apply w) ∧
      (chronicle scripts initial given watched quiet still).moves w (c.apply w) := by
  apply chronicle_apply (unrecorded_of_spares abides.1) _ _ holds
  · exact fun l member same => absurd same (abides.2 l member)
  · rintro number ds rfl
    exact abides.1.elim

theorem fansOut_abides : FansOut (Change.Abides watched) where
  note _ := ⟨trivial, fun _ _ => nofun⟩
  begins := ⟨trivial, fun _ _ => nofun⟩
  called number who signal tells := by
    cases signal with
    | notice ds => exact (tells ds rfl 0).1.elim
    | trigger | scene => exact ⟨trivial, fun _ _ => nofun⟩
  settled _ _ _ := ⟨trivial, fun _ _ => nofun⟩

theorem chronicle_permits :
    (chronicle scripts initial given watched quiet still).Permits (Change.Abides watched) :=
  .of_change chronicle_change fansOut_abides

theorem routine_abides : Routine (Change.Abides watched) := by
  apply routine_of_allowed
  intro c routine
  refine ⟨Change.spares_of_routine routine, ?_⟩
  rintro l - rfl
  exact routine.elim

theorem steering_abides : Steering (Change.Abides watched) := by
  constructor
  all_goals
    intros
    exact ⟨trivial, fun _ _ => nofun⟩

end Law

namespace World

def handedOver (w : World) (number : Nat) (who : Listener) (ds : List Device) : World :=
  match who with
  | .view n => (Change.tell n ds).apply (w.enter (.called number who (.notice ds)))
  | _ => w.enter (.called number who (.notice ds))

/-- A collection is what a fan-out that is under way hands out: its edition, or one that was given.
If `quiet`, its edition is the newest. -/
structure Announces (initial : List Device) (given : List Device → Prop) (quiet : Prop)
    (number : Nat) (ds : List Device) (w : World) : Prop where
  underWay : number < w.fanOuts
  edition : (w.record.editions initial)[w.record.editionOf number]? = some ds ∨ given ds
  prompt : quiet → w.record.editionOf number = w.record.newest

variable {w v : World} {initial : List Device} {given : List Device → Prop} {quiet : Prop}
  {number : Nat} {who l : Listener} {ds : List Device}

theorem record_handedOver :
    (w.handedOver number who ds).record = .handed number who ds :: w.record := by
  cases who with
  | view n =>
    have told : (Change.tell n ds).OfView := trivial
    exact (Change.onlyViews_apply _ told).journal (fun _ => rfl) (fun _ _ => rfl) fun _ => rfl
  | script | gesture | inbox | inert => rfl

theorem registry_handedOver : (w.handedOver number who ds).registry = w.registry := by
  cases who with
  | view n =>
    rcases Change.apply_tell (w.enter (.called number (.view n) (.notice ds))) n ds with
      same | ⟨_, told⟩
    · exact (congrArg World.registry same).trans rfl
    · exact (congrArg World.registry told).trans (registry_asked _ n)
  | script | gesture | inbox | inert => rfl

theorem scripts_handedOver : (w.handedOver number who ds).scripts = w.scripts := by
  cases who with
  | view n => exact (Change.apply_names _ (.tell n ds)).1
  | script | gesture | inbox | inert => rfl

theorem fanOuts_handedOver : w.fanOuts ≤ (w.handedOver number who ds).fanOuts := by
  cases who with
  | view n => exact Change.fanOuts_le (w.enter (.called number (.view n) (.notice ds))) (.tell n ds)
  | script | gesture | inbox | inert => exact Nat.le_refl _

theorem Chronicled.handedOver (told : w.Chronicled initial given quiet)
    (announces : w.Announces initial given quiet number ds) (who : Listener) :
    (w.handedOver number who ds).Chronicled initial given quiet := by
  have each : ∀ l, ∀ d ∈ Record.receivedBy l (.handed number who ds :: w.record),
      d = ⟨w.record.editionOf number, w.record.newest, ds⟩ ∨ d ∈ w.record.receivedBy l := by
    intro l d received
    rw [Record.receivedBy] at received
    split at received
    · exact List.mem_cons.mp received
    · exact .inr received
  constructor
  · rw [record_handedOver]
    intro other who' handed member
    apply Nat.lt_of_lt_of_le _ fanOuts_handedOver
    rcases List.mem_cons.mp member with same | earlier
    · obtain ⟨rfl, _⟩ := Dispatch.handed.inj same
      exact announces.underWay
    · exact told.numbered other who' handed earlier
  · rw [record_handedOver, registry_handedOver]
    exact told.stored
  · rw [record_handedOver]
    intro l d received
    rcases each l d received with rfl | earlier
    · exact announces.edition
    · exact told.faithful l d earlier
  · rw [record_handedOver]
    intro still l d received
    rcases each l d received with rfl | earlier
    · exact Nat.not_lt.mpr (Nat.le_of_eq (announces.prompt still).symm)
    · exact told.prompt still l d earlier

theorem Announces.of_record (announces : w.Announces initial given quiet number ds)
    (record : v.record = w.record) (fanOuts : w.fanOuts ≤ v.fanOuts) :
    v.Announces initial given quiet number ds := by
  refine ⟨Nat.lt_of_lt_of_le announces.underWay fanOuts, ?_, ?_⟩
  · rw [record]
    exact announces.edition
  · rw [record]
    exact announces.prompt

theorem Announces.handedOver (announces : w.Announces initial given quiet number ds)
    (who : Listener) :
    (w.handedOver number who ds).Announces initial given quiet number ds := by
  refine ⟨Nat.lt_of_lt_of_le announces.underWay fanOuts_handedOver, ?_, ?_⟩
  · rw [record_handedOver, Record.editionOf_cons_handed]
    exact announces.edition
  · rw [record_handedOver, Record.editionOf_cons_handed]
    exact announces.prompt

/-- Once a fan-out has handed something out it keeps to its edition. -/
theorem Announces.of_suffix (announces : w.Announces initial given quiet number ds)
    (begun : w.record.hasBegun number = true) (suffix : w.record <:+ v.record)
    (fanOuts : w.fanOuts ≤ v.fanOuts) (still : quiet → v.record.newest = w.record.newest) :
    v.Announces initial given quiet number ds := by
  have same := Record.editionOf_of_suffix begun suffix
  refine ⟨Nat.lt_of_lt_of_le announces.underWay fanOuts, ?_, ?_⟩
  · rw [same]
    exact announces.edition.imp_left (Record.getElem?_editions_of_suffix suffix)
  · intro holds
    rw [same, still holds]
    exact announces.prompt holds

/-- Who is handed something is owed nothing: it is the newest edition, or it misleads. -/
theorem not_owed_handedOver (told : w.Chronicled initial given quiet)
    (announces : w.Announces initial given quiet number ds) :
    ¬ (w.handedOver number who ds).Owed given who := by
  intro owed
  have last : (⟨w.record.editionOf number, w.record.newest, ds⟩ : Delivery) ∈
      ((w.handedOver number who ds).record.receivedBy who).head? := by
    rw [record_handedOver, Record.receivedBy, if_pos rfl]
    rfl
  have current : w.record.editionOf number = w.record.newest := by
    apply Nat.le_antisymm (Record.editionOf_le_newest number w.record)
    exact Nat.le_of_not_lt fun belated => owed.not_misled ⟨_, last, .inl belated⟩
  have newest : (w.handedOver number who ds).record.newest = w.record.newest := by
    rw [record_handedOver]
    rfl
  have ungiven : ¬ given ds := fun held => owed.not_misled ⟨_, last, .inr held⟩
  cases who with
  | view n =>
    have stored := told.stored
    rw [← current, announces.edition.resolve_right ungiven] at stored
    obtain rfl := Option.some.inj stored
    exact not_stale_tell (w.enter (.called number (.view n) (.notice w.registry.devices))) n
      owed.behind
  | script | gesture | inbox | inert => exact owed.behind _ last (current.trans newest.symm)

theorem Owed.of_handedOver (owed : (w.handedOver number who ds).Owed given l)
    (different : who ≠ l) : w.Owed given l := by
  apply owed.of_same
  · have same : (w.handedOver number who ds).registry = w.registry := registry_handedOver
    rw [← same]
    exact (attends_iff.mp owed.attends).1
  · rw [record_handedOver, Record.receivedBy, if_neg different]
  · rw [record_handedOver]
    rfl
  · rintro n rfl stale
    cases who with
    | view m =>
      have unstored : ∀ ds', Change.tell m ds ≠ .store ds' := by simp
      have entered : (w.enter (.called number (.view m) (.notice ds))).Stale n := by
        apply Stale.of_apply (c := .tell m ds) unstored _ stale
        intro ds' same
        obtain ⟨rfl, _⟩ := Change.tell.inj same
        exact absurd rfl different
      exact entered.of_same rfl rfl
    | script | gesture | inbox | inert => exact Stale.of_same stale rfl rfl

end World

namespace Law

variable {scripts : List (String × Script)} {initial : List Device} {given : List Device → Prop}
  {watched : Option Listener} {quiet : Prop}

section Fired

variable {fire : Fire} (fired : ∀ name signal,
  (chronicle scripts initial given watched quiet quiet).Agree (fire name signal) (fire name signal))

include fired

/-- After a listener was called and told, only scripts are left to be called. -/
theorem admits_deliver {w : World} {number : Nat} {who : Listener} {ds : List Device}
    (holds :
      (chronicle scripts initial given watched quiet quiet).holds (w.handedOver number who ds)) :
    (chronicle scripts initial given watched quiet quiet).Admits (w.handedOver number who ds)
      ((deliver fire ds who).run (w.enter (.called number who (.notice ds)))) := by
  cases who with
  | script name => exact (fired name (.notice ds) _ holds).2
  | view n =>
    change (chronicle scripts initial given watched quiet quiet).Admits _
      ((tellView fire n ds).run _)
    rw [run_tellView]
    split
    · exact (agree_callHook fired n _ holds).2
    · rename_i inactive
      have untold : w.handedOver number (.view n) ds =
          w.enter (.called number (.view n) (.notice ds)) := if_neg inactive
      rw [untold] at holds ⊢
      exact (agree_pure () _ holds).2
  | inbox n => exact (agree_tellInbox chronicle_permits routine_abides.toAside n ds _ holds).2
  | gesture g n => exact (agree_fail _ _ holds).2
  | inert => exact (agree_fail _ _ holds).2

/-- One call of a fan-out: afterwards the fan-out may go on, and who was called is owed nothing. -/
theorem call_pays {number : Nat} {ds : List Device} {complaint : Complaint} {w : World}
    (holds : ((chronicle scripts initial given watched quiet quiet).also
      (World.Announces initial given quiet number ds)).holds w) (who : Listener) :
    let r : Round := ⟨number, .notice ds, deliver fire ds, complaint⟩
    let ends := r.result (r.firstCall w who)
    ((chronicle scripts initial given watched quiet quiet).also
      (World.Announces initial given quiet number ds)).Admits w ends ∧
        (who ∈ watched → ¬ (leaves ends).Owed given who) := by
  intro r ends
  obtain ⟨⟨same_scripts, told⟩, announces⟩ := holds
  have announces_then := announces.handedOver who
  have holds_then : (chronicle scripts initial given watched quiet quiet).holds
      (w.handedOver number who ds) :=
    ⟨World.scripts_handedOver.trans same_scripts, told.handedOver announces who⟩
  have admits : (chronicle scripts initial given watched quiet quiet).Admits _ ends :=
    admits_deliver fired holds_then
  obtain ⟨_, suffix, grown, owed, still⟩ := admits.ended
  have begun : (w.handedOver number who ds).record.hasBegun number = true := by
    rw [World.record_handedOver]
    simp [Record.hasBegun]
  have newest : (w.handedOver number who ds).record.newest = w.record.newest := by
    rw [World.record_handedOver]
    rfl
  -- whatever the listener does when it is called, it was handed this edition before
  have unpaid : who ∈ watched → ¬ (leaves ends).Owed given who := fun member owed_end =>
    World.not_owed_handedOver told announces (owed who member owed_end).1
  refine ⟨?_, unpaid⟩
  apply admits.mono
  · exact fun holds => ⟨holds, announces_then.of_suffix begun suffix grown still⟩
  · rintro -
    refine ⟨?_, Nat.le_trans World.fanOuts_handedOver grown, ?_, fun q => (still q).trans newest⟩
    · rw [World.record_handedOver] at suffix
      exact (List.suffix_cons _ _).trans suffix
    · intro l member owed_end
      by_cases same : who = l
      · subst same
        exact absurd owed_end (unpaid member)
      · obtain ⟨owed_then, stored⟩ := owed l member owed_end
        exact ⟨owed_then.of_handedOver same, stored.trans newest⟩
  · exact id

/-- A notification of what is stored, or of what was given: in the end nobody who was listed is owed
anything, if all scripts have names. -/
theorem notify_pays (known : watched.isSome → named scripts) (handed : Option (List Device))
    (allowed : ∀ ds ∈ handed, given ds) {w : World}
    (holds : (chronicle scripts initial given watched quiet quiet).holds w) :
    (chronicle scripts initial given watched quiet quiet).Admits w ((notify fire handed).run w) ∧
      ∀ l ∈ watched, l ∈ w.registry.observers → ¬ ((notify fire handed).after w).Owed given l := by
  let ds := handed.getD w.registry.devices
  let r : Round := ⟨w.fanOuts, .notice ds, deliver fire ds, observerComplaint w⟩
  let L := (chronicle scripts initial given watched quiet quiet).also
    (World.Announces initial given quiet w.fanOuts ds)
  have noted : ∀ {c : Change} {v : World}, c.Abides watched → L.holds v →
      L.holds (c.apply v) ∧ L.moves v (c.apply v) := by
    rintro c v abides ⟨holds, announces⟩
    have kept := chronicle_change abides holds
    have record := World.record_apply (w := v) (unrecorded_of_spares abides.1)
    exact ⟨⟨kept.1, announces.of_record record (Change.fanOuts_le v c)⟩, kept.2⟩
  have records : L.Records r :=
    ⟨fun n v => noted (c := .note n) ⟨trivial, fun _ _ => nofun⟩,
      fun who cleanly v => noted (c := .settle w.fanOuts who cleanly) ⟨trivial, fun _ _ => nofun⟩⟩
  have begins := chronicle_change (c := .beginFanOut) ⟨trivial, fun _ _ => nofun⟩ holds
  have announces : (Change.beginFanOut.apply w).Announces initial given quiet w.fanOuts ds := by
    have edition := holds.2.editionOf_fanOuts
    refine ⟨Nat.lt_succ_self _, ?_, fun _ => edition⟩
    cases handed with
    | none =>
      left
      change (w.record.editions initial)[w.record.editionOf w.fanOuts]? = some w.registry.devices
      rw [edition]
      exact holds.2.stored
    | some ds => exact .inr (allowed ds rfl)
  let Unpaid : Listener → World → Prop := fun who v => who ∈ watched → ¬ v.Owed given who
  have stays_paid : ∀ {who : Listener} {u v : World}, L.moves u v → Unpaid who u → Unpaid who v :=
    fun moves unpaid member owed => unpaid member (moves.2.2.1 _ member owed).1
  have pays : ∀ who ∈ w.registry.observers, ∀ v, L.holds v →
      L.Admits v (r.result (r.firstCall v who)) ∧
        Unpaid who (leaves (r.result (r.firstCall v who))) :=
    fun who _ v holds => call_pays fired holds who
  obtain ⟨admits, _⟩ := serve_ends Unpaid records stays_paid pays ⟨begins.1, announces⟩
  constructor
  · apply admits.mono
    · exact And.left
    · exact fun moves => L.trans begins.2 moves
    · exact id
  · intro l member listed
    have named := observerComplaint_of_named (holds.1 ▸ known (Option.isSome_of_mem member))
    have unbroken : ¬ L.breaks := by
      intro nobody
      rw [show watched = none from nobody] at member
      exact nomatch member
    exact (serve_reaches Unpaid records stays_paid pays ⟨begins.1, announces⟩ unbroken
      fun who _ => named who).2 l listed member

/-- Publishing pays everyone who attends when the collection is stored, and nobody can come to
attend without being paid. -/
theorem publish_pays (known : watched.isSome → named scripts) {still : Prop} (storing : ¬ still)
    (ds : List Device) :
    (chronicle scripts initial given watched quiet still).Agree (publish fire ds)
      (publish fire ds) := by
  intro w holds
  let stored := (Change.store ds).apply w
  have holds_stored : (chronicle scripts initial given watched quiet quiet).holds stored :=
    ⟨holds.1, holds.2.store ds⟩
  obtain ⟨admits, paid⟩ := notify_pays fired known none nofun holds_stored
  have run : (publish fire ds).run w = (notify fire none).run stored := rfl
  refine ⟨rfl, ?_⟩
  rw [run]
  apply admits.mono
  · exact id
  · rintro ⟨suffix, grown, owed, _⟩
    refine ⟨(List.suffix_cons _ _).trans suffix, grown, ?_, fun still => absurd still storing⟩
    intro l member owed_end
    have listed := (World.attends_iff.mp (owed l member owed_end).1.attends).1
    exact absurd owed_end (paid l member listed)
  · exact id

omit fired in
/-- Registering a listener that attends changes nothing for it. -/
theorem register_pays {w : World}
    (holds : (chronicle scripts initial given watched quiet quiet).holds w)
    (attending : ∀ l ∈ watched, w.attends l = true) (who : Mention) :
    (chronicle scripts initial given watched quiet quiet).Admits w
      ((command fire (.register who)).run w) := by
  have run : (command fire (.register who)).run w =
      (do
        let l ← resolve who
        make (.register l)
        mention l
        return Answer.nothing).run w := rfl
  rw [run, EStateM.run_bind]
  rcases resolve_cases who w with ⟨l, resolved⟩ | ⟨f, resolved⟩
  · rw [resolved]
    have kept := chronicle_apply (c := .register l) id
      (fun l member _ => (World.attends_iff.mp (attending l member)).1) nofun holds
    have mentioned := agree_bind (agree_mention l) (fun _ => agree_pure Answer.nothing) _ kept.1
    exact mentioned.2.trans kept.2
  · rw [resolved]
    exact ⟨holds, Law.refl _ w, fun broken => nomatch broken⟩

theorem tellView_pays {number : Nat} (elsewhere : .view number ∉ watched) (ds : List Device) :
    (chronicle scripts initial given watched quiet quiet).Agree (tellView fire number ds)
      (tellView fire number ds) := by
  intro w holds
  rw [run_tellView]
  split
  · have told : (chronicle scripts initial given watched quiet quiet).Agree
        (make (.tell number ds)) (make (.tell number ds)) := by
      intro v holds
      refine ⟨rfl, chronicle_apply (c := .tell number ds) id nofun ?_ holds⟩
      intro other ds' same
      obtain ⟨rfl, _⟩ := Change.tell.inj same
      exact elsewhere
    exact agree_bind told (fun _ => agree_callHook fired number) w holds
  · exact agree_pure () w holds

/-- A command that begins while the watched listener attends. If `quiet`, it publishes nothing. -/
theorem command_pays (known : watched.isSome → named scripts) {c : Command}
    (gives : ∀ items ds, c = .notify (some items) → requireDevices items = .ok ds → given ds)
    (tells : c.tells = true → ∀ number, .view number ∉ watched)
    (silent : quiet → c.publishes = false) {w : World}
    (holds : (chronicle scripts initial given watched quiet quiet).holds w)
    (attending : ∀ l ∈ watched, w.attends l = true) :
    (chronicle scripts initial given watched quiet quiet).Admits w ((command fire c).run w) := by
  have publication : c.publishes = true →
      (chronicle scripts initial given watched quiet quiet).Admits w ((command fire c).run w) := by
    intro publishes
    have storing : ¬ quiet := fun q => absurd (publishes.symm.trans (silent q)) nofun
    exact (agree_publication chronicle_permits routine_abides.toAside steering_abides
      (fun ds _ => publish_pays fired known storing ds) publishes w holds).2
  have other := fun within : c.Within (chronicle scripts initial given watched quiet quiet)
      (Change.Abides watched) =>
    (agree_command chronicle_permits routine_abides fired c within w holds).2
  have abides : ∀ {c : Change}, c.Spares → (∀ l, c ≠ .register l) → c.Abides watched :=
    fun spares registers => ⟨spares, fun l _ => registers l⟩
  cases c with
  | update | updateDevice | clear | step | playLoop => exact publication rfl
  | notify items =>
    cases items with
    | none => exact (notify_pays fired known none nofun holds).1.map _
    | some items =>
      have notified : (chronicle scripts initial given watched quiet quiet).Agree
          (command fire (.notify (some items))) (command fire (.notify (some items))) := by
        apply agree_accept_bind
        intro ds accepted u holds
        have allowed : ∀ handed ∈ some ds, given handed := by
          rintro handed same
          obtain rfl := Option.mem_some.mp same
          exact gives items ds rfl accepted
        exact ⟨rfl, (notify_pays fired known (some ds) allowed holds).1.map _⟩
      exact (notified w holds).2
  | tell id items =>
    have told : (chronicle scripts initial given watched quiet quiet).Agree
        (command fire (.tell id items)) (command fire (.tell id items)) := by
      apply agree_bind (agree_viewNamed id)
      intro number
      apply agree_accept_bind
      intro ds _
      exact agree_bind (tellView_pays fired (tells rfl number) ds) fun _ => agree_pure _
    exact (told w holds).2
  | register who => exact register_pays holds attending who
  | remove | subscribe | unsubscribe => exact other fun _ _ _ _ => abides trivial nofun
  | view => exact other fun _ => abides trivial nofun
  | player | setSettings | setStance => exact other fun _ _ => abides trivial nofun
  | load => exact other fun _ _ _ => abides trivial nofun
  | play | reset => exact other steering_abides
  | pause => exact other fun _ => abides trivial nofun
  | devices | isRegistered | emit | listenerCount | gesture => exact other trivial

/-- A step of a session may publish even if scripts do not. -/
theorem step_pays (known : watched.isSome → named scripts) {c : Command}
    (gives : ∀ items ds, c = .notify (some items) → requireDevices items = .ok ds → given ds)
    (tells : c.tells = true → ∀ number, .view number ∉ watched) {w : World}
    (holds : (chronicle scripts initial given watched quiet quiet).holds w)
    (attending : ∀ l ∈ watched, w.attends l = true) :
    (chronicle scripts initial given watched quiet False).Admits w ((command fire c).run w) := by
  cases publishes : c.publishes with
  | true =>
    exact (agree_publication chronicle_permits routine_abides.toAside steering_abides
      (fun ds _ => publish_pays fired known id ds) publishes w holds).2
  | false =>
    apply (command_pays fired known gives tells (fun _ => publishes) holds attending).mono
    · exact id
    · exact fun ⟨suffix, grown, owed, _⟩ => ⟨suffix, grown, owed, False.elim⟩
    · exact id

end Fired

abbrev Attended (watched : Option Listener) (w : World) : Prop := watched.all w.attends = true

/-- What is done instead of a command that must not be carried out. -/
def refuse : Command → Act Answer := fun _ => fail (.unknownName "")

/-- Scripts keep the record and leave nobody owed anything, if no command of theirs is carried out
while the watched listener does not attend. -/
theorem fireAtWhere_pays (known : watched.isSome → named scripts)
    (unbroken : watched.isSome → unbreaking scripts)
    (gives : ∀ s ∈ scripts, ∀ items ds, .notify (some items) ∈ s.2.acts →
      requireDevices items = .ok ds → given ds)
    (tells : ∀ s ∈ scripts, ∀ c ∈ s.2.acts, c.tells = true → ∀ number, .view number ∉ watched)
    (silent : quiet → ∀ s ∈ scripts, ∀ c ∈ s.2.acts, c.publishes = false) (depth : Nat)
    (name : String) (signal : Signal) :
    (chronicle scripts initial given watched quiet quiet).Agree
      (fireAtWhere (Attended watched) refuse depth name signal)
      (fireAtWhere (Attended watched) refuse depth name signal) := by
  apply agree_fireAtWhere_of_acts
  · exact fun name signal w holds =>
      chronicle_change (c := .firing name signal) ⟨trivial, fun _ _ => nofun⟩ holds
  · intro w name script holds found fire fired c member u holds_u
    obtain rfl : w.scripts = scripts := holds.1
    have listed := mem_of_lookupField found
    refine ⟨rfl, ?_⟩
    rw [run_commandWhere]
    split
    · rename_i attended
      apply command_pays fired known _ (tells _ listed c member)
        (fun q => silent q _ listed c member)
        holds_u ((Option.all_eq_true _ _).mp attended)
      rintro items ds rfl accepted
      exact gives _ listed items ds member accepted
    · exact ⟨holds_u, Law.refl _ u, fun broken => nomatch broken⟩
  · intro w name script holds found broken
    obtain rfl : w.scripts = scripts := holds.1
    cases watching : watched with
    | none => rfl
    | some l =>
      exact absurd broken (unbreaking_of_lookup (unbroken (by rw [watching]; rfl)) found)

end Law

end FleetMap
