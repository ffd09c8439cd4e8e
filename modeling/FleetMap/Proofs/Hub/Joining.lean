import FleetMap.Proofs.Hub.Wiring
import FleetMap.Proofs.Intake.Device
import FleetMap.Proofs.Roster

set_option autoImplicit false

namespace FleetMap

section Topics

theorem map_putField {α : Type} (key : String) (value : α) (fields : List (String × α)) :
    (putField key value fields).map (·.1) =
      Roster.enroll (fields.map (·.1)) (.join key) := by
  rw [Roster.enroll_join]
  induction fields with
  | nil => rfl
  | cons entry rest ih =>
    unfold putField
    by_cases same : entry.1 = key
    · simp [same]
    · simp only [same, if_false, List.map_cons, ih, List.mem_cons, Ne.symm same, false_or]
      split
      · rfl
      · rfl

namespace Bus

/-- Every topic is listed once, and not without a handler. -/
structure IsTidy (b : Bus) : Prop where
  distinct : b.topics.Nodup
  inhabited : ∀ topic ∈ b.topics, b.handlers topic ≠ []

variable {b : Bus} {topic other : String}

theorem isTidy_empty : Bus.empty.IsTidy := ⟨List.nodup_nil, nofun⟩

theorem mem_topics_of_handlers (listed : b.handlers topic ≠ []) : topic ∈ b.topics := by
  by_contra absent
  unfold handlers at listed
  rw [lookupField_eq_none.mpr absent] at listed
  exact listed rfl

theorem IsTidy.mem_topics_iff (tidy : b.IsTidy) :
    topic ∈ b.topics ↔ b.handlers topic ≠ [] :=
  ⟨tidy.inhabited topic, mem_topics_of_handlers⟩

theorem IsTidy.subscribe (tidy : b.IsTidy) (topic : String) (l : Listener) :
    (b.subscribe topic l).IsTidy := by
  by_cases present : l ∈ b.handlers topic
  · have same : b.subscribe topic l = b := if_pos present
    rwa [same]
  · have entered : (b.subscribe topic l).topics = Roster.enroll b.topics (.join topic) := by
      unfold Bus.subscribe
      rw [if_neg present]
      exact map_putField _ _ _
    constructor
    · rw [entered, Roster.enroll_join]
      split
      · exact tidy.distinct
      · rename_i absent
        simpa using tidy.distinct.concat absent
    · intro t member
      by_cases same : t = topic
      · subst same
        rw [handlers_subscribe_self, if_neg present]
        simp
      · rw [handlers_subscribe_of_ne b same]
        apply tidy.inhabited
        rw [entered, Roster.enroll_join] at member
        split at member
        · exact member
        · simpa [same] using member

theorem IsTidy.unsubscribe (tidy : b.IsTidy) (topic : String) (l : Listener) :
    (b.unsubscribe topic l).IsTidy := by
  have others : ∀ t, t ≠ topic → t ∈ b.topics → (b.unsubscribe topic l).handlers t ≠ [] := by
    intro t different member
    rw [handlers_unsubscribe_of_ne b different]
    exact tidy.inhabited t member
  by_cases last : (b.handlers topic).erase l = []
  · have left : (b.unsubscribe topic l).topics = b.topics.filter (· != topic) := by
      unfold Bus.unsubscribe
      rw [if_pos last]
      simp [topics, List.filter_map, Function.comp_def]
    constructor
    · rw [left]
      exact tidy.distinct.filter _
    · intro t member
      rw [left, List.mem_filter] at member
      exact others t (by simpa using member.2) member.1
  · have listed : b.handlers topic ≠ [] := fun none => last (by rw [none]; rfl)
    have same : (b.unsubscribe topic l).topics = b.topics := by
      unfold Bus.unsubscribe
      rw [if_neg last]
      have entered := map_putField topic ((b.handlers topic).erase l) b.table
      rw [Roster.enroll_join] at entered
      exact entered.trans (if_pos (mem_topics_of_handlers listed))
    constructor
    · rw [same]
      exact tidy.distinct
    · intro t member
      rw [same] at member
      by_cases here : t = topic
      · subst here
        rwa [handlers_unsubscribe_self]
      · exact others t here member

def obey (b : Bus) : String × Roster.Call Listener → Bus
  | (topic, .join l) => b.subscribe topic l
  | (topic, .leave l) => b.unsubscribe topic l

def after (b : Bus) (calls : List (String × Roster.Call Listener)) : Bus := calls.foldl obey b

def callsOn (topic : String) (calls : List (String × Roster.Call Listener)) :
    List (Roster.Call Listener) :=
  calls.filterMap fun c => if c.1 = topic then some c.2 else none

theorem handlers_obey_self (b : Bus) (topic : String) (c : Roster.Call Listener) :
    (b.obey (topic, c)).handlers topic = Roster.enroll (b.handlers topic) c := by
  cases c with
  | join l => exact b.handlers_subscribe_self topic l
  | leave l => exact b.handlers_unsubscribe_self topic l

theorem handlers_obey_of_ne (b : Bus) (different : other ≠ topic) (c : Roster.Call Listener) :
    (b.obey (topic, c)).handlers other = b.handlers other := by
  cases c with
  | join l => exact b.handlers_subscribe_of_ne different l
  | leave l => exact b.handlers_unsubscribe_of_ne different l

theorem handlers_after (b : Bus) (calls : List (String × Roster.Call Listener)) (topic : String) :
    (b.after calls).handlers topic = Roster.after (b.handlers topic) (callsOn topic calls) := by
  induction calls generalizing b with
  | nil => rfl
  | cons c rest ih =>
    obtain ⟨on, c⟩ := c
    change ((b.obey (on, c)).after rest).handlers topic = _
    rw [ih]
    by_cases same : on = topic
    · subst same
      rw [handlers_obey_self]
      simp [callsOn, Roster.after]
    · rw [handlers_obey_of_ne b (Ne.symm same)]
      simp [callsOn, same]

theorem IsTidy.obey (tidy : b.IsTidy) (c : String × Roster.Call Listener) : (b.obey c).IsTidy := by
  obtain ⟨topic, c⟩ := c
  cases c with
  | join l => exact tidy.subscribe topic l
  | leave l => exact tidy.unsubscribe topic l

theorem IsTidy.after (tidy : b.IsTidy) (calls : List (String × Roster.Call Listener)) :
    (b.after calls).IsTidy := by
  induction calls generalizing b with
  | nil => exact tidy
  | cons c rest ih => exact ih (tidy.obey c)

/-- Whoever subscribes to a topic unsubscribes from it later on. -/
def AreBalanced (calls : List (String × Roster.Call Listener)) : Prop :=
  ∀ before topic l later, calls = before ++ (topic, .join l) :: later → (topic, .leave l) ∈ later

theorem leave_mem_callsOn {calls : List (String × Roster.Call Listener)} {topic : String}
    {l : Listener} (leaves : (topic, .leave l) ∈ calls) : .leave l ∈ callsOn topic calls :=
  List.mem_filterMap.mpr ⟨_, leaves, if_pos rfl⟩

theorem topics_of_balanced {calls : List (String × Roster.Call Listener)}
    (balanced : AreBalanced calls) : (Bus.empty.after calls).topics = [] := by
  apply List.eq_nil_iff_forall_not_mem.mpr
  intro topic member
  apply (isTidy_empty.after calls).inhabited topic member
  apply List.eq_nil_iff_forall_not_mem.mpr
  intro l listed
  rw [handlers_after] at listed
  obtain ⟨i, joins, _, stays⟩ := ((Roster.mem_after _ l).mp listed).joined
  obtain ⟨bound, here⟩ := List.getElem?_eq_some_iff.mp joins
  -- the call with which `l` joined its topic for good is one of all calls
  have split : callsOn topic calls =
      (callsOn topic calls).take i ++ .join l :: (callsOn topic calls).drop (i + 1) := by
    rw [← here, ← List.drop_eq_getElem_cons bound, List.take_append_drop]
  obtain ⟨first, others, rfl, _, rest⟩ := List.filterMap_eq_append_iff.mp split
  obtain ⟨skipped, ⟨on, call⟩, later, rfl, _, same, after⟩ := List.filterMap_eq_cons_iff.mp rest
  obtain ⟨rfl, rfl⟩ : on = topic ∧ call = .join l := by simpa using same
  have unsubscribed := balanced (first ++ skipped) on l later (by simp)
  have left : .leave l ∈ callsOn on later := leave_mem_callsOn unsubscribed
  change Roster.Call.leave l ∈ later.filterMap _ at left
  rw [after] at left
  exact stays ((List.drop_sublist_drop_left _ (Nat.le_succ i)).subset left)

end Bus

end Topics

/-- The thing that a listener is when it is mentioned for the given time: a gesture is another thing
each time. -/
def Listener.thing (time : Nat) (l : Listener) : Listener × Option Nat :=
  (l, if l.identical l then none else some time)

def Roster.Call.map {α β : Type} (f : α → β) : Roster.Call α → Roster.Call β
  | .join a => .join (f a)
  | .leave a => .leave (f a)

namespace Registry

def things (calls : List (Roster.Call Listener)) : List (Roster.Call (Listener × Option Nat)) :=
  calls.mapIdx fun time c => c.map (·.thing time)

def obey (r : Registry) : Roster.Call Listener → Registry
  | .join l => r.register l
  | .leave l => r.remove l

def after (r : Registry) (calls : List (Roster.Call Listener)) : Registry := calls.foldl obey r

section Things

variable {held : List (Listener × Option Nat)} {now : Nat} {l : Listener}

theorem thing_of_identical (itself : l.identical l = true) (time : Nat) :
    l.thing time = (l, none) := by
  rw [Listener.thing, if_pos itself]

theorem thing_of_fresh (fresh : l.identical l = false) (time : Nat) :
    l.thing time = (l, some time) := by
  rw [Listener.thing, if_neg (Bool.eq_false_iff.mp fresh)]

variable (earlier : ∀ thing ∈ held, ∃ time < now, thing = thing.1.thing time)

include earlier

/-- Of the things that were mentioned earlier, the one that is mentioned now is the one that is
identical to it; a gesture that is mentioned now is none of them. -/
theorem mem_thing_iff :
    l.thing now ∈ held ↔ (held.map (·.1)).any (·.identical l) = true := by
  rw [List.any_map, List.any_eq_true]
  cases itself : l.identical l with
  | true =>
    rw [thing_of_identical itself]
    constructor
    · exact fun member => ⟨_, member, itself⟩
    · rintro ⟨thing, member, same⟩
      rw [Function.comp_apply, identical_eq, Bool.and_eq_true, beq_iff_eq] at same
      obtain ⟨rfl, _⟩ := same
      obtain ⟨time, _, known⟩ := earlier thing member
      rw [thing_of_identical itself] at known
      exact known ▸ member
  | false =>
    rw [thing_of_fresh itself]
    constructor
    · intro member
      obtain ⟨time, before, known⟩ := earlier _ member
      rw [thing_of_fresh itself, Prod.mk.injEq, Option.some.injEq] at known
      omega
    · rintro ⟨thing, _, same⟩
      rw [Function.comp_apply, identical_eq, itself, Bool.and_false] at same
      exact nomatch same

theorem map_leave_thing : (Roster.enroll held (.leave (l.thing now))).map (·.1) =
    if l.identical l then Roster.enroll (held.map (·.1)) (.leave l) else held.map (·.1) := by
  cases itself : l.identical l with
  | true =>
    rw [if_pos rfl, thing_of_identical itself]
    induction held with
    | nil => rfl
    | cons first rest ih =>
      obtain ⟨⟨time, _, known⟩, others⟩ := List.forall_mem_cons.mp earlier
      rw [List.map_cons, Roster.enroll_leave_cons, Roster.enroll_leave_cons]
      by_cases same : first.1 = l
      · rw [same, thing_of_identical itself] at known
        rw [if_pos known, if_pos same]
      · have different : first ≠ (l, none) := fun equal => same (by rw [equal])
        rw [if_neg different, if_neg same, List.map_cons, ih others]
  | false =>
    have absent : l.thing now ∉ held := by
      rw [mem_thing_iff earlier, List.any_eq_true]
      rintro ⟨other, _, same⟩
      rw [identical_eq, itself, Bool.and_false] at same
      exact nomatch same
    rw [if_neg nofun, Roster.enroll_leave_of_absent absent]

end Things

theorem thing_of_mem (calls : List (Roster.Call Listener)) :
    ∀ thing ∈ Roster.after [] (things calls),
      ∃ time < calls.length, thing = thing.1.thing time := by
  intro thing member
  obtain ⟨time, joins, _⟩ := ((Roster.mem_after _ thing).mp member).joined
  rw [things, List.getElem?_mapIdx] at joins
  obtain ⟨c, found, same⟩ := Option.map_eq_some_iff.mp joins
  refine ⟨time, (List.getElem?_eq_some_iff.mp found).1, ?_⟩
  cases c with
  | join l =>
    obtain rfl := Roster.Call.join.inj same
    rfl
  | leave l => exact nomatch same

theorem observers_after (calls : List (Roster.Call Listener)) :
    (Registry.empty.after calls).observers =
      (Roster.after [] (things calls)).map (·.1) := by
  -- things are numbered by the call that mentions them first, so the list grows at its end
  induction calls using List.reverseRecOn with
  | nil => rfl
  | append_singleton calls c ih =>
    have earlier := thing_of_mem calls
    have step : Roster.after [] (things (calls ++ [c])) =
        Roster.enroll (Roster.after [] (things calls)) (c.map (·.thing calls.length)) := by
      rw [things, List.mapIdx_concat, Roster.after_append_singleton]
      rfl
    have last : Registry.empty.after (calls ++ [c]) = (Registry.empty.after calls).obey c := by
      simp [after]
    rw [last, step]
    generalize Roster.after [] (things calls) = held at ih earlier
    generalize Registry.empty.after calls = r at ih
    cases c with
    | join l =>
      rw [obey, Roster.Call.map, Roster.enroll_join, register, isRegistered, ih]
      by_cases present : l.thing calls.length ∈ held
      · rw [if_pos ((mem_thing_iff earlier).mp present), if_pos present, ih]
      · rw [if_neg fun registered => present ((mem_thing_iff earlier).mpr registered),
          if_neg present, List.map_append]
        rfl
    | leave l =>
      rw [obey, Roster.Call.map, observers_remove, ih, map_leave_thing earlier, Roster.enroll_leave]

end Registry

end FleetMap
