import FleetMap.Proofs.Hub.Patching
import FleetMap.Proofs.Intake.Footprint

set_option autoImplicit false

namespace FleetMap

open Act Hub Intake

namespace Device

/-- The device after a patch; one that is not accepted leaves it as it is. -/
def patched (changes : Fields) (d : Device) : Device :=
  match Intake.device (.object (Registry.patchedEntries d changes)) with
  | .accepted new => new
  | .faulty _ _ => d

section Patched

variable {changes a b : Fields} {d : Device}

theorem patched_of_refused (refused : ¬ d.AcceptsPatch changes) : d.patched changes = d := by
  unfold patched
  split
  · rename_i new accepted
    exact absurd ⟨new, accepted⟩ refused
  · rfl

theorem patched_eq {new : Device}
    (accepted : Intake.device (.object (Registry.patchedEntries d changes)) = .accepted new) :
    d.patched changes = new := by
  unfold patched
  rw [accepted]

theorem isFinite_patched (bounded : d.IsFinite) : (d.patched changes).IsFinite := by
  unfold patched
  split
  · rename_i new accepted
    exact Intake.isFinite_of_device accepted
  · exact bounded

variable (distinct : AreDistinct changes) (unnamed : lookupField "name" changes = none)

include distinct unnamed

theorem acceptsPatch_iff (bounded : d.IsFinite) :
    d.AcceptsPatch changes ↔ ∃ new, d.Follows changes new := by
  simp only [AcceptsPatch, device_patchedEntries bounded distinct unnamed]

theorem follows_patched (bounded : d.IsFinite) (accepts : d.AcceptsPatch changes) :
    d.Follows changes (d.patched changes) := by
  obtain ⟨new, accepted⟩ := accepts
  rw [patched_eq accepted]
  exact (device_patchedEntries bounded distinct unnamed new).mp accepted

theorem AcceptsPatch.elsewhere (accepts : d.AcceptsPatch changes) (bounded : d.IsFinite)
    {e : Device} (finite : e.IsFinite) : e.AcceptsPatch changes := by
  rw [acceptsPatch_iff distinct unnamed bounded] at accepts
  rw [acceptsPatch_iff distinct unnamed finite]
  obtain ⟨new, follows⟩ := accepts
  exact follows.elsewhere e

theorem name_patched (bounded : d.IsFinite) : (d.patched changes).name = d.name := by
  by_cases accepts : d.AcceptsPatch changes
  · exact (follows_patched distinct unnamed bounded accepts).name
  · rw [patched_of_refused accepts]

omit distinct unnamed

/-- Independent patches to one device can be made in either order, accepted or not. -/
theorem patched_comm (independent : AreIndependent a b) (distinct_a : AreDistinct a)
    (distinct_b : AreDistinct b) (unnamed_a : lookupField "name" a = none)
    (unnamed_b : lookupField "name" b = none) (bounded : d.IsFinite) :
    (d.patched a).patched b = (d.patched b).patched a := by
  have bounded_a : (d.patched a).IsFinite := isFinite_patched bounded
  have bounded_b : (d.patched b).IsFinite := isFinite_patched bounded
  by_cases accepts_a : d.AcceptsPatch a
  · have then_a := accepts_a.elsewhere distinct_a unnamed_a bounded bounded_b
    by_cases accepts_b : d.AcceptsPatch b
    · have then_b := accepts_b.elsewhere distinct_b unnamed_b bounded bounded_a
      exact Device.Follows.comm independent
        (follows_patched distinct_a unnamed_a bounded accepts_a)
        (follows_patched distinct_b unnamed_b bounded_a then_b)
        (follows_patched distinct_b unnamed_b bounded accepts_b)
        (follows_patched distinct_a unnamed_a bounded_b then_a)
    · have refused_b : ¬ (d.patched a).AcceptsPatch b :=
        fun accepts => accepts_b (accepts.elsewhere distinct_b unnamed_b bounded_a bounded)
      rw [patched_of_refused refused_b, patched_of_refused accepts_b]
  · have refused_a : ¬ (d.patched b).AcceptsPatch a :=
      fun accepts => accepts_a (accepts.elsewhere distinct_a unnamed_a bounded_b bounded)
    rw [patched_of_refused accepts_a, patched_of_refused refused_a]

end Patched

end Device

namespace Registry

/-- The collection after a patch; one that is not accepted leaves it as it is. -/
def patchedAll (name : String) (changes : Fields) : List Device → List Device
  | [] => []
  | d :: rest =>
    if d.name = name then d.patched changes :: rest else d :: patchedAll name changes rest

/-- The first device of a name accepts a patch. -/
def Accepts (name : String) (changes : Fields) (ds : List Device) : Prop :=
  ∃ d, ds.find? (·.name = name) = some d ∧ d.AcceptsPatch changes

section Patched

variable {name other : String} {changes a b : Fields} {ds : List Device}

theorem patchedAll_cons_of_named {d : Device} (named : d.name = name) (rest : List Device) :
    patchedAll name changes (d :: rest) = d.patched changes :: rest := if_pos named

theorem patchedAll_cons_of_ne {d : Device} (apart : d.name ≠ name) (rest : List Device) :
    patchedAll name changes (d :: rest) = d :: patchedAll name changes rest := if_neg apart

theorem patchedAll_split {before after : List Device} {d : Device} (named : d.name = name)
    (apart : ∀ other ∈ before, other.name ≠ name) :
    patchedAll name changes (before ++ d :: after) = before ++ d.patched changes :: after := by
  induction before with
  | nil => exact patchedAll_cons_of_named named after
  | cons e rest ih =>
    obtain ⟨first, others⟩ := List.forall_mem_cons.mp apart
    rw [List.cons_append, patchedAll_cons_of_ne first, ih others]
    rfl

theorem patchedAll_of_refused (refused : ¬ Accepts name changes ds) :
    patchedAll name changes ds = ds := by
  induction ds with
  | nil => rfl
  | cons d rest ih =>
    by_cases named : d.name = name
    · have unaccepted : ¬ d.AcceptsPatch changes :=
        fun accepts => refused ⟨d, by simp [named], accepts⟩
      rw [patchedAll_cons_of_named named, Device.patched_of_refused unaccepted]
    · have later : ¬ Accepts name changes rest := by
        rintro ⟨found, first, accepts⟩
        exact refused ⟨found, by simpa [named] using first, accepts⟩
      rw [patchedAll_cons_of_ne named, ih later]

theorem isFinite_patchedAll (bounded : ∀ d ∈ ds, d.IsFinite) :
    ∀ d ∈ patchedAll name changes ds, d.IsFinite := by
  induction ds with
  | nil => exact nofun
  | cons d rest ih =>
    obtain ⟨first, others⟩ := List.forall_mem_cons.mp bounded
    unfold patchedAll
    split
    · exact List.forall_mem_cons.mpr ⟨Device.isFinite_patched first, others⟩
    · exact List.forall_mem_cons.mpr ⟨first, ih others⟩

/-- To find out whether a patch is accepted, the names are enough. -/
theorem Accepts.elsewhere (distinct : AreDistinct changes)
    (unnamed : lookupField "name" changes = none) {es : List Device}
    (bounded : ∀ d ∈ ds, d.IsFinite) (finite : ∀ d ∈ es, d.IsFinite)
    (names : es.map (·.name) = ds.map (·.name)) (accepts : Accepts name changes ds) :
    Accepts name changes es := by
  obtain ⟨d, found, accepted⟩ := accepts
  have named : d.name = name := by simpa using List.find?_some found
  have listed : name ∈ es.map (·.name) := by
    rw [names]
    exact List.mem_map.mpr ⟨d, List.mem_of_find?_eq_some found, named⟩
  obtain ⟨e, member, same⟩ := List.mem_map.mp listed
  cases first : es.find? (·.name = name) with
  | none => simpa [same] using List.find?_eq_none.mp first e member
  | some e =>
    exact ⟨e, first, accepted.elsewhere distinct unnamed
      (bounded d (List.mem_of_find?_eq_some found))
      (finite e (List.mem_of_find?_eq_some first))⟩

theorem names_patchedAll (distinct : AreDistinct changes)
    (unnamed : lookupField "name" changes = none) (bounded : ∀ d ∈ ds, d.IsFinite) :
    (patchedAll name changes ds).map (·.name) = ds.map (·.name) := by
  induction ds with
  | nil => rfl
  | cons d rest ih =>
    obtain ⟨first, others⟩ := List.forall_mem_cons.mp bounded
    unfold patchedAll
    split
    · rw [List.map_cons, List.map_cons, Device.name_patched distinct unnamed first]
    · rw [List.map_cons, List.map_cons, ih others]

/-- A patch does not decide whether another one is accepted. -/
theorem accepts_patchedAll (distinct_a : AreDistinct a) (distinct_b : AreDistinct b)
    (unnamed_a : lookupField "name" a = none) (unnamed_b : lookupField "name" b = none)
    (bounded : ∀ d ∈ ds, d.IsFinite) :
    Accepts other b (patchedAll name a ds) ↔ Accepts other b ds := by
  have names : (patchedAll name a ds).map (·.name) = ds.map (·.name) :=
    names_patchedAll distinct_a unnamed_a bounded
  have finite : ∀ d ∈ patchedAll name a ds, d.IsFinite := isFinite_patchedAll bounded
  exact ⟨Accepts.elsewhere distinct_b unnamed_b finite bounded names.symm,
    Accepts.elsewhere distinct_b unnamed_b bounded finite names⟩

/-- Patches to different names, or independent patches to one, can be made in either order. -/
theorem patchedAll_comm (independent : name = other → AreIndependent a b)
    (distinct_a : AreDistinct a) (distinct_b : AreDistinct b)
    (unnamed_a : lookupField "name" a = none) (unnamed_b : lookupField "name" b = none)
    (bounded : ∀ d ∈ ds, d.IsFinite) :
    patchedAll other b (patchedAll name a ds) = patchedAll name a (patchedAll other b ds) := by
  induction ds with
  | nil => rfl
  | cons d rest ih =>
    obtain ⟨first, others⟩ := List.forall_mem_cons.mp bounded
    have name_a := Device.name_patched distinct_a unnamed_a first
    have name_b := Device.name_patched distinct_b unnamed_b first
    -- patches meet in one device only where both names are its own, and no patch changes a name
    by_cases named : d.name = name
    · by_cases also_named : d.name = other
      · rw [patchedAll_cons_of_named named, patchedAll_cons_of_named also_named,
          patchedAll_cons_of_named (name_a.trans also_named),
          patchedAll_cons_of_named (name_b.trans named),
          Device.patched_comm (independent (named.symm.trans also_named)) distinct_a distinct_b
            unnamed_a unnamed_b first]
      · have apart : (d.patched a).name ≠ other := name_a ▸ also_named
        rw [patchedAll_cons_of_named named, patchedAll_cons_of_ne also_named,
          patchedAll_cons_of_ne apart, patchedAll_cons_of_named named]
    · by_cases also_named : d.name = other
      · have apart : (d.patched b).name ≠ name := name_b ▸ named
        rw [patchedAll_cons_of_ne named, patchedAll_cons_of_named also_named,
          patchedAll_cons_of_named also_named, patchedAll_cons_of_ne apart]
      · rw [patchedAll_cons_of_ne named, patchedAll_cons_of_ne also_named,
          patchedAll_cons_of_ne also_named, patchedAll_cons_of_ne named, ih others]

end Patched

end Registry

section Answers

variable (fire : Fire) (breaks : Prop) (name : String) (changes : Fields)

/-- A patch that is accepted answers so, unless the call of an observer breaks it off. -/
def IsAccepted (w : World) : Prop :=
  ∃ v, (updateDevice fire name changes).run w = .ok true v ∨
    (breaks ∨ named w.scripts = false) ∧
      ∃ stop told, (updateDevice fire name changes).run w = .error stop v ∧
        ((Change.store v.registry.devices).apply w).IsBrokenOff fire told stop v

def IsRefused (w : World) : Prop := ∃ v, (updateDevice fire name changes).run w = .ok false v

/-- A patch that is accepted in both worlds or refused in both. -/
def Alike (u v : World) : Prop :=
  IsAccepted fire breaks name changes u ∧ IsAccepted fire breaks name changes v ∨
    IsRefused fire name changes u ∧ IsRefused fire name changes v

end Answers

section Commuting

variable {fire : Fire} {w : World} {breaks : Prop} {name other : String} {changes a b : Fields}

theorem Fire.Spares.scripts_publish {scripts : List (String × Script)}
    (spares : fire.Spares scripts breaks) (kept : w.scripts = scripts) (ds : List Device) :
    ((publish fire ds).after w).scripts = scripts := by
  have aside : Aside fun _ => True :=
    ⟨fun _ => trivial, fun _ _ => trivial, fun _ => trivial, fun _ _ => trivial⟩
  have fired : ∀ name signal,
      (keptScripts scripts).Agree (fire name signal) (fire name signal) :=
    fun name signal w holds =>
      ⟨rfl, (spares name signal w holds).2.mono id (fun _ => trivial) fun _ => trivial⟩
  exact (Law.agree_publish Law.keptScripts_permits fired aside trivial (fun _ => trivial) w
    kept).2.after.1

/-- What a patch does to the collection, and how it is answered. -/
theorem Fire.Spares.run_updateDevice (spares : fire.Spares w.scripts breaks)
    (unreserved : ∀ key ∈ ["name", "self"], lookupField key changes = none) (name : String) :
    let run := (updateDevice fire name changes).run w
    (leaves run).scripts = w.scripts ∧
      (leaves run).registry.devices = Registry.patchedAll name changes w.registry.devices ∧
      (Registry.Accepts name changes w.registry.devices →
        IsAccepted fire breaks name changes w) ∧
      (¬ Registry.Accepts name changes w.registry.devices → IsRefused fire name changes w) := by
  intro run
  rcases Registry.patch_cases changes name w.registry.devices with
    ⟨before, d, after, new, split, named, apart, accepted, stored⟩ | ⟨refused, _⟩
  · have accepts : Registry.Accepts name changes w.registry.devices :=
      ⟨d, by rw [split, Registry.find?_named named apart], new, accepted⟩
    have after_all : Registry.patchedAll name changes w.registry.devices =
        before ++ new :: after := by
      rw [split, Registry.patchedAll_split named apart, Device.patched_eq accepted]
    have kept := spares.scripts_publish rfl (before ++ new :: after)
    obtain ⟨v, _, devices, _, ends⟩ := spares.run_publish (before ++ new :: after)
    have published : run = ((fun _ => true) <$> publish fire (before ++ new :: after)).run w :=
      run_updateDevice_stored unreserved stored
    rw [run_map] at published
    rw [after_all]
    rcases ends with ⟨⟨count, returns⟩, _⟩ | ⟨allowed, stop, stops, broken⟩
    · rw [returns] at published
      simp only [Act.after, returns] at kept
      have accepted : IsAccepted fire breaks name changes w := ⟨v, .inl published⟩
      rw [published]
      exact ⟨kept, devices, fun _ => accepted, fun refused => absurd accepts refused⟩
    · rw [stops] at published
      simp only [Act.after, stops] at kept
      have accepted : IsAccepted fire breaks name changes w :=
        ⟨v, .inr ⟨allowed, stop, _, published, by rw [devices]; exact broken⟩⟩
      rw [published]
      exact ⟨kept, devices, fun _ => accepted, fun refused => absurd accepts refused⟩
  · have unaccepted : ¬ Registry.Accepts name changes w.registry.devices :=
      fun ⟨d, found, accepts⟩ => refused d found accepts
    obtain ⟨note, noted⟩ := run_updateDevice_refused changes name fire w unreserved refused
    have answers : IsRefused fire name changes w := ⟨_, noted⟩
    have noted : run = .ok false (w.enter (.noted note)) := noted
    rw [noted, Registry.patchedAll_of_refused unaccepted]
    exact ⟨rfl, rfl, fun accepts => absurd accepts unaccepted, fun _ => answers⟩

/-- Calls that hang on the same question are answered alike. -/
theorem Alike.of_iff {u v : World} {p q : Prop} (same : q ↔ p)
    (accepted : (p → IsAccepted fire breaks name changes u) ∧
      (¬ p → IsRefused fire name changes u))
    (also_accepted : (q → IsAccepted fire breaks name changes v) ∧
      (¬ q → IsRefused fire name changes v)) : Alike fire breaks name changes u v := by
  by_cases holds : p
  · exact .inl ⟨accepted.1 holds, also_accepted.1 (same.mpr holds)⟩
  · exact .inr ⟨accepted.2 holds, also_accepted.2 fun q => holds (same.mp q)⟩

/-- Patches of different names, or of one name and independent of each other, leave the same
collection in either order, whether they are accepted or not. Each call is refused in both orders,
or it is accepted in both and says so unless the call of an observer breaks it off. This holds for
whatever listeners do while they are told, if they leave the registry alone; scripts that neither
publish nor notify do so. -/
theorem independent_patches_commute (spares : fire.Spares w.scripts breaks)
    (bounded : ∀ d ∈ w.registry.devices, d.IsFinite) (distinct_a : AreDistinct a)
    (distinct_b : AreDistinct b)
    (unreserved_a : ∀ key ∈ ["name", "self"], lookupField key a = none)
    (unreserved_b : ∀ key ∈ ["name", "self"], lookupField key b = none)
    (independent : name = other → AreIndependent a b) :
    let first := updateDevice fire name a
    let second := updateDevice fire other b
    (second.after (first.after w)).registry.devices =
        (first.after (second.after w)).registry.devices ∧
      Alike fire breaks name a w (second.after w) ∧
      Alike fire breaks other b w (first.after w) ∧
      ∀ scripts depth, spare scripts →
        (fireAt depth).Spares scripts (∃ s ∈ scripts, s.2.ending.breaks = true) := by
  intro first second
  have unnamed_a := unreserved_a "name" (by simp)
  have unnamed_b := unreserved_b "name" (by simp)
  obtain ⟨scripts_a, devices_a, answers_a⟩ := spares.run_updateDevice unreserved_a name
  obtain ⟨scripts_b, devices_b, answers_b⟩ := spares.run_updateDevice unreserved_b other
  have spares_a : fire.Spares (first.after w).scripts breaks := by
    rw [Act.after, scripts_a]
    exact spares
  have spares_b : fire.Spares (second.after w).scripts breaks := by
    rw [Act.after, scripts_b]
    exact spares
  obtain ⟨_, devices_ab, answers_ab⟩ := spares_a.run_updateDevice unreserved_b other
  obtain ⟨_, devices_ba, answers_ba⟩ := spares_b.run_updateDevice unreserved_a name
  rw [Act.after, devices_a] at devices_ab answers_ab
  rw [Act.after, devices_b] at devices_ba answers_ba
  refine ⟨?_, ?_, ?_, fun scripts depth spared => Law.fireAt_spares spared id depth⟩
  · calc (second.after (first.after w)).registry.devices
        = Registry.patchedAll other b (Registry.patchedAll name a w.registry.devices) :=
          devices_ab
      _ = Registry.patchedAll name a (Registry.patchedAll other b w.registry.devices) :=
          Registry.patchedAll_comm independent distinct_a distinct_b unnamed_a unnamed_b bounded
      _ = (first.after (second.after w)).registry.devices := devices_ba.symm
  · exact .of_iff (Registry.accepts_patchedAll distinct_b distinct_a unnamed_b unnamed_a bounded)
      answers_a answers_ba
  · exact .of_iff (Registry.accepts_patchedAll distinct_a distinct_b unnamed_a unnamed_b bounded)
      answers_b answers_ab

end Commuting

/-- A van of which nothing is known, behind a buoy, and an observer that tilts a map and fails. -/
def unplacedVan : World :=
  { twoVans with
    registry.devices := [⟨"buoy", true, none, none, none⟩, ⟨"van", true, none, none, none⟩] }

/-- Both name a coordinate of a position that is not known yet. -/
theorem unplaced_van_is_placed_in_either_order :
    let east : Fields := [("position", .object [("x", .float 1.5)]), ("visible", .bool false)]
    let up : Fields := [("orientation", .object []), ("position", .object [("z", .int 2)])]
    let first := updateDevice (fireAt 4) "van" east
    let second := updateDevice (fireAt 4) "van" up
    let placed : Device := ⟨"van", false, some ⟨1.5, 0, 2⟩, some ⟨0, 0, 0⟩, none⟩
    AreIndependent east up ∧
      (second.after (first.after unplacedVan)).registry.devices =
        [⟨"buoy", true, none, none, none⟩, placed] ∧
      (first.after (second.after unplacedVan)).registry.devices =
        [⟨"buoy", true, none, none, none⟩, placed] ∧
      (∃ v, second.run (first.after unplacedVan) = .ok true v) ∧
      ∃ v, first.run (second.after unplacedVan) = .ok true v := by
  intro east up first second placed
  have spares : (fireAt 4).Spares unplacedVan.scripts False :=
    Law.fireAt_spares (by decide) (by simp [unplacedVan, twoVans, tilter, Ending.breaks]) 4
  have bounded : ∀ d ∈ unplacedVan.registry.devices, d.IsFinite := by decide
  have independent : AreIndependent east up := by decide
  have distinct : AreDistinct east ∧ AreDistinct up := by decide
  obtain ⟨same, answers, also_answers, _⟩ := independent_patches_commute spares bounded
    distinct.1 distinct.2 (by decide) (by decide) fun _ : "van" = "van" => independent
  have devices : (second.after (first.after unplacedVan)).registry.devices =
      [⟨"buoy", true, none, none, none⟩, placed] := by decide
  have said : ∀ {u v : World} {changes : Fields}, v.scripts = tilter →
      Alike (fireAt 4) False "van" changes u v →
      (∃ r, (updateDevice (fireAt 4) "van" changes).run u = .ok true r) →
        ∃ r, (updateDevice (fireAt 4) "van" changes).run v = .ok true r := by
    rintro u v changes kept (⟨_, r, returns | ⟨allowed, _⟩⟩ | ⟨⟨r, refused⟩, _⟩) ⟨s, accepted⟩
    · exact ⟨r, returns⟩
    · rw [kept] at allowed
      exact allowed.elim False.elim fun nameless => absurd nameless (by decide)
    · cases refused.symm.trans accepted
  exact ⟨independent, devices, same ▸ devices, said rfl also_answers ⟨_, rfl⟩,
    said rfl answers ⟨_, rfl⟩⟩

def placedVan : World :=
  { World.empty with registry := ⟨[⟨"van", true, some ⟨1, 2, 3⟩, none, none⟩], []⟩ }

/-- An observer that cancels what is under way when it is told for the first time. -/
def cancelsOnce : World :=
  { World.empty with
    registry := ⟨[⟨"van", true, none, none, none⟩, ⟨"buoy", true, none, none, none⟩],
      [.script "once"]⟩
    buses := [("main", ⟨[("halt", [.script "halt"])]⟩)]
    scripts := [("once", ⟨false, 1, [.emit "main" "halt"], .returns, none⟩),
      ("halt", ⟨false, 0, [], .cancels, none⟩)] }

/-- An object that names no number touches nothing, but it makes a position that is not known; and
of two calls it may be the first one that is cancelled, in either order. -/
theorem patches_that_are_apart_may_not_commute :
    let merges := Command.updateDevice "van" [("position", .object [])]
    let forgets := Command.updateDevice "van" [("position", .null)]
    let hide := fun name => Command.updateDevice name [("visible", .bool false)]
    AreApart [("position", .object [])] [("position", .null)] ∧
      (carryOutAll placedVan [merges, forgets]).registry.devices =
        [⟨"van", true, none, none, none⟩] ∧
      (carryOutAll placedVan [forgets, merges]).registry.devices =
        [⟨"van", true, some ⟨0, 0, 0⟩, none, none⟩] ∧
      spare cancelsOnce.scripts = true ∧
      (∃ v, (carryOut (hide "van")).run cancelsOnce = .error .cancelled v) ∧
      ∃ v, (carryOut (hide "van")).run ((carryOut (hide "buoy")).after cancelsOnce) =
        .ok (.flag true) v := by
  intro merges forgets hide
  exact ⟨by decide, by decide, by decide, by decide, ⟨_, rfl⟩, ⟨_, rfl⟩⟩

end FleetMap
