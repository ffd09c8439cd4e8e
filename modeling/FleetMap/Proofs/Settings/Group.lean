import FleetMap.Settings.Field
import Mathlib

set_option autoImplicit false

namespace FleetMap

section Distinct

theorem eraseDups_concat (names : List String) (name : String) :
    (names ++ [name]).eraseDups =
      if name ∈ names then names.eraseDups else names.eraseDups ++ [name] := by
  rw [List.eraseDups_append]
  by_cases known : name ∈ names
  · have old : [name].removeAll names = [] := by simp [List.removeAll, known]
    rw [if_pos known, old]
    exact List.append_nil _
  · have new : [name].removeAll names = [name] := by simp [List.removeAll, known]
    rw [if_neg known, new]
    rfl

theorem nodup_eraseDups (names : List String) : names.eraseDups.Nodup := by
  induction names using List.reverseRecOn with
  | nil => exact .nil
  | append_singleton names name ih =>
    rw [eraseDups_concat]
    split
    · exact ih
    · rename_i fresh
      refine List.nodup_append'.mpr ⟨ih, List.nodup_singleton name, ?_⟩
      rw [List.disjoint_singleton, List.mem_eraseDups]
      exact fresh

end Distinct

section Gather

variable {α : Type} (group? : α → Option String)

/-- The groups that members name, in the order of their first members. -/
def groupsOf (members : List α) : List String := (members.filterMap group?).eraseDups

def membersOf (members : List α) (group : String) : List α :=
  members.filter fun m => group? m = some group

variable {group?}

theorem nodup_groupsOf (members : List α) : (groupsOf group? members).Nodup := nodup_eraseDups _

theorem mem_groupsOf {members : List α} {group : String} :
    group ∈ groupsOf group? members ↔ ∃ m ∈ members, group? m = some group := by
  unfold groupsOf
  rw [List.mem_eraseDups, List.mem_filterMap]

theorem mem_membersOf {members : List α} {group : String} {m : α} :
    m ∈ membersOf group? members group ↔ m ∈ members ∧ group? m = some group := by
  unfold membersOf
  rw [List.mem_filter, decide_eq_true_eq]

/-- A member goes to the end of its group, and a new group goes to the end of all. -/
theorem addToGroup_map {groups : List String} (distinct : groups.Nodup)
    (content : String → List α) (group : String) (member : α) :
    addToGroup group member (groups.map fun g => (g, content g)) =
      if group ∈ groups then
        groups.map fun g => (g, if g = group then content g ++ [member] else content g)
      else groups.map (fun g => (g, content g)) ++ [(group, [member])] := by
  induction groups with
  | nil => rfl
  | cons g rest ih =>
    obtain ⟨fresh, distinct⟩ := List.nodup_cons.mp distinct
    rw [List.map_cons, addToGroup]
    by_cases same : g = group
    · -- the groups behind the one that is found have other names
      subst same
      have others : ∀ other ∈ rest, other ≠ g := fun other member same => fresh (same ▸ member)
      rw [if_pos rfl, if_pos List.mem_cons_self, List.map_cons, if_pos rfl]
      congr 1
      exact List.map_congr_left fun other member => by rw [if_neg (others other member)]
    · have still : group ∈ g :: rest ↔ group ∈ rest := by simp [Ne.symm same]
      rw [if_neg same, ih distinct]
      simp only [still, List.map_cons, if_neg same]
      split
      · rfl
      · rfl

theorem gather_concat (members : List α) (m : α) :
    gather group? (members ++ [m]) =
      match group? m with
      | some group => addToGroup group m (gather group? members)
      | none => gather group? members := by
  unfold gather
  exact List.foldl_append.trans rfl

theorem membersOf_concat (members : List α) (m : α) (group : String) :
    membersOf group? (members ++ [m]) group =
      if group? m = some group then membersOf group? members group ++ [m]
      else membersOf group? members group := by
  unfold membersOf
  rw [List.filter_append]
  by_cases own : group? m = some group
  · simp [own]
  · simp [own]

/-- Gathering gives each named group its members, groups in the order of their first members. -/
theorem gather_eq (members : List α) :
    gather group? members =
      (groupsOf group? members).map fun g => (g, membersOf group? members g) := by
  induction members using List.reverseRecOn with
  | nil => rfl
  | append_singleton members m ih =>
    rw [gather_concat, ih]
    cases named : group? m with
    | none =>
      have same_groups : groupsOf group? (members ++ [m]) = groupsOf group? members := by
        simp [groupsOf, named]
      simp only [same_groups, membersOf_concat, named, reduceCtorEq, if_false]
    | some group =>
      have groups : groupsOf group? (members ++ [m]) =
          if group ∈ groupsOf group? members then groupsOf group? members
          else groupsOf group? members ++ [group] := by
        unfold groupsOf
        rw [List.filterMap_append, List.filterMap_cons_some named, List.filterMap_nil,
          eraseDups_concat]
        simp only [List.mem_eraseDups]
      simp only [addToGroup_map (nodup_groupsOf members), groups, membersOf_concat, named,
        Option.some.injEq, eq_comm (a := group)]
      split
      · rfl
      · -- a group that is new has no members yet
        rename_i fresh
        have none_yet : membersOf group? members group = [] :=
          List.filter_eq_nil_iff.mpr fun other member own =>
            fresh (mem_groupsOf.mpr ⟨other, member, of_decide_eq_true own⟩)
        have others : ∀ g ∈ groupsOf group? members, g ≠ group :=
          fun g member same => fresh (same ▸ member)
        rw [List.map_append, List.map_singleton, if_pos rfl, none_yet]
        congr 1
        exact List.map_congr_left fun g member => by rw [if_neg (others g member)]

end Gather

section Order

/-- A sort by rank leaves members of one rank in their order. -/
theorem filter_mergeSort {α : Type} (rank : α → Nat) (r : Nat) (l : List α) :
    (l.mergeSort fun a b => rank a ≤ rank b).filter (rank · = r) = l.filter (rank · = r) := by
  have one_rank : (l.filter (rank · = r)).Pairwise fun a b => decide (rank a ≤ rank b) = true := by
    refine List.pairwise_of_forall_mem_list fun a in_a b in_b => decide_eq_true ?_
    rw [of_decide_eq_true (List.mem_filter.mp in_a).2,
      of_decide_eq_true (List.mem_filter.mp in_b).2]
  have kept : (l.filter (rank · = r)).Sublist (l.mergeSort fun a b => rank a ≤ rank b) := by
    refine List.sublist_mergeSort ?_ ?_ one_rank List.filter_sublist
    · exact fun a b c first second =>
        decide_eq_true (Nat.le_trans (of_decide_eq_true first) (of_decide_eq_true second))
    · exact fun a b => by simpa using Nat.le_total (rank a) (rank b)
  have filtered := kept.filter (rank · = r)
  rw [List.filter_filter] at filtered
  simp only [Bool.and_self] at filtered
  exact (filtered.eq_of_length ((List.mergeSort_perm l _).symm.filter _).length_eq).symm

/-- Where nothing outside a class stands before something inside it, the class comes first. -/
theorem filter_append_filter_not {α : Type} {p : α → Bool} {l : List α}
    (ordered : l.Pairwise fun a b => p b = true → p a = true) :
    l.filter p ++ l.filter (fun a => !p a) = l := by
  induction l with
  | nil => rfl
  | cons a rest ih =>
    obtain ⟨first, ordered⟩ := List.pairwise_cons.mp ordered
    cases inside : p a with
    | true =>
      rw [List.filter_cons_of_pos inside, List.filter_cons_of_neg (by simp [inside]),
        List.cons_append, ih ordered]
    | false =>
      have none : ∀ b ∈ rest, ¬ p b = true := fun b member in_b => by
        rw [first b member in_b] at inside
        exact nomatch inside
      have all : ∀ b ∈ rest, (!p b) = true := fun b member => by simp [none b member]
      rw [List.filter_cons_of_neg (by simp [inside]), List.filter_cons_of_pos (by simp [inside]),
        List.filter_eq_nil_iff.mpr none, List.filter_eq_self.mpr all, List.nil_append]

variable {preferred : List String}

theorem groupRank_lt_iff {group : String} :
    groupRank preferred group < preferred.length ↔ group ∈ preferred :=
  List.idxOf_lt_length_iff

theorem groupRank_eq_iff {group : String} :
    groupRank preferred group = preferred.length ↔ group ∉ preferred :=
  List.idxOf_eq_length_iff

theorem groupRank_inj {first second : String} (known : first ∈ preferred)
    (same : groupRank preferred first = groupRank preferred second) : first = second :=
  (List.idxOf_inj known).mp same

/-- Different names are ranked in the order of preference. -/
theorem pairwise_groupRank (distinct : preferred.Nodup) :
    preferred.Pairwise fun a b => groupRank preferred a ≤ groupRank preferred b := by
  rw [List.pairwise_iff_getElem]
  intro i j low high less
  change preferred.idxOf preferred[i] ≤ preferred.idxOf preferred[j]
  rw [distinct.idxOf_getElem i low, distinct.idxOf_getElem j high]
  exact less.le

/-- Names sorted by rank: the preferred ones in the order of preference, then all others as they
were. -/
theorem mergeSort_groupRank (distinct : preferred.Nodup) {groups : List String}
    (single : groups.Nodup) :
    (groups.mergeSort fun a b => groupRank preferred a ≤ groupRank preferred b) =
      preferred.filter (· ∈ groups) ++ groups.filter (· ∉ preferred) := by
  have sorted :
      (groups.mergeSort fun a b => groupRank preferred a ≤ groupRank preferred b).Pairwise
        fun a b => decide (groupRank preferred a ≤ groupRank preferred b) = true := by
    apply List.pairwise_mergeSort
    · intro a b c first second
      exact decide_eq_true (Nat.le_trans (of_decide_eq_true first) (of_decide_eq_true second))
    · intro a b
      simpa using Nat.le_total (groupRank preferred a) (groupRank preferred b)
  have others := filter_mergeSort (groupRank preferred) preferred.length groups
  have same := List.mergeSort_perm groups fun a b => groupRank preferred a ≤ groupRank preferred b
  generalize (groups.mergeSort fun a b => groupRank preferred a ≤ groupRank preferred b) = shown
    at sorted others same ⊢
  simp only [decide_eq_true_eq] at sorted
  simp only [groupRank_eq_iff] at others
  have first : shown.filter (· ∈ preferred) = preferred.filter (· ∈ groups) := by
    refine List.Perm.eq_of_pairwise ?_ (sorted.sublist List.filter_sublist)
      ((pairwise_groupRank distinct).sublist List.filter_sublist) ?_
    · intro a b in_a _ low high
      exact groupRank_inj (of_decide_eq_true (List.mem_filter.mp in_a).2) (Nat.le_antisymm low high)
    · refine (List.perm_ext_iff_of_nodup ((same.nodup_iff.mpr single).filter _)
        (distinct.filter _)).mpr fun name => ?_
      simp only [List.mem_filter, decide_eq_true_eq, same.mem_iff, and_comm]
  have split := filter_append_filter_not (p := fun name => decide (name ∈ preferred)) (l := shown)
    (sorted.imp fun {a b} low known => decide_eq_true
      (groupRank_lt_iff.mp (low.trans_lt (groupRank_lt_iff.mpr (of_decide_eq_true known)))))
  rw [← split, first]
  congr 1
  simpa only [decide_not] using others

end Order

section Form

variable {α : Type} {group? : α → Option String} {preferred : List String} {members : List α}

theorem mem_groupFields {entry : String × List α} :
    entry ∈ groupFields preferred group? members ↔
      (∃ m ∈ members, group? m = some entry.1) ∧ entry.2 = membersOf group? members entry.1 := by
  unfold groupFields
  rw [List.mem_mergeSort, gather_eq, List.mem_map]
  constructor
  · rintro ⟨group, known, rfl⟩
    exact ⟨mem_groupsOf.mp known, rfl⟩
  · rintro ⟨known, content⟩
    exact ⟨entry.1, mem_groupsOf.mpr known, Prod.ext rfl content.symm⟩

/-- The preferred groups that occur, in the order of preference, then all others in the order of
their first members. -/
theorem keys_groupFields (distinct : preferred.Nodup) :
    (groupFields preferred group? members).map (·.1) =
      preferred.filter (· ∈ groupsOf group? members) ++
        (groupsOf group? members).filter (· ∉ preferred) := by
  have keys : (gather group? members).map (·.1) = groupsOf group? members := by
    rw [gather_eq, List.map_map]
    exact List.map_id _
  unfold groupFields
  rw [List.map_mergeSort (s := fun a b => decide (groupRank preferred a ≤ groupRank preferred b))
    fun _ _ _ _ => rfl, keys, mergeSort_groupRank distinct (nodup_groupsOf members)]

theorem nodup_keys_groupFields :
    ((groupFields preferred group? members).map (·.1)).Nodup := by
  have same := (List.mergeSort_perm (gather group? members) fun a b =>
    groupRank preferred a.1 ≤ groupRank preferred b.1).map (·.1)
  refine same.nodup_iff.mpr ?_
  rw [gather_eq, List.map_map]
  exact (List.map_id (groupsOf group? members)).symm ▸ nodup_groupsOf members

theorem mem_flatMap_groupFields {m : α} :
    m ∈ (groupFields preferred group? members).flatMap (·.2) ↔
      m ∈ members ∧ (group? m).isSome = true := by
  simp only [List.mem_flatMap, mem_groupFields, Option.isSome_iff_exists]
  constructor
  · rintro ⟨entry, ⟨_, content⟩, member⟩
    rw [content] at member
    obtain ⟨declared, named⟩ := mem_membersOf.mp member
    exact ⟨declared, entry.1, named⟩
  · rintro ⟨declared, group, named⟩
    exact ⟨(group, membersOf group? members group), ⟨⟨m, declared, named⟩, rfl⟩,
      mem_membersOf.mpr ⟨declared, named⟩⟩

/-- Nothing is listed twice, since no member names two groups. -/
theorem nodup_flatMap_groupFields (single : members.Nodup) :
    ((groupFields preferred group? members).flatMap (·.2)).Nodup := by
  rw [List.nodup_flatMap]
  constructor
  · intro entry listed
    rw [(mem_groupFields.mp listed).2]
    exact single.filter _
  · have distinct : ((groupFields preferred group? members).map (·.1)).Nodup :=
      nodup_keys_groupFields
    refine (List.pairwise_map.mp distinct).imp_of_mem ?_
    intro first second in_first in_second different
    change List.Disjoint first.2 second.2
    rw [(mem_groupFields.mp in_first).2, (mem_groupFields.mp in_second).2]
    intro m one other
    have same := (mem_membersOf.mp one).2.symm.trans (mem_membersOf.mp other).2
    exact different (Option.some.inj same)

end Form

/-- Grouping fields partitions those that name a group, and no order is lost. Each field with a
group is listed exactly once, under its group and with its hints, and no other field is. A group
holds its fields in the order of the schema, none is empty and none is repeated. The preferred
groups that occur come first, in the order of preference; all others follow in the order of their
first fields. -/
theorem groupFields_is_stable_partition {Hints : Type} (group? : Hints → Option String)
    {fields : List (String × Hints)} (distinct : (fields.map (·.1)).Nodup) :
    let groups := groupFields preferredGroups (fun f => group? f.2) fields
    let declared := (fields.filterMap fun f => group? f.2).eraseDups
    (∀ entry ∈ groups,
        entry.2 = fields.filter (fun f => group? f.2 = some entry.1) ∧ entry.2 ≠ []) ∧
      (∀ f, f ∈ groups.flatMap (·.2) ↔ f ∈ fields ∧ (group? f.2).isSome = true) ∧
      ((groups.flatMap (·.2)).map (·.1)).Nodup ∧
      (groups.map (·.1)).Nodup ∧
      groups.map (·.1) =
        preferredGroups.filter (· ∈ declared) ++ declared.filter (· ∉ preferredGroups) := by
  intro groups declared
  refine ⟨?_, fun f => mem_flatMap_groupFields, ?_, nodup_keys_groupFields,
    keys_groupFields (by decide)⟩
  · intro entry listed
    obtain ⟨⟨f, declared, named⟩, content⟩ := mem_groupFields.mp listed
    refine ⟨content, List.ne_nil_of_mem (a := f) ?_⟩
    rw [content]
    exact mem_membersOf.mpr ⟨declared, named⟩
  · -- a name stands for one field, so listing no field twice is listing no name twice
    refine (nodup_flatMap_groupFields distinct.of_map).map_on ?_
    intro first in_first second in_second same
    exact List.inj_on_of_nodup_map distinct (mem_flatMap_groupFields.mp in_first).1
      (mem_flatMap_groupFields.mp in_second).1 same

/-- The group among the hints on a field, if there are hints and one of them is a group. -/
def groupHint (hints : Option (List (String × Value))) : Option String :=
  match hints.bind (lookupField "ui_group") with
  | some (.text group) => some group
  | _ => none

/-- Fields of groups old and new in a mixed order, one without hints and one without a group. -/
def mixedForm : List (String × Option (List (String × Value))) :=
  [("alarm", some [("ui_group", .text "Alerts")]), ("pace", some [("ui_group", .text "Playback")]),
    ("name", none), ("zoom", some [("ui_label", .text "Zoom"), ("ui_group", .text "Projection")]),
    ("tone", some [("ui_group", .text "")]), ("hue", some [("ui_label", .text "Hue")]),
    ("siren", some [("ui_group", .text "Alerts")])]

theorem mixedForm_is_grouped :
    (mixedForm.map (·.1)).Nodup ∧
      (groupFields preferredGroups (fun f => groupHint f.2) mixedForm).map (·.1) =
        ["Projection", "Playback", "Alerts", ""] ∧
      ((groupFields preferredGroups (fun f => groupHint f.2) mixedForm).flatMap (·.2)).map (·.1) =
        ["zoom", "pace", "alarm", "siren", "tone"] := by
  have distinct : (mixedForm.map (·.1)).Nodup := by decide
  obtain ⟨content, _, _, _, order⟩ := groupFields_is_stable_partition groupHint distinct
  generalize groupFields preferredGroups (fun f => groupHint f.2) mixedForm = groups
    at content order ⊢
  have keys : groups.map (·.1) = ["Projection", "Playback", "Alerts", ""] :=
    order.trans (by decide)
  have fields : groups.flatMap (·.2) = (groups.map (·.1)).flatMap fun group =>
      mixedForm.filter fun f => groupHint f.2 = some group := by
    rw [List.flatMap_map]
    exact List.flatMap_congr fun entry listed => (content entry listed).1
  refine ⟨distinct, keys, ?_⟩
  rw [fields, keys]
  decide

end FleetMap
