import FleetMap.Files.Tree
import FleetMap.Proofs.Text.Trim

set_option autoImplicit false

namespace FleetMap

/-- A name that is one step of a path: neither empty nor points alone, and without a slash. -/
structure IsFileName (name : String) : Prop where
  nonempty : name ≠ ""
  no_slash : '/' ∉ name.toList
  no_point : name ≠ "."
  no_points : name ≠ ".."

/-- Where a path may be written: at a file or where nothing is, in a directory. -/
inductive Spot.Takes (p : Path) : Spot → Prop where
  | file (bytes : List UInt8) : Takes p (.present p (.file bytes))
  | vacant : Takes p (.vacant p)

namespace Tree

theorem node?_put_self (t : Tree) {p : Path} (below : p ≠ []) (n : Node) :
    (t.put p n).node? p = some n := by
  have removed : (t.nodes.filter (·.1 != p)).find? (·.1 == p) = none := by
    rw [List.find?_eq_none]
    intro entry member
    simpa using (List.mem_filter.mp member).2
  simp [node?, put, below, removed]

theorem node?_put_of_ne (t : Tree) {p q : Path} (different : q ≠ p) (n : Node) :
    (t.put p n).node? q = t.node? q := by
  have kept : (t.nodes.filter (·.1 != p)).find? (·.1 == q) = t.nodes.find? (·.1 == q) := by
    rw [List.find?_filter]
    congr 1
    funext entry
    by_cases same : entry.1 = q
    · simp [same, different]
    · simp [same]
  have other : ¬ p = q := fun same => different same.symm
  simp [node?, put, kept, other]

theorem node?_of_takes {t : Tree} {here : Path} {steps : List String} {p : Path}
    (takes : Spot.Takes p (t.walk here steps)) : t.node? p ≠ some .directory ∧ p ≠ [] := by
  induction steps generalizing here with
  | nil => exact nomatch takes
  | cons step rest ih =>
    unfold walk at takes
    dsimp only at takes
    split at takes
    · split at takes
      · exact nomatch takes
      · exact ih takes
    · split at takes
      · exact ih takes
      · rename_i bytes found
        cases takes
        simp [found]
      · exact nomatch takes
      · rename_i missing
        cases takes
        simp [missing]
      · exact nomatch takes

/-- The same path leads to the file that was put where it led. -/
theorem walk_put_file {t : Tree} {here : Path} {steps : List String} {p : Path}
    (takes : Spot.Takes p (t.walk here steps)) (bytes : List UInt8) :
    (t.put p (.file bytes)).walk here steps = .present p (.file bytes) := by
  obtain ⟨no_directory, below⟩ := node?_of_takes takes
  induction steps generalizing here with
  | nil => exact nomatch takes
  | cons step rest ih =>
    unfold walk at takes ⊢
    dsimp only at takes ⊢
    split at takes
    · rename_i up
      split at takes
      · exact nomatch takes
      · rename_i inside
        rw [if_pos up, if_neg inside]
        exact ih takes
    · rename_i down
      rw [if_neg down]
      split at takes
      · -- the directories on the way are still there, since `p` is none of them
        rename_i directory
        have different : here ++ [step] ≠ p := by
          rintro rfl
          exact no_directory directory
        rw [node?_put_of_ne t different, directory]
        exact ih takes
      · cases takes
        rw [node?_put_self t below]
      · exact nomatch takes
      · cases takes
        rw [node?_put_self t below]
      · exact nomatch takes

/-- A file that was written is found where it was written. -/
theorem locate_of_write {t t' : Tree} {folder : List String} {written : String}
    {bytes : List UInt8} (done : t.write folder written bytes = .ok t') :
    ∃ p, t'.locate folder written = .present p (.file bytes) := by
  unfold write at done
  have takes : ∃ p, Spot.Takes p (t.locate folder written) ∧ t' = t.put p (.file bytes) := by
    split at done
    · rename_i p old located
      exact ⟨p, located ▸ .file old, (Except.ok.inj done).symm⟩
    · rename_i p located
      exact ⟨p, located ▸ .vacant, (Except.ok.inj done).symm⟩
    all_goals exact nomatch done
  obtain ⟨p, takes, rfl⟩ := takes
  unfold locate at takes ⊢
  split at takes
  · exact nomatch takes
  · rename_i inside
    rw [if_neg inside]
    exact ⟨p, walk_put_file takes bytes⟩

section FileName

variable {name : String}

theorem steps_of_isFileName (plain : IsFileName name) : steps name = [name] := by
  unfold steps splitText
  rw [splitAtChar_of_not_mem plain.no_slash]
  simp [plain.nonempty, plain.no_point]

theorem startsWith_slash_of_isFileName (plain : IsFileName name) :
    ¬ name.startsWith "/" = true := by
  rw [String.startsWith_string_iff]
  exact fun first => plain.no_slash (first.subset (List.mem_singleton_self '/'))

theorem locate_fileName {t : Tree} {folder : String} (named : folder ≠ "..")
    (there : t.node? [folder] = some .directory) (plain : IsFileName name) :
    t.locate [folder] name =
      match t.node? [folder, name] with
      | some node => .present [folder, name] node
      | none => .vacant [folder, name] := by
  unfold locate
  rw [if_neg (startsWith_slash_of_isFileName plain), steps_of_isFileName plain]
  simp only [List.singleton_append, walk, named, plain.no_points, if_false, List.nil_append, there]
  cases t.node? [folder, name] with
  | none => rfl
  | some node => cases node <;> rfl

/-- A file that is found under a plain name stands in the folder. -/
theorem node?_of_locate_file {t : Tree} {folder : String} (named : folder ≠ "..")
    (plain : IsFileName name) {p : Path} {bytes : List UInt8}
    (located : t.locate [folder] name = .present p (.file bytes)) :
    t.node? [folder] = some .directory ∧ t.node? [folder, name] = some (.file bytes) := by
  have there : t.node? [folder] = some .directory := by
    unfold locate at located
    rw [if_neg (startsWith_slash_of_isFileName plain), steps_of_isFileName plain] at located
    simp only [List.singleton_append, walk, named, if_false, List.nil_append] at located
    cases found : t.node? [folder] with
    | none =>
      rw [found] at located
      exact nomatch located
    | some node =>
      cases node with
      | directory => rfl
      | file other =>
        rw [found] at located
        exact nomatch located
  refine ⟨there, ?_⟩
  rw [locate_fileName named there plain] at located
  split at located
  · rename_i node found
    rw [found, (Spot.present.inj located).2]
  · exact nomatch located

theorem mem_entries_of_node? {t : Tree} {folder : Path} {node : Node}
    (found : t.node? (folder ++ [name]) = some node) : name ∈ t.entries folder := by
  unfold node? at found
  rw [if_neg (List.append_ne_nil_of_right_ne_nil folder (List.cons_ne_nil name []))] at found
  obtain ⟨⟨p, other⟩, first, _⟩ := Option.map_eq_some_iff.mp found
  obtain rfl : p = folder ++ [name] := by
    have same := List.find?_some first
    rwa [beq_iff_eq] at same
  refine List.mem_filterMap.mpr ⟨_, List.mem_of_find?_eq_some first, ?_⟩
  simp

/-- Nothing is in the way of a file: the folder is no file and the file no directory. -/
structure Admits (t : Tree) (folder name : String) : Prop where
  folder_no_file : ∀ bytes, t.node? [folder] ≠ some (.file bytes)
  file_no_directory : t.node? [folder, name] ≠ some .directory

/-- A folder that is no file is made or is there already; all else stays. -/
theorem makeDirectories_folder {t : Tree} {folder : String}
    (no_file : ∀ bytes, t.node? [folder] ≠ some (.file bytes)) :
    ∃ t', t.makeDirectories [] [folder] = .ok t' ∧ t'.node? [folder] = some .directory ∧
      ∀ p, p ≠ [folder] → t'.node? p = t.node? p := by
  cases found : t.node? [folder] with
  | none =>
    refine ⟨t.put [folder] .directory, ?_, node?_put_self t (by simp) _,
      fun p different => node?_put_of_ne t different _⟩
    simp [makeDirectories, found]
  | some node =>
    cases node with
    | file bytes => exact absurd found (no_file bytes)
    | directory => exact ⟨t, by simp [makeDirectories, found], found, fun _ _ => rfl⟩

/-- A file with a plain name can be written where nothing is in its way. -/
theorem write_of_admits {t : Tree} {folder : String} (named : folder ≠ "..")
    (there : t.node? [folder] = some .directory) (plain : IsFileName name)
    (no_directory : t.node? [folder, name] ≠ some .directory) (bytes : List UInt8) :
    ∃ t', t.write [folder] name bytes = .ok t' := by
  unfold write
  rw [locate_fileName named there plain]
  cases found : t.node? [folder, name] with
  | none => exact ⟨_, rfl⟩
  | some node =>
    cases node with
    | file old => exact ⟨_, rfl⟩
    | directory => exact absurd found no_directory

end FileName

end Tree

end FleetMap
