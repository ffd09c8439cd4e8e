/-!
Grouping the fields of a form. Groups that are preferred come first, in the order of preference; all
others follow in the order of their first field. Inside a group fields keep their order.
-/

set_option autoImplicit false

namespace FleetMap

/-- Adds a member to its group; a new group goes to the end. -/
def addToGroup {α : Type} (group : String) (member : α) :
    List (String × List α) → List (String × List α)
  | [] => [(group, [member])]
  | entry :: rest =>
    if entry.1 = group then (group, entry.2 ++ [member]) :: rest
    else entry :: addToGroup group member rest

/-- Members by group, groups in the order of their first member; some members have no group. -/
def gather {α : Type} (group? : α → Option String) (members : List α) : List (String × List α) :=
  members.foldl
    (fun groups m =>
      match group? m with
      | some group => addToGroup group m groups
      | none => groups)
    []

/-- The rank of a group: its place among the preferred ones, or after all of them. -/
def groupRank (preferred : List String) (group : String) : Nat :=
  preferred.findIdx (· == group)

/-- Members by group, preferred groups first. -/
def groupFields {α : Type} (preferred : List String) (group? : α → Option String)
    (members : List α) : List (String × List α) :=
  (gather group? members).mergeSort fun a b =>
    groupRank preferred a.1 ≤ groupRank preferred b.1

/-- The groups that come first in the settings form. -/
def preferredGroups : List String := ["Projection", "Background", "Playback"]

end FleetMap
