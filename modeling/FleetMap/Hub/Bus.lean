import FleetMap.Hub.Listener

/-!
A bus carries signals without content. Handlers are listed by topic in the order in which they
subscribed, each once; a topic without handlers is forgotten.
-/

set_option autoImplicit false

namespace FleetMap

structure Bus where
  /-- Topics in the order of their first subscription since they were last forgotten. -/
  table : List (String × List Listener)

namespace Bus

def empty : Bus := ⟨[]⟩

/-- The topic that moves each map to its next background. -/
def cycleTopic : String := "map-button-clicked"

/-- The topic that tilts each map or lays it flat. -/
def toggleTopic : String := "isometric-button-clicked"

def topics (b : Bus) : List String := b.table.map (·.1)

def handlers (b : Bus) (topic : String) : List Listener := (lookupField topic b.table).getD []

/-- Adds a handler at the end of its topic, unless it is there. -/
def subscribe (b : Bus) (topic : String) (l : Listener) : Bus :=
  if l ∈ b.handlers topic then b else ⟨putField topic (b.handlers topic ++ [l]) b.table⟩

/-- Removes a handler from its topic; the topic goes with the last one. -/
def unsubscribe (b : Bus) (topic : String) (l : Listener) : Bus :=
  if (b.handlers topic).erase l = [] then ⟨b.table.filter (·.1 != topic)⟩
  else ⟨putField topic ((b.handlers topic).erase l) b.table⟩

theorem handlers_subscribe_self (b : Bus) (topic : String) (l : Listener) :
    (b.subscribe topic l).handlers topic =
      if l ∈ b.handlers topic then b.handlers topic else b.handlers topic ++ [l] := by
  unfold subscribe
  split
  · rfl
  · simp [handlers, lookupField_putField_self]

theorem handlers_subscribe_of_ne (b : Bus) {topic other : String} (different : other ≠ topic)
    (l : Listener) : (b.subscribe topic l).handlers other = b.handlers other := by
  unfold subscribe
  split
  · rfl
  · simp [handlers, lookupField_putField_of_ne different]

theorem handlers_unsubscribe_self (b : Bus) (topic : String) (l : Listener) :
    (b.unsubscribe topic l).handlers topic = (b.handlers topic).erase l := by
  unfold unsubscribe
  split
  next none_left => rw [none_left]; simp [handlers, lookupField_filter_ne]
  next => simp [handlers, lookupField_putField_self]

end Bus

end FleetMap
