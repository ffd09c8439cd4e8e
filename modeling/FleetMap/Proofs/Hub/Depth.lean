import FleetMap.Proofs.Hub.Obedience

set_option autoImplicit false

namespace FleetMap

open Act Hub

section Sums

variable {α : Type} {f g : α → Nat} {l : List α}

theorem foldr_add_le (below : ∀ a ∈ l, f a ≤ g a) :
    l.foldr (fun a others => f a + others) 0 ≤ l.foldr (fun a others => g a + others) 0 := by
  induction l with
  | nil => exact Nat.le_refl 0
  | cons a rest ih =>
    have first := below a List.mem_cons_self
    have others := ih fun b member => below b (List.mem_cons_of_mem a member)
    simp only [List.foldr_cons]
    omega

theorem foldr_add_lt (below : ∀ a ∈ l, f a ≤ g a) {a : α} (member : a ∈ l) (less : f a < g a) :
    l.foldr (fun a others => f a + others) 0 < l.foldr (fun a others => g a + others) 0 := by
  induction l with
  | nil => exact nomatch member
  | cons b rest ih =>
    have below_rest : ∀ c ∈ rest, f c ≤ g c :=
      fun c later => below c (List.mem_cons_of_mem b later)
    simp only [List.foldr_cons]
    rcases List.mem_cons.mp member with rfl | later
    · have others := foldr_add_le below_rest
      omega
    · have first := below b List.mem_cons_self
      have others := ih below_rest later
      omega

end Sums

namespace World

variable (w : World)

theorem actsLeft_le_scriptDepth : w.actsLeft ≤ scriptDepth w.scripts :=
  foldr_add_le fun _ _ => Nat.sub_le _ _

/-- Only calling a script changes how often scripts were fired. -/
theorem firings_apply {c : Change} (other : ∀ name signal, c ≠ .firing name signal) :
    (c.apply w).firings = w.firings := by
  have only : c.OfView → w.OnlyViews (c.apply w) := Change.onlyViews_apply w
  cases c with
  | firing name signal => exact absurd rfl (other name signal)
  | activate | deactivate | tell | ask | cycle | toggle => exact (only trivial).firings
  | _ => rfl

theorem firingsOf_firing (name other : String) (signal : Signal) :
    ((Change.firing name signal).apply w).firingsOf other =
      if other = name then w.firingsOf name + 1 else w.firingsOf other := by
  change (lookupField other (putField name (w.firingsOf name + 1) w.firings)).getD 0 = _
  split
  · rename_i same
    rw [same, lookupField_putField_self]
    rfl
  · rename_i different
    rw [lookupField_putField_of_ne different]
    rfl

theorem firingsOf_le_apply (c : Change) (other : String) :
    w.firingsOf other ≤ (c.apply w).firingsOf other := by
  by_cases fires : ∃ name signal, c = .firing name signal
  · obtain ⟨name, signal, rfl⟩ := fires
    rw [firingsOf_firing]
    split
    · rename_i same
      rw [same]
      omega
    · exact Nat.le_refl _
  · have same : (c.apply w).firings = w.firings :=
      w.firings_apply fun name signal called => fires ⟨name, signal, called⟩
    apply Nat.le_of_eq
    unfold firingsOf
    rw [same]

theorem actsLeft_apply (c : Change) : (c.apply w).actsLeft ≤ w.actsLeft := by
  have scripts := (Change.apply_names w c).1
  unfold actsLeft
  rw [scripts]
  apply foldr_add_le
  intro s _
  have more := w.firingsOf_le_apply c s.1
  omega

theorem actsLeft_firing_lt {name : String} {script : Script} (signal : Signal)
    (found : lookupField name w.scripts = some script) (left : w.firingsOf name < script.times) :
    ((Change.firing name signal).apply w).actsLeft < w.actsLeft := by
  unfold actsLeft
  apply foldr_add_lt _ (mem_of_lookupField found)
  · rw [firingsOf_firing, if_pos rfl]
    dsimp only
    omega
  · intro s _
    have more := w.firingsOf_le_apply (.firing name signal) s.1
    omega

end World

/-- At most `depth` firings with commands are left. -/
def countdown (depth : Nat) : Law where
  holds w := w.actsLeft ≤ depth
  moves w v := v.actsLeft ≤ w.actsLeft
  breaks := True
  refl _ := Nat.le_refl _
  trans first second := Nat.le_trans second first

namespace Hub

variable {w : World} {name : String} (perform : List Command → Act Unit) {signal : Signal}

theorem run_callScript_none (unknown : lookupField name w.scripts = none) :
    (callScript perform name signal).run w = .error (.failed (.unknownName name)) w := by
  simp only [callScript, EStateM.run_bind, EStateM.run_get, unknown, run_fail]

theorem run_callScript_some {script : Script} (found : lookupField name w.scripts = some script) :
    (callScript perform name signal).run w =
      (do
        if w.firingsOf name < script.times then perform script.acts
        finish script.ending).run ((Change.firing name (heard script signal)).apply w) := by
  simp only [callScript, EStateM.run_bind, EStateM.run_get, found, run_beginFiring,
    decide_eq_true_eq]

end Hub

namespace Law

theorem countdown_change {depth : Nat} {w : World} (c : Change)
    (holds : (countdown depth).holds w) :
    (countdown depth).holds (c.apply w) ∧ (countdown depth).moves w (c.apply w) :=
  ⟨Nat.le_trans (w.actsLeft_apply c) holds, w.actsLeft_apply c⟩

theorem countdown_permits (depth : Nat) : (countdown depth).Permits Change.IsOrdinary :=
  .of_always countdown_change

/-- With a firing less to go, an act still comes within the count. -/
theorem Admits.countdown_succ {α : Type} {depth : Nat} {w v : World}
    {ends : EStateM.Result Stop World α} (used : v.actsLeft ≤ w.actsLeft)
    (admits : (countdown depth).Admits v ends) : (countdown (depth + 1)).Admits w ends := by
  cases ends with
  | ok a u => exact ⟨Nat.le_succ_of_le admits.1, Nat.le_trans admits.2 used⟩
  | error stop u =>
    exact ⟨Nat.le_succ_of_le admits.1, Nat.le_trans admits.2.1 used, fun _ => trivial⟩

/-- A script can tell two ways of carrying out its commands apart only while it has some left. -/
theorem agree_callScript_countdown {depth : Nat} {perform other : List Command → Act Unit}
    (agree : ∀ d, depth = d + 1 → ∀ acts, (countdown d).Agree (perform acts) (other acts))
    (name : String) (signal : Signal) :
    (countdown depth).Agree (callScript perform name signal) (callScript other name signal) := by
  intro w holds
  cases found : lookupField name w.scripts with
  | none =>
    rw [run_callScript_none _ found, run_callScript_none _ found]
    exact ⟨rfl, holds, Nat.le_refl _, fun _ => trivial⟩
  | some script =>
    rw [run_callScript_some _ found, run_callScript_some _ found]
    have finished : ∀ d, (countdown d).Agree (finish script.ending) (finish script.ending) :=
      fun _ => agree_finish script.ending fun _ => trivial
    by_cases left : w.firingsOf name < script.times
    · have used := w.actsLeft_firing_lt (heard script signal) found left
      obtain ⟨d, rfl⟩ : ∃ d, depth = d + 1 := by
        have room : w.actsLeft ≤ depth := holds
        exact ⟨depth - 1, by omega⟩
      have holds_after : (countdown d).holds
          ((Change.firing name (heard script signal)).apply w) :=
        Nat.le_of_lt_succ (Nat.lt_of_lt_of_le used holds)
      obtain ⟨same, admits⟩ :=
        agree_bind (agree d rfl script.acts) (fun _ => finished d) _ holds_after
      simp only [left, if_true]
      exact ⟨same, admits.countdown_succ (Nat.le_of_lt used)⟩
    · obtain ⟨holds_after, moves⟩ :=
        countdown_change (.firing name (heard script signal)) holds
      simp only [left, if_false]
      exact ⟨trivial, (finished depth _ holds_after).2.trans moves⟩

theorem agree_fireAt_succ (depth : Nat) (name : String) (signal : Signal) :
    (countdown depth).Agree (fireAt depth name signal) (fireAt (depth + 1) name signal) := by
  -- at depth zero the count says that no script has commands left, so the two ways do the same
  induction depth generalizing name signal with
  | zero =>
    apply agree_callScript_countdown
    intro d impossible
    omega
  | succ depth ih =>
    apply agree_callScript_countdown
    intro d same acts
    obtain rfl : depth = d := Nat.succ.inj same
    exact agree_commands (countdown_permits depth) routine_ordinary ih acts
      fun c _ => c.within_ordinary

/-- A depth that covers the firings with commands that are left is as good as any larger one. -/
theorem fireAt_deeper (depth more : Nat) (name : String) (signal : Signal) :
    (countdown depth).Agree (fireAt depth name signal) (fireAt (depth + more) name signal) := by
  intro w holds
  refine ⟨?_, (agree_fireAt_succ depth name signal w holds).2⟩
  induction more with
  | zero => rfl
  | succ more ih =>
    have covered : (countdown (depth + more)).holds w := Nat.le_trans holds (Nat.le_add_right _ _)
    exact (agree_fireAt_succ (depth + more) name signal w covered).1.trans ih

end Law

/-- Sessions do not depend on the depth with which they fire scripts. -/
theorem carryOutAll_deeper (more : Nat) (w : World) (steps : List Command) :
    carryOutAllBy (fun depth => fireAt (depth + more)) w steps = carryOutAll w steps := by
  induction steps generalizing w with
  | nil => simp only [carryOutAllBy, carryOutAll, List.foldl_nil]
  | cons c rest ih =>
    have same := (Law.agree_command (Law.countdown_permits (scriptDepth w.scripts)) routine_ordinary
      (Law.fireAt_deeper (scriptDepth w.scripts) more) c c.within_ordinary w
      w.actsLeft_le_scriptDepth).1
    have same_after : (command (fireAt (scriptDepth w.scripts + more)) c).after w =
        (carryOut c).after w := by
      unfold Act.after
      rw [same, run_carryOut]
    rw [carryOutAllBy_cons, carryOutAll_cons, same_after]
    exact ih _

end FleetMap
