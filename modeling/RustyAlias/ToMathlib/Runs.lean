import Mathlib.Data.List.Basic

/-! # Runs of a machine

A machine is a partial step function: an event is enabled in a state or not. A run is a sequence of
events each of which is enabled where it happens. What a step keeps, a run keeps, and a machine each of
whose steps is a step of another machine, or none, has the runs of the other one behind its own.
-/

namespace Machine

variable {σ τ ε δ : Type*}

/-- The state behind a sequence of events. -/
def run (step : σ → ε → Option σ) (s : σ) (events : List ε) : Option σ := events.foldlM step s

variable {step : σ → ε → Option σ} {s t : σ} {events front rest : List ε} {event : ε}

@[simp] theorem run_nil : run step s [] = some s := rfl

theorem run_cons : run step s (event :: rest) = (step s event).bind fun next => run step next rest := rfl

theorem run_cons_eq_some_iff :
    run step s (event :: rest) = some t ↔ ∃ next, step s event = some next ∧ run step next rest = some t :=
  Option.bind_eq_some_iff

theorem run_append : run step s (front ++ rest) = (run step s front).bind fun next => run step next rest := by
  induction front generalizing s with
  | nil => rfl
  | cons event front ih =>
    rw [List.cons_append, run_cons, run_cons, Option.bind_assoc]
    congr 1
    funext next
    exact ih

/-- What holds behind some events and is kept by every step holds behind every run that goes on from them. -/
theorem invariant_append {holds : List ε → σ → Prop} (keeps : ∀ past state event next, holds past state →
    step state event = some next → holds (past ++ [event]) next) {past : List ε} (now : holds past s)
    (ran : run step s events = some t) : holds (past ++ events) t := by
  induction events generalizing past s with
  | nil =>
    cases ran
    rwa [List.append_nil]
  | cons event rest ih =>
    obtain ⟨next, stepped, ran⟩ := run_cons_eq_some_iff.mp ran
    have behind := ih (keeps past s event next now stepped) ran
    rwa [List.append_assoc, List.singleton_append] at behind

/-- What holds at the start and is kept by every step, the events before it known, holds behind every run. -/
theorem invariant {holds : List ε → σ → Prop} (keeps : ∀ past state event next, holds past state →
    step state event = some next → holds (past ++ [event]) next) (start : holds [] s)
    (ran : run step s events = some t) : holds events t :=
  invariant_append keeps start ran

theorem run_concat (ran : run step s front = some t) : run step s (front ++ [event]) = step t event := by
  rw [run_append, ran, Option.bind_some, run_cons]
  exact Option.bind_fun_some _

/-- Every step of a run meets the condition. -/
def Along (step : σ → ε → Option σ) (meets : σ → ε → Prop) : σ → List ε → Prop
  | _, [] => True
  | s, event :: rest => meets s event ∧ ∀ next, step s event = some next → Along step meets next rest

theorem Along.of_forall {meets : σ → ε → Prop} (always : ∀ state event, meets state event) : Along step meets s events := by
  induction events generalizing s with
  | nil => trivial
  | cons event rest ih => exact ⟨always s event, fun _ _ => ih⟩

/-- What every step that meets the condition keeps, the run before it known, holds behind every run that meets it throughout. -/
theorem invariant_along {meets : σ → ε → Prop} {holds : List ε → σ → Prop} (keeps : ∀ past state event next,
    run step s past = some state → meets state event → holds past state → step state event = some next →
    holds (past ++ [event]) next) (start : holds [] s) (along : Along step meets s events)
    (ran : run step s events = some t) : holds events t := by
  suffices goesOn : ∀ rest past state, run step s past = some state → holds past state → Along step meets state rest →
      run step state rest = some t → holds (past ++ rest) t from goesOn events [] s rfl start along ran
  intro rest
  induction rest with
  | nil =>
    intro past state reached now _ ran
    cases ran
    rwa [List.append_nil]
  | cons event rest ih =>
    intro past state reached now along ran
    obtain ⟨next, stepped, ran⟩ := run_cons_eq_some_iff.mp ran
    have behind := keeps past state event next reached along.1 now stepped
    have further := ih (past ++ [event]) next ((run_concat reached).trans stepped) behind (along.2 next stepped) ran
    rwa [List.append_assoc, List.singleton_append] at further

/-- What every step keeps, the run before it known, holds behind every run. -/
theorem invariant_reached {holds : List ε → σ → Prop} (keeps : ∀ past state event next, run step s past = some state →
    holds past state → step state event = some next → holds (past ++ [event]) next) (start : holds [] s)
    (ran : run step s events = some t) : holds events t :=
  invariant_along (fun past state event next reached _ => keeps past state event next reached) start
    (.of_forall fun _ _ => trivial) ran

section Projection

variable {step' : τ → δ → Option τ} {view : σ → τ} {label : σ → ε → Option δ}

/-- What the other machine sees of a run. -/
def trace (step : σ → ε → Option σ) (label : σ → ε → Option δ) : σ → List ε → List δ
  | _, [] => []
  | s, event :: rest => (label s event).toList ++ ((step s event).map fun next => trace step label next rest).getD []

theorem trace_concat (ran : run step s front = some t) :
    trace step label s (front ++ [event]) = trace step label s front ++ (label t event).toList := by
  induction front generalizing s with
  | nil =>
    cases ran
    rw [List.nil_append, trace, trace, List.nil_append]
    cases step t event <;> simp [trace]
  | cons first rest ih =>
    obtain ⟨next, stepped, ran⟩ := run_cons_eq_some_iff.mp ran
    rw [List.cons_append, trace, trace, stepped, Option.map_some, Option.getD_some, Option.map_some, Option.getD_some, ih ran,
      List.append_assoc]

/-- Each step is a step of the other machine under its label, or changes nothing that the other machine sees. -/
def Projects (step : σ → ε → Option σ) (step' : τ → δ → Option τ) (view : σ → τ) (label : σ → ε → Option δ) : Prop :=
  ∀ s event next, step s event = some next → match label s event with
    | none => view next = view s
    | some seen => step' (view s) seen = some (view next)

/-- Then every run is a run of the other machine. -/
theorem Projects.run (projects : Projects step step' view label) (ran : run step s events = some t) :
    Machine.run step' (view s) (trace step label s events) = some (view t) := by
  induction events generalizing s with
  | nil =>
    cases ran
    rfl
  | cons event rest ih =>
    obtain ⟨next, stepped, ran⟩ := run_cons_eq_some_iff.mp ran
    have one := projects s event next stepped
    rw [trace, stepped, Option.map_some, Option.getD_some, run_append]
    cases seen : label s event with
    | none =>
      rw [seen] at one
      rw [Option.toList_none, run_nil, Option.bind_some, ← one]
      exact ih ran
    | some seen' =>
      rw [seen] at one
      dsimp only at one
      rw [Option.toList_some, run_cons, one]
      exact ih ran

/-- A condition on the other machine's steps, read off the labels. -/
theorem Projects.along (projects : Projects step step' view label) {meets : σ → ε → Prop} {meets' : τ → δ → Prop}
    (seen : ∀ s event seen, label s event = some seen → meets s event → meets' (view s) seen)
    (ran : Machine.run step s events = some t) (along : Along step meets s events) :
    Along step' meets' (view s) (trace step label s events) := by
  induction events generalizing s with
  | nil => trivial
  | cons event rest ih =>
    obtain ⟨next, stepped, ran⟩ := run_cons_eq_some_iff.mp ran
    obtain ⟨here, along⟩ := along
    have one := projects s event next stepped
    have behind := ih ran (along next stepped)
    rw [trace, stepped, Option.map_some, Option.getD_some]
    cases found : label s event with
    | none =>
      rw [found] at one
      rwa [Option.toList_none, List.nil_append, ← one]
    | some seen' =>
      rw [found] at one
      dsimp only at one
      refine ⟨seen s event seen' found here, fun next' stepped' => ?_⟩
      obtain rfl := Option.some.inj (one.symm.trans stepped')
      exact behind

end Projection

end Machine
