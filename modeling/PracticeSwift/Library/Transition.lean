import Mathlib.Data.List.Basic

/-!
# Labelled transition systems

A `System` is a start predicate and a step relation whose labels say what happened: the operation,
its arguments, and whatever the environment decided (a failed call, an outcome, a clock).  A run is
described by its history, the newest label first, so that a property of histories is a recursion
on lists.  This file gives the two rules every development over runs needs: a history-indexed
invariant is carried by its step lemma (`Run.invariant`), and a simulation lifts to runs
(`Simulates.run`).
-/

namespace Transition

/-- The states a system may start in, and its labelled steps. -/
structure System (σ ε : Type*) where
  start : σ → Prop
  step : σ → ε → σ → Prop

namespace System

variable {σ τ ε δ : Type*} {S : System σ ε} {T : System τ δ}

/-- `S.Run past s`: the labels `past`, newest first, lead from a start state to `s`. -/
inductive Run (S : System σ ε) : List ε → σ → Prop
  | start {s : σ} (h : S.start s) : Run S [] s
  | step {past : List ε} {s s' : σ} {e : ε} (h : Run S past s) (hs : S.step s e s') :
      Run S (e :: past) s'

/-- An invariant that may speak of the history holds of every run as soon as it holds at the start
and every step of a run preserves it. -/
theorem Run.invariant {I : List ε → σ → Prop} (start : ∀ s, S.start s → I [] s)
    (step : ∀ past s e s', S.Run past s → I past s → S.step s e s' → I (e :: past) s')
    {past : List ε} {s : σ} (h : S.Run past s) : I past s := by
  induction h with
  | start h => exact start _ h
  | step h hs ih => exact step _ _ _ _ h ih hs

/-- The same rule for a predicate of the state alone. -/
theorem Run.preserves {I : σ → Prop} (start : ∀ s, S.start s → I s)
    (step : ∀ s e s', I s → S.step s e s' → I s') {past : List ε} {s : σ} (h : S.Run past s) :
    I s :=
  h.invariant (I := fun _ => I) start fun _ s e s' _ => step s e s'

/-- With one start state and at most one outcome of each step, a history leads to one state. -/
theorem Run.unique (start : ∀ s s', S.start s → S.start s' → s = s')
    (step : ∀ s e s₁ s₂, S.step s e s₁ → S.step s e s₂ → s₁ = s₂) {past : List ε} {s s' : σ}
    (h : S.Run past s) (h' : S.Run past s') : s = s' := by
  induction h generalizing s' with
  | start hs =>
    cases h' with
    | start hs' => exact start _ _ hs hs'
  | step _ hs ih =>
    cases h' with
    | step h' hs' =>
      obtain rfl := ih h'
      exact step _ _ _ _ hs hs'

/-- The same system, started in the state `s`. -/
def after (S : System σ ε) (s : σ) : System σ ε where
  start s₀ := s₀ = s
  step := S.step

/-- What every step preserves holds from a state on. -/
theorem Run.carries {I : σ → Prop} {s s' : σ} {later : List ε} (h : (S.after s).Run later s')
    (step : ∀ s e s', I s → S.step s e s' → I s') (hs : I s) : I s' := by
  have hstart : ∀ s₀, (S.after s).start s₀ → I s₀ := by
    rintro _ rfl
    exact hs
  exact Run.preserves hstart step h

/-- A run continued is a run. -/
theorem Run.append {past later : List ε} {s s' : σ} (h : S.Run past s)
    (h' : (S.after s).Run later s') : S.Run (later ++ past) s' := by
  induction h' with
  | start hs =>
    obtain rfl := hs
    exact h
  | step _ hs ih => exact ih.step hs

/-- Where the steps of a step function lead from `s`, if all of them can be taken. -/
def runs (step : σ → ε → Option σ) (s : σ) : List ε → Option σ
  | [] => some s
  | e :: past => (runs step s past).bind fun s => step s e

/-- The runs of a system whose steps are those of a function can be computed. -/
theorem Run.of_runs {step : σ → ε → Option σ} (hstep : ∀ s e s', step s e = some s' → S.step s e s')
    {past : List ε} {s s' : σ} (hs : S.start s) (h : runs step s past = some s') :
    S.Run past s' := by
  induction past generalizing s' with
  | nil =>
    obtain rfl := Option.some.inj h
    exact .start hs
  | cons e past ih =>
    obtain ⟨t, ht, h⟩ := Option.bind_eq_some_iff.1 h
    exact .step (ih ht) (hstep _ _ _ h)

/-- `T` does, under the labels renamed by `f`, what `S` does, along the relation `R`. -/
structure Simulates (S : System σ ε) (T : System τ δ) (f : ε → δ) (R : σ → τ → Prop) : Prop where
  start : ∀ s, S.start s → ∃ t, T.start t ∧ R s t
  step : ∀ s t e s', R s t → S.step s e s' → ∃ t', T.step t (f e) t' ∧ R s' t'

/-- A simulation carries every run over to the run with the renamed labels. -/
theorem Simulates.run {f : ε → δ} {R : σ → τ → Prop} (h : Simulates S T f R) {past : List ε}
    {s : σ} (hs : S.Run past s) : ∃ t, T.Run (past.map f) t ∧ R s t := by
  induction hs with
  | start hs =>
    obtain ⟨t, ht, hR⟩ := h.start _ hs
    exact ⟨t, .start ht, hR⟩
  | step _ hs ih =>
    obtain ⟨t, ht, hR⟩ := ih
    obtain ⟨t', ht', hR'⟩ := h.step _ _ _ _ hR hs
    exact ⟨t', .step ht ht', hR'⟩

/-- The stuttering form: labels that `f` drops leave the related state alone, and a run of `S` is one
of `T` on the other labels. -/
theorem Run.project {f : ε → Option δ} {R : σ → τ → Prop}
    (start : ∀ s, S.start s → ∃ t, T.start t ∧ R s t)
    (silent : ∀ s t e s', f e = none → R s t → S.step s e s' → R s' t)
    (step : ∀ s t e d s', f e = some d → R s t → S.step s e s' → ∃ t', T.step t d t' ∧ R s' t')
    {past : List ε} {s : σ} (h : S.Run past s) : ∃ t, T.Run (past.filterMap f) t ∧ R s t := by
  induction h with
  | start hs =>
    obtain ⟨t, ht, hR⟩ := start _ hs
    exact ⟨t, .start ht, hR⟩
  | @step past s s' e _ hs ih =>
    obtain ⟨t, ht, hR⟩ := ih
    cases he : f e with
    | none =>
      rw [List.filterMap_cons_none he]
      exact ⟨t, ht, silent _ _ _ _ he hR hs⟩
    | some d =>
      rw [List.filterMap_cons_some he]
      obtain ⟨t', ht', hR'⟩ := step _ _ _ _ _ he hR hs
      exact ⟨t', .step ht ht', hR'⟩

end System

end Transition
