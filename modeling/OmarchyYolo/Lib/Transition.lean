import Mathlib.Logic.Relation

/-!
# OmarchyYolo.Lib.Transition — labelled transition systems

Reachable states of a system that takes labelled steps, and the rules by which
what one step preserves is carried over whole runs.

* `System.Reachable.invariant` — an inductive invariant;
* `System.steps_invariant` — the same for the runs from one reachable state;
* `System.steps_of_foldlM` — the run of a list of instructions;
* `System.restrict` — the runs all of whose steps meet a condition.
-/

namespace Lts

/-- Initial states, and the steps between states. -/
structure System (σ ℓ : Type*) where
  init : σ → Prop
  step : σ → ℓ → σ → Prop

namespace System

variable {σ ℓ : Type*} {S : System σ ℓ}

/-- One step, whatever its label. -/
def Step (S : System σ ℓ) (s t : σ) : Prop := ∃ l, S.step s l t

/-- Any number of steps. -/
abbrev Steps (S : System σ ℓ) : σ → σ → Prop := Relation.ReflTransGen S.Step

/-- The states of runs from an initial state. -/
def Reachable (S : System σ ℓ) (s : σ) : Prop := ∃ s₀, S.init s₀ ∧ S.Steps s₀ s

theorem reachable_init {s : σ} (h : S.init s) : S.Reachable s := ⟨s, h, .refl⟩

theorem Reachable.step {s t : σ} {l : ℓ} (h : S.Reachable s) (hstep : S.step s l t) :
    S.Reachable t := by
  obtain ⟨s₀, hinit, hsteps⟩ := h
  exact ⟨s₀, hinit, hsteps.tail ⟨l, hstep⟩⟩

theorem Reachable.steps {s t : σ} (h : S.Reachable s) (hsteps : S.Steps s t) : S.Reachable t := by
  obtain ⟨s₀, hinit, hbefore⟩ := h
  exact ⟨s₀, hinit, hbefore.trans hsteps⟩

/-- What holds initially and is preserved by steps between reachable states. -/
theorem Reachable.invariant {Inv : σ → Prop} (hinit : ∀ s, S.init s → Inv s)
    (hstep : ∀ s l t, S.Reachable s → Inv s → S.step s l t → Inv t) {s : σ}
    (h : S.Reachable s) : Inv s := by
  obtain ⟨s₀, hs₀, hsteps⟩ := h
  induction hsteps with
  | refl => exact hinit s₀ hs₀
  | tail hbefore hlast ih =>
    obtain ⟨l, hlast⟩ := hlast
    exact hstep _ l _ ⟨s₀, hs₀, hbefore⟩ ih hlast

/-- What holds of a reachable state and is preserved by steps holds of all later
states. -/
theorem steps_invariant (Inv : σ → Prop) {s t : σ} (h : S.Steps s t) (hs : S.Reachable s)
    (hinv : Inv s) (hstep : ∀ t l u, S.Reachable t → Inv t → S.step t l u → Inv u) : Inv t := by
  induction h with
  | refl => exact hinv
  | tail hbefore hlast ih =>
    obtain ⟨l, hlast⟩ := hlast
    exact hstep _ l _ (hs.steps hbefore) ih hlast

/-- A list of instructions is a run, where a function computes steps from them. -/
theorem steps_of_foldlM {ι : Type*} {next : σ → ι → Option σ}
    (hnext : ∀ s i t, next s i = some t → S.Step s t) {instructions : List ι} {s t : σ}
    (h : instructions.foldlM next s = some t) : S.Steps s t := by
  induction instructions generalizing s with
  | nil =>
    cases h
    exact .refl
  | cons i instructions ih =>
    rw [List.foldlM_cons] at h
    obtain ⟨u, hu, h⟩ := Option.bind_eq_some_iff.mp h
    exact .head (hnext s i u hu) (ih h)

/-- The steps that meet a condition. -/
def restrict (S : System σ ℓ) (allowed : σ → ℓ → Prop) : System σ ℓ where
  init := S.init
  step s l t := S.step s l t ∧ allowed s l

theorem restrict_steps {allowed : σ → ℓ → Prop} {s t : σ} (h : (S.restrict allowed).Steps s t) :
    S.Steps s t := by
  induction h with
  | refl => exact .refl
  | tail _ hlast ih =>
    obtain ⟨l, hstep⟩ := hlast
    exact ih.tail ⟨l, hstep.1⟩

theorem restrict_reachable {allowed : σ → ℓ → Prop} {s : σ}
    (h : (S.restrict allowed).Reachable s) : S.Reachable s := by
  obtain ⟨s₀, hinit, hsteps⟩ := h
  exact ⟨s₀, hinit, restrict_steps hsteps⟩

end System

end Lts
