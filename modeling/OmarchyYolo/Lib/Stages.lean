import OmarchyYolo.Lib.Program

/-!
# OmarchyYolo.Lib.Stages — programs made of stages

A program over stages becomes a program over calls when each stage is a program of its own.
What is said of the program of the stages, for all that they may come to, is said of every
run of the program of the calls.

* `Program.interpret` — the stages replaced by their programs, with its laws;
* `Program.Comes` — the calls of a run, with their replies, and its end;
* `Program.Comes.stages` — a run of calls is a run of stages.
-/

namespace Calls

variable {E E' : Type} {R : E → Type} {R' : E' → Type} {X α β γ : Type}

namespace Program

/-- Every call is replaced by a program that comes to its reply. -/
def interpret (stage : (e : E) → Program E' R' X (R e)) :
    Program E R X α → Program E' R' X α
  | ret a => ret a
  | raise x => raise x
  | call e next => (stage e).attempt >>= fun r => (next r).interpret stage

section Laws

theorem bind_assoc (p : Program E R X α) (f : α → Program E R X β)
    (g : β → Program E R X γ) : p >>= f >>= g = p >>= fun a => f a >>= g := by
  induction p with
  | ret a => rfl
  | raise x => rfl
  | call e next ih =>
    show call e _ = call e _
    congr 1
    funext r
    exact ih r

/-- An outcome that is taken and given back. -/
theorem attempt_ofExcept (p : Program E R X α) : p.attempt >>= ofExcept = p := by
  induction p with
  | ret a => rfl
  | raise x => rfl
  | call e next ih =>
    show call e _ = call e _
    congr 1
    funext r
    exact ih r

variable (stage : (e : E) → Program E' R' X (R e))

@[simp] theorem interpret_ret (a : α) : (ret a : Program E R X α).interpret stage = ret a := rfl

@[simp] theorem interpret_pure (a : α) :
    (pure a : Program E R X α).interpret stage = pure a := rfl

@[simp] theorem interpret_raise (x : X) :
    (raise x : Program E R X α).interpret stage = raise x := rfl

theorem interpret_ofExcept (r : Except X α) :
    (ofExcept r : Program E R X α).interpret stage = ofExcept r := by
  cases r with
  | ok a => rfl
  | error x => rfl

theorem interpret_perform (e : E) :
    (perform e : Program E R X (R e)).interpret stage = stage e := by
  have hnext : (fun r => (ofExcept r : Program E R X (R e)).interpret stage) = ofExcept := by
    funext r
    exact interpret_ofExcept stage r
  show ((stage e).attempt >>= fun r => (ofExcept r : Program E R X (R e)).interpret stage) = _
  rw [hnext]
  exact attempt_ofExcept _

theorem interpret_bind (p : Program E R X α) (f : α → Program E R X β) :
    (p >>= f).interpret stage = p.interpret stage >>= fun a => (f a).interpret stage := by
  induction p with
  | ret a => rfl
  | raise x => rfl
  | call e next ih =>
    show ((stage e).attempt >>= fun r => (next r >>= f).interpret stage) =
      ((stage e).attempt >>= fun r => (next r).interpret stage) >>= fun a => (f a).interpret stage
    rw [bind_assoc]
    congr 1
    funext r
    exact ih r

theorem interpret_ite {c : Prop} [Decidable c] (p q : Program E R X α) :
    (if c then p else q).interpret stage =
      if c then p.interpret stage else q.interpret stage := by
  split
  · rfl
  · rfl

end Laws

/-! ## Runs -/

/-- The program may make the calls, with these replies, and end so. -/
def Comes : Program E R X α → List (Reply E R X) → Except X α → Prop
  | ret a, calls, r => calls = [] ∧ r = .ok a
  | raise x, calls, r => calls = [] ∧ r = .error x
  | call e next, calls, r =>
    ∃ reply rest, calls = ⟨e, reply⟩ :: rest ∧ (next reply).Comes rest r

variable {calls : List (Reply E R X)}

@[simp] theorem comes_ret {a : α} {r : Except X α} :
    (ret a : Program E R X α).Comes calls r ↔ calls = [] ∧ r = .ok a := Iff.rfl

@[simp] theorem comes_pure {a : α} {r : Except X α} :
    (pure a : Program E R X α).Comes calls r ↔ calls = [] ∧ r = .ok a := Iff.rfl

@[simp] theorem comes_raise {x : X} {r : Except X α} :
    (raise x : Program E R X α).Comes calls r ↔ calls = [] ∧ r = .error x := Iff.rfl

theorem comes_ofExcept {r r' : Except X α} :
    (ofExcept r : Program E R X α).Comes calls r' ↔ calls = [] ∧ r' = r := by
  cases r with
  | ok a => exact Iff.rfl
  | error x => exact Iff.rfl

/-- A program is one call long. -/
theorem comes_perform {e : E} {r : Except X (R e)} :
    (perform e : Program E R X (R e)).Comes calls r ↔ calls = [⟨e, r⟩] := by
  constructor
  · rintro ⟨reply, rest, rfl, hrest⟩
    obtain ⟨rfl, rfl⟩ := comes_ofExcept.mp hrest
    rfl
  · rintro rfl
    exact ⟨r, [], rfl, comes_ofExcept.mpr ⟨rfl, rfl⟩⟩

/-- How a run goes on after the first of two programs. -/
def ComesAfter (f : α → Program E R X β) (calls : List (Reply E R X)) (r : Except X β) :
    Except X α → Prop
  | .ok a => (f a).Comes calls r
  | .error x => calls = [] ∧ r = .error x

theorem comes_bind {p : Program E R X α} {f : α → Program E R X β} {r : Except X β} :
    (p >>= f).Comes calls r ↔ ∃ first last mid, calls = first ++ last ∧ p.Comes first mid ∧
      ComesAfter f last r mid := by
  induction p generalizing calls with
  | ret a =>
    constructor
    · intro h
      exact ⟨[], calls, .ok a, rfl, ⟨rfl, rfl⟩, h⟩
    · rintro ⟨first, last, mid, rfl, ⟨rfl, rfl⟩, hlast⟩
      exact hlast
  | raise x =>
    constructor
    · rintro ⟨rfl, rfl⟩
      exact ⟨[], [], .error x, rfl, ⟨rfl, rfl⟩, rfl, rfl⟩
    · rintro ⟨first, last, mid, rfl, ⟨rfl, rfl⟩, rfl, rfl⟩
      exact ⟨rfl, rfl⟩
  | call e next ih =>
    constructor
    · rintro ⟨reply, rest, rfl, hrest⟩
      obtain ⟨first, last, mid, rfl, hfirst, hlast⟩ := (ih reply).mp hrest
      exact ⟨⟨e, reply⟩ :: first, last, mid, rfl, ⟨reply, first, rfl, hfirst⟩, hlast⟩
    · rintro ⟨first, last, mid, rfl, ⟨reply, rest, rfl, hrest⟩, hlast⟩
      exact ⟨reply, rest ++ last, rfl, (ih reply).mpr ⟨rest, last, mid, rfl, hrest, hlast⟩⟩

/-- A call, and the rest of the program. -/
theorem comes_perform_bind {e : E} {f : R e → Program E R X β} {r : Except X β} :
    (perform e >>= f).Comes calls r ↔ ∃ reply rest, calls = ⟨e, reply⟩ :: rest ∧
      ComesAfter f rest r reply := by
  rw [comes_bind]
  constructor
  · rintro ⟨first, last, mid, rfl, hfirst, hlast⟩
    rw [comes_perform.mp hfirst]
    exact ⟨mid, last, rfl, hlast⟩
  · rintro ⟨reply, rest, rfl, hrest⟩
    exact ⟨[⟨e, reply⟩], rest, reply, rfl, comes_perform.mpr rfl, hrest⟩

theorem comes_attempt {p : Program E R X α} {r : Except X (Except X α)} :
    p.attempt.Comes calls r ↔ ∃ r', r = .ok r' ∧ p.Comes calls r' := by
  induction p generalizing calls with
  | ret a =>
    constructor
    · rintro ⟨rfl, rfl⟩
      exact ⟨.ok a, rfl, rfl, rfl⟩
    · rintro ⟨r', rfl, rfl, rfl⟩
      exact ⟨rfl, rfl⟩
  | raise x =>
    constructor
    · rintro ⟨rfl, rfl⟩
      exact ⟨.error x, rfl, rfl, rfl⟩
    · rintro ⟨r', rfl, rfl, rfl⟩
      exact ⟨rfl, rfl⟩
  | call e next ih =>
    constructor
    · rintro ⟨reply, rest, rfl, hrest⟩
      obtain ⟨r', hr', hcomes⟩ := (ih reply).mp hrest
      exact ⟨r', hr', reply, rest, rfl, hcomes⟩
    · rintro ⟨r', hr', reply, rest, rfl, hcomes⟩
      exact ⟨reply, rest, rfl, (ih reply).mpr ⟨r', hr', hcomes⟩⟩

/-- The stages, and the calls that each of them has made. -/
inductive Staged (stage : (e : E) → Program E' R' X (R e)) :
    List (Reply E R X) → List (Reply E' R' X) → Prop
  | nil : Staged stage [] []
  | cons {e : E} {reply : Except X (R e)} {stages : List (Reply E R X)}
      {own rest : List (Reply E' R' X)} (first : (stage e).Comes own reply)
      (others : Staged stage stages rest) : Staged stage (⟨e, reply⟩ :: stages) (own ++ rest)

/-- A run of the calls is a run of the stages. -/
theorem Comes.stages {stage : (e : E) → Program E' R' X (R e)} {p : Program E R X α}
    {calls : List (Reply E' R' X)} {r : Except X α} (h : (p.interpret stage).Comes calls r) :
    ∃ stages, p.Comes stages r ∧ Staged stage stages calls := by
  induction p generalizing calls with
  | ret a =>
    obtain ⟨rfl, rfl⟩ := h
    exact ⟨[], ⟨rfl, rfl⟩, .nil⟩
  | raise x =>
    obtain ⟨rfl, rfl⟩ := h
    exact ⟨[], ⟨rfl, rfl⟩, .nil⟩
  | call e next ih =>
    obtain ⟨first, last, mid, rfl, hfirst, hlast⟩ := comes_bind.mp h
    obtain ⟨reply, rfl, hcomes⟩ := comes_attempt.mp hfirst
    obtain ⟨stages, hstages, hstaged⟩ := ih reply hlast
    exact ⟨⟨e, reply⟩ :: stages, ⟨reply, stages, rfl, hstages⟩, .cons hcomes hstaged⟩

end Program

end Calls
