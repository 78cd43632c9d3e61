import Mathlib.Algebra.GroupWithZero.Nat
import Mathlib.Algebra.Order.BigOperators.Group.List
import Mathlib.Logic.Function.Basic
import OmarchyYolo.Lib.Program

/-!
# OmarchyYolo.Lib.LockOrder — programs that take locks in one order

Programs share locks and semaphores. When each of them asks only for what ranks
above everything that it holds, and gives back what it has taken last, no set of
them can wait for each other.

* `Ordered` — a program keeps to the order, with a rule for each way of composing;
* `pool` — any number of programs that run, wait and are cancelled;
* `no_circular_wait` — nobody waits for itself, through others;
* `exists_running_holder` — whenever somebody waits, some holder does not.
-/

namespace Calls

/-- What a call does with a lock. -/
inductive LockUse (ρ : Type) where
  | none
  | acquire (r : ρ)
  | release (r : ρ)

variable {E : Type} {R : E → Type} {X α β ρ : Type}

/-! ## The order -/

section Order

variable (use : E → LockUse ρ) (rank : ρ → Nat)

/-- What is held, the last first. An acquisition that raises has taken nothing. -/
def lockHandler : Handler E R X (List ρ) := fun e held reply held' =>
  match use e, reply with
  | .acquire r, .ok _ => held' = r :: held
  | .acquire _, .error _ => held' = held
  | .release r, .ok _ => held = r :: held'
  | .release _, .error _ => False
  | .none, _ => held' = held

/-- What is asked for ranks above what is held; what is given back was taken last. -/
def Ranked (e : E) (held : List ρ) : Prop :=
  match use e with
  | .acquire r => ∀ h ∈ held, rank h < rank r
  | .release r => held.head? = some r
  | .none => True

/-- A program that keeps to the order, and ends with what it has started with. -/
def Ordered (p : Program E R X α) (held : List ρ) : Prop :=
  Ensures (lockHandler use) (Ranked use rank) p (fun _ held' => held' = held) held

variable {use rank} {held : List ρ}

theorem Ordered.pure (a : α) : Ordered use rank (Pure.pure a : Program E R X α) held := rfl

theorem Ordered.raise (x : X) : Ordered use rank (.raise x : Program E R X α) held := rfl

theorem Ordered.ofExcept (r : Except X α) :
    Ordered use rank (.ofExcept r : Program E R X α) held := ensures_ofExcept.mpr rfl

theorem Ordered.bind {p : Program E R X α} {f : α → Program E R X β}
    (hp : Ordered use rank p held) (hf : ∀ a, Ordered use rank (f a) held) :
    Ordered use rank (p >>= f) held := by
  refine Ensures.bind hp ?_ fun _ _ hsame => hsame
  rintro a _ rfl
  exact hf a

theorem Ordered.attempt {p : Program E R X α} (hp : Ordered use rank p held) :
    Ordered use rank p.attempt held := ensures_attempt.mpr hp

theorem Ordered.tryCatch {p : Program E R X α} {handler : X → Program E R X α}
    (hp : Ordered use rank p held) (hhandler : ∀ x, Ordered use rank (handler x) held) :
    Ordered use rank (p.tryCatch handler) held := by
  refine Ensures.tryCatch hp (fun _ _ hsame => hsame) ?_
  rintro x _ rfl
  exact hhandler x

theorem Ordered.ite {c : Prop} [Decidable c] {p q : Program E R X α}
    (hp : Ordered use rank p held) (hq : Ordered use rank q held) :
    Ordered use rank (if c then p else q) held := Ensures.ite (fun _ => hp) fun _ => hq

/-- Two branches with the same rest. -/
theorem Ordered.join {c : Prop} [Decidable c] {p q : Program E R X α} {f : α → Program E R X β}
    (hp : Ordered use rank p held) (hq : Ordered use rank q held)
    (hf : ∀ a, Ordered use rank (f a) held) :
    Ordered use rank (if c then p >>= f else q >>= f) held :=
  Ordered.ite (hp.bind hf) (hq.bind hf)

/-- A program that touches no lock. -/
theorem Ordered.of_makes {p : Program E R X α} (h : p.Makes fun e => use e = .none) :
    Ordered use rank p held := by
  refine h.keeps (fun e held' huse (hsame : held' = held) => ?_) ?_ rfl
  · unfold Ranked
    rw [huse]
    trivial
  · intro e held' reply held'' huse hsame hstep
    unfold lockHandler at hstep
    rw [huse] at hstep
    exact hstep.trans hsame

/-- A program among more calls. -/
theorem Ordered.embed {E' : Type} {R' : E' → Type} {use' : E' → LockUse ρ} {f : E → E'}
    {p : Program E (fun e => R' (f e)) X α} (h : Ordered (fun e => use' (f e)) rank p held) :
    Ordered use' rank (p.embed f : Program E' R' X α) held := by
  refine ensures_embed.mpr ?_
  have hhandler : (fun e => lockHandler (R := R') (X := X) use' (f e)) =
      lockHandler (R := fun e => R' (f e)) fun e => use' (f e) := by
    funext e held reply held'
    simp only [lockHandler]
    cases use' (f e) <;> cases reply <;> rfl
  rw [hhandler]
  exact h

/-- `async with`: a lock is taken, and given back however the body ends. -/
theorem Ordered.bracket {r : ρ} {enter leave : E} (henter : use enter = .acquire r)
    (hleave : use leave = .release r) (hrank : ∀ h ∈ held, rank h < rank r)
    {p : Program E R X α} (hp : Ordered use rank p (r :: held)) :
    Ordered use rank (Program.perform enter >>= fun _ => p.attempt >>= fun outcome =>
      Program.perform leave >>= fun _ => .ofExcept outcome) held := by
  -- taking the lock: its rank is above those held, and a refusal leaves them
  have htaken : Ensures (lockHandler use) (Ranked use rank)
      (Program.perform (R := R) (X := X) enter)
      (fun reply held' => match reply with
        | .ok _ => held' = r :: held
        | .error _ => held' = held) held := by
    refine ensures_perform.mpr ⟨?_, ?_⟩
    · unfold Ranked
      rw [henter]
      exact hrank
    · intro reply held' hstep
      unfold lockHandler at hstep
      rw [henter] at hstep
      cases reply with
      | ok a => exact hstep
      | error x => exact hstep
  refine htaken.bind ?_ fun _ _ hsame => hsame
  rintro a _ rfl
  -- the body returns or raises, and the lock is still the last that was taken
  have hbody : Ensures (lockHandler use) (Ranked use rank) p.attempt
      (fun outcome held' => (∃ result, outcome = .ok result) ∧ held' = r :: held) (r :: held) :=
    ensures_attempt.mpr (Ensures.imp hp fun result _ hsame => ⟨⟨result, rfl⟩, hsame⟩)
  refine hbody.bind ?_ ?_
  · rintro outcome _ ⟨-, rfl⟩
    -- giving it back: it is the last that was taken
    have hgiven : Ensures (lockHandler use) (Ranked use rank)
        (Program.perform (R := R) (X := X) leave) (fun _ held' => held' = held) (r :: held) := by
      refine ensures_perform.mpr ⟨?_, ?_⟩
      · unfold Ranked
        rw [hleave]
        rfl
      · intro reply held' hstep
        unfold lockHandler at hstep
        rw [hleave] at hstep
        cases reply with
        | ok a => exact (List.cons.inj hstep).2.symm
        | error x => exact hstep.elim
    refine hgiven.bind ?_ fun _ _ hsame => hsame
    rintro _ _ rfl
    exact Ordered.ofExcept outcome
  -- the outcome of the body is caught, so this does not happen
  · rintro x held' ⟨⟨result, hresult⟩, -⟩
    cases hresult

end Order

/-! ## Programs that share locks -/

section Pool

variable [DecidableEq ρ]

/-- A program that runs; `granted` is a unit that it has been given at the acquisition where it
is, before it runs again. -/
structure Process (E : Type) (R : E → Type) (X ρ : Type) where
  use : E → LockUse ρ
  program : Program E R X Unit
  held : List ρ := []
  granted : Option ρ := none

namespace Process

/-- What it asks for, if it is at an acquisition. -/
def wants (p : Process E R X ρ) : Option ρ :=
  match p.program with
  | .call e _ =>
    match p.use e with
    | .acquire r => some r
    | _ => none
  | _ => none

/-- The units of `r` that it has. -/
def units (p : Process E R X ρ) (r : ρ) : Nat :=
  p.held.count r + if p.granted = some r then 1 else 0

def Holds (p : Process E R X ρ) (r : ρ) : Prop := r ∈ p.held ∨ p.granted = some r

/-- What may happen to a process, and to the units that are free. -/
inductive Step (p : Process E R X ρ) (free : ρ → Nat) : Process E R X ρ → (ρ → Nat) → Prop where
  /-- A free unit is given to it. -/
  | grant {e : E} {next : Except X (R e) → Program E R X Unit} {r : ρ}
      (hcall : p.program = .call e next) (huse : p.use e = .acquire r) (hnone : p.granted = none)
      (hfree : 0 < free r) :
      Step p free { p with granted := some r } (Function.update free r (free r - 1))
  | acquired {e : E} {next : Except X (R e) → Program E R X Unit} {r : ρ}
      (hcall : p.program = .call e next) (huse : p.use e = .acquire r)
      (hgranted : p.granted = some r) (a : R e) :
      Step p free { p with program := next (.ok a), held := r :: p.held, granted := none } free
  /-- It is cancelled while it waits. -/
  | cancelled {e : E} {next : Except X (R e) → Program E R X Unit} {r : ρ}
      (hcall : p.program = .call e next) (huse : p.use e = .acquire r) (hnone : p.granted = none)
      (x : X) : Step p free { p with program := next (.error x) } free
  /-- It is cancelled when it has been given a unit: the unit is free again. -/
  | returned {e : E} {next : Except X (R e) → Program E R X Unit} {r : ρ}
      (hcall : p.program = .call e next) (huse : p.use e = .acquire r)
      (hgranted : p.granted = some r) (x : X) :
      Step p free { p with program := next (.error x), granted := none }
        (Function.update free r (free r + 1))
  | released {e : E} {next : Except X (R e) → Program E R X Unit} {r : ρ} {rest : List ρ}
      (hcall : p.program = .call e next) (huse : p.use e = .release r) (hheld : p.held = r :: rest)
      (a : R e) : Step p free { p with program := next (.ok a), held := rest }
        (Function.update free r (free r + 1))
  | other {e : E} {next : Except X (R e) → Program E R X Unit}
      (hcall : p.program = .call e next) (huse : p.use e = .none) (reply : Except X (R e)) :
      Step p free { p with program := next reply } free

end Process

/-- The processes that have been started, and the units that are free. -/
structure Pool (E : Type) (R : E → Type) (X ρ : Type) where
  free : ρ → Nat
  processes : List (Process E R X ρ) := []

/-- Processes are started at any time, and take steps in any order: the label is the position
of the one that does. -/
def pool (Start : Process E R X ρ → Prop) (capacity : ρ → Nat) :
    Lts.System (Pool E R X ρ) (Option Nat) where
  init w := w = { free := capacity }
  step w l w' := match l with
    | none => ∃ p, Start p ∧ w' = { w with processes := w.processes ++ [p] }
    | some i => ∃ p p', w.processes[i]? = some p ∧ p.Step w.free p' w'.free ∧
        w'.processes = w.processes.set i p'

namespace Pool

/-- The process at `i` waits for `r`, of which no unit is free. -/
def Waiting (w : Pool E R X ρ) (i : Nat) (r : ρ) : Prop :=
  ∃ p, w.processes[i]? = some p ∧ p.wants = some r ∧ p.granted = none ∧ w.free r = 0

def HoldsAt (w : Pool E R X ρ) (i : Nat) (r : ρ) : Prop :=
  ∃ p, w.processes[i]? = some p ∧ p.Holds r

/-- The process at `i` waits for something that the one at `j` holds. -/
def WaitsFor (w : Pool E R X ρ) (i j : Nat) : Prop := ∃ r, w.Waiting i r ∧ w.HoldsAt j r

/-- The units of `r` that the processes have. -/
def taken (w : Pool E R X ρ) (r : ρ) : Nat := (w.processes.map fun p => p.units r).sum

end Pool

/-! ## What a step keeps -/

namespace Process

variable {p p' : Process E R X ρ} {free free' : ρ → Nat} {rank : ρ → Nat}

/-- It keeps to the order from here on, and ends with nothing. -/
structure Sound (rank : ρ → Nat) (p : Process E R X ρ) : Prop where
  ordered : Ensures (lockHandler p.use) (Ranked p.use rank) p.program (fun _ held => held = [])
    p.held
  granted : ∀ r, p.granted = some r → p.wants = some r

omit [DecidableEq ρ] in
theorem wants_acquire {e : E} {next : Except X (R e) → Program E R X Unit} {r : ρ}
    (hcall : p.program = .call e next) (huse : p.use e = .acquire r) : p.wants = some r := by
  simp only [wants, hcall, huse]

omit [DecidableEq ρ] in
/-- What it wants ranks above what it holds. -/
theorem Sound.rank_lt (h : p.Sound rank) {r held : ρ} (hwants : p.wants = some r)
    (hheld : held ∈ p.held) : rank held < rank r := by
  have hordered := h.ordered
  unfold wants at hwants
  split at hwants
  · rename_i e next hcall
    rw [hcall] at hordered
    have hranked := hordered.1
    unfold Ranked at hranked
    split at hwants
    · rename_i r' huse
      rw [huse] at hranked
      cases hwants
      exact hranked held hheld
    · cases hwants
  · cases hwants

omit [DecidableEq ρ] in
theorem Sound.next (h : p.Sound rank) {e : E} {next : Except X (R e) → Program E R X Unit}
    (hcall : p.program = .call e next) (reply : Except X (R e)) {held : List ρ}
    (hstep : lockHandler p.use e p.held reply held) : Ensures (lockHandler p.use)
      (Ranked p.use rank) (next reply) (fun _ held => held = []) held := by
  have hordered := h.ordered
  rw [hcall] at hordered
  exact hordered.2 reply held hstep

omit [DecidableEq ρ] in
/-- Only at an acquisition can a unit have been given to it. -/
theorem Sound.granted_eq_none (h : p.Sound rank) {e : E}
    {next : Except X (R e) → Program E R X Unit} (hcall : p.program = .call e next)
    (huse : ∀ r, p.use e ≠ .acquire r) : p.granted = none := by
  cases hgranted : p.granted with
  | none => rfl
  | some r =>
    have hwants := h.granted r hgranted
    unfold wants at hwants
    rw [hcall] at hwants
    cases hacquire : p.use e with
    | acquire r' => exact absurd hacquire (huse r')
    | none =>
      simp only [hacquire] at hwants
      cases hwants
    | release r' =>
      simp only [hacquire] at hwants
      cases hwants

omit [DecidableEq ρ] in
/-- A program that has ended has nothing. -/
theorem Sound.not_holds_of_ended (h : p.Sound rank) (hended : ∀ e next, p.program ≠ .call e next)
    (r : ρ) : ¬ p.Holds r := by
  have hordered := h.ordered
  have hgranted : p.granted = none := by
    cases hgranted : p.granted with
    | none => rfl
    | some r =>
      have hwants := h.granted r hgranted
      unfold wants at hwants
      split at hwants
      · rename_i e next hcall
        exact absurd hcall (hended e next)
      · cases hwants
  have hheld : p.held = [] := by
    cases hprogram : p.program with
    | ret a =>
      rw [hprogram] at hordered
      exact hordered
    | raise x =>
      rw [hprogram] at hordered
      exact hordered
    | call e next => exact absurd hprogram (hended e next)
  rintro (hmem | hsome)
  · rw [hheld] at hmem
    exact List.not_mem_nil hmem
  · cases hgranted.symm.trans hsome

theorem Sound.step (h : p.Sound rank) (hstep : p.Step free p' free') : p'.Sound rank := by
  -- by the step: what was ordered before is ordered after the answer
  cases hstep with
  | grant hcall huse hnone hfree =>
    refine ⟨h.ordered, ?_⟩
    intro r' hgranted
    obtain rfl := Option.some.inj hgranted
    exact wants_acquire (p := p) hcall huse
  | acquired hcall huse hgranted a =>
    refine ⟨h.next hcall (.ok a) ?_, nofun⟩
    unfold lockHandler
    rw [huse]
  | cancelled hcall huse hnone x =>
    refine ⟨h.next hcall (.error x) ?_, ?_⟩
    · unfold lockHandler
      rw [huse]
    · intro r' hgranted
      cases hnone.symm.trans hgranted
  | returned hcall huse hgranted x =>
    refine ⟨h.next hcall (.error x) ?_, nofun⟩
    unfold lockHandler
    rw [huse]
  | released hcall huse hheld a =>
    refine ⟨h.next hcall (.ok a) ?_, ?_⟩
    · unfold lockHandler
      rw [huse]
      exact hheld
    · have hnone := h.granted_eq_none hcall (by rw [huse]; exact fun r => nofun)
      intro r' hgranted
      cases hnone.symm.trans hgranted
  | other hcall huse reply =>
    refine ⟨h.next hcall reply ?_, ?_⟩
    · unfold lockHandler
      rw [huse]
    · have hnone := h.granted_eq_none hcall (by rw [huse]; exact fun r => nofun)
      intro r' hgranted
      cases hnone.symm.trans hgranted

/-- The units that a process gets were free, and those it gives back are. -/
theorem Step.units (h : p.Step free p' free') (r : ρ) :
    free' r + p'.units r = free r + p.units r := by
  have hno : (none : Option ρ) ≠ some r := nofun
  -- by the step: a unit moves between the pool, the process' waiting and its holding
  cases h with
  -- granted: the unit leaves the pool for the process
  | @grant e next r' hcall huse hnone hfree =>
    show Function.update free r' (free r' - 1) r +
      (p.held.count r + if some r' = some r then 1 else 0) = free r + p.units r
    rw [units, hnone, if_neg hno]
    by_cases hr : r = r'
    · rw [hr, Function.update_self, if_pos rfl]
      omega
    · rw [Function.update_of_ne hr, if_neg (fun heq => hr (Option.some.inj heq).symm)]
  -- acquired: the granted unit is held
  | @acquired e next r' hcall huse hgranted a =>
    show free r + ((r' :: p.held).count r + if none = some r then 1 else 0) = free r + p.units r
    rw [units, hgranted, if_neg hno, List.count_cons]
    by_cases hr : r = r'
    · rw [hr, if_pos rfl, if_pos (beq_self_eq_true r')]
    · rw [if_neg (fun heq => hr (Option.some.inj heq).symm),
        if_neg (fun heq => hr (beq_iff_eq.mp heq).symm)]
  -- cancelled before the grant: nothing has moved
  | cancelled hcall huse hnone x => rfl
  -- cancelled after it: the unit goes back
  | @returned e next r' hcall huse hgranted x =>
    show Function.update free r' (free r' + 1) r +
      (p.held.count r + if none = some r then 1 else 0) = free r + p.units r
    rw [units, hgranted, if_neg hno]
    by_cases hr : r = r'
    · rw [hr, Function.update_self, if_pos rfl]
      omega
    · rw [Function.update_of_ne hr, if_neg (fun heq => hr (Option.some.inj heq).symm)]
  -- released: the unit goes back
  | @released e next r' rest hcall huse hheld a =>
    show Function.update free r' (free r' + 1) r +
      (rest.count r + if p.granted = some r then 1 else 0) = free r + p.units r
    rw [units, hheld, List.count_cons]
    by_cases hr : r = r'
    · rw [hr, Function.update_self, if_pos (beq_self_eq_true r')]
      omega
    · rw [Function.update_of_ne hr, if_neg (fun heq => hr (beq_iff_eq.mp heq).symm)]
      rfl
  | other hcall huse reply => rfl

theorem holds_iff {r : ρ} : p.Holds r ↔ 0 < p.units r := by
  unfold Holds units
  rw [← List.count_pos_iff]
  by_cases hgranted : p.granted = some r
  · rw [if_pos hgranted]
    constructor
    · intro _
      omega
    · intro _
      exact Or.inr hgranted
  · rw [if_neg hgranted, Nat.add_zero]
    constructor
    · intro h
      rcases h with h | h
      · exact h
      · exact absurd h hgranted
    · exact Or.inl

end Process

/-- What the members of a list add up to, after one of them has changed. -/
theorem sum_map_set {γ : Type} (f : γ → Nat) {l : List γ} {i : Nat} {a b : γ}
    (h : l[i]? = some a) : ((l.set i b).map f).sum + f a = (l.map f).sum + f b := by
  induction l generalizing i with
  | nil => cases h
  | cons c l ih =>
    cases i with
    | zero =>
      have hhead : c = a := Option.some.inj h
      subst hhead
      show f b + (l.map f).sum + f c = f c + (l.map f).sum + f b
      omega
    | succ i =>
      have htail := ih h
      show f c + ((l.set i b).map f).sum + f a = f c + (l.map f).sum + f b
      omega

/-! ## Runs -/

section Runs

variable {Start : Process E R X ρ → Prop} {capacity : ρ → Nat} {rank : ρ → Nat}
  {w w' : Pool E R X ρ}

/-- What carries the pool through its steps. -/
structure Pool.Inv (rank capacity : ρ → Nat) (w : Pool E R X ρ) : Prop where
  sound : ∀ p ∈ w.processes, p.Sound rank
  units : ∀ r, w.free r + w.taken r = capacity r

variable (hstart : ∀ p, Start p → p.held = [] ∧ p.granted = none ∧ Ordered p.use rank p.program [])

include hstart

theorem Pool.Inv.step (h : w.Inv rank capacity) {l : Option Nat}
    (hstep : (pool Start capacity).step w l w') : w'.Inv rank capacity := by
  -- a process starts, or one of those that run takes a step
  cases l with
  | none =>
    obtain ⟨p, hp, rfl⟩ := hstep
    obtain ⟨hheld, hgranted, hordered⟩ := hstart p hp
    constructor
    · intro q hq
      rcases List.mem_append.mp hq with hq | hq
      · exact h.sound q hq
      · obtain rfl := List.mem_singleton.mp hq
        -- it holds nothing, and has been granted nothing
        refine ⟨?_, fun r hr => ?_⟩
        · rw [hheld]
          exact hordered
        · cases hgranted.symm.trans hr
    · intro r
      -- so it takes no unit
      have hnone : p.units r = 0 := by
        rw [Process.units, hheld, hgranted]
        rfl
      have hunits := h.units r
      unfold Pool.taken at hunits ⊢
      show w.free r + ((w.processes ++ [p]).map _).sum = capacity r
      rw [List.map_append, List.sum_append, List.map_singleton, List.sum_singleton, hnone]
      omega
  | some i =>
    obtain ⟨p, p', hp, hone, hprocesses⟩ := hstep
    constructor
    · intro q hq
      rw [hprocesses] at hq
      rcases List.mem_or_eq_of_mem_set hq with hq | rfl
      · exact h.sound q hq
      · exact (h.sound p (List.mem_of_getElem? hp)).step hone
    -- the units of the others are as before
    · intro r
      have hsum := sum_map_set (fun q => q.units r) (b := p') hp
      have hunits := h.units r
      have hmoved := hone.units r
      unfold Pool.taken at hunits ⊢
      rw [hprocesses]
      omega

theorem pool_inv (h : (pool Start capacity).Reachable w) : w.Inv rank capacity := by
  apply h.invariant
  · rintro w rfl
    exact ⟨fun p hp => absurd hp List.not_mem_nil, fun r => rfl⟩
  · intro w l w' _ hinv hstep
    exact hinv.step hstart hstep

omit hstart in
/-- What a holder waits for ranks above what it holds. -/
theorem Pool.Inv.rank_lt (h : w.Inv rank capacity) {j : Nat} {r r' : ρ}
    (hholds : w.HoldsAt j r) (hwaiting : w.Waiting j r') : rank r < rank r' := by
  obtain ⟨p, hp, hholds⟩ := hholds
  obtain ⟨q, hq, hwants, hnone, -⟩ := hwaiting
  obtain rfl : p = q := Option.some.inj (hp.symm.trans hq)
  rcases hholds with hheld | hgranted
  · exact (h.sound p (List.mem_of_getElem? hp)).rank_lt hwants hheld
  · cases hnone.symm.trans hgranted

omit hstart [DecidableEq ρ] in
/-- A process waits for one thing. -/
theorem Pool.Waiting.eq {i : Nat} {r r' : ρ} (h : w.Waiting i r) (h' : w.Waiting i r') :
    r = r' := by
  obtain ⟨p, hp, hwants, -⟩ := h
  obtain ⟨q, hq, hwants', -⟩ := h'
  obtain rfl : p = q := Option.some.inj (hp.symm.trans hq)
  exact Option.some.inj (hwants.symm.trans hwants')

omit hstart in
/-- Along a chain of processes that wait for each other, the rank of what they wait for rises. -/
theorem Pool.Inv.rank_lt_of_chain (h : w.Inv rank capacity) {i j : Nat}
    (hchain : Relation.TransGen w.WaitsFor i j) {r r' : ρ} (hi : w.Waiting i r)
    (hj : w.Waiting j r') : rank r < rank r' := by
  induction hchain generalizing r' with
  | single hone =>
    obtain ⟨s, hwaiting, hholds⟩ := hone
    rw [hi.eq hwaiting]
    exact h.rank_lt hholds hj
  | tail _ hone ih =>
    obtain ⟨s, hwaiting, hholds⟩ := hone
    exact (ih hwaiting).trans (h.rank_lt hholds hj)

/-- What has ended holds nothing. -/
theorem exists_call_of_holdsAt (hreach : (pool Start capacity).Reachable w) {j : Nat} {r : ρ}
    (hholds : w.HoldsAt j r) :
    ∃ p e next, w.processes[j]? = some p ∧ p.program = .call e next := by
  have hinv : w.Inv rank capacity := pool_inv hstart hreach
  obtain ⟨p, hp, hholds⟩ := hholds
  by_contra hnone
  refine (hinv.sound p (List.mem_of_getElem? hp)).not_holds_of_ended ?_ r hholds
  intro e next hcall
  exact hnone ⟨p, e, next, hp, hcall⟩

/-- Nobody waits for itself, through others. -/
theorem no_circular_wait (hreach : (pool Start capacity).Reachable w) (i : Nat) :
    ¬ Relation.TransGen w.WaitsFor i i := by
  intro hchain
  have hinv : w.Inv rank capacity := pool_inv hstart hreach
  obtain ⟨r, hwaiting⟩ : ∃ r, w.Waiting i r := by
    rcases Relation.TransGen.head'_iff.mp hchain with ⟨j, ⟨r, hwaiting, -⟩, -⟩
    exact ⟨r, hwaiting⟩
  exact absurd (hinv.rank_lt_of_chain hchain hwaiting hwaiting) (Nat.lt_irrefl _)

omit hstart in
/-- What is waited for, somebody holds. -/
theorem Pool.Inv.exists_holder (h : w.Inv rank capacity) {i : Nat} {r : ρ}
    (hcapacity : 0 < capacity r) (hwaiting : w.Waiting i r) : ∃ j, w.HoldsAt j r := by
  obtain ⟨p, -, -, -, hfree⟩ := hwaiting
  have hunits := h.units r
  have hpos : 0 < w.taken r := by omega
  by_contra hnone
  have hzero : w.taken r = 0 := by
    apply List.sum_eq_zero
    intro n hn
    obtain ⟨q, hq, rfl⟩ := List.mem_map.mp hn
    obtain ⟨j, hj⟩ := List.mem_iff_getElem?.mp hq
    by_contra hne
    exact hnone ⟨j, q, hj, Process.holds_iff.mpr (Nat.pos_of_ne_zero hne)⟩
  omega

/-- Whenever somebody waits, somebody who holds something does not wait. -/
theorem exists_running_holder (hreach : (pool Start capacity).Reachable w)
    (hcapacity : ∀ r, 0 < capacity r) {bound : Nat} (hbound : ∀ r, rank r < bound) {i : Nat} {r : ρ}
    (hwaiting : w.Waiting i r) : ∃ j r', w.HoldsAt j r' ∧ ∀ r'', ¬ w.Waiting j r'' := by
  have hinv : w.Inv rank capacity := pool_inv hstart hreach
  -- the higher what is waited for ranks, the fewer can be waiting above it
  induction hn : bound - rank r using Nat.strong_induction_on generalizing i r with
  | _ n ih =>
    obtain ⟨j, hholds⟩ := hinv.exists_holder (hcapacity r) hwaiting
    by_cases hwaits : ∃ r', w.Waiting j r'
    · obtain ⟨r', hr'⟩ := hwaits
      have hlt := hinv.rank_lt hholds hr'
      have hr := hbound r'
      exact ih (bound - rank r') (by omega) hr' rfl
    · exact ⟨j, r, hholds, not_exists.mp hwaits⟩

end Runs

end Pool

end Calls
