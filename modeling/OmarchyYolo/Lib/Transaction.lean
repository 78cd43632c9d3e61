import Mathlib.Control.Monad.Basic

/-!
# OmarchyYolo.Lib.Transaction — statements, transactions and rollback

A statement reads and writes a state and may raise. Two monads tell apart what
an exception does to the writes before it:

* `Tx ε σ` — inside a transaction: an exception abandons them (the state it
  would leave is never looked at);
* `Db ε σ` — outside: every write made so far stays.

`transaction` runs the first kind as one step of the second, which either
commits all writes of its body or none.
-/

namespace Txn

/-- Statements inside a transaction. -/
abbrev Tx (ε σ α : Type) := StateT σ (Except ε) α

/-- Statements that take effect one by one. -/
abbrev Db (ε σ α : Type) := EStateM ε σ α

variable {ε σ α β : Type}

/-- `BEGIN IMMEDIATE; body; COMMIT`, with `ROLLBACK` when the body raises. -/
def transaction (body : Tx ε σ α) : Db ε σ α := fun s =>
  match body s with
  | .ok (a, s') => .ok a s'
  | .error e => .error e s

/-- `if condition: raise e`. -/
def raiseIf (condition : Prop) [Decidable condition] (e : ε) : Tx ε σ Unit :=
  if condition then throw e else pure ()

/-- The value of a function that may raise. -/
def lift (x : Except ε α) : Tx ε σ α := fun s => x.map fun a => (a, s)

/-- The value of an optional result, or an exception. -/
def orRaise (x : Option α) (e : ε) : Tx ε σ α :=
  match x with
  | some a => pure a
  | none => throw e

/-- A query. -/
def query (f : σ → α) : Tx ε σ α := fun s => .ok (f s, s)

/-- A write, with its result. -/
def write (f : σ → α × σ) : Tx ε σ α := fun s => .ok (f s)

/-- A write that a constraint may refuse. -/
def writeOrRaise (f : σ → Option σ) (e : ε) : Tx ε σ Unit := fun s =>
  match f s with
  | some s' => .ok ((), s')
  | none => .error e

/-! ## Taking a successful body apart -/

@[simp] theorem tx_bind_ok_iff {x : Tx ε σ α} {f : α → Tx ε σ β} {s : σ} {r : β × σ} :
    (x >>= f) s = .ok r ↔ ∃ a s', x s = .ok (a, s') ∧ f a s' = .ok r := by
  change (x s >>= fun p => f p.1 p.2) = .ok r ↔ _
  cases hx : x s with
  | error e => simp [bind, Except.bind]
  | ok p =>
    constructor
    · intro h
      exact ⟨p.1, p.2, rfl, h⟩
    · rintro ⟨a, s', hp, h⟩
      cases hp
      exact h

@[simp] theorem tx_pure_ok_iff {a : α} {s : σ} {r : α × σ} :
    (pure a : Tx ε σ α) s = .ok r ↔ r = (a, s) := by
  change Except.ok (a, s) = .ok r ↔ _
  rw [Except.ok.injEq, eq_comm]

@[simp] theorem tx_throw_ok_iff {e : ε} {s : σ} {r : α × σ} :
    (throw e : Tx ε σ α) s = .ok r ↔ False :=
  ⟨nofun, nofun⟩

@[simp] theorem query_ok_iff {f : σ → α} {s : σ} {r : α × σ} :
    (query f : Tx ε σ α) s = .ok r ↔ r = (f s, s) := by
  change Except.ok (f s, s) = .ok r ↔ _
  rw [Except.ok.injEq, eq_comm]

@[simp] theorem write_ok_iff {f : σ → α × σ} {s : σ} {r : α × σ} :
    (write f : Tx ε σ α) s = .ok r ↔ r = f s := by
  change Except.ok (f s) = .ok r ↔ _
  rw [Except.ok.injEq, eq_comm]

@[simp] theorem writeOrRaise_ok_iff {f : σ → Option σ} {e : ε} {s : σ} {r : Unit × σ} :
    writeOrRaise f e s = .ok r ↔ f s = some r.2 := by
  unfold writeOrRaise
  cases f s with
  | none => simp
  | some t => simp [Prod.ext_iff]

@[simp] theorem raiseIf_ok_iff {condition : Prop} [Decidable condition] {e : ε} {s : σ}
    {r : Unit × σ} : raiseIf condition e s = .ok r ↔ ¬ condition ∧ r = ((), s) := by
  unfold raiseIf
  split_ifs with h
  · simp [h]
  · simp [h]

@[simp] theorem lift_ok_iff {x : Except ε α} {s : σ} {r : α × σ} :
    lift x s = .ok r ↔ x = .ok r.1 ∧ r.2 = s := by
  cases x with
  | error e => exact ⟨nofun, nofun⟩
  | ok a =>
    obtain ⟨b, t⟩ := r
    change Except.ok (a, s) = .ok (b, t) ↔ _
    simp [eq_comm]

@[simp] theorem orRaise_ok_iff {x : Option α} {e : ε} {s : σ} {r : α × σ} :
    orRaise x e s = .ok r ↔ x = some r.1 ∧ r.2 = s := by
  obtain ⟨b, t⟩ := r
  cases x with
  | none => exact ⟨nofun, nofun⟩
  | some a =>
    change Except.ok (a, s) = .ok (b, t) ↔ _
    simp [eq_comm]

/-! ## Transactions -/

theorem transaction_ok_iff {body : Tx ε σ α} {s s' : σ} {a : α} :
    transaction body s = .ok a s' ↔ body s = .ok (a, s') := by
  unfold transaction
  cases h : body s with
  | error e => simp
  | ok p => simp [Prod.ext_iff]

/-- A transaction that raises has changed nothing. -/
theorem transaction_error {body : Tx ε σ α} {s s' : σ} {e : ε}
    (h : transaction body s = .error e s') : s' = s := by
  unfold transaction at h
  cases hbody : body s with
  | error e' =>
    rw [hbody] at h
    cases h
    rfl
  | ok p =>
    rw [hbody] at h
    cases h

theorem db_bind_ok_iff {x : Db ε σ α} {f : α → Db ε σ β} {s s' : σ} {b : β} :
    (x >>= f) s = .ok b s' ↔ ∃ a t, x s = .ok a t ∧ f a t = .ok b s' := by
  change EStateM.bind x f s = _ ↔ _
  unfold EStateM.bind
  cases hx : x s with
  | error e t => simp
  | ok a t =>
    simp only [EStateM.Result.ok.injEq]
    exact ⟨fun h => ⟨a, t, ⟨rfl, rfl⟩, h⟩, fun ⟨_, _, ⟨rfl, rfl⟩, h⟩ => h⟩

theorem db_bind_error_iff {x : Db ε σ α} {f : α → Db ε σ β} {s s' : σ} {e : ε} :
    (x >>= f) s = .error e s' ↔
      x s = .error e s' ∨ ∃ a t, x s = .ok a t ∧ f a t = .error e s' := by
  change EStateM.bind x f s = _ ↔ _
  unfold EStateM.bind
  cases hx : x s with
  | error e t => simp
  | ok a t =>
    simp only [EStateM.Result.ok.injEq, reduceCtorEq, false_or]
    exact ⟨fun h => ⟨a, t, ⟨rfl, rfl⟩, h⟩, fun ⟨_, _, ⟨rfl, rfl⟩, h⟩ => h⟩

theorem db_bind_of_ok {x : Db ε σ α} {f : α → Db ε σ β} {s t : σ} {a : α} (h : x s = .ok a t) :
    (x >>= f) s = f a t := by
  change EStateM.bind x f s = _
  unfold EStateM.bind
  rw [h]

theorem db_bind_of_error {x : Db ε σ α} {f : α → Db ε σ β} {s t : σ} {e : ε}
    (h : x s = .error e t) : (x >>= f) s = .error e t := by
  change EStateM.bind x f s = _
  unfold EStateM.bind
  rw [h]

/-- A call for its effect. -/
def dropReply (x : Db ε σ α) : Db ε σ Unit := do
  let _ ← x

theorem dropReply_ok_iff {x : Db ε σ α} {s s' : σ} {u : Unit} :
    dropReply x s = .ok u s' ↔ ∃ a, x s = .ok a s' := by
  rw [dropReply, db_bind_ok_iff]
  constructor
  · rintro ⟨a, t, h, hret⟩
    cases hret
    exact ⟨a, h⟩
  · rintro ⟨a, h⟩
    exact ⟨a, s', h, rfl⟩

/-- Raising, `x` has changed nothing. -/
def Atomic (x : Db ε σ α) (s : σ) : Prop := ∀ e s', x s = .error e s' → s' = s

theorem atomic_transaction (body : Tx ε σ α) (s : σ) : Atomic (transaction body) s :=
  fun _ _ h => transaction_error h

/-- A transaction followed by what cannot raise after it. -/
theorem atomic_bind {x : Db ε σ α} {f : α → Db ε σ β} {s : σ} (hx : Atomic x s)
    (hf : ∀ a t, x s = .ok a t → ∃ b t', f a t = .ok b t') : Atomic (x >>= f) s := by
  intro e s' h
  rcases db_bind_error_iff.mp h with h | ⟨a, t, ha, h⟩
  · exact hx e s' h
  · obtain ⟨b, t', hb⟩ := hf a t ha
    rw [hb] at h
    cases h

theorem atomic_dropReply {x : Db ε σ α} {s : σ} (hx : Atomic x s) : Atomic (dropReply x) s :=
  atomic_bind hx fun _ t _ => ⟨(), t, rfl⟩

/-- After what changes nothing, anything atomic. -/
theorem atomic_bind_of_read {x : Db ε σ α} {f : α → Db ε σ β} {s : σ} (hx : Atomic x s)
    (hread : ∀ a t, x s = .ok a t → t = s) (hf : ∀ a, Atomic (f a) s) : Atomic (x >>= f) s := by
  intro e s' h
  rcases db_bind_error_iff.mp h with h | ⟨a, t, ha, h⟩
  · exact hx e s' h
  · rw [hread a t ha] at h
    exact hf a e s' h

theorem atomic_pure (a : α) (s : σ) : Atomic (pure a : Db ε σ α) s := nofun

theorem atomic_throw (e : ε) (s : σ) : Atomic (throw e : Db ε σ α) s := by
  intro e' s' h
  cases h
  rfl

end Txn
