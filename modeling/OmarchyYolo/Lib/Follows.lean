import Mathlib.Order.Defs.Unbundled
import OmarchyYolo.Lib.Transaction

/-!
# OmarchyYolo.Lib.Follows — programs that move a state along a preorder

What every statement of a program keeps, the program keeps: a program follows a
relation `R` when each of its successful runs takes the state along `R`. For a
preorder, the rules below take a program apart by its syntax.

* `Follows R x` — inside a transaction;
* `FollowsDb R x` — outside;
* `Replies P x` — every reply of `x` meets `P`.
-/

namespace Txn

variable {ε σ α β : Type} {R : σ → σ → Prop}

/-- A successful run of the body takes the state along `R`. -/
def Follows (R : σ → σ → Prop) (x : Tx ε σ α) : Prop := ∀ s r, x s = .ok r → R s r.2

/-- A successful run outside a transaction takes the state along `R`. -/
def FollowsDb (R : σ → σ → Prop) (x : Db ε σ α) : Prop := ∀ s a s', x s = .ok a s' → R s s'

/-! ## Branches and transactions -/

theorem Follows.ite {condition : Prop} [Decidable condition] {x y : Tx ε σ α}
    (hx : Follows R x) (hy : Follows R y) : Follows R (if condition then x else y) := by
  split_ifs
  · exact hx
  · exact hy

theorem FollowsDb.transaction {x : Tx ε σ α} (hx : Follows R x) :
    FollowsDb R (Txn.transaction x) :=
  fun s _ _ h => hx s _ (transaction_ok_iff.mp h)

theorem FollowsDb.throw (e : ε) : FollowsDb R (MonadExcept.throw e : Db ε σ α) :=
  fun _ _ _ h => nomatch h

theorem FollowsDb.ite {condition : Prop} [Decidable condition] {x y : Db ε σ α}
    (hx : FollowsDb R x) (hy : FollowsDb R y) : FollowsDb R (if condition then x else y) := by
  split_ifs
  · exact hx
  · exact hy

/-! ## Sequences -/

section Preorder

variable [IsPreorder σ R]

theorem Follows.of_same {x : Tx ε σ α} (h : ∀ s r, x s = .ok r → r.2 = s) : Follows R x := by
  intro s r hrun
  rw [h s r hrun]
  exact refl_of R s

theorem Follows.pure (a : α) : Follows R (Pure.pure a : Tx ε σ α) :=
  .of_same fun s r h => by rw [tx_pure_ok_iff.mp h]

theorem Follows.lift (x : Except ε α) : Follows R (Txn.lift x : Tx ε σ α) :=
  .of_same fun _ _ h => (lift_ok_iff.mp h).2

theorem Follows.query (f : σ → α) : Follows R (Txn.query f : Tx ε σ α) :=
  .of_same fun s r h => by rw [query_ok_iff.mp h]

omit [IsPreorder σ R] in
/-- After a query, with what it has found. -/
theorem Follows.bindQuery {f : σ → α} {g : α → Tx ε σ β} (hg : ∀ s, Follows R (g (f s))) :
    Follows R (Txn.query f >>= g) := by
  intro s r h
  obtain ⟨a, t, hquery, hrest⟩ := tx_bind_ok_iff.mp h
  cases query_ok_iff.mp hquery
  exact hg s s r hrest

omit [IsPreorder σ R] in
/-- After a check, with what it has let through. -/
theorem Follows.bindOrRaise {x : Option α} {e : ε} {f : α → Tx ε σ β}
    (hf : ∀ a, x = some a → Follows R (f a)) : Follows R (Txn.orRaise x e >>= f) := by
  intro s r h
  obtain ⟨a, t, hraise, hrest⟩ := tx_bind_ok_iff.mp h
  obtain ⟨ha, rfl⟩ := orRaise_ok_iff.mp hraise
  exact hf a ha _ r hrest

omit [IsPreorder σ R] in
/-- After a computation that has no effect, with what it returns. -/
theorem Follows.bindLift {x : Except ε α} {f : α → Tx ε σ β}
    (hf : ∀ a, x = .ok a → Follows R (f a)) : Follows R (Txn.lift x >>= f) := by
  intro s r h
  obtain ⟨a, t, hlift, hrest⟩ := tx_bind_ok_iff.mp h
  obtain ⟨ha, rfl⟩ := lift_ok_iff.mp hlift
  exact hf a ha _ r hrest

theorem Follows.orRaise (x : Option α) (e : ε) : Follows R (Txn.orRaise x e : Tx ε σ α) :=
  .of_same fun _ _ h => (orRaise_ok_iff.mp h).2

theorem Follows.raiseIf (condition : Prop) [Decidable condition] (e : ε) :
    Follows R (Txn.raiseIf condition e : Tx ε σ Unit) :=
  .of_same fun s r h => by rw [(raiseIf_ok_iff.mp h).2]

theorem Follows.bind {x : Tx ε σ α} {f : α → Tx ε σ β} (hx : Follows R x)
    (hf : ∀ a, Follows R (f a)) : Follows R (x >>= f) := by
  intro s r h
  obtain ⟨a, t, ha, hb⟩ := tx_bind_ok_iff.mp h
  exact trans_of R (hx s _ ha) (hf a t r hb)

theorem FollowsDb.pure (a : α) : FollowsDb R (Pure.pure a : Db ε σ α) := by
  intro s b s' h
  cases h
  exact refl_of R s

theorem FollowsDb.bind {x : Db ε σ α} {f : α → Db ε σ β} (hx : FollowsDb R x)
    (hf : ∀ a, FollowsDb R (f a)) : FollowsDb R (x >>= f) := by
  intro s b s' h
  obtain ⟨a, t, ha, hb⟩ := db_bind_ok_iff.mp h
  exact trans_of R (hx s a t ha) (hf a t b s' hb)

theorem FollowsDb.dropReply {x : Db ε σ α} (hx : FollowsDb R x) : FollowsDb R (Txn.dropReply x) :=
  .bind hx fun _ => .pure _

end Preorder

/-! ## Replies -/

/-- What a successful run returns meets `P`. -/
def Replies (P : α → Prop) (x : Db ε σ α) : Prop := ∀ s a s', x s = .ok a s' → P a

section Replies

variable {P : β → Prop}

theorem Replies.pure {b : β} (h : P b) : Replies P (Pure.pure b : Db ε σ β) := by
  intro s b' s' hrun
  cases hrun
  exact h

theorem Replies.throw (e : ε) : Replies P (MonadExcept.throw e : Db ε σ β) :=
  fun _ _ _ h => nomatch h

theorem Replies.bind {x : Db ε σ α} {f : α → Db ε σ β} (hf : ∀ a, Replies P (f a)) :
    Replies P (x >>= f) := by
  intro s b s' h
  obtain ⟨a, t, -, hb⟩ := db_bind_ok_iff.mp h
  exact hf a t b s' hb

theorem Replies.ite {condition : Prop} [Decidable condition] {x y : Db ε σ β}
    (hx : Replies P x) (hy : Replies P y) : Replies P (if condition then x else y) := by
  split_ifs
  · exact hx
  · exact hy

end Replies

end Txn
