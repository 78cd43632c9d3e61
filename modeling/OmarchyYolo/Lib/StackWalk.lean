import Mathlib.Data.List.Basic

/-!
# OmarchyYolo.Lib.StackWalk — visiting a tree with a stack

A walk takes the top node from a stack, visits it, and pushes its children. It stops
when the stack is empty, or when it has visited as many nodes as it may.

* `visits` — the nodes visited;
* `IsPreorder` — what the pre-order of the tree is;
* `IsPreorder.visits_eq`: the nodes visited are the first ones of the pre-order.
-/

namespace StackWalk

variable {α : Type*} {children : α → List α} {preorder : α → List α}

/-- The nodes that at most so many visits reach; the top of the stack comes first. -/
def visits (children : α → List α) : Nat → List α → List α
  | 0, _ => []
  | _ + 1, [] => []
  | n + 1, node :: stack => node :: visits children n (children node ++ stack)

/-- A node comes before its children, and each child with all that is below it. -/
def IsPreorder (children : α → List α) (preorder : α → List α) : Prop :=
  ∀ node, preorder node = node :: (children node).flatMap preorder

/-- The stack holds the roots of what is left of the pre-order. -/
theorem IsPreorder.visits_eq (h : IsPreorder children preorder) (n : Nat) (stack : List α) :
    visits children n stack = (stack.flatMap preorder).take n := by
  induction n generalizing stack with
  | zero => rw [visits, List.take_zero]
  | succ n ih =>
    cases stack with
    | nil => rfl
    | cons node stack =>
      rw [visits, ih, List.flatMap_append, List.flatMap_cons, h node, List.cons_append,
        List.take_succ_cons]

end StackWalk
