import Mathlib.Data.List.Basic

/-!
# OmarchyYolo.Lib.PostOrder — dependency orders

A list of nodes in which everything a node depends on comes behind it, as a
depth-first search leaves the nodes it has finished. `PostOrder.exists_ready`: of
the nodes that are not done, one has only dependencies that are.
-/

namespace Dependency

variable {α : Type*}

/-- Every node's dependencies come behind it. -/
def PostOrder (graph : α → List α) : List α → Prop
  | [] => True
  | node :: rest => (∀ d ∈ graph node, d ∈ rest) ∧ PostOrder graph rest

variable {graph : α → List α} {order : List α}

/-- A list closed under dependencies cannot wait for itself. -/
theorem PostOrder.exists_ready (h : PostOrder graph order) {done : α → Prop} {n : α}
    (hn : n ∈ order) (hdone : ¬ done n) :
    ∃ m ∈ order, ¬ done m ∧ ∀ d ∈ graph m, done d := by
  induction order generalizing n with
  | nil => cases hn
  | cons node rest ih =>
    obtain ⟨hdeps, hrest⟩ := h
    by_cases hbehind : ∃ m ∈ rest, ¬ done m
    -- the last node that is not done is behind this one
    · rcases hbehind with ⟨m, hm, hnot⟩
      rcases ih hrest hm hnot with ⟨r, hr, hready⟩
      exact ⟨r, List.mem_cons_of_mem node hr, hready⟩
    -- everything behind this node is done
    · have hall : ∀ m ∈ rest, done m := by
        intro m hm
        by_contra hnot
        exact hbehind ⟨m, hm, hnot⟩
      rcases List.mem_cons.mp hn with rfl | hn
      · exact ⟨n, List.mem_cons_self, hdone, fun d hd => hall d (hdeps d hd)⟩
      · exact absurd (hall n hn) hdone

end Dependency
