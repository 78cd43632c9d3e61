import Mathlib.Data.List.Infix

/-!
# OmarchyYolo.Lib.MountView — ordered mounts

A file tree put together from mounts, one after the other: a mount hides
everything that was at or below its destination before.

* `view` — what is at a path in the end;
* `view_cases` — it comes from one of the mounts that cover the path;
* `view_hides` — a mount makes the mounts before it irrelevant.
-/

namespace Mounts

variable {Name Node : Type} [DecidableEq Name]

/-- What a mount puts at the paths at or below its destination. -/
structure Mount (Name Node : Type) where
  dest : List Name
  node : List Name → Node

/-- What is at a path after the mounts, starting from a tree with one node there. -/
def view (start : Node) (mounts : List (Mount Name Node)) (path : List Name) : Node :=
  mounts.foldl (fun node m => if m.dest <+: path then m.node path else node) start

variable {start : Node} {mounts later : List (Mount Name Node)} {path : List Name}

theorem view_append :
    view start (mounts ++ later) path = view (view start mounts path) later path :=
  List.foldl_append

/-- A path shows what one of the mounts that cover it put there, or what was there. -/
theorem view_cases : view start mounts path = start ∨
    ∃ m ∈ mounts, m.dest <+: path ∧ view start mounts path = m.node path := by
  induction mounts generalizing start with
  | nil => exact Or.inl rfl
  | cons m mounts ih =>
    by_cases hcover : m.dest <+: path
    · have hview : view start (m :: mounts) path = view (m.node path) mounts path := by
        show view (if m.dest <+: path then m.node path else start) mounts path = _
        rw [if_pos hcover]
      rw [hview]
      right
      rcases @ih (m.node path) with hsame | ⟨m', hm', hcover', heq⟩
      · exact ⟨m, List.mem_cons_self, hcover, hsame⟩
      · exact ⟨m', List.mem_cons_of_mem m hm', hcover', heq⟩
    · have hview : view start (m :: mounts) path = view start mounts path := by
        show view (if m.dest <+: path then m.node path else start) mounts path = _
        rw [if_neg hcover]
      rw [hview]
      rcases @ih start with hsame | ⟨m', hm', hcover', heq⟩
      · exact Or.inl hsame
      · exact Or.inr ⟨m', List.mem_cons_of_mem m hm', hcover', heq⟩

/-- A mount that covers a path makes what was there before irrelevant. -/
theorem view_hides {m : Mount Name Node} (hcover : m.dest <+: path) :
    view start (mounts ++ m :: later) path = view (m.node path) later path := by
  rw [view_append]
  show view (if m.dest <+: path then m.node path else view start mounts path) later path = _
  rw [if_pos hcover]

/-- A path that is covered shows what a covering mount put there. -/
theorem view_covered {m : Mount Name Node} (hm : m ∈ mounts) (hcover : m.dest <+: path) :
    ∃ m' ∈ mounts, m'.dest <+: path ∧ view start mounts path = m'.node path := by
  obtain ⟨before, after, rfl⟩ := List.append_of_mem hm
  rw [view_hides hcover]
  have hcases : view (m.node path) after path = m.node path ∨
      ∃ m' ∈ after, m'.dest <+: path ∧ view (m.node path) after path = m'.node path := view_cases
  rcases hcases with hsame | ⟨m', hm', hcover', heq⟩
  · exact ⟨m, hm, hcover, hsame⟩
  · exact ⟨m', List.mem_append_right _ (List.mem_cons_of_mem m hm'), hcover', heq⟩

end Mounts
