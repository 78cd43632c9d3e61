import OmarchyYolo.GitRepo
import OmarchyYolo.SourceApply

/-!
# OmarchyYolo.Checkout — what Git does in a worktree

A worktree is what its `HEAD` is at, the merge that is in progress, its index and
its files. The commands of `GitRepo` are given by what they leave of these, when
they exit without an error.

* `Checkout` — a worktree, `Checkout.Clean` — `status` prints nothing;
* `GitCommand.Does` — what a command leaves, and replies;
* `Checkout.Restored` — a commit, nothing else and no merge;
* `Checkout.Abandoned`, `restored_abandoned_iff` — what `merge --abort` restores;
* `restored_of_reset` — `reset --hard`, and `clean -ffdx` after it.
-/

namespace OmarchyYolo

open Py Calls

/-- What is at a path, where something is. -/
abbrev Files (B : Type) := Str → Option B

/-- A worktree. Files that Git ignores are left out, and so are changes of the rules by which
it does, submodules, and filters between the files and what is committed. -/
structure Checkout (B : Type) where
  /-- The commit that `HEAD` is at. -/
  head : Str
  /-- `MERGE_HEAD`, while a merge is in progress. -/
  merging : Option Str
  index : Files B
  /-- The paths with a conflict in the index. -/
  unmerged : List Str
  files : Files B

section Checkout

variable {B : Type} (h : History (Files B))

namespace Checkout

/-- `status --porcelain` prints nothing. -/
def Clean (c : Checkout B) : Prop :=
  c.index = h.tree c.head ∧ c.unmerged = [] ∧ c.files = h.tree c.head

/-- `HEAD` is at the commit, no merge is in progress, and the worktree is clean. -/
def Restored (commit : Str) (c : Checkout B) : Prop :=
  c.head = commit ∧ c.merging = none ∧ c.Clean h

/-- The index has something at the path. -/
def Tracked (c : Checkout B) (path : Str) : Prop := c.index path ≠ none ∨ path ∈ c.unmerged

/-- The index has at the path what the commit of `HEAD` has. -/
def Unstaged (c : Checkout B) (path : Str) : Prop :=
  c.index path = h.tree c.head path ∧ path ∉ c.unmerged

/-! ## Commands -/

/-- `add -A`. -/
def AddedAll (c c' : Checkout B) : Prop :=
  c' = { c with index := c.files, unmerged := [] }

/-- `commit`: of what is in the index, on top of `HEAD` and of what is merged. -/
def Committed (c c' : Checkout B) : Prop :=
  c.unmerged = [] ∧ ∃ commit, h.parents commit = c.head :: c.merging.toList ∧
    h.tree commit = c.index ∧ c' = { c with head := commit, merging := none }

/-- The files that differ between two trees are brought to the second. -/
def CarriedOver (old new : Files B) (files files' : Files B) : Prop :=
  ∀ path, (new path = old path → files' path = files path) ∧
    (new path ≠ old path → files' path = new path)

/-- `merge --no-ff`, of a commit that can be merged without a conflict. -/
def Merged (tip : Str) (c c' : Checkout B) : Prop :=
  (h.isAncestor tip c.head = true ∧ c' = c) ∨
    c.index = h.tree c.head ∧ c.unmerged = [] ∧ c.merging = none ∧
      ∃ commit, h.parents commit = [c.head, tip] ∧
        c'.head = commit ∧ c'.merging = none ∧ c'.index = h.tree commit ∧ c'.unmerged = [] ∧
        CarriedOver (h.tree c.head) (h.tree commit) c.files c'.files

/-- `merge --no-ff` that exits with an error: it has refused to begin, or is in progress. -/
def Conflicted (tip : Str) (c c' : Checkout B) : Prop :=
  c' = c ∨ c.merging = none ∧ c'.head = c.head ∧ c'.merging = some tip ∧
    ∀ path, c'.Unstaged h path → c'.files path = c.files path

/-- `merge --abort`: what the index does not have from the commit is taken back. -/
def Abandoned (c c' : Checkout B) : Prop :=
  c.merging ≠ none ∧ c'.head = c.head ∧ c'.merging = none ∧ c'.index = h.tree c.head ∧
    c'.unmerged = [] ∧
    ∀ path, (c.Unstaged h path → c'.files path = c.files path) ∧
      (¬ c.Unstaged h path → c'.files path = h.tree c.head path)

/-- `reset --hard`: what is tracked goes to the commit. -/
def ResetTo (commit : Str) (c c' : Checkout B) : Prop :=
  c'.head = commit ∧ c'.merging = none ∧ c'.index = h.tree commit ∧ c'.unmerged = [] ∧
    ∀ path, (c.Tracked path ∨ h.tree commit path ≠ none → c'.files path = h.tree commit path) ∧
      (¬ c.Tracked path → h.tree commit path = none → c'.files path = c.files path)

/-- `clean -ffdx`: what is not tracked is removed. -/
def Cleaned (c c' : Checkout B) : Prop :=
  c'.head = c.head ∧ c'.merging = c.merging ∧ c'.index = c.index ∧ c'.unmerged = c.unmerged ∧
    ∀ path, (c.Tracked path → c'.files path = c.files path) ∧
      (¬ c.Tracked path → c'.files path = none)

end Checkout

/-- What a command replies and leaves, where it exits without an error; the branches are at
`tips`. -/
def GitCommand.Does (tips : Str → Option Str) :
    (command : GitCommand) → Checkout B → command.Reply → Checkout B → Prop
  | .assertWorktree _, c, _, c' => c' = c
  | .head, c, reply, c' => reply = c.head ∧ c' = c
  | .isClean, c, reply, c' => (reply = true ↔ c.Clean h) ∧ c' = c
  | .unresolved, c, reply, c' => reply = c.unmerged ∧ c' = c
  | .mergeHeadExists, c, reply, c' => reply = c.merging.isSome ∧ c' = c
  | .diff _, c, _, c' => c' = c
  | .addAll, c, _, c' => c.AddedAll c'
  | .commit _, c, _, c' => c.Committed h c'
  | .merge branch, c, reply, c' => ∃ tip, tips branch = some tip ∧
      match reply with
      | none => c.Merged h tip c'
      | some _ => c.Conflicted h tip c'
  | .mergeAbort, c, _, c' => c.Abandoned h c'
  | .resetHard target, c, _, c' => c.ResetTo h target c'
  | .clean, c, _, c' => c.Cleaned c'

/-! ## The line of commits -/

variable {h} {c c' c'' : Checkout B} {commit : Str}

theorem History.isAncestor_refl (commit : Str) : h.isAncestor commit commit = true :=
  (h.isAncestor_iff commit commit).mpr .refl

theorem History.isAncestor_trans {a b d : Str} (hab : h.isAncestor a b = true)
    (hbd : h.isAncestor b d = true) : h.isAncestor a d = true :=
  (h.isAncestor_iff a d).mpr (((h.isAncestor_iff a b).mp hab).trans ((h.isAncestor_iff b d).mp hbd))

theorem History.isAncestor_parent {a b : Str} (hparent : a ∈ h.parents b) :
    h.isAncestor a b = true := (h.isAncestor_iff a b).mpr (.single hparent)

/-- No command but `reset --hard` leaves the line. -/
theorem GitCommand.Does.head_le {tips : Str → Option Str} {command : GitCommand}
    {reply : command.Reply} (hdoes : command.Does h tips c reply c')
    (hreset : ∀ target, command ≠ .resetHard target) : h.isAncestor c.head c'.head = true := by
  -- most commands leave the head
  have hsame : c'.head = c.head → h.isAncestor c.head c'.head = true := by
    intro hhead
    rw [hhead]
    exact History.isAncestor_refl _
  have hread : c' = c → h.isAncestor c.head c'.head = true := fun heq =>
    hsame (congrArg Checkout.head heq)
  -- by the command: `commit` and `merge` add a child of the head
  cases command with
  | assertWorktree expected => exact hread hdoes
  | head => exact hread hdoes.2
  | isClean => exact hread hdoes.2
  | unresolved => exact hread hdoes.2
  | mergeHeadExists => exact hread hdoes.2
  | diff base => exact hread hdoes
  | addAll =>
    refine hsame ?_
    rw [show c' = { c with index := c.files, unmerged := [] } from hdoes]
  | commit message =>
    obtain ⟨-, commit, hparents, -, rfl⟩ := hdoes
    exact History.isAncestor_parent (hparents ▸ List.mem_cons_self)
  | merge branch =>
    obtain ⟨tip, -, hmerge⟩ := hdoes
    -- the merge is done, or stops at a conflict
    cases reply with
    | none =>
      rcases hmerge with ⟨-, rfl⟩ | ⟨-, -, -, commit, hparents, hhead, -⟩
      · exact hread rfl
      · rw [hhead]
        exact History.isAncestor_parent (hparents ▸ List.mem_cons_self)
    | some stderr =>
      rcases hmerge with rfl | ⟨-, hhead, -⟩
      · exact hread rfl
      · exact hsame hhead
  | mergeAbort => exact hsame hdoes.2.1
  | resetHard target => exact absurd rfl (hreset target)
  | clean => exact hsame hdoes.1

/-! ## What restores a commit -/

/-- `reset --hard`, and then `clean -ffdx`. -/
theorem Checkout.restored_of_reset (hreset : c.ResetTo h commit c') (hclean : c'.Cleaned c'') :
    c''.Restored h commit := by
  obtain ⟨hhead, hmerging, hindex, hunmerged, hfiles⟩ := hreset
  obtain ⟨hhead', hmerging', hindex', hunmerged', hfiles'⟩ := hclean
  refine ⟨hhead'.trans hhead, hmerging'.trans hmerging, ?_, hunmerged'.trans hunmerged, ?_⟩
  · rw [hindex', hindex, hhead', hhead]
  rw [hhead', hhead]
  funext path
  -- the index is that of the commit, so the paths of the commit are the tracked ones
  have htracked : c'.Tracked path ↔ h.tree commit path ≠ none := by
    rw [Checkout.Tracked, hindex, hunmerged]
    exact or_iff_left List.not_mem_nil
  by_cases hknown : h.tree commit path = none
  · rw [(hfiles' path).2 (mt htracked.mp (not_not.mpr hknown)), hknown]
  · rw [(hfiles' path).1 (htracked.mpr hknown)]
    exact (hfiles path).1 (Or.inr hknown)

/-- The commit is what a `merge --abort` goes back to, and nothing but the merge has changed
anything. -/
def Checkout.Undoable (h : History (Files B)) (commit : Str) (c : Checkout B) : Prop :=
  c.head = commit ∧
    if c.merging = none then c.Clean h
    else ∀ path, c.Unstaged h path → c.files path = h.tree commit path

theorem Checkout.restored_abandoned_iff (habort : c.Abandoned h c') :
    c'.Restored h commit ↔ c.Undoable h commit := by
  obtain ⟨hmerging, hhead, hmerging', hindex, hunmerged, hfiles⟩ := habort
  rw [Checkout.Undoable, if_neg hmerging]
  constructor
  · rintro ⟨hcommit, -, -, -, hclean⟩
    rw [hhead] at hcommit hclean
    refine ⟨hcommit, fun path hpath => ?_⟩
    rw [← (hfiles path).1 hpath, hclean, hcommit]
  · rintro ⟨hcommit, hclean⟩
    refine ⟨hhead.trans hcommit, hmerging', ?_, hunmerged, ?_⟩
    · rw [hindex, hhead]
    rw [hhead]
    funext path
    by_cases hpath : c.Unstaged h path
    · rw [(hfiles path).1 hpath, hclean path hpath, hcommit]
    · exact (hfiles path).2 hpath

/-- Where no merge is in progress, there is nothing to abort. -/
theorem Checkout.restored_iff (hmerging : c.merging = none) :
    c.Restored h commit ↔ c.Undoable h commit := by
  rw [Checkout.Undoable, if_pos hmerging, Checkout.Restored]
  exact and_congr_right fun _ => and_iff_right hmerging

end Checkout

end OmarchyYolo
