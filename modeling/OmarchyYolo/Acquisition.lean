import OmarchyYolo.QuietCalls

/-!
# OmarchyYolo.Acquisition — restarting the acquisition of a worktree

The acquisition of a task's worktree adds a branch and a worktree to the repository
and then records them in the task's row. It may be cancelled, and the daemon may
die, between any two of its effects; it is run again with the row as it is then.

* `gitAnswer` — the repository as its branches and worktrees, beside the row;
* `acquisitions` — the runs of the acquisition, interrupted and begun again;
* `acquisition_restartable_iff` — when the next acquisition succeeds.
-/

namespace OmarchyYolo

open Py PyJson Calls

/-! ## The repository and the row -/

/-- The branches, the worktrees with the branch that each has checked out, the commit
checked out in the integration worktree, and the row of the task. -/
structure AcquisitionWorld where
  branches : List Str
  worktrees : List (Str × Str)
  head : Text
  row : TaskRow

/-- A branch is a file or a directory of Git's, and no two branches can be both at one place. -/
def RefConflict (branch other : Str) : Prop :=
  branch ++ lit "/" <+: other ∨ other ++ lit "/" <+: branch

instance (branch other : Str) : Decidable (RefConflict branch other) :=
  inferInstanceAs (Decidable (_ ∨ _))

namespace AcquisitionWorld

variable (w : AcquisitionWorld)

/-- A branch of the name can be created. -/
def Available (branch : Str) : Prop :=
  branch ∉ w.branches ∧ ∀ other ∈ w.branches, ¬ RefConflict branch other

instance (branch : Str) : Decidable (w.Available branch) := inferInstanceAs (Decidable (_ ∧ _))

/-- The branch that a worktree has checked out. -/
def checkedOut? (path : Str) : Option Str := w.worktrees.lookup path

def addWorktree (path branch : Str) : AcquisitionWorld :=
  { w with worktrees := (path, branch) :: w.worktrees }

def addBranch (branch : Str) : AcquisitionWorld := { w with branches := branch :: w.branches }

/-- The row after an update that sets no state. -/
def write (fields : TaskFields) : Except Raised Unit × AcquisitionWorld :=
  match fields.bindColumns with
  | .ok columns => (.ok (), { w with row := columns.write w.row.state w.row.updatedAt w.row })
  | .error e => (.error (.ofExn e), w)

end AcquisitionWorld

def gitFails {α : Type} (message : String) : Except Raised α := .error (.gitError (lit message))

/-- The commands that change the topology; `valid` are the names that Git accepts. -/
def topologyAnswer (valid : Str → Bool) (w : AcquisitionWorld) :
    (command : TopologyCommand) → Except Raised command.Reply × AcquisitionWorld
  | .validateBranchName branch => (if valid branch then .ok () else gitFails "invalid name", w)
  | .branchExists branch => (.ok (decide (branch ∈ w.branches)), w)
  | .ensureParent _ => (.ok (), w)
  | .pathExists path => (.ok (w.checkedOut? path).isSome, w)
  | .isSymlink _ => (.ok false, w)
  | .gitFileExists path => (.ok (w.checkedOut? path).isSome, w)
  | .addNewBranch branch path _ =>
    if w.Available branch ∧ w.checkedOut? path = none then
      (.ok (), (w.addBranch branch).addWorktree path branch)
    else (gitFails "exists", w)
  | .addWorktree path branch =>
    if branch ∈ w.branches ∧ w.checkedOut? path = none ∧ branch ∉ w.worktrees.map Prod.snd then
      (.ok (), w.addWorktree path branch)
    else (gitFails "exists", w)
  | .prune => (.ok (), w)
  | .createBranch branch _ =>
    if w.Available branch then (.ok (), w.addBranch branch) else (gitFails "exists", w)
  | .removeWorktree path => (.ok (), { w with worktrees := w.worktrees.filter (·.1 ≠ path) })
  | .deleteBranch branch =>
    if branch ∈ w.branches ∧ branch ∉ w.worktrees.map Prod.snd then
      (.ok (), { w with branches := w.branches.filter (· ≠ branch) })
    else (gitFails "in use", w)

/-- Whether a path is a worktree, with the expected branch checked out if there is one. -/
def assertAnswer (w : AcquisitionWorld) (path : Str) (expected : Option Str) : Except Raised Unit :=
  match w.checkedOut? path with
  | none => gitFails "not a worktree"
  | some branch => if expected.getD branch = branch then .ok () else gitFails "branch mismatch"

/-- The commands in a worktree that the acquisition runs. -/
def worktreeAnswer (w : AcquisitionWorld) (path : Str) :
    (command : GitCommand) → Except Raised command.Reply
  | .head => .ok w.head.val
  | .assertWorktree expected => assertAnswer w path expected
  | _ => gitFails "not asked for"

/-- What the repository and the database answer; the acquisition makes no other call. -/
def gitAnswer (valid : Str → Bool) (e : Effect) (w : AcquisitionWorld) :
    Except Raised e.Reply × AcquisitionWorld :=
  match e with
  | .git path command => (worktreeAnswer w path command, w)
  | .topology command => topologyAnswer valid w command
  | .updateTask _ fields => w.write fields
  | .event _ _ _ _ | .acquire _ | .release _ | .suspend => (.ok (), w)
  | _ => (.error (.error []), w)

/-! ## Interrupted runs -/

/-- The columns that place a task are the same. -/
structure SamePlace (t t' : TaskRow) : Prop where
  logicalId : t'.logicalId = t.logicalId
  seq : t'.seq = t.seq
  branch : t'.branch = t.branch
  worktree : t'.worktree = t.worktree

/-- Others change the repository, but not the branch and the worktree of the task, and
not where its row places it. -/
structure ElsewhereInRepo (branch path : Str) (w w' : AcquisitionWorld) : Prop where
  place : SamePlace w.row w'.row
  born : branch ∈ w'.branches ↔ branch ∈ w.branches
  worktrees : ∀ p c, p = path ∨ c = branch → ((p, c) ∈ w'.worktrees ↔ (p, c) ∈ w.worktrees)

/-- A call is answered, or it is cancelled or fails, with its effect or without; then
others may act. -/
def interrupted (valid : Str → Bool) (branch path : Str) :
    Handler Effect Effect.Reply Raised AcquisitionWorld := fun e w r w' =>
  ∃ w₁, ((r = (gitAnswer valid e w).1 ∧ w₁ = (gitAnswer valid e w).2) ∨
      ∃ x, r = .error x ∧ (w₁ = w ∨ w₁ = (gitAnswer valid e w).2)) ∧
    ElsewhereInRepo branch path w₁ w'

section Acquisition

variable (cfg : EngineConfig) (jobId : Text) (integrationPath : Str) (valid : Str → Bool)

/-- The branch of the task. -/
def ownBranch (task : TaskRow) : Str := taskBranch cfg.branchPrefix jobId.val task.logicalId.val

inductive AcquisitionStep where
  | call (reply : Reply Effect Effect.Reply Raised)
  /-- The daemon dies or the run is stopped, and the task is taken up again. -/
  | restart

/-- The repository before the task is first taken up. -/
structure FreshTask (w : AcquisitionWorld) : Prop where
  branchEmpty : w.row.branch.val = []
  unborn : ownBranch cfg jobId w.row ∉ w.branches
  unoccupied : ∀ c, (taskWorktree cfg jobId w.row, c) ∉ w.worktrees
  notCheckedOut : ∀ p, (p, ownBranch cfg jobId w.row) ∉ w.worktrees

/-- The runs of the acquisition for a task, from a repository that does not know it. -/
def acquisitions (task : TaskRow) :
    Lts.System (Coroutine TaskCheckout × AcquisitionWorld) AcquisitionStep where
  init c := c.1 = acquireWorktree cfg jobId c.2.row integrationPath ∧ c.2.row = task ∧
    FreshTask cfg jobId c.2
  step c l c' :=
    match l with
    | .call reply => ∃ next, c.1 = .call reply.1 next ∧ c'.1 = next reply.2 ∧
        interrupted valid (ownBranch cfg jobId task) (taskWorktree cfg jobId task) reply.1 c.2
          reply.2 c'.2
    | .restart => c' = (acquireWorktree cfg jobId c.2.row integrationPath, c.2)

/-- The acquisition, run to its end without interruption, returns, and has the task's
worktree checked out on the task's own branch. -/
def AcquisitionSucceeds (w : AcquisitionWorld) : Prop :=
  ∃ checkout w', run (gitAnswer valid) (acquireWorktree cfg jobId w.row integrationPath) w =
      (.ok checkout, w') ∧
    checkout.branch = ownBranch cfg jobId w.row ∧
    w'.checkedOut? checkout.worktree = some (ownBranch cfg jobId w.row)

end Acquisition

/-! ## What every interruption leaves -/

/-- The row, once it names a branch, names the task's own, which exists; and the branch
and the place of the task belong to each other. -/
structure Acquirable (cfg : EngineConfig) (jobId : Text) (branch path : Str)
    (w : AcquisitionWorld) : Prop where
  own : ownBranch cfg jobId w.row = branch
  place : taskWorktree cfg jobId w.row = path
  recorded : w.row.branch.val ≠ [] →
    w.row.branch.val = branch ∧ w.row.worktree.val = path ∧ branch ∈ w.branches
  at_path : ∀ c, (path, c) ∈ w.worktrees → c = branch
  at_branch : ∀ p, (p, branch) ∈ w.worktrees → p = path ∧ branch ∈ w.branches

/-- Calls of the acquisition, for a branch and a place; but those of the database. -/
def AcquisitionCall (branch path : Str) : Effect → Prop
  | .updateTask _ _ | .topology (.deleteBranch _) => False
  | .topology (.addNewBranch b p _) | .topology (.addWorktree p b) => b = branch ∧ p = path
  | .topology (.createBranch b _) => b = branch
  | .topology (.removeWorktree p) => p = path
  | _ => True

section Interrupted

variable {cfg : EngineConfig} {jobId : Text} {branch path : Str} {valid : Str → Bool}
  {w w' : AcquisitionWorld}

theorem SamePlace.refl (t : TaskRow) : SamePlace t t := ⟨rfl, rfl, rfl, rfl⟩

theorem SamePlace.trans {t t' t'' : TaskRow} (h : SamePlace t t') (h' : SamePlace t' t'') :
    SamePlace t t'' :=
  ⟨h'.logicalId.trans h.logicalId, h'.seq.trans h.seq, h'.branch.trans h.branch,
    h'.worktree.trans h.worktree⟩

/-- A world in which the calls of the acquisition have left the row in its place. -/
structure Onward (cfg : EngineConfig) (jobId : Text) (branch path : Str)
    (w w' : AcquisitionWorld) : Prop where
  acquirable : Acquirable cfg jobId branch path w'
  place : SamePlace w.row w'.row
  born : branch ∈ w.branches → branch ∈ w'.branches

theorem Onward.refl (h : Acquirable cfg jobId branch path w) : Onward cfg jobId branch path w w :=
  ⟨h, .refl _, fun hb => hb⟩

theorem Onward.trans {w'' : AcquisitionWorld} (h : Onward cfg jobId branch path w w')
    (h' : Onward cfg jobId branch path w' w'') : Onward cfg jobId branch path w w'' :=
  ⟨h'.acquirable, h.place.trans h'.place, fun hb => h'.born (h.born hb)⟩

/-- A change that keeps the row in its place and the branch, and gives the task no
worktree but its own. -/
theorem Acquirable.change (h : Acquirable cfg jobId branch path w) (hplace : SamePlace w.row w'.row)
    (hborn : branch ∈ w.branches → branch ∈ w'.branches)
    (hworktrees : ∀ p c, p = path ∨ c = branch → (p, c) ∈ w'.worktrees →
      (p, c) ∈ w.worktrees ∨ (p = path ∧ c = branch ∧ branch ∈ w'.branches)) :
    Onward cfg jobId branch path w w' := by
  refine ⟨⟨?_, ?_, ?_, ?_, ?_⟩, hplace, hborn⟩
  · rw [ownBranch, hplace.logicalId]
    exact h.own
  · rw [taskWorktree, hplace.logicalId, hplace.seq]
    exact h.place
  · rw [hplace.branch, hplace.worktree]
    intro hne
    obtain ⟨hbranch, hworktree, hmem⟩ := h.recorded hne
    exact ⟨hbranch, hworktree, hborn hmem⟩
  · intro c hc
    rcases hworktrees path c (Or.inl rfl) hc with hold | ⟨-, hown, -⟩
    · exact h.at_path c hold
    · exact hown
  · intro p hp
    rcases hworktrees p branch (Or.inr rfl) hp with hold | ⟨hown, -, hmem⟩
    · exact ⟨(h.at_branch p hold).1, hborn (h.at_branch p hold).2⟩
    · exact ⟨hown, hmem⟩

theorem Acquirable.elsewhere (h : Acquirable cfg jobId branch path w)
    (helse : ElsewhereInRepo branch path w w') : Onward cfg jobId branch path w w' :=
  h.change helse.place helse.born.mpr fun p c hown hc => Or.inl ((helse.worktrees p c hown).mp hc)

theorem checkedOut?_eq_none {p : Str} :
    w.checkedOut? p = none ↔ ∀ c, (p, c) ∉ w.worktrees := by
  rw [AcquisitionWorld.checkedOut?, List.lookup_eq_none_iff]
  constructor
  · intro h c hc
    exact absurd (h _ hc) (by simp)
  · rintro h ⟨q, c⟩ hq
    rw [bne_iff_ne]
    rintro rfl
    exact h c hq

theorem mem_of_checkedOut? {p c : Str} (h : w.checkedOut? p = some c) : (p, c) ∈ w.worktrees := by
  rcases List.lookup_eq_some_iff.mp h with ⟨before, after, heq, -⟩
  rw [heq]
  exact List.mem_append_right before List.mem_cons_self

/-- A command leaves the branch and the worktree of the task as they were, or gives the
task what is its own. -/
theorem topologyAnswer_onward {command : TopologyCommand}
    (hcall : AcquisitionCall branch path (.topology command))
    (h : Acquirable cfg jobId branch path w) :
    Onward cfg jobId branch path w (topologyAnswer valid w command).2 := by
  cases command with
  | addNewBranch b p ref =>
    obtain ⟨rfl, rfl⟩ := hcall
    simp only [topologyAnswer]
    split_ifs
    · refine h.change (.refl _) (fun _ => List.mem_cons_self) fun q c _ hq => ?_
      rcases List.mem_cons.mp hq with heq | hold
      · exact Or.inr ⟨(Prod.mk.inj heq).1, (Prod.mk.inj heq).2, List.mem_cons_self⟩
      · exact Or.inl hold
    · exact .refl h
  | addWorktree p b =>
    obtain ⟨rfl, rfl⟩ := hcall
    simp only [topologyAnswer]
    split_ifs with hnew
    · refine h.change (.refl _) (fun hb => hb) fun q c _ hq => ?_
      rcases List.mem_cons.mp hq with heq | hold
      · exact Or.inr ⟨(Prod.mk.inj heq).1, (Prod.mk.inj heq).2, hnew.1⟩
      · exact Or.inl hold
    · exact .refl h
  | createBranch b ref =>
    obtain rfl := hcall
    simp only [topologyAnswer]
    split
    · exact h.change (.refl _) (fun _ => List.mem_cons_self) fun _ _ _ hq => Or.inl hq
    · exact .refl h
  | removeWorktree p =>
    exact h.change (.refl _) (fun hb => hb) fun _ _ _ hq => Or.inl (List.mem_of_mem_filter hq)
  | deleteBranch b => exact hcall.elim
  | _ => exact .refl h

theorem interrupted_onward {e : Effect} {r : Except Raised e.Reply}
    (hcall : AcquisitionCall branch path e) (h : Acquirable cfg jobId branch path w)
    (hstep : interrupted valid branch path e w r w') : Onward cfg jobId branch path w w' := by
  have hanswer : Onward cfg jobId branch path w (gitAnswer valid e w).2 := by
    cases e with
    | topology command => exact topologyAnswer_onward hcall h
    | updateTask id fields => exact hcall.elim
    | _ => exact .refl h
  obtain ⟨w₁, hdone | ⟨x, -, hnot | hdone⟩, helse⟩ := hstep
  · rw [← hdone.2] at hanswer
    exact hanswer.trans (hanswer.acquirable.elsewhere helse)
  · rw [hnot] at helse
    exact h.elsewhere helse
  · rw [← hdone] at hanswer
    exact hanswer.trans (hanswer.acquirable.elsewhere helse)

/-! ## The acquisition, interrupted -/

theorem bindColumns_place {fields : TaskFields} {columns : TaskColumns}
    (h : fields.bindColumns = .ok columns) :
    columns.branch.map Text.val = fields.branch ∧
      columns.worktree.map Text.val = fields.worktree := by
  simp only [TaskFields.bindColumns, bind_ok_iff] at h
  obtain ⟨_, -, branch, hbranch, worktree, hworktree, _, -, _, -, _, -, _, -, hret⟩ := h
  cases hret
  exact ⟨bindOption_val hbranch, bindOption_val hworktree⟩

/-- An update that records the place of the task, and the branch only where it exists. -/
theorem write_acquirable {id : Text} {fields : TaskFields} {r : Except Raised Unit}
    (h : Acquirable cfg jobId branch path w) (hworktree : fields.worktree = some path)
    (hbranch : fields.branch = none ∧ w.row.branch.val ≠ [] ∨
      fields.branch = some branch ∧ branch ∈ w.branches)
    (hstep : interrupted valid branch path (.updateTask id fields) w r w') :
    Acquirable cfg jobId branch path w' := by
  -- the row names the path, and a branch that exists
  have hwritten : Acquirable cfg jobId branch path (w.write fields).2 := by
    simp only [AcquisitionWorld.write]
    split
    · rename_i columns hcolumns
      obtain ⟨hb, hwt⟩ := bindColumns_place hcolumns
      refine ⟨h.own, h.place, fun _ => ?_, h.at_path, h.at_branch⟩
      -- the columns of the row, one by one
      have hplace : (columns.worktree.getD w.row.worktree).val = path := by
        rw [hworktree] at hwt
        rcases Option.map_eq_some_iff.mp hwt with ⟨column, heq, hval⟩
        rw [heq]
        exact hval
      -- the branch is the one that was recorded, or is recorded now
      rcases hbranch with ⟨hnone, hne⟩ | ⟨hsome, hmem⟩
      · rw [hnone, Option.map_eq_none_iff] at hb
        show (columns.branch.getD w.row.branch).val = branch ∧
          (columns.worktree.getD w.row.worktree).val = path ∧ branch ∈ w.branches
        rw [hb]
        exact ⟨(h.recorded hne).1, hplace, (h.recorded hne).2.2⟩
      · rw [hsome] at hb
        rcases Option.map_eq_some_iff.mp hb with ⟨column, heq, hval⟩
        show (columns.branch.getD w.row.branch).val = branch ∧
          (columns.worktree.getD w.row.worktree).val = path ∧ branch ∈ w.branches
        rw [heq]
        exact ⟨hval, hplace, hmem⟩
    -- a text that SQLite refuses leaves the row
    · exact h
  -- the write was done, was not done, or was done before the cancellation
  obtain ⟨w₁, hdone | ⟨x, -, hnot | hdone⟩, helse⟩ := hstep
  · rw [hdone.2] at helse
    exact (hwritten.elsewhere helse).acquirable
  · rw [hnot] at helse
    exact (h.elsewhere helse).acquirable
  · rw [hdone] at helse
    exact (hwritten.elsewhere helse).acquirable

/-- The acquisition of a worktree, from a program that has no other end than a place that
can be acquired again. -/
abbrev Restartable {α : Type} (cfg : EngineConfig) (jobId : Text) (branch path : Str)
    (valid : Str → Bool) (p : Coroutine α) (w : AcquisitionWorld) : Prop :=
  Ensures (interrupted valid branch path) (fun _ w => Acquirable cfg jobId branch path w) p
    (fun _ w' => Acquirable cfg jobId branch path w') w

theorem onward_keeps {α : Type} {p : Coroutine α} (hp : p.Makes (AcquisitionCall branch path))
    (h : Acquirable cfg jobId branch path w) :
    Ensures (interrupted valid branch path) (fun _ w => Acquirable cfg jobId branch path w) p
      (fun _ w' => Onward cfg jobId branch path w w') w :=
  hp.keeps (fun _ _ _ ho => ho.acquirable)
    (fun _ _ _ _ he ho hstep => ho.trans (interrupted_onward he ho.acquirable hstep)) (.refl h)

theorem onward_then {α β : Type} {p : Coroutine α} {f : α → Coroutine β}
    (hp : p.Makes (AcquisitionCall branch path)) (h : Acquirable cfg jobId branch path w)
    (hf : ∀ a w', Onward cfg jobId branch path w w' →
      Restartable cfg jobId branch path valid (f a) w') :
    Restartable cfg jobId branch path valid (p >>= f) w :=
  (onward_keeps hp h).bind hf fun _ _ ho => ho.acquirable

section Calls

variable {cwd ref : Str}

theorem assertWorktree_calls {expected : Option Str} :
    (gitCommand cwd (.assertWorktree expected)).Makes (AcquisitionCall branch path) :=
  makes_perform trivial

theorem head_calls : (head cwd).Makes (AcquisitionCall branch path) := makes_perform trivial

theorem validateBranchName_calls {name : Str} :
    (topologyCommand (.validateBranchName name)).Makes (AcquisitionCall branch path) :=
  makes_perform trivial

theorem ensureParent_calls {p : Str} :
    (topologyCommand (.ensureParent p)).Makes (AcquisitionCall branch path) :=
  makes_perform trivial

theorem prune_calls : (topologyCommand .prune).Makes (AcquisitionCall branch path) :=
  makes_perform trivial

theorem branchExists_calls {name : Str} :
    (branchExists name).Makes (AcquisitionCall branch path) :=
  validateBranchName_calls.bind fun _ => makes_perform trivial

theorem pathExists_calls {p : Str} : (pathExists p).Makes (AcquisitionCall branch path) :=
  makes_perform trivial

theorem isSymlink_calls {p : Str} : (isSymlink p).Makes (AcquisitionCall branch path) :=
  makes_perform trivial

theorem gitFileExists_calls {p : Str} : (gitFileExists p).Makes (AcquisitionCall branch path) :=
  makes_perform trivial

theorem removeWorktree_calls : (removeWorktree path).Makes (AcquisitionCall branch path) := by
  refine pathExists_calls.bind fun _ => makes_ite ?_ prune_calls
  refine isSymlink_calls.bind fun _ => makes_ite makes_raise ?_
  exact assertWorktree_calls.bind fun _ => makes_perform rfl

theorem ensureExistingBranchWorktree_calls :
    (ensureExistingBranchWorktree path branch ref).Makes (AcquisitionCall branch path) := by
  have hadd : (topologyCommand (.addWorktree path branch) >>= fun _ =>
      gitCommand path (.assertWorktree (some branch))).Makes (AcquisitionCall branch path) :=
    Program.Makes.bind (makes_perform ⟨rfl, rfl⟩) fun _ => assertWorktree_calls
  refine validateBranchName_calls.bind fun _ => ensureParent_calls.bind fun _ => ?_
  refine pathExists_calls.bind fun _ => makes_ite
    (isSymlink_calls.bind fun _ => makes_ite makes_raise ?_) ?_
  · exact gitFileExists_calls.bind fun _ => makes_ite assertWorktree_calls makes_raise
  · refine prune_calls.bind fun _ => branchExists_calls.bind fun _ => makes_ite hadd ?_
    exact Program.Makes.bind (makes_perform rfl) fun _ => hadd

end Calls

/-- The row is written, the event is recorded, and the place of the task is returned. -/
theorem recordPlace_restartable {id : Text} {fields : TaskFields} {kind : String}
    {payload : List (Str × Json NonFinite)} {checkout : TaskCheckout}
    (h : Acquirable cfg jobId branch path w) (hworktree : fields.worktree = some path)
    (hbranch : fields.branch = none ∧ w.row.branch.val ≠ [] ∨
      fields.branch = some branch ∧ branch ∈ w.branches) :
    Restartable cfg jobId branch path valid (do
      perform (.updateTask id fields)
      recordEvent jobId kind payload id
      return checkout) w := by
  have hwrite : Restartable cfg jobId branch path valid (perform (.updateTask id fields)) w :=
    ensures_perform.mpr ⟨h, fun r w' hstep => write_acquirable h hworktree hbranch hstep⟩
  refine Ensures.bind hwrite (fun _ w₁ h₁ => ?_) fun _ _ h => h
  exact onward_then (makes_perform trivial) h₁ fun _ _ ho => ho.acquirable

theorem recoverWorktree_restartable {task : TaskRow} {integrationPath : Str}
    (h : Acquirable cfg jobId branch path w) (hplace : SamePlace task w.row)
    (hbranch : task.branch.val ≠ []) :
    Restartable cfg jobId branch path valid (recoverWorktree cfg jobId task integrationPath) w := by
  have hrow : w.row.branch.val ≠ [] := by
    rw [hplace.branch]
    exact hbranch
  obtain ⟨hname, hwhere, -⟩ := h.recorded hrow
  rw [hplace.branch] at hname
  rw [hplace.worktree] at hwhere
  -- the row places the task where a new worktree would be
  have hworktree : (if task.worktree.val ≠ [] then task.worktree.val
      else taskWorktree cfg jobId task) = path := by
    split_ifs
    · exact hwhere
    · have hsame := h.place
      rw [taskWorktree, hplace.logicalId, hplace.seq] at hsame
      exact hsame
  have hlocked : ∀ ref : Str, (withLock .merge <| withLock .repo <| atomicToThread
      (ensureExistingBranchWorktree (if task.worktree.val ≠ [] then task.worktree.val
        else taskWorktree cfg jobId task) task.branch.val ref)).Makes
      (AcquisitionCall branch path) := by
    intro ref
    rw [hworktree, hname]
    exact withLock_makes trivial trivial (withLock_makes trivial trivial
      (finishBeforeCancel_makes trivial ensureExistingBranchWorktree_calls))
  have hhead : Ensures (interrupted valid branch path)
    (fun _ w => Acquirable cfg jobId branch path w)
      (toThread (head integrationPath)) (fun _ w' => Onward cfg jobId branch path w w') w :=
    onward_keeps (finishBeforeCancel_makes trivial head_calls) h
  refine Ensures.joinBoth (fun _ => .refl h) (fun _ => hhead) (fun base w₁ ho₁ => ?_)
    fun _ _ ho => ho.acquirable
  refine onward_then (hlocked base) ho₁.acquirable fun _ w₂ ho₂ => ?_
  have hrow₂ : w₂.row.branch.val ≠ [] := by
    rw [ho₂.place.branch, ho₁.place.branch]
    exact hrow
  exact recordPlace_restartable ho₂.acquirable (congrArg some hworktree) (Or.inl ⟨rfl, hrow₂⟩)

/-! ### A new worktree -/

/-- What is returned is as stated, and by then the branch exists. -/
def Born {α : Type} (cfg : EngineConfig) (jobId : Text) (branch path : Str) (value : α → Prop)
    (w : AcquisitionWorld) (r : Except Raised α) (w' : AcquisitionWorld) : Prop :=
  Onward cfg jobId branch path w w' ∧ ∀ a, r = .ok a → value a ∧ branch ∈ w'.branches

abbrev Bears {α : Type} (cfg : EngineConfig) (jobId : Text) (branch path : Str)
    (valid : Str → Bool) (value : α → Prop) (p : Coroutine α) (w : AcquisitionWorld) : Prop :=
  Ensures (interrupted valid branch path) (fun _ w => Acquirable cfg jobId branch path w) p
    (Born cfg jobId branch path value w) w

section Born

variable {α β : Type} {value : α → Prop} {value' : β → Prop}

theorem born_error {x : Raised} (h : Onward cfg jobId branch path w w') :
    Born cfg jobId branch path value w (.error x) w' := by
  refine ⟨h, fun a heq => ?_⟩
  cases heq

theorem born_then {p : Coroutine α} {f : α → Coroutine β}
    (hp : p.Makes (AcquisitionCall branch path)) (h : Acquirable cfg jobId branch path w)
    (hf : ∀ a w₁, Onward cfg jobId branch path w w₁ →
      Bears cfg jobId branch path valid value' (f a) w₁) :
    Bears cfg jobId branch path valid value' (p >>= f) w := by
  refine (onward_keeps hp h).bind (fun a w₁ ho => ?_) fun x w₁ ho => born_error ho
  exact (hf a w₁ ho).imp fun r w₂ hborn => ⟨ho.trans hborn.1, hborn.2⟩

theorem bears_then {p : Coroutine α} {f : α → Coroutine β}
    (hp : Bears cfg jobId branch path valid value p w)
    (hf : ∀ a w₁, value a → branch ∈ w₁.branches → Onward cfg jobId branch path w w₁ →
      Bears cfg jobId branch path valid value' (f a) w₁) :
    Bears cfg jobId branch path valid value' (p >>= f) w := by
  refine Ensures.bind hp (fun a w₁ hborn => ?_) fun x w₁ hborn => born_error hborn.1
  obtain ⟨hvalue, hmem⟩ := hborn.2 a rfl
  exact (hf a w₁ hvalue hmem hborn.1).imp fun r w₂ hborn₂ => ⟨hborn.1.trans hborn₂.1, hborn₂.2⟩

/-- An outcome, handed on after a call that changes nothing of the task. -/
theorem handOn_born {q : Coroutine Unit} {outcome : Except Raised α} {w₀ : AcquisitionWorld}
    (hq : q.Makes (AcquisitionCall branch path))
    (hborn : Born cfg jobId branch path value w₀ outcome w) :
    Ensures (interrupted valid branch path) (fun _ w => Acquirable cfg jobId branch path w)
      (q >>= fun _ => .ofExcept outcome) (Born cfg jobId branch path value w₀) w := by
  refine (onward_keeps hq hborn.1.acquirable).bind (fun _ w₁ ho => ?_)
    fun x w₁ ho => born_error (hborn.1.trans ho)
  rw [ensures_ofExcept]
  refine ⟨hborn.1.trans ho, fun a heq => ?_⟩
  obtain ⟨hvalue, hmem⟩ := hborn.2 a heq
  exact ⟨hvalue, ho.born hmem⟩

theorem finishBeforeCancel_bears {p : Coroutine α}
    (hp : Bears cfg jobId branch path valid value p w) :
    Bears cfg jobId branch path valid value (finishBeforeCancel p) w :=
  ensures_bind.mpr (ensures_attempt.mpr (hp.imp fun _ _ hborn =>
    handOn_born (makes_perform trivial) hborn))

theorem withLock_bears {lock : Lock} {p : Coroutine α} (h : Acquirable cfg jobId branch path w)
    (hp : ∀ w₁, Onward cfg jobId branch path w w₁ →
      Bears cfg jobId branch path valid value p w₁) :
    Bears cfg jobId branch path valid value (withLock lock p) w := by
  refine born_then (makes_perform trivial) h fun _ w₁ ho => ?_
  exact ensures_bind.mpr (ensures_attempt.mpr ((hp w₁ ho).imp fun _ _ hborn =>
    handOn_born (makes_perform trivial) hborn))

end Born

/-- A branch that is added exists. -/
theorem addNewBranch_mem {ref : Str}
    (h : (topologyAnswer valid w (.addNewBranch branch path ref)).1 = .ok ()) :
    branch ∈ (topologyAnswer valid w (.addNewBranch branch path ref)).2.branches := by
  simp only [topologyAnswer] at h ⊢
  split at h
  · rename_i hnew
    rw [if_pos hnew]
    exact List.mem_cons_self
  · cases h

/-- The branch exists once it has been added. -/
theorem addNewBranch_bears {ref : Str} (h : Acquirable cfg jobId branch path w) :
    Bears cfg jobId branch path valid (fun _ => True)
      (topologyCommand (.addNewBranch branch path ref)) w := by
  refine ensures_perform.mpr ⟨h, fun r w' hstep => ?_⟩
  refine ⟨interrupted_onward (e := .topology (.addNewBranch branch path ref)) ⟨rfl, rfl⟩ h hstep,
    fun a hok => ⟨trivial, ?_⟩⟩
  obtain ⟨w₁, ⟨hr, hw₁⟩ | ⟨x, hr, -⟩, helse⟩ := hstep
  · rw [helse.born, hw₁]
    have hadded : (topologyAnswer valid w (.addNewBranch branch path ref)).1 = .ok () :=
      hr.symm.trans hok
    exact addNewBranch_mem hadded
  · cases hr.symm.trans hok

theorem ensureWorktree_bears {ref : Str} (h : Acquirable cfg jobId branch path w) :
    Bears cfg jobId branch path valid (fun _ => True) (ensureWorktree path branch ref) w := by
  have hcreate : ∀ w₁, Acquirable cfg jobId branch path w₁ →
      Bears cfg jobId branch path valid (fun _ => True) (branchExists branch >>= fun known =>
        if known then raiseGit (lit "refusing to overwrite existing branch: " ++ branch)
        else do
          topologyCommand (.addNewBranch branch path ref)
          gitCommand path (.assertWorktree (some branch))) w₁ := by
    intro w₁ h₁
    refine born_then branchExists_calls h₁ fun _ w₂ ho₂ => Ensures.ite
      (fun _ => born_error (.refl ho₂.acquirable)) fun _ => ?_
    refine bears_then (addNewBranch_bears ho₂.acquirable) fun _ w₃ _ hmem ho₃ => ?_
    exact (onward_keeps assertWorktree_calls ho₃.acquirable).imp fun r w₄ ho₄ =>
      ⟨ho₄, fun _ _ => ⟨trivial, ho₄.born hmem⟩⟩
  refine born_then validateBranchName_calls h fun _ w₁ ho₁ => ?_
  refine born_then ensureParent_calls ho₁.acquirable fun _ w₂ ho₂ => ?_
  refine born_then pathExists_calls ho₂.acquirable fun _ w₃ ho₃ => ?_
  refine Ensures.ite (fun _ => ?_) fun _ => hcreate w₃ ho₃.acquirable
  refine born_then isSymlink_calls ho₃.acquirable fun _ w₄ ho₄ => ?_
  refine Ensures.ite (fun _ => born_error (.refl ho₄.acquirable)) fun _ => ?_
  refine born_then assertWorktree_calls ho₄.acquirable fun _ w₅ ho₅ => ?_
  exact born_then removeWorktree_calls ho₅.acquirable fun _ w₆ ho₆ => hcreate w₆ ho₆.acquirable

theorem createWorktree_restartable {task : TaskRow} {integrationPath : Str}
    (h : Acquirable cfg jobId branch path w) (hplace : SamePlace task w.row) :
    Restartable cfg jobId branch path valid (createWorktree cfg jobId task integrationPath) w := by
  have hown : ownBranch cfg jobId task = branch := by
    rw [← h.own, ownBranch, ownBranch, hplace.logicalId]
  have hwhere : taskWorktree cfg jobId task = path := by
    rw [← h.place, taskWorktree, taskWorktree, hplace.logicalId, hplace.seq]
  have hlocked : Bears cfg jobId branch path valid
      (fun checkout : TaskCheckout => checkout.branch = branch ∧ checkout.worktree = path)
      (withLock .merge <| withLock .repo do
        let baseCommit ← toThread (head integrationPath)
        let branch := taskBranch cfg.branchPrefix jobId.val task.logicalId.val
        let worktree := taskWorktree cfg jobId task
        atomicToThread (ensureWorktree worktree branch baseCommit)
        pure { branch, worktree, baseCommit : TaskCheckout }) w := by
    refine withLock_bears h fun w₁ ho₁ => withLock_bears ho₁.acquirable fun w₂ ho₂ => ?_
    refine born_then (finishBeforeCancel_makes trivial head_calls) ho₂.acquirable fun _ w₃ ho₃ => ?_
    have hown : taskBranch cfg.branchPrefix jobId.val task.logicalId.val = branch := hown
    rw [hown, hwhere]
    refine bears_then (finishBeforeCancel_bears (ensureWorktree_bears ho₃.acquirable))
      fun _ w₄ _ hmem ho₄ => ?_
    refine ⟨.refl ho₄.acquirable, fun checkout heq => ?_⟩
    cases heq
    exact ⟨⟨rfl, rfl⟩, hmem⟩
  refine Ensures.bind hlocked (fun checkout w₁ hborn => ?_) fun _ _ hborn => hborn.1.acquirable
  obtain ⟨⟨hbranch, hworktree⟩, hmem⟩ := hborn.2 checkout rfl
  exact recordPlace_restartable hborn.1.acquirable (congrArg some hworktree)
    (Or.inr ⟨congrArg some hbranch, hmem⟩)

/-- Wherever the acquisition is interrupted, what it leaves can be acquired or names no
branch. -/
theorem acquireWorktree_restartable {integrationPath : Str}
    (h : Acquirable cfg jobId branch path w) :
    Restartable cfg jobId branch path valid
      (acquireWorktree cfg jobId w.row integrationPath) w := by
  have hlookup : w.row.branch.val ≠ [] → Ensures (interrupted valid branch path)
      (fun _ w => Acquirable cfg jobId branch path w) (toThread (branchExists w.row.branch.val))
      (fun r w' => Onward cfg jobId branch path w w' ∧ (r = .ok true → w.row.branch.val ≠ [])) w :=
    fun hne => (onward_keeps (finishBeforeCancel_makes trivial branchExists_calls) h).imp
      fun _ _ ho => ⟨ho, fun _ => hne⟩
  refine Ensures.joinBoth hlookup (fun _ => ?_) (fun known w₁ hmid => ?_)
    fun _ _ hmid => hmid.1.acquirable
  · exact ⟨.refl h, fun heq => by cases heq⟩
  · obtain ⟨ho, hknown⟩ := hmid
    refine Ensures.ite (fun heq => ?_) fun _ => createWorktree_restartable ho.acquirable ho.place
    rw [heq] at hknown
    exact recoverWorktree_restartable ho.acquirable ho.place (hknown rfl)

end Interrupted

/-! ## The acquisition, run to its end -/

section Run

variable {cfg : EngineConfig} {jobId : Text} {branch path : Str} {valid : Str → Bool}
  {w w' : AcquisitionWorld} {α : Type}

theorem run_finishBeforeCancel {p : Coroutine α} {r : Except Raised α}
    (h : run (gitAnswer valid) p w = (r, w')) :
    run (gitAnswer valid) (finishBeforeCancel p) w = (r, w') := by
  have hsuspend : run (gitAnswer valid) (perform .suspend) w' = (.ok (), w') := rfl
  exact run_then (run_attempt_eq h) (run_then hsuspend run_ofExcept)

theorem run_withLock {lock : Lock} {p : Coroutine α} {r : Except Raised α}
    (h : run (gitAnswer valid) p w = (r, w')) :
    run (gitAnswer valid) (withLock lock p) w = (r, w') := by
  refine run_then (a := ()) rfl (run_then (run_attempt_eq h) (run_then (a := ()) rfl ?_))
  exact run_ofExcept

theorem run_head {cwd : Str} : run (gitAnswer valid) (head cwd) w = (.ok w.head.val, w) := rfl

theorem run_validate {name : Str} (hvalid : valid name = true) :
    run (gitAnswer valid) (topologyCommand (.validateBranchName name)) w = (.ok (), w) := by
  refine run_perform.trans ?_
  show ((if valid name then .ok () else gitFails "invalid name" : Except Raised Unit), w) = _
  rw [if_pos hvalid]
  rfl

theorem run_validate_error {name : Str} (hvalid : valid name = false) :
    ∃ x, run (gitAnswer valid) (topologyCommand (.validateBranchName name)) w = (.error x, w) := by
  refine ⟨.gitError (lit "invalid name"), run_perform.trans ?_⟩
  show ((if valid name then .ok () else gitFails "invalid name" : Except Raised Unit), w) = _
  rw [hvalid]
  rfl

theorem run_ensureParent :
    run (gitAnswer valid) (topologyCommand (.ensureParent path)) w = (.ok (), w) := rfl

theorem run_prune : run (gitAnswer valid) (topologyCommand .prune) w = (.ok (), w) := rfl

theorem run_isSymlink : run (gitAnswer valid) (isSymlink path) w = (.ok false, w) := rfl

theorem run_branchExists {name : Str} (hvalid : valid name = true) :
    run (gitAnswer valid) (branchExists name) w = (.ok (decide (name ∈ w.branches)), w) :=
  run_then (run_validate hvalid) rfl

theorem run_pathExists {found : Bool} (h : (w.checkedOut? path).isSome = found) :
    run (gitAnswer valid) (pathExists path) w = (.ok found, w) := by
  rw [← h]
  rfl

theorem run_gitFileExists {found : Bool} (h : (w.checkedOut? path).isSome = found) :
    run (gitAnswer valid) (gitFileExists path) w = (.ok found, w) := by
  rw [← h]
  rfl

theorem run_assert {expected : Option Str} (h : w.checkedOut? path = some branch)
    (hexpected : expected.getD branch = branch) :
    run (gitAnswer valid) (gitCommand path (.assertWorktree expected)) w = (.ok (), w) := by
  refine run_perform.trans ?_
  show (assertAnswer w path expected, w) = _
  rw [assertAnswer, h]
  simp only [hexpected, if_true]
  rfl

/-- The worktree of a task with a branch is where the row says, or is added there. -/
theorem run_ensureExisting (ref : Str) (h : Acquirable cfg jobId branch path w)
    (hvalid : valid branch = true) (hborn : branch ∈ w.branches) :
    ∃ w', run (gitAnswer valid) (ensureExistingBranchWorktree path branch ref) w = (.ok (), w') ∧
      w'.checkedOut? path = some branch ∧ w'.row = w.row := by
  cases hcheck : w.checkedOut? path with
  | some b =>
    obtain rfl : b = branch := h.at_path b (mem_of_checkedOut? hcheck)
    have hfound : (w.checkedOut? path).isSome = true := by rw [hcheck]; rfl
    refine ⟨w, ?_, hcheck, rfl⟩
    refine run_then (run_validate hvalid) (run_then run_ensureParent ?_)
    refine run_then (run_pathExists hfound) ((run_ite_pos rfl).trans ?_)
    refine run_then run_isSymlink ((run_ite_neg Bool.noConfusion).trans ?_)
    exact run_then (run_gitFileExists hfound) ((run_ite_pos rfl).trans (run_assert hcheck rfl))
  | none =>
    have hfound : (w.checkedOut? path).isSome = false := by rw [hcheck]; rfl
    have hfree : branch ∉ w.worktrees.map Prod.snd := by
      intro hmem
      rcases List.mem_map.mp hmem with ⟨⟨p, b⟩, hp, rfl⟩
      obtain ⟨rfl, -⟩ := h.at_branch p hp
      exact checkedOut?_eq_none.mp hcheck b hp
    have hadded : (w.addWorktree path branch).checkedOut? path = some branch :=
      List.lookup_cons_self
    have hadd : run (gitAnswer valid) (topologyCommand (.addWorktree path branch)) w =
        (.ok (), w.addWorktree path branch) := by
      refine run_perform.trans ?_
      show topologyAnswer valid w (.addWorktree path branch) = _
      simp only [topologyAnswer]
      exact if_pos ⟨hborn, hcheck, hfree⟩
    refine ⟨w.addWorktree path branch, ?_, hadded, rfl⟩
    refine run_then (run_validate hvalid) (run_then run_ensureParent ?_)
    refine run_then (run_pathExists hfound) ((run_ite_neg Bool.noConfusion).trans ?_)
    refine run_then run_prune (run_then (run_branchExists hvalid) ?_)
    refine (run_ite_pos (decide_eq_true hborn)).trans ?_
    exact run_then hadd (run_assert hadded rfl)

/-- The row is written where its texts are Unicode. -/
theorem run_recordPlace {id : Text} {fields : TaskFields} {kind : String}
    {payload : List (Str × Json NonFinite)} {checkout : TaskCheckout} {columns : TaskColumns}
    (hbind : fields.bindColumns = .ok columns) :
    run (gitAnswer valid) (do
      perform (.updateTask id fields)
      recordEvent jobId kind payload id
      return checkout) w =
        (.ok checkout, { w with row := columns.write w.row.state w.row.updatedAt w.row }) := by
  have hwrite : run (gitAnswer valid) (perform (.updateTask id fields)) w =
      (.ok (), { w with row := columns.write w.row.state w.row.updatedAt w.row }) := by
    refine run_perform.trans ?_
    show w.write fields = _
    rw [AcquisitionWorld.write, hbind]
    rfl
  exact run_then hwrite rfl

theorem bindOption_text {text : Str} (h : isText text = true) :
    bindOption (some text) = .ok (some ⟨text, h⟩) := by
  rw [bindOption, bindText, dif_pos h]
  rfl

/-- The rest of the recovery, from the place and the base that it decides on. -/
theorem run_recoverAt {place : Str} (base : Text) (h : Acquirable cfg jobId branch path w)
    (hvalid : valid branch = true) (hne : w.row.branch.val ≠ []) (hplace : place = path) :
    ∃ w', run (gitAnswer valid) (do
      withLock .merge <| withLock .repo <|
        atomicToThread (ensureExistingBranchWorktree place w.row.branch.val base.val)
      perform (.updateTask w.row.id { worktree := some place, baseCommit := some base.val })
      let checkout := { branch := w.row.branch.val, worktree := place, baseCommit := base.val }
      recordEvent jobId "task.worktree_recovered" (TaskCheckout.payload checkout) w.row.id
      return checkout) w = (.ok ⟨w.row.branch.val, place, base.val⟩, w') ∧
      w'.checkedOut? place = some branch := by
  subst hplace
  obtain ⟨hname, hwhere, hborn⟩ := h.recorded hne
  obtain ⟨w₁, hensure, hcheck, -⟩ := run_ensureExisting base.val h hvalid hborn
  rw [← hname] at hensure
  have htext : isText place = true := by
    rw [← hwhere]
    exact w.row.worktree.encodes
  have hbind : TaskFields.bindColumns { worktree := some place, baseCommit := some base.val } =
      .ok ⟨none, none, some ⟨place, htext⟩, some base, none, none, none⟩ := by
    simp only [TaskFields.bindColumns, bindOption_text htext, bindOption_text base.encodes]
    rfl
  exact ⟨_, run_then (run_withLock (run_withLock (run_finishBeforeCancel hensure)))
    (run_recordPlace hbind), hcheck⟩

theorem run_recover (integrationPath : Str) (h : Acquirable cfg jobId branch path w)
    (hvalid : valid branch = true) (hne : w.row.branch.val ≠ []) :
    ∃ checkout w', run (gitAnswer valid) (recoverWorktree cfg jobId w.row integrationPath) w =
      (.ok checkout, w') ∧ checkout.branch = branch ∧
        w'.checkedOut? checkout.worktree = some branch := by
  obtain ⟨hname, hwhere, -⟩ := h.recorded hne
  have hworktree : (if w.row.worktree.val ≠ [] then w.row.worktree.val
      else taskWorktree cfg jobId w.row) = path := by
    split_ifs
    · exact hwhere
    · exact h.place
  by_cases hbase : w.row.baseCommit.val ≠ []
  · obtain ⟨w', hrun, hcheck⟩ := run_recoverAt w.row.baseCommit h hvalid hne hworktree
    exact ⟨_, w', (run_ite_pos hbase).trans (run_then rfl hrun), hname, hcheck⟩
  · obtain ⟨w', hrun, hcheck⟩ := run_recoverAt w.head h hvalid hne hworktree
    exact ⟨_, w', (run_ite_neg hbase).trans
      (run_then (run_finishBeforeCancel run_head) hrun), hname, hcheck⟩

/-- A path that is no worktree. -/
theorem Acquirable.free (h : Acquirable cfg jobId branch path w) (hborn : branch ∉ w.branches) :
    w.checkedOut? path = none := by
  rw [checkedOut?_eq_none]
  intro c hc
  obtain rfl := h.at_path c hc
  exact hborn (h.at_branch path hc).2

/-- A branch that does not exist is created with its worktree. -/
theorem run_ensureWorktree (ref : Str) (h : Acquirable cfg jobId branch path w)
    (hvalid : valid branch = true) (hnew : w.Available branch) :
    run (gitAnswer valid) (ensureWorktree path branch ref) w =
      (.ok (), (w.addBranch branch).addWorktree path branch) := by
  have hborn := hnew.1
  have hfree := h.free hborn
  have hfound : (w.checkedOut? path).isSome = false := by rw [hfree]; rfl
  have hadd : run (gitAnswer valid) (topologyCommand (.addNewBranch branch path ref)) w =
      (.ok (), (w.addBranch branch).addWorktree path branch) := by
    refine run_perform.trans ?_
    show topologyAnswer valid w (.addNewBranch branch path ref) = _
    simp only [topologyAnswer]
    exact if_pos ⟨hnew, hfree⟩
  refine run_then (run_validate hvalid) (run_then run_ensureParent ?_)
  refine run_then (run_pathExists hfound) ((run_ite_neg Bool.noConfusion).trans ?_)
  refine run_then (run_branchExists hvalid) ?_
  refine (run_ite_neg (by rw [decide_eq_true_eq]; exact hborn)).trans ?_
  exact run_then hadd (run_assert List.lookup_cons_self rfl)

theorem run_removeWorktree (hcheck : w.checkedOut? path = some branch) :
    run (gitAnswer valid) (removeWorktree path) w =
      (.ok (), { w with worktrees := w.worktrees.filter (·.1 ≠ path) }) := by
  have hfound : (w.checkedOut? path).isSome = true := by rw [hcheck]; rfl
  refine run_then (run_pathExists hfound) ((run_ite_pos rfl).trans ?_)
  refine run_then run_isSymlink ((run_ite_neg Bool.noConfusion).trans ?_)
  exact run_then (run_assert hcheck rfl) rfl

/-- A branch that exists is not overwritten; its worktree is removed by then. -/
theorem run_ensureWorktree_exists (ref : Str) (h : Acquirable cfg jobId branch path w)
    (hvalid : valid branch = true) (hborn : branch ∈ w.branches) :
    ∃ x w', run (gitAnswer valid) (ensureWorktree path branch ref) w = (.error x, w') := by
  have hrefuse : ∀ w₁ : AcquisitionWorld, branch ∈ w₁.branches → ∃ x,
      run (gitAnswer valid) (branchExists branch >>= fun known =>
        if known then raiseGit (lit "refusing to overwrite existing branch: " ++ branch)
        else do
          topologyCommand (.addNewBranch branch path ref)
          gitCommand path (.assertWorktree (some branch))) w₁ = (.error x, w₁) := fun w₁ hmem =>
    ⟨_, run_then (run_branchExists hvalid) (run_ite_pos (decide_eq_true hmem))⟩
  cases hcheck : w.checkedOut? path with
  | some b =>
    obtain rfl : b = branch := h.at_path b (mem_of_checkedOut? hcheck)
    have hfound : (w.checkedOut? path).isSome = true := by rw [hcheck]; rfl
    let w₁ : AcquisitionWorld := { w with worktrees := w.worktrees.filter (·.1 ≠ path) }
    obtain ⟨x, hrun⟩ := hrefuse w₁ hborn
    refine ⟨x, w₁, run_then (run_validate hvalid) (run_then run_ensureParent ?_)⟩
    refine run_then (run_pathExists hfound) ((run_ite_pos rfl).trans ?_)
    refine run_then run_isSymlink ((run_ite_neg Bool.noConfusion).trans ?_)
    exact run_then (run_assert hcheck rfl) (run_then (run_removeWorktree hcheck) hrun)
  | none =>
    have hfound : (w.checkedOut? path).isSome = false := by rw [hcheck]; rfl
    obtain ⟨x, hrun⟩ := hrefuse w hborn
    refine ⟨x, w, run_then (run_validate hvalid) (run_then run_ensureParent ?_)⟩
    exact run_then (run_pathExists hfound) ((run_ite_neg Bool.noConfusion).trans hrun)

/-- Nothing else can be in the way of a branch than its name, another branch and itself. -/
theorem run_ensureWorktree_error (ref : Str) (h : Acquirable cfg jobId branch path w)
    (hbad : ¬ (valid branch = true ∧ w.Available branch)) :
    ∃ x w', run (gitAnswer valid) (ensureWorktree path branch ref) w = (.error x, w') := by
  by_cases hvalid : valid branch = true
  · by_cases hborn : branch ∈ w.branches
    · exact run_ensureWorktree_exists ref h hvalid hborn
    · -- Git refuses to create the branch
      have hnew : ¬ w.Available branch := fun hnew => hbad ⟨hvalid, hnew⟩
      have hfound : (w.checkedOut? path).isSome = false := by rw [h.free hborn]; rfl
      have hadd : run (gitAnswer valid) (topologyCommand (.addNewBranch branch path ref)) w =
          (.error (.gitError (lit "exists")), w) := by
        refine run_perform.trans ?_
        show topologyAnswer valid w (.addNewBranch branch path ref) = _
        simp only [topologyAnswer]
        exact if_neg fun hboth => hnew hboth.1
      refine ⟨.gitError (lit "exists"), w,
        run_then (run_validate hvalid) (run_then run_ensureParent ?_)⟩
      refine run_then (run_pathExists hfound) ((run_ite_neg Bool.noConfusion).trans ?_)
      refine run_then (run_branchExists hvalid) ?_
      refine (run_ite_neg (by rw [decide_eq_true_eq]; exact hborn)).trans ?_
      exact run_bind_error hadd
  · obtain ⟨x, hrun⟩ := run_validate_error (w := w) (Bool.not_eq_true _ ▸ hvalid)
    exact ⟨x, w, run_bind_error hrun⟩

theorem run_create (integrationPath : Str) (h : Acquirable cfg jobId branch path w)
    (hvalid : valid branch = true) (hnew : w.Available branch) (hbranch : isText branch = true)
    (hpath : isText path = true) :
    ∃ checkout w', run (gitAnswer valid) (createWorktree cfg jobId w.row integrationPath) w =
      (.ok checkout, w') ∧ checkout.branch = branch ∧
        w'.checkedOut? checkout.worktree = some branch := by
  have hensure := run_ensureWorktree w.head.val h hvalid hnew
  obtain ⟨rfl, rfl⟩ := And.intro h.own h.place
  have hbind : TaskFields.bindColumns
      { branch := some (ownBranch cfg jobId w.row)
        worktree := some (taskWorktree cfg jobId w.row), baseCommit := some w.head.val } =
      .ok ⟨none, some ⟨_, hbranch⟩, some ⟨_, hpath⟩, some w.head, none, none, none⟩ := by
    simp only [TaskFields.bindColumns, bindOption_text hbranch, bindOption_text hpath,
      bindOption_text w.head.encodes]
    rfl
  refine ⟨⟨ownBranch cfg jobId w.row, taskWorktree cfg jobId w.row, w.head.val⟩, _,
    run_then (run_withLock (run_withLock (run_then (run_finishBeforeCancel run_head) (run_then
      (run_finishBeforeCancel hensure) rfl)))) (run_recordPlace hbind), rfl, ?_⟩
  exact List.lookup_cons_self

/-- A row stores the branch and the place of its task only where both are texts. -/
theorem bindColumns_error {baseCommit : Option Str}
    (h : ¬ (isText branch = true ∧ isText path = true)) :
    ∃ e, TaskFields.bindColumns
      { branch := some branch, worktree := some path, baseCommit := baseCommit } = .error e := by
  cases hbind : TaskFields.bindColumns
      { branch := some branch, worktree := some path, baseCommit := baseCommit } with
  | error e => exact ⟨e, rfl⟩
  | ok columns =>
    obtain ⟨hb, hwt⟩ := bindColumns_place hbind
    obtain ⟨storedBranch, -, hbranch⟩ := Option.map_eq_some_iff.mp hb
    obtain ⟨storedPath, -, hpath⟩ := Option.map_eq_some_iff.mp hwt
    exact absurd ⟨hbranch ▸ storedBranch.encodes, hpath ▸ storedPath.encodes⟩ h

theorem run_create_error (integrationPath : Str) (h : Acquirable cfg jobId branch path w)
    (hbad : ¬ (valid branch = true ∧ w.Available branch ∧ isText branch = true ∧
      isText path = true)) :
    ∃ x w', run (gitAnswer valid) (createWorktree cfg jobId w.row integrationPath) w =
      (.error x, w') := by
  by_cases hnew : valid branch = true ∧ w.Available branch
  · -- the branch is created, and the row cannot be written
    have hensure := run_ensureWorktree w.head.val h hnew.1 hnew.2
    obtain ⟨e, hbind⟩ := @bindColumns_error branch path (some w.head.val)
      fun htexts => hbad ⟨hnew.1, hnew.2, htexts⟩
    obtain ⟨rfl, rfl⟩ := And.intro h.own h.place
    have hwrite : ∀ w₁ : AcquisitionWorld, run (gitAnswer valid) (perform (.updateTask w.row.id
        { branch := some (ownBranch cfg jobId w.row)
          worktree := some (taskWorktree cfg jobId w.row), baseCommit := some w.head.val })) w₁ =
        (.error (.ofExn e), w₁) := by
      intro w₁
      refine run_perform.trans ?_
      show w₁.write _ = _
      rw [AcquisitionWorld.write, hbind]
      rfl
    exact ⟨_, _, run_then (run_withLock (run_withLock (run_then (run_finishBeforeCancel run_head)
      (run_then (run_finishBeforeCancel hensure) rfl)))) (run_bind_error (hwrite _))⟩
  · obtain ⟨x, w', hrun⟩ := run_ensureWorktree_error w.head.val h hnew
    obtain ⟨rfl, rfl⟩ := And.intro h.own h.place
    exact ⟨x, w', run_bind_error (run_withLock (run_withLock (run_then
      (run_finishBeforeCancel run_head) (run_bind_error (run_finishBeforeCancel hrun)))))⟩

/-- From what an interruption leaves, the acquisition succeeds if and only if Git accepts the
name of the branch, and the row names it or it can be created and written to the row. -/
theorem acquisitionSucceeds_iff {integrationPath : Str} (h : Acquirable cfg jobId branch path w) :
    AcquisitionSucceeds cfg jobId integrationPath valid w ↔
      valid branch = true ∧ (w.row.branch.val ≠ [] ∨
        (w.Available branch ∧ isText branch = true ∧ isText path = true)) := by
  rw [AcquisitionSucceeds, h.own]
  by_cases hne : w.row.branch.val ≠ []
  · -- the row names the branch, which exists
    obtain ⟨hname, -, hborn⟩ := h.recorded hne
    by_cases hvalid : valid branch = true
    · have hknown : run (gitAnswer valid) (toThread (branchExists w.row.branch.val)) w =
          (.ok true, w) := by
        rw [hname, ← decide_eq_true hborn]
        exact run_finishBeforeCancel (run_branchExists hvalid)
      obtain ⟨checkout, w', hrun, hend⟩ :=
        run_recover integrationPath h hvalid hne
      exact iff_of_true ⟨checkout, w', (run_ite_pos hne).trans
        (run_then hknown ((run_ite_pos rfl).trans hrun)), hend⟩ ⟨hvalid, Or.inl hne⟩
    -- Git refuses the name, and does so before it looks for the branch
    · refine iff_of_false ?_ fun hboth => hvalid hboth.1
      rintro ⟨checkout, w', hrun, -⟩
      obtain ⟨x, hrefuse⟩ := run_validate_error (w := w) (Bool.not_eq_true _ ▸ hvalid)
      have hunknown : run (gitAnswer valid) (toThread (branchExists w.row.branch.val)) w =
          (.error x, w) := by
        rw [hname]
        exact run_finishBeforeCancel (run_bind_error hrefuse)
      rw [acquireWorktree, run_ite_pos hne, run_bind_error hunknown] at hrun
      cases hrun
  · -- a branch and a worktree are to be created
    have hunknown : ∀ result, run (gitAnswer valid) (createWorktree cfg jobId w.row integrationPath)
        w = result → run (gitAnswer valid) (acquireWorktree cfg jobId w.row integrationPath) w =
          result := fun result hrun =>
      (run_ite_neg hne).trans (run_then rfl ((run_ite_neg Bool.noConfusion).trans hrun))
    by_cases hgood : valid branch = true ∧ w.Available branch ∧ isText branch = true ∧
        isText path = true
    -- the name is free and valid, and the row takes both texts
    · obtain ⟨hvalid, hnew, hbranch, hpath⟩ := hgood
      obtain ⟨checkout, w', hrun, hend⟩ :=
        run_create integrationPath h hvalid hnew hbranch hpath
      exact iff_of_true ⟨checkout, w', hunknown _ hrun, hend⟩
        ⟨hvalid, Or.inr ⟨hnew, hbranch, hpath⟩⟩
    -- one of the four is missing: the creation raises
    · refine iff_of_false ?_ fun ⟨hvalid, hrest⟩ => hgood ⟨hvalid, hrest.resolve_left hne⟩
      rintro ⟨checkout, w', hrun, -⟩
      obtain ⟨x, w₁, herror⟩ :=
        run_create_error integrationPath h hgood
      rw [hunknown _ herror] at hrun
      cases hrun

end Run

/-! ## Every run -/

section Reachable

variable {cfg : EngineConfig} {jobId : Text} {integrationPath : Str} {valid : Str → Bool}
  {task : TaskRow}

theorem FreshTask.acquirable {w : AcquisitionWorld} (h : FreshTask cfg jobId w) :
    Acquirable cfg jobId (ownBranch cfg jobId w.row) (taskWorktree cfg jobId w.row) w where
  own := rfl
  place := rfl
  recorded hne := absurd h.branchEmpty hne
  at_path c hc := absurd hc (h.unoccupied c)
  at_branch p hp := absurd hp (h.notCheckedOut p)

/-- What the runs preserve: the world can be acquired, and so can what the program
leaves of it. -/
def Resumable (cfg : EngineConfig) (jobId : Text) (valid : Str → Bool) (task : TaskRow)
    (c : Coroutine TaskCheckout × AcquisitionWorld) : Prop :=
  Acquirable cfg jobId (ownBranch cfg jobId task) (taskWorktree cfg jobId task) c.2 ∧
    Restartable cfg jobId (ownBranch cfg jobId task) (taskWorktree cfg jobId task) valid c.1 c.2

theorem resumable_of_reachable {c : Coroutine TaskCheckout × AcquisitionWorld}
    (hc : (acquisitions cfg jobId integrationPath valid task).Reachable c) :
    Resumable cfg jobId valid task c := by
  refine hc.invariant (fun c₀ h₀ => ?_) fun c₁ l c₂ _ hinv hstep => ?_
  · obtain ⟨hp, rfl, hfresh⟩ := h₀
    refine ⟨hfresh.acquirable, ?_⟩
    rw [hp]
    exact acquireWorktree_restartable hfresh.acquirable
  · obtain ⟨hworld, hensures⟩ := hinv
    cases l with
    | call reply =>
      obtain ⟨next, hcall, hnext, hreply⟩ := hstep
      rw [hcall] at hensures
      have hrest := hensures.2 _ _ hreply
      rw [← hnext] at hrest
      exact ⟨hrest.now (fun _ _ h => h) fun _ _ h => h, hrest⟩
    | restart =>
      obtain rfl : c₂ = (acquireWorktree cfg jobId c₁.2.row integrationPath, c₁.2) := hstep
      exact ⟨hworld, acquireWorktree_restartable hworld⟩

/-- Wherever the acquisition is interrupted, and however often, the next one succeeds if
and only if Git accepts the name of the task's branch, and the row names a branch, or the
task's branch can be created and the row can store it. -/
theorem acquisition_restartable_iff {c : Coroutine TaskCheckout × AcquisitionWorld}
    (hc : (acquisitions cfg jobId integrationPath valid task).Reachable c) :
    AcquisitionSucceeds cfg jobId integrationPath valid c.2 ↔
      valid (ownBranch cfg jobId c.2.row) = true ∧ (c.2.row.branch.val ≠ [] ∨
        (c.2.Available (ownBranch cfg jobId c.2.row) ∧ isText cfg.branchPrefix = true ∧
          isText cfg.worktreesDir = true)) := by
  have hworld := (resumable_of_reachable hc).1
  have hbranch : isText (ownBranch cfg jobId task) = isText cfg.branchPrefix := by
    simp only [ownBranch, taskBranch, isText_append, isText_lit, isText_slug, jobId.encodes,
      Bool.and_true]
  have hpath : isText (taskWorktree cfg jobId task) = isText cfg.worktreesDir := by
    simp only [taskWorktree, isText_append, isText_lit, isText_slug, isText_decimal,
      jobId.encodes, Bool.and_true]
  rw [acquisitionSucceeds_iff hworld, hworld.own, hbranch, hpath]

/-! ## A crash after the branch is added -/

/-- A task that is taken up for the first time. -/
def firstTask : TaskRow where
  id := Text.lit "task-1"
  jobId := Text.lit "job-1"
  seq := 1
  logicalId := Text.lit "build"
  title := Text.lit "Build"
  description := Text.lit ""
  state := .pending
  createdAt := 0
  updatedAt := 0

/-- A repository with the branch of its user. -/
def newRepository : AcquisitionWorld where
  branches := [lit "main"]
  worktrees := []
  head := Text.lit "c0"
  row := firstTask

theorem newRepository_fresh : FreshTask smallEngine (Text.lit "job-1") newRepository where
  branchEmpty := rfl
  unborn := by decide
  unoccupied _ := List.not_mem_nil
  notCheckedOut _ := List.not_mem_nil

/-- A program, after some calls that are answered without interruption. -/
def answered {α : Type} (valid : Str → Bool) :
    Nat → Coroutine α × AcquisitionWorld → Coroutine α × AcquisitionWorld
  | calls + 1, (.call e next, w) =>
    answered valid calls (next (gitAnswer valid e w).1, (gitAnswer valid e w).2)
  | _, c => c

theorem answered_reachable {c : Coroutine TaskCheckout × AcquisitionWorld} (calls : Nat)
    (hc : (acquisitions cfg jobId integrationPath valid task).Reachable c) :
    (acquisitions cfg jobId integrationPath valid task).Reachable (answered valid calls c) := by
  induction calls generalizing c with
  | zero => exact hc
  | succ calls ih =>
    obtain ⟨p, w⟩ := c
    cases p with
    | ret a => exact hc
    | raise x => exact hc
    | call e next =>
      have hself : ElsewhereInRepo (ownBranch cfg jobId task) (taskWorktree cfg jobId task)
          (gitAnswer valid e w).2 (gitAnswer valid e w).2 :=
        ⟨.refl _, Iff.rfl, fun _ _ _ => Iff.rfl⟩
      have hstep : (acquisitions cfg jobId integrationPath valid task).step (.call e next, w)
          (.call ⟨e, (gitAnswer valid e w).1⟩)
          (next (gitAnswer valid e w).1, (gitAnswer valid e w).2) :=
        ⟨next, rfl, rfl, _, Or.inl ⟨rfl, rfl⟩, hself⟩
      exact ih (hc.step hstep)

/-- The run up to `git worktree add -b`, which has added the branch. -/
def branchAdded : Coroutine TaskCheckout × AcquisitionWorld :=
  answered (fun _ => true) 10
    (acquireWorktree smallEngine (Text.lit "job-1") firstTask (lit "/candidate"), newRepository)

/-- If the daemon dies there, the next acquisition does not succeed. -/
theorem acquisition_crash :
    (acquisitions smallEngine (Text.lit "job-1") (lit "/candidate") (fun _ => true)
      firstTask).Reachable branchAdded ∧
    ¬ AcquisitionSucceeds smallEngine (Text.lit "job-1") (lit "/candidate") (fun _ => true)
      branchAdded.2 := by
  have hreach : (acquisitions smallEngine (Text.lit "job-1") (lit "/candidate") (fun _ => true)
      firstTask).Reachable branchAdded :=
    answered_reachable 10 (Lts.System.reachable_init ⟨rfl, rfl, newRepository_fresh⟩)
  refine ⟨hreach, ?_⟩
  rw [acquisitionSucceeds_iff (resumable_of_reachable hreach).1]
  rintro ⟨-, hne | ⟨⟨hunborn, -⟩, -⟩⟩
  · exact hne rfl
  · exact hunborn (by decide)

/-- Before the first run, the acquisition succeeds: no branch of the task exists. -/
theorem acquisition_restartable_newRepository :
    AcquisitionSucceeds smallEngine (Text.lit "job-1") (lit "/candidate") (fun _ => true)
      newRepository := by
  have hstart : (acquisitions smallEngine (Text.lit "job-1") (lit "/candidate") (fun _ => true)
      firstTask).Reachable
      (acquireWorktree smallEngine (Text.lit "job-1") firstTask (lit "/candidate"),
        newRepository) := Lts.System.reachable_init ⟨rfl, rfl, newRepository_fresh⟩
  exact (acquisition_restartable_iff hstart).mpr
    ⟨rfl, Or.inr ⟨⟨by decide, by decide⟩, by decide, by decide⟩⟩

end Reachable

end OmarchyYolo
