import OmarchyYolo.Lib.MountView
import OmarchyYolo.Util

/-!
# OmarchyYolo.Sandbox — what a sandboxed command sees

`Sandbox.wrap` turns a command into one of bubblewrap's, with an ordered list
of options. The model keeps the options as data: `argv` writes them as
arguments, `mount?` says what an option does to the view.

* `wrap` — the command;
* `sandboxView` — the file tree that the options build;
* `Confined` — what the view must not show, for each execution profile;
* `sandbox_confined_iff` — when it does not.
-/

namespace OmarchyYolo

open Py Mounts

/-- An absolute path, as its components. -/
abbrev HostPath := List Str

/-- `str(path)`. -/
def showPath (path : HostPath) : Str :=
  if path = [] then lit "/" else path.flatMap (lit "/" ++ ·)

/-- The components of a relative path; `pathlib` drops empty ones and dots. -/
def pathParts (relative : Str) : List Str :=
  (relative.splitOn (.scalar '/')).filter fun part => part ≠ [] ∧ part ≠ lit "."

/-! ## Configuration -/

structure SandboxConfig where
  backend : Str := lit "native"
  network : Bool := true
  reviewNetwork : Option Bool := none
  gateNetwork : Option Bool := none
  readOnlyHome : Bool := false
  writableHomePaths : List Str := []
  hostileRepoMode : Bool := false
deriving DecidableEq, Repr

/-- `network_for`. -/
def SandboxConfig.networkFor (cfg : SandboxConfig) (executionProfile : Str) : Bool :=
  if executionProfile = lit "review" ∧ cfg.reviewNetwork.isSome then
    cfg.reviewNetwork.getD false
  else if executionProfile = lit "gate" then
    match cfg.gateNetwork with
    | some network => network
    | none => if cfg.hostileRepoMode then false else cfg.network
  else cfg.network

/-- `text.strip("/")`. -/
def stripSlashes (text : Str) : Str :=
  (text.dropWhile (· == .scalar '/')).rdropWhile (· == .scalar '/')

/-- `_writable_home_paths`, on the strings of the list. -/
def cleanHomePaths : List Str → Except Exn (List Str)
  | [] => .ok []
  | raw :: paths => do
    let candidate := stripSlashes (strip raw)
    rejectIf (candidate = [] ∨ candidate = lit "." ∨ candidate = lit ".." ∨
        lit "../" <+: candidate ∨ lit "/../" <:+: candidate)
      (lit "sandbox.writable_home_paths must contain relative paths inside HOME")
    let clean ← cleanHomePaths paths
    return candidate :: clean

/-! ## Options -/

/-- The options that `wrap` gives to bubblewrap. -/
inductive BwrapOption where
  | dieWithParent | newSession | unsharePid | unshareIpc | unshareUts | unshareNet
  | proc (dest : HostPath)
  | dev (dest : HostPath)
  | devBind (src dest : HostPath)
  | roBind (src dest : HostPath)
  | bind (src dest : HostPath)
  | tmpfs (dest : HostPath)
  | dir (dest : HostPath)
  | chdir (dest : HostPath)
deriving DecidableEq, Repr

def BwrapOption.argv : BwrapOption → List Str
  | .dieWithParent => [lit "--die-with-parent"]
  | .newSession => [lit "--new-session"]
  | .unsharePid => [lit "--unshare-pid"]
  | .unshareIpc => [lit "--unshare-ipc"]
  | .unshareUts => [lit "--unshare-uts"]
  | .unshareNet => [lit "--unshare-net"]
  | .proc dest => [lit "--proc", showPath dest]
  | .dev dest => [lit "--dev", showPath dest]
  | .devBind src dest => [lit "--dev-bind", showPath src, showPath dest]
  | .roBind src dest => [lit "--ro-bind", showPath src, showPath dest]
  | .bind src dest => [lit "--bind", showPath src, showPath dest]
  | .tmpfs dest => [lit "--tmpfs", showPath dest]
  | .dir dest => [lit "--dir", showPath dest]
  | .chdir dest => [lit "--chdir", showPath dest]

/-! ## The command -/

/-- What `wrap` asks of the host. -/
structure Host where
  /-- `shutil.which("bwrap")`. -/
  bwrap : Option Str
  /-- `Path.home().resolve()`. -/
  home : HostPath
  /-- `XDG_RUNTIME_DIR`, or its default. -/
  runtime : HostPath
  fileExists : HostPath → Bool
  isDir : HostPath → Bool
  /-- `resolve()`, of an absolute path that may have dots and links in it. -/
  resolve : HostPath → HostPath

section Wrap

variable (cfg : SandboxConfig) (host : Host) (cwd : HostPath)

def executionProfiles : List Str :=
  [lit "review", lit "gate", lit "yolo-worktree", lit "danger-yolo"]

/-- `(home / relative).resolve()`. -/
def homeCandidate (relative : Str) : HostPath := host.resolve (host.home ++ pathParts relative)

/-- The directories from `candidate` on along the parts that are not yet `created`; and
what is created then. -/
def dirsAlong (candidate : HostPath) : List Str → List HostPath → List BwrapOption × List HostPath
  | [], created => ([], created)
  | part :: parts, created =>
    if candidate ++ [part] ∈ created then dirsAlong (candidate ++ [part]) parts created
    else
      let rest := dirsAlong (candidate ++ [part]) parts ((candidate ++ [part]) :: created)
      (.dir (candidate ++ [part]) :: rest.1, rest.2)

/-- The directories of cwd below the masked roots. -/
def cwdDirs : List HostPath → List HostPath → List BwrapOption × List HostPath
  | [], created => ([], created)
  | maskedRoot :: maskedRoots, created =>
    if maskedRoot <+: cwd then
      let own := dirsAlong maskedRoot (cwd.drop maskedRoot.length) created
      let rest := cwdDirs maskedRoots own.2
      (own.1 ++ rest.1, rest.2)
    else cwdDirs maskedRoots created

/-- The roots that hostile mode masks: HOME, and the runtime directory outside it. -/
def maskedRoots : List HostPath :=
  (if host.fileExists host.home then [host.home] else []) ++
    if host.fileExists host.runtime ∧ host.runtime ≠ host.home ∧ ¬ host.home <+: host.runtime then
      [host.runtime] else []

/-- The exceptions of hostile mode below HOME. -/
def hostileHomeBinds (reviewMode : Bool) : List Str → List HostPath → Except Exn (List BwrapOption)
  | [], _ => .ok []
  | relative :: paths, created => do
    let candidate := homeCandidate host relative
    rejectIf (¬ host.home <+: candidate) (lit "sandbox writable path escapes HOME: " ++ relative)
    if host.fileExists candidate = false then hostileHomeBinds reviewMode paths created
    else do
      rejectIf (host.isDir candidate = false)
        (lit "hostile repository HOME exceptions must be directories: " ++ relative)
      let dirs := dirsAlong host.home (candidate.drop host.home.length) created
      let rest ← hostileHomeBinds reviewMode paths dirs.2
      return dirs.1 ++
        (if reviewMode then .roBind candidate candidate else .bind candidate candidate) :: rest

/-- The writable paths of a worker below a read-only HOME. -/
def homeBinds : List Str → Except Exn (List BwrapOption)
  | [] => .ok []
  | relative :: paths => do
    let candidate := homeCandidate host relative
    rejectIf (¬ host.home <+: candidate) (lit "sandbox writable path escapes HOME: " ++ relative)
    let rest ← homeBinds paths
    return if host.fileExists candidate then .bind candidate candidate :: rest else rest

/-- The exceptions, where there is a HOME; a gate has none. -/
def hostileHomeOptions (reviewMode gateMode : Bool) (created : List HostPath) :
    Except Exn (List BwrapOption) :=
  if host.fileExists host.home ∧ gateMode = false then
    hostileHomeBinds host reviewMode cfg.writableHomePaths created
  else .ok []

/-- The options before those of cwd. -/
def hostileOptions (reviewMode gateMode : Bool) : Except Exn (List BwrapOption) :=
  if cfg.hostileRepoMode = false then .ok []
  else do
    let roots := maskedRoots host
    let dirs := cwdDirs cwd roots []
    let binds ← hostileHomeOptions cfg host reviewMode gateMode dirs.2
    return roots.map .tmpfs ++ dirs.1 ++ binds

/-- The options after those of cwd. -/
def workerHomeOptions (reviewMode gateMode : Bool) : Except Exn (List BwrapOption) :=
  if host.fileExists host.home ∧ cfg.hostileRepoMode = false ∧ reviewMode = false ∧
      gateMode = false then
    if cfg.readOnlyHome = false then .ok [.bind host.home host.home]
    else homeBinds host cfg.writableHomePaths
  else .ok []

/-- The options of bubblewrap. -/
def bwrapOptions (executionProfile : Str) : Except Exn (List BwrapOption) := do
  let reviewMode := executionProfile == lit "review"
  let gateMode := executionProfile == lit "gate"
  let hostile ← hostileOptions cfg host cwd reviewMode gateMode
  let worker ← workerHomeOptions cfg host reviewMode gateMode
  return [.dieWithParent, .newSession, .unsharePid, .proc [lit "proc"]] ++
    (if cfg.hostileRepoMode then [.unshareIpc, .unshareUts, .dev [lit "dev"]]
      else [.devBind [lit "dev"] [lit "dev"]]) ++
    [.roBind [] [], .tmpfs [lit "tmp"]] ++ hostile ++
    [if reviewMode then .roBind cwd cwd else .bind cwd cwd, .chdir cwd] ++ worker ++
    if cfg.networkFor executionProfile then [] else [.unshareNet]

/-- A wrapped command. -/
inductive Wrapped where
  | unchanged (argv : List Str)
  | bwrap (executable : Str) (options : List BwrapOption) (argv : List Str)
deriving DecidableEq, Repr

def Wrapped.argv : Wrapped → List Str
  | .unchanged argv => argv
  | .bwrap executable options argv =>
    executable :: options.flatMap BwrapOption.argv ++ lit "--" :: argv

/-- `wrap`. -/
def wrap (argv : List Str) (executionProfile : Str) : Except Exn Wrapped := do
  rejectIf (executionProfile ∉ executionProfiles)
    (lit "unknown sandbox execution profile: " ++ executionProfile)
  if cfg.backend = lit "native" ∨ cfg.backend = lit "none" then do
    rejectIf (cfg.hostileRepoMode = true)
      (lit "hostile repository mode requires the bwrap sandbox backend")
    return .unchanged argv
  else do
    rejectIf (cfg.backend ≠ lit "bwrap") (lit "unknown sandbox backend: " ++ cfg.backend)
    match host.bwrap with
    | none => raise (lit "sandbox backend 'bwrap' requested but bubblewrap is not installed")
    | some executable => do
      let options ← bwrapOptions cfg host cwd executionProfile
      return .bwrap executable options argv

end Wrap

/-! ## The view -/

/-- What is at a path of the view. -/
inductive ViewNode where
  | nothing
  | host (path : HostPath) (writable : Bool)
  | proc
  | dev
  | tmpfs
deriving DecidableEq, Repr

/-- The part of the host tree at `src`, seen at `dest`. -/
def bound (src dest : HostPath) (writable : Bool) : Mount Str ViewNode :=
  ⟨dest, fun path => .host (src ++ path.drop dest.length) writable⟩

/-- `--dir` makes a directory where there is none, and hides nothing. -/
def BwrapOption.mount? : BwrapOption → Option (Mount Str ViewNode)
  | .proc dest => some ⟨dest, fun _ => .proc⟩
  | .dev dest => some ⟨dest, fun _ => .dev⟩
  | .devBind src dest => some (bound src dest true)
  | .roBind src dest => some (bound src dest false)
  | .bind src dest => some (bound src dest true)
  | .tmpfs dest => some ⟨dest, fun _ => .tmpfs⟩
  | _ => none

def sandboxView (options : List BwrapOption) : HostPath → ViewNode :=
  view .nothing (options.filterMap BwrapOption.mount?)

/-! ## Confinement -/

section Confined

variable (cfg : SandboxConfig) (host : Host) (cwd : HostPath) (executionProfile : Str)

/-- A path strictly below HOME that the configuration names as writable; outside hostile mode it may
be a file. -/
def NamedHomePath (dir : HostPath) : Prop :=
  ∃ relative ∈ cfg.writableHomePaths, homeCandidate host relative = dir ∧
    host.home <+: dir ∧ dir ≠ host.home

/-- At or below cwd, or such a directory. -/
def Allowed (file : HostPath) : Prop :=
  cwd <+: file ∨ ∃ dir, NamedHomePath cfg host dir ∧ dir <+: file

/-- What the view of the options must not show. -/
structure Confined (options : List BwrapOption) : Prop where
  review : executionProfile = lit "review" → ∀ path file, host.fileExists file = true →
    sandboxView options path ≠ .host file true
  gate : executionProfile = lit "gate" → ∀ path file, host.fileExists file = true →
    sandboxView options path = .host file true → cwd <+: file
  worker : executionProfile ≠ lit "review" → executionProfile ≠ lit "gate" →
    (cfg.hostileRepoMode = true ∨ cfg.readOnlyHome = true) → ∀ path file,
      host.fileExists file = true → sandboxView options path = .host file true →
        Allowed cfg host cwd file
  hidden : cfg.hostileRepoMode = true → ∀ path file writable, host.home <+: path →
    host.fileExists file = true → sandboxView options path = .host file writable →
      Allowed cfg host cwd file
  fresh : cfg.hostileRepoMode = true → sandboxView options [lit "proc"] = .proc ∧
    sandboxView options [lit "dev"] = .dev

/-- Bubblewrap is not installed, or a writable path is refused. -/
def Refuses : Prop :=
  host.bwrap = none ∨ host.fileExists host.home = true ∧ executionProfile ≠ lit "gate" ∧
    ((cfg.hostileRepoMode = true ∧ ∃ relative ∈ cfg.writableHomePaths,
        ¬ host.home <+: homeCandidate host relative ∨
          host.fileExists (homeCandidate host relative) = true ∧
            host.isDir (homeCandidate host relative) = false) ∨
      cfg.hostileRepoMode = false ∧ executionProfile ≠ lit "review" ∧ cfg.readOnlyHome = true ∧
        ∃ relative ∈ cfg.writableHomePaths, ¬ host.home <+: homeCandidate host relative)

/-- In a worker's read-only HOME, no writable path is HOME itself; but where the worker
works in HOME. -/
def HomeStaysReadOnly : Prop :=
  executionProfile ≠ lit "review" → executionProfile ≠ lit "gate" → cfg.readOnlyHome = true →
    host.fileExists host.home = true → ∀ relative ∈ cfg.writableHomePaths,
      homeCandidate host relative = host.home → cwd = host.home

end Confined

/-! ## Options that are given -/

/-- Options other than those that bring in fresh or host devices. -/
def BwrapOption.Plain : BwrapOption → Prop
  | .proc _ | .dev _ | .devBind _ _ => False
  | _ => True

section Options

variable {cfg : SandboxConfig} {host : Host} {cwd : HostPath}

theorem dirsAlong_dir (parts : List Str) (candidate : HostPath) (created : List HostPath) :
    ∀ o ∈ (dirsAlong candidate parts created).1, ∃ dir, o = .dir dir := by
  induction parts generalizing candidate created with
  | nil => exact fun o ho => absurd ho List.not_mem_nil
  | cons part parts ih =>
    rw [dirsAlong]
    split_ifs
    · exact ih _ _
    · exact List.forall_mem_cons.mpr ⟨⟨_, rfl⟩, ih _ _⟩

theorem cwdDirs_dir (roots : List HostPath) (created : List HostPath) :
    ∀ o ∈ (cwdDirs cwd roots created).1, ∃ dir, o = .dir dir := by
  induction roots generalizing created with
  | nil => exact fun o ho => absurd ho List.not_mem_nil
  | cons root roots ih =>
    rw [cwdDirs]
    split_ifs
    · intro o ho
      rcases List.mem_append.mp ho with ho | ho
      · exact dirsAlong_dir _ _ _ o ho
      · exact ih _ o ho
    · exact ih _

/-- A directory that the configuration names, bound for a profile. -/
def homeBind (host : Host) (reviewMode : Bool) (relative : Str) : BwrapOption :=
  if reviewMode then .roBind (homeCandidate host relative) (homeCandidate host relative)
  else .bind (homeCandidate host relative) (homeCandidate host relative)

theorem hostileHomeBinds_mem {reviewMode : Bool} {paths : List Str} {created : List HostPath}
    {binds : List BwrapOption} (h : hostileHomeBinds host reviewMode paths created = .ok binds) :
    ∀ o ∈ binds, (∃ dir, o = .dir dir) ∨ ∃ relative ∈ paths,
      host.home <+: homeCandidate host relative ∧ o = homeBind host reviewMode relative := by
  induction paths generalizing created binds with
  | nil =>
    cases h
    exact fun o ho => absurd ho List.not_mem_nil
  | cons relative paths ih =>
    -- what the later paths bring is a directory or a bind as well
    have hlater : ∀ (created' : List HostPath) (rest : List BwrapOption),
        hostileHomeBinds host reviewMode paths created' = .ok rest → ∀ o ∈ rest,
          (∃ dir, o = .dir dir) ∨ ∃ other ∈ relative :: paths,
            host.home <+: homeCandidate host other ∧ o = homeBind host reviewMode other := by
      intro created' rest hrest o ho
      rcases ih hrest o ho with hdir | ⟨other, hother, hbind⟩
      · exact Or.inl hdir
      · exact Or.inr ⟨other, List.mem_cons_of_mem _ hother, hbind⟩
    simp only [hostileHomeBinds, bind_ok_iff, rejectIf_eq_ok, not_not] at h
    rcases h with ⟨u, hinside, h⟩
    -- a path that does not exist is passed over
    by_cases hexists : host.fileExists (homeCandidate host relative) = false
    · rw [if_pos hexists] at h
      exact hlater _ _ h
    · rw [if_neg hexists] at h
      simp only [bind_ok_iff] at h
      -- its parents are created, then it is bound
      rcases h with ⟨u, -, rest, hrest, h⟩
      cases h
      intro o ho
      rcases List.mem_append.mp ho with ho | ho
      · exact Or.inl (dirsAlong_dir _ _ _ o ho)
      · rcases List.mem_cons.mp ho with rfl | ho
        · exact Or.inr ⟨relative, List.mem_cons_self, hinside, rfl⟩
        · exact hlater _ _ hrest o ho

/-- The loop over the exceptions refuses those that it checks, and no other. -/
theorem hostileHomeBinds_ok_iff {reviewMode : Bool} {paths : List Str} {created : List HostPath} :
    (∃ binds, hostileHomeBinds host reviewMode paths created = .ok binds) ↔
      ∀ relative ∈ paths, host.home <+: homeCandidate host relative ∧
        (host.fileExists (homeCandidate host relative) = true →
          host.isDir (homeCandidate host relative) = true) := by
  induction paths generalizing created with
  | nil => exact ⟨fun _ relative hmem => absurd hmem List.not_mem_nil, fun _ => ⟨[], rfl⟩⟩
  | cons relative paths ih =>
    simp only [hostileHomeBinds, bind_ok_iff, rejectIf_eq_ok, not_not, List.forall_mem_cons]
    by_cases hexists : host.fileExists (homeCandidate host relative) = false
    · -- a path that does not exist is checked for its place only
      simp only [if_pos hexists, exists_and_left, exists_const]
      constructor
      · rintro ⟨hinside, binds, hrest⟩
        exact ⟨⟨hinside, fun h => absurd h (by simp [hexists])⟩, ih.mp ⟨binds, hrest⟩⟩
      · rintro ⟨⟨hinside, -⟩, hrest⟩
        obtain ⟨binds, hbinds⟩ := ih.mpr hrest
        exact ⟨hinside, binds, hbinds⟩
    · simp only [if_neg hexists, bind_ok_iff, rejectIf_eq_ok, Bool.not_eq_false,
        exists_and_left, exists_const]
      constructor
      · rintro ⟨hinside, hdir, binds, rest, hrest, -⟩
        exact ⟨⟨hinside, fun _ => hdir⟩, ih.mp ⟨rest, hrest⟩⟩
      · rintro ⟨⟨hinside, hdir⟩, hrest⟩
        obtain ⟨rest, hbinds⟩ := ih.mpr hrest
        exact ⟨hinside, hdir (by simpa using hexists), _, rest, hbinds, rfl⟩

/-- The paths that are bound for a worker are those that exist. -/
theorem homeBinds_eq {paths : List Str}
    (h : ∀ relative ∈ paths, host.home <+: homeCandidate host relative) :
    homeBinds host paths = .ok
      (((paths.map (homeCandidate host)).filter (host.fileExists ·)).map fun dir =>
        .bind dir dir) := by
  induction paths with
  | nil => rfl
  | cons relative paths ih =>
    rw [List.forall_mem_cons] at h
    have hkept : rejectIf (¬ host.home <+: homeCandidate host relative)
        (lit "sandbox writable path escapes HOME: " ++ relative) = .ok () :=
      rejectIf_eq_ok.mpr (not_not.mpr h.1)
    rw [homeBinds, hkept, ih h.2, List.map_cons, List.filter_cons]
    split_ifs <;> rfl

/-- Where the paths of a worker are bound, each lies below HOME. -/
theorem homeBinds_inside {paths : List Str} {binds : List BwrapOption}
    (h : homeBinds host paths = .ok binds) :
    ∀ relative ∈ paths, host.home <+: homeCandidate host relative := by
  induction paths generalizing binds with
  | nil => exact fun relative hmem => absurd hmem List.not_mem_nil
  | cons relative paths ih =>
    simp only [homeBinds, bind_ok_iff, rejectIf_eq_ok, not_not] at h
    obtain ⟨-, hinside, rest, hrest, -⟩ := h
    exact List.forall_mem_cons.mpr ⟨hinside, ih hrest⟩

/-! ## What the options show -/

/-- Nothing that is given before the host's root is seen. -/
theorem sandboxView_rooted (before after : List BwrapOption) (path : HostPath) :
    sandboxView (before ++ .roBind [] [] :: after) path =
      view (.host path false) (after.filterMap BwrapOption.mount?) path := by
  show view .nothing ((before ++ .roBind [] [] :: after).filterMap BwrapOption.mount?) path = _
  rw [List.filterMap_append, List.filterMap_cons_some (show BwrapOption.mount? _ = _ from rfl)]
  exact view_hides (List.nil_prefix)

/-- A path that shows a node other than the read-only host has it from one of the options
after the root. -/
theorem sandboxView_source {before after : List BwrapOption} {path : HostPath} {node : ViewNode}
    (hnode : sandboxView (before ++ .roBind [] [] :: after) path = node)
    (hhost : node ≠ .host path false) :
    ∃ o ∈ after, ∃ m, o.mount? = some m ∧ m.dest <+: path ∧ m.node path = node := by
  rw [sandboxView_rooted] at hnode
  have hcases : view (.host path false) (after.filterMap BwrapOption.mount?) path =
      .host path false ∨ ∃ m ∈ after.filterMap BwrapOption.mount?, m.dest <+: path ∧
        view (.host path false) (after.filterMap BwrapOption.mount?) path = m.node path :=
    view_cases
  rcases hcases with hroot | ⟨m, hm, hcover, heq⟩
  · exact absurd (hnode.symm.trans hroot) hhost
  · obtain ⟨o, ho, hmount⟩ := List.mem_filterMap.mp hm
    exact ⟨o, ho, m, hmount, hcover, heq.symm.trans hnode⟩

/-- Plain options bring in no fresh instance. -/
theorem sandboxView_not_proc {before after : List BwrapOption} {path : HostPath}
    (hplain : ∀ o ∈ after, o.Plain) :
    sandboxView (before ++ .roBind [] [] :: after) path ≠ .proc := by
  intro hview
  obtain ⟨o, ho, m, hmount, -, hnode⟩ := sandboxView_source hview nofun
  cases o with
  | proc dest => exact hplain _ ho
  | dev dest => exact hplain _ ho
  | devBind src dest => exact hplain _ ho
  | roBind | bind | tmpfs =>
    cases hmount
    cases hnode
  | _ => cases hmount

/-- A host file is writable where an option binds it so. -/
theorem sandboxView_writable {before after : List BwrapOption} {path file : HostPath}
    (hplain : ∀ o ∈ after, o.Plain)
    (hview : sandboxView (before ++ .roBind [] [] :: after) path = .host file true) :
    ∃ src dest, BwrapOption.bind src dest ∈ after ∧ src <+: file := by
  obtain ⟨o, ho, m, hmount, -, hnode⟩ := sandboxView_source hview nofun
  cases o with
  | bind src dest =>
    cases hmount
    cases hnode
    exact ⟨src, dest, ho, List.prefix_append _ _⟩
  | proc dest => exact absurd (hplain _ ho) id
  | dev dest => exact absurd (hplain _ ho) id
  | devBind src dest => exact absurd (hplain _ ho) id
  | roBind | tmpfs =>
    cases hmount
    cases hnode
  | _ => cases hmount

/-! ## The options of a command -/

variable {executionProfile : Str}

/-- The options before those of cwd: the masks, directories, and for an agent the named
directories. -/
theorem hostileOptions_mem {reviewMode gateMode : Bool} {options : List BwrapOption}
    (hmode : cfg.hostileRepoMode = true)
    (h : hostileOptions cfg host cwd reviewMode gateMode = .ok options) :
    (∀ root ∈ maskedRoots host, .tmpfs root ∈ options) ∧ ∀ o ∈ options,
      (∃ root, o = .tmpfs root) ∨ (∃ dir, o = .dir dir) ∨ gateMode = false ∧
        ∃ relative ∈ cfg.writableHomePaths, host.home <+: homeCandidate host relative ∧
          o = homeBind host reviewMode relative := by
  have hhostile : ¬ cfg.hostileRepoMode = false := by
    rw [hmode]
    exact Ne.symm Bool.false_ne_true
  rw [hostileOptions, if_neg hhostile] at h
  rcases bind_ok_iff.mp h with ⟨binds, hbinds, h⟩
  cases h
  constructor
  -- every root is masked
  · intro root hroot
    exact List.mem_append_left _ (List.mem_append_left _ (List.mem_map_of_mem hroot))
  -- each option is a mask, a directory of cwd, or of the named paths
  · intro o ho
    rcases List.mem_append.mp ho with ho | ho
    · rcases List.mem_append.mp ho with ho | ho
      · rcases List.mem_map.mp ho with ⟨root, -, rfl⟩
        exact Or.inl ⟨root, rfl⟩
      · exact Or.inr (Or.inl (cwdDirs_dir _ _ o ho))
    · rw [hostileHomeOptions] at hbinds
      split_ifs at hbinds with hagent
      · rcases hostileHomeBinds_mem hbinds o ho with hdir | hbind
        · exact Or.inr (Or.inl hdir)
        · exact Or.inr (Or.inr ⟨hagent.2, hbind⟩)
      · cases hbinds
        exact absurd ho List.not_mem_nil

theorem hostileOptions_plain {reviewMode gateMode : Bool} {options : List BwrapOption}
    (h : hostileOptions cfg host cwd reviewMode gateMode = .ok options) :
    ∀ o ∈ options, o.Plain := by
  by_cases hmode : cfg.hostileRepoMode = true
  · intro o ho
    rcases (hostileOptions_mem hmode h).2 o ho with ⟨root, rfl⟩ | ⟨dir, rfl⟩ |
      ⟨-, relative, -, -, rfl⟩
    · trivial
    · trivial
    · unfold homeBind
      split_ifs
      · trivial
      · trivial
  · -- outside hostile mode there are none
    rw [hostileOptions, if_pos (Bool.not_eq_true _ ▸ hmode)] at h
    cases h
    exact fun o ho => absurd ho List.not_mem_nil

/-- What a worker gets below HOME: nothing, all of HOME, or the paths that exist. -/
theorem workerHomeOptions_eq {reviewMode gateMode : Bool} {options : List BwrapOption}
    (h : workerHomeOptions cfg host reviewMode gateMode = .ok options) :
    options = [] ∨ (host.fileExists host.home = true ∧ cfg.hostileRepoMode = false ∧
      reviewMode = false ∧ gateMode = false ∧
        (cfg.readOnlyHome = false ∧ options = [.bind host.home host.home] ∨
          cfg.readOnlyHome = true ∧
            (∀ relative ∈ cfg.writableHomePaths, host.home <+: homeCandidate host relative) ∧
              options = (((cfg.writableHomePaths.map (homeCandidate host)).filter
                (host.fileExists ·)).map fun dir => .bind dir dir))) := by
  unfold workerHomeOptions at h
  split_ifs at h with hworker hwritable
  · cases h
    exact Or.inr ⟨hworker.1, hworker.2.1, hworker.2.2.1, hworker.2.2.2, Or.inl ⟨hwritable, rfl⟩⟩
  · have hinside := homeBinds_inside h
    rw [homeBinds_eq hinside] at h
    cases h
    exact Or.inr ⟨hworker.1, hworker.2.1, hworker.2.2.1, hworker.2.2.2,
      Or.inr ⟨by simpa using hwritable, hinside, rfl⟩⟩
  · cases h
    exact Or.inl rfl

theorem workerHomeOptions_plain {reviewMode gateMode : Bool} {options : List BwrapOption}
    (h : workerHomeOptions cfg host reviewMode gateMode = .ok options) :
    ∀ o ∈ options, o.Plain := by
  rcases workerHomeOptions_eq h with rfl | ⟨-, -, -, -, ⟨-, rfl⟩ | ⟨-, -, rfl⟩⟩
  · exact fun o ho => absurd ho List.not_mem_nil
  · intro o ho
    rw [List.mem_singleton.mp ho]
    trivial
  · intro o ho
    obtain ⟨dir, -, rfl⟩ := List.mem_map.mp ho
    trivial

/-- The options that follow the host's root. -/
def afterRoot (cfg : SandboxConfig) (cwd : HostPath) (executionProfile : Str)
    (hostile worker : List BwrapOption) : List BwrapOption :=
  .tmpfs [lit "tmp"] :: hostile ++
    [if executionProfile == lit "review" then .roBind cwd cwd else .bind cwd cwd, .chdir cwd] ++
      worker ++ if cfg.networkFor executionProfile then [] else [.unshareNet]

/-- Those before it. -/
def beforeRoot (cfg : SandboxConfig) : List BwrapOption :=
  [.dieWithParent, .newSession, .unsharePid, .proc [lit "proc"]] ++
    if cfg.hostileRepoMode then [.unshareIpc, .unshareUts, .dev [lit "dev"]]
    else [.devBind [lit "dev"] [lit "dev"]]

theorem bwrapOptions_ok_iff {options : List BwrapOption} :
    bwrapOptions cfg host cwd executionProfile = .ok options ↔ ∃ hostile worker,
      hostileOptions cfg host cwd (executionProfile == lit "review")
          (executionProfile == lit "gate") = .ok hostile ∧
        workerHomeOptions cfg host (executionProfile == lit "review")
          (executionProfile == lit "gate") = .ok worker ∧
        options = beforeRoot cfg ++
          .roBind [] [] :: afterRoot cfg cwd executionProfile hostile worker := by
  have hparts (hostile worker : List BwrapOption) : beforeRoot cfg ++
      .roBind [] [] :: afterRoot cfg cwd executionProfile hostile worker =
      [.dieWithParent, .newSession, .unsharePid, .proc [lit "proc"]] ++
        (if cfg.hostileRepoMode then [.unshareIpc, .unshareUts, .dev [lit "dev"]]
          else [.devBind [lit "dev"] [lit "dev"]]) ++
        [.roBind [] [], .tmpfs [lit "tmp"]] ++ hostile ++
        [if executionProfile == lit "review" then .roBind cwd cwd else .bind cwd cwd,
          .chdir cwd] ++ worker ++
        if cfg.networkFor executionProfile then [] else [.unshareNet] := by
    simp only [beforeRoot, afterRoot, List.append_assoc, List.cons_append, List.nil_append]
  simp only [bwrapOptions, bind_ok_iff, hparts]
  constructor
  · rintro ⟨hostile, hhostile, worker, hworker, h⟩
    exact ⟨hostile, worker, hhostile, hworker, (Except.ok.inj h).symm⟩
  · rintro ⟨hostile, worker, hhostile, hworker, rfl⟩
    exact ⟨hostile, hhostile, worker, hworker, rfl⟩

/-- The options of the parts, and those of cwd. -/
theorem mem_afterRoot {hostile worker : List BwrapOption} {o : BwrapOption} :
    o ∈ afterRoot cfg cwd executionProfile hostile worker ↔
      o = .tmpfs [lit "tmp"] ∨ o ∈ hostile ∨
        o = (if executionProfile == lit "review" then .roBind cwd cwd else .bind cwd cwd) ∨
          o = .chdir cwd ∨ o ∈ worker ∨
            o ∈ if cfg.networkFor executionProfile then [] else [BwrapOption.unshareNet] := by
  simp only [afterRoot, List.cons_append, List.nil_append, List.append_assoc, List.mem_cons,
    List.mem_append]

theorem afterRoot_plain {hostile worker : List BwrapOption} (hhostile : ∀ o ∈ hostile, o.Plain)
    (hworker : ∀ o ∈ worker, o.Plain) :
    ∀ o ∈ afterRoot cfg cwd executionProfile hostile worker, o.Plain := by
  intro o ho
  rcases mem_afterRoot.mp ho with rfl | ho | rfl | rfl | ho | ho
  · trivial
  · exact hhostile o ho
  · split_ifs <;> trivial
  · trivial
  · exact hworker o ho
  · split_ifs at ho
    · exact absurd ho List.not_mem_nil
    · rw [List.mem_singleton.mp ho]
      trivial

/-! ## What the view of a command shows -/

/-- Fresh instances do not survive the bind of the root. -/
theorem bwrapOptions_not_proc {options : List BwrapOption} (path : HostPath)
    (h : bwrapOptions cfg host cwd executionProfile = .ok options) :
    sandboxView options path ≠ .proc := by
  obtain ⟨hostile, worker, hhostile, hworker, rfl⟩ := bwrapOptions_ok_iff.mp h
  exact sandboxView_not_proc
    (afterRoot_plain (hostileOptions_plain hhostile) (workerHomeOptions_plain hworker))

/-- Outside hostile mode, a host file is writable below cwd, or below what a worker has
below HOME. -/
theorem bwrapOptions_writable {options : List BwrapOption} {path file : HostPath}
    (h : bwrapOptions cfg host cwd executionProfile = .ok options)
    (htrusted : cfg.hostileRepoMode = false) (hview : sandboxView options path = .host file true) :
    executionProfile ≠ lit "review" ∧ (cwd <+: file ∨
      executionProfile ≠ lit "gate" ∧ host.fileExists host.home = true ∧
        (cfg.readOnlyHome = true → ∃ relative ∈ cfg.writableHomePaths,
          host.home <+: homeCandidate host relative ∧ homeCandidate host relative <+: file)) := by
  obtain ⟨hostile, worker, hhostile, hworker, rfl⟩ := bwrapOptions_ok_iff.mp h
  obtain ⟨src, dest, hbind, hsrc⟩ := sandboxView_writable
    (afterRoot_plain (hostileOptions_plain hhostile) (workerHomeOptions_plain hworker)) hview
  have hnone : hostile = [] := by
    unfold hostileOptions at hhostile
    rw [if_pos htrusted] at hhostile
    exact (Except.ok.inj hhostile).symm
  -- by the option: `/tmp`, a hostile one, cwd, chdir, the worker's home, or the network
  rcases mem_afterRoot.mp hbind with ho | ho | ho | ho | ho | ho
  · cases ho
  · rw [hnone] at ho
    exact absurd ho List.not_mem_nil
  · -- the bind of cwd
    by_cases hreview : (executionProfile == lit "review") = true
    · rw [if_pos hreview] at ho
      cases ho
    · rw [if_neg hreview] at ho
      cases ho
      exact ⟨by simpa using hreview, Or.inl hsrc⟩
  · cases ho
  -- the worker's home: the whole of it, or the named paths
  · rcases workerHomeOptions_eq hworker with rfl | ⟨hhome, -, hreview, hgate, hparts⟩
    · exact absurd ho List.not_mem_nil
    refine ⟨by simpa using hreview, Or.inr ⟨by simpa using hgate, hhome, fun hreadOnly => ?_⟩⟩
    rcases hparts with ⟨hwritable, -⟩ | ⟨-, hinside, rfl⟩
    · exact absurd (hwritable.symm.trans hreadOnly) Bool.false_ne_true
    · obtain ⟨dir, hdir, hbound⟩ := List.mem_map.mp ho
      cases hbound
      obtain ⟨relative, hrelative, rfl⟩ := List.mem_map.mp (List.mem_of_mem_filter hdir)
      exact ⟨relative, hrelative, hinside relative hrelative, hsrc⟩
  · split_ifs at ho
    · exact absurd ho List.not_mem_nil
    · cases List.mem_singleton.mp ho

/-- Where a writable path is HOME itself, HOME is writable. -/
theorem bwrapOptions_home {options : List BwrapOption} {relative : Str}
    (h : bwrapOptions cfg host cwd executionProfile = .ok options)
    (htrusted : cfg.hostileRepoMode = false) (hreview : executionProfile ≠ lit "review")
    (hgate : executionProfile ≠ lit "gate") (hreadOnly : cfg.readOnlyHome = true)
    (hhome : host.fileExists host.home = true) (hmem : relative ∈ cfg.writableHomePaths)
    (hsame : homeCandidate host relative = host.home) :
    sandboxView options host.home = .host host.home true := by
  obtain ⟨hostile, worker, -, hworker, rfl⟩ := bwrapOptions_ok_iff.mp h
  -- the home is read-only, so the worker gets binds of the named paths
  have hbinds : homeBinds host cfg.writableHomePaths = .ok worker := by
    unfold workerHomeOptions at hworker
    rwa [if_pos ⟨hhome, htrusted, by simpa using hreview, by simpa using hgate⟩,
      if_neg (by simp [hreadOnly])] at hworker
  have hinside := homeBinds_inside hbinds
  rw [homeBinds_eq hinside] at hbinds
  have hworker' := (Except.ok.inj hbinds).symm
  -- the worker's binds are the last that change the view
  have hnet : (if cfg.networkFor executionProfile then [] else
      [BwrapOption.unshareNet]).filterMap BwrapOption.mount? = [] := by
    split_ifs <;> rfl
  have hlast : ∃ earlier,
      (afterRoot cfg cwd executionProfile hostile worker).filterMap BwrapOption.mount? =
        earlier ++ worker.filterMap BwrapOption.mount? := by
    rw [afterRoot, List.filterMap_append, hnet, List.append_nil, List.filterMap_append]
    exact ⟨_, rfl⟩
  obtain ⟨earlier, hlast⟩ := hlast
  -- each of them is at or below the home
  have hmount (m : Mount Str ViewNode) (hm : m ∈ worker.filterMap BwrapOption.mount?) :
      host.home <+: m.dest ∧ m = bound m.dest m.dest true := by
    obtain ⟨o, ho, heq⟩ := List.mem_filterMap.mp hm
    rw [hworker'] at ho
    obtain ⟨dir, hdir, rfl⟩ := List.mem_map.mp ho
    obtain ⟨relative', hrelative', rfl⟩ := List.mem_map.mp (List.mem_of_mem_filter hdir)
    cases heq
    exact ⟨hinside relative' hrelative', rfl⟩
  -- and one of them is the home itself
  have hhomeMount : bound host.home host.home true ∈ worker.filterMap BwrapOption.mount? := by
    refine List.mem_filterMap.mpr ⟨.bind host.home host.home, ?_, rfl⟩
    rw [hworker']
    exact List.mem_map.mpr ⟨host.home,
      List.mem_filter.mpr ⟨List.mem_map.mpr ⟨relative, hmem, hsame⟩, hhome⟩, rfl⟩
  rw [sandboxView_rooted, hlast, view_append]
  obtain ⟨m, hm, hcover, hnode⟩ := view_covered hhomeMount (List.prefix_refl host.home)
  rw [hnode]
  obtain ⟨hbelow, heq⟩ := hmount m hm
  -- no later one covers it but itself
  have hdest : m.dest = host.home := hcover.eq_of_length_le hbelow.length_le
  rw [heq, hdest]
  show ViewNode.host (host.home ++ host.home.drop host.home.length) true = _
  rw [List.drop_length, List.append_nil]

/-- Bubblewrap is refused where its executable is missing or the paths below HOME are wrong. -/
theorem wrap_ok_iff {argv : List Str} (hbackend : cfg.backend = lit "bwrap")
    (hprofile : executionProfile ∈ executionProfiles) {wrapped : Wrapped} :
    wrap cfg host cwd argv executionProfile = .ok wrapped ↔
      ∃ executable options, host.bwrap = some executable ∧
        bwrapOptions cfg host cwd executionProfile = .ok options ∧
        wrapped = .bwrap executable options argv := by
  have hnative : ¬ (cfg.backend = lit "native" ∨ cfg.backend = lit "none") := by
    rw [hbackend]
    decide
  have hknownProfile : rejectIf (executionProfile ∉ executionProfiles)
      (lit "unknown sandbox execution profile: " ++ executionProfile) = .ok () :=
    rejectIf_eq_ok.mpr (not_not.mpr hprofile)
  have hknownBackend : rejectIf (cfg.backend ≠ lit "bwrap")
      (lit "unknown sandbox backend: " ++ cfg.backend) = .ok () :=
    rejectIf_eq_ok.mpr (not_not.mpr hbackend)
  rw [wrap, hknownProfile, if_neg hnative, hknownBackend]
  -- bubblewrap has to be installed, and the options have to exist
  cases hinstalled : host.bwrap with
  | none =>
    constructor
    · intro h
      cases h
    · rintro ⟨executable, options, h, -⟩
      cases h
  | some executable =>
    refine (bind_ok_iff : bwrapOptions cfg host cwd executionProfile >>= _ = _ ↔ _).trans ?_
    constructor
    · rintro ⟨options, hoptions, h⟩
      exact ⟨executable, options, rfl, hoptions, (Except.ok.inj h).symm⟩
    · rintro ⟨executable', options, hexecutable, hoptions, rfl⟩
      cases hexecutable
      exact ⟨options, hoptions, rfl⟩

/-! ## Refusals -/

/-- A step that cannot fail does not matter for whether there is a result. -/
theorem exists_bind_pure {α β : Type} {x : Except Exn α} {f : α → β} :
    (∃ b, (x >>= fun a => pure (f a)) = .ok b) ↔ ∃ a, x = .ok a := by
  cases x with
  | error e => exact ⟨nofun, nofun⟩
  | ok a => exact ⟨fun _ => ⟨a, rfl⟩, fun _ => ⟨f a, rfl⟩⟩

theorem exists_hostileOptions_iff {reviewMode gateMode : Bool} :
    (∃ options, hostileOptions cfg host cwd reviewMode gateMode = .ok options) ↔
      (cfg.hostileRepoMode = true → host.fileExists host.home = true → gateMode = false →
        ∀ relative ∈ cfg.writableHomePaths, host.home <+: homeCandidate host relative ∧
          (host.fileExists (homeCandidate host relative) = true →
            host.isDir (homeCandidate host relative) = true)) := by
  unfold hostileOptions
  by_cases htrusted : cfg.hostileRepoMode = false
  · rw [if_pos htrusted]
    exact ⟨fun _ h => absurd (htrusted.symm.trans h) Bool.false_ne_true, fun _ => ⟨_, rfl⟩⟩
  rw [if_neg htrusted]
  have hmode : cfg.hostileRepoMode = true := by simpa using htrusted
  refine exists_bind_pure.trans ?_
  unfold hostileHomeOptions
  by_cases hexceptions : host.fileExists host.home = true ∧ gateMode = false
  · rw [if_pos hexceptions]
    exact hostileHomeBinds_ok_iff.trans
      ⟨fun h _ _ _ => h, fun h => h hmode hexceptions.1 hexceptions.2⟩
  · rw [if_neg hexceptions]
    exact ⟨fun _ _ hhome hgate => absurd ⟨hhome, hgate⟩ hexceptions, fun _ => ⟨_, rfl⟩⟩

theorem exists_workerHomeOptions_iff {reviewMode gateMode : Bool} :
    (∃ options, workerHomeOptions cfg host reviewMode gateMode = .ok options) ↔
      (host.fileExists host.home = true → cfg.hostileRepoMode = false → reviewMode = false →
        gateMode = false → cfg.readOnlyHome = true →
          ∀ relative ∈ cfg.writableHomePaths, host.home <+: homeCandidate host relative) := by
  unfold workerHomeOptions
  by_cases hworker : host.fileExists host.home = true ∧ cfg.hostileRepoMode = false ∧
      reviewMode = false ∧ gateMode = false
  · rw [if_pos hworker]
    by_cases hwritable : cfg.readOnlyHome = false
    · rw [if_pos hwritable]
      exact ⟨fun _ _ _ _ _ h => absurd (hwritable.symm.trans h) Bool.false_ne_true,
        fun _ => ⟨_, rfl⟩⟩
    · rw [if_neg hwritable]
      constructor
      · rintro ⟨options, h⟩ - - - - -
        exact homeBinds_inside h
      · intro h
        exact ⟨_, homeBinds_eq
          (h hworker.1 hworker.2.1 hworker.2.2.1 hworker.2.2.2 (by simpa using hwritable))⟩
  · rw [if_neg hworker]
    exact ⟨fun _ hhome hmode hreview hgate => absurd ⟨hhome, hmode, hreview, hgate⟩ hworker,
      fun _ => ⟨_, rfl⟩⟩

/-- The options can be built but where a path below HOME is refused. -/
theorem exists_bwrapOptions_iff {executable : Str} (hinstalled : host.bwrap = some executable) :
    (∃ options, bwrapOptions cfg host cwd executionProfile = .ok options) ↔
      ¬ Refuses cfg host executionProfile := by
  -- the options exist when those of both parts do
  have hparts : (∃ options, bwrapOptions cfg host cwd executionProfile = .ok options) ↔
      (∃ hostile, hostileOptions cfg host cwd (executionProfile == lit "review")
          (executionProfile == lit "gate") = .ok hostile) ∧
        ∃ worker, workerHomeOptions cfg host (executionProfile == lit "review")
          (executionProfile == lit "gate") = .ok worker := by
    constructor
    · rintro ⟨options, h⟩
      obtain ⟨hostile, worker, hhostile, hworker, -⟩ := bwrapOptions_ok_iff.mp h
      exact ⟨⟨hostile, hhostile⟩, ⟨worker, hworker⟩⟩
    · rintro ⟨⟨hostile, hhostile⟩, ⟨worker, hworker⟩⟩
      exact ⟨_, bwrapOptions_ok_iff.mpr ⟨hostile, worker, hhostile, hworker, rfl⟩⟩
  rw [hparts, exists_hostileOptions_iff, exists_workerHomeOptions_iff]
  constructor
  -- bubblewrap is missing, or one of the two parts refuses
  · rintro ⟨hhostile, hworker⟩ (hmissing | ⟨hhome, hgate, ⟨hmode, relative, hmem, hwrong⟩ |
      ⟨hmode, hreview, hreadOnly, relative, hmem, hescapes⟩⟩)
    · exact absurd (hmissing.symm.trans hinstalled) nofun
    · obtain ⟨hinside, hdir⟩ := hhostile hmode hhome (by simpa using hgate) relative hmem
      rcases hwrong with hescapes | ⟨hexists, hfile⟩
      · exact hescapes hinside
      · exact absurd ((hdir hexists).symm.trans hfile) (by decide)
    · exact hescapes (hworker hhome hmode (by simpa using hreview) (by simpa using hgate)
        hreadOnly relative hmem)
  · intro hrefuses
    constructor
    -- the hostile part: every named path is inside the home, and no file
    · intro hmode hhome hgate relative hmem
      by_contra hwrong
      refine hrefuses (Or.inr ⟨hhome, by simpa using hgate, Or.inl ⟨hmode, relative, hmem, ?_⟩⟩)
      by_cases hinside : host.home <+: homeCandidate host relative
      · right
        simpa [hinside] using hwrong
      · exact Or.inl hinside
    -- the worker's part: every named path is inside the home
    · intro hhome hmode hreview hgate hreadOnly relative hmem
      by_contra hescapes
      exact hrefuses (Or.inr ⟨hhome, by simpa using hgate,
        Or.inr ⟨hmode, by simpa using hreview, hreadOnly, relative, hmem, hescapes⟩⟩)

/-! ## Confinement -/

/-- Outside hostile mode, a view confines where HOME stays read-only. -/
theorem confined_of_trusted {options : List BwrapOption}
    (h : bwrapOptions cfg host cwd executionProfile = .ok options)
    (htrusted : cfg.hostileRepoMode = false)
    (hhome : HomeStaysReadOnly cfg host cwd executionProfile) :
    Confined cfg host cwd executionProfile options where
  review hprofile path file _ hview := (bwrapOptions_writable h htrusted hview).1 hprofile
  gate hprofile path file _ hview := by
    rcases (bwrapOptions_writable h htrusted hview).2 with hcwd | ⟨hgate, -⟩
    · exact hcwd
    · exact absurd hprofile hgate
  worker hreview hgate hmode path file _ hview := by
    rcases (bwrapOptions_writable h htrusted hview).2 with hcwd | ⟨-, hexists, hbelow⟩
    · exact Or.inl hcwd
    have hreadOnly : cfg.readOnlyHome = true :=
      hmode.resolve_left fun h => absurd (htrusted.symm.trans h) Bool.false_ne_true
    obtain ⟨relative, hmem, hinside, hfile⟩ := hbelow hreadOnly
    by_cases hsame : homeCandidate host relative = host.home
    · left
      rw [hhome hreview hgate hreadOnly hexists relative hmem hsame, ← hsame]
      exact hfile
    · exact Or.inr ⟨_, ⟨relative, hmem, rfl, hinside, hsame⟩, hfile⟩
  hidden hmode := absurd (htrusted.symm.trans hmode) Bool.false_ne_true
  fresh hmode := absurd (htrusted.symm.trans hmode) Bool.false_ne_true

/-- A wrapped command is confined exactly where the command is refused, or runs outside
hostile mode with a HOME that stays read-only. -/
theorem sandbox_confined_iff (cfg : SandboxConfig) (host : Host) (cwd : HostPath) (argv : List Str)
    (executionProfile : Str) (hbackend : cfg.backend = lit "bwrap")
    (hprofile : executionProfile ∈ executionProfiles)
    (hcwd : cwd <+: host.home → cwd = host.home) :
    (∀ executable options,
      wrap cfg host cwd argv executionProfile = .ok (.bwrap executable options argv) →
        Confined cfg host cwd executionProfile options) ↔
      Refuses cfg host executionProfile ∨
        cfg.hostileRepoMode = false ∧ HomeStaysReadOnly cfg host cwd executionProfile := by
  constructor
  -- confined, though nothing is refused: then the home stays read-only
  · intro hconfined
    by_contra hneither
    rw [not_or, not_and] at hneither
    obtain ⟨hrefuses, hhome⟩ := hneither
    obtain ⟨executable, hinstalled⟩ : ∃ executable, host.bwrap = some executable :=
      Option.ne_none_iff_exists'.mp fun h => hrefuses (Or.inl h)
    obtain ⟨options, hoptions⟩ := (exists_bwrapOptions_iff hinstalled).mpr hrefuses
    have hview := hconfined executable options
      ((wrap_ok_iff hbackend hprofile).mpr ⟨executable, options, hinstalled, hoptions, rfl⟩)
    by_cases hmode : cfg.hostileRepoMode = false
    · -- a worker for whom HOME is a writable path of its own
      refine hhome hmode fun hreview hgate hreadOnly hexists relative hmem hsame => ?_
      rcases hview.worker hreview hgate (Or.inr hreadOnly) host.home host.home hexists
        (bwrapOptions_home hoptions hmode hreview hgate hreadOnly hexists hmem hsame) with
        hbelow | ⟨dir, ⟨_, _, _, hinside, hstrict⟩, hbelow⟩
      · exact hcwd hbelow
      · exact absurd (hbelow.eq_of_length_le hinside.length_le) hstrict
    -- in the hostile mode the bind of the root covers the fresh instances
    · exact bwrapOptions_not_proc _ hoptions (hview.fresh (by simpa using hmode)).1
  · rintro (hrefuses | ⟨hmode, hhome⟩) executable options hwrap
    -- refused: there is no such command
    · obtain ⟨executable', options', hinstalled, hoptions, heq⟩ :=
        (wrap_ok_iff hbackend hprofile).mp hwrap
      exact absurd hrefuses ((exists_bwrapOptions_iff hinstalled).mp ⟨options', hoptions⟩)
    · obtain ⟨executable', options', hinstalled, hoptions, heq⟩ :=
        (wrap_ok_iff hbackend hprofile).mp hwrap
      cases heq
      exact confined_of_trusted hoptions hmode hhome

end Options

/-! ## A host -/

/-- `resolve()`, where there are no links. -/
def resolveDots (path : HostPath) : HostPath :=
  path.foldl (fun resolved part => if part = lit ".." then resolved.dropLast else
    resolved ++ [part]) []

/-- A host with one user, on which everything exists. -/
def singleUserHost : Host where
  bwrap        := some (lit "/usr/bin/bwrap")
  home         := [lit "home", lit "u"]
  runtime      := [lit "run", lit "user", lit "1000"]
  fileExists _ := true
  isDir _      := true
  resolve      := resolveDots

/-- A gate of a hostile repository sees the host's processes; and a worker may write to all of
a read-only HOME that has a path back to itself. -/
theorem sandbox_not_confined :
    (∃ executable options,
      wrap { backend := lit "bwrap", hostileRepoMode := true } singleUserHost
        [lit "srv", lit "repo"] [lit "make"] (lit "gate") =
          .ok (.bwrap executable options [lit "make"]) ∧
        ¬ Confined { backend := lit "bwrap", hostileRepoMode := true } singleUserHost
          [lit "srv", lit "repo"] (lit "gate") options) ∧
    cleanHomePaths [lit "x/.."] = .ok [lit "x/.."] ∧
    ∃ executable options,
      wrap { backend := lit "bwrap", readOnlyHome := true, writableHomePaths := [lit "x/.."] }
        singleUserHost [lit "srv", lit "repo"] [lit "agent"] (lit "yolo-worktree") =
          .ok (.bwrap executable options [lit "agent"]) ∧
        ¬ Confined
          { backend := lit "bwrap", readOnlyHome := true, writableHomePaths := [lit "x/.."] }
          singleUserHost [lit "srv", lit "repo"] (lit "yolo-worktree") options := by
  refine ⟨⟨_, _, rfl, fun h => ?_⟩, ?_, _, _, rfl, fun h => ?_⟩
  · have hproc := (h.fresh rfl).1
    exact absurd hproc (by decide)
  · decide
  · have hwritable := h.worker (by decide) (by decide) (Or.inr rfl)
      [lit "home", lit "u", lit "keys"] [lit "home", lit "u", lit "keys"] rfl (by decide)
    rcases hwritable with hcwd | ⟨dir, ⟨relative, hmem, rfl, -, hstrict⟩, -⟩
    · exact absurd hcwd (by decide)
    · rw [List.mem_singleton.mp hmem] at hstrict
      exact hstrict (by decide)

/-- A read-only HOME with a cache that a worker may write to. -/
def cachedHome : SandboxConfig where
  backend           := lit "bwrap"
  readOnlyHome      := true
  writableHomePaths := [lit ".cache"]

/-- A worker writes to the cache, and to nothing else of HOME. -/
theorem sandbox_confined_worker :
    ∃ executable options,
      wrap cachedHome singleUserHost [lit "srv", lit "repo"] [lit "agent"] (lit "yolo-worktree") =
        .ok (.bwrap executable options [lit "agent"]) ∧
      Confined cachedHome singleUserHost [lit "srv", lit "repo"] (lit "yolo-worktree") options ∧
      sandboxView options [lit "home", lit "u", lit ".cache", lit "x"] =
        .host [lit "home", lit "u", lit ".cache", lit "x"] true ∧
      sandboxView options [lit "home", lit "u", lit ".ssh"] =
        .host [lit "home", lit "u", lit ".ssh"] false := by
  have hhome : HomeStaysReadOnly cachedHome singleUserHost [lit "srv", lit "repo"]
      (lit "yolo-worktree") := by
    intro _ _ _ _ relative hmem hsame
    rw [List.mem_singleton.mp hmem] at hsame
    exact absurd hsame (by decide)
  have hconfined := (sandbox_confined_iff cachedHome singleUserHost [lit "srv", lit "repo"]
    [lit "agent"] (lit "yolo-worktree") rfl (by decide) (by decide)).mpr (Or.inr ⟨rfl, hhome⟩)
  exact ⟨_, _, rfl, hconfined _ _ rfl, by decide, by decide⟩

end OmarchyYolo
