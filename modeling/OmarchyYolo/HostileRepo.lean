import OmarchyYolo.LoadConfig
import OmarchyYolo.Reviewer

/-!
# OmarchyYolo.HostileRepo — what the hostile-repo preset keeps in

From the configuration file to the processes of a job. Gates and agents are started
through `Sandbox.wrap`, `Sandbox.environment` and `ResourcePolicy.wrap`; with the
`hostile-repo` preset none of them is started outside bubblewrap, and what bubblewrap is
told hides HOME but for the worktree and the directories that the file names. It does not
hide the processes of the host: the bind of the root comes after the fresh `/proc`.

* `environment`, `ResourcePolicy.wrap` — what a process is given;
* `ResourcePolicy.Scope` — what may stand in front of bubblewrap;
* `gateLaunch`, `agentLaunch` — the processes of `GateRunner.run` and `CommandAgent.run`;
* `Contained` — what the options of bubblewrap show, and let write;
* `hostile_launch_contained`: whatever is started under the preset is contained.
-/

namespace OmarchyYolo

open Py PyJson Mounts

/-! ## The environment -/

/-- `safe_names`, without the allow-lists. -/
def safeNames : List Str :=
  [lit "AR", lit "CC", lit "COLORTERM", lit "CXX", lit "HOME", lit "LANG", lit "LANGUAGE",
   lit "LD", lit "LOGNAME", lit "MAKEFLAGS", lit "NINJA_STATUS", lit "PATH", lit "PYTHONHOME",
   lit "PYTHONPATH", lit "RUST_BACKTRACE", lit "SHELL", lit "TERM", lit "USER",
   lit "VIRTUAL_ENV"]

/-- The names that the configuration adds. -/
def Config.Sandbox.allowlist (cfg : Config.Sandbox) (executionProfile : Str) : List Str :=
  if executionProfile = lit "gate" then cfg.gateEnvAllowlist else cfg.agentEnvAllowlist

/-- `env.setdefault(name, value)`. -/
def setDefault (name value : Str) (env : List (Str × Str)) : List (Str × Str) :=
  dictSet name (fun found => found.getD value) env

/-- `env.update(others)`. -/
def updateEnv (env others : List (Str × Str)) : List (Str × Str) :=
  others.foldl (fun env item => dictSet item.1 (fun _ => item.2) env) env

/-- `Sandbox.environment`, of a process with the environment `environ`. -/
def environment (cfg : Config.Sandbox) (environ : List (Str × Str)) (executionProfile : Str) :
    Except Exn (List (Str × Str)) := do
  rejectIf (executionProfile ∉ executionProfiles)
    (lit "unknown sandbox execution profile: " ++ executionProfile)
  let env :=
    if cfg.hostileRepoMode then
      environ.filter fun item =>
        item.1 ∈ safeNames ++ cfg.allowlist executionProfile ∨ lit "LC_" <+: item.1
    else environ
  return dictSet (lit "OMARCHY_YOLO") (fun _ => lit "1") (setDefault (lit "CI") (lit "1") env)

/-! ## The scope of the resources -/

/-- `_properties`. -/
def ResourcePolicy.properties (policy : ResourcePolicy) : List Str :=
  (if policy.memoryHighMib ≠ 0 then
    [lit "MemoryHigh=" ++ decimal policy.memoryHighMib ++ lit "M"] else []) ++
  (if policy.memoryMaxMib ≠ 0 then
    [lit "MemoryMax=" ++ decimal policy.memoryMaxMib ++ lit "M"] else []) ++
  (if policy.tasksMax ≠ 0 then [lit "TasksMax=" ++ decimal policy.tasksMax] else []) ++
  (if policy.cpuQuotaPercent ≠ 0 then
    [lit "CPUQuota=" ++ decimal policy.cpuQuotaPercent ++ lit "%"] else []) ++
  (if policy.ioWeight ≠ 0 then [lit "IOWeight=" ++ decimal policy.ioWeight] else [])

/-- `_systemd_run`; `which` is `shutil.which("systemd-run")`. -/
def ResourcePolicy.systemdRun (policy : ResourcePolicy) (which : Option Str) :
    Except Exn Str := do
  rejectIf (policy.backend ≠ lit "systemd")
    (lit "unknown resource-control backend: " ++ policy.backend)
  match which with
  | none => raise (lit "resources.backend='systemd' requires systemd-run on PATH")
  | some executable => .ok executable

/-- `ResourcePolicy.wrap`. -/
def ResourcePolicy.wrap (policy : ResourcePolicy) (which : Option Str) (argv : List Str) :
    Except Exn (List Str) :=
  if policy.backend = lit "none" then .ok argv
  else do
    let executable ← policy.systemdRun which
    return [executable, lit "--user", lit "--scope", lit "--quiet", lit "--collect"] ++
      policy.properties.flatMap (fun property => [lit "--property", property]) ++
      lit "--" :: argv

/-- What stands in front of a command: nothing, or a scope of the user's systemd. -/
def ResourcePolicy.Scope (policy : ResourcePolicy) (which : Option Str) (front : List Str) : Prop :=
  (policy.backend = lit "none" ∧ front = []) ∨
    ∃ executable, policy.backend = lit "systemd" ∧ which = some executable ∧
      front = [executable, lit "--user", lit "--scope", lit "--quiet", lit "--collect"] ++
        policy.properties.flatMap (fun property => [lit "--property", property]) ++ [lit "--"]

/-! ## Processes -/

/-- What `create_subprocess_exec` is called with. -/
structure Launch where
  argv : List Str
  env : List (Str × Str)

/-- The machine that the processes run on. -/
structure Machine where
  host : Host
  executables : Executables
  /-- `shutil.which("systemd-run")`. -/
  systemdRun : Option Str
  /-- `os.environ`. -/
  environ : List (Str × Str)

section Processes

variable (config : Config) (machine : Machine) (cwd : HostPath)

/-- The process of `GateRunner.run` for a command. -/
def gateLaunch (command : Str) : Except Exn Launch := do
  let wrapped ← wrap config.sandbox.toSandboxConfig machine.host cwd
    [lit "bash", lit "-lc", command] (lit "gate")
  let env ← environment config.sandbox machine.environ (lit "gate")
  let argv ← config.resources.wrap machine.systemdRun wrapped.argv
  return ⟨argv, setDefault (lit "CI") (lit "1") env⟩

/-- The value that `environment_for_profile` gives to `OPENCODE_CONFIG_CONTENT`. -/
def opencodePolicy : Str :=
  lit "\x7b\"permission\":\x7b\"edit\":\"deny\",\"bash\":\"deny\",\"webfetch\":\"deny\"," ++
    lit "\"websearch\":\"deny\",\"external_directory\":\"deny\"\x7d\x7d"

/-- `environment_for_profile`. -/
def CommandAgent.environmentForProfile (agent : CommandAgent) (executionProfile : Str) :
    List (Str × Str) :=
  if executionProfile ≠ lit "review" ∨ agent.name ≠ lit "opencode" then []
  else [(lit "OPENCODE_CONFIG_CONTENT", opencodePolicy)]

/-- The process of `CommandAgent.run`. -/
def agentLaunch (agent : CommandAgent) (executionProfile : Str) (extraEnv : List (Str × Str))
    (prompt : Str) : Except Exn Launch := do
  rejectIf (agent.available machine.executables = false)
    (lit "agent '" ++ agent.name ++ lit "' is not installed or disabled")
  rejectIf (agent.supportsProfile machine.executables executionProfile = false)
    (lit "agent '" ++ agent.name ++ lit "' does not support execution profile '" ++
      executionProfile ++ lit "'")
  let command ← agent.commandForProfile machine.executables executionProfile
  let wrapped ← wrap config.sandbox.toSandboxConfig machine.host cwd command executionProfile
  let env ← environment config.sandbox machine.environ executionProfile
  let prompt ← boundedPrompt prompt
  let argv ← config.resources.wrap machine.systemdRun (wrapped.argv ++ [prompt])
  return ⟨argv, updateEnv (updateEnv env extraEnv) (agent.environmentForProfile executionProfile)⟩

/-- A process of a job; `extra` are the names that its caller adds to the environment. -/
inductive Launches : Str → List Str → Launch → Prop where
  | gate {command : Str} {launch : Launch}
      (h : gateLaunch config machine cwd command = .ok launch) :
    Launches (lit "gate") [] launch
  | agent {agent : CommandAgent} {executionProfile : Str} {extraEnv : List (Str × Str)}
      {prompt : Str} {launch : Launch}
      (h : agentLaunch config machine cwd agent executionProfile extraEnv prompt = .ok launch) :
    Launches executionProfile (extraEnv.map Prod.fst) launch

end Processes

/-! ## Containment -/

section Contained

variable (cfg : Config.Sandbox) (host : Host) (cwd : HostPath) (executionProfile : Str)

/-- A file of the worktree, or for an agent one below a directory of HOME that the
configuration names. -/
def Exposed (file : HostPath) : Prop :=
  cwd <+: file ∨ executionProfile ≠ lit "gate" ∧ ∃ relative ∈ cfg.writableHomePaths,
    host.home <+: homeCandidate host relative ∧ homeCandidate host relative <+: file

/-- What the options of bubblewrap show below HOME and the runtime directory, what they
let write, and what they take away. -/
structure Contained (options : List BwrapOption) : Prop where
  masked : ∀ root ∈ maskedRoots host, ∀ path file writable, root <+: path →
    sandboxView options path = .host file writable → Exposed cfg host cwd executionProfile file
  written : ∀ path file, sandboxView options path = .host file true →
    executionProfile ≠ lit "review" ∧ Exposed cfg host cwd executionProfile file
  isolated : ∀ o ∈ [BwrapOption.unsharePid, .unshareIpc, .unshareUts, .newSession], o ∈ options
  offline : executionProfile ∈ [lit "review", lit "gate"] → BwrapOption.unshareNet ∈ options

/-- A name that the environment of a process may have. -/
def AllowedName (extra : List Str) (name : Str) : Prop :=
  name ∈ safeNames ∨ lit "LC_" <+: name ∨ name ∈ cfg.allowlist executionProfile ∨
    name ∈ [lit "CI", lit "OMARCHY_YOLO", lit "OPENCODE_CONFIG_CONTENT"] ∨ name ∈ extra

end Contained

/-! ## The options of a hostile repository -/

section Views

variable {cfg : Config.Sandbox} {host : Host} {cwd : HostPath} {executionProfile : Str}

/-- A file that one of the options brings in is exposed, and is writable outside reviews. -/
theorem exposed_of_option {hostile : List BwrapOption} {o : BwrapOption}
    {m : Mount Str ViewNode} {path file : HostPath} {writable : Bool}
    (hmode : cfg.hostileRepoMode = true)
    (hhostile : hostileOptions cfg.toSandboxConfig host cwd (executionProfile == lit "review")
      (executionProfile == lit "gate") = .ok hostile)
    (ho : o ∈ afterRoot cfg.toSandboxConfig cwd executionProfile hostile [])
    (hm : o.mount? = some m) (hnode : m.node path = .host file writable) :
    Exposed cfg host cwd executionProfile file ∧
      (writable = true → executionProfile ≠ lit "review") := by
  -- by the option: `/tmp`, a hostile one, the worktree, chdir, or the network
  rcases mem_afterRoot.mp ho with rfl | ho | rfl | rfl | ho | ho
  -- the temporary directory shows no file of the host
  · cases hm
    cases hnode
  -- a mask, a directory, or a bind of a named one
  · rcases (hostileOptions_mem hmode hhostile).2 o ho with ⟨root, rfl⟩ | ⟨dir, rfl⟩ |
      ⟨hgate, relative, hrelative, hinside, rfl⟩
    · cases hm
      cases hnode
    · cases hm
    · -- a named directory, read-only for a review
      have hagent : executionProfile ≠ lit "gate" := by simpa using hgate
      unfold homeBind at hm
      split_ifs at hm with hreview
      · cases hm
        cases hnode
        exact ⟨Or.inr ⟨hagent, relative, hrelative, hinside, List.prefix_append _ _⟩,
          fun hwritable => absurd hwritable Bool.false_ne_true⟩
      · cases hm
        cases hnode
        exact ⟨Or.inr ⟨hagent, relative, hrelative, hinside, List.prefix_append _ _⟩,
          fun _ => by simpa using hreview⟩
  · -- the worktree
    split_ifs at hm with hreview
    · cases hm
      cases hnode
      exact ⟨Or.inl (List.prefix_append _ _),
        fun hwritable => absurd hwritable Bool.false_ne_true⟩
    · cases hm
      cases hnode
      exact ⟨Or.inl (List.prefix_append _ _), fun _ => by simpa using hreview⟩
  · cases hm
  · exact absurd ho List.not_mem_nil
  · split_ifs at ho
    · exact absurd ho List.not_mem_nil
    · rw [List.mem_singleton.mp ho] at hm
      cases hm

/-- The options of a hostile repository contain, where the networks are off. -/
theorem contained_of_options {options : List BwrapOption} (hmode : cfg.hostileRepoMode = true)
    (hreview : cfg.networkFor (lit "review") = false)
    (hgate : cfg.networkFor (lit "gate") = false)
    (h : bwrapOptions cfg.toSandboxConfig host cwd executionProfile = .ok options) :
    Contained cfg host cwd executionProfile options := by
  rcases bwrapOptions_ok_iff.mp h with ⟨hostile, worker, hhostile, hworker, rfl⟩
  have hnone : worker = [] := by
    rcases workerHomeOptions_eq hworker with hnone | ⟨-, htrusted, -⟩
    · exact hnone
    · exact absurd (htrusted.symm.trans hmode) Bool.false_ne_true
  subst hnone
  constructor
  -- below a masked root only the exceptions show
  · intro root hroot path file writable hbelow hview
    -- the mask covers the path, so that one of the options after the root shows there
    have hmask : (⟨root, fun _ => .tmpfs⟩ : Mount Str ViewNode) ∈
        (afterRoot cfg.toSandboxConfig cwd executionProfile hostile []).filterMap
          BwrapOption.mount? := by
      refine List.mem_filterMap.mpr ⟨.tmpfs root, ?_, rfl⟩
      exact mem_afterRoot.mpr (Or.inr (Or.inl ((hostileOptions_mem hmode hhostile).1 root hroot)))
    rw [sandboxView_rooted] at hview
    rcases view_covered hmask hbelow with ⟨m, hm, -, hnode⟩
    rcases List.mem_filterMap.mp hm with ⟨o, ho, hmount⟩
    exact (exposed_of_option hmode hhostile ho hmount (hnode.symm.trans hview)).1
  -- what is writable comes from one of the same options
  · intro path file hview
    have hbound : ViewNode.host file true ≠ .host path false := by
      intro hsame
      cases hsame
    -- the root itself is bound read-only, so it is another option
    rcases sandboxView_source hview hbound with ⟨o, ho, m, hm, -, hnode⟩
    have hexposed := exposed_of_option hmode hhostile ho hm hnode
    exact ⟨hexposed.2 rfl, hexposed.1⟩
  -- the unshared namespaces
  · intro o ho
    apply List.mem_append_left
    rw [beforeRoot, if_pos hmode]
    simp only [List.mem_cons, List.not_mem_nil, or_false] at ho
    rcases ho with rfl | rfl | rfl | rfl <;> decide
  -- a review and a gate have no network
  · intro hprofile
    have hoff : cfg.networkFor executionProfile = false := by
      rcases List.mem_cons.mp hprofile with rfl | hprofile
      · exact hreview
      · rw [List.mem_singleton.mp hprofile]
        exact hgate
    apply List.mem_append_right
    apply List.mem_cons_of_mem
    refine mem_afterRoot.mpr (Or.inr (Or.inr (Or.inr (Or.inr (Or.inr ?_)))))
    rw [if_neg (fun hon => absurd (hoff.symm.trans hon) Bool.false_ne_true)]
    exact List.mem_singleton_self _

end Views

/-! ## Processes under the preset -/

section Environment

variable {cfg : Config.Sandbox} {executionProfile : Str} {extra : List Str}
  {env : List (Str × Str)}

theorem setDefault_allowed {name value : Str}
    (h : ∀ key ∈ env.map Prod.fst, AllowedName cfg executionProfile extra key)
    (hname : AllowedName cfg executionProfile extra name) :
    ∀ key ∈ (setDefault name value env).map Prod.fst,
      AllowedName cfg executionProfile extra key := by
  intro key hkey
  rcases mem_dictSet_keys.mp hkey with rfl | hkey
  · exact hname
  · exact h key hkey

theorem updateEnv_allowed {others : List (Str × Str)}
    (h : ∀ key ∈ env.map Prod.fst, AllowedName cfg executionProfile extra key)
    (hothers : ∀ key ∈ others.map Prod.fst, AllowedName cfg executionProfile extra key) :
    ∀ key ∈ (updateEnv env others).map Prod.fst,
      AllowedName cfg executionProfile extra key := by
  induction others generalizing env with
  | nil => exact h
  | cons item others ih =>
    rw [List.map_cons, List.forall_mem_cons] at hothers
    refine ih ?_ hothers.2
    intro key hkey
    rcases mem_dictSet_keys.mp hkey with rfl | hkey
    · exact hothers.1
    · exact h key hkey

/-- The environment of a hostile repository is filtered. -/
theorem environment_allowed {environ : List (Str × Str)} (hmode : cfg.hostileRepoMode = true)
    (h : environment cfg environ executionProfile = .ok env) :
    ∀ key ∈ env.map Prod.fst, AllowedName cfg executionProfile extra key := by
  have hci : AllowedName cfg executionProfile extra (lit "CI") :=
    Or.inr (Or.inr (Or.inr (Or.inl List.mem_cons_self)))
  have hyolo : AllowedName cfg executionProfile extra (lit "OMARCHY_YOLO") :=
    Or.inr (Or.inr (Or.inr (Or.inl (List.mem_cons_of_mem _ List.mem_cons_self))))
  rcases bind_ok_iff.mp h with ⟨u, -, hsame⟩
  cases hsame
  intro key hkey
  rcases mem_dictSet_keys.mp hkey with rfl | hkey
  · exact hyolo
  · refine setDefault_allowed ?_ hci key hkey
    intro name hname
    rw [if_pos hmode] at hname
    rcases List.mem_map.mp hname with ⟨item, hitem, rfl⟩
    rcases of_decide_eq_true (List.mem_filter.mp hitem).2 with hlisted | hlocale
    · rcases List.mem_append.mp hlisted with hsafe | hallowed
      · exact Or.inl hsafe
      · exact Or.inr (Or.inr (Or.inl hallowed))
    · exact Or.inr (Or.inl hlocale)

end Environment

/-- The scope of the resources is put in front of a command, and nothing else. -/
theorem ResourcePolicy.wrap_scope {policy : ResourcePolicy} {which : Option Str}
    {argv wrapped : List Str} (h : policy.wrap which argv = .ok wrapped) :
    ∃ front, policy.Scope which front ∧ wrapped = front ++ argv := by
  unfold ResourcePolicy.wrap at h
  split_ifs at h with hbackend
  · cases h
    exact ⟨[], Or.inl ⟨hbackend, rfl⟩, rfl⟩
  · rcases bind_ok_iff.mp h with ⟨executable, hrun, hsame⟩
    cases hsame
    rcases bind_ok_iff.mp hrun with ⟨u, hknown, hfound⟩
    have hsystemd : policy.backend = lit "systemd" := not_not.mp (rejectIf_eq_ok.mp hknown)
    have hwhich : which = some executable := by
      cases which with
      | none => cases hfound
      | some found =>
        cases hfound
        rfl
    refine ⟨_, Or.inr ⟨executable, hsystemd, hwhich, rfl⟩, ?_⟩
    exact (List.append_assoc _ [lit "--"] argv).symm

/-- Whatever a hostile configuration wraps runs in bubblewrap, contained. -/
theorem wrap_contained {config : Config} {host : Host} {cwd : HostPath} {argv : List Str}
    {executionProfile : Str} {wrapped : Wrapped} (hhostile : config.Hostile)
    (h : wrap config.sandbox.toSandboxConfig host cwd argv executionProfile = .ok wrapped) :
    ∃ executable options, wrapped = .bwrap executable options argv ∧
      Contained config.sandbox host cwd executionProfile options ∧
        sandboxView options [lit "proc"] ≠ .proc := by
  have hprofile : executionProfile ∈ executionProfiles := by
    rcases bind_ok_iff.mp h with ⟨u, hknown, -⟩
    exact not_not.mp (rejectIf_eq_ok.mp hknown)
  rcases (wrap_ok_iff hhostile.backend hprofile).mp h with
    ⟨executable, options, -, hoptions, hsame⟩
  exact ⟨executable, options, hsame, contained_of_options hhostile.hostileRepoMode
    hhostile.network.1 hhostile.network.2 hoptions, bwrapOptions_not_proc _ hoptions⟩

/-- With the `hostile-repo` preset in the file, whatever is started for a job is started by
bubblewrap, perhaps in a scope of systemd, contained, and with a filtered environment; but it
does not see a `/proc` of its own. -/
theorem hostile_launch_contained {D : Type} (B : Builtins D) (data : Members D)
    (config : LoadedConfig) (machine : Machine) (cwd : HostPath) (executionProfile : Str)
    (extra : List Str) (launch : Launch) (hload : loadConfig B data = .ok config)
    (hpreset : config.safetyPreset = lit "hostile-repo")
    (hlaunch : Launches config.toConfig machine cwd executionProfile extra launch) :
    ∃ front executable options command,
      config.resources.Scope machine.systemdRun front ∧
        launch.argv = front ++ (Wrapped.bwrap executable options command).argv ∧
        Contained config.sandbox machine.host cwd executionProfile options ∧
        sandboxView options [lit "proc"] ≠ .proc ∧
          ∀ name ∈ launch.env.map Prod.fst,
            AllowedName config.sandbox executionProfile extra name := by
  have hhostile := (loadConfig_ok hload).hostile hpreset
  -- by the launch: of a gate, or of an agent
  cases hlaunch with
  | gate h =>
    simp only [gateLaunch, bind_ok_iff] at h
    rcases h with ⟨wrapped, hwrap, env, henv, argv, hargv, hsame⟩
    cases hsame
    rcases wrap_contained hhostile hwrap with ⟨executable, options, rfl, hcontained, hproc⟩
    rcases ResourcePolicy.wrap_scope hargv with ⟨front, hfront, happend⟩
    refine ⟨front, executable, options, _, hfront, happend, hcontained, hproc, ?_⟩
    exact setDefault_allowed (environment_allowed hhostile.hostileRepoMode henv)
      (Or.inr (Or.inr (Or.inr (Or.inl List.mem_cons_self))))
  | @agent agent _ extraEnv _ _ h =>
    simp only [agentLaunch, bind_ok_iff] at h
    rcases h with ⟨-, -, -, -, command, -, wrapped, hwrap, env, henv, prompt, -, argv, hargv, hsame⟩
    cases hsame
    rcases wrap_contained hhostile hwrap with ⟨executable, options, rfl, hcontained, hproc⟩
    rcases ResourcePolicy.wrap_scope hargv with ⟨front, hfront, happend⟩
    refine ⟨front, executable, options, command ++ [prompt], hfront, ?_, hcontained, hproc, ?_⟩
    · -- the prompt is the last argument of the agent
      have hprompt : (Wrapped.bwrap executable options (command ++ [prompt])).argv =
          (Wrapped.bwrap executable options command).argv ++ [prompt] := by
        simp only [Wrapped.argv, List.cons_append, List.append_assoc]
      rw [hprompt]
      exact happend
    · -- the caller's names come in first, and then those of the profile
      apply updateEnv_allowed
      · apply updateEnv_allowed (environment_allowed hhostile.hostileRepoMode henv)
        intro key hkey
        exact Or.inr (Or.inr (Or.inr (Or.inr hkey)))
      · intro key hkey
        unfold CommandAgent.environmentForProfile at hkey
        split_ifs at hkey
        · exact absurd hkey List.not_mem_nil
        · rw [List.mem_singleton.mp hkey]
          exact Or.inr (Or.inr (Or.inr (Or.inl (by decide))))

/-- A machine with one user, and nothing but `PATH` and a token in the environment. -/
def singleUserMachine : Machine where
  host        := singleUserHost
  executables := { which := fun _ => none, resolve := id }
  systemdRun  := none
  environ     := [(lit "PATH", lit "/usr/bin"), (lit "TOKEN", lit "secret")]

/-- A file with nothing but the preset. -/
def hostileDocument : Members Empty :=
  .ofList [(lit "safety", .obj (.ofList [(lit "preset", .str (lit "hostile-repo"))]))]

/-- The configuration of that file. -/
def hostileConfig : LoadedConfig where
  git := { allowRepositoryCommands := false }
  sandbox :=
    { backend := lit "bwrap", reviewNetwork := some false, gateNetwork := some false,
      readOnlyHome := true, hostileRepoMode := true }
  agents := defaultConfig.agents
  safetyPreset := lit "hostile-repo"

/-- A gate of a hostile repository. -/
theorem hostile_launch_contained_gate :
    loadConfig plainBuiltins hostileDocument = .ok hostileConfig ∧
      ∃ launch,
        gateLaunch hostileConfig.toConfig singleUserMachine [lit "srv", lit "repo"]
            (lit "make") = .ok launch ∧
          ∃ front executable options command,
            hostileConfig.resources.Scope singleUserMachine.systemdRun front ∧
              launch.argv = front ++ (Wrapped.bwrap executable options command).argv ∧
              Contained hostileConfig.sandbox singleUserMachine.host [lit "srv", lit "repo"]
                (lit "gate") options ∧
              sandboxView options [lit "proc"] ≠ .proc ∧
              ∀ name ∈ launch.env.map Prod.fst,
                AllowedName hostileConfig.sandbox (lit "gate") [] name :=
  ⟨rfl, _, rfl, hostile_launch_contained plainBuiltins hostileDocument hostileConfig
    singleUserMachine [lit "srv", lit "repo"] (lit "gate") [] _ rfl rfl (.gate rfl)⟩

end OmarchyYolo
