import OmarchyYolo.Effects
import OmarchyYolo.Lib.Dict
import OmarchyYolo.Sandbox

/-!
# OmarchyYolo.AgentRegistry — the agents that are offered for a role

An agent has a command, for the workers and the integrator, and perhaps a command
for reviews. The registry offers it for a role when one of its executables is
found and its contract has the role.

* `available`, `supportsRole`, `commandForProfile` — an agent;
* `AgentRegistry`, `firstAvailable`, `chooseRole` — the choice of one;
* `launchedExecutable` — what is run for a role, `commandForProfile_eq_cons` at the head of
  the command;
* `offered_runs_iff`: when every agent that is offered can run.
-/

namespace OmarchyYolo

open Py

/-! ## Agents -/

structure AgentConfig where
  enabled : Bool := true
  command : List Str := []
  reviewCommand : List Str := []
  roles : List AgentRole := []
deriving DecidableEq, Repr

/-- A name of the configuration and what it stands for. -/
structure CommandAgent where
  name : Str
  config : AgentConfig

/-- What the file system has: `shutil.which`, and `Path(path).resolve()`. -/
structure Executables where
  which : Str → Option Str
  resolve : Str → Str

def builtinReviewAgents : List Str := [lit "codex", lit "claude", lit "opencode"]

/-- The roles that run the command for reviews. -/
def AgentRole.readsOnly : AgentRole → Bool
  | .planner | .reviewer => true
  | .worker | .integrator => false

/-- `bool(command and shutil.which(command[0]))` -/
def Executables.finds (env : Executables) (command : List Str) : Bool :=
  command.head?.any fun executable => (env.which executable).isSome

/-- The loop of `_strip_option_with_value`. -/
def stripTokens (option : Str) : Bool → List Str → List Str
  | _, [] => []
  | true, _ :: argv => stripTokens option false argv
  | false, token :: argv =>
    if token = option then stripTokens option true argv
    else if option ++ lit "=" <+: token then stripTokens option false argv
    else token :: stripTokens option false argv

/-- `_strip_option_with_value` -/
def stripOptionWithValue (argv : List Str) (option : Str) : List Str :=
  stripTokens option false argv

namespace CommandAgent

variable (env : Executables) (agent : CommandAgent)

/-- `available` -/
def available : Bool :=
  agent.config.enabled &&
    (env.finds agent.config.command || env.finds agent.config.reviewCommand)

/-- `_trusted_builtin_review_identity` -/
def trustedBuiltinReviewIdentity : Bool :=
  match agent.config.command with
  | [] => false
  | executable :: _ =>
    if agent.name ∉ builtinReviewAgents then false
    else if (pathParts executable).getLast? ≠ some agent.name then false
    else if executable = agent.name then true
    else
      match env.which executable, env.which agent.name with
      | some configured, some expected => decide (env.resolve configured = env.resolve expected)
      | _, _ => false

/-- `declared_roles` -/
def declaredRoles : List AgentRole :=
  if agent.config.roles ≠ [] then agent.config.roles
  else
    (if agent.config.command ≠ [] then [.worker, .integrator] else []) ++
      (if agent.config.reviewCommand ≠ [] ∨ agent.trustedBuiltinReviewIdentity env then
        [.planner, .reviewer] else [])

/-- `supports_profile` -/
def supportsProfile (executionProfile : Str) : Bool :=
  if executionProfile ∈ [lit "yolo-worktree", lit "danger-yolo"] then
    agent.config.command ≠ []
  else if executionProfile ≠ lit "review" then false
  else if agent.config.reviewCommand ≠ [] then env.finds agent.config.reviewCommand
  else agent.trustedBuiltinReviewIdentity env

/-- `supports_role` -/
def supportsRole (role : AgentRole) : Bool :=
  if role ∉ agent.declaredRoles env then false
  else if role.readsOnly then agent.supportsProfile env (lit "review")
  else agent.config.command ≠ []

/-- `command_for_profile` -/
def commandForProfile (executionProfile : Str) : Except Exn (List Str) :=
  let noCapability : Except Exn (List Str) :=
    raise (lit "agent '" ++ agent.name ++ lit "' has no declared read-only review capability; " ++
      lit "configure agents.<name>.review_command")
  let argv := agent.config.command
  if executionProfile = lit "review" then
    if agent.config.reviewCommand ≠ [] then .ok agent.config.reviewCommand
    else if ¬ agent.trustedBuiltinReviewIdentity env then noCapability
    else if agent.name = lit "codex" then
      .ok (stripOptionWithValue (argv.filter (· ∉
        [lit "--dangerously-bypass-approvals-and-sandbox", lit "--full-auto"]))
        (lit "--sandbox") ++ [lit "--sandbox", lit "read-only"])
    else if agent.name = lit "claude" then
      .ok (stripOptionWithValue (argv.filter (· ∉ [lit "--dangerously-skip-permissions"]))
        (lit "--permission-mode") ++ [lit "--permission-mode", lit "plan"])
    else if agent.name = lit "opencode" then .ok argv
    else noCapability
  else if executionProfile = lit "yolo-worktree" then .ok argv
  else if executionProfile ≠ lit "danger-yolo" then
    raise (lit "unknown agent execution profile: " ++ executionProfile)
  else if agent.name ≠ lit "codex" then .ok argv
  else
    .ok (stripOptionWithValue (argv.filter (· ∉
      [lit "--full-auto", lit "--dangerously-bypass-approvals-and-sandbox"]))
      (lit "--sandbox") ++ [lit "--dangerously-bypass-approvals-and-sandbox"])

/-- `_supports` -/
def supports (executionProfile : Option Str) (role : Option AgentRole) : Bool :=
  role.all (agent.supportsRole env) && executionProfile.all (agent.supportsProfile env)

/-- The executable of the command that is run for a role. -/
def launchedExecutable (role : AgentRole) : Option Str :=
  if ¬ role.readsOnly then agent.config.command.head?
  else if agent.config.reviewCommand ≠ [] then agent.config.reviewCommand.head?
  else if agent.trustedBuiltinReviewIdentity env then agent.config.command.head?
  else none

end CommandAgent

/-! ## The registry -/

/-- The configured agents, each name once. -/
structure AgentRegistry where
  agents : List (Str × AgentConfig)
  nodup : (agents.map Prod.fst).Nodup

def AgentRole.value : AgentRole → Str
  | .worker => lit "worker"
  | .planner => lit "planner"
  | .reviewer => lit "reviewer"
  | .integrator => lit "integrator"

namespace AgentRegistry

variable (env : Executables) (registry : AgentRegistry)

/-- The agent of a name, where it is available and has the capabilities. -/
def satisfies (executionProfile : Option Str) (role : Option AgentRole) (name : Str) : Bool :=
  (dictGet? name registry.agents).any fun config =>
    CommandAgent.available env ⟨name, config⟩ &&
      CommandAgent.supports env ⟨name, config⟩ executionProfile role

/-- `available` -/
def available (executionProfile : Option Str) (role : Option AgentRole) : List Str :=
  (registry.agents.filter fun item =>
    CommandAgent.available env ⟨item.1, item.2⟩ &&
      CommandAgent.supports env ⟨item.1, item.2⟩ executionProfile role).map Prod.fst

/-- `first_available` -/
def firstAvailable (preferred : List Str) (executionProfile : Option Str)
    (role : Option AgentRole) : Except Exn Str :=
  match preferred.find? (registry.satisfies env executionProfile role) with
  | some name => .ok name
  | none =>
    match registry.available env executionProfile role, role with
    | name :: _, _ => .ok name
    | [], some role =>
      raise (lit "no configured agent satisfies the '" ++ role.value ++
        lit "' capability contract")
    | [], none =>
      if executionProfile = some (lit "review") then
        raise (lit "no configured agent has a declared read-only review capability")
      else raise (lit "no configured coding agent CLI is available")

/-- `choose_role` -/
def chooseRole (configured : Str) (fallbacks : List Str) (executionProfile : Option Str)
    (role : Option AgentRole) : Except Exn Str :=
  if registry.satisfies env executionProfile role configured then .ok configured
  else registry.firstAvailable env fallbacks executionProfile role

/-- An agent that one of the three functions returns for a role. -/
inductive Offered (role : AgentRole) (name : Str) : Prop
  | available (executionProfile : Option Str)
    (h : name ∈ registry.available env executionProfile (some role))
  | firstAvailable (preferred : List Str) (executionProfile : Option Str)
    (h : registry.firstAvailable env preferred executionProfile (some role) = .ok name)
  | chooseRole (configured : Str) (fallbacks : List Str) (executionProfile : Option Str)
    (h : registry.chooseRole env configured fallbacks executionProfile (some role) = .ok name)

/-- An agent that is enabled, has the role, and whose executable for it is found. -/
def Runs (role : AgentRole) (name : Str) : Prop :=
  ∃ config, dictGet? name registry.agents = some config ∧ config.enabled = true ∧
    role ∈ CommandAgent.declaredRoles env ⟨name, config⟩ ∧
    ∃ executable, CommandAgent.launchedExecutable env ⟨name, config⟩ role = some executable ∧
      (env.which executable).isSome

end AgentRegistry

/-! ## The command that is run -/

variable {env : Executables}

/-- An executable that is no option stays at the head. -/
theorem stripOptionWithValue_cons {option executable : Str} (hoption : lit "-" <+: option)
    (hplain : ¬ lit "-" <+: executable) (argv : List Str) :
    ∃ rest, stripOptionWithValue (executable :: argv) option = executable :: rest := by
  have hne : executable ≠ option := fun heq => hplain (heq ▸ hoption)
  have hprefix : ¬ option ++ lit "=" <+: executable := fun h =>
    hplain ((hoption.trans (List.prefix_append _ _)).trans h)
  exact ⟨_, by rw [stripOptionWithValue, stripTokens, if_neg hne, if_neg hprefix]⟩

/-- Nor is it among the options that are taken out. -/
theorem strip_filter_cons {option executable : Str} {options : List Str}
    (hoption : lit "-" <+: option) (hoptions : ∀ option ∈ options, lit "-" <+: option)
    (hplain : ¬ lit "-" <+: executable) (argv added : List Str) :
    ∃ rest, stripOptionWithValue ((executable :: argv).filter (· ∉ options)) option ++ added =
      executable :: rest := by
  have hne : executable ∉ options := fun hmem => hplain (hoptions _ hmem)
  have hkept : (executable :: argv).filter (· ∉ options) =
      executable :: argv.filter (· ∉ options) := List.filter_cons_of_pos (decide_eq_true hne)
  obtain ⟨rest, hrest⟩ := stripOptionWithValue_cons hoption hplain (argv.filter (· ∉ options))
  exact ⟨rest ++ added, by rw [hkept, hrest, List.cons_append]⟩

/-- The profile that a role is run with; a configuration chooses the one of the workers. -/
def AgentRole.HasProfile (role : AgentRole) (executionProfile : Str) : Prop :=
  if role.readsOnly then executionProfile = lit "review"
  else executionProfile = lit "yolo-worktree" ∨ executionProfile = lit "danger-yolo"

/-- Only the built-in names are trusted. -/
theorem mem_of_trusted {agent : CommandAgent}
    (h : agent.trustedBuiltinReviewIdentity env = true) : agent.name ∈ builtinReviewAgents := by
  unfold CommandAgent.trustedBuiltinReviewIdentity at h
  split at h
  · cases h
  · split_ifs at h with hname
    · exact hname
    · exact hname

/-- The executable of a role is at the head of the command that is run for it. -/
theorem commandForProfile_eq_cons {agent : CommandAgent} {role : AgentRole}
    {executionProfile executable : Str} (hprofile : role.HasProfile executionProfile)
    (h : agent.launchedExecutable env role = some executable)
    (hplain : ¬ lit "-" <+: executable) :
    ∃ arguments, agent.commandForProfile env executionProfile = .ok (executable :: arguments) := by
  have hcons : ∀ {argv : List Str}, argv.head? = some executable →
      ∃ rest, argv = executable :: rest := fun hhead => List.head?_eq_some_iff.mp hhead
  unfold CommandAgent.launchedExecutable at h
  unfold AgentRole.HasProfile at hprofile
  unfold CommandAgent.commandForProfile
  simp only
  -- a role that reads only is launched with the review profile
  by_cases hreads : role.readsOnly
  · rw [if_pos hreads] at hprofile
    rw [if_neg (not_not.mpr hreads)] at h
    rw [if_pos hprofile]
    -- its own review command, or the trusted built-in of one of three names
    by_cases hreview : agent.config.reviewCommand ≠ []
    · rw [if_pos hreview] at h ⊢
      obtain ⟨rest, hrest⟩ := hcons h
      exact ⟨rest, congrArg _ hrest⟩
    rw [if_neg hreview] at h ⊢
    split_ifs at h with htrusted
    obtain ⟨rest, hrest⟩ := hcons h
    have hname := mem_of_trusted htrusted
    rw [if_neg (not_not.mpr htrusted), hrest]
    -- their options are stripped and put back, which leaves the executable in front
    split_ifs with hcodex hclaude hopencode
    · refine (strip_filter_cons ?_ ?_ hplain rest _).imp fun _ heq => congrArg Except.ok heq
      all_goals decide
    · refine (strip_filter_cons ?_ ?_ hplain rest _).imp fun _ heq => congrArg Except.ok heq
      all_goals decide
    · exact ⟨rest, rfl⟩
    · -- the built-in agents are these three
      rcases List.mem_cons.mp hname with heq | hname
      · exact absurd heq hcodex
      rcases List.mem_cons.mp hname with heq | hname
      · exact absurd heq hclaude
      · exact absurd (List.mem_singleton.mp hname) hopencode
  -- a role that writes has one of the two profiles of a worktree
  · rw [if_neg hreads] at hprofile
    rw [if_pos hreads] at h
    obtain ⟨rest, hrest⟩ := hcons h
    have hnot : lit "yolo-worktree" ≠ lit "review" ∧ lit "danger-yolo" ≠ lit "review" ∧
        lit "danger-yolo" ≠ lit "yolo-worktree" := by decide
    rcases hprofile with rfl | rfl
    -- `yolo-worktree` takes the command as it is
    · rw [if_neg hnot.1, if_pos rfl, hrest]
      exact ⟨rest, rfl⟩
    -- `danger-yolo` strips an option of codex, and adds its own
    · rw [if_neg hnot.2.1, if_neg hnot.2.2, if_neg (not_not.mpr rfl), hrest]
      split_ifs
      · exact ⟨rest, rfl⟩
      · refine (strip_filter_cons ?_ ?_ hplain rest _).imp fun _ heq => congrArg Except.ok heq
        all_goals decide

/-! ## What is offered -/

theorem Executables.finds_iff {command : List Str} :
    env.finds command = true ↔
      ∃ executable, command.head? = some executable ∧ (env.which executable).isSome := by
  rw [Executables.finds, Option.any_eq_true]

/-- An agent that is available for a role can run, unless it is the command for reviews alone
that was found, and the role is not a review. -/
theorem CommandAgent.launched_iff {agent : CommandAgent} {role : AgentRole}
    (havailable : agent.available env = true) (hrole : agent.supportsRole env role = true) :
    (∃ executable, agent.launchedExecutable env role = some executable ∧
        (env.which executable).isSome) ↔
      role.readsOnly = true ∨ env.finds agent.config.command = true := by
  obtain ⟨-, hfound⟩ := Bool.and_eq_true_iff.mp havailable
  unfold CommandAgent.supportsRole at hrole
  split_ifs at hrole with hdeclared hreads
  · -- a review: the command for reviews was found, or there is none
    refine iff_of_true ?_ (.inl hreads)
    have hnot : ¬ lit "review" ∈ [lit "yolo-worktree", lit "danger-yolo"] := by decide
    rw [CommandAgent.supportsProfile, if_neg hnot, if_neg (not_not.mpr rfl)] at hrole
    unfold CommandAgent.launchedExecutable
    rw [if_neg (not_not.mpr hreads)]
    by_cases hreview : agent.config.reviewCommand ≠ []
    · rw [if_pos hreview] at hrole ⊢
      exact Executables.finds_iff.mp hrole
    · rw [if_neg hreview] at hrole ⊢
      rw [if_pos hrole]
      have hnone : env.finds agent.config.reviewCommand = false := by
        rw [not_not.mp hreview]
        rfl
      rw [hnone, Bool.or_false] at hfound
      exact Executables.finds_iff.mp hfound
  · unfold CommandAgent.launchedExecutable
    rw [if_pos hreads, ← Executables.finds_iff]
    exact ⟨.inr, fun h => h.resolve_left hreads⟩

namespace AgentRegistry

variable {registry : AgentRegistry} {role : AgentRole}

/-- The agent of a name is available and has the role. -/
def Capable (env : Executables) (registry : AgentRegistry) (role : AgentRole) (name : Str) : Prop :=
  ∃ config, dictGet? name registry.agents = some config ∧
    CommandAgent.available env ⟨name, config⟩ = true ∧
    CommandAgent.supportsRole env ⟨name, config⟩ role = true

variable {executionProfile : Option Str} {name : Str}

theorem capable_of_satisfies
    (h : registry.satisfies env executionProfile (some role) name = true) :
    registry.Capable env role name := by
  unfold satisfies at h
  cases hget : dictGet? name registry.agents with
  | none =>
    rw [hget] at h
    cases h
  | some config =>
    rw [hget, Option.any_some] at h
    obtain ⟨havailable, hsupports⟩ := Bool.and_eq_true_iff.mp h
    exact ⟨config, hget, havailable, (Bool.and_eq_true_iff.mp hsupports).1⟩

theorem capable_of_mem_available
    (h : name ∈ registry.available env executionProfile (some role)) :
    registry.Capable env role name := by
  obtain ⟨⟨name', config⟩, hitem, rfl⟩ := List.mem_map.mp h
  obtain ⟨hmem, hboth⟩ := List.mem_filter.mp hitem
  obtain ⟨havailable, hsupports⟩ := Bool.and_eq_true_iff.mp hboth
  exact ⟨config, (mem_iff_dictGet? registry.nodup).mp hmem, havailable,
    (Bool.and_eq_true_iff.mp hsupports).1⟩

theorem capable_of_firstAvailable {preferred : List Str}
    (h : registry.firstAvailable env preferred executionProfile (some role) = .ok name) :
    registry.Capable env role name := by
  unfold AgentRegistry.firstAvailable at h
  cases hfind : preferred.find? (registry.satisfies env executionProfile (some role)) with
  | some found =>
    rw [hfind] at h
    cases h
    exact capable_of_satisfies (List.find?_some hfind)
  | none =>
    rw [hfind] at h
    cases hlist : registry.available env executionProfile (some role) with
    | nil =>
      rw [hlist] at h
      cases h
    | cons first others =>
      rw [hlist] at h
      cases h
      refine @capable_of_mem_available _ _ _ executionProfile _ ?_
      rw [hlist]
      exact List.mem_cons_self

/-- What is offered is capable. -/
theorem Offered.capable (h : registry.Offered env role name) : registry.Capable env role name := by
  cases h with
  | available executionProfile h => exact capable_of_mem_available h
  | firstAvailable preferred executionProfile h => exact capable_of_firstAvailable h
  | chooseRole configured fallbacks executionProfile h =>
    rw [AgentRegistry.chooseRole] at h
    split_ifs at h with hconfigured
    · cases h
      exact capable_of_satisfies hconfigured
    · exact capable_of_firstAvailable h

/-- Every agent that is offered for a role can run, exactly when the role is a review or no
agent has a command that is missing beside a command for reviews that is found. -/
theorem offered_runs_iff (env : Executables) (registry : AgentRegistry) (role : AgentRole) :
    (∀ name, registry.Offered env role name → registry.Runs env role name) ↔
      role.readsOnly = true ∨ ∀ item ∈ registry.agents, item.2.enabled = true →
        role ∈ CommandAgent.declaredRoles env ⟨item.1, item.2⟩ → item.2.command ≠ [] →
        env.finds item.2.reviewCommand = true → env.finds item.2.command = true := by
  constructor
  · intro h
    -- an agent that finds only its review command is offered, so it has to run
    by_cases hreads : role.readsOnly = true
    · exact .inl hreads
    right
    rintro ⟨name, config⟩ hitem henabled hdeclared hcommand hreview
    have havailable : CommandAgent.available env ⟨name, config⟩ = true := by
      rw [CommandAgent.available, henabled, hreview, Bool.or_true, Bool.and_true]
    have hrole : CommandAgent.supportsRole env ⟨name, config⟩ role = true := by
      rw [CommandAgent.supportsRole, if_neg (not_not.mpr hdeclared), if_neg hreads]
      exact decide_eq_true hcommand
    have hoffered : registry.Offered env role name := by
      refine .available none (List.mem_map.mpr ⟨(name, config), ?_, rfl⟩)
      refine List.mem_filter.mpr ⟨hitem, Bool.and_eq_true_iff.mpr ⟨havailable, ?_⟩⟩
      exact Bool.and_eq_true_iff.mpr ⟨hrole, rfl⟩
    -- it has to be launched, which takes the command
    obtain ⟨config', hget, -, -, hlaunched⟩ := h name hoffered
    rw [(mem_iff_dictGet? registry.nodup).mp hitem] at hget
    cases hget
    exact ((CommandAgent.launched_iff havailable hrole).mp hlaunched).resolve_left hreads
  -- conversely an agent that is offered is found by its command, or by its review command
  · intro hcondition name hoffered
    obtain ⟨config, hget, havailable, hrole⟩ := hoffered.capable
    obtain ⟨henabled, hfound⟩ := Bool.and_eq_true_iff.mp havailable
    have hdeclared : role ∈ CommandAgent.declaredRoles env ⟨name, config⟩ := by
      by_contra hnot
      rw [CommandAgent.supportsRole, if_pos hnot] at hrole
      cases hrole
    refine ⟨config, hget, henabled, hdeclared, (CommandAgent.launched_iff havailable hrole).mpr ?_⟩
    rcases hcondition with hreads | hall
    · exact .inl hreads
    by_cases hreads : role.readsOnly = true
    · exact .inl hreads
    right
    rcases Bool.or_eq_true_iff.mp hfound with hcommand | hreview
    · exact hcommand
    · refine hall (name, config) ((mem_iff_dictGet? registry.nodup).mpr hget) henabled hdeclared
        ?_ hreview
      rw [CommandAgent.supportsRole, if_neg (not_not.mpr hdeclared), if_neg hreads] at hrole
      exact of_decide_eq_true hrole

end AgentRegistry

/-! ## A missing command -/

/-- Only `audit` is installed. -/
def auditOnly : Executables where
  which := fun executable => if executable = lit "audit" then some (lit "/usr/bin/audit") else none
  resolve := id

/-- An agent that reviews by `audit` and works by a command that is not installed. -/
def mixedRegistry : AgentRegistry where
  agents := [(lit "mixed", { command := [lit "absent"], reviewCommand := [lit "audit"] })]
  nodup := List.nodup_singleton _

/-- The agent is offered as a worker. -/
theorem mixed_not_runs :
    mixedRegistry.Offered auditOnly .worker (lit "mixed") ∧
      ¬ mixedRegistry.Runs auditOnly .worker (lit "mixed") := by
  constructor
  · exact .available none (by decide)
  · rintro ⟨config, hget, -, -, executable, hlaunched, hwhich⟩
    have hconfig : dictGet? (lit "mixed") mixedRegistry.agents =
        some { command := [lit "absent"], reviewCommand := [lit "audit"] } := by decide
    rw [hconfig] at hget
    cases hget
    cases hlaunched
    exact absurd hwhich (by decide)

end OmarchyYolo
