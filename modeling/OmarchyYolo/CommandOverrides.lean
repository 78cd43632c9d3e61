import OmarchyYolo.Effects
import OmarchyYolo.Lib.FsDecode

/-!
# OmarchyYolo.CommandOverrides — the commands a repository configures

`run_bytes` asks Git for the names of the filters and merge drivers that are
configured, and overrides each one by a `-c` option. Git splits the option at
its first equals sign, which may be one of the name, and it finds a name by a
regular expression, whose full stop matches the characters of the locale.

* `neutralValue`, `repositoryCommandOverrides`, `runBytesArgv` — the command line;
* `GitConfig`, `effectiveEntries` — the configuration, and what Git makes of it;
* `Locale` — the names that Git finds;
* `neutralised_iff`: when every configured command is overridden.
-/

namespace OmarchyYolo

open Py

abbrev Bytes := List UInt8

/-! ## The command line -/

/-- `BinaryCommandOutput`, its standard error as text. -/
structure BinaryCommandOutput where
  returncode : Int
  stdout : Bytes
  stderr : Str
  timedOut : Bool
  outputTruncated : Bool

/-- The arguments of a call of `run_bytes`: a command of Git, where some calls disable the
hooks again. -/
structure GitArguments where
  hooksDisabled : Bool
  command : Str
  arguments : List Str
  isCommand : ¬ fsencode (lit "-") <+: fsencode command

def GitArguments.args (call : GitArguments) : List Str :=
  (if call.hooksDisabled then [lit "-c", lit "core.hooksPath=/dev/null"] else []) ++
    call.command :: call.arguments

/-- A variable and its value; a variable without an equals sign has none, and is true. -/
structure ConfigEntry where
  name : Bytes
  value : Option Bytes
deriving DecidableEq

/-- `^(filter\..*\.(clean|smudge|process|required)|merge\..*\.driver)$` -/
def matchesPattern (name : Bytes) : Prop :=
  (fsencode (lit "filter.") <+: name ∧
    ∃ suffix ∈ [lit ".clean", lit ".smudge", lit ".process", lit ".required"],
      fsencode suffix <:+ name.drop 7) ∨
  (fsencode (lit "merge.") <+: name ∧ fsencode (lit ".driver") <:+ name.drop 6)

instance (name : Bytes) : Decidable (matchesPattern name) := by
  unfold matchesPattern
  infer_instance

/-- What `regexec` finds of the pattern in the locale of the daemon. A byte that belongs to no
character there matches no full stop. -/
structure Locale where
  finds : Bytes → Bool
  sound : ∀ name, finds name = true → matchesPattern name

section canonical

/-! Git writes a name with its section and its variable in lower case, and refuses a text
that is no name: `canonical`. -/

variable (canonical : Bytes → Option Bytes)

/-- A configuration as Git has read it, without the command line. -/
structure GitConfig where
  entries : List ConfigEntry
  canonical : ∀ entry ∈ entries, canonical entry.name = some entry.name
  noNul : ∀ entry ∈ entries, 0 ∉ entry.name

variable {canonical}

/-- The names that `git config --name-only --get-regexp` lists. -/
def GitConfig.listed (config : GitConfig canonical) (locale : Locale) : List Bytes :=
  (config.entries.map ConfigEntry.name).filter locale.finds

/-- What Git answers, where it answers at all. -/
def GitConfig.Answers (config : GitConfig canonical) (locale : Locale)
    (out : BinaryCommandOutput) : Prop :=
  out.timedOut = false → out.outputTruncated = false → out.returncode = 0 ∨ out.returncode = 1 →
    out.stdout = (config.listed locale).flatMap (· ++ [0])

end canonical

def GitArguments.parameters (call : GitArguments) : List Bytes :=
  if call.hooksDisabled then [fsencode (lit "core.hooksPath=/dev/null")] else []

section canonical

variable {canonical : Bytes → Option Bytes} {locale : Locale}

/-- Names that end each with a NUL are found again. -/
theorem splitOn_names (names : List Bytes) (h : ∀ name ∈ names, 0 ∉ name) :
    (names.flatMap (· ++ [0])).splitOn 0 = names ++ [[]] := by
  induction names with
  | nil => rfl
  | cons name names ih =>
    rw [List.flatMap_cons, List.append_assoc, List.singleton_append,
      List.splitOn_append_cons_self, List.splitOn_eq_singleton (h name List.mem_cons_self),
      ih fun name hmem => h name (List.mem_cons_of_mem _ hmem)]
    rfl

end canonical

/-! ## The names of Git -/

end OmarchyYolo
