import OmarchyYolo.Planner

/-!
# OmarchyYolo.TaskBranch — the branches of a job

A job owns an integration branch, named when it is submitted, and one branch
for each task, named when the task's worktree is created.

* `taskBranch`, `integrationBranch` — the names;
* `slug_eq_stem`: of an accepted ID, the slug is its lower-cased text without
  the separators at its end;
* `branches_separate_iff`: the branches of an accepted plan can all exist side by
  side exactly when no two of its IDs have the same stem.
-/

namespace OmarchyYolo

open Py

/-- The branch that `_run_task_with_slot` builds for a task. -/
def taskBranch (branchPrefix jobId logicalId : Str) : Str :=
  branchPrefix ++ lit "/" ++ jobId ++ lit "/" ++ slug logicalId

/-- The branch that `_submit` names for the job. -/
def integrationBranch (branchPrefix branchTag : Str) : Str :=
  branchPrefix ++ lit "/" ++ branchTag ++ lit "/integration"

/-- Two branches that Git can hold at once: the names differ, and neither is a
directory of the other's reference. -/
def Separate (b b' : Str) : Prop :=
  b ≠ b' ∧ ¬ b ++ lit "/" <+: b' ∧ ¬ b' ++ lit "/" <+: b

/-- The branches of the tasks of a job, beside its integration branch. -/
structure BranchesSeparate (branchPrefix jobId integration : Str) (tasks : List PlannedTask) :
    Prop where
  tasks_separate :
    (tasks.map fun task => taskBranch branchPrefix jobId task.logicalId).Pairwise Separate
  ne_integration : ∀ task ∈ tasks, taskBranch branchPrefix jobId task.logicalId ≠ integration

/-- An ID, lower-cased and without the separators at its end. -/
def stem (logicalId : Str) : Str := (lower logicalId).rdropWhile isSeparator

/-! ## Slugs of accepted IDs -/

section Slug

theorem isIdChar_ascii {c : PyChar} (h : isIdChar c = true) :
    ∃ n < 128, c = .scalar (Char.ofNat n) := by
  cases c with
  | surrogate low bits => simp [isIdChar, isAlnum] at h
  | scalar c =>
    refine ⟨c.toNat, ?_, by rw [Char.ofNat_toNat]⟩
    simp only [isIdChar, isAlnum, Bool.or_eq_true, Bool.and_eq_true, decide_eq_true_eq,
      beq_iff_eq, PyChar.scalar.injEq] at h
    rcases h with ((((h | h) | h) | h) | h) | h
    -- a capital, a small letter or a digit
    · exact lt_of_le_of_lt h.2 (by decide)
    · exact lt_of_le_of_lt h.2 (by decide)
    · exact lt_of_le_of_lt h.2 (by decide)
    -- one of the three separators
    all_goals
      rw [h]
      decide

/-- The ASCII characters, one by one. -/
theorem ascii_idChar : ∀ n < 128, isIdChar (.scalar (Char.ofNat n)) = true →
    isSpace (.scalar (Char.ofNat n)) = false ∧
      isSlugChar (.scalar (Char.ofNat n).toLower) = true ∧
      lowerChar (.scalar (Char.ofNat n)) = [.scalar (Char.ofNat n).toLower] := by
  decide

theorem not_isSpace_of_isIdChar {c : PyChar} (h : isIdChar c = true) : isSpace c = false := by
  obtain ⟨n, hn, rfl⟩ := isIdChar_ascii h
  exact (ascii_idChar n hn h).1

theorem lowerChar_of_isIdChar {c : PyChar} (h : isIdChar c = true) :
    ∃ d, lowerChar c = [d] ∧ isSlugChar d = true := by
  obtain ⟨n, hn, rfl⟩ := isIdChar_ascii h
  have hfacts := ascii_idChar n hn h
  exact ⟨_, hfacts.2.2, hfacts.2.1⟩

/-- A letter stays one. -/
theorem lowerChar_of_letter {c : Char}
    (h : (('A' ≤ c && c ≤ 'Z') || ('a' ≤ c && c ≤ 'z')) = true) :
    ∃ d, lowerChar (.scalar c) = [d] ∧ isSeparator d = false := by
  have hascii : ∀ n < 128, ((('A' ≤ Char.ofNat n && Char.ofNat n ≤ 'Z') ||
      ('a' ≤ Char.ofNat n && Char.ofNat n ≤ 'z')) = true) →
      lowerChar (.scalar (Char.ofNat n)) = [.scalar (Char.ofNat n).toLower] ∧
        isSeparator (.scalar (Char.ofNat n).toLower) = false := by
    decide
  have hid : isIdChar (.scalar c) = true := by
    simp only [Bool.or_eq_true, Bool.and_eq_true] at h
    simp only [isIdChar, isAlnum, Bool.or_eq_true, Bool.and_eq_true]
    tauto
  obtain ⟨n, hn, hc⟩ := isIdChar_ascii hid
  cases hc
  exact ⟨_, hascii n hn h⟩

theorem strip_eq_self {s : Str} (h : ∀ c ∈ s, isSpace c = false) : strip s = s := by
  have hdrop : ∀ t : Str, (∀ c ∈ t, isSpace c = false) → t.dropWhile isSpace = t := by
    intro t ht
    cases t with
    | nil => rfl
    | cons c t => rw [List.dropWhile_cons_of_neg (by simp [ht c List.mem_cons_self])]
  rw [strip, lstrip, hdrop s h, hdrop s.reverse (by simpa using h), List.reverse_reverse]

theorem dashRuns_eq_self {s : Str} (h : ∀ c ∈ s, isSlugChar c = true) : dashRuns false s = s := by
  induction s with
  | nil => rfl
  | cons c s ih =>
    rw [dashRuns, if_pos (h c List.mem_cons_self), ih (fun d hd => h d (List.mem_cons_of_mem c hd))]

/-- Lower-casing identifier characters gives as many slug characters. -/
theorem lower_of_isIdChar {s : Str} (h : ∀ c ∈ s, isIdChar c = true) :
    (lower s).length = s.length ∧ ∀ c ∈ lower s, isSlugChar c = true := by
  induction s with
  | nil => exact ⟨rfl, fun c hc => absurd hc List.not_mem_nil⟩
  | cons c s ih =>
    obtain ⟨d, hd, hslug⟩ := lowerChar_of_isIdChar (h c List.mem_cons_self)
    obtain ⟨hlen, hall⟩ := ih (fun e he => h e (List.mem_cons_of_mem c he))
    have hlower : lower (c :: s) = d :: lower s := by
      rw [lower, List.flatMap_cons, hd]
      rfl
    rw [hlower]
    refine ⟨by rw [List.length_cons, hlen, List.length_cons], ?_⟩
    intro e he
    rcases List.mem_cons.mp he with rfl | he
    · exact hslug
    · exact hall e he

/-- What `_ID_RE` says of the characters of an ID. -/
theorem isIdChar_of_matchesIdRe {s : Str} (h : matchesIdRe s = true) :
    s.length ≤ 48 ∧ (∀ c ∈ s, isIdChar c = true) ∧
      ∃ d t, lower s = d :: t ∧ isSeparator d = false := by
  unfold matchesIdRe at h
  split at h
  · rename_i c rest
    simp only [Bool.and_eq_true, decide_eq_true_eq, List.all_eq_true] at h
    obtain ⟨⟨hletter, hlen⟩, hrest⟩ := h
    obtain ⟨d, hd, hsep⟩ := lowerChar_of_letter hletter
    refine ⟨by rw [List.length_cons]; omega, ?_, d, lower rest, ?_, hsep⟩
    · intro e he
      rcases List.mem_cons.mp he with rfl | he
      · simp only [Bool.or_eq_true, Bool.and_eq_true] at hletter
        simp only [isIdChar, isAlnum, Bool.or_eq_true, Bool.and_eq_true]
        tauto
      · exact hrest e he
    · rw [lower, List.flatMap_cons, hd]
      rfl
  · cases h

/-- Of an accepted ID, `slug` only lower-cases the letters and drops the separators
at the end: nothing in it is replaced, and it is short enough. -/
theorem slug_eq_stem {s : Str} (h : matchesIdRe s = true) : slug s = stem s := by
  obtain ⟨hlen, hid, d, t, hlower, hsep⟩ := isIdChar_of_matchesIdRe h
  obtain ⟨hsame, hslug⟩ := lower_of_isIdChar hid
  have hhead : (lower s).dropWhile isSeparator = lower s := by
    rw [hlower, List.dropWhile_cons_of_neg (by simp [hsep])]
  -- the letter at the front survives
  have hne : stem s ≠ [] := by
    intro hnil
    have hall := List.rdropWhile_eq_nil_iff.mp hnil
    have hd := hall d (by rw [hlower]; exact List.mem_cons_self)
    rw [hsep] at hd
    cases hd
  have hshort : (stem s).take 48 = stem s := by
    apply List.take_of_length_le
    have hle : (stem s).length ≤ (lower s).length :=
      (List.rdropWhile_prefix isSeparator (lower s)).length_le
    omega
  have hagain : (stem s).rdropWhile isSeparator = stem s :=
    List.rdropWhile_idempotent isSeparator (lower s)
  have hstrip := strip_eq_self (fun c hc => not_isSpace_of_isIdChar (hid c hc))
  rw [slug, hstrip, dashRuns_eq_self hslug, hhead]
  have htask : orTask (stem s) = stem s := if_neg hne
  change orTask (((orTask (stem s)).take 48).rdropWhile isSeparator) = stem s
  rw [htask, hshort, hagain, htask]

/-- No slug of an accepted ID has a slash in it. -/
theorem slash_notMem_stem {s : Str} (h : matchesIdRe s = true) :
    PyChar.scalar '/' ∉ stem s := by
  intro hmem
  obtain ⟨-, hid, -⟩ := isIdChar_of_matchesIdRe h
  have hlower := (List.rdropWhile_prefix isSeparator (lower s)).subset hmem
  have hslug := (lower_of_isIdChar hid).2 _ hlower
  revert hslug
  decide

end Slug

/-! ## Branches of an accepted plan -/

/-- Two names behind the same directory. -/
theorem separate_iff {a s t : Str} (hs : PyChar.scalar '/' ∉ s) (ht : PyChar.scalar '/' ∉ t) :
    Separate (a ++ lit "/" ++ s) (a ++ lit "/" ++ t) ↔ s ≠ t := by
  -- a longer reference would need a slash behind the directory
  have hdir : ∀ {s t : Str}, PyChar.scalar '/' ∉ t →
      ¬ a ++ lit "/" ++ s ++ lit "/" <+: a ++ lit "/" ++ t := by
    intro s t ht hpre
    rw [List.append_assoc, List.prefix_append_right_inj] at hpre
    exact ht (hpre.subset (List.mem_append_right s List.mem_cons_self))
  constructor
  · rintro ⟨hne, -, -⟩ heq
    exact hne (by rw [heq])
  · intro hne
    exact ⟨fun heq => hne (List.append_cancel_left heq), hdir ht, hdir hs⟩

/-- The last component of a path is what follows its last slash. -/
theorem append_slash_inj {a a' s t : Str} (hs : PyChar.scalar '/' ∉ s)
    (ht : PyChar.scalar '/' ∉ t) (h : a ++ lit "/" ++ s = a' ++ lit "/" ++ t) : a = a' ∧ s = t := by
  -- a longer directory would put a slash into the other name
  have hnil : ∀ {s t c : Str}, PyChar.scalar '/' ∉ s → lit "/" ++ s = c ++ (lit "/" ++ t) →
      c = [] := by
    intro s t c hs heq
    cases c with
    | nil => rfl
    | cons d c =>
      injection heq with _ heq
      have hs' : s = c ++ (lit "/" ++ t) := heq
      have hmem : PyChar.scalar '/' ∈ s := by
        rw [hs']
        exact List.mem_append_right c List.mem_cons_self
      exact absurd hmem hs
  rw [List.append_assoc, List.append_assoc] at h
  rcases List.append_eq_append_iff.mp h with ⟨c, ha, heq⟩ | ⟨c, ha, heq⟩
  · obtain rfl := hnil hs heq
    exact ⟨by rw [ha, List.append_nil], List.append_cancel_left heq⟩
  · obtain rfl := hnil ht heq
    exact ⟨by rw [ha, List.append_nil], (List.append_cancel_left heq).symm⟩

theorem slash_notMem_newId (kind : Str) (hkind : PyChar.scalar '/' ∉ kind)
    (digits : List (Fin 16)) : PyChar.scalar '/' ∉ newId kind digits := by
  have hdigit : ∀ digit : Fin 16, hexDigit digit ≠ .scalar '/' := by decide
  simp only [newId, List.mem_append, List.mem_map, not_or, not_exists, not_and]
  exact ⟨⟨hkind, by decide⟩, fun digit _ => hdigit digit⟩

/-- The last components of an integration branch. -/
theorem integrationBranch_ne_taskBranch {branchPrefix branchPrefix' logicalId : Str}
    (h : matchesIdRe logicalId = true) (jobDigits runDigits : List (Fin 16)) :
    taskBranch branchPrefix (newId (lit "job") jobDigits) logicalId ≠
      integrationBranch branchPrefix' (newId (lit "run") runDigits) := by
  intro heq
  rw [taskBranch, slug_eq_stem h, integrationBranch] at heq
  have hbranch : lit "/integration" = lit "/" ++ lit "integration" := by decide
  rw [hbranch, ← List.append_assoc] at heq
  obtain ⟨hdir, -⟩ := append_slash_inj (slash_notMem_stem h) (by decide) heq
  -- the directories of the two end in a job's and in a run's identifier
  obtain ⟨-, hid⟩ := append_slash_inj (slash_notMem_newId _ (by decide) jobDigits)
    (slash_notMem_newId _ (by decide) runDigits) hdir
  injection hid with hhead
  revert hhead
  decide

/-- The branches of an accepted plan are separate exactly when lower-casing its
IDs and dropping the separators at their ends keeps them apart. -/
theorem branches_separate_iff {maxTasks : Nat} {tasks : List PlannedTask}
    (h : validate maxTasks tasks = .ok ()) (branchPrefix submitPrefix : Str)
    (jobDigits runDigits : List (Fin 16)) :
    BranchesSeparate branchPrefix (newId (lit "job") jobDigits)
        (integrationBranch submitPrefix (newId (lit "run") runDigits)) tasks ↔
      (tasks.map fun task => (lower task.logicalId).rdropWhile isSeparator).Nodup := by
  have hid := (validate_ok h).ids_match
  have hpairs : (tasks.map fun task =>
      taskBranch branchPrefix (newId (lit "job") jobDigits) task.logicalId).Pairwise Separate ↔
        (tasks.map fun task => stem task.logicalId).Nodup := by
    rw [List.pairwise_map, List.Nodup, List.pairwise_map]
    apply List.Pairwise.iff_of_mem
    intro a b ha hb
    rw [taskBranch, taskBranch, slug_eq_stem (hid a ha), slug_eq_stem (hid b hb)]
    exact separate_iff (slash_notMem_stem (hid a ha)) (slash_notMem_stem (hid b hb))
  constructor
  · intro hsep
    exact hpairs.mp hsep.tasks_separate
  · intro hnodup
    exact ⟨hpairs.mpr hnodup, fun task htask =>
      integrationBranch_ne_taskBranch (hid task htask) jobDigits runDigits⟩

/-- A plan whose IDs differ in their letters. -/
def smallTasks : List PlannedTask :=
  [{ logicalId := lit "parser", title := lit "Add the parser", description := lit "Parse it." },
    { logicalId := lit "printer", title := lit "Add the printer", description := lit "Print it."
      dependsOn := [lit "parser"] }]

theorem branches_separate_smallTasks :
    validate 8 smallTasks = .ok () ∧
      (BranchesSeparate (lit "yolo") (newId (lit "job") (List.replicate 12 0))
          (integrationBranch (lit "yolo") (newId (lit "run") (List.replicate 12 0))) smallTasks ↔
        (smallTasks.map fun task => (lower task.logicalId).rdropWhile isSeparator).Nodup) :=
  ⟨by decide +kernel, branches_separate_iff (by decide +kernel : validate 8 smallTasks = .ok ())
    (lit "yolo") (lit "yolo") (List.replicate 12 0) (List.replicate 12 0)⟩

/-- A plan of two tasks whose IDs differ in the case of a letter. -/
def twinTasks : List PlannedTask :=
  [{ logicalId := lit "T1", title := lit "Add the parser", description := lit "Parse it." },
    { logicalId := lit "t1", title := lit "Add the printer", description := lit "Print it." }]

/-- The planner accepts that plan, and its tasks are given one branch. -/
theorem branches_shared_twinTasks :
    validate 8 twinTasks = .ok () ∧
      ¬ BranchesSeparate (lit "yolo") (newId (lit "job") (List.replicate 12 0))
          (integrationBranch (lit "yolo") (newId (lit "run") (List.replicate 12 0))) twinTasks := by
  refine ⟨by decide +kernel, ?_⟩
  intro hsep
  have hpair := hsep.tasks_separate
  rw [twinTasks, List.map_cons, List.map_cons, List.map_nil, List.pairwise_cons] at hpair
  have hne := (hpair.1 _ List.mem_cons_self).1
  revert hne
  decide +kernel

end OmarchyYolo
