import OmarchyYolo.Lib.RefName
import OmarchyYolo.TaskBranch

/-!
# OmarchyYolo.BranchNames — the branches that Git accepts

The branch of a task is built from a prefix that the configuration accepts, the
job's identifier and the slug of the task's ID. Git looks at its name before the
worktree of the task is created.

* `branchPrefix` — `_branch_prefix`; `validateBranchName` — `_validate_branch_name`;
* `RefSafe`: what the identifier grammar and the check of the prefix leave open;
* `taskBranch_valid_iff`: an accepted ID has a branch that Git accepts exactly when
  the prefix and the ID are safe.
-/

namespace OmarchyYolo

open Py RefName

/-! ## The checks -/

/-- `_BRANCH_PREFIX_RE`: a letter or digit, and at most 63 identifier characters or slashes. -/
def matchesBranchPrefixRe : Str → Bool
  | c :: rest =>
    isAlnum c && rest.length ≤ 63 && rest.all fun d => isIdChar d || d == .scalar '/'
  | [] => false

/-- `_branch_prefix`, of the text of the configured value. -/
def branchPrefix (value : Str) : Except Exn Str := do
  let ref := strip value
  rejectIf (matchesBranchPrefixRe ref = false ∨ lit ".." <:+: ref ∨ lit "//" <:+: ref ∨
      (lit "/" <:+ ref ∨ lit "." <:+ ref ∨ lit ".lock" <:+ ref) ∨ lit "@\x7b" <:+: ref)
    (lit "git.branch_prefix is not a safe Git ref prefix")
  return ref

/-- `GitRepo._validate_branch_name`. -/
def validateBranchName (branch : Str) : Except Exn Unit :=
  rejectIf (¬ WellFormedBranch branch) (lit "invalid Git branch name: " ++ branch)

/-- What Git asks of a prefix and an ID beyond what is asked of each alone. -/
structure RefSafe (ref logicalId : Str) : Prop where
  prefix_not_hidden : ∀ component ∈ components ref, ¬ lit "." <+: component
  prefix_not_lock : ∀ component ∈ components ref, ¬ lit ".lock" <:+ component
  id_not_range : ¬ lit ".." <:+: (lower logicalId).rdropWhile isSeparator
  id_not_lock : ¬ lit ".lock" <:+ (lower logicalId).rdropWhile isSeparator

/-! ## The three parts of a branch -/

section Parts

variable {ref logicalId : Str}

/-- Nothing that an identifier or a prefix may hold is refused in a reference. -/
theorem isRefused_of_isIdChar {c : PyChar} (h : isIdChar c = true) :
    isRefused c = false ∧ c ≠ .scalar '@' := by
  have hascii : ∀ n < 128, isIdChar (.scalar (Char.ofNat n)) = true →
      isRefused (.scalar (Char.ofNat n)) = false ∧
        PyChar.scalar (Char.ofNat n) ≠ .scalar '@' := by
    decide
  obtain ⟨n, hn, rfl⟩ := isIdChar_ascii h
  exact hascii n hn h

/-- A pattern with a character that a text does not hold is not in it. -/
theorem not_infix_of_notMem {c : PyChar} {p s : Str} (hs : c ∉ s) (hp : c ∈ p) : ¬ p <:+: s :=
  fun h => hs (h.subset hp)

theorem branchPrefix_ok {value : Str} (h : branchPrefix value = .ok ref) :
    matchesBranchPrefixRe ref = true ∧ ¬ lit ".." <:+: ref ∧ ¬ lit "//" <:+: ref ∧
      ¬ lit "/" <:+ ref := by
  simp only [branchPrefix, bind_ok_iff, rejectIf_eq_ok, exists_const, pure, Except.pure,
    Except.ok.injEq, not_or, Bool.not_eq_false] at h
  obtain ⟨⟨hre, hrange, hdouble, ⟨hend, -⟩, -⟩, rfl⟩ := h
  exact ⟨hre, hrange, hdouble, hend⟩

/-- The characters of a prefix. -/
theorem isIdChar_of_matchesBranchPrefixRe (h : matchesBranchPrefixRe ref = true) :
    (∃ c rest, ref = c :: rest ∧ isAlnum c = true) ∧
      ∀ c ∈ ref, isIdChar c = true ∨ c = .scalar '/' := by
  cases ref with
  | nil => cases h
  | cons c rest =>
    simp only [matchesBranchPrefixRe, Bool.and_eq_true, decide_eq_true_eq, List.all_eq_true,
      Bool.or_eq_true, beq_iff_eq] at h
    obtain ⟨⟨hc, -⟩, hrest⟩ := h
    refine ⟨⟨c, rest, rfl, hc⟩, ?_⟩
    intro d hd
    rcases List.mem_cons.mp hd with rfl | hd
    · left
      simp only [isIdChar, hc, Bool.true_or]
    · exact hrest d hd

/-- No accepted prefix starts with one of the separators, or with a slash. -/
theorem not_prefix_of_isAlnum {c : PyChar} {p : Str} (hc : isAlnum c = true)
    (hp : ∀ d ∈ p.head?, isAlnum d = false) (hne : p ≠ []) (rest : Str) : ¬ p <+: c :: rest := by
  intro h
  cases p with
  | nil => exact hne rfl
  | cons d p =>
    have hd : d = c := (List.cons_prefix_cons.mp h).1
    have halnum := hp d rfl
    rw [hd, hc] at halnum
    cases halnum

/-- An accepted prefix is a well-formed path unless one of its components is hidden
or ends like a lock. -/
theorem wellFormedPath_branchPrefix {value : Str} (h : branchPrefix value = .ok ref) :
    ¬ lit "-" <+: ref ∧
      (WellFormedPath ref ↔ (∀ component ∈ components ref, ¬ lit "." <+: component) ∧
        ∀ component ∈ components ref, ¬ lit ".lock" <:+ component) := by
  obtain ⟨hre, hrange, hdouble, hend⟩ := branchPrefix_ok h
  obtain ⟨⟨c, rest, hcons, hc⟩, hchars⟩ := isIdChar_of_matchesBranchPrefixRe hre
  -- the first character is a letter or a digit
  have hstart : ∀ p : Str, (∀ d ∈ p.head?, isAlnum d = false) → p ≠ [] → ¬ p <+: ref := by
    intro p hp hne
    rw [hcons]
    exact not_prefix_of_isAlnum hc hp hne rest
  -- the prefix has no empty component: no slash at its ends, and no two in a row
  have hne : ∀ component ∈ components ref, component ≠ [] := by
    intro component hmem hnil
    rw [hnil] at hmem
    rcases nil_mem_components hmem with hnil | hslash | hslash | hslash
    · rw [hcons] at hnil
      cases hnil
    · exact hstart (lit "/") (by decide) (by decide) hslash
    · exact hend hslash
    · exact hdouble hslash
  -- the characters that Git refuses are not in the set of the pattern
  have hat : PyChar.scalar '@' ∉ ref := by
    intro hmem
    rcases hchars _ hmem with hid | hslash
    · exact (isRefused_of_isIdChar hid).2 rfl
    · cases hslash
  have hrefused : ∀ c ∈ ref, isRefused c = false := by
    intro c hmem
    rcases hchars c hmem with hid | hslash
    · exact (isRefused_of_isIdChar hid).1
    · rw [hslash]
      decide
  refine ⟨hstart (lit "-") (by decide) (by decide), ?_, ?_⟩
  -- what is left are dots and `.lock` at the components
  · intro hpath
    have hcomponents := hpath.components_wellFormed
    exact ⟨fun component hmem => (hcomponents component hmem).not_hidden,
      fun component hmem => (hcomponents component hmem).not_lock⟩
  · rintro ⟨hhidden, hlock⟩
    refine ⟨?_, hrange, not_infix_of_notMem hat (by decide), hrefused⟩
    intro component hmem
    exact ⟨hne component hmem, hhidden component hmem, hlock component hmem⟩

/-- A job's identifier is a well-formed component. -/
theorem wellFormedPath_jobId (digits : List (Fin 16)) :
    WellFormedPath (newId (lit "job") digits) := by
  have hdigit : ∀ digit : Fin 16,
      isIdChar (hexDigit digit) = true ∧ hexDigit digit ≠ .scalar '.' := by
    decide
  have hhead : ∀ c ∈ lit "job_", isIdChar c = true ∧ c ≠ .scalar '.' := by decide
  have hchars : ∀ c ∈ newId (lit "job") digits, isIdChar c = true ∧ c ≠ .scalar '.' := by
    intro c hc
    rcases List.mem_append.mp hc with hc | hc
    · exact hhead c hc
    · obtain ⟨digit, -, rfl⟩ := List.mem_map.mp hc
      exact hdigit digit
  have hdot : PyChar.scalar '.' ∉ newId (lit "job") digits := fun h => (hchars _ h).2 rfl
  have hat : PyChar.scalar '@' ∉ newId (lit "job") digits := by
    intro h
    exact (isRefused_of_isIdChar (hchars _ h).1).2 rfl
  refine ⟨?_, not_infix_of_notMem hdot (by decide), not_infix_of_notMem hat (by decide),
    fun c hc => (isRefused_of_isIdChar (hchars c hc).1).1⟩
  rw [components_of_notMem (slash_notMem_newId _ (by decide) digits)]
  intro component hmem
  rw [List.mem_singleton.mp hmem]
  exact ⟨List.cons_ne_nil _ _, fun h => not_infix_of_notMem hdot (by decide) h.isInfix,
    fun h => not_infix_of_notMem hdot (by decide) h.isInfix⟩

theorem isIdChar_of_isSlugChar {c : PyChar} (h : isSlugChar c = true) : isIdChar c = true := by
  cases c with
  | surrogate low bits => simp [isSlugChar] at h
  | scalar c =>
    simp only [isSlugChar, Bool.or_eq_true, Bool.and_eq_true, beq_iff_eq] at h
    simp only [isIdChar, isAlnum, Bool.or_eq_true, Bool.and_eq_true, beq_iff_eq,
      PyChar.scalar.injEq]
    tauto

/-- What is left of an accepted ID: it starts with a letter or digit and does not end
with a separator. -/
theorem stem_parts (h : matchesIdRe logicalId = true) :
    (∀ c ∈ stem logicalId, isIdChar c = true) ∧
      (∃ c rest, stem logicalId = c :: rest ∧ isSeparator c = false) ∧
      ∀ c, isSeparator c = true → ¬ [c] <:+ stem logicalId := by
  obtain ⟨-, hid, d, t, hlower, hsep⟩ := isIdChar_of_matchesIdRe h
  have hpre : stem logicalId <+: lower logicalId := List.rdropWhile_prefix isSeparator _
  have hslug := (lower_of_isIdChar hid).2
  refine ⟨fun c hc => isIdChar_of_isSlugChar (hslug c (hpre.subset hc)), ?_, ?_⟩
  · -- the letter at the front is not dropped
    cases hstem : stem logicalId with
    | nil =>
      have hall := List.rdropWhile_eq_nil_iff.mp hstem d (by rw [hlower]; exact List.mem_cons_self)
      rw [hsep] at hall
      cases hall
    | cons c rest =>
      rw [hstem, hlower] at hpre
      have hc : c = d := (List.cons_prefix_cons.mp hpre).1
      exact ⟨c, rest, rfl, hc ▸ hsep⟩
  · rintro c hc ⟨front, hfront⟩
    have hne : stem logicalId ≠ [] := by
      rw [← hfront]
      exact List.append_ne_nil_of_right_ne_nil front (List.cons_ne_nil c [])
    have hlast := List.rdropWhile_last_not isSeparator (lower logicalId) hne
    have hget : (stem logicalId).getLast hne = c := by
      simp only [← hfront, List.getLast_append_singleton]
    exact hlast (hget.symm ▸ hc)

/-- The slug of an accepted ID is a well-formed component unless it is a range or
ends like a lock. -/
theorem wellFormedPath_stem (h : matchesIdRe logicalId = true) :
    WellFormedPath (stem logicalId) ↔
      ¬ lit ".." <:+: stem logicalId ∧ ¬ lit ".lock" <:+ stem logicalId := by
  obtain ⟨hchars, ⟨c, rest, hcons, hsep⟩, -⟩ := stem_parts h
  have hcomponents := components_of_notMem (slash_notMem_stem h)
  constructor
  · intro hpath
    refine ⟨hpath.not_range, ?_⟩
    apply (hpath.components_wellFormed (stem logicalId) _).not_lock
    rw [hcomponents]
    exact List.mem_cons_self
  · rintro ⟨hrange, hlock⟩
    have hat : PyChar.scalar '@' ∉ stem logicalId := by
      intro hmem
      exact (isRefused_of_isIdChar (hchars _ hmem)).2 rfl
    refine ⟨?_, hrange, not_infix_of_notMem hat (by decide),
      fun c hc => (isRefused_of_isIdChar (hchars c hc)).1⟩
    rw [hcomponents]
    intro component hmem
    rw [List.mem_singleton.mp hmem]
    refine ⟨?_, ?_, hlock⟩
    · rw [hcons]
      exact List.cons_ne_nil c rest
    · rw [hcons]
      intro hdot
      have hc : PyChar.scalar '.' = c := (List.cons_prefix_cons.mp hdot).1
      rw [← hc] at hsep
      revert hsep
      decide

end Parts

/-! ## The branch -/

/-- Git accepts the branch of an accepted ID, below an accepted prefix and a job's
identifier, exactly when no component of the prefix starts with a dot or ends like a
lock, and what the slug keeps of the ID has no range in it and no such end. -/
theorem taskBranch_valid_iff {value ref logicalId : Str} (hvalue : branchPrefix value = .ok ref)
    (hid : matchesIdRe logicalId = true) (jobDigits : List (Fin 16)) :
    validateBranchName (taskBranch ref (newId (lit "job") jobDigits) logicalId) = .ok () ↔
      RefSafe ref logicalId := by
  obtain ⟨hoption, href⟩ := wellFormedPath_branchPrefix hvalue
  obtain ⟨-, -, hlast⟩ := stem_parts hid
  have hdot : ¬ lit "." <:+ stem logicalId := hlast (.scalar '.') (by decide)
  have hjob := wellFormedPath_jobId jobDigits
  -- the directory of the branch starts as the prefix does
  have hdir : ¬ lit "-" <+: ref ++ lit "/" ++ newId (lit "job") jobDigits := by
    obtain ⟨c, rest, hcons, hc⟩ :=
      (isIdChar_of_matchesBranchPrefixRe (branchPrefix_ok hvalue).1).1
    rw [hcons]
    exact not_prefix_of_isAlnum hc (by decide) (by decide) _
  rw [validateBranchName, rejectIf_eq_ok, not_not, taskBranch, slug_eq_stem hid,
    wellFormedBranch_join, WellFormedPath.join_iff, href, wellFormedPath_stem hid]
  constructor
  · rintro ⟨⟨⟨⟨hhidden, hlock⟩, -⟩, -⟩, ⟨hrange, hidLock⟩, -⟩
    exact ⟨hhidden, hlock, hrange, hidLock⟩
  · intro h
    exact ⟨⟨⟨⟨h.prefix_not_hidden, h.prefix_not_lock⟩, hjob⟩, hdir⟩,
      ⟨h.id_not_range, h.id_not_lock⟩, hdot⟩

theorem taskBranch_valid_parserTask :
    validateBranchName
        (taskBranch (lit "yolo") (newId (lit "job") (List.replicate 12 0)) (lit "parser.v2.")) =
          .ok () ↔
      RefSafe (lit "yolo") (lit "parser.v2.") :=
  taskBranch_valid_iff (by decide +kernel : branchPrefix (lit "yolo") = .ok (lit "yolo"))
    (by decide) (List.replicate 12 0)

/-- A plan of one task, whose ID ends like a lock of Git's. -/
def lockTasks : List PlannedTask :=
  [{ logicalId := lit "Cargo.lock", title := lit "Pin the versions"
     description := lit "Write the lock file." }]

/-- The planner accepts that plan, and Git refuses the branch of its task. -/
theorem taskBranch_refused_lockTasks :
    validate 8 lockTasks = .ok () ∧ branchPrefix (lit "yolo") = .ok (lit "yolo") ∧
      ∃ task ∈ lockTasks, matchesIdRe task.logicalId = true ∧
        ¬ WellFormedBranch
          (taskBranch (lit "yolo") (newId (lit "job") (List.replicate 12 0)) task.logicalId) := by
  refine ⟨by decide +kernel, by decide +kernel, _, List.mem_cons_self, by decide +kernel, ?_⟩
  decide +kernel

end OmarchyYolo
