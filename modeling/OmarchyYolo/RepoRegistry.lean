import OmarchyYolo.Runtime

/-!
# OmarchyYolo.RepoRegistry — what `repo_lock` leaves behind

`_repo_locks` and `_repo_waiters` are to have no entry of a repository that no
coroutine uses. The count of the waiters is always dropped. The lock stays when
a waiter has given up while another coroutine held it: the waiter drops the
count, and the holder, finding no count, does not look at the lock.

* `Runtime.NoLeak` — nothing is registered for a repository that is not in use;
* `Runtime.Tidy` — whoever leaves still finds the count of its repository;
* `Runtime.NoLeak.step` — then a step leaves nothing behind, and only then;
* `registries_no_leak_iff` — every run whose steps are tidy.
-/

namespace OmarchyYolo

open Py EventLoop Lts

/-! ## What a coroutine forgets at the end -/

namespace ResourceCoordinator

variable {self : ResourceCoordinator} {key other : Str} {locked : Bool}

variable (self locked) in
theorem lookup_repoForgotten_ne (hne : other ≠ key) :
    (self.repoForgotten key locked).repoLocks.lookup other = self.repoLocks.lookup other ∧
      (self.repoForgotten key locked).repoWaiters.lookup other =
        self.repoWaiters.lookup other := by
  unfold repoForgotten
  split_ifs
  · exact ⟨rfl, AList.lookup_erase_ne hne⟩
  · exact ⟨AList.lookup_erase_ne hne, AList.lookup_erase_ne hne⟩
  · exact ⟨rfl, rfl⟩

/-- Nobody waits and the lock is free: both entries go. -/
theorem lookup_repoForgotten (hzero : self.repoWaiters.lookup key = some 0)
    (hfree : locked = false) :
    (self.repoForgotten key locked).repoLocks.lookup key = none ∧
      (self.repoForgotten key locked).repoWaiters.lookup key = none := by
  unfold repoForgotten
  rw [if_pos hzero, hfree]
  exact ⟨AList.lookup_erase key _, AList.lookup_erase key _⟩

variable (locked) in
theorem repoForgotten_of_none (hnone : self.repoWaiters.lookup key = none) :
    self.repoForgotten key locked = self := by
  have hcounted : ¬self.repoWaiters.lookup key = some 0 := by
    rw [hnone]
    exact Option.some_ne_none 0 |>.symm
  unfold repoForgotten
  rw [if_neg hcounted]

end ResourceCoordinator

/-! ## Repositories in use -/

section Registry

variable {ι : Type} [DecidableEq ι] {w w' : Runtime ι} {e : RuntimeEvent ι} {use : RepoUse ι}
  {c : ι} {key : Str}

/-- No coroutine holds the lock of a repository or waits for it. -/
def Runtime.Unused (w : Runtime ι) (key : Str) : Prop :=
  ∀ use ∈ w.repoWaiting ∪ w.repoInside, use.key ≠ key

/-- The registries have entries of repositories in use only. -/
structure Runtime.NoLeak (w : Runtime ι) : Prop where
  repoLocks : ∀ key, w.Unused key → w.self.repoLocks.lookup key = none
  repoWaiters : ∀ key, w.Unused key → w.self.repoWaiters.lookup key = none

/-- Whoever leaves a repository still finds the count of its waiters: no waiter has given up
during its stay, or somebody has come since. -/
def Runtime.Tidy (w : Runtime ι) : RuntimeEvent ι → Prop
  | .repoLeave use => w.self.repoWaiters.lookup use.key ≠ none
  | _ => True

/-- Who waits for an unused repository: nobody. -/
theorem Runtime.Unused.waitingFor (h : w.Unused key) : w.waitingFor key = ∅ := by
  rw [Finset.eq_empty_iff_forall_notMem]
  intro use huse
  obtain ⟨hwaiting, hkey⟩ := Finset.mem_filter.mp huse
  exact h use (Finset.mem_union_left _ hwaiting) hkey

theorem Runtime.create_noLeak {maxWorkers : Int} (h : Runtime.create ι maxWorkers = some w) :
    w.NoLeak := by
  unfold Runtime.create at h
  split_ifs at h
  cases h
  exact ⟨fun key _ => rfl, fun key _ => rfl⟩

/-! ## One step -/

theorem Runtime.NoLeak.enter (h : w.NoLeak) (hrun : w.run (.repoEnter c key) = .ok w') :
    w'.NoLeak := by
  cases hrun
  -- what is unused afterwards has been unused before, and it is not what the coroutine enters
  have hbefore (other : Str) (hunused : Runtime.Unused
      { w with repoWaiting := insert ⟨c, key, w.self.repoLock key w.locks.next⟩ w.repoWaiting }
        other) : other ≠ key ∧ w.Unused other := by
    constructor
    · intro hsame
      have hnew := Finset.mem_insert_self
        (⟨c, key, w.self.repoLock key w.locks.next⟩ : RepoUse ι) w.repoWaiting
      exact hunused _ (Finset.mem_union_left _ hnew) hsame.symm
    · intro use huse
      apply hunused
      exact Finset.union_subset_union_left (Finset.subset_insert _ _) huse
  constructor
  · intro other hunused
    obtain ⟨hne, hunused⟩ := hbefore other hunused
    show (setdefault w.self.repoLocks key w.locks.next).lookup other = none
    rw [lookup_setdefault_ne hne]
    exact h.repoLocks other hunused
  · intro other hunused
    obtain ⟨hne, hunused⟩ := hbefore other hunused
    show (w.self.repoWaiters.insert key _).lookup other = none
    rw [AList.lookup_insert_ne hne]
    exact h.repoWaiters other hunused

theorem Runtime.NoLeak.acquired (h : w.NoLeak) (hinv : w.RepoInv)
    (hready : w.Enabled (.repoAcquired use)) (hrun : w.run (.repoAcquired use) = .ok w') :
    w'.NoLeak := by
  obtain ⟨n, -, hacquired⟩ := hinv.run_repoAcquired hready.1
  cases hacquired.symm.trans hrun
  have hbefore (other : Str) (hunused : Runtime.Unused
      { w with
          repoWaiting := w.repoWaiting.erase use
          repoInside  := insert use w.repoInside } other) :
      other ≠ use.key ∧ w.Unused other := by
    have hne : use.key ≠ other :=
      hunused use (Finset.mem_union_right _ (Finset.mem_insert_self use _))
    refine ⟨hne.symm, ?_⟩
    intro user huser
    by_cases hsame : user = use
    · rwa [hsame]
    · apply hunused
      rcases Finset.mem_union.mp huser with hwaiting | hinside
      · exact Finset.mem_union_left _ (Finset.mem_erase.mpr ⟨hsame, hwaiting⟩)
      · exact Finset.mem_union_right _ (Finset.mem_insert_of_mem hinside)
  constructor
  · intro other hunused
    exact h.repoLocks other (hbefore other hunused).2
  · intro other hunused
    obtain ⟨hne, hunused⟩ := hbefore other hunused
    show (w.self.repoWaiters.insert use.key (n - 1)).lookup other = none
    rw [AList.lookup_insert_ne hne]
    exact h.repoWaiters other hunused

/-- What `repo_lock` forgets at its end is enough where, if the repository is now unused, its
count has become zero and its lock is free. -/
theorem Runtime.NoLeak.forgotten (w : Runtime ι) (key : Str) (locked : Bool)
    (helsewhere : ∀ other, other ≠ key → w.Unused other →
      w.self.repoLocks.lookup other = none ∧ w.self.repoWaiters.lookup other = none)
    (hlast : w.Unused key → w.self.repoWaiters.lookup key = some 0 ∧ locked = false) :
    { w with self := w.self.repoForgotten key locked }.NoLeak := by
  have hentries (other : Str) (hunused : w.Unused other) :
      (w.self.repoForgotten key locked).repoLocks.lookup other = none ∧
        (w.self.repoForgotten key locked).repoWaiters.lookup other = none := by
    by_cases hother : other = key
    · subst hother
      obtain ⟨hzero, hfree⟩ := hlast hunused
      exact ResourceCoordinator.lookup_repoForgotten hzero hfree
    · obtain ⟨hlock, hcount⟩ :=
        ResourceCoordinator.lookup_repoForgotten_ne w.self locked hother
      rw [hlock, hcount]
      exact helsewhere other hother hunused
  exact ⟨fun other hunused => (hentries other hunused).1,
    fun other hunused => (hentries other hunused).2⟩

theorem Runtime.NoLeak.cancel (h : w.NoLeak) (hinv : w.RepoInv)
    (hready : w.Enabled (.repoCancel use)) (hrun : w.run (.repoCancel use) = .ok w') :
    w'.NoLeak := by
  have hwaiting : use ∈ w.repoWaiting := hready
  obtain ⟨n, hlookup, hcancelled⟩ := hinv.run_repoCancel hwaiting
  cases hcancelled.symm.trans hrun
  -- the registry after the wait is given up, before the key may be forgotten
  obtain ⟨counted, hcounted⟩ : ∃ counted : Runtime ι, counted =
      { w with
          self        :=
            { w.self with
                repoWaiters        := w.self.repoWaiters.insert use.key (n - 1)
                repoCancelledWaits := w.self.repoCancelledWaits + 1 }
          repoWaiting := w.repoWaiting.erase use } := ⟨_, rfl⟩
  have hleak := Runtime.NoLeak.forgotten counted use.key (use.lock ∈ w.locks.locked) ?_ ?_
  · rw [hcounted] at hleak
    exact hleak
  all_goals subst hcounted
  -- another key that nobody uses was unused before, so nothing is registered for it
  · intro other hne hunused
    have hbefore : w.Unused other := by
      intro user huser
      by_cases hsame : user = use
      · rw [hsame]
        exact hne.symm
      · apply hunused
        rcases Finset.mem_union.mp huser with huser | huser
        · exact Finset.mem_union_left _ (Finset.mem_erase.mpr ⟨hsame, huser⟩)
        · exact Finset.mem_union_right _ huser
    refine ⟨h.repoLocks other hbefore, ?_⟩
    show (w.self.repoWaiters.insert use.key (n - 1)).lookup other = none
    rw [AList.lookup_insert_ne hne]
    exact h.repoWaiters other hbefore
  · -- nobody else waits and nobody is inside, so the count is zero and the lock is free
    intro hunused
    constructor
    · have hcount := hinv.waiters_erase hwaiting hlookup use.key
      have hnobody := hunused.waitingFor
      unfold Runtime.waitingFor at hnobody
      rw [AList.lookup_insert, Option.getD_some, hnobody, Finset.card_empty] at hcount
      show (w.self.repoWaiters.insert use.key (n - 1)).lookup use.key = some 0
      -- the counter was one and the waiter has left
      rw [AList.lookup_insert, hcount]
      rfl
    -- a lock that is held has a user inside, with the same key
    · apply decide_eq_false
      intro hlocked
      obtain ⟨holder, hholder, hsame⟩ := (hinv.held use.lock).mp hlocked
      apply hunused holder (Finset.mem_union_right _ hholder)
      apply hinv.distinct _ _ use.lock _ (hinv.registered use (Finset.mem_union_left _ hwaiting))
      rw [hinv.registered holder (Finset.mem_union_right _ hholder), hsame]

/-- Somebody leaves: nothing stays behind where the count has been found. -/
theorem Runtime.NoLeak.leave (h : w.NoLeak) (hinv : w.RepoInv)
    (hready : w.Enabled (.repoLeave use)) (hrun : w.run (.repoLeave use) = .ok w') :
    w'.NoLeak ↔ w.Tidy (.repoLeave use) := by
  have hinside : use ∈ w.repoInside := hready
  have hregistered := hinv.registered use (Finset.mem_union_right _ hinside)
  cases (hinv.run_repoLeave hinside).symm.trans hrun
  -- the registry after the lock is given back, before the key may be forgotten
  obtain ⟨left, hleft⟩ : ∃ left : Runtime ι, left =
      { w with
          self       := { w.self with repoActive := w.self.repoActive.erase use.key }
          locks      := { w.locks with locked := w.locks.locked.erase use.lock }
          repoInside := w.repoInside.erase use } := ⟨_, rfl⟩
  constructor
  · -- without the count nobody waits, nobody else is inside, and the lock stays
    intro hleak hnone
    have hcount := hinv.waiters use.key
    rw [hnone, Option.getD_none] at hcount
    have hnobody : w.waitingFor use.key = ∅ := Finset.card_eq_zero.mp (by omega)
    have hunused : left.Unused use.key := by
      subst hleft
      intro user huser hsame
      rcases Finset.mem_union.mp huser with huser | huser
      · have hmem : user ∈ w.waitingFor use.key := Finset.mem_filter.mpr ⟨huser, hsame⟩
        rw [hnobody] at hmem
        exact absurd hmem (Finset.notMem_empty user)
      · obtain ⟨hother, huser⟩ := Finset.mem_erase.mp huser
        exact hother (hinv.eq_of_key huser hinside hsame)
    have huncounted : left.self.repoWaiters.lookup use.key = none := by rwa [hleft]
    have hforgotten := ResourceCoordinator.repoForgotten_of_none
      (use.lock ∈ w.locks.locked.erase use.lock) huncounted
    subst hleft
    have hkept := hleak.repoLocks use.key hunused
    rw [hforgotten] at hkept
    exact absurd (hregistered.symm.trans hkept) (Option.some_ne_none _)
  · intro htidy
    have hleak := Runtime.NoLeak.forgotten left use.key
      (use.lock ∈ w.locks.locked.erase use.lock) ?_ ?_
    · rw [hleft] at hleak
      exact hleak
    all_goals subst hleft
    -- another key that nobody uses was unused before
    · intro other hne hunused
      have hbefore : w.Unused other := by
        intro user huser
        by_cases hsame : user = use
        · rw [hsame]
          exact hne.symm
        · apply hunused
          rcases Finset.mem_union.mp huser with huser | huser
          · exact Finset.mem_union_left _ huser
          · exact Finset.mem_union_right _ (Finset.mem_erase.mpr ⟨hsame, huser⟩)
      exact ⟨h.repoLocks other hbefore, h.repoWaiters other hbefore⟩
    -- nobody uses the key: its counter is there by `htidy`, and is zero
    · intro hunused
      refine ⟨?_, decide_eq_false (Finset.notMem_erase use.lock _)⟩
      have hcount := hinv.waiters use.key
      have hnobody : w.waitingFor use.key = ∅ := hunused.waitingFor
      rw [hnobody, Finset.card_empty] at hcount
      show w.self.repoWaiters.lookup use.key = some 0
      cases hlookup : w.self.repoWaiters.lookup use.key with
      | none => exact absurd hlookup htidy
      | some n =>
        rw [hlookup, Option.getD_some] at hcount
        rw [hcount]
        rfl

/-- What has become of the registries is what `Tidy` says, whatever happens. -/
theorem Runtime.NoLeak.step (h : w.NoLeak) (hinv : w.RepoInv) (hready : w.Enabled e)
    (hrun : w.run e = .ok w') : w'.NoLeak ↔ w.Tidy e := by
  cases e with
  | repoEnter c key => exact iff_of_true (h.enter hrun) trivial
  | repoAcquired use => exact iff_of_true (h.acquired hinv hready hrun) trivial
  | repoCancel use => exact iff_of_true (h.cancel hinv hready hrun) trivial
  | repoLeave use => exact h.leave hinv hready hrun
  | slotEnter c =>
    cases hrun
    exact iff_of_true ⟨h.repoLocks, h.repoWaiters⟩ trivial
  | slotGrant c =>
    cases hrun
    exact iff_of_true ⟨h.repoLocks, h.repoWaiters⟩ trivial
  | slotAcquired c =>
    cases hrun
    exact iff_of_true ⟨h.repoLocks, h.repoWaiters⟩ trivial
  | slotCancel c =>
    cases hrun
    exact iff_of_true ⟨h.repoLocks, h.repoWaiters⟩ trivial
  | slotLeave c =>
    cases hrun
    exact iff_of_true ⟨h.repoLocks, h.repoWaiters⟩ trivial

/-! ## Any order -/

theorem reachable_noLeak (h : ((coordinator ι).restrict Runtime.Tidy).Reachable w) : w.NoLeak := by
  apply h.invariant
  · rintro w ⟨maxWorkers, hcreate⟩
    exact Runtime.create_noLeak hcreate
  · rintro w e w' hreach hleak ⟨⟨hready, hrun⟩, htidy⟩
    have hinv := (reachable_runtimeInv (System.restrict_reachable hreach)).2
    exact (hleak.step hinv hready hrun).mpr htidy

/-- Whatever order coroutines enter, leave and are cancelled in: as long as whoever leaves finds
the count of its repository, nothing is registered for a repository that is not in use. The
first that does not find it leaves its lock behind. -/
theorem registries_no_leak_iff (h : ((coordinator ι).restrict Runtime.Tidy).Reachable w) :
    w.NoLeak ∧ ∀ e w', (coordinator ι).step w e w' → (w'.NoLeak ↔ w.Tidy e) := by
  have hleak := reachable_noLeak h
  have hinv := (reachable_runtimeInv (System.restrict_reachable h)).2
  refine ⟨hleak, ?_⟩
  rintro e w' ⟨hready, hrun⟩
  exact hleak.step hinv hready hrun

/-- The step of an event that is tidy. -/
theorem Runtime.next_tidy {e : RuntimeEvent ι} (h : w.next e = some w') (htidy : w.Tidy e) :
    ((coordinator ι).restrict Runtime.Tidy).Step w w' := by
  obtain ⟨hready, hrun⟩ := Runtime.of_next h
  exact ⟨e, ⟨hready, hrun⟩, htidy⟩

end Registry

/-- The second coroutine gives up waiting while the first is inside. -/
def cancelledWaiterEvents : List (RuntimeEvent Nat) :=
  [.repoEnter 1 (lit "/repo"), .repoAcquired ⟨1, lit "/repo", 0⟩, .repoEnter 2 (lit "/repo"),
    .repoCancel ⟨2, lit "/repo", 0⟩]

/-- When the first leaves then, its lock stays registered, and nobody uses the repository. -/
theorem cancelled_waiter_leaks : ¬∀ w, (coordinator Nat).Reachable w → w.NoLeak := by
  intro h
  obtain ⟨w₀, hcreate, w, hfollow, hwaiting, hinside, hlock⟩ : ∃ w₀,
      Runtime.create Nat 1 = some w₀ ∧ ∃ w,
        (cancelledWaiterEvents ++ [RuntimeEvent.repoLeave ⟨1, lit "/repo", 0⟩]).foldlM
          Runtime.next w₀ = some w ∧ w.repoWaiting = ∅ ∧ w.repoInside = ∅ ∧
            w.self.repoLocks.lookup (lit "/repo") = some 0 :=
    ⟨_, rfl, _, rfl, rfl, rfl, rfl⟩
  have hreach : (coordinator Nat).Reachable w :=
    ⟨w₀, ⟨1, hcreate⟩, System.steps_of_foldlM Runtime.next_step hfollow⟩
  have hunused : w.Unused (lit "/repo") := by
    intro use huse
    rw [hwaiting, hinside, Finset.empty_union] at huse
    exact absurd huse (Finset.notMem_empty use)
  have hnone := (h w hreach).repoLocks (lit "/repo") hunused
  rw [hlock] at hnone
  cases hnone

/-- Before it leaves, nothing has been left behind; the step that leaves it is not tidy. -/
theorem registries_no_leak_cancelledWaiter : ∃ w w', w.NoLeak ∧
    (coordinator Nat).step w (.repoLeave ⟨1, lit "/repo", 0⟩) w' ∧ ¬w'.NoLeak := by
  obtain ⟨w₀, hcreate, w₁, h₁, w₂, h₂, w₃, h₃, w₄, h₄, w', hrun, hinside, hcount⟩ : ∃ w₀,
      Runtime.create Nat 1 = some w₀ ∧ ∃ w₁, w₀.next (.repoEnter 1 (lit "/repo")) = some w₁ ∧
        ∃ w₂, w₁.next (.repoAcquired ⟨1, lit "/repo", 0⟩) = some w₂ ∧
        ∃ w₃, w₂.next (.repoEnter 2 (lit "/repo")) = some w₃ ∧
        ∃ w₄, w₃.next (.repoCancel ⟨2, lit "/repo", 0⟩) = some w₄ ∧
        ∃ w', w₄.run (.repoLeave ⟨1, lit "/repo", 0⟩) = .ok w' ∧
          w₄.repoInside = {⟨1, lit "/repo", 0⟩} ∧
            w₄.self.repoWaiters.lookup (lit "/repo") = none :=
    ⟨_, rfl, _, rfl, _, rfl, _, rfl, _, rfl, _, rfl, rfl, rfl⟩
  have hreach : ((coordinator Nat).restrict Runtime.Tidy).Reachable w₄ :=
    ⟨w₀, ⟨1, hcreate⟩, .tail (.tail (.tail (.single (Runtime.next_tidy h₁ trivial))
      (Runtime.next_tidy h₂ trivial)) (Runtime.next_tidy h₃ trivial))
      (Runtime.next_tidy h₄ trivial)⟩
  have hstep : (coordinator Nat).step w₄ (.repoLeave ⟨1, lit "/repo", 0⟩) w' := by
    refine ⟨?_, hrun⟩
    show (⟨1, lit "/repo", 0⟩ : RepoUse Nat) ∈ w₄.repoInside
    rw [hinside]
    exact Finset.mem_singleton_self _
  obtain ⟨hleak, hexact⟩ := registries_no_leak_iff hreach
  refine ⟨w₄, w', hleak, hstep, ?_⟩
  intro hafter
  exact (hexact _ w' hstep).mp hafter hcount

end OmarchyYolo
