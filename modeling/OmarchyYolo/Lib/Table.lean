import Mathlib.Data.List.Forall2
import Mathlib.Data.List.Pairwise

/-!
# OmarchyYolo.Lib.Table — tables with unique constraints

A table is the list of its rows, in the order of their insertion, no two of
which clash on a unique constraint. Rows are inserted and updated, never deleted,
and an update leaves the constrained columns alone.

* `Table.update`, `Table.insert?` — `UPDATE ... WHERE` and `INSERT`;
* `Table.Evolves edge fresh` — every row of the first table is in the second,
  moved along `edge`, and the further rows of the second are `fresh`.
-/

namespace Sql

/-- The columns of the unique constraints, and when two rows violate one. -/
class Row (ρ : Type) where
  Key : Type
  key : ρ → Key
  Clash : Key → Key → Prop
  symm : ∀ {a b}, Clash a b → Clash b a
  refl : ∀ a, Clash a a
  decidable : DecidableRel Clash

open Row

variable {ρ : Type} [Row ρ]

/-- Two rows that no table holds both of. -/
def RowClash (r r' : ρ) : Prop := Clash (key r) (key r')

instance : DecidableRel (RowClash (ρ := ρ)) := fun r r' => Row.decidable (key r) (key r')

structure Table (ρ : Type) [Row ρ] where
  rows : List ρ
  distinct : rows.Pairwise fun r r' => ¬ RowClash r r'

namespace Table

/-- A table without rows. -/
def empty : Table ρ := ⟨[], List.Pairwise.nil⟩

instance : Membership ρ (Table ρ) := ⟨fun t r => r ∈ t.rows⟩

theorem mem_rows {t : Table ρ} {r : ρ} : r ∈ t.rows ↔ r ∈ t := Iff.rfl

@[simp] theorem not_mem_empty (r : ρ) : r ∉ (empty : Table ρ) := List.not_mem_nil

@[ext] theorem ext {t t' : Table ρ} (h : t.rows = t'.rows) : t = t' := by
  cases t
  cases t'
  cases h
  rfl

/-- Rows that clash are the same row. -/
theorem eq_of_clash {t : Table ρ} {r r' : ρ} (hr : r ∈ t) (hr' : r' ∈ t)
    (h : RowClash r r') : r = r' := by
  by_contra hne
  have : Std.Symm fun a b : ρ => ¬ RowClash a b := ⟨fun a b hab hba => hab (Row.symm hba)⟩
  exact t.distinct.forall hr hr' hne h

/-! ## Statements -/

/-- `SELECT * FROM t WHERE p`. -/
def select (t : Table ρ) (p : ρ → Bool) : List ρ := t.rows.filter p

@[simp] theorem mem_select {t : Table ρ} {p : ρ → Bool} {r : ρ} :
    r ∈ t.select p ↔ r ∈ t ∧ p r = true := List.mem_filter

/-- The first row of `SELECT * FROM t WHERE p`. -/
def find? (t : Table ρ) (p : ρ → Bool) : Option ρ := t.rows.find? p

theorem mem_of_find? {t : Table ρ} {p : ρ → Bool} {r : ρ} (h : t.find? p = some r) : r ∈ t :=
  List.mem_of_find?_eq_some h

theorem sat_of_find? {t : Table ρ} {p : ρ → Bool} {r : ρ} (h : t.find? p = some r) : p r = true :=
  List.find?_some h

theorem find?_eq_none {t : Table ρ} {p : ρ → Bool} :
    t.find? p = none ↔ ∀ r ∈ t, ¬ p r = true := List.find?_eq_none

/-- A row is found by conditions that only rows clashing with it meet. -/
theorem find?_eq_some {t : Table ρ} {p : ρ → Bool} {r : ρ} (hr : r ∈ t) (hp : p r = true)
    (huniq : ∀ r', p r' = true → RowClash r' r) : t.find? p = some r := by
  cases h : t.find? p with
  | none => exact absurd hp (find?_eq_none.mp h r hr)
  | some r' =>
    have heq := eq_of_clash (mem_of_find? h) hr (huniq r' (sat_of_find? h))
    rw [heq]

/-- It is the only row that is selected. -/
theorem select_eq_singleton {t : Table ρ} {p : ρ → Bool} {r : ρ} (hr : r ∈ t) (hp : p r = true)
    (huniq : ∀ r', p r' = true → RowClash r' r) : t.select p = [r] := by
  have hsame : ∀ r' ∈ t.select p, r' = r := by
    intro r' hr'
    obtain ⟨hmem, hp'⟩ := mem_select.mp hr'
    exact eq_of_clash hmem hr (huniq r' hp')
  have hdistinct : (t.select p).Pairwise fun a b => ¬RowClash a b := t.distinct.filter p
  have hmem : r ∈ t.select p := mem_select.mpr ⟨hr, hp⟩
  cases hrows : t.select p with
  | nil =>
    rw [hrows] at hmem
    exact absurd hmem List.not_mem_nil
  | cons a rest =>
    rw [hrows] at hsame hdistinct
    obtain ⟨ha, hrest⟩ := List.forall_mem_cons.mp hsame
    cases rest with
    | nil => rw [ha]
    | cons b rest =>
      -- a second row would be the same
      have hclash := (List.pairwise_cons.mp hdistinct).1 b List.mem_cons_self
      rw [ha, hrest b List.mem_cons_self] at hclash
      exact absurd (Row.refl (key r)) hclash

/-- A row under `UPDATE t SET f WHERE p`. -/
def setWhere (p : ρ → Bool) (f : ρ → ρ) (r : ρ) : ρ := if p r then f r else r

omit [Row ρ] in
theorem setWhere_pos {p : ρ → Bool} {f : ρ → ρ} {r : ρ} (h : p r = true) :
    setWhere p f r = f r := if_pos h

omit [Row ρ] in
theorem setWhere_neg {p : ρ → Bool} {f : ρ → ρ} {r : ρ} (h : ¬ p r = true) :
    setWhere p f r = r := if_neg h

theorem key_setWhere {p : ρ → Bool} {f : ρ → ρ} (keeps : ∀ r, key (f r) = key r) (r : ρ) :
    key (setWhere p f r) = key r := by
  by_cases h : p r = true
  · rw [setWhere_pos h, keeps r]
  · rw [setWhere_neg h]

/-- `UPDATE t SET f WHERE p`. -/
def update (t : Table ρ) (p : ρ → Bool) (f : ρ → ρ) (keeps : ∀ r, key (f r) = key r) :
    Table ρ where
  rows := t.rows.map (setWhere p f)
  distinct := by
    rw [List.pairwise_map]
    refine t.distinct.imp fun {a b} h => ?_
    unfold RowClash at h ⊢
    rwa [key_setWhere keeps a, key_setWhere keeps b]

theorem rows_update (t : Table ρ) (p : ρ → Bool) (f : ρ → ρ) (keeps : ∀ r, key (f r) = key r) :
    (t.update p f keeps).rows = t.rows.map (setWhere p f) := rfl

theorem mem_update {t : Table ρ} {p : ρ → Bool} {f : ρ → ρ} {keeps : ∀ r, key (f r) = key r}
    {r' : ρ} : r' ∈ t.update p f keeps ↔ ∃ r ∈ t, r' = setWhere p f r := by
  rw [← mem_rows, rows_update, List.mem_map]
  exact ⟨fun ⟨r, hr, h⟩ => ⟨r, hr, h.symm⟩, fun ⟨r, hr, h⟩ => ⟨r, hr, h.symm⟩⟩

/-- The row that an update has written. -/
theorem mem_update_of_pos {t : Table ρ} {p : ρ → Bool} {f : ρ → ρ}
    (keeps : ∀ r, key (f r) = key r) {r : ρ} (hr : r ∈ t) (hp : p r = true) :
    f r ∈ t.update p f keeps :=
  mem_update.mpr ⟨r, hr, (setWhere_pos hp).symm⟩

theorem exists_update {t : Table ρ} {p : ρ → Bool} {f : ρ → ρ} {keeps : ∀ r, key (f r) = key r}
    {P : ρ → Prop} (h : ∃ r ∈ t, P r) (hf : ∀ r, P r → P (f r)) :
    ∃ r ∈ t.update p f keeps, P r := by
  obtain ⟨r, hr, hP⟩ := h
  refine ⟨_, mem_update.mpr ⟨r, hr, rfl⟩, ?_⟩
  unfold setWhere
  split_ifs
  · exact hf r hP
  · exact hP

theorem exists_of_mem_update {t : Table ρ} {p : ρ → Bool} {f : ρ → ρ}
    {keeps : ∀ r, key (f r) = key r} {r' : ρ} (h : r' ∈ t.update p f keeps) :
    ∃ r ∈ t, key r' = key r := by
  obtain ⟨r, hr, rfl⟩ := mem_update.mp h
  exact ⟨r, hr, key_setWhere keeps r⟩

/-- `INSERT INTO t`: `none` when a unique constraint fails. -/
def insert? (t : Table ρ) (r : ρ) : Option (Table ρ) :=
  if h : ∀ r' ∈ t.rows, ¬ RowClash r' r then
    some
      { rows := t.rows ++ [r]
        distinct := List.pairwise_append.mpr
          ⟨t.distinct, List.pairwise_singleton _ _, fun r' hr' _ hb => by
            rw [List.mem_singleton.mp hb]
            exact h r' hr'⟩ }
  else none

theorem insert?_eq_some {t t' : Table ρ} {r : ρ} :
    t.insert? r = some t' ↔ (∀ r' ∈ t, ¬ RowClash r' r) ∧ t'.rows = t.rows ++ [r] := by
  unfold insert?
  split_ifs with h
  · constructor
    · intro heq
      cases heq
      exact ⟨h, rfl⟩
    · intro heq
      rw [Option.some_inj]
      exact ext heq.2.symm
  · exact ⟨nofun, fun heq => absurd heq.1 h⟩

theorem insert?_eq_none {t : Table ρ} {r : ρ} :
    t.insert? r = none ↔ ∃ r' ∈ t, RowClash r' r := by
  unfold insert?
  split_ifs with h
  · exact ⟨nofun, fun ⟨r', hr', hclash⟩ => absurd hclash (h r' hr')⟩
  · refine ⟨fun _ => ?_, fun _ => rfl⟩
    by_contra hnone
    exact h fun r' hr' hclash => hnone ⟨r', hr', hclash⟩

theorem mem_insert? {t t' : Table ρ} {r r' : ρ} (h : t.insert? r = some t') :
    r' ∈ t' ↔ r' ∈ t ∨ r' = r := by
  rw [← mem_rows, (insert?_eq_some.mp h).2, List.mem_append, List.mem_singleton, mem_rows]

/-! ## Evolution -/

/-- Every row moves along `edge` and keeps its key; added rows are `fresh`. -/
def Evolves (edge : ρ → ρ → Prop) (fresh : ρ → Prop) (t t' : Table ρ) : Prop :=
  ∃ moved added, t'.rows = moved ++ added ∧
    List.Forall₂ (fun r r' => key r' = key r ∧ edge r r') t.rows moved ∧ ∀ r ∈ added, fresh r

variable {edge edge' : ρ → ρ → Prop} {fresh fresh' : ρ → Prop} {t t' t'' : Table ρ}

theorem Evolves.refl (hedge : ∀ r ∈ t, edge r r) : Evolves edge fresh t t :=
  ⟨t.rows, [], by simp, List.forall₂_same.mpr fun r hr => ⟨rfl, hedge r hr⟩, by simp⟩

theorem Evolves.mono (h : Evolves edge fresh t t') (hedge : ∀ r ∈ t, ∀ r', edge r r' → edge' r r')
    (hfresh : ∀ r, fresh r → fresh' r) : Evolves edge' fresh' t t' := by
  obtain ⟨moved, added, hrows, hmoved, hadded⟩ := h
  refine ⟨moved, added, hrows, ?_, fun r hr => hfresh r (hadded r hr)⟩
  rw [List.forall₂_iff_get] at hmoved ⊢
  refine ⟨hmoved.1, fun i hi hi' => ?_⟩
  obtain ⟨hkey, hmove⟩ := hmoved.2 i hi hi'
  exact ⟨hkey, hedge _ (List.get_mem _ _) _ hmove⟩

/-- Every row is changed by a function. -/
theorem Evolves.of_map {g : ρ → ρ} (hrows : t'.rows = t.rows.map g)
    (hg : ∀ r ∈ t, key (g r) = key r ∧ edge r (g r)) : Evolves edge fresh t t' := by
  refine ⟨t'.rows, [], by simp, ?_, by simp⟩
  rw [hrows, List.forall₂_map_right_iff, List.forall₂_same]
  exact hg

theorem Evolves.update {p : ρ → Bool} {f : ρ → ρ} (keeps : ∀ r, key (f r) = key r)
    (hmove : ∀ r ∈ t, p r = true → edge r (f r)) (hstay : ∀ r ∈ t, edge r r) :
    Evolves edge fresh t (t.update p f keeps) := by
  apply Evolves.of_map (rows_update t p f keeps)
  intro r hr
  refine ⟨key_setWhere keeps r, ?_⟩
  by_cases hp : p r = true
  · rw [setWhere_pos hp]
    exact hmove r hr hp
  · rw [setWhere_neg hp]
    exact hstay r hr

/-- Every row stays, and others are added behind. -/
theorem Evolves.append {added : List ρ} (hrows : t'.rows = t.rows ++ added)
    (hstay : ∀ r ∈ t, edge r r) (hadded : ∀ r ∈ added, fresh r) : Evolves edge fresh t t' :=
  ⟨t.rows, added, hrows, List.forall₂_same.mpr fun r hr => ⟨rfl, hstay r hr⟩, hadded⟩

theorem Evolves.insert {r : ρ} (h : t.insert? r = some t') (hstay : ∀ r ∈ t, edge r r)
    (hfresh : fresh r) : Evolves edge fresh t t' := by
  apply Evolves.append (insert?_eq_some.mp h).2 hstay
  intro r' hr'
  rw [List.mem_singleton.mp hr']
  exact hfresh

/-- One evolution after another, along edges and fresh rows that compose. -/
theorem Evolves.trans (h : Evolves edge fresh t t') (h' : Evolves edge' fresh' t' t'')
    {edge'' : ρ → ρ → Prop} {fresh'' : ρ → Prop}
    (hedge : ∀ r ∈ t, ∀ r' r'', edge r r' → edge' r' r'' → edge'' r r'')
    (hfresh : ∀ r r', fresh r → edge' r r' → fresh'' r') (hfresh' : ∀ r, fresh' r → fresh'' r) :
    Evolves edge'' fresh'' t t'' := by
  obtain ⟨moved, added, hrows, hmoved, hadded⟩ := h
  obtain ⟨moved', added', hrows', hmoved', hadded'⟩ := h'
  -- the second evolution moves the moved rows and the added rows of the first
  rw [hrows] at hmoved'
  have h₁ := (List.forall₂_take_append _ _ _ hmoved'.flip).flip
  have h₂ := (List.forall₂_drop_append _ _ _ hmoved'.flip).flip
  refine ⟨moved'.take moved.length, moved'.drop moved.length ++ added', ?_, ?_, ?_⟩
  · rw [hrows', ← List.append_assoc, List.take_append_drop]
  · rw [List.forall₂_iff_get] at hmoved h₁ ⊢
    refine ⟨hmoved.1.trans h₁.1, fun i hi hi'' => ?_⟩
    have hi' : i < moved.length := hmoved.1 ▸ hi
    obtain ⟨hkey, hmove⟩ := hmoved.2 i hi hi'
    obtain ⟨hkey', hmove'⟩ := h₁.2 i hi' hi''
    exact ⟨hkey'.trans hkey, hedge _ (List.get_mem _ _) _ _ hmove hmove'⟩
  · intro r hr
    rcases List.mem_append.mp hr with hr | hr
    · rw [List.forall₂_iff_get] at h₂
      obtain ⟨i, rfl⟩ := List.get_of_mem hr
      have hi : i.1 < added.length := by
        rw [h₂.1]
        exact i.2
      exact hfresh _ _ (hadded _ (List.get_mem _ ⟨i.1, hi⟩)) (h₂.2 i.1 hi i.2).2
    · exact hfresh' r (hadded' r hr)

/-- Where a row has gone. -/
theorem Evolves.forward (h : Evolves edge fresh t t') {r : ρ} (hr : r ∈ t) :
    ∃ r' ∈ t', key r' = key r ∧ edge r r' := by
  obtain ⟨moved, added, hrows, hmoved, -⟩ := h
  rw [List.forall₂_iff_get] at hmoved
  obtain ⟨i, rfl⟩ := List.get_of_mem hr
  have hi : i.1 < moved.length := hmoved.1 ▸ i.2
  refine ⟨moved.get ⟨i.1, hi⟩, ?_, hmoved.2 i.1 i.2 hi⟩
  rw [← mem_rows, hrows]
  exact List.mem_append_left _ (List.get_mem _ _)

/-- Where a row has come from. -/
theorem Evolves.backward (h : Evolves edge fresh t t') {r' : ρ} (hr' : r' ∈ t') :
    (∃ r ∈ t, key r' = key r ∧ edge r r') ∨ fresh r' := by
  obtain ⟨moved, added, hrows, hmoved, hadded⟩ := h
  rw [← mem_rows, hrows, List.mem_append] at hr'
  rcases hr' with hr' | hr'
  · rw [List.forall₂_iff_get] at hmoved
    obtain ⟨i, rfl⟩ := List.get_of_mem hr'
    have hi : i.1 < t.rows.length := by
      rw [hmoved.1]
      exact i.2
    exact Or.inl ⟨t.rows.get ⟨i.1, hi⟩, List.get_mem _ _, hmoved.2 i.1 hi i.2⟩
  · exact Or.inr (hadded r' hr')

/-- Where no row is added, the keys are the same. -/
theorem Evolves.map_key (h : Evolves edge (fun _ => False) t t') :
    t'.rows.map key = t.rows.map key := by
  obtain ⟨moved, added, hrows, hmoved, hadded⟩ := h
  have hnone : added = [] := List.eq_nil_iff_forall_not_mem.mpr hadded
  rw [hrows, hnone, List.append_nil]
  generalize t.rows = rows at hmoved
  clear hrows hadded hnone
  induction hmoved with
  | nil => rfl
  | cons hmove _ ih => rw [List.map_cons, List.map_cons, hmove.1, ih]

/-- What every row satisfies, along edges that keep it, when fresh rows satisfy it. -/
theorem Evolves.invariant (h : Evolves edge fresh t t') {P : ρ → Prop} (hP : ∀ r ∈ t, P r)
    (hedge : ∀ r r', P r → edge r r' → P r') (hfresh : ∀ r, fresh r → P r) : ∀ r ∈ t', P r := by
  intro r' hr'
  rcases h.backward hr' with ⟨r, hr, -, hmove⟩ | hadded
  · exact hedge r r' (hP r hr) hmove
  · exact hfresh r' hadded

end Table

end Sql
