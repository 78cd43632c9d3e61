import Mathlib.Data.List.Infix
import OmarchyYolo.Lib.PyStr

/-!
# OmarchyYolo.Lib.RefName — the names of Git references

The rules of `git check-ref-format`. Those on the components of a name hold of a
joined path exactly when they hold of its two halves, so a name that is built
from parts is checked part by part.

* `RefName.WellFormedPath`, `RefName.WellFormedBranch` — the rules;
* `WellFormedPath.join_iff`, `wellFormedBranch_join`: the rules of a joined name.
-/

namespace RefName

open Py

/-- What a name has between its slashes. -/
def components (name : Str) : List Str := name.splitOn (.scalar '/')

/-- The control characters, and those that a revision or a glob pattern gives a meaning. -/
def isRefused : PyChar → Bool
  | .surrogate _ _ => false
  | .scalar c =>
    c.toNat < 0x20 || c.toNat == 0x7f ||
      [' ', '~', '^', ':', '?', '*', '[', '\\'].contains c

/-- The rules on one component. -/
structure WellFormedComponent (component : Str) : Prop where
  ne_nil : component ≠ []
  not_hidden : ¬ lit "." <+: component
  not_lock : ¬ lit ".lock" <:+ component

instance (component : Str) : Decidable (WellFormedComponent component) :=
  decidable_of_iff
    (component ≠ [] ∧ ¬ lit "." <+: component ∧ ¬ lit ".lock" <:+ component)
    ⟨fun ⟨hne, hhidden, hlock⟩ => ⟨hne, hhidden, hlock⟩,
      fun h => ⟨h.ne_nil, h.not_hidden, h.not_lock⟩⟩

/-- The rules that a path meets when its parts do. -/
structure WellFormedPath (name : Str) : Prop where
  components_wellFormed : ∀ component ∈ components name, WellFormedComponent component
  not_range : ¬ lit ".." <:+: name
  not_reflog : ¬ lit "@\x7b" <:+: name
  not_refused : ∀ c ∈ name, isRefused c = false

/-- `git check-ref-format --branch`. -/
structure WellFormedBranch (name : Str) : Prop extends WellFormedPath name where
  not_dot_end : ¬ lit "." <:+ name
  not_option : ¬ lit "-" <+: name
  not_head : name ≠ lit "HEAD"
  not_at : name ≠ lit "@"

instance (name : Str) : Decidable (WellFormedBranch name) :=
  decidable_of_iff
    (((∀ component ∈ components name, WellFormedComponent component) ∧
        ¬ lit ".." <:+: name ∧ ¬ lit "@\x7b" <:+: name ∧ ∀ c ∈ name, isRefused c = false) ∧
      ¬ lit "." <:+ name ∧ ¬ lit "-" <+: name ∧ name ≠ lit "HEAD" ∧ name ≠ lit "@")
    ⟨fun ⟨⟨hc, hr, hl, hf⟩, hd, ho, hh, ha⟩ => ⟨⟨hc, hr, hl, hf⟩, hd, ho, hh, ha⟩,
      fun h => ⟨⟨h.components_wellFormed, h.not_range, h.not_reflog, h.not_refused⟩,
        h.not_dot_end, h.not_option, h.not_head, h.not_at⟩⟩

/-! ## Joined names -/

theorem join_eq (a b : Str) : a ++ lit "/" ++ b = a ++ .scalar '/' :: b := by
  rw [List.append_assoc]
  rfl

theorem components_join (a b : Str) :
    components (a ++ lit "/" ++ b) = components a ++ components b := by
  rw [join_eq, components, List.splitOn_append_cons_self]
  rfl

/-- A name without a slash is its own component. -/
theorem components_of_notMem {name : Str} (h : PyChar.scalar '/' ∉ name) :
    components name = [name] := List.splitOn_eq_singleton h

/-- A pattern without a slash in it cannot lie across one. -/
theorem infix_join_iff {p a b : Str} (hp : PyChar.scalar '/' ∉ p) :
    p <:+: a ++ lit "/" ++ b ↔ p <:+: a ∨ p <:+: b := by
  rw [join_eq]
  constructor
  · intro h
    rcases List.infix_append_iff.mp h with ha | hb | ⟨front, back, rfl, hfront, hback⟩
    · exact .inl ha
    · rcases List.infix_cons_iff.mp hb with hpre | hb
      · -- a prefix of what starts with the slash is empty
        cases p with
        | nil => exact .inl (List.nil_infix)
        | cons c p =>
          have hc : c = .scalar '/' := (List.cons_prefix_cons.mp hpre).1
          exact absurd (hc ▸ List.mem_cons_self) hp
      · exact .inr hb
    · cases back with
      | nil =>
        rw [List.append_nil]
        exact .inl hfront.isInfix
      | cons c back =>
        have hc : c = .scalar '/' := (List.cons_prefix_cons.mp hback).1
        have hmem : c ∈ front ++ c :: back := List.mem_append_right front List.mem_cons_self
        exact absurd (hc ▸ hmem) hp
  · rintro (h | h)
    · exact List.infix_append_of_infix_left h
    · exact List.infix_append_of_infix_right (h.trans (List.suffix_cons _ _).isInfix)

theorem suffix_join_iff {c : PyChar} {a b : Str} (hc : c ≠ .scalar '/') :
    [c] <:+ a ++ lit "/" ++ b ↔ [c] <:+ b := by
  constructor
  · rintro ⟨front, h⟩
    rcases List.eq_nil_or_concat b with rfl | ⟨b, d, rfl⟩
    · rw [List.append_nil] at h
      have hlast := List.append_inj_right' h rfl
      exact absurd (List.cons.inj hlast).1 hc
    · rw [List.concat_eq_append, ← List.append_assoc] at h
      have hlast := List.append_inj_right' h rfl
      rw [List.concat_eq_append, ← hlast]
      exact List.suffix_append b [c]
  · intro h
    exact h.trans (List.suffix_append _ b)

namespace WellFormedPath

variable {a b : Str}

theorem ne_nil (h : WellFormedPath a) : a ≠ [] := by
  intro hnil
  have hmem : [] ∈ components a := by
    rw [hnil]
    exact List.mem_cons_self
  exact (h.components_wellFormed [] hmem).ne_nil rfl

/-- A joined path is well formed exactly when its halves are. -/
theorem join_iff :
    WellFormedPath (a ++ lit "/" ++ b) ↔ WellFormedPath a ∧ WellFormedPath b := by
  have hrange := @infix_join_iff (lit "..") a b (by decide)
  have hreflog := @infix_join_iff (lit "@\x7b") a b (by decide)
  constructor
  · intro h
    have hcomponents := h.components_wellFormed
    have hr := h.not_range
    have hl := h.not_reflog
    have hrefused := h.not_refused
    rw [components_join, List.forall_mem_append] at hcomponents
    rw [hrange, not_or] at hr
    rw [hreflog, not_or] at hl
    rw [List.forall_mem_append, List.forall_mem_append] at hrefused
    exact ⟨⟨hcomponents.1, hr.1, hl.1, hrefused.1.1⟩, hcomponents.2, hr.2, hl.2, hrefused.2⟩
  · rintro ⟨ha, hb⟩
    have hslash : ∀ c ∈ lit "/", isRefused c = false := by decide
    refine ⟨?_, ?_, ?_, ?_⟩
    · rw [components_join, List.forall_mem_append]
      exact ⟨ha.components_wellFormed, hb.components_wellFormed⟩
    · rw [hrange, not_or]
      exact ⟨ha.not_range, hb.not_range⟩
    · rw [hreflog, not_or]
      exact ⟨ha.not_reflog, hb.not_reflog⟩
    · rw [List.forall_mem_append, List.forall_mem_append]
      exact ⟨⟨ha.not_refused, hslash⟩, hb.not_refused⟩

end WellFormedPath

/-- A branch in a directory: beside the rules of the two halves, the end of the
one and the start of the other. -/
theorem wellFormedBranch_join {a b : Str} :
    WellFormedBranch (a ++ lit "/" ++ b) ↔
      (WellFormedPath a ∧ ¬ lit "-" <+: a) ∧ WellFormedPath b ∧ ¬ lit "." <:+ b := by
  have hend : lit "." <:+ a ++ lit "/" ++ b ↔ lit "." <:+ b :=
    suffix_join_iff (by decide : PyChar.scalar '.' ≠ .scalar '/')
  have hmem : PyChar.scalar '/' ∈ a ++ lit "/" ++ b := by
    rw [join_eq]
    exact List.mem_append_right a List.mem_cons_self
  constructor
  · intro h
    obtain ⟨ha, hb⟩ := WellFormedPath.join_iff.mp h.toWellFormedPath
    refine ⟨⟨ha, fun hoption => h.not_option ?_⟩, hb, fun hdot => h.not_dot_end (hend.mpr hdot)⟩
    rw [List.append_assoc]
    exact hoption.trans (List.prefix_append a _)
  · rintro ⟨⟨ha, hoption⟩, hb, hdot⟩
    refine ⟨WellFormedPath.join_iff.mpr ⟨ha, hb⟩, fun h => hdot (hend.mp h), ?_, ?_, ?_⟩
    · -- the name starts as its directory does
      intro h
      apply hoption
      cases a with
      | nil => exact absurd rfl ha.ne_nil
      | cons c a =>
        have hc : PyChar.scalar '-' = c := (List.cons_prefix_cons.mp h).1
        rw [← hc]
        exact List.prefix_append [PyChar.scalar '-'] a
    · intro h
      rw [h] at hmem
      revert hmem
      decide
    · intro h
      rw [h] at hmem
      revert hmem
      decide

/-- An empty component is at an end of the name, or between two slashes. -/
theorem nil_mem_components {name : Str} (h : [] ∈ components name) :
    name = [] ∨ lit "/" <+: name ∨ lit "/" <:+ name ∨ lit "//" <:+: name := by
  by_cases hslash : PyChar.scalar '/' ∈ name
  · obtain ⟨first, rest, hname, hfirst⟩ := List.eq_append_cons_of_mem hslash
    have hjoin : name = first ++ lit "/" ++ rest := by rw [join_eq, ← hname]
    have hsuffix : rest <:+ name := ⟨first ++ lit "/", hjoin.symm⟩
    rw [hjoin, components_join, components_of_notMem hfirst, List.mem_append,
      List.mem_singleton] at h
    right
    rcases h with hnil | hrest
    · left
      rw [hjoin, ← hnil]
      exact List.prefix_append (lit "/") rest
    · -- the rest of the name is shorter
      have hlt : rest.length < name.length := by
        rw [hname, List.length_append, List.length_cons]
        omega
      rcases nil_mem_components hrest with hnil | hstart | hend | hdouble
      · right; left
        rw [hjoin, hnil, List.append_nil]
        exact List.suffix_append first (lit "/")
      · right; right
        obtain ⟨tail, htail⟩ := hstart
        refine ⟨first, tail, ?_⟩
        have hslashes : lit "//" = lit "/" ++ lit "/" := rfl
        rw [hjoin, ← htail, hslashes]
        simp only [List.append_assoc]
      · right; left
        exact hend.trans hsuffix
      · right; right
        exact hdouble.trans hsuffix.isInfix
  · rw [components_of_notMem hslash, List.mem_singleton] at h
    exact .inl h.symm
termination_by name.length

end RefName
