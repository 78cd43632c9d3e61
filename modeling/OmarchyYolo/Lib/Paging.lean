import Mathlib.Algebra.Order.BigOperators.Group.List
import Mathlib.Algebra.Order.Ring.Nat
import Mathlib.Order.Lattice
import Mathlib.Order.Defs.LinearOrder
import Mathlib.Data.List.Basic

/-!
# OmarchyYolo.Lib.Paging — a ledger that is read page by page

A reader keeps the largest key that it has been shown, and asks for what lies
behind it. A page is the beginning of that, without the items that do not fit.

* `Page` — what one answer may be;
* `advance` — the cursor after a page;
* `shown` — what a reader has been shown up to its cursor;
* `shown_advance`, `shown_append`: a page adds to it, later items do not;
* `cut` — a page within a budget; `cut_isPage`, `isPrefix_cut_iff`: how far it reaches.
-/

namespace Paging

variable {α κ : Type*} [LinearOrder κ]

/-- A page of these items: the beginning, without what does not fit; the last item that it reaches
fits. -/
def Page (fits : α → Bool) (items page : List α) : Prop :=
  ∃ front back, items = front ++ back ∧ page = front.filter fits ∧
    ∀ x ∈ front.getLast?, fits x = true

/-- The largest key that has been shown. -/
def advance (key : α → κ) (cursor : κ) (page : List α) : κ :=
  page.foldl (fun c x => max c (key x)) cursor

/-- The items up to a cursor that fit. -/
def shown (key : α → κ) (fits : α → Bool) (items : List α) (cursor : κ) : List α :=
  (items.filter fun x => key x ≤ cursor).filter fits

/-- The items behind a cursor. -/
def behind (key : α → κ) (items : List α) (cursor : κ) : List α :=
  items.filter fun x => cursor < key x

variable {key : α → κ} {fits : α → Bool} {items page front back : List α} {cursor : κ}

/-- The keys grow, and so does the cursor. -/
theorem advance_append_singleton (page : List α) (x : α) :
    advance key cursor (page ++ [x]) = max (advance key cursor page) (key x) :=
  List.foldl_append

theorem le_advance (page : List α) : cursor ≤ advance key cursor page := by
  induction page generalizing cursor with
  | nil => exact le_refl cursor
  | cons x page ih => exact (le_max_left cursor (key x)).trans ih

theorem advance_le {bound : κ} (hcursor : cursor ≤ bound) (h : ∀ x ∈ page, key x ≤ bound) :
    advance key cursor page ≤ bound := by
  induction page generalizing cursor with
  | nil => exact hcursor
  | cons x page ih =>
    exact ih (max_le hcursor (h x List.mem_cons_self)) fun y hy => h y (List.mem_cons_of_mem x hy)

theorem advance_lt {bound : κ} (hcursor : cursor < bound) (h : ∀ x ∈ page, key x < bound) :
    advance key cursor page < bound := by
  induction page generalizing cursor with
  | nil => exact hcursor
  | cons x page ih =>
    exact ih (max_lt hcursor (h x List.mem_cons_self)) fun y hy => h y (List.mem_cons_of_mem x hy)

theorem le_advance_of_mem {x : α} (hx : x ∈ page) : key x ≤ advance key cursor page := by
  induction page generalizing cursor with
  | nil => exact absurd hx List.not_mem_nil
  | cons y page ih =>
    rcases List.mem_cons.mp hx with rfl | hx
    · exact (le_max_right cursor (key x)).trans (le_advance page)
    · exact ih hx

/-- In growing keys, the items up to a cursor come first. -/
theorem filter_append_behind (hsorted : items.Pairwise fun x y => key x < key y) (cursor : κ) :
    items.filter (fun x => key x ≤ cursor) ++ behind key items cursor = items := by
  induction items with
  | nil => rfl
  | cons x items ih =>
    obtain ⟨hx, hitems⟩ := List.pairwise_cons.mp hsorted
    by_cases hle : key x ≤ cursor
    · have hbehind : behind key (x :: items) cursor = behind key items cursor :=
        List.filter_cons_of_neg (by rwa [decide_eq_true_eq, not_lt])
      rw [List.filter_cons_of_pos (by rwa [decide_eq_true_eq]), hbehind, List.cons_append,
        ih hitems]
    · -- nothing after an item behind the cursor is up to it
      have hlt : cursor < key x := lt_of_not_ge hle
      have hnone : (x :: items).filter (fun y => key y ≤ cursor) = [] := by
        rw [List.filter_eq_nil_iff]
        intro y hy
        rw [decide_eq_true_eq, not_le]
        rcases List.mem_cons.mp hy with rfl | hy
        · exact hlt
        · exact hlt.trans (hx y hy)
      have hall : behind key (x :: items) cursor = x :: items := by
        apply List.filter_eq_self.mpr
        intro y hy
        rw [decide_eq_true_eq]
        rcases List.mem_cons.mp hy with rfl | hy
        · exact hlt
        · exact hlt.trans (hx y hy)
      rw [hnone, hall, List.nil_append]

/-- The cursor behind a page is the key of the last item that it reaches. -/
theorem advance_filter {last : α} (hlast : fits last = true) (hcursor : cursor < key last)
    (hfront : ∀ x ∈ front, key x < key last) :
    advance key cursor ((front ++ [last]).filter fits) = key last := by
  have hkept : (front ++ [last]).filter fits = front.filter fits ++ [last] := by
    rw [List.filter_append, List.filter_cons_of_pos hlast, List.filter_nil]
  rw [hkept, advance_append_singleton]
  apply max_eq_right
  apply advance_le hcursor.le
  intro x hx
  exact (hfront x (List.mem_of_mem_filter hx)).le

/-- A page adds to what has been shown. -/
theorem shown_advance (hsorted : items.Pairwise fun x y => key x < key y)
    (hpage : Page fits (behind key items cursor) page) :
    shown key fits items (advance key cursor page) = shown key fits items cursor ++ page := by
  obtain ⟨front, back, hbehind, rfl, hlast⟩ := hpage
  -- an empty page leaves the cursor
  rcases List.eq_nil_or_concat' front with rfl | ⟨init, last, rfl⟩
  · rw [List.filter_nil, List.append_nil]
    rfl
  -- the last item of the front fits, so it is where the cursor goes
  · have hfits : fits last = true := hlast last (by rw [List.getLast?_concat]; rfl)
    have hparts := filter_append_behind hsorted cursor
    have hcursor : cursor < key last := by
      have hmem : last ∈ behind key items cursor := by
        rw [hbehind]
        exact List.mem_append_left _ (List.mem_append_right _ List.mem_cons_self)
      exact of_decide_eq_true (List.mem_filter.mp hmem).2
    have hrest : (behind key items cursor).Pairwise fun x y => key x < key y := hsorted.filter _
    rw [hbehind, List.pairwise_append, List.pairwise_append] at hrest
    obtain ⟨⟨-, -, hbefore⟩, -, hafter⟩ := hrest
    have hadvance : advance key cursor ((init ++ [last]).filter fits) = key last :=
      advance_filter hfits hcursor fun x hx => hbefore x hx last List.mem_cons_self
    -- what is before the new cursor was before the old one, or is of the front
    have hreached : items.filter (fun x => key x ≤ key last) =
        items.filter (fun x => key x ≤ cursor) ++ (init ++ [last]) := by
      conv_lhs => rw [← hparts, hbehind]
      rw [List.filter_append, List.filter_append, List.filter_filter]
      have hlow : (items.filter fun x => decide (key x ≤ key last) && decide (key x ≤ cursor)) =
          items.filter fun x => key x ≤ cursor := by
        apply List.filter_congr
        intro x _
        by_cases hle : key x ≤ cursor
        · rw [decide_eq_true hle, decide_eq_true (hle.trans hcursor.le)]
          rfl
        · rw [decide_eq_false hle, Bool.and_false]
      have hfront : (init ++ [last]).filter (fun x => key x ≤ key last) = init ++ [last] := by
        apply List.filter_eq_self.mpr
        intro x hx
        rw [decide_eq_true_eq]
        rcases List.mem_append.mp hx with hx | hx
        · exact (hbefore x hx last List.mem_cons_self).le
        · rw [List.mem_singleton.mp hx]
      have hback : back.filter (fun x => key x ≤ key last) = [] := by
        rw [List.filter_eq_nil_iff]
        intro x hx
        rw [decide_eq_true_eq, not_le]
        exact hafter last (List.mem_append_right _ List.mem_cons_self) x hx
      rw [hlow, hfront, hback, List.append_nil]
    rw [shown, hadvance, hreached, List.filter_append]
    rfl

/-- The cursor reaches the beginning of what lies behind it, if the page has it. -/
theorem forall_le_advance_iff (hsorted : items.Pairwise fun x y => key x < key y)
    (hpage : Page fits (behind key items cursor) page) {first : List α}
    (hfirst : first <+: behind key items cursor) (hfits : ∀ x ∈ first, fits x = true) :
    (∀ x ∈ first, key x ≤ advance key cursor page) ↔ first <+: page := by
  obtain ⟨front, back, hbehind, rfl, -⟩ := hpage
  have hkept : first.filter fits = first := List.filter_eq_self.mpr hfits
  constructor
  · intro hreached
    have hfront : front <+: behind key items cursor := ⟨back, hbehind.symm⟩
    rcases List.prefix_or_prefix_of_prefix hfirst hfront with hle | ⟨rest, hrest⟩
    · have hfilter := hle.filter fits
      rwa [hkept] at hfilter
    · cases rest with
      | nil =>
        rw [List.append_nil] at hrest
        have hfilter : front.filter fits = first := by rw [hrest, hkept]
        exact ⟨[], by rw [hfilter, List.append_nil]⟩
      | cons x rest =>
        -- the cursor stays before the first item that the page does not reach
        have hx : x ∈ first := by
          rw [← hrest]
          exact List.mem_append_right front List.mem_cons_self
        have hcursor : cursor < key x := by
          have hmem := hfirst.subset hx
          exact of_decide_eq_true (List.mem_filter.mp hmem).2
        have hordered : first.Pairwise fun x y => key x < key y :=
          (hsorted.filter _).sublist hfirst.sublist
        rw [← hrest, List.pairwise_append] at hordered
        have hlt : advance key cursor (front.filter fits) < key x := by
          apply advance_lt hcursor
          intro y hy
          exact hordered.2.2 y (List.mem_of_mem_filter hy) x List.mem_cons_self
        exact absurd (hreached x hx) (not_le_of_gt hlt)
  · intro hfront x hx
    exact le_advance_of_mem (hfront.subset hx)

/-- Items that come later have not been shown. -/
theorem shown_append {later : List α} (h : ∀ x ∈ later, cursor < key x) :
    shown key fits (items ++ later) cursor = shown key fits items cursor := by
  have hnone : later.filter (fun x => key x ≤ cursor) = [] := by
    rw [List.filter_eq_nil_iff]
    intro x hx
    rw [decide_eq_true_eq, not_le]
    exact h x hx
  rw [shown, List.filter_append, hnone, List.append_nil]
  rfl

/-- What has been shown are items, in their order. -/
theorem shown_sublist : (shown key fits items cursor).Sublist items :=
  List.filter_sublist.trans List.filter_sublist

theorem mem_shown {x : α} :
    x ∈ shown key fits items cursor ↔ x ∈ items ∧ key x ≤ cursor ∧ fits x = true := by
  rw [shown, List.mem_filter, List.mem_filter, decide_eq_true_eq, and_assoc]

theorem Page.append_right (h : Page fits items page) (later : List α) :
    Page fits (items ++ later) page := by
  obtain ⟨front, back, rfl, hpage, hlast⟩ := h
  exact ⟨front, back ++ later, List.append_assoc front back later, hpage, hlast⟩

theorem Page.sublist (h : Page fits items page) : page.Sublist items := by
  obtain ⟨front, back, rfl, rfl, -⟩ := h
  exact List.filter_sublist.trans (List.sublist_append_left front back)

/-! ## Pages within a budget -/

/-- Items, as long as their weights fit into a budget of which something has been used. The first
one may have all of it; what would exceed it alone is left out. -/
def cut (weigh : α → Nat) (budget : Nat) : Bool → Nat → List α → List α
  | _, _, [] => []
  | any, used, x :: items =>
    if any = true ∧ budget < used + weigh x then []
    else if budget < weigh x then cut weigh budget any used items
    else x :: cut weigh budget true (used + weigh x) items

variable {weigh : α → Nat} {budget : Nat}

theorem cut_isPage (any : Bool) (used : Nat) (items : List α) :
    Page (fun x => weigh x ≤ budget) items (cut weigh budget any used items) := by
  induction items generalizing any used with
  | nil => exact ⟨[], [], rfl, rfl, fun x hx => absurd hx (Option.not_mem_none x)⟩
  | cons x items ih =>
    rw [cut]
    split_ifs with hfull hlarge
    · exact ⟨[], x :: items, rfl, rfl, fun y hy => absurd hy (Option.not_mem_none y)⟩
    · obtain ⟨front, back, hitems, hcut, hlast⟩ := ih any used
      rw [hcut]
      cases front with
      | nil => exact ⟨[], x :: items, rfl, rfl, hlast⟩
      | cons y front =>
        refine ⟨x :: y :: front, back, ?_, ?_, ?_⟩
        · rw [hitems]
          rfl
        · have hleft : ¬decide (weigh x ≤ budget) = true := by
            rwa [decide_eq_true_eq, Nat.not_le]
          exact (List.filter_cons_of_neg (p := fun x => weigh x ≤ budget) hleft).symm
        · rwa [List.getLast?_cons_cons]
    · have hfits : decide (weigh x ≤ budget) = true := by
        rwa [decide_eq_true_eq, ← Nat.not_lt]
      obtain ⟨front, back, hitems, hcut, hlast⟩ := ih true (used + weigh x)
      rw [hcut]
      refine ⟨x :: front, back, ?_, ?_, ?_⟩
      · rw [hitems]
        rfl
      · exact (List.filter_cons_of_pos (p := fun x => weigh x ≤ budget) hfits).symm
      · cases front with
        | nil =>
          intro y hy
          cases hy
          exact hfits
        | cons y front => rwa [List.getLast?_cons_cons]

/-- After the first item the page has what is within the budget. -/
theorem isPrefix_cut_used_iff {first : List α} (hfits : ∀ x ∈ first, weigh x ≤ budget)
    (used : Nat) (rest : List α) :
    first <+: cut weigh budget true used (first ++ rest) ↔
      first = [] ∨ used + (first.map weigh).sum ≤ budget := by
  induction first generalizing used with
  | nil => exact iff_of_true List.nil_prefix (.inl rfl)
  | cons x first ih =>
    obtain ⟨hx, hfirst⟩ := List.forall_mem_cons.mp hfits
    rw [List.cons_append, cut, List.map_cons, List.sum_cons,
      or_iff_right (List.cons_ne_nil x first)]
    split_ifs with hfull hlarge
    · refine iff_of_false ?_ ?_
      · intro hfront
        exact List.cons_ne_nil x first (List.prefix_nil.mp hfront)
      · intro hsum
        have hover := hfull.2
        omega
    · exact absurd hx (Nat.not_le.mpr hlarge)
    · have hroom : used + weigh x ≤ budget := by
        by_contra hover
        exact hfull ⟨rfl, Nat.lt_of_not_le hover⟩
      rw [List.cons_prefix_cons, ih hfirst, Nat.add_assoc]
      constructor
      · rintro ⟨-, rfl | hsum⟩
        · exact hroom
        · exact hsum
      · intro hsum
        exact ⟨rfl, .inr hsum⟩

/-- A page has items that fit, one or all that are within the budget. -/
theorem isPrefix_cut_iff {first : List α} (hfits : ∀ x ∈ first, weigh x ≤ budget)
    (used : Nat) (rest : List α) :
    first <+: cut weigh budget false used (first ++ rest) ↔
      first.length ≤ 1 ∨ used + (first.map weigh).sum ≤ budget := by
  cases first with
  | nil => exact iff_of_true List.nil_prefix (.inl (Nat.zero_le 1))
  | cons x first =>
    obtain ⟨hx, hfirst⟩ := List.forall_mem_cons.mp hfits
    have hnone : ¬(false = true ∧ budget < used + weigh x) := fun h => Bool.false_ne_true h.1
    rw [List.cons_append, cut, if_neg hnone, if_neg (Nat.not_lt.mpr hx), List.cons_prefix_cons,
      isPrefix_cut_used_iff hfirst, List.map_cons, List.sum_cons, Nat.add_assoc]
    have hone : (x :: first).length ≤ 1 ↔ first = [] := by
      rw [List.length_cons, ← List.length_eq_zero_iff]
      omega
    rw [hone]
    exact and_iff_right rfl

/-- The same where at most so many items are looked at. -/
theorem isPrefix_cut_take_iff {first : List α} (hfirst : first <+: items)
    (hfits : ∀ x ∈ first, weigh x ≤ budget) (used count : Nat) :
    first <+: cut weigh budget false used (items.take count) ↔
      first.length ≤ count ∧ (first.length ≤ 1 ∨ used + (first.map weigh).sum ≤ budget) := by
  have hreach (hcount : first.length ≤ count) :
      first <+: cut weigh budget false used (items.take count) ↔
        first.length ≤ 1 ∨ used + (first.map weigh).sum ≤ budget := by
    obtain ⟨rest, hrest⟩ := List.prefix_take_iff.mpr ⟨hfirst, hcount⟩
    rw [← hrest]
    exact isPrefix_cut_iff hfits used rest
  constructor
  · intro hfront
    have hcount : first.length ≤ count := by
      have htaken := hfront.sublist.trans (cut_isPage false used (items.take count)).sublist
      exact htaken.length_le.trans (List.length_take_le count items)
    exact ⟨hcount, (hreach hcount).mp hfront⟩
  · rintro ⟨hcount, hbudget⟩
    exact (hreach hcount).mpr hbudget

end Paging
