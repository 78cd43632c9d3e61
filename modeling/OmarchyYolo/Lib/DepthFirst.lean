import Mathlib.Data.List.Dedup
import Mathlib.Data.List.Perm.Subperm
import Mathlib.Logic.Relation
import OmarchyYolo.Lib.PostOrder

/-!
# OmarchyYolo.Lib.DepthFirst — the search for a cycle

A depth-first search that marks the nodes on its path and the nodes it has finished, and
fails at a node that is marked as on the path. The dependencies of a node are searched
in the order of a list.

* `Colours`, `search` — the marks, and the search from one node;
* `search_finishes` — the finished nodes of a search that does not fail, in post-order;
* `search_outcome` — a search fails only where there is a cycle;
* `searches_iff` — the searches from all nodes succeed exactly when there is none.
-/

namespace Dependency

variable {α ε : Type*}

/-- One node depends on the other. -/
def DependsOn (graph : α → List α) (n d : α) : Prop := d ∈ graph n

def Acyclic (graph : α → List α) : Prop := ∀ n, ¬ Relation.TransGen (DependsOn graph) n n

section Orders

variable {graph : α → List α} {order : List α}

/-- A cycle goes on through the dependencies of each of its nodes. -/
theorem exists_dependency_of_cycle {n : α} (h : Relation.TransGen (DependsOn graph) n n) :
    ∃ d ∈ graph n, Relation.TransGen (DependsOn graph) d d := by
  obtain ⟨d, hd, hback⟩ := Relation.TransGen.head'_iff.mp h
  exact ⟨d, hd, Relation.TransGen.tail' hback hd⟩

/-- No node of a dependency order is on a cycle. -/
theorem PostOrder.not_cycle (h : PostOrder graph order) {n : α} (hn : n ∈ order) :
    ¬ Relation.TransGen (DependsOn graph) n n := by
  intro hcycle
  let offCycle : α → Prop := fun m => ¬ Relation.TransGen (DependsOn graph) m m
  obtain ⟨m, -, hm, hdeps⟩ := @PostOrder.exists_ready _ _ _ h offCycle _ hn (not_not.mpr hcycle)
  obtain ⟨d, hd, hback⟩ := exists_dependency_of_cycle (not_not.mp hm)
  exact hdeps d hd hback

theorem PostOrder.dedup [DecidableEq α] (h : PostOrder graph order) :
    PostOrder graph order.dedup := by
  induction order with
  | nil => exact h
  | cons node rest ih =>
    obtain ⟨hdeps, hrest⟩ := h
    by_cases hmem : node ∈ rest
    · rw [List.dedup_cons_of_mem hmem]
      exact ih hrest
    · rw [List.dedup_cons_of_notMem hmem]
      exact ⟨fun d hd => List.mem_dedup.mpr (hdeps d hd), ih hrest⟩

/-- The part of an order whose nodes depend on each other only. -/
theorem PostOrder.filter {p : α → Bool} (h : PostOrder graph order)
    (hclosed : ∀ n, p n = true → ∀ d ∈ graph n, p d = true) :
    PostOrder graph (order.filter p) := by
  induction order with
  | nil => exact h
  | cons node rest ih =>
    obtain ⟨hdeps, hrest⟩ := h
    rw [List.filter_cons]
    split
    · rename_i hnode
      exact ⟨fun d hd => List.mem_filter.mpr ⟨hdeps d hd, hclosed node hnode d hd⟩, ih hrest⟩
    · exact ih hrest

end Orders

/-! ## The search -/

/-- The nodes on the path of the search, and those that are finished. -/
structure Colours (α : Type*) where
  visiting : List α
  visited : List α
deriving DecidableEq

/-- The search from a node, of a depth less than the fuel. -/
def search [DecidableEq α] (graph : α → List α) (cyclic : ε) :
    Nat → Colours α → α → Except ε (Colours α)
  | 0, _, _ => .error cyclic
  | fuel + 1, c, node =>
    if node ∈ c.visited then .ok c
    else if node ∈ c.visiting then .error cyclic
    else do
      let c ← (graph node).foldlM (search graph cyclic fuel)
        { c with visiting := node :: c.visiting }
      return { visiting := c.visiting.erase node, visited := node :: c.visited }

/-- What a search has done to the marks before it. -/
structure Finishes (graph : α → List α) (c c' : Colours α) : Prop where
  visiting : c'.visiting = c.visiting
  ordered : PostOrder graph c.visited → PostOrder graph c'.visited
  keeps : ∀ n ∈ c.visited, n ∈ c'.visited

namespace Finishes

variable {graph : α → List α} {c c' c'' : Colours α}

theorem refl (c : Colours α) : Finishes graph c c := ⟨rfl, id, fun _ h => h⟩

theorem trans (h : Finishes graph c c') (h' : Finishes graph c' c'') : Finishes graph c c'' where
  visiting := h'.visiting.trans h.visiting
  ordered hc := h'.ordered (h.ordered hc)
  keeps n hn := h'.keeps n (h.keeps n hn)

end Finishes

section Search

variable {graph : α → List α} {cyclic : ε} {c c' : Colours α}

/-- A loop of searches, where each finishes its own node. -/
theorem foldlM_finishes {step : Colours α → α → Except ε (Colours α)}
    (hstep : ∀ {c c' : Colours α} {node : α}, step c node = .ok c' →
      Finishes graph c c' ∧ node ∈ c'.visited)
    {nodes : List α} (h : nodes.foldlM step c = .ok c') :
    Finishes graph c c' ∧ ∀ n ∈ nodes, n ∈ c'.visited := by
  induction nodes generalizing c with
  | nil =>
    cases h
    exact ⟨.refl _, fun n hn => absurd hn List.not_mem_nil⟩
  | cons node nodes ih =>
    rw [List.foldlM_cons] at h
    cases hfirst : step c node with
    | error e =>
      rw [hfirst] at h
      cases h
    | ok between =>
      rw [hfirst] at h
      obtain ⟨hbetween, hnode⟩ := hstep hfirst
      obtain ⟨hrest, hall⟩ := ih h
      refine ⟨hbetween.trans hrest, fun n hn => ?_⟩
      rcases List.mem_cons.mp hn with rfl | hn
      · exact hrest.keeps n hnode
      · exact hall n hn

/-- A search that ends without error has finished its node. -/
theorem search_finishes [DecidableEq α] {fuel : Nat} {node : α}
    (h : search graph cyclic fuel c node = .ok c') :
    Finishes graph c c' ∧ node ∈ c'.visited := by
  induction fuel generalizing c c' node with
  | zero => cases h
  | succ fuel ih =>
    rw [search] at h
    split_ifs at h with hdone hpath
    · cases h
      exact ⟨.refl c, hdone⟩
    · -- the node is put in front of its dependencies
      cases hloop : (graph node).foldlM (search graph cyclic fuel)
          { c with visiting := node :: c.visiting } with
      | error e =>
        rw [hloop] at h
        cases h
      | ok between =>
        rw [hloop] at h
        cases h
        obtain ⟨hfinishes, hdeps⟩ := foldlM_finishes (fun hstep => ih hstep) hloop
        refine ⟨⟨?_, fun hc => ⟨hdeps, hfinishes.ordered hc⟩, fun n hn => ?_⟩,
          List.mem_cons_self⟩
        · show between.visiting.erase node = c.visiting
          rw [hfinishes.visiting]
          exact List.erase_cons_head ..
        · exact List.mem_cons_of_mem node (hfinishes.keeps n hn)

/-! ## Cycles -/

variable {nodes : List α}

/-- The path to a node, in a graph over the nodes. -/
structure Path (graph : α → List α) (nodes : List α) (visiting : List α) (node : α) : Prop where
  nodup : visiting.Nodup
  known : ∀ m ∈ visiting, m ∈ nodes
  reaches : ∀ m ∈ visiting, Relation.TransGen (DependsOn graph) m node
  here : node ∈ nodes

/-- The path goes on to the dependencies of a node that is not on it. -/
theorem Path.cons (hclosed : ∀ n ∈ nodes, ∀ d ∈ graph n, d ∈ nodes) {visiting : List α}
    {node d : α} (h : Path graph nodes visiting node) (hnew : node ∉ visiting)
    (hd : d ∈ graph node) : Path graph nodes (node :: visiting) d where
  nodup := List.nodup_cons.mpr ⟨hnew, h.nodup⟩
  known m hm := by
    rcases List.mem_cons.mp hm with rfl | hm
    · exact h.here
    · exact h.known m hm
  reaches m hm := by
    rcases List.mem_cons.mp hm with rfl | hm
    · exact .single hd
    · exact (h.reaches m hm).tail hd
  here := hclosed node h.here d hd

/-- A path has no more nodes than there are. -/
theorem Path.length_lt {visiting : List α} {node : α} (h : Path graph nodes visiting node)
    (hnew : node ∉ visiting) : visiting.length < nodes.length := by
  have hnodup : (node :: visiting).Nodup := List.nodup_cons.mpr ⟨hnew, h.nodup⟩
  have hsub : (node :: visiting) ⊆ nodes := by
    intro m hm
    rcases List.mem_cons.mp hm with rfl | hm
    · exact h.here
    · exact h.known m hm
  exact (List.subperm_of_subset hnodup hsub).length_le

/-- A loop of searches fails where one of them does. -/
theorem foldlM_outcome {step : Colours α → α → Except ε (Colours α)} {visiting : List α}
    {Cycle : Prop} {targets : List α} (hstep : ∀ {c : Colours α} {node : α}, node ∈ targets →
      c.visiting = visiting → (step c node = .error cyclic ∧ Cycle) ∨
        ∃ c', step c node = .ok c' ∧ c'.visiting = visiting)
    (hc : c.visiting = visiting) :
    (targets.foldlM step c = .error cyclic ∧ Cycle) ∨ ∃ c', targets.foldlM step c = .ok c' := by
  induction targets generalizing c with
  | nil => exact Or.inr ⟨c, rfl⟩
  | cons node targets ih =>
    rw [List.foldlM_cons]
    rcases hstep List.mem_cons_self hc with ⟨herror, hcycle⟩ | ⟨c', hok, hc'⟩
    · rw [herror]
      exact Or.inl ⟨rfl, hcycle⟩
    · rw [hok]
      exact ih (fun hmem => hstep (List.mem_cons_of_mem node hmem)) hc'

/-- A search with enough fuel fails only where a node of its graph is on a cycle. -/
theorem search_outcome [DecidableEq α] (hclosed : ∀ n ∈ nodes, ∀ d ∈ graph n, d ∈ nodes)
    {fuel : Nat} {node : α} (hpath : Path graph nodes c.visiting node)
      (hfuel : nodes.length < fuel + c.visiting.length) :
    (search graph cyclic fuel c node = .error cyclic ∧
        ∃ n, Relation.TransGen (DependsOn graph) n n) ∨
      ∃ c', search graph cyclic fuel c node = .ok c' := by
  induction fuel generalizing c node with
  | zero =>
    -- the path would be longer than the graph
    by_cases hmem : node ∈ c.visiting
    · exact Or.inl ⟨rfl, node, hpath.reaches node hmem⟩
    · have hlt := hpath.length_lt hmem
      omega
  | succ fuel ih =>
    rw [search]
    -- the node is done, is on its own path, or is searched
    split_ifs with hdone hmem
    · exact Or.inr ⟨c, rfl⟩
    · exact Or.inl ⟨rfl, node, hpath.reaches node hmem⟩
    -- the search of a dependency, with the node on its path
    have hdependency : ∀ {c' : Colours α} {d : α}, d ∈ graph node →
        c'.visiting = node :: c.visiting →
          (search graph cyclic fuel c' d = .error cyclic ∧
              ∃ n, Relation.TransGen (DependsOn graph) n n) ∨
            ∃ c'', search graph cyclic fuel c' d = .ok c'' ∧
              c''.visiting = node :: c.visiting := by
      intro c' d hd hc'
      have hpath' : Path graph nodes c'.visiting d := by
        rw [hc']
        exact hpath.cons hclosed hmem hd
      have hfuel' : nodes.length < fuel + c'.visiting.length := by
        rw [hc', List.length_cons]
        omega
      rcases ih hpath' hfuel' with herror | ⟨c'', hok⟩
      · exact Or.inl herror
      · exact Or.inr ⟨c'', hok, (search_finishes hok).1.visiting.trans hc'⟩
    -- the dependencies one after the other: the first cycle ends the search
    rcases foldlM_outcome (c := { c with visiting := node :: c.visiting }) hdependency rfl with
      ⟨herror, hcycle⟩ | ⟨c', hok⟩
    · rw [herror]
      exact Or.inl ⟨rfl, hcycle⟩
    · rw [hok]
      exact Or.inr ⟨_, rfl⟩

/-- The searches from the nodes of a graph, one after another, succeed exactly when it has no
cycle. -/
theorem searches_iff [DecidableEq α] (hclosed : ∀ n ∈ nodes, ∀ d ∈ graph n, d ∈ nodes)
    (houtside : ∀ n, n ∉ nodes → graph n = []) :
    (∃ c, nodes.foldlM (search graph cyclic (nodes.length + 1)) ⟨[], []⟩ = .ok c) ↔
      Acyclic graph := by
  constructor
  · rintro ⟨c, hc⟩ n hcycle
    obtain ⟨hfinishes, hall⟩ := foldlM_finishes (fun hstep => search_finishes hstep) hc
    have hknown : n ∈ nodes := by
      by_contra hnot
      obtain ⟨d, hd, -⟩ := exists_dependency_of_cycle hcycle
      rw [houtside n hnot] at hd
      exact List.not_mem_nil hd
    exact (hfinishes.ordered trivial).not_cycle (hall n hknown) hcycle
  · intro hacyclic
    have hsearch : ∀ {c : Colours α} {node : α}, node ∈ nodes → c.visiting = [] →
        (search graph cyclic (nodes.length + 1) c node = .error cyclic ∧
            ∃ n, Relation.TransGen (DependsOn graph) n n) ∨
          ∃ c', search graph cyclic (nodes.length + 1) c node = .ok c' ∧ c'.visiting = [] := by
      intro c node hnode hc
      have hpath : Path graph nodes c.visiting node := by
        rw [hc]
        exact ⟨List.nodup_nil, nofun, nofun, hnode⟩
      have hfuel : nodes.length < nodes.length + 1 + c.visiting.length := by omega
      rcases search_outcome hclosed hpath hfuel with herror | ⟨c', hok⟩
      · exact Or.inl herror
      · exact Or.inr ⟨c', hok, (search_finishes hok).1.visiting.trans hc⟩
    rcases foldlM_outcome (c := ⟨[], []⟩) hsearch rfl with ⟨-, n, hcycle⟩ | hok
    · exact absurd hcycle (hacyclic n)
    · exact hok

/-- A graph over the nodes has no cycle exactly when they have a dependency order. -/
theorem acyclic_iff_postOrder [DecidableEq α] (hnodup : nodes.Nodup)
    (hclosed : ∀ n ∈ nodes, ∀ d ∈ graph n, d ∈ nodes)
    (houtside : ∀ n, n ∉ nodes → graph n = []) :
    Acyclic graph ↔ ∃ order, order.Perm nodes ∧ PostOrder graph order := by
  constructor
  · intro hacyclic
    obtain ⟨c, hc⟩ : ∃ c, nodes.foldlM (search graph () (nodes.length + 1)) ⟨[], []⟩ = .ok c :=
      (searches_iff hclosed houtside).mpr hacyclic
    obtain ⟨hfinishes, hall⟩ := foldlM_finishes (fun hstep => search_finishes hstep) hc
    refine ⟨c.visited.dedup.filter (· ∈ nodes), ?_, ?_⟩
    · rw [List.perm_ext_iff_of_nodup ((List.nodup_dedup _).filter _) hnodup]
      intro n
      rw [List.mem_filter, List.mem_dedup, decide_eq_true_iff]
      exact ⟨fun h => h.2, fun h => ⟨hall n h, h⟩⟩
    · refine (hfinishes.ordered trivial).dedup.filter fun n hn d hd => ?_
      exact decide_eq_true (hclosed n (of_decide_eq_true hn) d hd)
  · rintro ⟨order, hperm, horder⟩ n hcycle
    obtain ⟨d, hd, -⟩ := exists_dependency_of_cycle hcycle
    have hknown : n ∈ nodes := by
      by_contra hnot
      rw [houtside n hnot] at hd
      exact List.not_mem_nil hd
    exact horder.not_cycle (hperm.mem_iff.mpr hknown) hcycle

end Search

end Dependency
