import GoalCompiler.Proofs.Graph.Arrangement
import GoalCompiler.Proofs.Graph.Search

/-! Closed paths of nodes that need each other. A step onward leads to a node that needs the one before, so the
search goes along the graph: a path that it finds is one of the graph, and where it finds none, no node comes
after itself. -/
namespace GoalCompiler.Graph

variable {g : Needs} {path : List Nat}

theorem leads_onward {v w : Fin g.length} : (onward g).Leads v w ↔ Follows g w v := by
  simp [Ways.Leads, Ways.next, onward, Follows]

/-- A way from nodes to nodes that need them, which ends where it began and nowhere else comes back. -/
abbrev Closed (g : Needs) (path : List Nat) : Prop := Circuit (fun i j => Follows g j i) path

/-- A node of a closed path comes after itself. -/
theorem Closed.not_acyclic (h : Closed g path) : ¬ Acyclic g := by
  obtain ⟨i, hi⟩ := h.exists_transGen
  exact fun ha => ha i (Relation.transGen_swap.mp hi)

/-- The search finds closed paths only. -/
theorem closed_of_cycle? (h : cycle? g = some path) : Closed g path := by
  obtain ⟨nodes, hnodes, rfl⟩ := Option.map_eq_some_iff.mp h
  exact (circuit_of_circuit? hnodes).map Fin.val_injective fun _ _ => leads_onward.mp

theorem acc_of_finished {v : Fin g.length} (h : (onward g).Finished v) : Acc (Follows g) v := by
  induction h with
  | intro v _ ih => exact .intro _ fun i hi => ih ⟨i, hi.lt⟩ (leads_onward.mpr hi)

/-- The search misses no cycle. -/
theorem acyclic_of_cycle?_eq_none (h : cycle? g = none) : Acyclic g := by
  intro i hi
  obtain ⟨j, hij, -⟩ := Relation.TransGen.head'_iff.mp hi
  have hfinished := finished_of_circuit? (Option.map_eq_none_iff.mp h) ⟨i, hij.lt⟩
  exact not_transGen_of_acc (acc_of_finished hfinished).transGen hi

/-- A graph without an arrangement has a closed path, and the search finds one. -/
theorem closed_of_arrange_eq_none (h : arrange g = none) : ∃ path, cycle? g = some path ∧ Closed g path := by
  cases hcycle : cycle? g with
  | none =>
    obtain ⟨order, horder⟩ := exists_arrange (acyclic_of_cycle?_eq_none hcycle)
    cases h.symm.trans horder
  | some path => exact ⟨path, rfl, closed_of_cycle? hcycle⟩

end GoalCompiler.Graph
