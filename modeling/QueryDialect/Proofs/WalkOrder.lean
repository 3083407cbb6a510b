import Mathlib.Logic.Relation
import QueryDialect.Proofs.DepthWalk

namespace QueryDialect
namespace Node

/-- A pending node within the limit gives way to the nodes directly inside it. It may stand anywhere,
and they may be put anywhere. -/
inductive Turn (limit : Nat) : List (Node × Nat) → List (Node × Nat) → Prop
  | intro {pending pending' rest : List (Node × Nat)} {node : Node} {level : Nat}
      (hl : ¬ limit < level) (taken : pending.Perm ((node, level) :: rest))
      (put : pending'.Perm ((node.inner.map fun part => (part.1, level + part.2)) ++ rest)) :
    Turn limit pending pending'

/-- A walk and its answer: it finds a node above the limit, or it comes to an end without. -/
inductive Walk (limit : Nat) : List (Node × Nat) → Bool → Prop
  | finished : Walk limit [] false
  | found {pending : List (Node × Nat)} {node : Node} {level : Nat} (hm : (node, level) ∈ pending)
      (hl : limit < level) :
    Walk limit pending true
  | turn {pending pending' : List (Node × Nat)} {answer : Bool} (ht : Turn limit pending pending')
      (h : Walk limit pending' answer) :
    Walk limit pending answer

variable {limit : Nat} {pending pending' : List (Node × Nat)} {answer : Bool}

theorem total_eq_of_perm (h : pending.Perm pending') : total pending = total pending' := by
  induction h with
  | nil => rfl
  | cons item _ ih => rw [total, total, ih]
  | swap first second rest => simp only [total, Nat.add_left_comm]
  | trans _ _ ih ih' => exact ih.trans ih'

theorem anyTooDeep_iff_of_perm (h : pending.Perm pending') :
    AnyTooDeep limit pending ↔ AnyTooDeep limit pending' :=
  exists_congr fun _ => and_congr_left' h.mem_iff

/-- A turn leaves less to visit, because the nodes directly inside a node are smaller than it. -/
theorem Turn.total_lt (h : Turn limit pending pending') : total pending' < total pending := by
  cases h with
  | @intro rest node level _ taken put =>
    have hn : total node.inner < sizeOf node := total_inner_lt node
    rw [total_eq_of_perm taken, total_eq_of_perm put, total_append, total_shift, total]
    omega

theorem wellFounded_turn (limit : Nat) : WellFounded fun later earlier => Turn limit earlier later :=
  Subrelation.wf Turn.total_lt (measure total).wf

theorem Turn.anyTooDeep_iff (h : Turn limit pending pending') :
    AnyTooDeep limit pending ↔ AnyTooDeep limit pending' := by
  obtain ⟨hl, taken, put⟩ := h
  rw [anyTooDeep_iff_of_perm taken, anyTooDeep_step hl, anyTooDeep_iff_of_perm put]

theorem Walk.answer_iff (h : Walk limit pending answer) :
    answer = true ↔ AnyTooDeep limit pending := by
  induction h with
  | finished => simp [AnyTooDeep]
  | @found pending node level hm hl =>
    have hd : limit < level + node.depth := by omega
    exact iff_of_true rfl ⟨(node, level), hm, hd⟩
  | turn ht _ ih => rw [ih, ht.anyTooDeep_iff]

theorem walk_anyAbove (limit : Nat) (pending : List (Node × Nat)) :
    Walk limit pending (anyAbove limit pending) := by
  fun_induction anyAbove limit pending with
  | case1 => exact .finished
  | case2 node level rest hl => exact .found (List.mem_cons_self ..) hl
  | case3 node level rest hl ih => exact .turn (.intro hl (.refl _) (.refl _)) ih

theorem walk_iff : Walk limit pending answer ↔ (answer = true ↔ AnyTooDeep limit pending) := by
  constructor
  · exact Walk.answer_iff
  · intro h
    have he : answer = anyAbove limit pending := by rw [Bool.eq_iff_iff, h, anyAbove_iff]
    rw [he]
    exact walk_anyAbove limit pending

theorem anyTooDeep_iff_of_turns (h : Relation.ReflTransGen (Turn limit) pending pending') :
    AnyTooDeep limit pending ↔ AnyTooDeep limit pending' := by
  induction h with
  | refl => exact Iff.rfl
  | tail _ ht ih => rw [ih, ht.anyTooDeep_iff]

end Node

/-- The answer is whether the depth is greater than the limit. In whatever order the nodes are taken, a
walk ends, and from wherever it has come to, it ends with that answer and no other. -/
theorem walks_in_any_order_measure_depth (limit : Nat) :
    (∀ filter : Filter, filter.exceedsDepth limit = true ↔ limit < filter.depth) ∧
    (∀ clause : Clause, clause.exceedsDepth limit = true ↔ limit < clause.depth) ∧
    (∀ pending, Node.Walk limit pending (Node.anyAbove limit pending)) ∧
    (WellFounded fun later earlier => Node.Turn limit earlier later) ∧
    ∀ (root : Node) (pending : List (Node × Nat)),
      Relation.ReflTransGen (Node.Turn limit) [(root, 0)] pending →
        ∀ answer, Node.Walk limit pending answer ↔ (answer = true ↔ limit < root.depth) := by
  refine ⟨fun _ => Filter.exceedsDepth_iff, fun _ => Clause.exceedsDepth_iff,
    Node.walk_anyAbove limit, Node.wellFounded_turn limit, fun root pending ht answer => ?_⟩
  rw [Node.walk_iff, ← Node.anyTooDeep_iff_of_turns ht, Node.anyTooDeep_root_iff]

end QueryDialect
