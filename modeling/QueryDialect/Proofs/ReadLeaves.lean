import QueryDialect.Proofs.ClauseLeaves
import QueryDialect.Proofs.Postcondition
import QueryDialect.Source.Reader

namespace QueryDialect

open Checked (Yields)

theorem Condition.yields_ofJson (name : String) (json : Json) :
    Yields (fun condition => ∀ members, condition ≠ .literal (.object members))
      (Condition.ofJson name json) := by
  cases json with
  | object members =>
    intro condition h
    unfold Condition.ofJson at h
    simp only at h
    split at h
    next found hf =>
      obtain ⟨operator, hm, hf⟩ := List.exists_of_findSome?_eq_some hf
      obtain ⟨operand, ho, hf⟩ := Option.map_eq_some_iff.mp hf
      cases h
      subst hf
      intro members he
      cases he
    next => cases h
  | _ => exact .ok (by simp)

theorem Clause.yields_listOfJson {p : Clause → Prop} {child : Json → Checked Clause}
    (hc : ∀ json, Yields p (child json)) (json : Json) :
    Yields (fun children => ∀ clause ∈ children, p clause) (Clause.listOfJson child json) := by
  cases json with
  | array items => exact Yields.each hc (fun i => [.index i]) items
  | _ => exact Yields.error _

theorem Clause.yields_ofJsonWith {child : Json → Checked Clause}
    (hc : ∀ json, Yields (AllLeaves Condition.Readable) (child json)) (json : Json) :
    Yields (AllLeaves Condition.Readable) (Clause.ofJsonWith child json) := by
  cases json with
  | object members =>
    unfold Clause.ofJsonWith
    simp only
    split
    next children _ =>
      exact .map (((Clause.yields_listOfJson hc children).inside _).mono fun _ => .and)
    next children _ _ =>
      exact .map (((Clause.yields_listOfJson hc children).inside _).mono fun _ => .or)
    next => exact .error _
    next name value ha ho =>
      refine .map ((Condition.yields_ofJson name value).mono fun condition h => .field ?_)
      exact ⟨Keyed.get?_singleton_eq_none_iff.mp ha, Keyed.get?_singleton_eq_none_iff.mp ho, h⟩
    next => exact .error _
  | _ => exact .error _

theorem Clause.yields_ofJson (limit : Nat) (json : Json) :
    Yields (AllLeaves Condition.Readable) (Clause.ofJson limit json) :=
  Yields.withinLimit (s := fun _ => AllLeaves Condition.Readable)
    (fun _ _ hc => Clause.yields_ofJsonWith hc) limit json

end QueryDialect
