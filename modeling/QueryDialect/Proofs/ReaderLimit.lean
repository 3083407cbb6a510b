import QueryDialect.Proofs.DepthWalk
import QueryDialect.Proofs.LimitCut

namespace QueryDialect

open Checked (Cut Measured)

section Flat

variable {n : Nat}

theorem measured_refuse {α : Type} (defect : Defect) :
    Measured n False (Checked.refuse defect : Checked α) :=
  .refused not_false

theorem Fields.measured_ofJson (json : Json) : Measured n False (Fields.ofJson json) := by
  unfold Fields.ofJson
  split
  next items =>
    refine (Measured.each_of_never _ (fun item => ?_) items).map _
    split
    · exact .ok not_false
    · exact measured_refuse _
  next members =>
    refine (Measured.mapM_of_never (fun flag => ?_) members).map _
    obtain ⟨name, flag⟩ := flag
    simp only
    split
    · exact .ok not_false
    · exact (measured_refuse _).inside _
  next => exact measured_refuse _

theorem measured_orderOfJson (json : Json) : Measured n False (orderOfJson json) := by
  unfold orderOfJson
  split
  · exact .ok not_false
  next items =>
    refine Measured.each_of_never _ (fun item => ?_) items
    split
    · exact .ok not_false
    · exact measured_refuse _
  next => exact measured_refuse _

theorem measured_countOfJson (json : Json) : Measured n False (countOfJson json) := by
  unfold countOfJson
  split
  · exact .ok not_false
  · exact measured_refuse _

theorem Condition.measured_ofJson (field : String) (json : Json) :
    Measured n False (Condition.ofJson field json) := by
  unfold Condition.ofJson
  split
  · split
    · exact .ok not_false
    · exact .refused not_false
  · exact .ok not_false

theorem measured_optional {α : Type} {examine : Json → Checked α}
    (h : ∀ json, Measured n False (examine json)) (members : Keyed Json) (key : String) :
    Measured n False (Checked.optional members key examine) := by
  unfold Checked.optional
  split
  · exact .ok not_false
  · exact ((h _).inside _).map _

end Flat

section Clauses

variable {n m : Nat} {long short : Json → Checked Clause}
  (hc : ∀ json, Cut n m (fun clause => clause.depth < n) (long json) (short json))

include hc

theorem Clause.cut_listOfJson (json : Json) :
    Cut n m (fun children => Clause.depthBelow children ≤ n) (Clause.listOfJson long json)
      (Clause.listOfJson short json) := by
  cases json with
  | array items =>
    have he := Cut.each hc (fun i => [.index i]) items
    exact he.congr fun _ _ => Clause.depthBelow_le_iff.symm
  | _ => exact .refused not_false

/-- The combinators count a level; the member that is looked for first decides, whatever the limit. -/
theorem Clause.cut_ofJsonWith (json : Json) :
    Cut n m (fun clause => clause.depth ≤ n) (Clause.ofJsonWith long json)
      (Clause.ofJsonWith short json) := by
  cases json with
  | object members =>
    unfold Clause.ofJsonWith
    simp only
    split
    next children _ =>
      have hl := (Clause.cut_listOfJson hc children).inside [.key "and"]
      exact hl.map Clause.and fun _ => Iff.rfl
    next children _ _ =>
      have hl := (Clause.cut_listOfJson hc children).inside [.key "or"]
      exact hl.map Clause.or fun _ => Iff.rfl
    next => exact .refused not_false
    next name value _ _ =>
      have ht := Cut.same (m := m) (Condition.measured_ofJson (n := n) name value)
      exact ht.map (Clause.field name) fun _ => iff_of_true trivial (Nat.zero_le _)
    next => exact .refused not_false
  | _ => exact .refused not_false

end Clauses

theorem Clause.cut_ofJson {n m : Nat} (hnm : n ≤ m) (json : Json) :
    Cut n m (fun clause => clause.depth ≤ n) (Clause.ofJson m json) (Clause.ofJson n json) :=
  Cut.withinLimit (fun _ _ _ _ _ hc => Clause.cut_ofJsonWith hc) hnm json

section Scopes

variable {n m : Nat} {long short : Json → Checked Filter}
  (hs : ∀ json, Cut n m (fun filter => filter.depth < n) (long json) (short json))

include hs

theorem Inclusion.cut_ofJsonWith (json : Json) :
    Cut n m (fun inclusion => ¬ inclusion.TooDeep n) (Inclusion.ofJsonWith long json)
      (Inclusion.ofJsonWith short json) := by
  cases json with
  | string name => exact .kept not_false
  | object members =>
    unfold Inclusion.ofJsonWith
    simp only
    split
    next => exact .refused not_false
    next name _ =>
      refine (Cut.optional hs members "scope").bind (q := fun _ _ => True) (fun scope => ?_) ?_
      · cases scope <;> exact .kept trivial
      · intro scope inclusion hi
        cases scope with
        | none =>
          cases hi
          simp [Inclusion.TooDeep]
        | some filter =>
          cases hi
          simp only [Inclusion.TooDeep, not_lt, Nat.add_one_le_iff, Option.some.injEq, forall_eq',
            and_true]
  | _ => exact .refused not_false

theorem Inclusion.cut_listOfJson (json : Json) :
    Cut n m (fun inclusions => Filter.scopesDepth inclusions ≤ n) (Inclusion.listOfJson long json)
      (Inclusion.listOfJson short json) := by
  have single : ∀ value, Cut n m (fun inclusions => Filter.scopesDepth inclusions ≤ n)
      (([·]) <$> Inclusion.ofJsonWith long value) (([·]) <$> Inclusion.ofJsonWith short value) := by
    intro value
    refine (Inclusion.cut_ofJsonWith hs value).map _ fun inclusion => ?_
    rw [Filter.scopesDepth_le_iff]
    simp
  cases json with
  | array items =>
    have he := Cut.each (Inclusion.cut_ofJsonWith hs) (fun i => [.index i]) items
    exact he.congr fun _ _ => Filter.scopesDepth_le_iff.symm
  | _ => exact single _

/-- Only the inclusions and the clause are nested; the other members are read alike. -/
theorem Filter.cut_ofJsonWith {clause clause' : Json → Checked Clause}
    (hc : ∀ json, Cut n m (fun tree => tree.depth ≤ n) (clause json) (clause' json)) (json : Json) :
    Cut n m (fun filter => filter.depth ≤ n) (Filter.ofJsonWith long clause json)
      (Filter.ofJsonWith short clause' json) := by
  cases json with
  | object members =>
    have hi := Cut.optional (Inclusion.cut_listOfJson hs) members "include"
    have hw := Cut.optional hc members "where"
    unfold Filter.ofJsonWith
    refine Cut.bind_same (measured_optional Fields.measured_ofJson members "fields") fun fields => ?_
    refine hi.bind (q := fun _ filter => ∀ tree, filter.condition = some tree → tree.depth ≤ n)
      (fun inclusions => ?_) ?_
    · refine Cut.bind_same (measured_optional measured_orderOfJson members "order") fun order => ?_
      refine hw.bind (q := fun _ _ => True) (fun condition => ?_) ?_
      · have hn := fun key => measured_optional (measured_countOfJson (n := n)) members key
        refine Cut.bind_same (hn "offset") fun offset => ?_
        refine Cut.bind_same (hn "skip") fun skip => ?_
        refine Cut.bind_same (hn "limit") fun limit => ?_
        exact .kept trivial
      · intro condition filter h
        simp only [Checked.bind_eq_ok_iff] at h
        obtain ⟨offset, -, skip, -, limit, -, h⟩ := h
        cases h
        rw [and_iff_left trivial]
    · intro inclusions filter h
      simp only [Checked.bind_eq_ok_iff] at h
      obtain ⟨order, -, condition, -, offset, -, skip, -, limit, -, h⟩ := h
      cases h
      exact Filter.depth_le_iff
  | _ => exact .refused not_false

end Scopes

theorem Filter.cut_ofJson {n m : Nat} (hnm : n ≤ m) (json : Json) :
    Cut n m (fun filter => filter.depth ≤ n) (Filter.ofJson m json) (Filter.ofJson n json) :=
  Cut.withinLimit (fun _ _ _ _ hnm hs => Filter.cut_ofJsonWith hs (Clause.cut_ofJson hnm)) hnm json

theorem Filter.depth_le_of_ofJson {n : Nat} {json : Json} {filter : Filter}
    (h : Filter.ofJson n json = .ok filter) : filter.depth ≤ n := by
  have hc := Filter.cut_ofJson (Nat.le_refl n) json
  rw [h] at hc
  exact hc.fits_of_ok

theorem Clause.depth_le_of_ofJson {n : Nat} {json : Json} {clause : Clause}
    (h : Clause.ofJson n json = .ok clause) : clause.depth ≤ n := by
  have hc := Clause.cut_ofJson (Nat.le_refl n) json
  rw [h] at hc
  exact hc.fits_of_ok

/-- The nesting that the reader counts is the one that the walk over the finished filter finds. -/
theorem smaller_limit_only_cuts {n m : Nat} (hnm : n ≤ m) (json : Json) :
    Cut n m (fun filter => filter.exceedsDepth n = false) (Filter.ofJson m json)
        (Filter.ofJson n json) ∧
      Cut n m (fun clause => clause.exceedsDepth n = false) (Clause.ofJson m json)
        (Clause.ofJson n json) := by
  constructor
  · refine (Filter.cut_ofJson hnm json).congr fun filter _ => ?_
    rw [← Bool.not_eq_true, Filter.exceedsDepth_iff, not_lt]
  · refine (Clause.cut_ofJson hnm json).congr fun clause _ => ?_
    rw [← Bool.not_eq_true, Clause.exceedsDepth_iff, not_lt]

/-- A disjunction inside a conjunction takes two levels. -/
theorem smaller_limit_cuts_inner_combinator :
    let json := Json.object [("and", .array [.object [("or", .array [.object [("a", .null)]])]])]
    1 ≤ 2 ∧ Clause.ofJson 2 json = .ok (.and [.or [.field "a" (.literal .null)]]) ∧
      Clause.ofJson 1 json = .error (.depthLimitExceeded 1) ∧
      Cut 1 2 (fun clause => clause.exceedsDepth 1 = false) (Clause.ofJson 2 json)
        (Clause.ofJson 1 json) :=
  ⟨by decide, rfl, rfl, (smaller_limit_only_cuts (by decide) _).2⟩

end QueryDialect
