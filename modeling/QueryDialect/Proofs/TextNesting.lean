import QueryDialect.Json.Nesting
import QueryDialect.Json.Reader
import QueryDialect.Proofs.ErrorPlaces
import QueryDialect.Proofs.JsonConversion

namespace QueryDialect

open Checked (Measured Raises)

namespace Json

theorem nesting_le_of_ofWritten? {levels : Nat} {written : Written} {json : Json}
    (h : ofWritten? levels written = some json) : json.nesting ≤ levels := by
  induction levels generalizing written json with
  | zero =>
    cases written <;> simp only [ofWritten?, Option.map_eq_some_iff] at h
    case null | bool => cases h; exact Nat.zero_le _
    case number | string => obtain ⟨_, _, rfl⟩ := h; exact Nat.zero_le _
    all_goals cases h
  | succ levels ih =>
    cases written <;> simp only [ofWritten?, Option.map_eq_some_iff] at h
    case null | bool => cases h; exact Nat.zero_le _
    case number | string => obtain ⟨_, _, rfl⟩ := h; exact Nat.zero_le _
    case array items =>
      obtain ⟨values, hm, h⟩ := Option.bind_eq_some_iff.mp h
      cases h
      refine Nat.succ_le_succ (nestingOfItems_le_iff.mpr fun value hv => ?_)
      obtain ⟨item, -, hi⟩ := exists_mem_of_mapM hm hv
      exact ih hi
    case object members =>
      obtain ⟨decoded, hm, h⟩ := Option.bind_eq_some_iff.mp h
      cases h
      refine Nat.succ_le_succ (nestingOfMembers_le_iff.mpr fun member hv => ?_)
      obtain ⟨source, -, hr⟩ := exists_mem_of_mapM hm (Keyed.mem_of_mem_ofList hv)
      obtain ⟨key, -, hr⟩ := Option.bind_eq_some_iff.mp hr
      obtain ⟨value, hw, hr⟩ := Option.bind_eq_some_iff.mp hr
      cases hr
      exact ih hw

theorem nesting_le_of_ofText? {text : String} {json : Json} (h : ofText? text = some json) :
    json.nesting ≤ nestingLimit := by
  obtain ⟨written, -, hw⟩ := Option.bind_eq_some_iff.mp h
  exact nesting_le_of_ofWritten? hw

/-- The value inside so many conjunctions of one clause. -/
def conjoined (json : Json) : Nat → Json
  | 0 => json
  | times + 1 => .object [("and", .array [json.conjoined times])]

theorem nesting_conjoined (json : Json) (times : Nat) :
    (json.conjoined times).nesting = json.nesting + 2 * times := by
  induction times with
  | zero => rfl
  | succ times ih =>
    simp only [conjoined, nesting, nestingOfItems, nestingOfMembers, ih, Nat.max_zero]
    omega

end Json

/-- An error about nesting comes only from a value that is nested this deep. -/
def TakesNesting {α : Type} (n : Nat) (json : Json) (outcome : Checked α) : Prop :=
  Raises (fun error => error.IsDepth → n ≤ json.nesting) outcome

namespace TakesNesting

variable {α : Type} {n : Nat} {json : Json}

/-- An outcome in which nesting plays no part. -/
theorem of_measured {limit : Nat} {outcome : Checked α} (h : Measured limit False outcome) :
    TakesNesting n json outcome := by
  rintro error rfl hd
  cases h with
  | tooDeep h => exact h.elim
  | refused hn => exact absurd hd hn

theorem refuse (defect : Defect) : TakesNesting n json (Checked.refuse defect : Checked α) :=
  of_measured (measured_refuse (n := 0) defect)

theorem inside {value : Json} {steps : Path} {outcome : Checked α} (h : TakesNesting n value outcome)
    (hv : value.nesting < json.nesting) : TakesNesting (n + 1) json (Checked.inside steps outcome) :=
  Raises.inside h fun _ he hd => Nat.lt_of_le_of_lt (he (FilterError.isDepth_inside.mp hd)) hv

theorem optional {members : Keyed Json} {key : String} {examine : Json → Checked α}
    (h : ∀ value, TakesNesting n value (examine value)) :
    TakesNesting (n + 1) (.object members) (Checked.optional members key examine) := by
  unfold Checked.optional
  split
  next => exact .ok
  next value hm =>
    have hg : members.get? key = some value := (Json.member?_eq_some_iff.mp hm).1
    exact Raises.map ((h value).inside (Json.nesting_lt_of_get? hg)) some

theorem each {items : List Json} {examine : Json → Checked α}
    (h : ∀ item, TakesNesting n item (examine item)) :
    TakesNesting (n + 1) (.array items) (Checked.each (fun i => [.index i]) examine items) := by
  refine Raises.each fun i item hi => ?_
  intro error he hd
  have hm : item ∈ items := List.mem_of_getElem? hi
  have hn : n ≤ item.nesting := h item error he (FilterError.isDepth_inside.mp hd)
  exact Nat.lt_of_le_of_lt hn (Json.nesting_lt_of_mem_items hm)

/-- If every level takes two more than the level below it, then the limit is passed only by values
that are nested twice as deep. -/
theorem withinLimit {examine : Nat → (Json → Checked α) → Json → Checked α}
    (step : ∀ limit inner, (∀ json, TakesNesting (2 * limit) json (inner json)) →
      ∀ json, TakesNesting (2 * limit + 2) json (examine limit inner json))
    (limit : Nat) (json : Json) :
    TakesNesting (2 * limit + 2) json (Checked.withinLimit examine limit json) := by
  induction limit generalizing json with
  | zero => exact step 0 _ (fun _ => .error fun _ => Nat.zero_le _) json
  | succ limit ih =>
    rw [Checked.withinLimit_succ]
    refine step (limit + 1) _ (fun below => ?_) json
    exact (ih below).deeper fun _ he hd => he (FilterError.isDepth_deeper.mp hd)

end TakesNesting

section Clauses

variable {n : Nat} {child : Json → Checked Clause} (hc : ∀ json, TakesNesting n json (child json))

include hc

theorem Clause.takesNesting_listOfJson (json : Json) :
    TakesNesting (n + 1) json (Clause.listOfJson child json) := by
  cases json with
  | array items => exact .each hc
  | _ => exact .refuse _

theorem Clause.takesNesting_ofJsonWith (json : Json) :
    TakesNesting (n + 2) json (Clause.ofJsonWith child json) := by
  cases json with
  | object members =>
    have combinator : ∀ {key : String} {children : Json}, Keyed.get? key members = some children →
        TakesNesting (n + 2) (.object members)
          (Checked.member key (Clause.listOfJson child) children) := fun hg =>
      (Clause.takesNesting_listOfJson hc _).inside (Json.nesting_lt_of_get? hg)
    unfold Clause.ofJsonWith
    simp only
    split
    next ha => exact Raises.map (combinator ha) Clause.and
    next ho => exact Raises.map (combinator ho) Clause.or
    next => exact .refuse _
    next name value _ _ =>
      exact Raises.map (TakesNesting.of_measured (Condition.measured_ofJson (n := 0) name value)) _
    next => exact .refuse _
  | _ => exact .refuse _

end Clauses

theorem Clause.takesNesting_ofJson (limit : Nat) (json : Json) :
    TakesNesting (2 * limit + 2) json (Clause.ofJson limit json) :=
  TakesNesting.withinLimit (fun _ _ hc => Clause.takesNesting_ofJsonWith hc) limit json

section Scopes

variable {n : Nat} {scope : Json → Checked Filter} (hs : ∀ json, TakesNesting n json (scope json))

include hs

theorem Inclusion.takesNesting_ofJsonWith (json : Json) :
    TakesNesting (n + 1) json (Inclusion.ofJsonWith scope json) := by
  cases json with
  | string name => exact .ok
  | object members =>
    unfold Inclusion.ofJsonWith
    simp only
    split
    next => exact TakesNesting.of_measured (show Measured 0 False _ from (measured_refuse _).inside _)
    next name _ =>
      refine Raises.bind (TakesNesting.optional hs) fun scope? _ => ?_
      cases scope? <;> exact .ok
  | _ => exact .refuse _

/-- A list of inclusions takes one array more than a single one. -/
theorem Inclusion.takesNesting_listOfJson (json : Json) :
    TakesNesting (n + 1) json (Inclusion.listOfJson scope json) := by
  cases json with
  | array items =>
    have he : TakesNesting (n + 1 + 1) (.array items) (Inclusion.listOfJson scope (.array items)) :=
      .each (Inclusion.takesNesting_ofJsonWith hs)
    exact fun error hl hd => Nat.le_of_succ_le (he error hl hd)
  | _ => exact Raises.map (Inclusion.takesNesting_ofJsonWith hs _) _

theorem Filter.takesNesting_ofJsonWith {clause : Json → Checked Clause}
    (hc : ∀ json, TakesNesting (n + 1) json (clause json)) (json : Json) :
    TakesNesting (n + 2) json (Filter.ofJsonWith scope clause json) := by
  cases json with
  | object members =>
    have flat : ∀ {α : Type} {outcome : Checked α}, Measured 0 False outcome →
        TakesNesting (n + 2) (.object members) outcome := .of_measured
    have counts : ∀ key, TakesNesting (n + 2) (.object members)
        (Checked.optional members key countOfJson) :=
      fun key => flat (measured_optional measured_countOfJson members key)
    unfold Filter.ofJsonWith
    refine Raises.bind (flat (measured_optional Fields.measured_ofJson members "fields")) fun _ _ => ?_
    refine Raises.bind (TakesNesting.optional (Inclusion.takesNesting_listOfJson hs)) fun _ _ => ?_
    refine Raises.bind (flat (measured_optional measured_orderOfJson members "order")) fun _ _ => ?_
    refine Raises.bind (TakesNesting.optional hc) fun _ _ => ?_
    refine Raises.bind (counts "offset") fun _ _ => ?_
    refine Raises.bind (counts "skip") fun _ _ => ?_
    exact Raises.bind (counts "limit") fun _ _ => .ok
  | _ => exact .refuse _

end Scopes

/-- The own clause of a filter is an object in an object on the filter's level, so that it takes no less
than a scope. -/
theorem Filter.takesNesting_ofJson (limit : Nat) (json : Json) :
    TakesNesting (2 * limit + 2) json (Filter.ofJson limit json) := by
  refine TakesNesting.withinLimit (fun limit scope hs json => ?_) limit json
  refine Filter.takesNesting_ofJsonWith hs (fun value error he hd => ?_) json
  exact Nat.le_of_succ_le (Clause.takesNesting_ofJson limit value error he hd)

end QueryDialect
