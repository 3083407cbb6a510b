import QueryDialect.Proofs.DepthWalk
import QueryDialect.Proofs.SourceGrammar

namespace QueryDialect

open Checked (Accepts bind_eq_ok_iff map_eq_ok_iff refuse_ne_ok inside_eq_ok_iff)

namespace Clause

theorem listOfJson_eq_ok_iff {child : Json → Checked Clause} {spelling : Json → Clause → Prop}
    (hc : Accepts child spelling) {json : Json} {children : List Clause} :
    listOfJson child json = .ok children ↔
      ∃ items, json = .array items ∧ List.Forall₂ spelling items children := by
  cases json with
  | array items =>
    rw [listOfJson, hc.each]
    simp
  | _ =>
    constructor
    · intro h
      exact absurd h refuse_ne_ok
    · rintro ⟨items, h, -⟩
      cases h

theorem spelling_list_iff {limit : Nat} {items : List Json} {children : List Clause} :
    List.Forall₂ (fun json clause => Spelling json clause ∧ clause.depth < limit) items children ↔
      List.Forall₂ Spelling items children ∧ depthBelow children ≤ limit := by
  rw [forall₂_and_right, depthBelow_le_iff]

/-- A combinator read from the value of its member. -/
theorem combinator_eq_ok_iff {limit : Nat} {child : Json → Checked Clause}
    (hc : Accepts child fun json clause => Spelling json clause ∧ clause.depth < limit)
    {combine : List Clause → Clause} {key : String} {json : Json} {clause : Clause} :
    combine <$> Checked.member key (listOfJson child) json = .ok clause ↔
      ∃ items children, json = .array items ∧ List.Forall₂ Spelling items children ∧
        depthBelow children ≤ limit ∧ combine children = clause := by
  rw [map_eq_ok_iff]
  simp only [Checked.member, inside_eq_ok_iff, listOfJson_eq_ok_iff hc, spelling_list_iff]
  constructor
  · rintro ⟨children, ⟨items, hj, hs, hd⟩, he⟩
    exact ⟨items, children, hj, hs, hd, he⟩
  · rintro ⟨items, children, hj, hs, hd, he⟩
    exact ⟨children, ⟨items, hj, hs, hd⟩, he⟩

theorem accepts_ofJsonWith {limit : Nat} {child : Json → Checked Clause}
    (hc : Accepts child fun json clause => Spelling json clause ∧ clause.depth < limit) :
    Accepts (ofJsonWith child) fun json clause => Spelling json clause ∧ clause.depth ≤ limit := by
  intro json clause
  cases json with
  | object members =>
    constructor
    · intro h
      -- The cases are those of the reader: the key of a combinator first, then the number of members.
      cases ha : Keyed.get? "and" members with
      | some children =>
        rw [ofJsonWith_of_and ha] at h
        obtain ⟨items, children, rfl, hs, hd, rfl⟩ := (combinator_eq_ok_iff hc).mp h
        exact ⟨.and ha hs, hd⟩
      | none =>
        cases ho : Keyed.get? "or" members with
        | some children =>
          rw [ofJsonWith_of_or ha ho] at h
          obtain ⟨items, children, rfl, hs, hd, rfl⟩ := (combinator_eq_ok_iff hc).mp h
          exact ⟨.or ha ho hs, hd⟩
        | none =>
          by_cases hl : members.length = 1
          · obtain ⟨⟨name, value⟩, rfl⟩ := List.length_eq_one_iff.mp hl
            have hna := Keyed.get?_singleton_eq_none_iff.mp ha
            have hno := Keyed.get?_singleton_eq_none_iff.mp ho
            rw [ofJsonWith_singleton hna hno] at h
            obtain ⟨condition, hv, rfl⟩ := map_eq_ok_iff.mp h
            exact ⟨.field hna hno ((Condition.accepts_ofJson name value condition).mp hv),
              Nat.zero_le _⟩
          · exact absurd h (ofJsonWith_ne_ok_of_length ha ho hl clause)
    · rintro ⟨h, hd⟩
      cases h with
      | and ha hs =>
        rw [ofJsonWith_of_and ha]
        exact (combinator_eq_ok_iff hc).mpr ⟨_, _, rfl, hs, hd, rfl⟩
      | or ha ho hs =>
        rw [ofJsonWith_of_or ha ho]
        exact (combinator_eq_ok_iff hc).mpr ⟨_, _, rfl, hs, hd, rfl⟩
      | @field name value condition ha ho h =>
        rw [ofJsonWith_singleton ha ho]
        exact map_eq_ok_iff.mpr ⟨condition, (Condition.accepts_ofJson name value condition).mpr h, rfl⟩
  | _ =>
    constructor
    · intro h
      exact absurd h refuse_ne_ok
    · rintro ⟨h, -⟩
      cases h

theorem accepts_ofJson (limit : Nat) :
    Accepts (Clause.ofJson limit) fun json clause => Spelling json clause ∧ clause.depth ≤ limit :=
  Accepts.withinLimit (fun _ _ => accepts_ofJsonWith) limit

end Clause

namespace Inclusion

theorem relationName_eq_some_iff {members : Keyed Json} {name : String} :
    (Json.member? members "relation").bind Json.string? = some name ↔
      members.get? "relation" = some (.string name) := by
  rw [Option.bind_eq_some_iff]
  constructor
  · rintro ⟨json, hm, hn⟩
    obtain ⟨hm, -⟩ := Json.member?_eq_some_iff.mp hm
    cases json with
    | string text => rw [hm, Option.some.inj hn]
    | _ => cases hn
  · intro h
    exact ⟨.string name, Json.member?_eq_some_iff.mpr ⟨h, nofun⟩, rfl⟩

theorem accepts_ofJsonWith {Scope : Type} {scope : Json → Checked Scope}
    {spelling : Json → Scope → Prop} (hs : Accepts scope spelling) :
    Accepts (Inclusion.ofJsonWith scope) (Inclusion.Spelling spelling) := by
  intro json inclusion
  cases json with
  | string name =>
    constructor
    · intro h
      cases h
      exact .name name
    · intro h
      cases h
      rfl
  | object members =>
    rw [ofJsonWith]
    constructor
    · intro h
      split at h
      next => cases h
      next name hn =>
        have hn := relationName_eq_some_iff.mp hn
        obtain ⟨filter?, hf, h⟩ := bind_eq_ok_iff.mp h
        have hf := (hs.optional members "scope" filter?).mp hf
        cases filter? with
        | none =>
          cases h
          exact .withoutScope hn hf
        | some filter =>
          cases h
          exact .withScope hn hf
    · intro h
      cases h with
      | withoutScope hn hf =>
        rw [relationName_eq_some_iff.mpr hn]
        exact bind_eq_ok_iff.mpr ⟨none, (hs.optional members "scope" none).mpr hf, rfl⟩
      | @withScope _ _ filter hn hf =>
        rw [relationName_eq_some_iff.mpr hn]
        exact bind_eq_ok_iff.mpr ⟨some filter, (hs.optional members "scope" (some filter)).mpr hf, rfl⟩
  | _ =>
    constructor
    · intro h
      exact absurd h refuse_ne_ok
    · intro h
      cases h

theorem accepts_listOfJson {Scope : Type} {scope : Json → Checked Scope}
    {spelling : Json → Scope → Prop} (hs : Accepts scope spelling) :
    Accepts (Inclusion.listOfJson scope) (Inclusion.ListSpelling spelling) := by
  have hi := accepts_ofJsonWith hs
  intro json inclusions
  cases json with
  | array items =>
    refine (hi.each (fun i => [.index i]) items inclusions).trans ?_
    constructor
    · intro h
      exact .list h
    · intro h
      cases h with
      | list h => exact h
      | single h => cases h
  | _ =>
    constructor
    · intro h
      obtain ⟨inclusion, hv, rfl⟩ := map_eq_ok_iff.mp h
      exact .single ((hi _ inclusion).mp hv)
    · intro h
      cases h with
      | single h => exact map_eq_ok_iff.mpr ⟨_, (hi _ _).mpr h, rfl⟩

theorem spelling_iff {limit : Nat} {json : Json} {inclusion : Inclusion Filter} :
    Spelling (fun json filter => Filter.Spelling json filter ∧ filter.depth < limit) json inclusion ↔
      Spelling Filter.Spelling json inclusion ∧ ¬ inclusion.TooDeep limit := by
  constructor
  · intro h
    cases h with
    | name name => exact ⟨.name name, id⟩
    | withoutScope hn hs => exact ⟨.withoutScope hn (OptionalSpelling.and_iff.mp hs).1, id⟩
    | @withScope _ _ filter hn hs =>
      obtain ⟨hs, hd⟩ := OptionalSpelling.and_iff.mp hs
      have hd : filter.depth < limit := hd filter rfl
      exact ⟨.withScope hn hs, Nat.not_lt.mpr hd⟩
  · rintro ⟨h, hd⟩
    cases h with
    | name name => exact .name name
    | withoutScope hn hs => exact .withoutScope hn (OptionalSpelling.and_iff.mpr ⟨hs, nofun⟩)
    | @withScope _ _ filter hn hs =>
      have hd : filter.depth < limit := Nat.not_lt.mp hd
      refine .withScope hn (OptionalSpelling.and_iff.mpr ⟨hs, ?_⟩)
      rintro _ ⟨⟩
      exact hd

theorem listSpelling_iff {limit : Nat} {json : Json} {inclusions : List (Inclusion Filter)} :
    ListSpelling (fun json filter => Filter.Spelling json filter ∧ filter.depth < limit) json
        inclusions ↔
      ListSpelling Filter.Spelling json inclusions ∧ Filter.scopesDepth inclusions ≤ limit := by
  rw [Filter.scopesDepth_le_iff]
  constructor
  · intro h
    cases h with
    | list h =>
      obtain ⟨h, hd⟩ := forall₂_and_right.mp (h.imp fun _ _ => spelling_iff.mp)
      exact ⟨.list h, hd⟩
    | single h =>
      have h := spelling_iff.mp h
      exact ⟨.single h.1, by simpa using h.2⟩
  · rintro ⟨h, hd⟩
    cases h with
    | list h =>
      exact .list ((forall₂_and_right.mpr ⟨h, hd⟩).imp fun _ _ => spelling_iff.mpr)
    | single h => exact .single (spelling_iff.mpr ⟨h, by simpa using hd⟩)

end Inclusion

namespace Filter

theorem accepts_ofJsonWith {limit : Nat} {scope : Json → Checked Filter}
    {clause : Json → Checked Clause}
    (hs : Accepts scope fun json filter => Spelling json filter ∧ filter.depth < limit)
    (hc : Accepts clause fun json tree => Clause.Spelling json tree ∧ tree.depth ≤ limit) :
    Accepts (ofJsonWith scope clause) fun json filter =>
      Spelling json filter ∧ filter.depth ≤ limit := by
  have hi := (Inclusion.accepts_listOfJson hs).congr fun _ _ => Inclusion.listSpelling_iff
  intro json filter
  cases json with
  | object members =>
    have fields_iff := Fields.accepts_ofJson.optional members "fields"
    have inclusions_iff := fun value? =>
      (hi.optional members "include" value?).trans OptionalSpelling.and_iff
    have order_iff := accepts_orderOfJson.optional members "order"
    have condition_iff := fun value? =>
      (hc.optional members "where" value?).trans OptionalSpelling.and_iff
    have count_iff := accepts_countOfJson.optional members
    constructor
    · intro h
      simp only [ofJsonWith, bind_eq_ok_iff, fields_iff, inclusions_iff, order_iff, condition_iff,
        count_iff] at h
      obtain ⟨fields, hf, inclusions, ⟨hm, hdm⟩, order, ho, condition, ⟨hw, hdw⟩, offset, h₁, skip,
        h₂, count, h₃, h⟩ := h
      cases h
      exact ⟨.object hf hm h₁ h₂ h₃ ho hw, Filter.depth_le_iff.mpr ⟨hdm, hdw⟩⟩
    · rintro ⟨h, hd⟩
      cases h with
      | object hf hm h₁ h₂ h₃ ho hw =>
        obtain ⟨hdm, hdw⟩ := Filter.depth_le_iff.mp hd
        rw [ofJsonWith, (fields_iff _).mpr hf, (inclusions_iff _).mpr ⟨hm, hdm⟩,
          (order_iff _).mpr ho, (condition_iff _).mpr ⟨hw, hdw⟩, (count_iff _ _).mpr h₁,
          (count_iff _ _).mpr h₂, (count_iff _ _).mpr h₃]
        cases filter
        rfl
  | _ =>
    constructor
    · intro h
      exact absurd h refuse_ne_ok
    · rintro ⟨h, -⟩
      cases h

theorem accepts_ofJson (limit : Nat) :
    Accepts (Filter.ofJson limit) fun json filter => Spelling json filter ∧ filter.depth ≤ limit :=
  Accepts.withinLimit (fun limit _ hs => accepts_ofJsonWith hs (Clause.accepts_ofJson limit)) limit

end Filter

theorem reads_exactly_what_is_spelled (limit : Nat) (json : Json) :
    (∀ filter, Filter.ofJson limit json = .ok filter ↔
      Filter.Spelling json filter ∧ filter.exceedsDepth limit = false) ∧
    ∀ clause, Clause.ofJson limit json = .ok clause ↔
      Clause.Spelling json clause ∧ clause.exceedsDepth limit = false := by
  constructor
  · intro filter
    rw [Filter.accepts_ofJson limit json filter, ← Bool.not_eq_true, Filter.exceedsDepth_iff, not_lt]
  · intro clause
    rw [Clause.accepts_ofJson limit json clause, ← Bool.not_eq_true, Clause.exceedsDepth_iff, not_lt]

end QueryDialect
