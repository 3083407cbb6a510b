import QueryDialect.Proofs.EquivalentSpellings
import QueryDialect.Proofs.ErrorPlaces
import QueryDialect.Proofs.OrderLists

namespace QueryDialect

open Checked (Raises)

/-- Where an order entry of a filter stands, or one of a scope inside it. -/
inductive Filter.EntryAt : Filter → Path → String → Prop
  | own {filter : Filter} {order : List String} {position : Nat} {entry : String}
      (ho : filter.order = some order) (he : order[position]? = some entry) :
    EntryAt filter [.key "order", .index position] entry
  | scope {filter inner : Filter} {inclusions : List (Inclusion Filter)} {position : Nat}
      {name entry : String} {path : Path} (hi : filter.inclusions = some inclusions)
      (hs : inclusions[position]? = some (.scoped name inner)) (h : EntryAt inner path entry) :
    EntryAt filter (.key "include" :: .index position :: .key "scope" :: path) entry

/-- A path that takes a lone value for the list of it alone, the place that it comes to without the
indices of such lists, and the value there. -/
inductive Json.Leads : Json → Path → Path → Json → Prop
  | here (value : Json) : Leads value [] [] value
  | key {members : Keyed Json} {name : String} {inner value : Json} {path place : Path}
      (hg : members.get? name = some inner) (h : Leads inner path place value) :
    Leads (.object members) (.key name :: path) (.key name :: place) value
  | item {items : List Json} {position : Nat} {inner value : Json} {path place : Path}
      (hi : items[position]? = some inner) (h : Leads inner path place value) :
    Leads (.array items) (.index position :: path) (.index position :: place) value
  | alone {json value : Json} {path place : Path} (hn : ∀ items, json ≠ .array items)
      (h : Leads json path place value) :
    Leads json (.index 0 :: path) place value

theorem eq_of_getElem?_singleton {α : Type} {value found : α} {position : Nat}
    (h : [value][position]? = some found) : position = 0 ∧ value = found := by
  rw [List.getElem?_singleton] at h
  split at h
  next he => exact ⟨he, Option.some.inj h⟩
  next => cases h

namespace Json.Leads

variable {json value : Json} {path place : Path}

theorem at?_place (h : json.Leads path place value) : json.at? place = some value := by
  induction h with
  | here value => exact at?_nil value
  | key hg _ ih => rw [at?, hg, Option.bind_some, ih]
  | item hi _ ih => rw [at?, hi, Option.bind_some, ih]
  | alone _ _ ih => exact ih

/-- An index into a value that is no list leads nowhere. -/
theorem at?_path_eq_none (h : json.Leads path place value) (hp : place ≠ path) :
    json.at? path = none := by
  induction h with
  | here => exact absurd rfl hp
  | key hg _ ih => rw [at?, hg, Option.bind_some, ih fun he => hp (he ▸ rfl)]
  | item hi _ ih => rw [at?, hi, Option.bind_some, ih fun he => hp (he ▸ rfl)]
  | @alone json _ _ _ hn _ _ =>
    cases json with
    | array items => exact absurd rfl (hn items)
    | _ => rfl

theorem at?_path_eq_some_iff (h : json.Leads path place value) :
    json.at? path = some value ↔ place = path := by
  constructor
  · intro hv
    by_contra hp
    rw [h.at?_path_eq_none hp] at hv
    cases hv
  · rintro rfl
    exact h.at?_place

theorem exists_of_items {inner : Json} {position : Nat} (hi : json.items[position]? = some inner)
    (h : inner.Leads path place value) :
    ∃ place', json.Leads (.index position :: path) place' value := by
  cases json with
  | array items => exact ⟨_, .item hi h⟩
  | _ =>
    obtain ⟨rfl, rfl⟩ := eq_of_getElem?_singleton hi
    exact ⟨_, .alone nofun h⟩

end Json.Leads

theorem exists_getElem?_of_forall₂ {α β : Type} {R : α → β → Prop} {items : List α} {values : List β}
    (h : List.Forall₂ R items values) {position : Nat} {value : β}
    (hv : values[position]? = some value) : ∃ item, items[position]? = some item ∧ R item value := by
  induction h generalizing position with
  | nil => cases hv
  | @cons item _ _ _ hr _ ih =>
    cases position with
    | zero =>
      cases hv
      exact ⟨item, rfl, hr⟩
    | succ position => exact ih hv

theorem OrderSpelling.items_eq {json : Json} {order : List String} (h : OrderSpelling json order) :
    json.items = order.map .string := by
  cases h <;> rfl

/-- The value that a filter is read from has the order entries of the filter, if a lone value counts
as a list. -/
theorem Filter.EntryAt.exists_leads {filter : Filter} {path : Path} {entry : String}
    (h : filter.EntryAt path entry) {json : Json} (hs : Filter.Spelling json filter) :
    ∃ place, json.Leads path place (.string entry) := by
  induction h generalizing json with
  | @own filter _ position entry ho he =>
    cases hs with
    | object _ _ _ _ _ order _ =>
      obtain ⟨listed, hg, hl⟩ := (ho ▸ order).exists_of_some
      have hi : listed.items[position]? = some (.string entry) := by
        rw [hl.items_eq, List.getElem?_map, he, Option.map_some]
      obtain ⟨place, h⟩ := Json.Leads.exists_of_items hi (.here _)
      exact ⟨_, .key hg h⟩
  | scope hi he _ ih =>
    cases hs with
    | object _ inclusions _ _ _ _ _ =>
      obtain ⟨listed, hg, hl⟩ := (hi ▸ inclusions).exists_of_some
      obtain ⟨item, hj, hl⟩ :=
        exists_getElem?_of_forall₂ (Inclusion.listSpelling_iff_forall₂.mp hl) he
      cases hl with
      | withScope _ hf =>
        obtain ⟨inner, hm, hf⟩ := hf.exists_of_some
        obtain ⟨place, h⟩ := ih hf
        obtain ⟨place, h⟩ := Json.Leads.exists_of_items hj (.key hm h)
        exact ⟨_, .key hg h⟩

/-- The entry is empty or starts with a space. -/
def WithoutField (entry : String) : Prop :=
  entry = "" ∨ ∃ rest, entry = " " ++ rest

theorem EntryParts.withoutField {entry rest : String} (h : EntryParts entry "" rest) :
    WithoutField entry := by
  cases h with
  | whole => exact .inl rfl
  | divided => exact .inr ⟨rest, by rw [String.empty_append]⟩

/-- Where the error has a place, there is an order entry of the filter without a field. -/
def FilterError.BlamesEntry (filter : Filter) (error : FilterError) : Prop :=
  ∀ path defect, error = .malformed path defect →
    defect = .missingFieldName ∧ ∃ entry, filter.EntryAt path entry ∧ WithoutField entry

namespace FilterError.BlamesEntry

variable {filter : Filter} {error : FilterError}

theorem scope {inner : Filter} {inclusions : List (Inclusion Filter)} {position : Nat} {name : String}
    (hi : filter.inclusions = some inclusions) (hs : inclusions[position]? = some (.scoped name inner))
    (h : error.BlamesEntry inner) :
    (error.inside [.key "include", .index position, .key "scope"]).BlamesEntry filter := by
  intro path defect he
  cases error with
  | malformed place found =>
    cases he
    obtain ⟨hd, entry, hp, hf⟩ := h place defect rfl
    exact ⟨hd, entry, .scope hi hs hp, hf⟩
  | _ => cases he

theorem deeper (h : error.BlamesEntry filter) : error.deeper.BlamesEntry filter := by
  intro path defect he
  cases error with
  | malformed => exact h path defect he
  | _ => cases he

end FilterError.BlamesEntry

namespace Filter

variable {filter : Filter} {scope : Filter → Checked Query} {clause : Clause → Checked Predicate}

theorem raises_orderByOf {order : List String} (ho : filter.order = some order) :
    Raises (·.BlamesEntry filter) (orderByOf order) := by
  intro error he path defect hm
  obtain ⟨before, entry, after, inner, rfl, -, hi, rfl⟩ := orderByOf_eq_error_iff.mp he
  cases hi with
  | missing_field parts =>
    cases hm
    exact ⟨rfl, entry, .own ho (by simp), parts.withoutField⟩
  | unknown_direction => cases hm

theorem raises_relationsOf (hs : ∀ inner : Filter, Raises (·.BlamesEntry inner) (scope inner))
    {inclusions : List (Inclusion Filter)} (hi : filter.inclusions = some inclusions) :
    Raises (·.BlamesEntry filter) (relationsOf scope inclusions) := by
  refine .map (.each fun position inclusion hm => ?_) _
  obtain name | ⟨name, inner⟩ := inclusion
  · exact .ok
  · refine .map ?_ _
    intro error he
    have hb : error.BlamesEntry inner := hs inner error he
    exact hb.scope hi hm

theorem raises_projectionWith (hs : ∀ inner : Filter, Raises (·.BlamesEntry inner) (scope inner)) :
    Raises (·.BlamesEntry filter) (filter.projectionWith scope) := by
  unfold projectionWith
  split
  next => exact .error nofun
  next => exact .ok
  next inclusions _ hi => exact (raises_relationsOf hs hi).map _
  next => exact .ok

theorem raises_toQueryWith (hs : ∀ inner : Filter, Raises (·.BlamesEntry inner) (scope inner))
    (hc : ∀ tree path defect, clause tree ≠ .error (.malformed path defect)) :
    Raises (·.BlamesEntry filter) (filter.toQueryWith scope clause) := by
  refine .bind (raises_projectionWith hs) fun _ _ => ?_
  refine .bind (.option fun order ho => raises_orderByOf ho) fun _ _ => ?_
  refine .map (.option fun tree _ => ?_) _
  intro error he path defect hm
  subst hm
  exact absurd he (hc tree path defect)

theorem raises_toQuery (limit : Nat) (filter : Filter) :
    Raises (·.BlamesEntry filter) (filter.toQuery limit) := by
  refine Raises.withinLimit (fun _ => True) (fun _ _ => nofun) (fun _ _ h => h.deeper) ?_ limit filter
    trivial
  intro limit scope hs filter _
  exact raises_toQueryWith (fun inner => hs inner trivial) (Clause.toPredicate_ne_malformed limit)

end Filter

/-- The JSON value has the order entry without a field at the reported path, apart from the indices of
lists that are not written as such. If there are any, the path itself leads nowhere. -/
theorem order_error_place_counts_unwritten_lists {options : Options} {json : Json} {filter : Filter}
    {path : Path} {defect : Defect} (hr : Filter.ofJson options.limit json = .ok filter)
    (he : Filter.convertJson options json = .error (.malformed path defect)) :
    defect = .missingFieldName ∧
      ∃ entry place, WithoutField entry ∧ json.Leads path place (.string entry) ∧
        json.at? place = some (.string entry) ∧
        (json.at? path = some (.string entry) ↔ place = path) ∧
        (place ≠ path → json.at? path = none) := by
  rw [Filter.convertJson_eq_steps, hr] at he
  have hq := Checked.map_eq_error_iff.mp he
  obtain ⟨rfl, entry, hp, hf⟩ := Filter.raises_toQuery options.limit filter _ hq path defect rfl
  obtain ⟨hs, -⟩ := (Filter.accepts_ofJson options.limit json filter).mp hr
  obtain ⟨place, hl⟩ := hp.exists_leads hs
  exact ⟨rfl, entry, place, hf, hl, hl.at?_place, hl.at?_path_eq_some_iff, hl.at?_path_eq_none⟩

/-- Neither a lone inclusion nor a lone order entry has an index. -/
theorem lone_order_entry_is_elsewhere :
    let scope := Json.object [("order", .string " DESC")]
    let json := Json.object [("include", .object [("relation", .string "posts"), ("scope", scope)])]
    let path : Path := [.key "include", .index 0, .key "scope", .key "order", .index 0]
    let place : Path := [.key "include", .key "scope", .key "order"]
    (∃ filter, Filter.ofJson 64 json = .ok filter) ∧
      Filter.convertJson {} json = .error (.malformed path .missingFieldName) ∧
      json.at? place = some (.string " DESC") ∧
      ∃ entry found, WithoutField entry ∧ json.Leads path found (.string entry) ∧ found ≠ path ∧
        json.at? path = none := by
  intro scope json path place
  have hr : Filter.ofJson ({} : Options).limit json =
      .ok { inclusions := some [.scoped "posts" { order := some [" DESC"] }] } := rfl
  have he : Filter.convertJson {} json = .error (.malformed path .missingFieldName) := rfl
  obtain ⟨-, entry, found, hf, hl, -, hp, hn⟩ := order_error_place_counts_unwritten_lists hr he
  have elsewhere : found ≠ path := by
    intro h
    cases hp.mpr h
  exact ⟨⟨_, hr⟩, he, rfl, entry, found, hf, hl, elsewhere, hn elsewhere⟩

end QueryDialect
