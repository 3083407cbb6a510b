import QueryDialect.Proofs.EquivalentSpellings
import QueryDialect.Proofs.OrderLists

namespace QueryDialect

open Checked (map_eq_ok_iff)

/-- The object has a member with this key that is not null. -/
def Json.Has (members : Keyed Json) (key : String) : Prop :=
  ∃ value, members.get? key = some value ∧ value ≠ .null

/-- The inclusion names the relation, alone or with a scope. -/
def Json.NamesRelation (item : Json) (name : String) : Prop :=
  item = .string name ∨
    ∃ members, item = .object members ∧ Keyed.get? "relation" members = some (.string name)

/-- The value at the end of a path of relations, if each scope on the way belongs to the last inclusion
that names its relation. -/
inductive Json.Survives : Json → List String → Json → Prop
  | root (source : Json) : Survives source [] source
  | scope {members inner : Keyed Json} {included scope part : Json} {name : String}
      {path : List String} {before after : List Json}
      (hi : members.get? "include" = some included)
      (hd : included.items = before ++ .object inner :: after)
      (hn : inner.get? "relation" = some (.string name))
      (hs : inner.get? "scope" = some scope) (hp : scope ≠ .null)
      (hl : ∀ later ∈ after, ¬ later.NamesRelation name) (h : Survives scope path part) :
    Survives (.object members) (name :: path) part

/-- Each member of a query is there just when the filter asks for it, counts are those of the filter,
and an empty list becomes an empty object. -/
structure PresentAlike (members written : Keyed Json) : Prop where
  select : (written.get? "select").isSome ↔ Json.Has members "fields"
  relations : (written.get? "include").isSome ↔ Json.Has members "include"
  skip : (written.get? "skip").isSome ↔ Json.Has members "offset" ∨ Json.Has members "skip"
  take : (written.get? "take").isSome ↔ Json.Has members "limit"
  orderBy : (written.get? "orderBy").isSome ↔ Json.Has members "order"
  condition : (written.get? "where").isSome ↔ Json.Has members "where"
  take_eq : Json.Has members "limit" → written.get? "take" = members.get? "limit"
  skip_eq_offset : Json.Has members "offset" → written.get? "skip" = members.get? "offset"
  skip_eq_skip : ¬ Json.Has members "offset" → Json.Has members "skip" →
    written.get? "skip" = members.get? "skip"
  select_empty : ∀ json, members.get? "fields" = some json → json = .array [] ∨ json = .object [] →
    written.get? "select" = some (.object [])
  relations_empty : members.get? "include" = some (.array []) →
    written.get? "include" = some (.object [])
  orderBy_empty : members.get? "order" = some (.array []) →
    written.get? "orderBy" = some (.object [])

theorem Json.Includes.unique {json first second : Json} {path : List String}
    (h : json.Includes path first) (h' : json.Includes path second) : first = second := by
  induction h with
  | root json =>
    cases h'
    rfl
  | scope hi hs _ ih =>
    cases h' with
    | scope hi' hs' h' =>
      rw [hi] at hi'
      cases hi'
      rw [hs] at hs'
      cases hs'
      exact ih h'

theorem Inclusion.Spelling.namesRelation {Scope : Type} {spelling : Json → Scope → Prop}
    {item : Json} {inclusion : Inclusion Scope} (h : Spelling spelling item inclusion) :
    item.NamesRelation inclusion.name := by
  cases h with
  | name => exact .inl rfl
  | withoutScope hn => exact .inr ⟨_, rfl, hn⟩
  | withScope hn => exact .inr ⟨_, rfl, hn⟩

section Parts

variable {members : Keyed Json} {key : String}

theorem OptionalSpelling.exists_of_get? {α : Type} {spelling : Json → α → Prop} {value? : Option α}
    {json : Json} (h : OptionalSpelling spelling (members.get? key) value?)
    (hg : members.get? key = some json) (hn : json ≠ .null) :
    ∃ value, spelling json value ∧ value? = some value := by
  rw [hg, some_iff hn] at h
  obtain ⟨value, hv, rfl⟩ := h
  exact ⟨value, hv, rfl⟩

theorem OptionalSpelling.isSome_iff_has {α : Type} {spelling : Json → α → Prop} {value? : Option α}
    (h : OptionalSpelling spelling (members.get? key) value?) :
    value?.isSome ↔ Json.Has members key := by
  constructor
  · intro hv
    obtain ⟨value, rfl⟩ := Option.isSome_iff_exists.mp hv
    cases hg : members.get? key with
    | none =>
      rw [hg, none_iff] at h
      cases h
    | some json =>
      refine ⟨json, hg, ?_⟩
      rintro rfl
      rw [hg, null_iff] at h
      cases h
  · rintro ⟨json, hg, hn⟩
    obtain ⟨value, -, rfl⟩ := h.exists_of_get? hg hn
    rfl

theorem OptionalSpelling.map_ofUInt64 {count? : Option UInt64}
    (h : OptionalSpelling CountSpelling (members.get? key) count?) (hh : Json.Has members key) :
    count?.map .ofUInt64 = members.get? key := by
  obtain ⟨json, hg, hn⟩ := hh
  obtain ⟨count, rfl, rfl⟩ := h.exists_of_get? hg hn
  rw [hg, Option.map_some]

/-- A selection of no fields at all, by name or by flag. -/
theorem Fields.Spelling.toSelect_eq_nil {json : Json} {fields : Fields} (h : Spelling json fields)
    (he : json = .array [] ∨ json = .object []) : fields.toSelect = [] := by
  cases h with
  | names names =>
    obtain he | he := he
    · cases names with
      | nil => rfl
      | cons => cases he
    · cases he
  | flags flags =>
    obtain he | he := he
    · cases he
    · cases flags with
      | nil => rfl
      | cons => cases he

theorem OrderSpelling.eq_nil {order : List String} (h : OrderSpelling (.array []) order) :
    order = [] := by
  generalize hj : Json.array [] = json at h
  cases h with
  | entry => cases hj
  | entries order =>
    cases order with
    | nil => rfl
    | cons => cases hj

end Parts

/-- What survives in the JSON of a filter survives in the filter. -/
theorem Filter.Spelling.exists_of_survives {source part : Json} {path : List String}
    (hs : source.Survives path part) {filter : Filter} (h : Spelling source filter) :
    ∃ inner, filter.Survives path inner ∧ Spelling part inner := by
  induction hs generalizing filter with
  | root => exact ⟨filter, .root filter, h⟩
  | @scope members inner included scope part name path before after hi hd hn hs hp hl _ ih =>
    have hne : included ≠ .null := by
      -- The items of a null are that null alone, and it is not an object.
      rintro rfl
      have hm : Json.object inner ∈ Json.items .null := by
        rw [hd]
        exact List.mem_append_right _ (List.mem_cons_self ..)
      cases List.mem_singleton.mp hm
    cases h with
    | object _ inclusions =>
      obtain ⟨listed, hlisted, hf⟩ := inclusions.exists_of_get? hi hne
      rw [Inclusion.listSpelling_iff_forall₂, hd] at hlisted
      obtain ⟨first, inclusion, rest, rfl, hinc, hrest⟩ := exists_divided_of_forall₂ hlisted.flip
      obtain ⟨hname, hscope⟩ := Inclusion.spelling_object_iff.mp hinc
      rw [hn] at hname
      cases hname
      obtain ⟨below, hb, he⟩ := hscope.exists_of_get? hs hp
      obtain ⟨found, hfound, hpart⟩ := ih hb
      obtain _ | ⟨name, below⟩ := inclusion
      · cases he
      cases he
      refine ⟨found, .scope hf (fun later hm he => ?_) hfound, hpart⟩
      obtain ⟨item, hm, hi⟩ := exists_mem_of_forall₂ hrest hm
      exact hl item hm (he ▸ Inclusion.Spelling.namesRelation hi)

section Converted

variable {filter : Filter} {query : Query} {scope : Filter → Checked Query}

theorem presentAlike_of_toQuery {arrange : List (String × Json) → List (String × Json)}
    {members written : Keyed Json} {limit : Nat} (hf : Filter.Spelling (.object members) filter)
    (hq : filter.toQuery limit = .ok query) (hw : query.WrittenIn arrange written) :
    PresentAlike members written := by
  rw [Filter.toQuery_eq] at hq
  obtain ⟨hp, hskip, htake, ho, hc⟩ := Filter.toQueryWith_eq_ok_iff.mp hq
  obtain ⟨hselect, hrelations⟩ := Filter.parts_of_projectionWith hp
  cases hf with
  | object fields inclusions offset skip limit order condition =>
    constructor
    case select =>
      rw [hw.select, Option.isSome_map, hselect, Option.isSome_map]
      exact fields.isSome_iff_has
    case relations =>
      rw [hw.relations, Option.isSome_map, Checked.isSome_of_option_mapM hrelations]
      exact inclusions.isSome_iff_has
    case skip =>
      rw [hw.skip, Option.isSome_map, hskip, ← offset.isSome_iff_has, ← skip.isSome_iff_has]
      cases filter.offset <;> simp
    case take =>
      rw [hw.take, Option.isSome_map, htake]
      exact limit.isSome_iff_has
    case orderBy =>
      rw [hw.orderBy, Option.isSome_map, Checked.isSome_of_option_mapM ho]
      exact order.isSome_iff_has
    case condition =>
      rw [hw.condition, Option.isSome_map, Checked.isSome_of_option_mapM hc]
      exact condition.isSome_iff_has
    case take_eq =>
      intro hl
      rw [hw.take, htake]
      exact limit.map_ofUInt64 hl
    case skip_eq_offset =>
      intro ho
      obtain ⟨count, hcount⟩ := Option.isSome_iff_exists.mp (offset.isSome_iff_has.mpr ho)
      rw [hw.skip, hskip, ← offset.map_ofUInt64 ho, hcount]
      rfl
    case skip_eq_skip =>
      intro hn hs
      have hnone : filter.offset = none :=
        Option.not_isSome_iff_eq_none.mp (mt offset.isSome_iff_has.mp hn)
      rw [hw.skip, hskip, hnone]
      exact skip.map_ofUInt64 hs
    case select_empty =>
      intro json hg he
      have hn : json ≠ .null := by
        rcases he with rfl | rfl <;> nofun
      obtain ⟨listed, hl, hf⟩ := fields.exists_of_get? hg hn
      rw [hw.select, hselect, hf, Option.map_some, hl.toSelect_eq_nil he]
      rfl
    case relations_empty =>
      intro hg
      obtain ⟨listed, hl, hf⟩ := inclusions.exists_of_get? hg nofun
      cases Inclusion.listSpelling_iff_forall₂.mp hl
      have hr : query.relations? = some [] := by
        rw [hf] at hrelations
        exact (Except.ok.inj hrelations).symm
      rw [hw.relations, hr]
      rfl
    case orderBy_empty =>
      intro hg
      obtain ⟨listed, hl, hf⟩ := order.exists_of_get? hg nofun
      cases hl.eq_nil
      have hb : query.orderBy = some [] := by
        rw [hf] at ho
        exact (Except.ok.inj ho).symm
      rw [hw.orderBy, hb]
      rfl

end Converted

/-- Wherever a filter object of the source survives, there is one query object in the same place, and
it has a member just when the filter asks for it. -/
theorem presence_is_kept_on_every_level {options : Options} {source out : Json}
    (h : Filter.convertJson options source = .ok out) {path : List String} {part : Json}
    (hs : source.Survives path part) :
    ∃ members written, part = .object members ∧
      (∀ inner, out.Includes path inner ↔ inner = .object written) ∧
      PresentAlike members written := by
  rw [Filter.convertJson_eq_steps] at h
  obtain ⟨filter, hf, h⟩ := Checked.bind_eq_ok_iff.mp h
  obtain ⟨query, hq, rfl⟩ := map_eq_ok_iff.mp h
  have hsource : Filter.Spelling source filter := ((Filter.accepts_ofJson _ _ _).mp hf).1
  obtain ⟨found, hfound, hpart⟩ := hsource.exists_of_survives hs
  obtain ⟨inner, below, hh, hi⟩ := Filter.exists_query_of_survives hq hfound
  obtain ⟨written, he, hw⟩ := inner.exists_writtenIn rearranges_ofList
  have held : query.toJson.Includes path (.object written) :=
    he ▸ hh.includes rearranges_ofList
  obtain ⟨members, rfl⟩ : ∃ members, part = .object members := by
    cases hpart
    exact ⟨_, rfl⟩
  refine ⟨members, written, rfl, fun json => ?_, presentAlike_of_toQuery hpart hi hw⟩
  constructor
  · intro hj
    exact hj.unique held
  · rintro rfl
    exact held

theorem presence_in_last_of_two_scopes :
    let scope := Json.object [("fields", .array []), ("limit", .ofUInt64 0), ("offset", .null),
      ("order", .array []), ("skip", .ofUInt64 18446744073709551615)]
    let source := Json.object [("include", .array [
      .object [("relation", .string "posts"), ("scope", .object [("limit", .ofUInt64 5)])],
      .object [("relation", .string "posts"), ("scope", scope)]])]
    let out := Json.object [("include", .object [("posts", .object [("orderBy", .object []),
      ("select", .object []), ("skip", .ofUInt64 18446744073709551615), ("take", .ofUInt64 0)])])]
    Filter.convertJson { maxDepth := 1 } source = .ok out ∧ source.Survives ["posts"] scope ∧
      ∃ members written, scope = .object members ∧
        (∀ inner, out.Includes ["posts"] inner ↔ inner = .object written) ∧
        PresentAlike members written := by
  intro scope source out
  have h : Filter.convertJson { maxDepth := 1 } source = .ok out := rfl
  have hs : source.Survives ["posts"] scope :=
    @Json.Survives.scope _ _ _ scope _ _ _ [_] [] rfl rfl rfl rfl nofun nofun (.root scope)
  exact ⟨h, hs, presence_is_kept_on_every_level h hs⟩

end QueryDialect
