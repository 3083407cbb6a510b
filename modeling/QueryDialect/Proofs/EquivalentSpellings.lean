import Mathlib.Logic.Relation
import QueryDialect.Conversion.Ownership
import QueryDialect.Proofs.ReaderGrammar

namespace QueryDialect

/-- The keys of the members that a filter is read from. Each of them may be left out. -/
def Filter.keys : List String :=
  ["fields", "include", "offset", "skip", "limit", "order", "where"]

/-- The keys of the members that an inclusion is read from. Only the scope may be left out. -/
def Inclusion.keys : List String :=
  ["relation", "scope"]

/-- One more member that says nothing: it has none of the keys that are read, or a key that may be left
out and the value null. -/
inductive Json.Padded (keys optional : List String) (members : Keyed Json) : Keyed Json → Prop
  | unknown {key : String} (value : Json) (hk : key ∉ keys) (hn : members.get? key = none) :
    Padded keys optional members (members.insert key value)
  | null {key : String} (hk : key ∈ optional) (hn : members.get? key = none) :
    Padded keys optional members (members.insert key .null)

/-- A string or an object, which may stand for the list of it alone. -/
inductive Json.Single : Json → Prop
  | string (text : String) : Single (.string text)
  | object (members : Keyed Json) : Single (.object members)

/-- One change to an inclusion, apart from its scope. -/
inductive Inclusion.Variant : Json → Json → Prop
  | padded {members padded : Keyed Json} (h : Json.Padded keys ["scope"] members padded) :
    Variant (.object members) (.object padded)
  | name {members : Keyed Json} {name : String} (hn : members.get? "relation" = some (.string name))
      (hs : members.get? "scope" = none) :
    Variant (.object members) (.string name)

/-- One item is exchanged for another, alone or in a list. -/
inductive Json.Exchanged (item item' : Json) : Json → Json → Prop
  | alone : Exchanged item item' item item'
  | listed (before after : List Json) :
    Exchanged item item' (.array (before ++ item :: after)) (.array (before ++ item' :: after))

/-- One change to a filter or to one of its scopes, on any level. -/
inductive Filter.Variant : Json → Json → Prop
  | padded {members padded : Keyed Json} (h : Json.Padded keys keys members padded) :
    Variant (.object members) (.object padded)
  | order {members : Keyed Json} {entry : String}
      (ho : members.get? "order" = some (.string entry)) :
    Variant (.object members) (.object (members.insert "order" (.array [.string entry])))
  | listed {members : Keyed Json} {item : Json} (hi : members.get? "include" = some item)
      (hs : item.Single) :
    Variant (.object members) (.object (members.insert "include" (.array [item])))
  | inclusion {members : Keyed Json} {item item' included included' : Json}
      (hi : members.get? "include" = some included)
      (he : Json.Exchanged item item' included included') (hv : Inclusion.Variant item item') :
    Variant (.object members) (.object (members.insert "include" included'))
  | scope {members inner : Keyed Json} {scope scope' included included' : Json}
      (hi : members.get? "include" = some included)
      (he : Json.Exchanged (.object inner) (.object (inner.insert "scope" scope')) included included')
      (hs : inner.get? "scope" = some scope) (hv : Variant scope scope') :
    Variant (.object members) (.object (members.insert "include" included'))

/-- Changes lead from one to the other, each of them made or undone. -/
def Filter.Equivalent : Json → Json → Prop :=
  Relation.EqvGen Filter.Variant

theorem OptionalSpelling.null_iff_missing {α : Type} {spelling : Json → α → Prop}
    {value? : Option α} :
    OptionalSpelling spelling (some .null) value? ↔ OptionalSpelling spelling none value? :=
  null_iff.trans none_iff.symm

theorem OptionalSpelling.some_congr {α : Type} {spelling : Json → α → Prop} {value? : Option α}
    {json json' : Json} (hn : json ≠ .null) (hn' : json' ≠ .null)
    (h : ∀ value, spelling json' value ↔ spelling json value) :
    OptionalSpelling spelling (some json') value? ↔ OptionalSpelling spelling (some json) value? := by
  rw [some_iff hn', some_iff hn]
  exact exists_congr fun value => and_congr_left' (h value)

theorem Json.Single.ne_null {item : Json} (h : item.Single) : item ≠ .null := by
  intro he
  subst he
  cases h

/-- The items of an array, or the value alone. -/
def Json.items : Json → List Json
  | .array items => items
  | value => [value]

theorem Json.Single.items_eq {item : Json} (h : item.Single) : item.items = [item] := by
  cases h <;> rfl

theorem forall₂_exchanged_iff {α β : Type} {R : α → β → Prop} {item item' : α}
    (h : ∀ value, R item' value ↔ R item value) {before after : List α} {values : List β} :
    List.Forall₂ R (before ++ item' :: after) values ↔
      List.Forall₂ R (before ++ item :: after) values := by
  induction before generalizing values with
  | nil => simp only [List.nil_append, List.forall₂_cons_left_iff, h]
  | cons first rest ih => simp only [List.cons_append, List.forall₂_cons_left_iff, ih]

namespace Inclusion

variable {Scope : Type} {spelling : Json → Scope → Prop} {inclusion : Inclusion Scope}
  {inclusions : List (Inclusion Scope)} {members members' : Keyed Json} {item item' : Json}

/-- The filter for the related records, if there is one. -/
def scope? : Inclusion Scope → Option Scope
  | .relation _ => none
  | .scoped _ scope => some scope

theorem spelling_object_iff :
    Spelling spelling (.object members) inclusion ↔
      members.get? "relation" = some (.string inclusion.name) ∧
        OptionalSpelling spelling (members.get? "scope") inclusion.scope? := by
  constructor
  · intro h
    cases h with
    | withoutScope hn hs => exact ⟨hn, hs⟩
    | withScope hn hs => exact ⟨hn, hs⟩
  · rintro ⟨hn, hs⟩
    obtain name | ⟨name, filter⟩ := inclusion
    · exact .withoutScope hn hs
    · exact .withScope hn hs

theorem spelling_string_iff {name : String} :
    Spelling spelling (.string name) inclusion ↔ inclusion.name = name ∧ inclusion.scope? = none := by
  constructor
  · intro h
    cases h
    exact ⟨rfl, rfl⟩
  · rintro ⟨rfl, hs⟩
    obtain name | ⟨name, filter⟩ := inclusion
    · exact .name name
    · cases hs

theorem Spelling.single {json : Json} (h : Spelling spelling json inclusion) : json.Single := by
  cases h with
  | name => exact .string _
  | withoutScope => exact .object _
  | withScope => exact .object _

theorem listSpelling_iff_forall₂ {json : Json} :
    ListSpelling spelling json inclusions ↔
      List.Forall₂ (Spelling spelling) json.items inclusions := by
  constructor
  · intro h
    cases h with
    | list h => exact h
    | single h =>
      rw [h.single.items_eq]
      exact .cons h .nil
  · intro h
    cases json with
    | array items => exact .list h
    | _ =>
      obtain ⟨inclusion, rest, hi, hr, rfl⟩ := List.forall₂_cons_left_iff.mp h
      cases hr
      exact .single hi

theorem Variant.single (h : Variant item item') : item.Single ∧ item'.Single := by
  cases h with
  | padded => exact ⟨.object _, .object _⟩
  | name => exact ⟨.object _, .string _⟩

theorem spelling_padded_iff (h : Json.Padded keys ["scope"] members members') :
    Spelling spelling (.object members') inclusion ↔ Spelling spelling (.object members) inclusion := by
  rw [spelling_object_iff, spelling_object_iff]
  cases h with
  | @unknown key value hk hn =>
    have hr : key ≠ "relation" := fun he => hk (he ▸ by decide)
    have hs : key ≠ "scope" := fun he => hk (he ▸ by decide)
    rw [Keyed.get?_insert, if_neg hr, Keyed.get?_insert, if_neg hs]
  | @null key hk hn =>
    cases List.mem_singleton.mp hk
    rw [Keyed.get?_insert, if_neg (by decide), Keyed.get?_insert, if_pos rfl, hn,
      OptionalSpelling.null_iff_missing]

theorem Variant.spelling_iff (h : Variant item item') :
    Spelling spelling item' inclusion ↔ Spelling spelling item inclusion := by
  cases h with
  | padded hp => exact spelling_padded_iff hp
  | name hn hs =>
    rw [spelling_string_iff, spelling_object_iff, hn, hs, OptionalSpelling.none_iff,
      Option.some.injEq, Json.string.injEq, eq_comm]

end Inclusion

namespace Json.Exchanged

variable {item item' included included' : Json}

theorem ne_null (h : Exchanged item item' included included') (hs : item.Single) :
    included ≠ .null := by
  cases h with
  | alone => exact hs.ne_null
  | listed => nofun

theorem symm (h : Exchanged item item' included included') :
    Exchanged item' item included' included := by
  cases h with
  | alone => exact .alone
  | listed before after => exact .listed before after

theorem listSpelling_iff {Scope : Type} {spelling : Json → Scope → Prop}
    {inclusions : List (Inclusion Scope)} (h : Exchanged item item' included included')
    (hs : item.Single) (hs' : item'.Single)
    (hi : ∀ inclusion, Inclusion.Spelling spelling item' inclusion ↔
      Inclusion.Spelling spelling item inclusion) :
    Inclusion.ListSpelling spelling included' inclusions ↔
      Inclusion.ListSpelling spelling included inclusions := by
  rw [Inclusion.listSpelling_iff_forall₂, Inclusion.listSpelling_iff_forall₂]
  cases h with
  | alone =>
    rw [hs.items_eq, hs'.items_eq]
    exact @forall₂_exchanged_iff _ _ _ _ _ hi [] [] _
  | listed before after => exact forall₂_exchanged_iff hi

end Json.Exchanged

namespace Filter

variable {members members' : Keyed Json} {filter : Filter} {source source' : Json}

/-- What stands under a key spells the part of the filter that belongs there. -/
def PartSpelling (filter : Filter) (json? : Option Json) : String → Prop
  | "fields" => OptionalSpelling Fields.Spelling json? filter.fields
  | "include" => OptionalSpelling (Inclusion.ListSpelling Spelling) json? filter.inclusions
  | "offset" => OptionalSpelling CountSpelling json? filter.offset
  | "skip" => OptionalSpelling CountSpelling json? filter.skip
  | "limit" => OptionalSpelling CountSpelling json? filter.limit
  | "order" => OptionalSpelling OrderSpelling json? filter.order
  | "where" => OptionalSpelling Clause.Spelling json? filter.condition
  | _ => True

theorem spelling_object_iff :
    Spelling (.object members) filter ↔
      ∀ key ∈ keys, filter.PartSpelling (members.get? key) key := by
  constructor
  · intro h
    cases h with
    | object fields inclusions offset skip limit order condition =>
      simp only [keys, List.forall_mem_cons]
      exact ⟨fields, inclusions, offset, skip, limit, order, condition, nofun⟩
  · intro h
    exact .object (h "fields" (by decide)) (h "include" (by decide)) (h "offset" (by decide))
      (h "skip" (by decide)) (h "limit" (by decide)) (h "order" (by decide))
      (h "where" (by decide))

theorem partSpelling_null_iff {key : String} (hk : key ∈ keys) :
    filter.PartSpelling (some .null) key ↔ filter.PartSpelling none key := by
  simp only [keys, List.mem_cons, List.not_mem_nil, or_false] at hk
  rcases hk with rfl | rfl | rfl | rfl | rfl | rfl | rfl <;>
    exact OptionalSpelling.null_iff_missing

theorem spelling_insert_iff {key : String} {json : Json}
    (h : key ∈ keys →
      (filter.PartSpelling (some json) key ↔ filter.PartSpelling (members.get? key) key)) :
    Spelling (.object (members.insert key json)) filter ↔ Spelling (.object members) filter := by
  rw [spelling_object_iff, spelling_object_iff]
  refine forall₂_congr fun other hk => ?_
  rw [Keyed.get?_insert]
  split
  next he =>
    subst he
    exact h hk
  next => exact Iff.rfl

theorem spelling_padded_iff (h : Json.Padded keys keys members members') :
    Spelling (.object members') filter ↔ Spelling (.object members) filter := by
  cases h with
  | unknown value hk hn => exact spelling_insert_iff fun hk' => absurd hk' hk
  | @null key hk hn =>
    refine spelling_insert_iff fun _ => ?_
    rw [hn]
    exact partSpelling_null_iff hk

theorem spelling_insert_include_iff {included included' : Json}
    (hi : members.get? "include" = some included) (hn : included ≠ .null) (hn' : included' ≠ .null)
    (hl : ∀ inclusions, Inclusion.ListSpelling Spelling included' inclusions ↔
      Inclusion.ListSpelling Spelling included inclusions) :
    Spelling (.object (members.insert "include" included')) filter ↔
      Spelling (.object members) filter := by
  refine spelling_insert_iff fun _ => ?_
  rw [hi]
  exact OptionalSpelling.some_congr hn hn' hl

theorem spelling_exchanged_iff {item item' included included' : Json}
    (hi : members.get? "include" = some included)
    (he : Json.Exchanged item item' included included') (hs : item.Single) (hs' : item'.Single)
    (h : ∀ inclusion, Inclusion.Spelling Spelling item' inclusion ↔
      Inclusion.Spelling Spelling item inclusion) :
    Spelling (.object (members.insert "include" included')) filter ↔
      Spelling (.object members) filter :=
  spelling_insert_include_iff hi (he.ne_null hs) (he.symm.ne_null hs')
    fun _ => he.listSpelling_iff hs hs' h

theorem orderSpelling_singleton_iff {entry : String} (order : List String) :
    OrderSpelling (.array [.string entry]) order ↔ OrderSpelling (.string entry) order := by
  rw [← accepts_orderOfJson _ order, ← accepts_orderOfJson _ order]
  exact Iff.rfl

theorem Variant.ne_null (h : Variant source source') : source ≠ .null ∧ source' ≠ .null := by
  cases h <;> exact ⟨nofun, nofun⟩

/-- A change leaves alone what is spelled. The induction follows the scopes down to the one that is
changed. -/
theorem Variant.spelling_iff (h : Variant source source') (filter : Filter) :
    Spelling source' filter ↔ Spelling source filter := by
  induction h generalizing filter with
  | padded hp => exact spelling_padded_iff hp
  | order ho =>
    refine spelling_insert_iff fun _ => ?_
    rw [ho]
    exact OptionalSpelling.some_congr nofun nofun orderSpelling_singleton_iff
  | listed hi hs =>
    refine spelling_insert_include_iff hi hs.ne_null nofun fun inclusions => ?_
    rw [Inclusion.listSpelling_iff_forall₂, Inclusion.listSpelling_iff_forall₂, hs.items_eq]
    exact Iff.rfl
  | inclusion hi he hv =>
    obtain ⟨hs, hs'⟩ := hv.single
    exact spelling_exchanged_iff hi he hs hs' fun _ => hv.spelling_iff
  | @scope members inner scope scope' included included' hi he hs hv ih =>
    obtain ⟨hn, hn'⟩ := hv.ne_null
    refine spelling_exchanged_iff hi he (.object _) (.object _) fun inclusion => ?_
    rw [Inclusion.spelling_object_iff, Inclusion.spelling_object_iff, Keyed.get?_insert,
      if_neg (by decide), Keyed.get?_insert, if_pos rfl, hs]
    exact and_congr_right' (OptionalSpelling.some_congr hn hn' ih)

theorem Equivalent.spelling_iff (h : Equivalent source source') (filter : Filter) :
    Spelling source filter ↔ Spelling source' filter := by
  induction h with
  | rel source source' hv => exact (hv.spelling_iff filter).symm
  | refl source => exact Iff.rfl
  | symm source source' _ ih => exact ih.symm
  | trans source between source' _ _ first second => exact first.trans second

end Filter

/-- Equivalent spellings are read alike under every limit, and if one of them is read, both are converted
alike. -/
theorem equivalent_spellings_are_converted_alike {source source' : Json}
    (h : Filter.Equivalent source source') :
    (∀ limit filter, Filter.ofJson limit source = .ok filter ↔
      Filter.ofJson limit source' = .ok filter) ∧
    ∀ options filter, Filter.ofJson options.limit source = .ok filter →
      Filter.convertJson options source = Filter.convertJson options source' := by
  have read : ∀ limit filter, Filter.ofJson limit source = .ok filter ↔
      Filter.ofJson limit source' = .ok filter := by
    intro limit filter
    refine (Filter.accepts_ofJson limit source filter).trans ?_
    refine Iff.trans ?_ (Filter.accepts_ofJson limit source' filter).symm
    exact and_congr_left' (h.spelling_iff filter)
  refine ⟨read, fun options filter hf => ?_⟩
  have hf' : Filter.ofJson options.limit source' = .ok filter := (read options.limit filter).mp hf
  rw [Filter.convertJson, Filter.convertJson, hf, hf']

theorem scoped_spellings_are_converted_alike :
    let within (scope : Json) := Json.object [("include", .array [.string "tags",
      .object [("relation", .string "orders"), ("scope", scope)]])]
    let scope (included order : Json) := Json.object [("include", included), ("order", order)]
    let items := Json.object [("relation", .string "items")]
    let source := within (scope (.string "items") (.string "age"))
    let source' := within (.object [("include", .array [items]), ("limit", .null),
      ("order", .array [.string "age"])])
    Filter.Equivalent source source' ∧ (∃ filter, Filter.ofJson 1 source = .ok filter) ∧
      Filter.convertJson { maxDepth := 1 } source = Filter.convertJson { maxDepth := 1 } source' := by
  intro within scope items source source'
  have lift : ∀ {inner inner' : Json}, Filter.Variant inner inner' →
      Filter.Equivalent (within inner) (within inner') :=
    fun hv => .rel _ _ (.scope rfl (.listed [.string "tags"] []) rfl hv)
  have listed : Filter.Variant (scope (.string "items") (.string "age"))
      (scope (.array [.string "items"]) (.string "age")) :=
    .listed rfl (.string "items")
  have named : Filter.Variant (scope (.array [items]) (.string "age"))
      (scope (.array [.string "items"]) (.string "age")) :=
    .inclusion rfl (.listed [] []) (.name rfl rfl)
  have ordered : Filter.Variant (scope (.array [items]) (.string "age"))
      (scope (.array [items]) (.array [.string "age"])) :=
    .order rfl
  have padded : Filter.Variant (scope (.array [items]) (.array [.string "age"]))
      (.object [("include", .array [items]), ("limit", .null), ("order", .array [.string "age"])]) :=
    .padded (@Json.Padded.null _ _ _ "limit" (by decide) rfl)
  have h : Filter.Equivalent source source' :=
    .trans _ _ _ (lift listed) <| .trans _ _ _ (.symm _ _ (lift named)) <|
      .trans _ _ _ (lift ordered) (lift padded)
  have read : Filter.ofJson 1 source = .ok { inclusions := some [.relation "tags",
      .scoped "orders" { inclusions := some [.relation "items"], order := some ["age"] }] } := by
    simp only [source, within, scope]
    rfl
  exact ⟨h, ⟨_, read⟩, (equivalent_spellings_are_converted_alike h).2 { maxDepth := 1 } _ read⟩

end QueryDialect
