import QueryDialect.Proofs.DistinctKeys
import QueryDialect.Proofs.DroppedMembers
import QueryDialect.Proofs.Scopes

namespace QueryDialect

namespace Keyed

variable {α : Type} {entries : Keyed (Option α)}

/-- The entries for which there is a value. -/
def present (entries : Keyed (Option α)) : Keyed α :=
  entries.filterMap fun entry => entry.2.map (entry.1, ·)

theorem mem_present_iff {key : String} {value : α} :
    (key, value) ∈ entries.present ↔ (key, some value) ∈ entries := by
  simp only [present, List.mem_filterMap, Option.map_eq_some_iff, Prod.mk.injEq]
  constructor
  · rintro ⟨⟨name, found⟩, hm, _, rfl, rfl, rfl⟩
    exact hm
  · intro hm
    exact ⟨_, hm, value, rfl, rfl, rfl⟩

theorem sorted_present (hs : entries.Sorted) : entries.present.Sorted := by
  refine hs.filterMap _ ?_
  rintro ⟨key, value⟩ ⟨key', value'⟩ hlt entry he entry' he'
  obtain ⟨_, -, rfl⟩ := Option.map_eq_some_iff.mp he
  obtain ⟨_, -, rfl⟩ := Option.map_eq_some_iff.mp he'
  exact hlt

theorem distinct_present (hd : entries.Distinct) : entries.present.Distinct := by
  refine List.pairwise_map.mpr ((List.pairwise_map.mp hd).filterMap _ ?_)
  rintro ⟨key, value⟩ ⟨key', value'⟩ hne entry he entry' he'
  obtain ⟨_, -, rfl⟩ := Option.map_eq_some_iff.mp he
  obtain ⟨_, -, rfl⟩ := Option.map_eq_some_iff.mp he'
  exact hne

theorem get?_present (hd : entries.Distinct) (key : String) :
    entries.present.get? key = (entries.get? key).join := by
  ext value
  rw [get?_eq_some_iff_mem (distinct_present hd), mem_present_iff, Option.join_eq_some_iff,
    get?_eq_some_iff_mem hd]

end Keyed

def Fields.spelled : Fields → Json
  | .names listed => .array (listed.map .string)
  | .flags listed => .object (listed.map fun flag => (flag.1, .bool flag.2))

def Condition.spelled : Condition → Json
  | .literal value => value
  | .operator kind operand => .object [(kind.key, operand)]

mutual

def Clause.spelled : Clause → Json
  | .and children => .object [("and", .array (Clause.listSpelled children))]
  | .or children => .object [("or", .array (Clause.listSpelled children))]
  | .field name condition => .object [(name, condition.spelled)]

def Clause.listSpelled : List Clause → List Json
  | [] => []
  | child :: rest => child.spelled :: Clause.listSpelled rest

end

mutual

/-- The canonical spelling has a member for each part that is set, and names a relation without a
scope by a string. -/
def Filter.spelled : Filter → Json
  | { fields, inclusions, offset, skip, limit, order, condition } =>
    .object <| Keyed.present
      [("fields", fields.map Fields.spelled),
        ("include", Filter.inclusionsSpelled? inclusions),
        ("limit", limit.map .ofUInt64),
        ("offset", offset.map .ofUInt64),
        ("order", order.map fun entries => .array (entries.map .string)),
        ("skip", skip.map .ofUInt64),
        ("where", condition.map Clause.spelled)]

def Filter.inclusionsSpelled? : Option (List (Inclusion Filter)) → Option Json
  | none => none
  | some inclusions => some (.array (Filter.inclusionsSpelled inclusions))

def Filter.inclusionsSpelled : List (Inclusion Filter) → List Json
  | [] => []
  | .relation name :: rest => .string name :: Filter.inclusionsSpelled rest
  | .scoped name scope :: rest =>
    .object [("relation", .string name), ("scope", scope.spelled)] :: Filter.inclusionsSpelled rest

end

/-- A leaf that a JSON source can spell, with a value that is one itself. -/
structure Condition.Spellable (name : String) (condition : Condition) : Prop where
  readable : condition.Readable name
  value_sorted : condition.value.Sorted

/-- What a spelling asks of a filter on its own level. -/
structure Filter.Spellable (filter : Filter) : Prop where
  flags_sorted : ∀ flags, filter.fields = some (.flags flags) → Keyed.Sorted flags
  leaves_spellable : ∀ tree, filter.condition = some tree → tree.AllLeaves Condition.Spellable

theorem Json.Sorted.of_get? {members : Keyed Json} {key : String} {value : Json}
    (hs : Json.Sorted (.object members)) (h : members.get? key = some value) : value.Sorted := by
  cases hs with
  | object _ hm => exact hm _ (Keyed.mem_of_get?_eq_some h)

theorem Json.Sorted.of_mem {items : List Json} (hs : Json.Sorted (.array items)) :
    ∀ item ∈ items, item.Sorted := by
  cases hs with
  | array h => exact h

theorem Json.sorted_object_singleton_iff {name : String} {value : Json} :
    Json.Sorted (.object [(name, value)]) ↔ value.Sorted := by
  constructor
  · intro h
    cases h with
    | object _ hm => exact hm (name, value) (List.mem_singleton_self _)
  · intro h
    exact .object (List.pairwise_singleton _ _) (by simpa using h)

theorem Json.sorted_of_strings (texts : List String) : Json.Sorted (.array (texts.map .string)) := by
  refine .array fun item hm => ?_
  obtain ⟨text, -, rfl⟩ := List.mem_map.mp hm
  exact .string text

theorem OptionalSpelling.of_map {α : Type} {spelling : Json → α → Prop} {write : α → Json}
    {value? : Option α}
    (h : ∀ value, value? = some value → write value ≠ .null ∧ spelling (write value) value) :
    OptionalSpelling spelling (value?.map write) value? := by
  cases value? with
  | none => exact .missing
  | some value => exact .present (h value rfl).1 (h value rfl).2

theorem OptionalSpelling.exists_of_some {α : Type} {spelling : Json → α → Prop} {json? : Option Json}
    {value : α} (h : OptionalSpelling spelling json? (some value)) :
    ∃ json, json? = some json ∧ spelling json value := by
  cases h with
  | present _ h => exact ⟨_, rfl, h⟩

theorem Fields.spelling_spelled (fields : Fields) : Fields.Spelling fields.spelled fields := by
  cases fields with
  | names names => exact .names names
  | flags flags => exact .flags flags

theorem Fields.sorted_spelled {fields : Fields}
    (h : ∀ flags, fields = .flags flags → Keyed.Sorted flags) : fields.spelled.Sorted := by
  cases fields with
  | names names => exact Json.sorted_of_strings names
  | flags flags =>
    refine .object (Keyed.sorted_map_iff.mpr (h flags rfl)) fun member hm => ?_
    obtain ⟨flag, -, rfl⟩ := List.mem_map.mp hm
    exact .bool flag.2

theorem Fields.Spelling.flags_sorted {json : Json} {flags : List (String × Bool)}
    (h : Fields.Spelling json (.flags flags)) (hs : json.Sorted) : Keyed.Sorted flags := by
  cases h
  cases hs with
  | object hk _ => exact Keyed.sorted_map_iff.mp hk

namespace Condition

variable {name : String} {condition : Condition}

theorem spelling_spelled (h : condition.Readable name) :
    Spelling condition.spelled condition := by
  cases condition with
  | literal value => exact .literal fun members he => h.2.2 members (by rw [← he]; rfl)
  | operator kind operand =>
    obtain ⟨before, after, hp, hn⟩ := List.eq_append_cons_of_mem kind.mem_priority
    refine .operator hp (by simp [Keyed.get?]) fun other hm => ?_
    refine Keyed.get?_singleton_eq_none_iff.mpr fun hk => hn ?_
    have he : other = kind := by
      rw [← Option.some.injEq, ← Operator.ofKey?_key other, ← hk, Operator.ofKey?_key]
    exact he ▸ hm

theorem sorted_spelled_iff : condition.spelled.Sorted ↔ condition.value.Sorted := by
  cases condition with
  | literal value => exact Iff.rfl
  | operator kind operand => exact Json.sorted_object_singleton_iff

theorem Spelling.value_sorted {json : Json} (h : Spelling json condition) (hs : json.Sorted) :
    condition.value.Sorted := by
  cases h with
  | literal => exact hs
  | operator _ ho => exact hs.of_get? ho

theorem Spelling.ne_object {json : Json} (h : Spelling json condition) (members : Keyed Json) :
    condition ≠ .literal (.object members) := by
  cases h with
  | literal hn => exact fun he => hn members (Condition.literal.inj he)
  | operator => exact nofun

end Condition

namespace Clause

theorem listSpelled_eq_map (children : List Clause) :
    listSpelled children = children.map spelled := by
  induction children with
  | nil => rfl
  | cons child rest ih => rw [listSpelled, ih, List.map_cons]

theorem spelling_listSpelled {children : List Clause}
    (h : ∀ child ∈ children, Spelling child.spelled child) :
    List.Forall₂ Spelling (listSpelled children) children := by
  rw [listSpelled_eq_map, List.forall₂_map_left_iff]
  exact List.forall₂_same.mpr h

theorem sorted_listSpelled {children : List Clause} (h : ∀ child ∈ children, child.spelled.Sorted) :
    Json.Sorted (.array (listSpelled children)) := by
  rw [listSpelled_eq_map]
  exact .array (List.forall_mem_map.mpr h)

theorem spelling_spelled {clause : Clause} (h : clause.AllLeaves Condition.Spellable) :
    Spelling clause.spelled clause := by
  induction clause with
  | and children ih =>
    have hc := allLeaves_and_iff.mp h
    exact .and rfl (spelling_listSpelled fun child hm => ih child hm (hc child hm))
  | or children ih =>
    have hc := allLeaves_or_iff.mp h
    exact .or rfl rfl (spelling_listSpelled fun child hm => ih child hm (hc child hm))
  | field name condition =>
    obtain ⟨ha, ho, hl⟩ := (allLeaves_field_iff.mp h).readable
    exact .field ha ho (Condition.spelling_spelled ⟨ha, ho, hl⟩)

theorem sorted_spelled {clause : Clause} (h : clause.AllLeaves Condition.Spellable) :
    clause.spelled.Sorted := by
  induction clause with
  | and children ih =>
    have hc := allLeaves_and_iff.mp h
    exact Json.sorted_object_singleton_iff.mpr
      (sorted_listSpelled fun child hm => ih child hm (hc child hm))
  | or children ih =>
    have hc := allLeaves_or_iff.mp h
    exact Json.sorted_object_singleton_iff.mpr
      (sorted_listSpelled fun child hm => ih child hm (hc child hm))
  | field name condition =>
    have hl := allLeaves_field_iff.mp h
    exact Json.sorted_object_singleton_iff.mpr (Condition.sorted_spelled_iff.mpr hl.value_sorted)

theorem Spelling.allLeaves_spellable {json : Json} {clause : Clause} (h : Spelling json clause)
    (hs : json.Sorted) : clause.AllLeaves Condition.Spellable := by
  induction clause generalizing json with
  | and children ih =>
    cases h with
    | and ha hl =>
      refine .and fun child hm => ?_
      obtain ⟨item, hi, hc⟩ := exists_mem_of_forall₂ hl.flip hm
      exact ih child hm hc ((hs.of_get? ha).of_mem item hi)
  | or children ih =>
    cases h with
    | or _ ho hl =>
      refine .or fun child hm => ?_
      obtain ⟨item, hi, hc⟩ := exists_mem_of_forall₂ hl.flip hm
      exact ih child hm hc ((hs.of_get? ho).of_mem item hi)
  | field name condition =>
    cases h with
    | field ha ho h =>
      have hv := h.value_sorted (Json.sorted_object_singleton_iff.mp hs)
      exact .field ⟨⟨ha, ho, h.ne_object⟩, hv⟩

end Clause

def Inclusion.spelled : Inclusion Filter → Json
  | .relation name => .string name
  | .scoped name scope => .object [("relation", .string name), ("scope", scope.spelled)]

theorem Filter.inclusionsSpelled_eq_map (inclusions : List (Inclusion Filter)) :
    Filter.inclusionsSpelled inclusions = inclusions.map Inclusion.spelled := by
  induction inclusions with
  | nil => rfl
  | cons inclusion rest ih =>
    cases inclusion <;> simp only [inclusionsSpelled, ih, List.map_cons, Inclusion.spelled]

/-- The members of the canonical spelling, in the order of their keys. -/
def Filter.members (filter : Filter) : Keyed (Option Json) :=
  [("fields", filter.fields.map Fields.spelled),
    ("include", filter.inclusions.map fun inclusions => .array (inclusions.map Inclusion.spelled)),
    ("limit", filter.limit.map .ofUInt64),
    ("offset", filter.offset.map .ofUInt64),
    ("order", filter.order.map fun entries => .array (entries.map .string)),
    ("skip", filter.skip.map .ofUInt64),
    ("where", filter.condition.map Clause.spelled)]

theorem Filter.spelled_eq (filter : Filter) : filter.spelled = .object filter.members.present := by
  obtain ⟨fields, inclusions, offset, skip, limit, order, condition⟩ := filter
  have hi : inclusionsSpelled? inclusions =
      inclusions.map fun inclusions => .array (inclusions.map Inclusion.spelled) := by
    cases inclusions with
    | none => rfl
    | some inclusions => rw [inclusionsSpelled?, inclusionsSpelled_eq_map, Option.map_some]
  rw [spelled, hi, members]

theorem Filter.sorted_members (filter : Filter) : filter.members.Sorted := by
  have hk : (filter.members.map (·.1)).Pairwise (· < ·) := by
    change ["fields", "include", "limit", "offset", "order", "skip", "where"].Pairwise (· < ·)
    decide
  exact List.pairwise_map.mp hk

theorem Filter.spelled_ne_null (filter : Filter) : filter.spelled ≠ .null := by
  rw [spelled_eq]
  exact nofun

theorem Clause.spelled_ne_null (clause : Clause) : clause.spelled ≠ .null := by
  cases clause <;> exact nofun

theorem Inclusion.spelling_spelled {inclusion : Inclusion Filter}
    (h : ∀ name scope, inclusion = .scoped name scope → Filter.Spelling scope.spelled scope) :
    Inclusion.Spelling Filter.Spelling inclusion.spelled inclusion := by
  obtain name | ⟨name, scope⟩ := inclusion
  · exact .name name
  · exact .withScope rfl (.present scope.spelled_ne_null (h name scope rfl))

theorem Inclusion.listSpelling_spelled {inclusions : List (Inclusion Filter)}
    (h : ∀ scope : Filter, scope.IsScopeIn inclusions → Filter.Spelling scope.spelled scope) :
    Inclusion.ListSpelling Filter.Spelling (.array (inclusions.map Inclusion.spelled))
      inclusions := by
  refine .list (List.forall₂_map_left_iff.mpr (List.forall₂_same.mpr fun inclusion hm => ?_))
  exact Inclusion.spelling_spelled fun name scope he => h scope ⟨name, he ▸ hm⟩

theorem Inclusion.sorted_spelled {inclusion : Inclusion Filter}
    (h : ∀ name scope, inclusion = .scoped name scope → scope.spelled.Sorted) :
    inclusion.spelled.Sorted := by
  obtain name | ⟨name, scope⟩ := inclusion
  · exact .string name
  · have hk : Keyed.Sorted [("relation", Json.string name), ("scope", scope.spelled)] := by
      refine List.pairwise_pair.mpr ?_
      change "relation" < "scope"
      decide
    refine .object hk (List.forall_mem_cons.mpr ⟨.string name, ?_⟩)
    simpa using h name scope rfl

theorem Inclusion.ListSpelling.exists_of_isScopeIn {json : Json}
    {inclusions : List (Inclusion Filter)} {scope : Filter}
    (h : Inclusion.ListSpelling Filter.Spelling json inclusions) (hs : scope.IsScopeIn inclusions) :
    ∃ inner, Filter.Spelling inner scope ∧ (json.Sorted → inner.Sorted) := by
  obtain ⟨name, hm⟩ := hs
  have single : ∀ item : Json, Inclusion.Spelling Filter.Spelling item (.scoped name scope) →
      ∃ inner, Filter.Spelling inner scope ∧ (item.Sorted → inner.Sorted) := by
    intro item h
    cases h with
    | withScope _ hf =>
      obtain ⟨inner, hg, hf⟩ := hf.exists_of_some
      exact ⟨inner, hf, fun hi => hi.of_get? hg⟩
  cases h with
  | list hl =>
    obtain ⟨item, hi, h⟩ := exists_mem_of_forall₂ hl.flip hm
    obtain ⟨inner, hf, hs⟩ := single item h
    exact ⟨inner, hf, fun hj => hs (hj.of_mem item hi)⟩
  | single h => exact single json (List.mem_singleton.mp hm ▸ h)

/-- Every filter inside a spelled one is spelled somewhere in the same value. -/
theorem Filter.Spelling.exists_of_reaches {json : Json} {filter part : Filter}
    (h : Filter.Spelling json filter) (hr : filter.Reaches part) :
    ∃ inner, Filter.Spelling inner part ∧ (json.Sorted → inner.Sorted) := by
  induction hr generalizing json with
  | self => exact ⟨json, h, id⟩
  | scope hi hs _ ih =>
    cases h with
    | object _ inclusions =>
      obtain ⟨value, hg, hl⟩ := (hi ▸ inclusions).exists_of_some
      obtain ⟨outer, ho, hso⟩ := hl.exists_of_isScopeIn hs
      obtain ⟨inner, hin, hsi⟩ := ih ho
      exact ⟨inner, hin, fun hj => hsi (hso (hj.of_get? hg))⟩

namespace Filter

theorem spelling_spelled {filter : Filter} (h : ∀ part, filter.Reaches part → part.Spellable) :
    Spelling filter.spelled filter := by
  induction filter using Filter.induction with
  | step filter ih =>
    obtain ⟨hf, hs⟩ := forall_reaches_iff.mp h
    have member := Keyed.get?_present filter.sorted_members.distinct
    have count : ∀ count? : Option UInt64,
        OptionalSpelling CountSpelling (count?.map .ofUInt64) count? :=
      fun _ => .of_map fun _ _ => ⟨nofun, rfl⟩
    rw [spelled_eq]
    refine .object ?_ ?_ ?_ ?_ ?_ ?_ ?_ <;> rw [member]
    · exact .of_map fun fields _ => ⟨by cases fields <;> nofun, fields.spelling_spelled⟩
    · refine .of_map fun inclusions hi => ⟨nofun, Inclusion.listSpelling_spelled fun scope hm => ?_⟩
      exact ih inclusions hi scope hm (hs inclusions hi scope hm)
    · exact count filter.offset
    · exact count filter.skip
    · exact count filter.limit
    · exact .of_map fun entries _ => ⟨nofun, .entries entries⟩
    · refine .of_map fun tree ht => ⟨tree.spelled_ne_null, ?_⟩
      exact Clause.spelling_spelled (hf.leaves_spellable tree ht)

theorem sorted_spelled {filter : Filter} (h : ∀ part, filter.Reaches part → part.Spellable) :
    filter.spelled.Sorted := by
  induction filter using Filter.induction with
  | step filter ih =>
    obtain ⟨hf, hs⟩ := forall_reaches_iff.mp h
    have hv : ∀ member ∈ filter.members, ∀ value, member.2 = some value → value.Sorted := by
      simp only [members, List.forall_mem_cons, Option.map_eq_some_iff]
      refine ⟨?_, ?_, ?_, ?_, ?_, ?_, ?_, by simp⟩
      · rintro _ ⟨fields, he, rfl⟩
        exact Fields.sorted_spelled fun flags hfl => hf.flags_sorted flags (hfl ▸ he)
      · rintro _ ⟨inclusions, hi, rfl⟩
        refine .array (List.forall_mem_map.mpr fun inclusion hm => ?_)
        refine Inclusion.sorted_spelled fun name scope he => ?_
        have hsc : scope.IsScopeIn inclusions := ⟨name, he ▸ hm⟩
        exact ih inclusions hi scope hsc (hs inclusions hi scope hsc)
      · rintro _ ⟨count, -, rfl⟩
        exact .number _
      · rintro _ ⟨count, -, rfl⟩
        exact .number _
      · rintro _ ⟨entries, -, rfl⟩
        exact Json.sorted_of_strings entries
      · rintro _ ⟨count, -, rfl⟩
        exact .number _
      · rintro _ ⟨tree, ht, rfl⟩
        exact Clause.sorted_spelled (hf.leaves_spellable tree ht)
    rw [spelled_eq]
    refine .object (Keyed.sorted_present filter.sorted_members) fun member hm => ?_
    exact hv _ (Keyed.mem_present_iff.mp hm) member.2 rfl

theorem Spelling.spellable {json : Json} {filter : Filter} (h : Spelling json filter)
    (hj : json.Sorted) : filter.Spellable := by
  cases h with
  | object fields _ _ _ _ _ condition =>
    refine ⟨fun flags hf => ?_, fun tree ht => ?_⟩
    · obtain ⟨value, hg, hv⟩ := (hf ▸ fields).exists_of_some
      exact hv.flags_sorted (hj.of_get? hg)
    · obtain ⟨value, hg, hv⟩ := (ht ▸ condition).exists_of_some
      exact hv.allLeaves_spellable (hj.of_get? hg)

end Filter

theorem Filter.spellable_of_ofJson {limit : Nat} {json : Json} {filter : Filter}
    (h : json.Sorted ∧ Filter.ofJson limit json = .ok filter) :
    (∀ part, filter.Reaches part → part.Spellable) ∧ filter.depth ≤ limit := by
  obtain ⟨hs, hd⟩ := (Filter.accepts_ofJson limit json filter).mp h.2
  refine ⟨fun part hr => ?_, hd⟩
  obtain ⟨inner, hp, hi⟩ := hs.exists_of_reaches hr
  exact hp.spellable (hi h.1)

theorem Filter.ofJson_spelled {limit : Nat} {filter : Filter}
    (h : (∀ part, filter.Reaches part → part.Spellable) ∧ filter.depth ≤ limit) :
    filter.spelled.Sorted ∧ Filter.ofJson limit filter.spelled = .ok filter := by
  have hr := (Filter.accepts_ofJson limit _ filter).mpr ⟨Filter.spelling_spelled h.1, h.2⟩
  exact ⟨Filter.sorted_spelled h.1, hr⟩

theorem Clause.spellable_of_ofJson {limit : Nat} {json : Json} {clause : Clause}
    (h : json.Sorted ∧ Clause.ofJson limit json = .ok clause) :
    clause.AllLeaves Condition.Spellable ∧ clause.depth ≤ limit := by
  obtain ⟨hs, hd⟩ := (Clause.accepts_ofJson limit json clause).mp h.2
  exact ⟨hs.allLeaves_spellable h.1, hd⟩

theorem Clause.ofJson_spelled {limit : Nat} {clause : Clause}
    (h : clause.AllLeaves Condition.Spellable ∧ clause.depth ≤ limit) :
    clause.spelled.Sorted ∧ Clause.ofJson limit clause.spelled = .ok clause := by
  have hr := (Clause.accepts_ofJson limit _ clause).mpr ⟨Clause.spelling_spelled h.1, h.2⟩
  exact ⟨Clause.sorted_spelled h.1, hr⟩

/-- If a condition is necessary for some value to fit, and sufficient for the canonical one to fit,
then either fits just under that condition. -/
theorem iffs_of_canonical {α : Type} {fits : α → Prop} {canonical : α} {condition : Prop}
    (hn : ∀ value, fits value → condition) (hs : condition → fits canonical) :
    ((∃ value, fits value) ↔ condition) ∧ (fits canonical ↔ condition) := by
  refine ⟨⟨?_, fun h => ⟨canonical, hs h⟩⟩, hn canonical, hs⟩
  rintro ⟨value, h⟩
  exact hn value h

/-- A filter is read from some JSON value just when it is spellable on every level and not too deep,
and then its canonical spelling is such a value. The same holds of clauses. -/
theorem read_filters_are_spellable (limit : Nat) :
    (∀ filter : Filter,
      ((∃ json : Json, json.Sorted ∧ Filter.ofJson limit json = .ok filter) ↔
        (∀ part, filter.Reaches part → part.Spellable) ∧ filter.exceedsDepth limit = false) ∧
      (filter.spelled.Sorted ∧ Filter.ofJson limit filter.spelled = .ok filter ↔
        (∀ part, filter.Reaches part → part.Spellable) ∧ filter.exceedsDepth limit = false)) ∧
    ∀ clause : Clause,
      ((∃ json : Json, json.Sorted ∧ Clause.ofJson limit json = .ok clause) ↔
        clause.AllLeaves Condition.Spellable ∧ clause.exceedsDepth limit = false) ∧
      (clause.spelled.Sorted ∧ Clause.ofJson limit clause.spelled = .ok clause ↔
        clause.AllLeaves Condition.Spellable ∧ clause.exceedsDepth limit = false) := by
  have exceeds {depth : Nat} {exceeds : Bool} (he : exceeds = true ↔ limit < depth) :
      exceeds = false ↔ depth ≤ limit := by
    rw [← Bool.not_eq_true, he, Nat.not_lt]
  constructor
  · intro filter
    rw [exceeds Filter.exceedsDepth_iff]
    exact iffs_of_canonical (fun _ => Filter.spellable_of_ofJson) Filter.ofJson_spelled
  · intro clause
    rw [exceeds Clause.exceedsDepth_iff]
    exact iffs_of_canonical (fun _ => Clause.spellable_of_ofJson) Clause.ofJson_spelled

/-- A field that is called like a combinator is taken for one. -/
example :
    let clause : Clause := .field "and" (.literal .null)
    Clause.ofJson 1 clause.spelled = .error (.malformed [.key "and"] .notClauses) := rfl

end QueryDialect
