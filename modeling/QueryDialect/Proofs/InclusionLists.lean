import QueryDialect.Proofs.FirstViolation
import QueryDialect.Proofs.OrderLists

namespace QueryDialect

open Checked (map_eq_ok_iff)

/-- The outcome as seen from a value that holds the examined one at a path, so many levels below. -/
def Checked.placed {α : Type} (level : Nat) (path : Path) (outcome : Checked α) : Checked α :=
  outcome.mapError (.placed level path)

/-- What an inclusion stands for: all related records, or those of the query of its scope. -/
inductive Inclusion.Image (scope : Filter → Checked Query) :
    Inclusion Filter → Related Query → Prop
  | all (name : String) : Image scope (.relation name) .all
  | ofScope {name : String} {filter : Filter} {query : Query} (h : scope filter = .ok query) :
    Image scope (.scoped name filter) (.scoped query)

/-- The last inclusion of the relation has the image. -/
def LastImage (scope : Filter → Checked Query) (inclusions : List (Inclusion Filter))
    (name : String) (image : Related Query) : Prop :=
  ∃ before inclusion after, inclusions = before ++ inclusion :: after ∧ inclusion.name = name ∧
    inclusion.Image scope image ∧ ∀ later ∈ after, later.name ≠ name

theorem Checked.placed_eq_error_iff {α : Type} {level : Nat} {path : Path} {outcome : Checked α}
    {error : FilterError} :
    placed level path outcome = .error error ↔
      ∃ inner, outcome = .error inner ∧ inner.placed level path = error := by
  cases outcome <;> simp [placed, Except.mapError]

/-- A scope is examined on the next level, as far as the limit allows. -/
theorem Filter.placed_toQueryBelow (limit level : Nat) (place : Path) (scope : Filter) :
    Checked.placed level place (scope.toQueryBelow limit) =
      if limit = 0 then .error (.depthLimitExceeded level)
      else Checked.placed (level + 1) place (scope.toQuery (limit - 1)) := by
  cases limit with
  | zero => rfl
  | succ limit =>
    rw [toQueryBelow, if_neg (Nat.succ_ne_zero limit), Nat.add_sub_cancel]
    cases scope.toQuery limit with
    | ok query => rfl
    | error error => exact congrArg Except.error (FilterError.placed_deeper level place error)

section Inclusions

variable {scope : Filter → Checked Query} {inclusion : Inclusion Filter} {error : FilterError}
  {inclusions : List (Inclusion Filter)} {related : Keyed (Related Query)}

theorem Inclusion.Image.unique {image image' : Related Query} (h : inclusion.Image scope image)
    (h' : inclusion.Image scope image') : image = image' := by
  cases h with
  | all =>
    cases h'
    rfl
  | ofScope h =>
    cases h' with
    | ofScope h' =>
      rw [h] at h'
      cases h'
      rfl

theorem Inclusion.toRelated_eq_ok_iff {entry : String × Related Query} :
    inclusion.toRelated scope = .ok entry ↔
      entry.1 = inclusion.name ∧ inclusion.Image scope entry.2 := by
  obtain ⟨key, image⟩ := entry
  constructor
  · intro h
    refine ⟨name_of_toRelated h, ?_⟩
    obtain relation | ⟨relation, filter⟩ := inclusion
    · cases h
      exact .all _
    · obtain ⟨query, hq, he⟩ := map_eq_ok_iff.mp h
      cases he
      exact .ofScope hq
  · rintro ⟨rfl, hi⟩
    cases hi with
    | all => rfl
    | ofScope hq => exact map_eq_ok_iff.mpr ⟨_, hq, rfl⟩

theorem Inclusion.toRelated_eq_error_iff :
    inclusion.toRelated scope = .error error ↔
      ∃ name filter, inclusion = .scoped name filter ∧ scope filter = .error error := by
  obtain name | ⟨name, filter⟩ := inclusion
  · simp [toRelated]
  · rw [toRelated, Checked.map_eq_error_iff]
    simp

/-- A relation without a scope stands in no one's way. -/
theorem forall_exists_toRelated_iff :
    (∀ inclusion ∈ inclusions, ∃ entry, inclusion.toRelated scope = .ok entry) ↔
      ∀ filter : Filter, filter.IsScopeIn inclusions → ∃ query, scope filter = .ok query := by
  constructor
  · rintro h filter ⟨name, hm⟩
    obtain ⟨entry, he⟩ := h _ hm
    obtain ⟨query, hq, -⟩ := map_eq_ok_iff.mp he
    exact ⟨query, hq⟩
  · intro h inclusion hm
    obtain name | ⟨name, filter⟩ := inclusion
    · exact ⟨(name, .all), rfl⟩
    · obtain ⟨query, hq⟩ := h filter ⟨name, hm⟩
      exact ⟨_, map_eq_ok_iff.mpr ⟨query, hq, rfl⟩⟩

theorem relationsOf_eq_ok_iff :
    relationsOf scope inclusions = .ok related ↔
      ∃ entries, List.Forall₂ (fun inclusion entry => inclusion.toRelated scope = .ok entry)
        inclusions entries ∧ Keyed.ofList entries = related := by
  rw [relationsOf, map_eq_ok_iff]
  simp only [Checked.each_eq_ok_iff, Checked.mapM_eq_ok_iff]

theorem exists_relationsOf_eq_ok_iff :
    (∃ related, relationsOf scope inclusions = .ok related) ↔
      ∀ filter : Filter, filter.IsScopeIn inclusions → ∃ query, scope filter = .ok query := by
  rw [← forall_exists_toRelated_iff, ← exists_forall₂_iff]
  simp only [relationsOf_eq_ok_iff]
  exact exists_comm.trans (exists_congr fun _ => by simp)

theorem relationsOf_eq_error_iff :
    relationsOf scope inclusions = .error error ↔
      ∃ before name filter after inner, inclusions = before ++ .scoped name filter :: after ∧
        (∀ earlier : Filter, earlier.IsScopeIn before → ∃ query, scope earlier = .ok query) ∧
        scope filter = .error inner ∧
        inner.inside [.key "include", .index before.length, .key "scope"] = error := by
  rw [relationsOf, Checked.map_eq_error_iff, Checked.each_eq_error_iff]
  simp only [forall_exists_toRelated_iff, Inclusion.toRelated_eq_error_iff]
  constructor
  · rintro ⟨before, _, after, inner, rfl, hb, ⟨name, filter, rfl, hf⟩, he⟩
    exact ⟨before, name, filter, after, inner, rfl, hb, hf, he⟩
  · rintro ⟨before, name, filter, after, inner, rfl, hb, hf, he⟩
    exact ⟨before, _, after, inner, rfl, hb, ⟨name, filter, rfl, hf⟩, he⟩

theorem placed_relationsOf_eq_error_iff {level : Nat} {path : Path} :
    Checked.placed level path (relationsOf scope inclusions) = .error error ↔
      ∃ before name filter after, inclusions = before ++ .scoped name filter :: after ∧
        (∀ earlier : Filter, earlier.IsScopeIn before → ∃ query, scope earlier = .ok query) ∧
        Checked.placed level (path ++ [.key "include", .index before.length, .key "scope"])
          (scope filter) = .error error := by
  simp only [Checked.placed_eq_error_iff, relationsOf_eq_error_iff]
  constructor
  · rintro ⟨_, ⟨before, name, filter, after, inner, rfl, hb, hf, rfl⟩, rfl⟩
    exact ⟨before, name, filter, after, rfl, hb, inner, hf, (FilterError.placed_inside ..).symm⟩
  · rintro ⟨before, name, filter, after, rfl, hb, inner, hf, rfl⟩
    exact ⟨_, ⟨before, name, filter, after, inner, rfl, hb, hf, rfl⟩,
      FilterError.placed_inside ..⟩

theorem get?_of_relationsOf_iff (h : relationsOf scope inclusions = .ok related) {name : String}
    {image : Related Query} :
    related.get? name = some image ↔ LastImage scope inclusions name image := by
  obtain ⟨entries, he, rfl⟩ := relationsOf_eq_ok_iff.mp h
  rw [Keyed.get?_ofList_eq_some_iff]
  constructor
  · rintro ⟨before, after, rfl, hl⟩
    obtain ⟨first, inclusion, rest, hi, hr, hrest⟩ := exists_divided_of_forall₂ he
    obtain ⟨hn, himage⟩ := Inclusion.toRelated_eq_ok_iff.mp hr
    refine ⟨first, inclusion, rest, hi, hn.symm, himage, fun later hm => ?_⟩
    obtain ⟨entry, hm, hr⟩ := exists_mem_of_forall₂ hrest hm
    rw [← Inclusion.name_of_toRelated hr]
    exact hl entry hm
  · rintro ⟨before, inclusion, after, rfl, rfl, himage, hl⟩
    obtain ⟨first, entry, rest, rfl, hr, hrest⟩ := exists_divided_of_forall₂ he.flip
    obtain ⟨hn, himage'⟩ := Inclusion.toRelated_eq_ok_iff.mp hr
    obtain rfl := himage.unique himage'
    refine ⟨first, rest, by rw [← hn], fun later hm => ?_⟩
    obtain ⟨other, hm, hr⟩ := exists_mem_of_forall₂ hrest hm
    rw [Inclusion.name_of_toRelated hr]
    exact hl other hm

theorem exists_get?_of_relationsOf_iff (h : relationsOf scope inclusions = .ok related)
    {name : String} :
    (∃ image, related.get? name = some image) ↔ ∃ inclusion ∈ inclusions, inclusion.name = name := by
  constructor
  · rintro ⟨image, hg⟩
    obtain ⟨before, inclusion, after, rfl, hn, -⟩ := (get?_of_relationsOf_iff h).mp hg
    exact ⟨inclusion, by simp, hn⟩
  · rintro ⟨inclusion, hm, rfl⟩
    obtain ⟨entries, he, rfl⟩ := relationsOf_eq_ok_iff.mp h
    obtain ⟨entry, hm, hr⟩ := exists_mem_of_forall₂ he hm
    rw [← Option.ne_none_iff_exists', Ne, Keyed.get?_ofList_eq_none_iff]
    exact fun hn => hn entry hm (Inclusion.name_of_toRelated hr)

/-- An inclusion has no say in what becomes of the relations that it does not name. -/
theorem get?_of_relationsOf_exchanged {inclusion' : Inclusion Filter}
    {before after : List (Inclusion Filter)} {related' : Keyed (Related Query)} {name : String}
    (h : relationsOf scope (before ++ inclusion :: after) = .ok related)
    (h' : relationsOf scope (before ++ inclusion' :: after) = .ok related')
    (hn : inclusion.name ≠ name) (hn' : inclusion'.name ≠ name) :
    related'.get? name = related.get? name := by
  obtain ⟨first, entry, rest, hf, hi, hr, rfl⟩ := exists_entries_of_relationsOf h
  obtain ⟨first', entry', rest', hf', hi', hr', rfl⟩ := exists_entries_of_relationsOf h'
  rw [hf] at hf'
  rw [hr] at hr'
  cases hf'
  cases hr'
  rw [← Inclusion.name_of_toRelated hi] at hn
  rw [← Inclusion.name_of_toRelated hi'] at hn'
  rw [Keyed.get?_ofList_of_ne hn, Keyed.get?_ofList_of_ne hn']

end Inclusions

section Selections

variable {name : String} {flag : Bool}

theorem Fields.mem_toSelect_names_iff {names : List String} :
    (name, flag) ∈ (Fields.names names).toSelect ↔ name ∈ names ∧ flag = true := by
  rw [← Keyed.get?_eq_some_iff_mem (Fields.sorted_toSelect _).distinct, toSelect]
  constructor
  · intro h
    obtain ⟨other, hm, he⟩ := List.mem_map.mp (Keyed.mem_of_mem_ofList (Keyed.mem_of_get?_eq_some h))
    cases he
    exact ⟨hm, rfl⟩
  · rintro ⟨hm, rfl⟩
    have hne : (Keyed.ofList (names.map fun name => (name, true))).get? name ≠ none := fun hn =>
      Keyed.get?_ofList_eq_none_iff.mp hn (name, true) (List.mem_map_of_mem hm) rfl
    obtain ⟨found, hf⟩ := Option.ne_none_iff_exists'.mp hne
    obtain ⟨other, -, he⟩ := List.mem_map.mp (Keyed.mem_of_mem_ofList (Keyed.mem_of_get?_eq_some hf))
    cases he
    exact hf

theorem Fields.mem_toSelect_flags_iff {flags : List (String × Bool)} :
    (name, flag) ∈ (Fields.flags flags).toSelect ↔
      ∃ before after, flags = before ++ (name, flag) :: after ∧
        ∀ later ∈ after, later.1 ≠ name := by
  rw [← Keyed.get?_eq_some_iff_mem (Fields.sorted_toSelect _).distinct]
  exact Keyed.get?_ofList_eq_some_iff

end Selections

/-- What comes out of a list of inclusions that belongs to a filter at a path, so many levels down, and
whether anything does: the first scope that fails is to blame for an error, and the last inclusion of
each relation has its say in a result. Selections are made in the same way. -/
theorem last_inclusion_of_each_relation_decides (limit level : Nat) (path : Path)
    (inclusions : List (Inclusion Filter)) :
    (∀ filter : Filter, filter.toQuery limit =
      filter.toQueryWith (Filter.toQueryBelow limit) (Clause.toPredicate limit)) ∧
    (∀ (place : Path) (scope : Filter), Checked.placed level place (scope.toQueryBelow limit) =
      if limit = 0 then .error (.depthLimitExceeded level)
      else Checked.placed (level + 1) place (scope.toQuery (limit - 1))) ∧
    ((∃ related, relationsOf (Filter.toQueryBelow limit) inclusions = .ok related) ↔
      ∀ scope : Filter, scope.IsScopeIn inclusions → ∃ query, scope.toQueryBelow limit = .ok query) ∧
    (∀ related, relationsOf (Filter.toQueryBelow limit) inclusions = .ok related →
      Keyed.Sorted related ∧
      (∀ name, (∃ image, (name, image) ∈ related) ↔
        ∃ inclusion ∈ inclusions, inclusion.name = name) ∧
      ∀ name image, (name, image) ∈ related ↔
        LastImage (Filter.toQueryBelow limit) inclusions name image) ∧
    (∀ before inclusion inclusion' after related related',
      relationsOf (Filter.toQueryBelow limit) (before ++ inclusion :: after) = .ok related →
      relationsOf (Filter.toQueryBelow limit) (before ++ inclusion' :: after) = .ok related' →
      ∀ name, inclusion.name ≠ name → inclusion'.name ≠ name →
        related'.get? name = related.get? name) ∧
    (∀ error,
      Checked.placed level path (relationsOf (Filter.toQueryBelow limit) inclusions) = .error error ↔
        ∃ before name scope after, inclusions = before ++ .scoped name scope :: after ∧
          (∀ earlier : Filter, earlier.IsScopeIn before →
            ∃ query, earlier.toQueryBelow limit = .ok query) ∧
          Checked.placed level (path ++ [.key "include", .index before.length, .key "scope"])
            (scope.toQueryBelow limit) = .error error) ∧
    (∀ fields : Fields, fields.toSelect.Sorted) ∧
    (∀ names name flag, (name, flag) ∈ (Fields.names names).toSelect ↔
      name ∈ names ∧ flag = true) ∧
    ∀ flags name flag, (name, flag) ∈ (Fields.flags flags).toSelect ↔
      ∃ before after, flags = before ++ (name, flag) :: after ∧
        ∀ later ∈ after, later.1 ≠ name := by
  refine ⟨Filter.toQuery_eq limit, Filter.placed_toQueryBelow limit level,
    exists_relationsOf_eq_ok_iff, fun related h => ?_,
    fun _ _ _ _ _ _ h h' _ hn hn' => get?_of_relationsOf_exchanged h h' hn hn',
    fun _ => placed_relationsOf_eq_error_iff, Fields.sorted_toSelect,
    fun _ _ _ => Fields.mem_toSelect_names_iff, fun _ _ _ => Fields.mem_toSelect_flags_iff⟩
  have hs : Keyed.Sorted related := (relationsOf_eq_ok h).1
  have held : ∀ name image, (name, image) ∈ related ↔ Keyed.get? name related = some image :=
    fun _ _ => (Keyed.get?_eq_some_iff_mem hs.distinct).symm
  simp only [held]
  exact ⟨hs, fun _ => exists_get?_of_relationsOf_iff h, fun _ _ => get?_of_relationsOf_iff h⟩

/-- A scope that a later inclusion puts aside is converted all the same, and may fail. -/
example :
    let scope : Filter := { order := some [""] }
    let filter : Filter := { inclusions := some [.scoped "posts" scope, .relation "posts"] }
    filter.toQuery 1 = .error (.malformed
      [.key "include", .index 0, .key "scope", .key "order", .index 0] .missingFieldName) :=
  rfl

end QueryDialect
