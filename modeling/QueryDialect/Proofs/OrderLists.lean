import Mathlib.Data.List.Induction
import QueryDialect.Proofs.Refusals
import QueryDialect.Proofs.SortPrecedence

namespace QueryDialect

/-- What is wrong with an entry. A direction is shown as it was written, without the white space around
it. -/
inductive OrderRefusal : String → FilterError → Prop
  | missing_field {entry rest : String} (parts : EntryParts entry "" rest) :
    OrderRefusal entry (.malformed [] .missingFieldName)
  | unknown_direction {entry field rest : String} (parts : EntryParts entry field rest)
      (named : field ≠ "") (unknown : ¬ Direction.Named (Text.trim rest)) :
    OrderRefusal entry (.invalidOrderDirection field (Text.trim rest))

/-- The last entry that has the field goes on with the direction. -/
def LastDirection (order : List String) (field : String) (direction : Direction) : Prop :=
  ∃ before entry rest after, order = before ++ entry :: after ∧ EntryParts entry field rest ∧
    direction.NamedBy (Text.trim rest) ∧ ∀ later ∈ after, ∀ rest, ¬ EntryParts later field rest

theorem EntryParts.unique {entry field field' rest rest' : String} (h : EntryParts entry field rest)
    (h' : EntryParts entry field' rest') : field = field' ∧ rest = rest' :=
  Prod.mk.inj (h.cut_eq.symm.trans h'.cut_eq)

theorem Direction.NamedBy.unique {text : String} {direction direction' : Direction}
    (h : direction.NamedBy text) (h' : direction'.NamedBy text) : direction = direction' := by
  have hd := Direction.ofText?_eq_some_iff.mpr h
  rw [Direction.ofText?_eq_some_iff.mpr h'] at hd
  exact (Option.some.inj hd).symm

section Entries

variable {entry : String} {request : String × Direction} {error : FilterError}

theorem OrderRequest.exists_parts (h : OrderRequest entry request) :
    ∃ rest, EntryParts entry request.1 rest ∧ request.1 ≠ "" ∧
      request.2.NamedBy (Text.trim rest) := by
  cases h with
  | intro parts named directed => exact ⟨_, parts, named, directed⟩

theorem exists_orderRequest_iff : (∃ request, OrderRequest entry request) ↔ ValidOrderEntry entry := by
  constructor
  · rintro ⟨request, h⟩
    obtain ⟨rest, parts, named, directed⟩ := h.exists_parts
    exact ⟨_, rest, parts, named, _, directed⟩
  · rintro ⟨field, rest, parts, named, direction, directed⟩
    exact ⟨_, .intro parts named directed⟩

theorem orderEntry_eq_error_iff : orderEntry entry = .error error ↔ OrderRefusal entry error := by
  constructor
  · intro h
    obtain ⟨field, rest, parts⟩ := exists_entryParts entry
    simp only [orderEntry, parts.cut_eq] at h
    split at h
    next missing =>
      subst missing
      cases h
      exact .missing_field parts
    next named =>
      split at h
      next => cases h
      next hd =>
        cases h
        refine .unknown_direction parts named fun hn => ?_
        have hs := Direction.isSome_ofText?_iff.mpr hn
        rw [hd] at hs
        cases hs
  · intro h
    cases h with
    | missing_field parts => simp only [orderEntry, parts.cut_eq, if_pos, Checked.refuse]
    | unknown_direction parts named unknown =>
      have hd := Option.not_isSome_iff_eq_none.mp (mt Direction.isSome_ofText?_iff.mp unknown)
      simp only [orderEntry, parts.cut_eq, if_neg named, hd]

theorem exists_orderRefusal_iff {place : Path} :
    (∃ inner, OrderRefusal entry inner ∧ inner.inside place = error) ↔
      ∃ field rest, EntryParts entry field rest ∧
        (field = "" ∧ error = .malformed place .missingFieldName ∨
          field ≠ "" ∧ ¬ Direction.Named (Text.trim rest) ∧
            error = .invalidOrderDirection field (Text.trim rest)) := by
  constructor
  · rintro ⟨inner, h, rfl⟩
    cases h with
    | missing_field parts =>
      exact ⟨"", _, parts, .inl ⟨rfl, by rw [FilterError.inside, List.append_nil]⟩⟩
    | unknown_direction parts named unknown => exact ⟨_, _, parts, .inr ⟨named, unknown, rfl⟩⟩
  · rintro ⟨field, rest, parts, ⟨rfl, rfl⟩ | ⟨named, unknown, rfl⟩⟩
    · exact ⟨_, .missing_field parts, by rw [FilterError.inside, List.append_nil]⟩
    · exact ⟨_, .unknown_direction parts named unknown, rfl⟩

end Entries

/-- A related list is divided where the other one is. -/
theorem exists_divided_of_forall₂ {α β : Type} {R : α → β → Prop} {items : List α}
    {before after : List β} {value : β} (h : List.Forall₂ R items (before ++ value :: after)) :
    ∃ first item rest, items = first ++ item :: rest ∧ R item value ∧ List.Forall₂ R rest after := by
  have hd := List.forall₂_drop_append _ _ _ h
  obtain ⟨item, rest, hr, hrest, he⟩ := List.forall₂_cons_right_iff.mp hd
  refine ⟨items.take before.length, item, rest, ?_, hr, hrest⟩
  rw [← he, List.take_append_drop]

theorem exists_forall₂_iff {α β : Type} {R : α → β → Prop} {items : List α} :
    (∃ values, List.Forall₂ R items values) ↔ ∀ item ∈ items, ∃ value, R item value := by
  constructor
  · rintro ⟨values, h⟩ item hm
    obtain ⟨value, -, hr⟩ := exists_mem_of_forall₂ h hm
    exact ⟨value, hr⟩
  · intro h
    induction items with
    | nil => exact ⟨[], .nil⟩
    | cons item rest ih =>
      obtain ⟨⟨value, hr⟩, hrest⟩ := List.forall_mem_cons.mp h
      obtain ⟨values, hv⟩ := ih hrest
      exact ⟨value :: values, .cons hr hv⟩

theorem Keyed.get?_ofList_eq_some_iff {α : Type} {entries : List (String × α)} {key : String}
    {value : α} :
    (ofList entries).get? key = some value ↔
      ∃ before after, entries = before ++ (key, value) :: after ∧ ∀ later ∈ after, later.1 ≠ key := by
  constructor
  · intro h
    induction entries using List.reverseRecOn with
    | nil => cases h
    | append_singleton earlier last ih =>
      rw [ofList_append_singleton, get?_insert] at h
      split at h
      next he =>
        cases h
        subst he
        exact ⟨earlier, [], rfl, nofun⟩
      next hne =>
        obtain ⟨before, after, rfl, hl⟩ := ih h
        refine ⟨before, after ++ [last], by simp, List.forall_mem_append.mpr ⟨hl, ?_⟩⟩
        exact List.forall_mem_singleton.mpr hne
  · rintro ⟨before, after, rfl, hl⟩
    exact get?_ofList_of_last hl

theorem Keyed.get?_ofList_eq_none_iff {α : Type} {entries : List (String × α)} {key : String} :
    (ofList entries).get? key = none ↔ ∀ entry ∈ entries, entry.1 ≠ key := by
  induction entries using List.reverseRecOn with
  | nil => simp [get?]
  | append_singleton earlier last ih =>
    rw [ofList_append_singleton, get?_insert, List.forall_mem_append, List.forall_mem_singleton, ← ih]
    split <;> simp_all

/-- The later entries are asked first. -/
theorem Keyed.get?_ofList_append {α : Type} (key : String) (first second : List (String × α)) :
    (ofList (first ++ second)).get? key =
      ((ofList second).get? key).or ((ofList first).get? key) := by
  induction second using List.reverseRecOn with
  | nil => simp [get?]
  | append_singleton earlier last ih =>
    rw [← List.append_assoc, ofList_append_singleton, ofList_append_singleton, get?_insert,
      get?_insert, ih]
    split <;> rfl

theorem Keyed.get?_ofList_of_ne {α : Type} {key : String} {entry : String × α}
    (hn : entry.1 ≠ key) (before after : List (String × α)) :
    (ofList (before ++ entry :: after)).get? key = (ofList (before ++ after)).get? key := by
  have alone : (ofList [entry]).get? key = none := get?_ofList_eq_none_iff.mpr (by simpa using hn)
  rw [List.append_cons, get?_ofList_append, get?_ofList_append key before [entry], alone,
    get?_ofList_append key before after, Option.none_or]

section Lists

variable {order : List String} {requests : List (String × Direction)} {field : String}
  {direction : Direction} {error : FilterError}

theorem exists_orderByOf_eq_ok_iff :
    (∃ entries, orderByOf order = .ok entries) ↔ ∀ entry ∈ order, ValidOrderEntry entry := by
  have asks : (∃ entries, orderByOf order = .ok entries) ↔
      ∃ requests, List.Forall₂ OrderRequest order requests := by
    simp only [orderByOf_eq_ok_iff]
    exact exists_comm.trans (exists_congr fun _ => by simp)
  rw [asks, exists_forall₂_iff]
  exact forall₂_congr fun _ _ => exists_orderRequest_iff

theorem get?_requests_iff (hr : List.Forall₂ OrderRequest order requests) :
    (Keyed.ofList requests).get? field = some direction ↔ LastDirection order field direction := by
  rw [Keyed.get?_ofList_eq_some_iff]
  constructor
  · rintro ⟨before, after, rfl, hl⟩
    obtain ⟨first, entry, rest, ho, hq, hrest⟩ := exists_divided_of_forall₂ hr
    obtain ⟨text, parts, -, directed⟩ := hq.exists_parts
    refine ⟨first, entry, text, rest, ho, parts, directed, fun later hm other parts' => ?_⟩
    obtain ⟨request, hm, hq⟩ := exists_mem_of_forall₂ hrest hm
    obtain ⟨_, parts, -, -⟩ := hq.exists_parts
    exact hl request hm (parts.unique parts').1
  · rintro ⟨before, entry, text, after, rfl, parts, directed, hl⟩
    obtain ⟨first, ⟨name, found⟩, rest, rfl, hq, hrest⟩ := exists_divided_of_forall₂ hr.flip
    obtain ⟨text', parts', -, directed'⟩ := hq.exists_parts
    obtain ⟨rfl, rfl⟩ := parts.unique parts'
    obtain rfl := directed.unique directed'
    refine ⟨first, rest, rfl, fun request hm he => ?_⟩
    obtain ⟨later, hm, hq⟩ := exists_mem_of_forall₂ hrest hm
    obtain ⟨_, parts, -, -⟩ := OrderRequest.exists_parts hq
    exact hl later hm _ (he ▸ parts)

theorem exists_get?_requests_iff (hr : List.Forall₂ OrderRequest order requests) :
    (∃ direction, (Keyed.ofList requests).get? field = some direction) ↔
      ∃ entry ∈ order, ∃ rest, EntryParts entry field rest := by
  constructor
  · rintro ⟨direction, h⟩
    obtain ⟨before, entry, rest, after, rfl, parts, -⟩ := (get?_requests_iff hr).mp h
    exact ⟨entry, by simp, rest, parts⟩
  · rintro ⟨entry, hm, rest, parts⟩
    obtain ⟨request, hm, hq⟩ := exists_mem_of_forall₂ hr hm
    obtain ⟨_, parts', -, -⟩ := hq.exists_parts
    obtain ⟨rfl, -⟩ := parts.unique parts'
    rw [← Option.ne_none_iff_exists', Ne, Keyed.get?_ofList_eq_none_iff]
    exact fun hn => hn request hm rfl

theorem orderByOf_eq_error_iff :
    orderByOf order = .error error ↔
      ∃ before entry after inner, order = before ++ entry :: after ∧
        (∀ earlier ∈ before, ValidOrderEntry earlier) ∧ OrderRefusal entry inner ∧
        inner.inside [.key "order", .index before.length] = error := by
  rw [orderByOf, Checked.map_eq_error_iff, Checked.each_eq_error_iff]
  simp only [orderEntry_eq_ok_iff, exists_orderRequest_iff, orderEntry_eq_error_iff]

theorem inside_orderByOf_eq_error_iff {path : Path} :
    Checked.inside path (orderByOf order) = .error error ↔
      ∃ before entry after, order = before ++ entry :: after ∧
        (∀ earlier ∈ before, ValidOrderEntry earlier) ∧
        ∃ inner, OrderRefusal entry inner ∧
          inner.inside (path ++ [.key "order", .index before.length]) = error := by
  rw [Checked.inside_eq_error_iff]
  constructor
  · rintro ⟨_, h, rfl⟩
    obtain ⟨before, entry, after, inner, rfl, hb, hi, rfl⟩ := orderByOf_eq_error_iff.mp h
    exact ⟨before, entry, after, rfl, hb, inner, hi, (FilterError.inside_inside ..).symm⟩
  · rintro ⟨before, entry, after, rfl, hb, inner, hi, rfl⟩
    have h := orderByOf_eq_error_iff.mpr ⟨before, entry, after, inner, rfl, hb, hi, rfl⟩
    exact ⟨_, h, FilterError.inside_inside ..⟩

end Lists

theorem Path.text_append_order (path : Path) (position : Nat) :
    text (path ++ [.key "order", .index position]) =
      path.text ++ ".order[" ++ toString position ++ "]" := by
  have divided : ".order[" = "." ++ "order" ++ "[" := rfl
  rw [divided, text, List.foldl_append]
  simp only [List.foldl_cons, List.foldl_nil, Step.text, String.append_assoc]
  rfl

/-- What comes out of an order list at a path, and whether anything does: the first entry that is not
valid is to blame for an error, and the last entry of each field has its say in a result. -/
theorem order_list_is_read_entry_by_entry (path : Path) (order : List String) :
    ((∃ entries, Checked.inside path (orderByOf order) = .ok entries) ↔
      ∀ entry ∈ order, ValidOrderEntry entry) ∧
    (∀ entries, Checked.inside path (orderByOf order) = .ok entries →
      Keyed.Sorted entries ∧
      (∀ field, (∃ direction, (field, direction) ∈ entries) ↔
        ∃ entry ∈ order, ∃ rest, EntryParts entry field rest) ∧
      (∀ field direction, (field, direction) ∈ entries ↔ LastDirection order field direction) ∧
      ∀ entry ∈ entries, ' ' ∉ entry.1.toList) ∧
    (∀ error, Checked.inside path (orderByOf order) = .error error ↔
      ∃ before entry after field rest, order = before ++ entry :: after ∧
        (∀ earlier ∈ before, ValidOrderEntry earlier) ∧ EntryParts entry field rest ∧
        (field = "" ∧ error = .malformed (path ++ [.key "order", .index before.length])
            .missingFieldName ∨
          field ≠ "" ∧ ¬ Direction.Named (Text.trim rest) ∧
            error = .invalidOrderDirection field (Text.trim rest))) ∧
    ∀ position, Path.text (path ++ [.key "order", .index position]) =
      path.text ++ ".order[" ++ toString position ++ "]" := by
  simp only [Checked.inside_eq_ok_iff]
  refine ⟨exists_orderByOf_eq_ok_iff, fun entries h => ?_, fun error => ?_, path.text_append_order⟩
  · obtain ⟨requests, hr, rfl⟩ := orderByOf_eq_ok_iff.mp h
    obtain ⟨hs, hf⟩ := orderByOf_eq_ok h
    have held : ∀ field direction, (field, direction) ∈ Keyed.ofList requests ↔
        (Keyed.ofList requests).get? field = some direction :=
      fun _ _ => (Keyed.get?_eq_some_iff_mem hs.distinct).symm
    refine ⟨hs, fun field => ?_, fun field direction => ?_, fun entry hm => (hf entry hm).2⟩
    · simp only [held]
      exact exists_get?_requests_iff hr
    · rw [held]
      exact get?_requests_iff hr
  · rw [inside_orderByOf_eq_error_iff]
    simp only [exists_orderRefusal_iff, exists_and_left]

end QueryDialect
