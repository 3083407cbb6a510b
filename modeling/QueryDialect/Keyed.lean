namespace QueryDialect

/-- An association list, as a rule in the order of its keys. -/
abbrev Keyed (α : Type) := List (String × α)

namespace Keyed

variable {α : Type}

/-- The keys are strictly increasing, so that no key occurs twice. -/
def Sorted (entries : Keyed α) : Prop :=
  entries.Pairwise (·.1 < ·.1)

theorem sorted_map_iff {β : Type} {f : String × α → β} {entries : Keyed α} :
    Sorted (entries.map fun entry => (entry.1, f entry)) ↔ entries.Sorted :=
  List.pairwise_map

/-- The value of the first entry with this key. -/
def get? (key : String) : Keyed α → Option α
  | [] => none
  | (k, v) :: rest => if k = key then some v else get? key rest

theorem get?_eq_none_iff {key : String} {entries : Keyed α} :
    entries.get? key = none ↔ ∀ entry ∈ entries, entry.1 ≠ key := by
  induction entries with
  | nil => simp [get?]
  | cons head rest ih =>
    rw [get?, List.forall_mem_cons, ← ih]
    split <;> simp_all

theorem get?_singleton_eq_none_iff {key name : String} {value : α} :
    get? key [(name, value)] = none ↔ name ≠ key := by
  simp [get?]

theorem get?_map {β : Type} (f : α → β) (key : String) (entries : Keyed α) :
    get? key (entries.map fun entry => (entry.1, f entry.2)) = (entries.get? key).map f := by
  induction entries with
  | nil => rfl
  | cons head rest ih =>
    rw [List.map_cons, get?, get?, ih]
    split <;> rfl

theorem mem_of_get?_eq_some {key : String} {value : α} {entries : Keyed α}
    (h : entries.get? key = some value) : (key, value) ∈ entries := by
  induction entries with
  | nil => cases h
  | cons head rest ih =>
    rw [get?] at h
    split at h
    next hk =>
      cases h
      exact hk ▸ List.mem_cons_self ..
    next => exact List.mem_cons_of_mem _ (ih h)

/-- Keeps the order, and replaces the value of a key that is present. -/
def insert (key : String) (value : α) : Keyed α → Keyed α
  | [] => [(key, value)]
  | (k, v) :: rest =>
    if key < k then (key, value) :: (k, v) :: rest
    else if key = k then (key, value) :: rest
    else (k, v) :: insert key value rest

def ofList (entries : List (String × α)) : Keyed α :=
  entries.foldl (fun sorted entry => sorted.insert entry.1 entry.2) []

@[simp] theorem ofList_nil : ofList ([] : List (String × α)) = [] := rfl

theorem ofList_append_singleton (entries : List (String × α)) (entry : String × α) :
    ofList (entries ++ [entry]) = (ofList entries).insert entry.1 entry.2 := by
  simp [ofList]

theorem mem_insert {key : String} {value : α} {entries : Keyed α} {entry : String × α}
    (h : entry ∈ entries.insert key value) : entry = (key, value) ∨ entry ∈ entries := by
  induction entries with
  | nil => simpa [insert] using h
  | cons head rest ih =>
    rw [insert] at h
    split at h
    · simpa using h
    · split at h
      · rcases List.mem_cons.mp h with h | h
        · exact .inl h
        · exact .inr (List.mem_cons_of_mem _ h)
      · rcases List.mem_cons.mp h with h | h
        · exact .inr (h ▸ List.mem_cons_self ..)
        · exact (ih h).imp_right (List.mem_cons_of_mem _)

theorem sorted_insert {key : String} {value : α} {entries : Keyed α} (hs : entries.Sorted) :
    (entries.insert key value).Sorted := by
  induction entries with
  | nil => simp [insert, Sorted]
  | cons head rest ih =>
    have hrest : Sorted rest := (List.pairwise_cons.mp hs).2
    have hhead : ∀ entry ∈ rest, head.1 < entry.1 := (List.pairwise_cons.mp hs).1
    rw [insert]
    split
    · next hlt =>
      refine List.pairwise_cons.mpr ⟨fun entry he => ?_, hs⟩
      rcases List.mem_cons.mp he with rfl | he
      · exact hlt
      · exact String.lt_trans hlt (hhead entry he)
    · split
      · next heq => exact List.pairwise_cons.mpr ⟨fun entry he => heq ▸ hhead entry he, hrest⟩
      · next hlt hne =>
        refine List.pairwise_cons.mpr ⟨fun entry he => ?_, ih hrest⟩
        rcases mem_insert he with rfl | he
        · exact Std.lt_of_le_of_ne (Std.not_lt.mp hlt) (Ne.symm hne)
        · exact hhead entry he

theorem sorted_ofList (entries : List (String × α)) : (ofList entries).Sorted := by
  suffices ∀ sorted : Keyed α, sorted.Sorted →
      Sorted (entries.foldl (fun sorted entry => sorted.insert entry.1 entry.2) sorted) from
    this [] List.Pairwise.nil
  induction entries with
  | nil => exact fun _ hs => hs
  | cons head rest ih => exact fun _ hs => ih _ (sorted_insert hs)

theorem mem_of_mem_ofList {entries : List (String × α)} {entry : String × α}
    (h : entry ∈ ofList entries) : entry ∈ entries := by
  suffices ∀ sorted : Keyed α,
      entry ∈ entries.foldl (fun sorted entry => sorted.insert entry.1 entry.2) sorted →
        entry ∈ sorted ∨ entry ∈ entries from
    (this [] h).resolve_left List.not_mem_nil
  clear h
  induction entries with
  | nil => exact fun _ h => .inl h
  | cons head rest ih =>
    intro sorted h
    rcases ih _ h with h | h
    · rcases mem_insert h with rfl | h
      · exact .inr (List.mem_cons_self ..)
      · exact .inl h
    · exact .inr (List.mem_cons_of_mem _ h)

theorem insert_of_forall_lt {key : String} {value : α} {entries : Keyed α}
    (h : ∀ entry ∈ entries, entry.1 < key) : entries.insert key value = entries ++ [(key, value)] := by
  induction entries with
  | nil => rfl
  | cons head rest ih =>
    obtain ⟨hlt, hrest⟩ := List.forall_mem_cons.mp h
    have hne : key ≠ head.1 := fun he => String.lt_irrefl _ (he ▸ hlt)
    rw [insert, if_neg (Std.not_lt.mpr (Std.le_of_lt hlt)), if_neg hne, ih hrest, List.cons_append]

/-- Entries whose keys are in order already are kept as they are. -/
theorem ofList_of_sorted {entries : Keyed α} (hs : entries.Sorted) : ofList entries = entries := by
  suffices ∀ first : Keyed α, Sorted (first ++ entries) →
      entries.foldl (fun sorted entry => sorted.insert entry.1 entry.2) first = first ++ entries from
    this [] hs
  clear hs
  induction entries with
  | nil => simp
  | cons head rest ih =>
    intro first hs
    have hlt : ∀ entry ∈ first, entry.1 < head.1 := fun entry he =>
      (List.pairwise_append.mp hs).2.2 entry he head (List.mem_cons_self ..)
    rw [List.foldl_cons, insert_of_forall_lt hlt, ih _ (by simpa using hs), List.append_assoc,
      List.singleton_append]

/-- Looking a key up after an insertion finds the inserted value, and any other key is untouched. -/
theorem get?_insert (key other : String) (value : α) (entries : Keyed α) :
    (entries.insert key value).get? other =
      if key = other then some value else entries.get? other := by
  induction entries with
  | nil => rfl
  | cons head rest ih =>
    rw [insert]
    split
    · rfl
    · split
      · next heq =>
        subst heq
        simp only [get?]
        split <;> rfl
      · next hne =>
        simp only [get?, ih]
        split
        · next h => rw [if_neg (h ▸ hne)]
        · rfl

/-- The last entry for a key decides. -/
theorem get?_ofList_of_last {key : String} {value : α} {before after : List (String × α)}
    (hl : ∀ later ∈ after, later.1 ≠ key) :
    (ofList (before ++ (key, value) :: after)).get? key = some value := by
  suffices ∀ sorted : Keyed α,
      get? key (after.foldl (fun sorted entry => sorted.insert entry.1 entry.2) sorted) =
        sorted.get? key by
    rw [ofList, List.foldl_append, List.foldl_cons, this, get?_insert, if_pos rfl]
  induction after with
  | nil => exact fun _ => rfl
  | cons head rest ih =>
    obtain ⟨hne, hrest⟩ := List.forall_mem_cons.mp hl
    intro sorted
    rw [List.foldl_cons, ih hrest, get?_insert, if_neg hne]

end Keyed
end QueryDialect
