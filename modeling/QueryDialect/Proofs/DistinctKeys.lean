import QueryDialect.Keyed

namespace QueryDialect
namespace Keyed

variable {α : Type} {entries found : Keyed α} {key : String} {value : α}

/-- No key occurs twice. -/
def Distinct (entries : Keyed α) : Prop :=
  (entries.map (·.1)).Nodup

instance (entries : Keyed α) : Decidable entries.Distinct :=
  inferInstanceAs (Decidable (List.Nodup _))

theorem distinct_cons_iff {entry : String × α} :
    Distinct (entry :: entries) ↔ (∀ other ∈ entries, other.1 ≠ entry.1) ∧ entries.Distinct := by
  simp only [Distinct, List.map_cons, List.nodup_cons, List.mem_map, not_exists, not_and]

theorem Sorted.distinct (hs : entries.Sorted) : entries.Distinct := by
  refine List.pairwise_map.mpr (hs.imp fun hlt he => ?_)
  exact String.lt_irrefl _ (he ▸ hlt)

theorem Distinct.of_perm (hd : entries.Distinct) (hp : found.Perm entries) : found.Distinct := by
  have hk : (found.map (·.1)).Perm (entries.map (·.1)) := hp.map _
  exact hk.nodup_iff.mpr hd

theorem get?_eq_some_iff_mem (hd : entries.Distinct) :
    entries.get? key = some value ↔ (key, value) ∈ entries := by
  refine ⟨mem_of_get?_eq_some, fun hm => ?_⟩
  induction entries with
  | nil => cases hm
  | cons entry rest ih =>
    obtain ⟨hne, hrest⟩ := distinct_cons_iff.mp hd
    rw [get?]
    rcases List.mem_cons.mp hm with rfl | hm
    · exact if_pos rfl
    · rw [if_neg fun he => hne _ hm he.symm]
      exact ih hrest hm

theorem get?_eq_of_perm (hd : entries.Distinct) (hp : found.Perm entries) (key : String) :
    found.get? key = entries.get? key := by
  ext value
  rw [get?_eq_some_iff_mem (hd.of_perm hp), get?_eq_some_iff_mem hd, hp.mem_iff]

theorem insert_perm (hn : ∀ entry ∈ entries, entry.1 ≠ key) :
    (entries.insert key value).Perm ((key, value) :: entries) := by
  induction entries with
  | nil => exact .refl _
  | cons head rest ih =>
    obtain ⟨hne, hrest⟩ := List.forall_mem_cons.mp hn
    rw [insert]
    split
    · exact .refl _
    · rw [if_neg hne.symm]
      exact ((ih hrest).cons head).trans (.swap ..)

theorem ofList_perm (hd : entries.Distinct) : (ofList entries).Perm entries := by
  suffices ∀ sorted : Keyed α, Distinct (entries ++ sorted) →
      (entries.foldl (fun sorted entry => sorted.insert entry.1 entry.2) sorted).Perm
        (entries ++ sorted) by
    have hp := this [] (by rwa [List.append_nil])
    rwa [List.append_nil] at hp
  clear hd
  induction entries with
  | nil => exact fun sorted _ => .refl sorted
  | cons entry rest ih =>
    intro sorted hd
    obtain ⟨hne, -⟩ := distinct_cons_iff.mp hd
    have hi : (sorted.insert entry.1 entry.2).Perm (entry :: sorted) :=
      insert_perm fun other hm => hne other (List.mem_append_right _ hm)
    have hm : (rest ++ sorted.insert entry.1 entry.2).Perm (entry :: rest ++ sorted) :=
      (hi.append_left rest).trans List.perm_middle
    exact (ih _ (hd.of_perm hm)).trans hm

/-- There is only one order of the keys. -/
theorem Sorted.eq_of_perm (hs : found.Sorted) (hs' : entries.Sorted) (hp : found.Perm entries) :
    found = entries := by
  refine List.Perm.eq_of_pairwise (fun first second _ _ hlt hgt => ?_) hs hs' hp
  exact absurd (String.lt_trans hlt hgt) (String.lt_irrefl _)

/-- Entries put in order of their keys are those entries in that order. -/
theorem ofList_eq_iff (hd : entries.Distinct) :
    ofList entries = found ↔ found.Perm entries ∧ found.Sorted := by
  constructor
  · rintro rfl
    exact ⟨ofList_perm hd, sorted_ofList entries⟩
  · rintro ⟨hp, hs⟩
    exact (sorted_ofList entries).eq_of_perm hs ((ofList_perm hd).trans hp.symm)

end Keyed
end QueryDialect
