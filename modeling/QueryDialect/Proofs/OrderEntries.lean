import QueryDialect.Conversion.OrderBy

namespace QueryDialect

/-- The field of an entry and what follows it: the texts before and after the first space, or the
whole entry and nothing if there is no space. -/
inductive EntryParts : String → String → String → Prop
  | whole {entry : String} (h : ' ' ∉ entry.toList) : EntryParts entry entry ""
  | divided {field rest : String} (h : ' ' ∉ field.toList) :
    EntryParts (field ++ " " ++ rest) field rest

theorem EntryParts.cut_eq {entry field rest : String} (h : EntryParts entry field rest) :
    Text.cut (· = ' ') entry = (field, rest) := by
  have no_space : ∀ text : String, ' ' ∉ text.toList →
      ∀ c ∈ text.toList, decide (c = ' ') = false := by
    intro text h c hc
    exact decide_eq_false (ne_of_mem_of_not_mem hc h)
  cases h with
  | whole h => exact Text.cut_of_forall (no_space entry h)
  | divided h =>
    have space : " " = String.singleton ' ' := rfl
    rw [space]
    exact Text.cut_append (no_space field h) (decide_eq_true rfl)

theorem EntryParts.space_notMem {entry field rest : String} (h : EntryParts entry field rest) :
    ' ' ∉ field.toList := by
  cases h with
  | whole h => exact h
  | divided h => exact h

theorem exists_entryParts (entry : String) : ∃ field rest, EntryParts entry field rest := by
  by_cases h : ' ' ∈ entry.toList
  · obtain ⟨field, rest, he, hf⟩ := List.eq_append_cons_of_mem h
    have hs : entry = String.ofList field ++ " " ++ String.ofList rest := by
      rw [← String.toList_inj]
      simp [he]
    rw [hs]
    exact ⟨_, _, .divided (by simpa using hf)⟩
  · exact ⟨entry, "", .whole h⟩

/-- The two texts differ in the case of letters at most. -/
def Text.SameLetters (first second : String) : Prop :=
  first.toList.map Char.toLower = second.toList.map Char.toLower

/-- The direction that a text names. None is ascending. -/
inductive Direction.NamedBy (text : String) : Direction → Prop
  | left_out (h : text = "") : NamedBy text .ascending
  | ascending (h : Text.SameLetters text "asc") : NamedBy text .ascending
  | descending (h : Text.SameLetters text "desc") : NamedBy text .descending

theorem Direction.ofText?_eq_some_iff {text : String} {direction : Direction} :
    Direction.ofText? text = some direction ↔ direction.NamedBy text := by
  have same : ∀ word : String, Text.SameLetters text word ↔
      String.ofList (text.toList.map Char.toLower) = String.ofList (word.toList.map Char.toLower) := by
    intro word
    rw [String.ofList_inj, Text.SameLetters]
  constructor
  · intro h
    unfold ofText? at h
    split at h
    next he =>
      cases h
      refine .left_out ?_
      have hn : text.toList.map Char.toLower = [] := by
        rw [← String.ofList_inj, he]
      rw [← String.toList_inj, List.map_eq_nil_iff.mp hn, String.toList_empty]
    next he =>
      cases h
      exact .ascending ((same "asc").mpr he)
    next he =>
      cases h
      exact .descending ((same "desc").mpr he)
    next => cases h
  · intro h
    cases h with
    | left_out h =>
      subst h
      rfl
    | ascending h =>
      rw [ofText?, (same "asc").mp h]
      rfl
    | descending h =>
      rw [ofText?, (same "desc").mp h]
      rfl

/-- The field that an entry asks to order by, and the direction. -/
inductive OrderRequest : String → String × Direction → Prop
  | intro {entry field rest : String} {direction : Direction} (parts : EntryParts entry field rest)
      (named : field ≠ "") (directed : direction.NamedBy (Text.trim rest)) :
    OrderRequest entry (field, direction)

theorem orderEntry_eq_ok_iff {entry : String} {request : String × Direction} :
    orderEntry entry = .ok request ↔ OrderRequest entry request := by
  constructor
  · intro h
    obtain ⟨field, rest, parts⟩ := exists_entryParts entry
    simp only [orderEntry, parts.cut_eq] at h
    split at h
    next => cases h
    next named =>
      split at h
      next direction hd =>
        cases h
        exact .intro parts named (Direction.ofText?_eq_some_iff.mp hd)
      next => cases h
  · intro h
    cases h with
    | intro parts named directed =>
      have hd := Direction.ofText?_eq_some_iff.mpr directed
      simp only [orderEntry, parts.cut_eq, if_neg named, hd]

/-- The text names a direction. -/
def Direction.Named (text : String) : Prop :=
  ∃ direction, Direction.NamedBy text direction

theorem Direction.isSome_ofText?_iff {text : String} :
    (Direction.ofText? text).isSome = true ↔ Direction.Named text := by
  rw [Option.isSome_iff_exists]
  exact exists_congr fun _ => Direction.ofText?_eq_some_iff

instance : DecidablePred Direction.Named :=
  fun _ => decidable_of_iff _ Direction.isSome_ofText?_iff

/-- An entry with a field, and with a direction or none. -/
def ValidOrderEntry (entry : String) : Prop :=
  ∃ field rest, EntryParts entry field rest ∧ field ≠ "" ∧ Direction.Named (Text.trim rest)

end QueryDialect
