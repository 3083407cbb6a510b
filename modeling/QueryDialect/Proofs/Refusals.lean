import QueryDialect.Proofs.Postcondition

namespace QueryDialect
namespace Checked

variable {α β : Type} {outcome : Checked α}

section Errors

variable {error : FilterError}

theorem inside_eq_error_iff {steps : Path} :
    inside steps outcome = .error error ↔
      ∃ inner, outcome = .error inner ∧ inner.inside steps = error := by
  cases outcome <;> simp [inside, Except.mapError]

theorem deeper_eq_error_iff :
    deeper outcome = .error error ↔ ∃ inner, outcome = .error inner ∧ inner.deeper = error := by
  cases outcome <;> simp [deeper, Except.mapError]

theorem map_eq_error_iff {f : α → β} : f <$> outcome = .error error ↔ outcome = .error error := by
  cases outcome <;> simp [Functor.map, Except.map]

theorem bind_eq_error_iff {next : α → Checked β} :
    outcome >>= next = .error error ↔
      outcome = .error error ∨ ∃ value, outcome = .ok value ∧ next value = .error error := by
  cases outcome <;> simp [bind, Except.bind]

/-- The items before the one that is refused are accepted, and those after it do not matter. -/
theorem mapM_eq_error_iff {examine : α → Checked β} {items : List α} :
    items.mapM examine = .error error ↔
      ∃ before item after, items = before ++ item :: after ∧
        (∀ earlier ∈ before, ∃ value, examine earlier = .ok value) ∧ examine item = .error error := by
  induction items with
  | nil => simp [pure, Except.pure]
  | cons head rest ih =>
    rw [List.mapM_cons, bind_eq_error_iff]
    simp only [bind_eq_error_iff, ih]
    constructor
    · rintro (h | ⟨value, hv, ⟨before, item, after, rfl, hb, h⟩ | ⟨_, _, h⟩⟩)
      · exact ⟨[], head, rest, rfl, nofun, h⟩
      · exact ⟨head :: before, item, after, rfl, List.forall_mem_cons.mpr ⟨⟨value, hv⟩, hb⟩, h⟩
      · cases h
    · rintro ⟨before, item, after, hi, hb, h⟩
      cases before with
      | nil =>
        cases hi
        exact .inl h
      | cons first before =>
        cases hi
        obtain ⟨⟨value, hv⟩, hb⟩ := List.forall_mem_cons.mp hb
        exact .inr ⟨value, hv, .inl ⟨before, item, after, rfl, hb, h⟩⟩

/-- The error is placed at the position of the first item that is refused. -/
theorem each_eq_error_iff {steps : Nat → Path} {examine : α → Checked β} {items : List α} :
    each steps examine items = .error error ↔
      ∃ before item after inner, items = before ++ item :: after ∧
        (∀ earlier ∈ before, ∃ value, examine earlier = .ok value) ∧
        examine item = .error inner ∧ inner.inside (steps before.length) = error := by
  rw [each, mapM_eq_error_iff]
  simp only [inside_eq_error_iff, inside_eq_ok_iff]
  constructor
  · rintro ⟨before, ⟨item, i⟩, after, hz, hb, inner, h, rfl⟩
    obtain ⟨first, others, hi, rfl, ho⟩ := List.zipIdx_eq_append_iff.mp hz
    obtain ⟨item', after', rfl, hc, -⟩ := List.zipIdx_eq_cons_iff.mp ho.symm
    cases hc
    refine ⟨first, item, after', inner, hi, fun earlier hm => ?_, h, by rw [Nat.zero_add]⟩
    obtain ⟨j, hj, rfl⟩ := List.getElem_of_mem hm
    exact hb (first[j], 0 + j) (by simp [List.mem_zipIdx_iff_getElem?, hj])
  · rintro ⟨before, item, after, inner, rfl, hb, h, rfl⟩
    refine ⟨before.zipIdx, (item, before.length), after.zipIdx (before.length + 1), ?_, ?_,
      inner, h, rfl⟩
    · rw [List.zipIdx_append, List.zipIdx_cons, Nat.zero_add]
    · exact fun earlier hm => hb earlier.1 (List.fst_mem_of_mem_zipIdx hm)

end Errors

/-- Whatever error comes out has the property; a value may come out instead. -/
def Raises (p : FilterError → Prop) (outcome : Checked α) : Prop :=
  ∀ error, outcome = .error error → p error

namespace Raises

variable {p q : FilterError → Prop}

theorem ok {value : α} : Raises p (.ok value : Checked α) := by
  intro error h
  cases h

theorem error {error : FilterError} (h : p error) : Raises p (.error error : Checked α) := by
  intro found hf
  cases hf
  exact h

theorem map (h : Raises p outcome) (f : α → β) : Raises p (f <$> outcome) :=
  fun error he => h error (map_eq_error_iff.mp he)

theorem bind {next : α → Checked β} (h : Raises p outcome)
    (hn : ∀ value, outcome = .ok value → Raises p (next value)) : Raises p (outcome >>= next) := by
  intro error he
  rcases bind_eq_error_iff.mp he with he | ⟨value, hv, he⟩
  · exact h error he
  · exact hn value hv error he

theorem inside {steps : Path} (h : Raises q outcome) (hp : ∀ error, q error → p (error.inside steps)) :
    Raises p (Checked.inside steps outcome) := by
  intro error he
  obtain ⟨inner, hi, rfl⟩ := inside_eq_error_iff.mp he
  exact hp inner (h inner hi)

theorem deeper (h : Raises q outcome) (hp : ∀ error, q error → p error.deeper) :
    Raises p (Checked.deeper outcome) := by
  intro error he
  obtain ⟨inner, hi, rfl⟩ := deeper_eq_error_iff.mp he
  exact hp inner (h inner hi)

theorem mapM {examine : α → Checked β} {items : List α}
    (h : ∀ item ∈ items, Raises p (examine item)) : Raises p (items.mapM examine) := by
  intro error he
  obtain ⟨before, item, after, rfl, -, he⟩ := mapM_eq_error_iff.mp he
  exact h item (List.mem_append_right _ (List.mem_cons_self ..)) error he

theorem each {steps : Nat → Path} {examine : α → Checked β} {items : List α}
    (h : ∀ i item, items[i]? = some item →
      Raises (fun error => p (error.inside (steps i))) (examine item)) :
    Raises p (Checked.each steps examine items) := by
  intro error he
  obtain ⟨before, item, after, inner, rfl, -, hi, rfl⟩ := each_eq_error_iff.mp he
  exact h before.length item (by simp) inner hi

theorem option {examine : α → Checked β} {item? : Option α}
    (h : ∀ item, item? = some item → Raises p (examine item)) : Raises p (item?.mapM examine) := by
  cases item? with
  | none => exact .ok
  | some item => exact (h item rfl).map some

/-- What every level says of what it refuses, given that the level below says it, the whole recursion
says, if it can be said of nesting too deep. -/
theorem withinLimit {examine : Nat → (α → Checked β) → α → Checked β}
    {about : α → FilterError → Prop} (good : α → Prop)
    (depth : ∀ item limit, about item (.depthLimitExceeded limit))
    (deeper : ∀ item error, about item error → about item error.deeper)
    (step : ∀ limit inner, (∀ item, good item → Raises (about item) (inner item)) →
      ∀ item, good item → Raises (about item) (examine limit inner item))
    (limit : Nat) (item : α) (hg : good item) :
    Raises (about item) (Checked.withinLimit examine limit item) := by
  induction limit generalizing item with
  | zero => exact step 0 _ (fun below _ => .error (depth below 0)) item hg
  | succ limit ih =>
    rw [withinLimit_succ]
    exact step (limit + 1) _ (fun below hb => (ih below hb).deeper (deeper below)) item hg

end Raises
end Checked
end QueryDialect
