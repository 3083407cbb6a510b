import Mathlib.Data.List.Enum
import QueryDialect.Checked

namespace QueryDialect

/-- Is nesting what the error complains about? -/
def FilterError.IsDepth : FilterError → Prop
  | .depthLimitExceeded _ => True
  | _ => False

namespace FilterError

@[simp] theorem isDepth_inside {steps : Path} {error : FilterError} :
    (error.inside steps).IsDepth ↔ error.IsDepth := by
  cases error <;> rfl

@[simp] theorem isDepth_deeper {error : FilterError} :
    error.deeper.IsDepth ↔ error.IsDepth := by
  cases error <;> rfl

end FilterError

namespace Checked

variable {α β γ : Type}

/-- The outcome of examining something that is nested too deep for the limit or is not: what is too
deep never passes, and an error about nesting names the limit and is right. -/
inductive Measured (limit : Nat) (tooDeep : Prop) : Checked α → Prop
  | ok {value : α} (h : ¬ tooDeep) : Measured limit tooDeep (.ok value)
  | tooDeep (h : tooDeep) : Measured limit tooDeep (.error (.depthLimitExceeded limit))
  | refused {error : FilterError} (h : ¬ error.IsDepth) : Measured limit tooDeep (.error error)

namespace Measured

variable {limit : Nat} {p q : Prop} {outcome : Checked α}

theorem congr (hpq : p ↔ q) (h : Measured limit p outcome) : Measured limit q outcome :=
  propext hpq ▸ h

theorem not_tooDeep_of_ok {value : α} (h : Measured limit p (.ok value : Checked α)) : ¬ p := by
  cases h with
  | ok hp => exact hp

theorem of_depth_error {found : Nat}
    (h : Measured limit p (.error (.depthLimitExceeded found) : Checked α)) : found = limit ∧ p := by
  cases h with
  | tooDeep hp => exact ⟨rfl, hp⟩
  | refused hr => exact absurd trivial hr

theorem map (h : Measured limit p outcome) (f : α → β) : Measured limit p (f <$> outcome) := by
  cases h with
  | ok hp => exact .ok hp
  | tooDeep hp => exact .tooDeep hp
  | refused hr => exact .refused hr

theorem inside (h : Measured limit p outcome) (steps : Path) :
    Measured limit p (Checked.inside steps outcome) := by
  cases h with
  | ok hp => exact .ok hp
  | tooDeep hp => exact .tooDeep hp
  | refused hr => exact .refused (by rwa [FilterError.isDepth_inside])

theorem deeper (h : Measured limit p outcome) :
    Measured (limit + 1) p (Checked.deeper outcome) := by
  cases h with
  | ok hp => exact .ok hp
  | tooDeep hp => exact .tooDeep hp
  | refused hr => exact .refused (by rwa [FilterError.isDepth_deeper])

/-- One examination after another: the whole is too deep when one of the two parts is. -/
theorem bind {next : α → Checked β} (h : Measured limit p outcome)
    (hn : ∀ value, outcome = .ok value → Measured limit q (next value)) :
    Measured limit (p ∨ q) (outcome >>= next) := by
  cases h with
  | @ok value hp => exact (hn value rfl).congr (by simp only [hp, false_or])
  | tooDeep hp => exact .tooDeep (.inl hp)
  | refused hr => exact .refused hr

theorem mapM {examine : α → Checked β} {deep : α → Prop}
    (h : ∀ item, Measured limit (deep item) (examine item)) (items : List α) :
    Measured limit (∃ item ∈ items, deep item) (items.mapM examine) := by
  induction items with
  | nil => exact .ok (by simp)
  | cons item rest ih =>
    rw [List.mapM_cons]
    refine congr ?_ (bind (h item) fun value _ => ih.map (value :: ·))
    simp only [List.exists_mem_cons_iff]

theorem each (steps : Nat → Path) {examine : α → Checked β} {deep : α → Prop}
    (h : ∀ item, Measured limit (deep item) (examine item)) (items : List α) :
    Measured limit (∃ item ∈ items, deep item) (Checked.each steps examine items) := by
  have hz := mapM (fun item : α × Nat => (h item.1).inside (steps item.2)) items.zipIdx
  refine hz.congr ?_
  rw [List.exists_mem_zipIdx', List.exists_mem_iff_getElem]

/-- Items of which none is ever too deep. -/
theorem mapM_of_never {examine : α → Checked β} (h : ∀ item, Measured limit False (examine item))
    (items : List α) : Measured limit False (items.mapM examine) :=
  (mapM h items).congr (by simp)

theorem each_of_never (steps : Nat → Path) {examine : α → Checked β}
    (h : ∀ item, Measured limit False (examine item)) (items : List α) :
    Measured limit False (Checked.each steps examine items) :=
  mapM_of_never (fun item : α × Nat => (h item.1).inside (steps item.2)) items.zipIdx

theorem option {examine : α → Checked β} {deep : α → Prop}
    (h : ∀ item, Measured limit (deep item) (examine item)) (item? : Option α) :
    Measured limit (∃ item, item? = some item ∧ deep item) (item?.mapM examine) := by
  cases item? with
  | none => exact .ok (by simp)
  | some item => exact ((h item).map some).congr (by simp)

/-- If every level is measured as long as the level below it is, then so is the whole recursion. -/
theorem withinLimit {level : Nat → (α → Checked β) → α → Checked β} {depth : α → Nat}
    (hl : ∀ limit inner, (∀ item, Measured limit (limit < depth item + 1) (inner item)) →
      ∀ item, Measured limit (limit < depth item) (level limit inner item))
    (limit : Nat) (item : α) :
    Measured limit (limit < depth item) (Checked.withinLimit level limit item) := by
  induction limit generalizing item with
  | zero => exact hl 0 _ (fun _ => .tooDeep (Nat.succ_pos _)) item
  | succ limit ih =>
    rw [withinLimit_succ]
    refine hl (limit + 1) _ (fun below => ?_) item
    exact (ih below).deeper.congr Nat.succ_lt_succ_iff.symm

end Measured
end Checked
end QueryDialect
