import Mathlib.Data.List.Forall2
import QueryDialect.Checked

namespace QueryDialect

theorem exists_mem_of_forall₂ {α β : Type} {R : α → β → Prop} {items : List α} {values : List β}
    (h : List.Forall₂ R items values) {item : α} (hm : item ∈ items) :
    ∃ value ∈ values, R item value := by
  induction h with
  | nil => exact absurd hm List.not_mem_nil
  | cons hr _ ih =>
    rcases List.mem_cons.mp hm with rfl | hm
    · exact ⟨_, List.mem_cons_self .., hr⟩
    · obtain ⟨value, hv, hr⟩ := ih hm
      exact ⟨value, List.mem_cons_of_mem _ hv, hr⟩

section Written

variable {m : Type → Type} [Monad m] [LawfulMonad m] {α β : Type} {read : α → m β} {write : β → α}

/-- Reading succeeds on written items, if it does on each. -/
theorem mapM_map_eq_pure {values : List β} (h : ∀ value ∈ values, read (write value) = pure value) :
    (values.map write).mapM read = pure values := by
  induction values with
  | nil => rfl
  | cons value rest ih =>
    obtain ⟨hv, hr⟩ := List.forall_mem_cons.mp h
    rw [List.map_cons, List.mapM_cons, hv, ih hr, pure_bind, pure_bind]

theorem option_mapM_map_eq_pure {value? : Option β}
    (h : ∀ value, value? = some value → read (write value) = pure value) :
    (value?.map write).mapM read = pure value? := by
  cases value? with
  | none => rfl
  | some value =>
    have hv : read (write value) = pure value := h value rfl
    rw [Option.map_some, Option.mapM_some, hv, map_pure]

end Written

namespace Checked

variable {α β : Type}

theorem map_eq_ok_iff {f : α → β} {outcome : Checked α} {result : β} :
    f <$> outcome = .ok result ↔ ∃ value, outcome = .ok value ∧ f value = result := by
  cases outcome <;> simp [Functor.map, Except.map]

theorem mapM_eq_ok_iff {examine : α → Checked β} {items : List α} {values : List β} :
    items.mapM examine = .ok values ↔
      List.Forall₂ (fun item value => examine item = .ok value) items values := by
  induction items generalizing values with
  | nil => cases values <;> simp [pure, Except.pure]
  | cons item rest ih =>
    rw [List.mapM_cons, bind_eq_ok_iff, List.forall₂_cons_left_iff]
    constructor
    · intro h
      obtain ⟨value, hi, h⟩ := h
      obtain ⟨others, hr, h⟩ := bind_eq_ok_iff.mp h
      cases h
      exact ⟨value, others, hi, ih.mp hr, rfl⟩
    · intro h
      obtain ⟨value, others, hi, hr, rfl⟩ := h
      exact ⟨value, hi, bind_eq_ok_iff.mpr ⟨others, ih.mpr hr, rfl⟩⟩

theorem exists_of_mem_mapM {examine : α → Checked β} {items : List α} {values : List β}
    (h : items.mapM examine = .ok values) {value : β} (hm : value ∈ values) :
    ∃ item ∈ items, examine item = .ok value :=
  exists_mem_of_forall₂ (mapM_eq_ok_iff.mp h).flip hm

theorem exists_of_mem_each {steps : Nat → Path} {examine : α → Checked β} {items : List α}
    {values : List β} (h : each steps examine items = .ok values) {value : β}
    (hm : value ∈ values) : ∃ item ∈ items, examine item = .ok value :=
  exists_of_mem_mapM (each_eq_ok_iff.mp h) hm

theorem exists_of_option_mapM {examine : α → Checked β} {item? : Option α} {value : β}
    (h : item?.mapM examine = .ok (some value)) :
    ∃ item, item? = some item ∧ examine item = .ok value := by
  cases item? with
  | none => cases h
  | some item =>
    obtain ⟨found, hf, he⟩ := map_eq_ok_iff.mp h
    cases he
    exact ⟨item, rfl, hf⟩

theorem isSome_of_option_mapM {examine : α → Checked β} {item? : Option α} {value? : Option β}
    (h : item?.mapM examine = .ok value?) : value?.isSome = item?.isSome := by
  cases item? with
  | none =>
    cases h
    rfl
  | some item =>
    obtain ⟨value, -, rfl⟩ := map_eq_ok_iff.mp h
    rfl

/-- Whatever value comes out has the property; an error may come out instead. -/
def Yields (p : α → Prop) (outcome : Checked α) : Prop :=
  ∀ value, outcome = .ok value → p value

namespace Yields

variable {p q : α → Prop} {r : β → Prop} {outcome : Checked α}

theorem ok {value : α} (h : p value) : Yields p (.ok value) := by
  intro found hf
  cases hf
  exact h

theorem error (error : FilterError) : Yields p (.error error : Checked α) := by
  intro value hv
  cases hv

theorem mono (h : Yields p outcome) (hpq : ∀ value, p value → q value) : Yields q outcome :=
  fun value hv => hpq value (h value hv)

theorem map {f : α → β} (h : Yields (fun value => r (f value)) outcome) :
    Yields r (f <$> outcome) := by
  cases outcome with
  | error e => exact Yields.error e
  | ok value => exact Yields.ok (h value rfl)

theorem inside (h : Yields p outcome) (steps : Path) : Yields p (Checked.inside steps outcome) :=
  fun value hv => h value (inside_eq_ok_iff.mp hv)

theorem deeper (h : Yields p outcome) : Yields p (Checked.deeper outcome) :=
  fun value hv => h value (deeper_eq_ok_iff.mp hv)

theorem mapM {examine : α → Checked β} {s : α → β → Prop}
    (h : ∀ item, Yields (s item) (examine item)) (items : List α) :
    Yields (List.Forall₂ s items) (items.mapM examine) := by
  intro values hv
  exact (mapM_eq_ok_iff.mp hv).imp fun item value hi => h item value hi

theorem each {examine : α → Checked β} (h : ∀ item, Yields r (examine item))
    (steps : Nat → Path) (items : List α) :
    Yields (fun values => ∀ value ∈ values, r value) (Checked.each steps examine items) := by
  intro values hv value hm
  obtain ⟨item, -, hi⟩ := exists_of_mem_each hv hm
  exact h item value hi

/-- What every level keeps, given that the level below keeps it, the whole recursion keeps. -/
theorem withinLimit {level : Nat → (α → Checked β) → α → Checked β} {s : α → β → Prop}
    (hl : ∀ limit inner, (∀ item, Yields (s item) (inner item)) →
      ∀ item, Yields (s item) (level limit inner item)) (limit : Nat) (item : α) :
    Yields (s item) (Checked.withinLimit level limit item) := by
  induction limit generalizing item with
  | zero => exact hl 0 _ (fun _ => Yields.error _) item
  | succ limit ih =>
    rw [withinLimit_succ]
    exact hl (limit + 1) _ (fun below => (ih below).deeper) item

end Yields
end Checked
end QueryDialect
