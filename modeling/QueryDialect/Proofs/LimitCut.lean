import QueryDialect.Proofs.DepthErrors
import QueryDialect.Source.Reader

namespace QueryDialect
namespace Checked

variable {α β : Type}

/-- The outcome under a limit `m` and the outcome under a limit `n` that is no larger, where `fits`
holds of the values that are nested within `n`. -/
inductive Cut (n m : Nat) (fits : α → Prop) : Checked α → Checked α → Prop
  /-- A value within the smaller limit is read as it was. -/
  | kept {value : α} (h : fits value) : Cut n m fits (.ok value) (.ok value)
  /-- A value beyond the smaller limit is refused for its nesting. -/
  | dropped {value : α} (h : ¬ fits value) :
    Cut n m fits (.ok value) (.error (.depthLimitExceeded n))
  /-- An error that is not about nesting is still the first one met. -/
  | refused {error : FilterError} (h : ¬ error.IsDepth) :
    Cut n m fits (.error error) (.error error)
  /-- Nesting beyond the smaller limit is met before another error. -/
  | overtaken {error : FilterError} (h : ¬ error.IsDepth) :
    Cut n m fits (.error error) (.error (.depthLimitExceeded n))
  /-- What is too deep for the larger limit is too deep for the smaller one. -/
  | tooDeep : Cut n m fits (.error (.depthLimitExceeded m)) (.error (.depthLimitExceeded n))

namespace Cut

variable {n m : Nat} {p q : α → Prop} {r : β → Prop} {long short : Checked α}

theorem congr (h : Cut n m p long short) (hpq : ∀ value, long = .ok value → (p value ↔ q value)) :
    Cut n m q long short := by
  cases h with
  | @kept value hp => exact .kept ((hpq value rfl).mp hp)
  | @dropped value hp => exact .dropped (mt (hpq value rfl).mpr hp)
  | refused he => exact .refused he
  | overtaken he => exact .overtaken he
  | tooDeep => exact .tooDeep

theorem fits_of_ok {value : α} (h : Cut n m p long (.ok value)) : p value := by
  cases h with
  | kept hp => exact hp

/-- Another outcome under a smaller limit that is always there, if no value fits it. -/
theorem cutShort (h : Cut n m p long short) (hq : ∀ value, long = .ok value → ¬ q value) (k : Nat) :
    Cut k m q long (.error (.depthLimitExceeded k)) := by
  cases h with
  | @kept value _ | @dropped value _ => exact .dropped (hq value rfl)
  | refused he | overtaken he => exact .overtaken he
  | tooDeep => exact .tooDeep

/-- An outcome in which nesting plays no part. -/
theorem same {outcome : Checked α} (h : Measured n False outcome) :
    Cut n m (fun _ => True) outcome outcome := by
  cases h with
  | ok h => exact .kept trivial
  | tooDeep h => exact h.elim
  | refused he => exact .refused he

theorem map (h : Cut n m p long short) (f : α → β) (hf : ∀ value, p value ↔ r (f value)) :
    Cut n m r (f <$> long) (f <$> short) := by
  cases h with
  | kept hp => exact .kept ((hf _).mp hp)
  | dropped hp => exact .dropped (mt (hf _).mpr hp)
  | refused he => exact .refused he
  | overtaken he => exact .overtaken he
  | tooDeep => exact .tooDeep

theorem inside (h : Cut n m p long short) (steps : Path) :
    Cut n m p (Checked.inside steps long) (Checked.inside steps short) := by
  cases h with
  | kept hp => exact .kept hp
  | dropped hp => exact .dropped hp
  | refused he => exact .refused (by rwa [FilterError.isDepth_inside])
  | overtaken he => exact .overtaken (by rwa [FilterError.isDepth_inside])
  | tooDeep => exact .tooDeep

theorem deeper (h : Cut n m p long short) :
    Cut (n + 1) (m + 1) p (Checked.deeper long) (Checked.deeper short) := by
  cases h with
  | kept hp => exact .kept hp
  | dropped hp => exact .dropped hp
  | refused he => exact .refused (by rwa [FilterError.isDepth_deeper])
  | overtaken he => exact .overtaken (by rwa [FilterError.isDepth_deeper])
  | tooDeep => exact .tooDeep

/-- One reading after another: what is read fits when both parts do. -/
theorem bind {next next' : α → Checked β} {q : α → β → Prop} (h : Cut n m p long short)
    (hn : ∀ value, Cut n m (q value) (next value) (next' value))
    (hr : ∀ value result, next value = .ok result → (r result ↔ p value ∧ q value result)) :
    Cut n m r (long >>= next) (short >>= next') := by
  cases h with
  | @kept value hp =>
    apply (hn value).congr
    intro result hx
    rw [hr value result hx, and_iff_right hp]
  | @dropped value hp =>
    refine (hn value).cutShort ?_ n
    intro result hx hc
    exact hp ((hr value result hx).mp hc).1
  | refused he => exact .refused he
  | overtaken he => exact .overtaken he
  | tooDeep => exact .tooDeep

/-- A step in which nesting plays no part, and the rest after it. -/
theorem bind_same {outcome : Checked α} {next next' : α → Checked β} (h : Measured n False outcome)
    (hn : ∀ value, Cut n m r (next value) (next' value)) :
    Cut n m r (outcome >>= next) (outcome >>= next') :=
  bind (same h) hn (fun _ _ _ => by simp only [true_and])

theorem mapM {γ : Type} {examine examine' : γ → Checked α}
    (h : ∀ item, Cut n m p (examine item) (examine' item)) (items : List γ) :
    Cut n m (fun values => ∀ value ∈ values, p value) (items.mapM examine)
      (items.mapM examine') := by
  induction items with
  | nil => exact .kept (by simp)
  | cons item rest ih =>
    rw [List.mapM_cons, List.mapM_cons]
    refine bind (q := fun _ values => ∀ value ∈ values.tail, p value) (h item)
      (fun first => ih.map (first :: ·) fun _ => Iff.rfl) ?_
    intro first values hv
    obtain ⟨others, -, hv⟩ := bind_eq_ok_iff.mp hv
    cases hv
    simp

theorem each {γ : Type} {examine examine' : γ → Checked α}
    (h : ∀ item, Cut n m p (examine item) (examine' item)) (steps : Nat → Path) (items : List γ) :
    Cut n m (fun values => ∀ value ∈ values, p value) (Checked.each steps examine items)
      (Checked.each steps examine' items) :=
  mapM (fun item : γ × Nat => (h item.1).inside (steps item.2)) items.zipIdx

theorem optional {examine examine' : Json → Checked α}
    (h : ∀ json, Cut n m p (examine json) (examine' json)) (members : Keyed Json) (key : String) :
    Cut n m (fun value? => ∀ value, value? = some value → p value)
      (Checked.optional members key examine) (Checked.optional members key examine') := by
  unfold Checked.optional
  split
  · exact .kept (by simp)
  · exact ((h _).inside _).map _ (by simp)

/-- If every level is cut as long as the level below it is, then so is the whole recursion. -/
theorem withinLimit {γ : Type} {level : Nat → (γ → Checked α) → γ → Checked α} {depth : α → Nat}
    (hl : ∀ n m long short, n ≤ m →
      (∀ item, Cut n m (fun value => depth value < n) (long item) (short item)) →
      ∀ item, Cut n m (fun value => depth value ≤ n) (level m long item) (level n short item))
    (hnm : n ≤ m) (item : γ) :
    Cut n m (fun value => depth value ≤ n) (Checked.withinLimit level m item)
      (Checked.withinLimit level n item) := by
  induction m generalizing n item with
  | zero =>
    obtain rfl : n = 0 := by omega
    exact hl 0 0 _ _ hnm (fun _ => .tooDeep) item
  | succ m ih =>
    cases n with
    | zero =>
      refine hl 0 (m + 1) _ _ hnm (fun below => ?_) item
      have hm := (ih (Nat.le_refl m) below).deeper
      exact hm.cutShort (fun _ _ => Nat.not_lt_zero _) 0
    | succ n =>
      refine hl (n + 1) (m + 1) _ _ hnm (fun below => ?_) item
      have hm := (ih (Nat.le_of_succ_le_succ hnm) below).deeper
      exact hm.congr fun _ _ => Nat.lt_succ_iff.symm

end Cut
end Checked
end QueryDialect
