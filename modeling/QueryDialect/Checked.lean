import QueryDialect.Error

namespace QueryDialect

/-- The outcome of examining a filter. -/
abbrev Checked := Except FilterError

namespace Checked

variable {α β : Type}

def refuse (defect : Defect) : Checked α :=
  .error (.malformed [] defect)

def inside (steps : Path) (outcome : Checked α) : Checked α :=
  outcome.mapError (.inside steps)

def deeper (outcome : Checked α) : Checked α :=
  outcome.mapError .deeper

@[simp] theorem inside_eq_ok_iff {steps : Path} {outcome : Checked α} {value : α} :
    inside steps outcome = .ok value ↔ outcome = .ok value := by
  cases outcome with
  | error error => constructor <;> intro h <;> cases h
  | ok found => exact Iff.rfl

@[simp] theorem deeper_eq_ok_iff {outcome : Checked α} {value : α} :
    deeper outcome = .ok value ↔ outcome = .ok value := by
  cases outcome with
  | error error => constructor <;> intro h <;> cases h
  | ok found => exact Iff.rfl

/-- Examines the items of a list in order up to the first error, which is placed at the steps of
its item. -/
def each (steps : Nat → Path) (examine : α → Checked β) (items : List α) : Checked (List β) :=
  items.zipIdx.mapM fun item => inside (steps item.2) (examine item.1)

theorem bind_eq_ok_iff {outcome : Checked α} {next : α → Checked β} {value : β} :
    outcome >>= next = .ok value ↔ ∃ first, outcome = .ok first ∧ next first = .ok value := by
  cases outcome <;> simp [bind, Except.bind]

/-- Where errors are placed has no bearing on success. -/
theorem each_eq_ok_iff {steps : Nat → Path} {examine : α → Checked β} {items : List α}
    {values : List β} :
    each steps examine items = .ok values ↔ items.mapM examine = .ok values := by
  suffices ∀ start, (items.zipIdx start).mapM (fun item => inside (steps item.2) (examine item.1)) =
      .ok values ↔ items.mapM examine = .ok values from this 0
  induction items generalizing values with
  | nil => simp
  | cons item rest ih =>
    intro start
    simp only [List.zipIdx_cons, List.mapM_cons, bind_eq_ok_iff, inside_eq_ok_iff, ih]

/-- Recursion with a bound on nesting: `level` says what happens on one level, given what to do on
the level below, and `limit` levels may follow the first. -/
def withinLimit (level : (limit : Nat) → (α → Checked β) → α → Checked β) :
    (limit : Nat) → α → Checked β
  | 0 => level 0 fun _ => .error (.depthLimitExceeded 0)
  | limit + 1 => level (limit + 1) fun inner => deeper (withinLimit level limit inner)

@[simp] theorem withinLimit_zero (level : Nat → (α → Checked β) → α → Checked β) :
    withinLimit level 0 = level 0 fun _ => .error (.depthLimitExceeded 0) := rfl

theorem withinLimit_succ (level : Nat → (α → Checked β) → α → Checked β) (limit : Nat) :
    withinLimit level (limit + 1) =
      level (limit + 1) fun inner => deeper (withinLimit level limit inner) := rfl

end Checked
end QueryDialect
