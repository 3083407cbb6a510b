import QueryDialect.Proofs.SharedConversion

namespace QueryDialect

variable {α β : Type} {convert : Options → α → Checked β × α} {empty : α} {converted : β}

/-- What the conversions of a variable give, each with what the variable holds after it. -/
def successive (convert : Options → α → Checked β × α) : α → List Options → List (Checked β × α)
  | _, [] => []
  | held, options :: rest =>
    convert options held :: successive convert (convert options held).2 rest

/-- A conversion that leaves its input alone if it is shared, and an empty one behind if it is
exclusive. Nothing goes wrong with the empty input. -/
structure Drains (convert : Options → α → Checked β × α) (empty : α) (converted : β) : Prop where
  left : ∀ options held, (convert options held).2 = if options.exclusive then empty else held
  drained : ∀ options, convert options empty = (.ok converted, empty)

theorem Drains.successive_empty (hd : Drains convert empty converted) (series : List Options) :
    successive convert empty series = series.map fun _ => (.ok converted, empty) := by
  induction series with
  | nil => rfl
  | cons options rest ih =>
    rw [successive, hd.drained, ih]
    rfl

/-- A conversion after an exclusive one finds nothing, any other finds what there was at first. -/
theorem Drains.getElem?_successive (hd : Drains convert empty converted) (held : α)
    (series : List Options) (i : Nat) :
    (successive convert held series)[i]? = series[i]?.map fun options =>
      if (series.take i).any (·.exclusive) then (.ok converted, empty)
      else ((convert options held).1, if options.exclusive then empty else held) := by
  induction series generalizing i with
  | nil => rfl
  | cons options rest ih =>
    rw [successive, hd.left options held]
    cases i with
    | zero =>
      have first : convert options held =
          ((convert options held).1, if options.exclusive then empty else held) := by
        rw [← hd.left options held]
      rw [List.getElem?_cons_zero, first]
      rfl
    | succ i =>
      rw [List.getElem?_cons_succ, List.getElem?_cons_succ, List.take_succ_cons, List.any_cons]
      cases he : options.exclusive with
      | false => exact ih i
      | true =>
        -- From here on only the empty input is left, so what was held at first does not matter.
        rw [if_pos rfl, hd.successive_empty, List.getElem?_map, Bool.true_or]
        rfl

/-- A conversion that checks the depth of what it shares drains, if the empty input is never too deep
and is always converted. -/
theorem Drains.of_run {run : Nat → α → Checked β} {exceeds : α → Nat → Bool}
    (hx : ∀ {options held}, options.exclusive = true →
      convert options held = (run options.limit held, empty))
    (hs : ∀ {options held}, options.exclusive = false → convert options held =
      (if exceeds held options.limit then .error (.depthLimitExceeded options.limit)
        else run options.limit held, held))
    (he : ∀ limit, exceeds empty limit = false) (hr : ∀ limit, run limit empty = .ok converted) :
    Drains convert empty converted where
  left options held := by
    cases h : options.exclusive with
    | true => rw [hx h, if_pos rfl]
    | false => rw [hs h, if_neg Bool.false_ne_true]
  drained options := by
    cases h : options.exclusive with
    | true => rw [hx h, hr]
    | false => rw [hs h, he, hr, if_neg Bool.false_ne_true]

theorem Filter.drains : Drains Filter.convert .empty {} := by
  refine .of_run convert_of_exclusive convert_of_shared (fun limit => ?_) (fun limit => ?_)
  · have hd : Filter.empty.depth ≤ limit := Nat.zero_le limit
    exact Bool.eq_false_iff.mpr (mt exceedsDepth_iff.mp (Nat.not_lt.mpr hd))
  · cases limit <;> rfl

theorem Clause.drains : Drains Clause.convert .empty (.and []) := by
  refine .of_run convert_of_exclusive convert_of_shared (fun limit => ?_) (fun limit => ?_)
  · have hd : Clause.empty.depth ≤ limit := Nat.zero_le limit
    exact Bool.eq_false_iff.mpr (mt exceedsDepth_iff.mp (Nat.not_lt.mpr hd))
  · cases limit <;> rfl

/-- Whatever the limits are and whatever fails: up to the first exclusive conversion of a variable each
gives what it gives on a fresh copy, and after it all of them succeed with nothing. -/
theorem successive_conversions_until_exclusive (series : List Options) (i : Nat) :
    (∀ filter, (successive Filter.convert filter series)[i]? = series[i]?.map fun options =>
      if (series.take i).any (·.exclusive) then (.ok {}, .empty)
      else ((filter.convert options).1, if options.exclusive then .empty else filter)) ∧
    ∀ clause, (successive Clause.convert clause series)[i]? = series[i]?.map fun options =>
      if (series.take i).any (·.exclusive) then (.ok (.and []), .empty)
      else ((clause.convert options).1, if options.exclusive then .empty else clause) :=
  ⟨fun filter => Filter.drains.getElem?_successive filter series i,
    fun clause => Clause.drains.getElem?_successive clause series i⟩

end QueryDialect
