import QueryDialect.Conversion.Ownership
import QueryDialect.Proofs.SourceGrammar

namespace QueryDialect

/-- The first of the two has priority over the second. -/
def Operator.Outranks (first second : Operator) : Prop :=
  priority.idxOf first < priority.idxOf second

instance (first second : Operator) : Decidable (first.Outranks second) :=
  inferInstanceAs (Decidable (_ < _))

/-- Of the operators among the keys of an object, this one has priority, and this is its value. -/
structure Operator.Decides (operator : Operator) (members : Keyed Json) (operand : Json) : Prop where
  present : members.get? operator.key = some operand
  first : ∀ other : Operator, other.Outranks operator → members.get? other.key = none

/-- The keys that the target dialect has for operators. -/
def Operator.targetKeys : List (Operator × String) :=
  [(eq, "equals"), (neq, "not"), (gt, "gt"), (gte, "gte"), (lt, "lt"), (lte, "lte"), (inq, "in"),
    (matching, "match")]

namespace Operator

variable {operator other : Operator}

theorem key_injective (h : operator.key = other.key) : operator = other := by
  have ho : ofKey? operator.key = some other := h ▸ ofKey?_key other
  rw [ofKey?_key] at ho
  exact Option.some.inj ho

theorem Outranks.key_ne (h : operator.Outranks other) : other.key ≠ operator.key := by
  intro he
  cases key_injective he
  exact Nat.lt_irrefl _ h

theorem nodup_priority : priority.Nodup := by
  decide

theorem outranks_iff_mem {before after : List Operator}
    (hp : priority = before ++ operator :: after) : other.Outranks operator ↔ other ∈ before := by
  have hd : (before ++ operator :: after).Nodup := hp ▸ nodup_priority
  have hn : operator ∉ before := fun hm =>
    (List.nodup_append.mp hd).2.2 operator hm operator (List.mem_cons_self ..) rfl
  have ho : priority.idxOf operator = before.length := by
    rw [hp, List.idxOf_append_of_notMem hn, List.idxOf_cons_self, Nat.add_zero]
  rw [Outranks, ho, hp]
  by_cases hm : other ∈ before
  · rw [List.idxOf_append_of_mem hm]
    exact iff_of_true (List.idxOf_lt_length_of_mem hm) hm
  · rw [List.idxOf_append_of_notMem hm]
    exact iff_of_false (Nat.not_lt.mpr (Nat.le_add_right ..)) hm

theorem keyword?_of_mem_targetKeys {target : String} (h : (operator, target) ∈ targetKeys) :
    ∃ keyword, operator.keyword? = some keyword ∧ keyword.text = target := by
  simp only [targetKeys, List.mem_cons, Prod.mk.injEq, List.not_mem_nil, or_false] at h
  rcases h with h | h | h | h | h | h | h | h <;>
    (obtain ⟨rfl, rfl⟩ := h; exact ⟨_, rfl, rfl⟩)

theorem keyword?_of_mem_unsupported (h : operator ∈ [between, nin, near, like, ilike, regexp]) :
    operator.keyword? = none := by
  revert h
  cases operator <;> decide

end Operator

section Objects

variable {members : Keyed Json} {operator : Operator} {operand : Json} {name : String}

theorem exists_decides_or_forall_none (members : Keyed Json) :
    (∃ operator operand, Operator.Decides operator members operand) ∨
      ∀ operator : Operator, members.get? operator.key = none := by
  cases hf : Operator.priority.findSome? fun operator : Operator =>
      (members.get? operator.key).map fun operand => (operator, operand) with
  | none =>
    refine .inr fun operator => ?_
    exact Option.map_eq_none_iff.mp (List.findSome?_eq_none_iff.mp hf operator operator.mem_priority)
  | some found =>
    obtain ⟨before, operator, after, hp, hf, hb⟩ := List.findSome?_eq_some_iff.mp hf
    obtain ⟨operand, ho, -⟩ := Option.map_eq_some_iff.mp hf
    refine .inl ⟨operator, operand, ho, fun other hr => ?_⟩
    exact Option.map_eq_none_iff.mp (hb other ((Operator.outranks_iff_mem hp).mp hr))

theorem Operator.Decides.insert (h : operator.Decides members operand) {key : String} {value : Json}
    (hk : ∀ other : Operator, other.key = key → operator.Outranks other) :
    operator.Decides (members.insert key value) operand := by
  constructor
  · have hn : key ≠ operator.key := fun he => (hk operator he.symm).key_ne rfl
    rw [Keyed.get?_insert, if_neg hn, h.present]
  · intro other ho
    have hn : key ≠ other.key := by
      intro he
      exact Nat.lt_asymm ho (hk other he.symm)
    rw [Keyed.get?_insert, if_neg hn, h.first other ho]

theorem Condition.ofJson_of_decides (h : operator.Decides members operand) :
    Condition.ofJson name (.object members) = .ok (.operator operator operand) := by
  obtain ⟨before, after, hp⟩ := List.append_of_mem operator.mem_priority
  exact (accepts_ofJson name _ _).mpr
    (.operator hp h.present fun other hm => h.first other ((Operator.outranks_iff_mem hp).mpr hm))

theorem Condition.ofJson_of_none (h : ∀ operator : Operator, members.get? operator.key = none) :
    Condition.ofJson name (.object members) =
      .error (.unrecognizedOperator name (.object members)) := by
  have hf : Operator.priority.findSome? (fun operator =>
      (Keyed.get? operator.key members).map (Condition.operator operator)) = none := by
    refine List.findSome?_eq_none_iff.mpr fun operator _ => ?_
    rw [h operator, Option.map_none]
  rw [Condition.ofJson, hf]

theorem Clause.ofJson_field (limit : Nat) (ha : name ≠ "and") (ho : name ≠ "or") (value : Json) :
    Clause.ofJson limit (.object [(name, value)]) = field name <$> Condition.ofJson name value := by
  cases limit <;> exact ofJsonWith_singleton ha ho

theorem Clause.toPredicate_field (limit : Nat) (condition : Condition) :
    toPredicate limit (.field name condition) = .field name <$> condition.toTest name := by
  cases limit <;> rfl

/-- A field that stands alone meets no limit. -/
theorem Clause.convertJson_field (options : Options) (ha : name ≠ "and") (ho : name ≠ "or")
    (value : Json) :
    Clause.convertJson options (.object [(name, value)]) = (do
      let condition ← Condition.ofJson name value
      (fun test => .object [(name, test.toJson)]) <$> condition.toTest name) := by
  rw [convertJson_eq_steps, ofJson_field options.limit ha ho]
  cases Condition.ofJson name value with
  | error error => rfl
  | ok condition =>
    change Predicate.toJson <$> toPredicate options.limit (.field name condition) =
      _ <$> condition.toTest name
    rw [toPredicate_field]
    cases condition.toTest name <;> rfl

variable (options : Options) (ha : name ≠ "and") (ho : name ≠ "or")

include ha ho

theorem convertJson_of_decides (h : operator.Decides members operand) :
    Clause.convertJson options (.object [(name, .object members)]) =
      (fun test => .object [(name, test.toJson)]) <$>
        Condition.toTest name (.operator operator operand) := by
  rw [Clause.convertJson_field options ha ho, Condition.ofJson_of_decides h]
  rfl

theorem convertJson_of_decides_supported (h : operator.Decides members operand) {target : String}
    (ht : (operator, target) ∈ Operator.targetKeys) :
    Clause.convertJson options (.object [(name, .object members)]) =
      .ok (.object [(name, .object [(target, operand)])]) := by
  obtain ⟨keyword, hk, rfl⟩ := Operator.keyword?_of_mem_targetKeys ht
  have test : Condition.toTest name (.operator operator operand) = .ok (.compare keyword operand) := by
    rw [Condition.toTest, hk]
  rw [convertJson_of_decides options ha ho h, test]
  rfl

theorem convertJson_of_decides_unsupported (h : operator.Decides members operand)
    (hu : operator.keyword? = none) :
    Clause.convertJson options (.object [(name, .object members)]) =
      .error (.unsupportedOperator name operator) := by
  have test : Condition.toTest name (.operator operator operand) =
      .error (.unsupportedOperator name operator) := by
    rw [Condition.toTest, hu]
  rw [convertJson_of_decides options ha ho h, test]
  rfl

theorem convertJson_of_none (h : ∀ operator : Operator, members.get? operator.key = none) :
    Clause.convertJson options (.object [(name, .object members)]) =
      .error (.unrecognizedOperator name (.object members)) := by
  rw [Clause.convertJson_field options ha ho, Condition.ofJson_of_none h]
  rfl

end Objects

/-- What becomes of a field that is compared with an object. The operators are tried in one order,
whatever the order of the object's members, and the first that is there settles the matter. -/
theorem outranking_operator_decides (options : Options) {name : String} (ha : name ≠ "and")
    (ho : name ≠ "or") (members : Keyed Json) :
    let converted := fun members : Keyed Json =>
      Clause.convertJson options (.object [(name, .object members)])
    Operator.priority.map Operator.key =
      ["eq", "neq", "gt", "gte", "lt", "lte", "between", "inq", "nin", "match", "near", "like",
        "ilike", "regexp"] ∧
    ((∃ operator operand, Operator.Decides operator members operand) ∨
      ∀ operator : Operator, members.get? operator.key = none) ∧
    (∀ operator operand, Operator.Decides operator members operand →
      (∀ target, (operator, target) ∈ Operator.targetKeys →
        converted members = .ok (.object [(name, .object [(target, operand)])])) ∧
      (operator ∈ [.between, .nin, .near, .like, .ilike, .regexp] →
        converted members = .error (.unsupportedOperator name operator)) ∧
      ∀ key value, (∀ other : Operator, other.key = key → operator.Outranks other) →
        converted (members.insert key value) = converted members) ∧
    ((∀ operator : Operator, members.get? operator.key = none) →
      converted members = .error (.unrecognizedOperator name (.object members)) ∧
      (FilterError.unrecognizedOperator name (.object members)).message =
        "unrecognized operator on field `" ++ name ++ "`: " ++ (Json.object members).compact) := by
  intro converted
  refine ⟨rfl, exists_decides_or_forall_none members, fun operator operand h => ?_,
    fun h => ⟨convertJson_of_none options ha ho h, rfl⟩⟩
  refine ⟨fun target ht => convertJson_of_decides_supported options ha ho h ht,
    fun hu => ?_, fun key value hk => ?_⟩
  · have hn : operator.keyword? = none := Operator.keyword?_of_mem_unsupported hu
    exact convertJson_of_decides_unsupported options ha ho h hn
  · have hi : operator.Decides (members.insert key value) operand := h.insert hk
    exact (convertJson_of_decides options ha ho hi).trans
      (convertJson_of_decides options ha ho h).symm

/-- A range is refused although there is a list of values beside it, and so it is with a pattern put
in as well. -/
theorem unsupported_operator_is_not_masked :
    let members : Keyed Json := [("between", .null), ("inq", .array []), ("unit", .string "cm")]
    let converted := fun members : Keyed Json =>
      Clause.convertJson {} (.object [("size", .object members)])
    "size" ≠ "and" ∧ "size" ≠ "or" ∧ Operator.between.Decides members .null ∧
      converted members = .error (.unsupportedOperator "size" .between) ∧
      converted (members.insert "like" (.string "%")) =
        .error (.unsupportedOperator "size" .between) := by
  intro members converted
  have hd : Operator.between.Decides members .null := by
    refine ⟨rfl, fun other hr => ?_⟩
    revert hr
    cases other <;> first | exact fun _ => rfl | decide
  have hk : ∀ other : Operator, other.key = "like" → Operator.between.Outranks other := by
    intro other
    cases other <;> decide
  obtain ⟨-, -, decided, -⟩ :=
    @outranking_operator_decides {} "size" (by decide) (by decide) members
  obtain ⟨-, unsupported, unchanged⟩ := decided .between .null hd
  have refused : converted members = .error (.unsupportedOperator "size" .between) :=
    unsupported (by decide)
  exact ⟨by decide, by decide, hd, refused, (unchanged "like" (.string "%") hk).trans refused⟩

end QueryDialect
