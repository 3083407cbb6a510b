import QueryDialect.Proofs.FirstViolation
import QueryDialect.Proofs.WrittenClauses

namespace QueryDialect

universe u

open Checked (Yields)

/-- What it means that an operator relates a field of a record to an operand. -/
abbrev Comparison (Record : Type u) :=
  Operator → String → Json → Record → Prop

variable {Record : Type u} {meaning : Comparison Record} {record : Record}

/-- A literal stands for equality with it. -/
def Condition.Holds (meaning : Comparison Record) (record : Record) (name : String) :
    Condition → Prop
  | .literal value => meaning .eq name value record
  | .operator kind operand => meaning kind name operand record

/-- The shorthand stands for equality, and a keyword for its operator. -/
def FieldTest.Holds (meaning : Comparison Record) (record : Record) (name : String) :
    FieldTest → Prop
  | .shorthand value => meaning .eq name value record
  | .compare keyword operand => meaning keyword.operator name operand record

inductive Clause.Holds (meaning : Comparison Record) (record : Record) : Clause → Prop
  | and {children : List Clause} (h : ∀ child ∈ children, child.Holds meaning record) :
    Holds meaning record (.and children)
  | or {children : List Clause} {child : Clause} (hm : child ∈ children)
      (h : child.Holds meaning record) :
    Holds meaning record (.or children)
  | field {name : String} {condition : Condition} (h : condition.Holds meaning record name) :
    Holds meaning record (.field name condition)

inductive Predicate.Holds (meaning : Comparison Record) (record : Record) : Predicate → Prop
  | and {children : List Predicate} (h : ∀ child ∈ children, child.Holds meaning record) :
    Holds meaning record (.and children)
  | or {children : List Predicate} {child : Predicate} (hm : child ∈ children)
      (h : child.Holds meaning record) :
    Holds meaning record (.or children)
  | field {name : String} {test : FieldTest} (h : test.Holds meaning record name) :
    Holds meaning record (.field name test)

namespace Clause

variable {children : List Clause}

theorem holds_and_iff :
    Holds meaning record (.and children) ↔ ∀ child ∈ children, child.Holds meaning record := by
  constructor
  · intro h
    cases h with
    | and h => exact h
  · exact .and

theorem holds_or_iff :
    Holds meaning record (.or children) ↔ ∃ child ∈ children, child.Holds meaning record := by
  constructor
  · intro h
    cases h with
    | or hm h => exact ⟨_, hm, h⟩
  · rintro ⟨child, hm, h⟩
    exact .or hm h

theorem holds_field_iff {name : String} {condition : Condition} :
    Holds meaning record (.field name condition) ↔ condition.Holds meaning record name := by
  constructor
  · intro h
    cases h with
    | field h => exact h
  · exact .field

end Clause

namespace Predicate

variable {children : List Predicate}

theorem holds_and_iff :
    Holds meaning record (.and children) ↔ ∀ child ∈ children, child.Holds meaning record := by
  constructor
  · intro h
    cases h with
    | and h => exact h
  · exact .and

theorem holds_or_iff :
    Holds meaning record (.or children) ↔ ∃ child ∈ children, child.Holds meaning record := by
  constructor
  · intro h
    cases h with
    | or hm h => exact ⟨_, hm, h⟩
  · rintro ⟨child, hm, h⟩
    exact .or hm h

theorem holds_field_iff {name : String} {test : FieldTest} :
    Holds meaning record (.field name test) ↔ test.Holds meaning record name := by
  constructor
  · intro h
    cases h with
    | field h => exact h
  · exact .field

end Predicate

section Lists

variable {α β : Type} {p : α → Prop} {q : β → Prop} {items : List α} {values : List β}

theorem forall_mem_iff_of_forall₂
    (h : List.Forall₂ (fun item value => q value ↔ p item) items values) :
    (∀ value ∈ values, q value) ↔ ∀ item ∈ items, p item := by
  induction h with
  | nil => simp
  | cons hi _ ih => rw [List.forall_mem_cons, List.forall_mem_cons, hi, ih]

theorem exists_mem_iff_of_forall₂
    (h : List.Forall₂ (fun item value => q value ↔ p item) items values) :
    (∃ value ∈ values, q value) ↔ ∃ item ∈ items, p item := by
  induction h with
  | nil => simp
  | cons hi _ ih => rw [List.exists_mem_cons_iff, List.exists_mem_cons_iff, hi, ih]

end Lists

/-- The predicate says of every record what the clause says of it. -/
def Clause.SameMeaning (meaning : Comparison Record) (clause : Clause) (predicate : Predicate) :
    Prop :=
  ∀ record, predicate.Holds meaning record ↔ clause.Holds meaning record

theorem Condition.toTest_keeps_meaning (meaning : Comparison Record) (name : String)
    (condition : Condition) :
    Yields (fun test => ∀ record,
      test.Holds meaning record name ↔ condition.Holds meaning record name)
      (condition.toTest name) := by
  cases condition with
  | literal value => exact .ok fun _ => Iff.rfl
  | operator kind operand =>
    rw [toTest]
    split
    next keyword hk =>
      rw [Operator.keyword?_eq_some_iff.mp hk]
      exact .ok fun _ => Iff.rfl
    next => exact .error _

namespace Clause

theorem toPredicateWith_keeps_meaning {child : Clause → Checked Predicate}
    (hc : ∀ clause, Yields (clause.SameMeaning meaning) (child clause)) (clause : Clause) :
    Yields (clause.SameMeaning meaning) (clause.toPredicateWith child) := by
  cases clause with
  | and children =>
    refine Yields.map ((Yields.mapM hc children).mono fun predicates hp record => ?_)
    rw [holds_and_iff, Predicate.holds_and_iff]
    exact forall_mem_iff_of_forall₂ (hp.imp fun _ _ h => h record)
  | or children =>
    refine Yields.map ((Yields.mapM hc children).mono fun predicates hp record => ?_)
    rw [holds_or_iff, Predicate.holds_or_iff]
    exact exists_mem_iff_of_forall₂ (hp.imp fun _ _ h => h record)
  | field name condition =>
    refine Yields.map ((condition.toTest_keeps_meaning meaning name).mono fun test ht record => ?_)
    rw [holds_field_iff, Predicate.holds_field_iff]
    exact ht record

theorem toPredicate_keeps_meaning (meaning : Comparison Record) (limit : Nat) (clause : Clause) :
    Yields (clause.SameMeaning meaning) (clause.toPredicate limit) :=
  Yields.withinLimit (fun _ _ => toPredicateWith_keeps_meaning) limit clause

theorem exists_toPredicate_eq_ok_iff {limit : Nat} {clause : Clause} :
    (∃ predicate, clause.toPredicate limit = .ok predicate) ↔
      (clause.AllLeaves fun _ condition => condition.Convertible) ∧
        clause.exceedsDepth limit = false := by
  have h := stopsAt_toPredicate limit 0 [] clause
  rw [h.exists_ok_iff, violations_eq_nil_iff, Nat.zero_add, Nat.zero_add, ← Bool.not_eq_true,
    exceedsDepth_iff, Nat.not_lt]

end Clause

/-- A clause is converted if all its operators are convertible and it is not too deep, and its
predicate then holds of the same records. -/
theorem conversion_preserves_meaning (meaning : Comparison Record) (options : Options)
    (clause : Clause) :
    ((∃ predicate, (clause.convert options).1 = .ok predicate) ↔
      (clause.AllLeaves fun _ condition => condition.Convertible) ∧
        clause.exceedsDepth options.limit = false) ∧
    ∀ predicate, (clause.convert options).1 = .ok predicate →
      ∀ record, predicate.Holds meaning record ↔ clause.Holds meaning record := by
  constructor
  · simp only [Clause.convert_eq_ok_iff]
    exact Clause.exists_toPredicate_eq_ok_iff
  · intro predicate hp record
    have hc : clause.toPredicate options.limit = .ok predicate := Clause.convert_eq_ok_iff.mp hp
    have hm : clause.SameMeaning meaning predicate :=
      Clause.toPredicate_keeps_meaning meaning options.limit clause predicate hc
    exact hm record

theorem disjunction_keeps_meaning :
    let meaning : Comparison (String → Json) :=
      fun operator name operand record => operator = .eq ↔ record name = operand
    let clause : Clause :=
      .or [.field "a" (.literal .null), .field "b" (.operator .neq (.bool true))]
    let predicate : Predicate :=
      .or [.field "a" (.shorthand .null), .field "b" (.compare .not (.bool true))]
    (clause.convert { exclusive := true }).1 = .ok predicate ∧
      ∀ record, predicate.Holds meaning record ↔ clause.Holds meaning record := by
  intro meaning clause predicate
  have h : (clause.convert { exclusive := true }).1 = .ok predicate := rfl
  exact ⟨h, (conversion_preserves_meaning meaning { exclusive := true } clause).2 predicate h⟩

end QueryDialect
