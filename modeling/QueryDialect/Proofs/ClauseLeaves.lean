import QueryDialect.Source.Filter

namespace QueryDialect

@[elab_as_elim, induction_eliminator]
theorem Clause.induction {motive : Clause → Prop}
    (and : ∀ children, (∀ child ∈ children, motive child) → motive (.and children))
    (or : ∀ children, (∀ child ∈ children, motive child) → motive (.or children))
    (field : ∀ name condition, motive (.field name condition)) (clause : Clause) :
    motive clause :=
  @Clause.rec motive (fun children => ∀ child ∈ children, motive child) and or field
    (fun _ hm => absurd hm List.not_mem_nil)
    (fun _ _ hc hr child hm => (List.mem_cons.mp hm).elim (fun he => he ▸ hc) (hr child)) clause

/-- Every leaf of the clause has the property. -/
inductive Clause.AllLeaves (p : String → Condition → Prop) : Clause → Prop
  | and {children : List Clause} (h : ∀ child ∈ children, child.AllLeaves p) :
    AllLeaves p (.and children)
  | or {children : List Clause} (h : ∀ child ∈ children, child.AllLeaves p) :
    AllLeaves p (.or children)
  | field {name : String} {condition : Condition} (h : p name condition) :
    AllLeaves p (.field name condition)

namespace Clause

variable {p : String → Condition → Prop} {children : List Clause}

theorem allLeaves_and_iff : AllLeaves p (.and children) ↔ ∀ child ∈ children, child.AllLeaves p := by
  constructor
  · intro h
    cases h with
    | and h => exact h
  · exact .and

theorem allLeaves_or_iff : AllLeaves p (.or children) ↔ ∀ child ∈ children, child.AllLeaves p := by
  constructor
  · intro h
    cases h with
    | or h => exact h
  · exact .or

theorem allLeaves_field_iff {name : String} {condition : Condition} :
    AllLeaves p (.field name condition) ↔ p name condition := by
  constructor
  · intro h
    cases h with
    | field h => exact h
  · exact .field

end Clause

/-- A leaf as a JSON source can spell it: its field is no combinator, and its literal no object. -/
def Condition.Readable (name : String) (condition : Condition) : Prop :=
  name ≠ "and" ∧ name ≠ "or" ∧ ∀ members, condition ≠ .literal (.object members)

end QueryDialect
