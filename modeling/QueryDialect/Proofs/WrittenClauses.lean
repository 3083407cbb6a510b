import QueryDialect.Conversion.Predicate
import QueryDialect.Proofs.ClauseLeaves
import QueryDialect.Proofs.Postcondition
import QueryDialect.Target.Encoding

namespace QueryDialect

open Checked (Yields)

/-- Lists that are related to the same list are related to each other. -/
theorem forall₂_of_common {α β γ : Type} {R : α → γ → Prop} {S : β → γ → Prop} {T : α → β → Prop}
    {first : List α} {second : List β} {common : List γ} (hr : List.Forall₂ R first common)
    (hs : List.Forall₂ S second common)
    (h : ∀ a b c, a ∈ first → b ∈ second → c ∈ common → R a c → S b c → T a b) :
    List.Forall₂ T first second := by
  induction hr generalizing second with
  | nil =>
    cases hs
    exact .nil
  | cons hac hr ih =>
    obtain ⟨b, rest, hbc, hrest, rfl⟩ := List.forall₂_cons_right_iff.mp hs
    refine .cons (h _ b _ (List.mem_cons_self ..) (List.mem_cons_self ..) (List.mem_cons_self ..)
      hac hbc) (ih hrest ?_)
    intro a' b' c' ha hb hc
    exact h a' b' c' (List.mem_cons_of_mem _ ha) (List.mem_cons_of_mem _ hb)
      (List.mem_cons_of_mem _ hc)

/-- The operator that a keyword stands for. -/
def Keyword.operator : Keyword → Operator
  | equals => .eq
  | not => .neq
  | gt => .gt
  | gte => .gte
  | lt => .lt
  | lte => .lte
  | among => .inq
  | matching => .matching

theorem Operator.keyword?_eq_some_iff {operator : Operator} {keyword : Keyword} :
    operator.keyword? = some keyword ↔ operator = keyword.operator := by
  constructor
  · intro h
    cases operator <;> cases h <;> rfl
  · intro h
    subst h
    cases keyword <;> rfl

namespace Condition

/-- The JSON that a condition becomes in the target dialect, as the value of its field. -/
inductive Becomes : Condition → Json → Prop
  | literal (value : Json) : Becomes (.literal value) value
  | operator (keyword : Keyword) (operand : Json) :
    Becomes (.operator keyword.operator operand) (.object [(keyword.text, operand)])

theorem Becomes.unique {condition : Condition} {first second : Json} (h₁ : condition.Becomes first)
    (h₂ : condition.Becomes second) : first = second := by
  cases h₁ with
  | literal =>
    cases h₂
    rfl
  | operator keyword operand =>
    generalize ho : keyword.operator = operator at h₂
    cases h₂ with
    | operator other =>
      have hk : some keyword = some other := by
        rw [← Operator.keyword?_eq_some_iff.mpr rfl, ho, Operator.keyword?_eq_some_iff.mpr rfl]
      cases hk
      rfl

theorem eq_of_becomes {name : String} {first second : Condition} {value : Json}
    (hr₁ : first.Readable name) (hr₂ : second.Readable name) (h₁ : first.Becomes value)
    (h₂ : second.Becomes value) : first = second := by
  cases h₁ with
  | literal =>
    cases h₂ with
    | literal => rfl
    | operator => exact absurd rfl (hr₁.2.2 _)
  | operator keyword operand =>
    generalize hj : Json.object [(keyword.text, operand)] = json at h₂
    cases h₂ with
    | literal =>
      subst hj
      exact absurd rfl (hr₂.2.2 _)
    | operator other operand' =>
      simp only [Json.object.injEq, List.cons.injEq, Prod.mk.injEq, and_true] at hj
      rw [Keyword.text_injective hj.1, hj.2]

theorem becomes_array_iff {condition : Condition} {items : List Json} :
    condition.Becomes (.array items) ↔ condition = .literal (.array items) := by
  constructor
  · intro h
    cases h
    rfl
  · intro h
    subst h
    exact .literal _

theorem yields_toTest (name : String) (condition : Condition) :
    Yields (fun test => condition.Becomes test.toJson) (condition.toTest name) := by
  cases condition with
  | literal value => exact .ok (.literal value)
  | operator kind operand =>
    rw [Condition.toTest]
    split
    next keyword hk =>
      rw [Operator.keyword?_eq_some_iff.mp hk]
      exact .ok (.operator keyword operand)
    next => exact .error _

end Condition

theorem Predicate.listToJson_eq_map (predicates : List Predicate) :
    Predicate.listToJson predicates = predicates.map Predicate.toJson := by
  induction predicates with
  | nil => rfl
  | cons predicate rest ih => rw [Predicate.listToJson, ih, List.map_cons]

namespace Clause

/-- The JSON that a clause becomes in the target dialect. -/
inductive Becomes : Clause → Json → Prop
  | and {children : List Clause} {items : List Json} (h : List.Forall₂ Becomes children items) :
    Becomes (.and children) (.object [("AND", .array items)])
  | or {children : List Clause} {items : List Json} (h : List.Forall₂ Becomes children items) :
    Becomes (.or children) (.object [("OR", .array items)])
  | field {name : String} {condition : Condition} {value : Json} (h : condition.Becomes value) :
    Becomes (.field name condition) (.object [(name, value)])

theorem becomes_and_iff {children : List Clause} {json : Json} :
    Becomes (.and children) json ↔
      ∃ items, List.Forall₂ Becomes children items ∧ json = .object [("AND", .array items)] := by
  constructor
  · intro h
    cases h with | and h =>
    exact ⟨_, h, rfl⟩
  · intro h
    obtain ⟨items, h, rfl⟩ := h
    exact .and h

theorem becomes_or_iff {children : List Clause} {json : Json} :
    Becomes (.or children) json ↔
      ∃ items, List.Forall₂ Becomes children items ∧ json = .object [("OR", .array items)] := by
  constructor
  · intro h
    cases h with | or h =>
    exact ⟨_, h, rfl⟩
  · intro h
    obtain ⟨items, h, rfl⟩ := h
    exact .or h

theorem becomes_field_iff {name : String} {condition : Condition} {json : Json} :
    Becomes (.field name condition) json ↔
      ∃ value, condition.Becomes value ∧ json = .object [(name, value)] := by
  constructor
  · intro h
    cases h with | field h =>
    exact ⟨_, h, rfl⟩
  · intro h
    obtain ⟨value, h, rfl⟩ := h
    exact .field h

theorem yields_toPredicateWith {child : Clause → Checked Predicate}
    (hc : ∀ clause, Yields (fun predicate => clause.Becomes predicate.toJson) (child clause))
    (clause : Clause) :
    Yields (fun predicate => clause.Becomes predicate.toJson) (clause.toPredicateWith child) := by
  have hl : ∀ children : List Clause, Yields (fun predicates =>
      List.Forall₂ Becomes children (Predicate.listToJson predicates)) (children.mapM child) := by
    intro children
    refine (Yields.mapM hc children).mono fun predicates h => ?_
    rw [Predicate.listToJson_eq_map]
    exact List.forall₂_map_right_iff.mpr h
  cases clause with
  | and children => exact .map ((hl children).mono fun _ => .and)
  | or children => exact .map ((hl children).mono fun _ => .or)
  | field name condition =>
    exact .map ((Condition.yields_toTest name condition).mono fun _ => .field)

theorem yields_toPredicate (limit : Nat) (clause : Clause) :
    Yields (fun predicate => clause.Becomes predicate.toJson) (clause.toPredicate limit) :=
  Yields.withinLimit (s := fun (clause : Clause) (predicate : Predicate) =>
    clause.Becomes predicate.toJson) (fun _ _ hc => yields_toPredicateWith hc) limit clause

theorem Becomes.list_unique {children : List Clause} {first second : List Json}
    (hu : ∀ child ∈ children, ∀ {json json' : Json}, child.Becomes json → child.Becomes json' →
      json = json')
    (h₁ : List.Forall₂ Becomes children first) (h₂ : List.Forall₂ Becomes children second) :
    first = second := by
  have hi : List.Forall₂ Eq first second := by
    refine forall₂_of_common (R := flip Becomes) (S := flip Becomes) h₁.flip h₂.flip ?_
    intro item₁ item₂ child _ _ hc hb₁ hb₂
    exact hu child hc hb₁ hb₂
  rwa [List.forall₂_eq_eq_eq] at hi

theorem Becomes.unique {clause : Clause} {first second : Json} (h₁ : clause.Becomes first)
    (h₂ : clause.Becomes second) : first = second := by
  induction clause generalizing first second with
  | and children ih =>
    obtain ⟨items₁, hb₁, rfl⟩ := becomes_and_iff.mp h₁
    obtain ⟨items₂, hb₂, rfl⟩ := becomes_and_iff.mp h₂
    rw [Becomes.list_unique ih hb₁ hb₂]
  | or children ih =>
    obtain ⟨items₁, hb₁, rfl⟩ := becomes_or_iff.mp h₁
    obtain ⟨items₂, hb₂, rfl⟩ := becomes_or_iff.mp h₂
    rw [Becomes.list_unique ih hb₁ hb₂]
  | field name condition =>
    obtain ⟨value₁, hb₁, rfl⟩ := becomes_field_iff.mp h₁
    obtain ⟨value₂, hb₂, rfl⟩ := becomes_field_iff.mp h₂
    rw [hb₁.unique hb₂]

end Clause
end QueryDialect
