import QueryDialect.Conversion.Ownership
import QueryDialect.Proofs.ReadLeaves
import QueryDialect.Proofs.WrittenClauses

namespace QueryDialect

namespace Clause

/-- Clauses of the same shape, but where one has a combinator, the other may have a field with the
combinator's name, and for its literal the list of what the combinator's children become. -/
inductive Alike : Clause → Clause → Prop
  | field (name : String) (condition : Condition) :
    Alike (.field name condition) (.field name condition)
  | and {first second : List Clause} (h : List.Forall₂ Alike first second) :
    Alike (.and first) (.and second)
  | or {first second : List Clause} (h : List.Forall₂ Alike first second) :
    Alike (.or first) (.or second)
  | and_field {children : List Clause} {items : List Json} (h : List.Forall₂ Becomes children items) :
    Alike (.and children) (.field "AND" (.literal (.array items)))
  | field_and {children : List Clause} {items : List Json} (h : List.Forall₂ Becomes children items) :
    Alike (.field "AND" (.literal (.array items))) (.and children)
  | or_field {children : List Clause} {items : List Json} (h : List.Forall₂ Becomes children items) :
    Alike (.or children) (.field "OR" (.literal (.array items)))
  | field_or {children : List Clause} {items : List Json} (h : List.Forall₂ Becomes children items) :
    Alike (.field "OR" (.literal (.array items))) (.or children)

theorem Alike.list_becomes {first second : List Clause} {items : List Json}
    (hb : ∀ clause ∈ first, ∀ {other : Clause} {json : Json}, clause.Alike other →
      clause.Becomes json → other.Becomes json)
    (ha : List.Forall₂ Alike first second) (h : List.Forall₂ Becomes first items) :
    List.Forall₂ Becomes second items := by
  refine forall₂_of_common (R := flip Alike) (S := flip Becomes) ha.flip h.flip ?_
  intro other item clause _ _ hc ha h
  exact hb clause hc ha h

theorem Alike.becomes {first second : Clause} {json : Json} (ha : first.Alike second)
    (h : first.Becomes json) : second.Becomes json := by
  induction first generalizing second json with
  | and children ih =>
    obtain ⟨items, hi, rfl⟩ := becomes_and_iff.mp h
    cases ha with
    | and ha => exact .and (Alike.list_becomes ih ha hi)
    | and_field hi' =>
      rw [Becomes.list_unique (fun _ _ => Becomes.unique) hi hi']
      exact .field (.literal _)
  | or children ih =>
    obtain ⟨items, hi, rfl⟩ := becomes_or_iff.mp h
    cases ha with
    | or ha => exact .or (Alike.list_becomes ih ha hi)
    | or_field hi' =>
      rw [Becomes.list_unique (fun _ _ => Becomes.unique) hi hi']
      exact .field (.literal _)
  | field name condition =>
    cases ha with
    | field => exact h
    | field_and hi =>
      obtain ⟨value, hv, rfl⟩ := becomes_field_iff.mp h
      rw [← (Condition.Becomes.literal _).unique hv]
      exact .and hi
    | field_or hi =>
      obtain ⟨value, hv, rfl⟩ := becomes_field_iff.mp h
      rw [← (Condition.Becomes.literal _).unique hv]
      exact .or hi

theorem field_becomes_array_iff {name key : String} {condition : Condition} {items : List Json} :
    Becomes (.field name condition) (.object [(key, .array items)]) ↔
      name = key ∧ condition = .literal (.array items) := by
  constructor
  · intro h
    obtain ⟨value, hv, he⟩ := becomes_field_iff.mp h
    cases he
    exact ⟨rfl, Condition.becomes_array_iff.mp hv⟩
  · intro h
    obtain ⟨rfl, rfl⟩ := h
    exact .field (.literal _)

theorem list_alike_of_becomes {first second : List Clause} {items : List Json}
    (ha : ∀ clause ∈ first, ∀ {other : Clause} {json : Json},
      clause.AllLeaves Condition.Readable → other.AllLeaves Condition.Readable →
      clause.Becomes json → other.Becomes json → clause.Alike other)
    (hr₁ : ∀ clause ∈ first, clause.AllLeaves Condition.Readable)
    (hr₂ : ∀ clause ∈ second, clause.AllLeaves Condition.Readable)
    (h₁ : List.Forall₂ Becomes first items) (h₂ : List.Forall₂ Becomes second items) :
    List.Forall₂ Alike first second := by
  refine forall₂_of_common h₁ h₂ ?_
  intro clause other item hc ho _ hb₁ hb₂
  exact ha clause hc (hr₁ clause hc) (hr₂ other ho) hb₁ hb₂

theorem alike_of_becomes {first second : Clause} {json : Json}
    (hr₁ : first.AllLeaves Condition.Readable) (hr₂ : second.AllLeaves Condition.Readable)
    (h₁ : first.Becomes json) (h₂ : second.Becomes json) : first.Alike second := by
  induction first generalizing second json with
  | and children ih =>
    obtain ⟨items, hi, rfl⟩ := becomes_and_iff.mp h₁
    cases hr₁ with | and hr₁ =>
    cases hr₂ with
    | and hr₂ =>
      obtain ⟨items', hi', he⟩ := becomes_and_iff.mp h₂
      cases he
      exact .and (list_alike_of_becomes ih hr₁ hr₂ hi hi')
    | or =>
      obtain ⟨items', -, he⟩ := becomes_or_iff.mp h₂
      simp at he
    | field =>
      obtain ⟨rfl, rfl⟩ := field_becomes_array_iff.mp h₂
      exact .and_field hi
  | or children ih =>
    obtain ⟨items, hi, rfl⟩ := becomes_or_iff.mp h₁
    cases hr₁ with | or hr₁ =>
    cases hr₂ with
    | and =>
      obtain ⟨items', -, he⟩ := becomes_and_iff.mp h₂
      simp at he
    | or hr₂ =>
      obtain ⟨items', hi', he⟩ := becomes_or_iff.mp h₂
      cases he
      exact .or (list_alike_of_becomes ih hr₁ hr₂ hi hi')
    | field =>
      obtain ⟨rfl, rfl⟩ := field_becomes_array_iff.mp h₂
      exact .or_field hi
  | field name condition =>
    cases hr₁ with | field hr₁ =>
    cases hr₂ with
    | and =>
      obtain ⟨items, hi, rfl⟩ := becomes_and_iff.mp h₂
      obtain ⟨rfl, rfl⟩ := field_becomes_array_iff.mp h₁
      exact .field_and hi
    | or =>
      obtain ⟨items, hi, rfl⟩ := becomes_or_iff.mp h₂
      obtain ⟨rfl, rfl⟩ := field_becomes_array_iff.mp h₁
      exact .field_or hi
    | field hr₂ =>
      obtain ⟨value, hv, rfl⟩ := becomes_field_iff.mp h₁
      obtain ⟨value', hv', he⟩ := becomes_field_iff.mp h₂
      cases he
      rw [Condition.eq_of_becomes hr₁ hr₂ hv hv']
      exact .field _ _

/-- No leaf is a field with a combinator's name that is compared with a list. -/
def Distinct (clause : Clause) : Prop :=
  clause.AllLeaves fun name condition =>
    name = "AND" ∨ name = "OR" → ∀ items, condition ≠ .literal (.array items)

theorem Alike.refl (clause : Clause) : clause.Alike clause := by
  induction clause with
  | and children ih => exact .and (List.forall₂_same.mpr ih)
  | or children ih => exact .or (List.forall₂_same.mpr ih)
  | field name condition => exact .field name condition

theorem Alike.list_eq {first second : List Clause}
    (he : ∀ clause ∈ first, ∀ {other : Clause}, clause.Distinct → other.Distinct →
      clause.Alike other → clause = other)
    (hd₁ : ∀ clause ∈ first, clause.Distinct) (hd₂ : ∀ clause ∈ second, clause.Distinct)
    (h : List.Forall₂ Alike first second) : first = second := by
  have hs : List.Forall₂ Eq first second := by
    refine forall₂_of_common h (List.forall₂_same.mpr fun _ _ => rfl) ?_
    intro clause other common hc ho _ ha hs
    exact he clause hc (hd₁ clause hc) (hd₂ other ho) (hs ▸ ha)
  rwa [List.forall₂_eq_eq_eq] at hs

theorem Alike.eq {first second : Clause} (hd₁ : first.Distinct) (hd₂ : second.Distinct)
    (h : first.Alike second) : first = second := by
  induction first generalizing second with
  | and children ih =>
    cases hd₁ with | and hd₁ =>
    cases h with
    | and h =>
      cases hd₂ with | and hd₂ =>
      rw [Alike.list_eq ih hd₁ hd₂ h]
    | and_field =>
      cases hd₂ with | field hd₂ =>
      exact absurd rfl (hd₂ (.inl rfl) _)
  | or children ih =>
    cases hd₁ with | or hd₁ =>
    cases h with
    | or h =>
      cases hd₂ with | or hd₂ =>
      rw [Alike.list_eq ih hd₁ hd₂ h]
    | or_field =>
      cases hd₂ with | field hd₂ =>
      exact absurd rfl (hd₂ (.inr rfl) _)
  | field name condition =>
    cases hd₁ with | field hd₁ =>
    cases h with
    | field => rfl
    | field_and => exact absurd rfl (hd₁ (.inl rfl) _)
    | field_or => exact absurd rfl (hd₁ (.inr rfl) _)

theorem exists_becomes_of_convertJson {options : Options} {source out : Json}
    (h : Clause.convertJson options source = .ok out) :
    ∃ clause, Clause.ofJson options.limit source = .ok clause ∧
      clause.AllLeaves Condition.Readable ∧ clause.Becomes out := by
  obtain ⟨clause, hs, h⟩ := Checked.bind_eq_ok_iff.mp h
  obtain ⟨predicate, hp, h⟩ := Checked.bind_eq_ok_iff.mp h
  cases h
  exact ⟨clause, hs, yields_ofJson _ _ clause hs, yields_toPredicate _ clause predicate hp⟩

end Clause

/-- Of two clauses that are converted, the outcomes are equal just when the clauses are alike; if no
leaf of theirs is named like a combinator and compared with a list, just when they are equal. -/
theorem convertJson_eq_iff_alike (options : Options) {first second out₁ out₂ : Json}
    (h₁ : Clause.convertJson options first = .ok out₁)
    (h₂ : Clause.convertJson options second = .ok out₂) :
    ∃ clause₁ clause₂, Clause.ofJson options.limit first = .ok clause₁ ∧
      Clause.ofJson options.limit second = .ok clause₂ ∧
      (out₁ = out₂ ↔ clause₁.Alike clause₂) ∧
      (clause₁.Distinct → clause₂.Distinct → (out₁ = out₂ ↔ clause₁ = clause₂)) := by
  obtain ⟨clause₁, hs₁, hr₁, hb₁⟩ := Clause.exists_becomes_of_convertJson h₁
  obtain ⟨clause₂, hs₂, hr₂, hb₂⟩ := Clause.exists_becomes_of_convertJson h₂
  have ha : out₁ = out₂ ↔ clause₁.Alike clause₂ := by
    constructor
    · intro he
      subst he
      exact Clause.alike_of_becomes hr₁ hr₂ hb₁ hb₂
    · intro ha
      exact (ha.becomes hb₁).unique hb₂
  refine ⟨clause₁, clause₂, hs₁, hs₂, ha, fun hd₁ hd₂ => ?_⟩
  rw [ha]
  constructor
  · exact Clause.Alike.eq hd₁ hd₂
  · intro he
    exact he ▸ Clause.Alike.refl clause₁

/-- The clause of the field `AND` comes out like the conjunction. -/
theorem combinator_collides_with_field :
    let upper := Json.object [("AND", .array [.object [("a", .null)]])]
    let lower := Json.object [("and", .array [.object [("a", .null)]])]
    Clause.convertJson {} upper = .ok upper ∧ Clause.convertJson {} lower = .ok upper ∧
      ∃ clause₁ clause₂, Clause.ofJson 64 upper = .ok clause₁ ∧
        Clause.ofJson 64 lower = .ok clause₂ ∧ clause₁.Alike clause₂ ∧ clause₁ ≠ clause₂ := by
  intro upper lower
  have h₁ : Clause.convertJson {} upper = .ok upper := rfl
  have h₂ : Clause.convertJson {} lower = .ok upper := rfl
  refine ⟨h₁, h₂, ?_⟩
  obtain ⟨clause₁, clause₂, hs₁, hs₂, ha, -⟩ := convertJson_eq_iff_alike {} h₁ h₂
  refine ⟨clause₁, clause₂, hs₁, hs₂, ha.mp rfl, ?_⟩
  intro he
  subst he
  cases hs₁
  cases hs₂

end QueryDialect
