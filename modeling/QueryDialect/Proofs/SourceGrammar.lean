import Mathlib.Data.List.Forall2
import QueryDialect.Proofs.Postcondition
import QueryDialect.Source.Reader

namespace QueryDialect

open Checked (bind_eq_ok_iff)

/-- A member that may be left out: null is the same as nothing. -/
inductive OptionalSpelling {α : Type} (spelling : Json → α → Prop) : Option Json → Option α → Prop
  | missing : OptionalSpelling spelling none none
  | null : OptionalSpelling spelling (some .null) none
  | present {json : Json} {value : α} (hn : json ≠ .null) (h : spelling json value) :
    OptionalSpelling spelling (some json) (some value)

/-- An array of names, or an object with a flag for each name. -/
inductive Fields.Spelling : Json → Fields → Prop
  | names (names : List String) : Spelling (.array (names.map .string)) (.names names)
  | flags (flags : List (String × Bool)) :
    Spelling (.object (flags.map fun flag => (flag.1, .bool flag.2))) (.flags flags)

/-- An entry, or an array of entries. -/
inductive OrderSpelling : Json → List String → Prop
  | entry (entry : String) : OrderSpelling (.string entry) [entry]
  | entries (entries : List String) : OrderSpelling (.array (entries.map .string)) entries

/-- An integer that a 64-bit word holds. A float is none, whatever its value. -/
def CountSpelling (json : Json) (count : UInt64) : Prop :=
  json = .ofUInt64 count

/-- A literal is not an object. An object stands for the first operator in order of priority that is
among its keys, with the value of that key as the operand. -/
inductive Condition.Spelling : Json → Condition → Prop
  | literal {json : Json} (h : ∀ members, json ≠ .object members) : Spelling json (.literal json)
  | operator {members : Keyed Json} {operator : Operator} {operand : Json}
      {before after : List Operator} (hp : Operator.priority = before ++ operator :: after)
      (ho : members.get? operator.key = some operand)
      (hb : ∀ other ∈ before, members.get? other.key = none) :
    Spelling (.object members) (.operator operator operand)

/-- A conjunction goes before a disjunction, and what stands beside either does not matter. A field
stands alone. -/
inductive Clause.Spelling : Json → Clause → Prop
  | and {members : Keyed Json} {items : List Json} {children : List Clause}
      (ha : members.get? "and" = some (.array items)) (h : List.Forall₂ Spelling items children) :
    Spelling (.object members) (.and children)
  | or {members : Keyed Json} {items : List Json} {children : List Clause}
      (ha : members.get? "and" = none) (ho : members.get? "or" = some (.array items))
      (h : List.Forall₂ Spelling items children) :
    Spelling (.object members) (.or children)
  | field {name : String} {json : Json} {condition : Condition} (ha : name ≠ "and")
      (ho : name ≠ "or") (h : Condition.Spelling json condition) :
    Spelling (.object [(name, json)]) (.field name condition)

/-- The name of a relation, or an object with the name and a scope that may be left out. -/
inductive Inclusion.Spelling {Scope : Type} (scope : Json → Scope → Prop) :
    Json → Inclusion Scope → Prop
  | name (name : String) : Spelling scope (.string name) (.relation name)
  | withoutScope {members : Keyed Json} {name : String}
      (hn : members.get? "relation" = some (.string name))
      (hs : OptionalSpelling scope (members.get? "scope") none) :
    Spelling scope (.object members) (.relation name)
  | withScope {members : Keyed Json} {name : String} {filter : Scope}
      (hn : members.get? "relation" = some (.string name))
      (hs : OptionalSpelling scope (members.get? "scope") (some filter)) :
    Spelling scope (.object members) (.scoped name filter)

/-- An inclusion, or an array of inclusions. -/
inductive Inclusion.ListSpelling {Scope : Type} (scope : Json → Scope → Prop) :
    Json → List (Inclusion Scope) → Prop
  | list {items : List Json} {inclusions : List (Inclusion Scope)}
      (h : List.Forall₂ (Spelling scope) items inclusions) :
    ListSpelling scope (.array items) inclusions
  | single {json : Json} {inclusion : Inclusion Scope} (h : Spelling scope json inclusion) :
    ListSpelling scope json [inclusion]

/-- Members with other keys do not matter. -/
inductive Filter.Spelling : Json → Filter → Prop
  | object {members : Keyed Json} {filter : Filter}
      (fields : OptionalSpelling Fields.Spelling (members.get? "fields") filter.fields)
      (inclusions : OptionalSpelling (Inclusion.ListSpelling Filter.Spelling)
        (members.get? "include") filter.inclusions)
      (offset : OptionalSpelling CountSpelling (members.get? "offset") filter.offset)
      (skip : OptionalSpelling CountSpelling (members.get? "skip") filter.skip)
      (limit : OptionalSpelling CountSpelling (members.get? "limit") filter.limit)
      (order : OptionalSpelling OrderSpelling (members.get? "order") filter.order)
      (condition : OptionalSpelling Clause.Spelling (members.get? "where") filter.condition) :
    Spelling (.object members) filter

namespace OptionalSpelling

variable {α : Type} {spelling : Json → α → Prop} {value? : Option α}

theorem none_iff : OptionalSpelling spelling none value? ↔ value? = none := by
  constructor
  · intro h
    cases h
    rfl
  · intro h
    subst h
    exact .missing

theorem null_iff : OptionalSpelling spelling (some .null) value? ↔ value? = none := by
  constructor
  · intro h
    cases h with
    | null => rfl
    | present hn _ => exact absurd rfl hn
  · intro h
    subst h
    exact .null

theorem some_iff {json : Json} (hn : json ≠ .null) :
    OptionalSpelling spelling (some json) value? ↔
      ∃ value, spelling json value ∧ some value = value? := by
  constructor
  · intro h
    cases h with
    | null => exact absurd rfl hn
    | present _ h => exact ⟨_, h, rfl⟩
  · intro h
    obtain ⟨value, h, rfl⟩ := h
    exact .present hn h

theorem and_iff {p : α → Prop} {json? : Option Json} :
    OptionalSpelling (fun json value => spelling json value ∧ p value) json? value? ↔
      OptionalSpelling spelling json? value? ∧ ∀ value, value? = some value → p value := by
  constructor
  · intro h
    cases h with
    | missing => exact ⟨.missing, by simp⟩
    | null => exact ⟨.null, by simp⟩
    | present hn h => exact ⟨.present hn h.1, by simpa using h.2⟩
  · intro h
    obtain ⟨h, hp⟩ := h
    cases h with
    | missing => exact .missing
    | null => exact .null
    | present hn h => exact .present hn ⟨h, hp _ rfl⟩

end OptionalSpelling

theorem forall₂_and_right {α β : Type} {R : α → β → Prop} {p : β → Prop} {items : List α}
    {values : List β} :
    List.Forall₂ (fun item value => R item value ∧ p value) items values ↔
      List.Forall₂ R items values ∧ ∀ value ∈ values, p value := by
  induction items generalizing values with
  | nil => cases values <;> simp
  | cons item rest ih =>
    cases values with
    | nil => simp
    | cons value others =>
      rw [List.forall₂_cons, ih, List.forall₂_cons, List.forall_mem_cons]
      exact and_and_and_comm

namespace Checked

variable {α β : Type}

/-- What the examination gives is exactly what the relation allows. -/
def Accepts (examine : α → Checked β) (spelling : α → β → Prop) : Prop :=
  ∀ item value, examine item = .ok value ↔ spelling item value

theorem refuse_ne_ok {defect : Defect} {value : α} : refuse defect ≠ .ok value := by
  intro h
  cases h

namespace Accepts

theorem congr {examine : α → Checked β} {spelling spelling' : α → β → Prop}
    (h : Accepts examine spelling) (hs : ∀ item value, spelling item value ↔ spelling' item value) :
    Accepts examine spelling' :=
  fun item value => (h item value).trans (hs item value)

theorem mapM {examine : α → Checked β} {spelling : α → β → Prop} (h : Accepts examine spelling) :
    Accepts (List.mapM examine) (List.Forall₂ spelling) := by
  intro items values
  rw [mapM_eq_ok_iff]
  simp only [h _ _]

theorem each {examine : α → Checked β} {spelling : α → β → Prop} (h : Accepts examine spelling)
    (steps : Nat → Path) : Accepts (Checked.each steps examine) (List.Forall₂ spelling) :=
  fun items values => each_eq_ok_iff.trans (h.mapM items values)

theorem optional {examine : Json → Checked β} {spelling : Json → β → Prop}
    (h : Accepts examine spelling) (members : Keyed Json) (key : String) (value? : Option β) :
    Checked.optional members key examine = .ok value? ↔
      OptionalSpelling spelling (members.get? key) value? := by
  unfold Checked.optional
  split
  next hm =>
    rcases Json.member?_eq_none_iff.mp hm with hg | hg
    · rw [hg, OptionalSpelling.none_iff, Except.ok.injEq, eq_comm]
    · rw [hg, OptionalSpelling.null_iff, Except.ok.injEq, eq_comm]
  next json hm =>
    obtain ⟨hg, hn⟩ := Json.member?_eq_some_iff.mp hm
    rw [hg, OptionalSpelling.some_iff hn, map_eq_ok_iff]
    simp only [Checked.member, inside_eq_ok_iff, h _ _]

/-- If every level accepts what is on the level below only as deep as it may be, then so does the
whole recursion. -/
theorem withinLimit {level : Nat → (α → Checked β) → α → Checked β} {spelling : α → β → Prop}
    {depth : β → Nat}
    (hl : ∀ limit inner, Accepts inner (fun item value => spelling item value ∧ depth value < limit) →
      Accepts (level limit inner) (fun item value => spelling item value ∧ depth value ≤ limit))
    (limit : Nat) :
    Accepts (Checked.withinLimit level limit)
      (fun item value => spelling item value ∧ depth value ≤ limit) := by
  induction limit with
  | zero =>
    -- Nothing is less deep than zero, and nothing is accepted below the last level.
    exact hl 0 _ (fun item value => by simp)
  | succ limit ih =>
    rw [withinLimit_succ]
    refine hl (limit + 1) _ (fun item value => ?_)
    rw [deeper_eq_ok_iff]
    exact (ih item value).trans (and_congr_right' Nat.lt_succ_iff.symm)

end Accepts
end Checked

open Checked (Accepts bind_eq_ok_iff map_eq_ok_iff refuse_ne_ok)

section Images

variable {α β : Type} {examine : α → Checked β} {write : β → α} {items : List α} {values : List β}

/-- Items that are the images of values, each of its own. -/
theorem forall₂_eq_image_iff :
    List.Forall₂ (fun item value => item = write value) items values ↔ items = values.map write := by
  rw [← List.forall₂_map_right_iff, List.forall₂_eq_eq_eq]

theorem mapM_eq_ok_iff_image (h : ∀ item value, examine item = .ok value ↔ item = write value) :
    items.mapM examine = .ok values ↔ items = values.map write :=
  (Accepts.mapM h items values).trans forall₂_eq_image_iff

theorem each_eq_ok_iff_image {steps : Nat → Path}
    (h : ∀ item value, examine item = .ok value ↔ item = write value) :
    Checked.each steps examine items = .ok values ↔ items = values.map write :=
  Checked.each_eq_ok_iff.trans (mapM_eq_ok_iff_image h)

end Images

theorem Fields.accepts_ofJson : Accepts Fields.ofJson Fields.Spelling := by
  intro json fields
  cases json with
  | array items =>
    rw [Fields.ofJson, map_eq_ok_iff]
    have spelled : (∃ names : List String, items = names.map .string ∧ Fields.names names = fields) ↔
        Fields.Spelling (.array items) fields := by
      constructor
      · rintro ⟨names, rfl, rfl⟩
        exact .names names
      · intro h
        cases h with
        | names names => exact ⟨names, rfl, rfl⟩
    refine Iff.trans (exists_congr fun names => and_congr_left' ?_) spelled
    refine each_eq_ok_iff_image fun item name => ?_
    cases item <;> simp [Json.string?, Checked.refuse]
  | object members =>
    rw [Fields.ofJson, map_eq_ok_iff]
    have spelled : (∃ flags : List (String × Bool),
        members = flags.map (fun flag => (flag.1, .bool flag.2)) ∧ Fields.flags flags = fields) ↔
        Fields.Spelling (.object members) fields := by
      constructor
      · rintro ⟨flags, rfl, rfl⟩
        exact .flags flags
      · intro h
        cases h with
        | flags flags => exact ⟨flags, rfl, rfl⟩
    refine Iff.trans (exists_congr fun flags => and_congr_left' ?_) spelled
    refine mapM_eq_ok_iff_image fun member flag => ?_
    obtain ⟨name, value⟩ := member
    cases value <;> simp [Json.bool?, Checked.refuse, Prod.ext_iff]
  | _ =>
    constructor
    · intro h
      exact absurd h refuse_ne_ok
    · intro h
      cases h

theorem accepts_orderOfJson : Accepts orderOfJson OrderSpelling := by
  intro json order
  cases json with
  | string entry =>
    rw [orderOfJson, Except.ok.injEq]
    constructor
    · rintro rfl
      exact .entry entry
    · intro h
      cases h
      rfl
  | array items =>
    have spelled : items = order.map .string ↔ OrderSpelling (.array items) order := by
      constructor
      · rintro rfl
        exact .entries order
      · intro h
        cases h
        rfl
    rw [orderOfJson]
    refine Iff.trans (each_eq_ok_iff_image fun item entry => ?_) spelled
    cases item <;> simp [Json.string?, Checked.refuse]
  | _ =>
    constructor
    · intro h
      exact absurd h refuse_ne_ok
    · intro h
      cases h

theorem accepts_countOfJson : Accepts countOfJson CountSpelling := by
  intro json count
  rw [CountSpelling, ← Json.uint64?_eq_some_iff, countOfJson]
  cases json.uint64? <;> simp [Checked.refuse]

theorem Condition.accepts_ofJson (name : String) :
    Accepts (Condition.ofJson name) Condition.Spelling := by
  intro json condition
  cases json with
  | object members =>
    rw [Condition.ofJson]
    constructor
    · intro h
      split at h
      next found hf =>
        cases h
        obtain ⟨before, operator, after, hp, hf, hb⟩ := List.findSome?_eq_some_iff.mp hf
        obtain ⟨operand, ho, rfl⟩ := Option.map_eq_some_iff.mp hf
        exact .operator hp ho fun other hm => Option.map_eq_none_iff.mp (hb other hm)
      next => cases h
    · intro h
      cases h with
      | literal hn => exact absurd rfl (hn members)
      | @operator _ operator operand before after hp ho hb =>
        have hf : Operator.priority.findSome? (fun operator =>
            (Keyed.get? operator.key members).map (Condition.operator operator)) =
              some (.operator operator operand) := by
          refine List.findSome?_eq_some_iff.mpr ⟨before, operator, after, hp, ?_, ?_⟩
          · rw [ho, Option.map_some]
          · intro other hm
            rw [hb other hm, Option.map_none]
        rw [hf]
  | _ =>
    constructor
    · intro h
      cases h
      exact .literal nofun
    · intro h
      cases h
      rfl

end QueryDialect
