import QueryDialect.Proofs.ClauseLeaves
import QueryDialect.Proofs.ReaderGrammar

namespace QueryDialect

section Lists

variable {α β γ : Type} {R : α → β → Prop} {S : α → γ → Prop} {T : γ → β → Prop}

/-- Lists that are related have a list between them if their elements have elements between them. -/
theorem exists_between_of_forall₂ {items : List α} {values : List β}
    (h : List.Forall₂ R items values)
    (hb : ∀ value ∈ values, ∀ item, R item value → ∃ between, S item between ∧ T between value) :
    ∃ middle, List.Forall₂ S items middle ∧ List.Forall₂ T middle values := by
  induction h with
  | nil => exact ⟨[], .nil, .nil⟩
  | @cons item value _ _ hr _ ih =>
    obtain ⟨between, hs, ht⟩ := hb value (List.mem_cons_self ..) item hr
    obtain ⟨middle, hs', ht'⟩ := ih fun other hm => hb other (List.mem_cons_of_mem _ hm)
    exact ⟨between :: middle, .cons hs hs', .cons ht ht'⟩

end Lists

/-- An object with exactly one member. -/
def Json.HasOneMember (json : Json) : Prop :=
  ∃ member, json = .object [member]

namespace Clause

/-- The values that clauses are read from when one is read from the first value: the value itself,
and the elements of the array of each combinator. -/
inductive ReadsFrom : Json → Json → Prop
  | self (json : Json) : ReadsFrom json json
  | and {members : Keyed Json} {items : List Json} {item node : Json}
      (ha : members.get? "and" = some (.array items)) (hm : item ∈ items)
      (hn : ReadsFrom item node) :
    ReadsFrom (.object members) node
  | or {members : Keyed Json} {items : List Json} {item node : Json}
      (ha : members.get? "and" = none) (ho : members.get? "or" = some (.array items))
      (hm : item ∈ items) (hn : ReadsFrom item node) :
    ReadsFrom (.object members) node

/-- An object with the key of a combinator that does not have exactly one member. -/
def DropsMembers (json : Json) : Prop :=
  ∃ members, json = .object members ∧ members.length ≠ 1 ∧
    (Keyed.get? "and" members ≠ none ∨ Keyed.get? "or" members ≠ none)

/-- The second value is the first one without the members that stand beside combinators. -/
inductive Cleared : Json → Json → Prop
  | and {members : Keyed Json} {items cleared : List Json}
      (ha : members.get? "and" = some (.array items)) (h : List.Forall₂ Cleared items cleared) :
    Cleared (.object members) (.object [("and", .array cleared)])
  | or {members : Keyed Json} {items cleared : List Json} (ha : members.get? "and" = none)
      (ho : members.get? "or" = some (.array items)) (h : List.Forall₂ Cleared items cleared) :
    Cleared (.object members) (.object [("or", .array cleared)])
  | field {name : String} {value : Json} (ha : name ≠ "and") (ho : name ≠ "or") :
    Cleared (.object [(name, value)]) (.object [(name, value)])

theorem Spelling.of_and {members : Keyed Json} {items : List Json} {clause : Clause}
    (h : Spelling (.object members) clause) (ha : members.get? "and" = some (.array items)) :
    ∃ children, clause = .and children ∧ List.Forall₂ Spelling items children := by
  cases h with
  | and ha' hs =>
    cases ha'.symm.trans ha
    exact ⟨_, rfl, hs⟩
  | or ha' => cases ha'.symm.trans ha
  | field hn => cases (Keyed.get?_singleton_eq_none_iff.mpr hn).symm.trans ha

theorem Spelling.of_or {members : Keyed Json} {items : List Json} {clause : Clause}
    (h : Spelling (.object members) clause) (ha : members.get? "and" = none)
    (ho : members.get? "or" = some (.array items)) :
    ∃ children, clause = .or children ∧ List.Forall₂ Spelling items children := by
  cases h with
  | and ha' => cases ha.symm.trans ha'
  | or _ ho' hs =>
    cases ho'.symm.trans ho
    exact ⟨_, rfl, hs⟩
  | field _ hn => cases (Keyed.get?_singleton_eq_none_iff.mpr hn).symm.trans ho

theorem Spelling.exists_of_readsFrom {json node : Json} {clause : Clause} (h : Spelling json clause)
    (hr : ReadsFrom json node) : ∃ part, Spelling node part := by
  induction hr generalizing clause with
  | self => exact ⟨clause, h⟩
  | and ha hm _ ih =>
    obtain ⟨children, -, hs⟩ := h.of_and ha
    obtain ⟨child, -, hc⟩ := exists_mem_of_forall₂ hs hm
    exact ih hc
  | or ha ho hm _ ih =>
    obtain ⟨children, -, hs⟩ := h.of_or ha ho
    obtain ⟨child, -, hc⟩ := exists_mem_of_forall₂ hs hm
    exact ih hc

theorem Spelling.hasOneMember_iff {json : Json} {clause : Clause} (h : Spelling json clause) :
    json.HasOneMember ↔ ¬ DropsMembers json := by
  constructor
  · rintro ⟨member, rfl⟩ ⟨members, hm, hl, -⟩
    cases hm
    exact hl rfl
  · intro hd
    have alone : ∀ members, json = .object members →
        (Keyed.get? "and" members ≠ none ∨ Keyed.get? "or" members ≠ none) → json.HasOneMember := by
      rintro members rfl hc
      have hl : members.length = 1 := by_contra fun hl => hd ⟨members, rfl, hl, hc⟩
      obtain ⟨member, rfl⟩ := List.length_eq_one_iff.mp hl
      exact ⟨member, rfl⟩
    cases h with
    | and ha => exact alone _ rfl (.inl (by simp [ha]))
    | or _ ho => exact alone _ rfl (.inr (by simp [ho]))
    | field => exact ⟨_, rfl⟩

theorem Spelling.exists_cleared {json : Json} {clause : Clause} (h : Spelling json clause) :
    ∃ cleared, Cleared json cleared ∧ Spelling cleared clause := by
  induction clause generalizing json with
  | and children ih =>
    cases h with
    | and ha hs =>
      obtain ⟨cleared, hc, hs⟩ := exists_between_of_forall₂ hs fun child hm _ => ih child hm
      exact ⟨_, .and ha hc, .and rfl hs⟩
  | or children ih =>
    cases h with
    | or ha ho hs =>
      obtain ⟨cleared, hc, hs⟩ := exists_between_of_forall₂ hs fun child hm _ => ih child hm
      exact ⟨_, .or ha ho hc, .or rfl rfl hs⟩
  | field name condition =>
    cases h with
    | field ha ho h => exact ⟨_, .field ha ho, .field ha ho h⟩

theorem Cleared.hasOneMember {json cleared : Json} (h : Cleared json cleared) :
    cleared.HasOneMember := by
  cases h <;> exact ⟨_, rfl⟩

theorem Cleared.exists_of_readsFrom {json cleared node : Json} (h : Cleared json cleared)
    (hr : ReadsFrom cleared node) : ∃ origin, Cleared origin node := by
  induction hr generalizing json with
  | self => exact ⟨json, h⟩
  | and ha hm _ ih =>
    cases h with
    | and _ hs =>
      cases ha
      obtain ⟨origin, -, hc⟩ := exists_mem_of_forall₂ hs.flip hm
      exact ih hc
    | or => cases ha
    | field hn => cases (Keyed.get?_singleton_eq_none_iff.mpr hn).symm.trans ha
  | or ha ho hm _ ih =>
    cases h with
    | and => cases ha
    | or _ _ hs =>
      cases ho
      obtain ⟨origin, -, hc⟩ := exists_mem_of_forall₂ hs.flip hm
      exact ih hc
    | field _ hn => cases (Keyed.get?_singleton_eq_none_iff.mpr hn).symm.trans ho

end Clause

/-- The scopes that an inclusion or a list of inclusions holds. -/
def Inclusion.HoldsScope (included scope : Json) : Prop :=
  ∃ members, Json.member? members "scope" = some scope ∧
    (included = .object members ∨ ∃ items, included = .array items ∧ .object members ∈ items)

/-- The values that clauses are read from when a filter is read: its own condition, and those of the
scopes at any depth. -/
inductive Filter.HoldsCondition : Json → Json → Prop
  | own {members : Keyed Json} {condition : Json}
      (hw : Json.member? members "where" = some condition) :
    HoldsCondition (.object members) condition
  | scope {members : Keyed Json} {included scope condition : Json}
      (hi : Json.member? members "include" = some included)
      (hs : Inclusion.HoldsScope included scope) (hc : HoldsCondition scope condition) :
    HoldsCondition (.object members) condition

/-- A member that is there and not null is spelled. -/
theorem OptionalSpelling.exists_of_member? {α : Type} {spelling : Json → α → Prop}
    {members : Keyed Json} {key : String} {json : Json} {value? : Option α}
    (h : OptionalSpelling spelling (members.get? key) value?)
    (hm : Json.member? members key = some json) :
    ∃ value, spelling json value ∧ value? = some value := by
  obtain ⟨hg, hn⟩ := Json.member?_eq_some_iff.mp hm
  obtain ⟨value, hv, rfl⟩ := (OptionalSpelling.some_iff hn).mp (hg ▸ h)
  exact ⟨value, hv, rfl⟩

theorem Inclusion.Spelling.exists_scope {Scope : Type} {spelling : Json → Scope → Prop}
    {members : Keyed Json} {json : Json} {inclusion : Inclusion Scope}
    (h : Inclusion.Spelling spelling (.object members) inclusion)
    (hs : Json.member? members "scope" = some json) :
    ∃ name scope, inclusion = .scoped name scope ∧ spelling json scope := by
  cases h with
  | withoutScope _ h =>
    obtain ⟨_, _, hv⟩ := h.exists_of_member? hs
    cases hv
  | @withScope _ name _ _ h =>
    obtain ⟨scope, hv, he⟩ := h.exists_of_member? hs
    cases he
    exact ⟨name, _, rfl, hv⟩

theorem Inclusion.ListSpelling.exists_scope {Scope : Type} {spelling : Json → Scope → Prop}
    {included json : Json} {inclusions : List (Inclusion Scope)}
    (h : Inclusion.ListSpelling spelling included inclusions)
    (hs : Inclusion.HoldsScope included json) :
    ∃ name scope, .scoped name scope ∈ inclusions ∧ spelling json scope := by
  obtain ⟨members, hs, hi⟩ := hs
  have single : ∀ inclusion ∈ inclusions, Inclusion.Spelling spelling (.object members) inclusion →
      ∃ name scope, .scoped name scope ∈ inclusions ∧ spelling json scope := by
    intro inclusion hm h
    obtain ⟨name, scope, rfl, hv⟩ := h.exists_scope hs
    exact ⟨name, scope, hm, hv⟩
  cases h with
  | list h =>
    rcases hi with hi | ⟨items, hi, hm⟩
    · cases hi
    · cases hi
      obtain ⟨inclusion, hm, h⟩ := exists_mem_of_forall₂ h hm
      exact single inclusion hm h
  | single h =>
    rcases hi with rfl | ⟨items, rfl, hm⟩
    · exact single _ (List.mem_singleton_self _) h
    · cases h

theorem Filter.Spelling.exists_condition {json condition : Json} {filter : Filter}
    (h : Filter.Spelling json filter) (hc : Filter.HoldsCondition json condition) :
    ∃ tree, Clause.Spelling condition tree ∧ tree.depth ≤ filter.depth := by
  induction hc generalizing filter with
  | own hw =>
    cases h with
    | object _ _ _ _ _ _ condition =>
      obtain ⟨tree, ht, he⟩ := condition.exists_of_member? hw
      exact ⟨tree, ht, (Filter.depth_le_iff.mp (Nat.le_refl _)).2 tree he⟩
  | scope hi hs _ ih =>
    cases h with
    | object _ inclusions =>
      obtain ⟨listed, hl, he⟩ := inclusions.exists_of_member? hi
      obtain ⟨name, scope, hm, hf⟩ := hl.exists_scope hs
      obtain ⟨tree, ht, hd⟩ := ih hf
      have hn := (Filter.depth_le_iff.mp (Nat.le_refl _)).1 listed he
      have hlt : scope.depth < _ := Nat.not_lt.mp (Filter.scopesDepth_le_iff.mp hn _ hm)
      exact ⟨tree, ht, by omega⟩

theorem Clause.exists_cleared_of_ofJson {limit : Nat} {json : Json} {clause : Clause}
    (h : Clause.ofJson limit json = .ok clause) :
    ∃ cleared, Clause.Cleared json cleared ∧ Clause.ofJson limit cleared = .ok clause ∧
      ∀ node, Clause.ReadsFrom cleared node → node.HasOneMember := by
  obtain ⟨hs, hd⟩ := (Clause.accepts_ofJson limit json clause).mp h
  obtain ⟨cleared, hc, hs⟩ := hs.exists_cleared
  refine ⟨cleared, hc, (Clause.accepts_ofJson limit cleared clause).mpr ⟨hs, hd⟩, ?_⟩
  intro node hr
  obtain ⟨origin, ho⟩ := hc.exists_of_readsFrom hr
  exact ho.hasOneMember

theorem Clause.hasOneMember_iff_of_ofJson {limit : Nat} {json node : Json} {clause : Clause}
    (h : Clause.ofJson limit json = .ok clause) (hr : Clause.ReadsFrom json node) :
    node.HasOneMember ↔ ¬ Clause.DropsMembers node := by
  obtain ⟨hs, -⟩ := (Clause.accepts_ofJson limit json clause).mp h
  obtain ⟨part, hp⟩ := hs.exists_of_readsFrom hr
  exact hp.hasOneMember_iff

theorem Filter.exists_clause_of_ofJson {limit : Nat} {json condition : Json} {filter : Filter}
    (h : Filter.ofJson limit json = .ok filter) (hc : Filter.HoldsCondition json condition) :
    ∃ clause, Clause.ofJson limit condition = .ok clause := by
  obtain ⟨hs, hd⟩ := (Filter.accepts_ofJson limit json filter).mp h
  obtain ⟨clause, ht, hle⟩ := hs.exists_condition hc
  exact ⟨clause, (Clause.accepts_ofJson limit condition clause).mpr ⟨ht, Nat.le_trans hle hd⟩⟩

/-- Of the values that clauses are read from, just those have more than one member that drop the
others: combinators that do not stand alone. They are read as if they did. -/
theorem read_nodes_stand_alone_or_drop_members (limit : Nat) :
    (∀ json clause, Clause.ofJson limit json = .ok clause →
      (∀ node, Clause.ReadsFrom json node → (node.HasOneMember ↔ ¬ Clause.DropsMembers node)) ∧
      ∃ cleared, Clause.Cleared json cleared ∧ Clause.ofJson limit cleared = .ok clause ∧
        ∀ node, Clause.ReadsFrom cleared node → node.HasOneMember) ∧
    ∀ json filter, Filter.ofJson limit json = .ok filter →
      ∀ condition, Filter.HoldsCondition json condition →
        (∃ clause, Clause.ofJson limit condition = .ok clause) ∧
        ∀ node, Clause.ReadsFrom condition node →
          (node.HasOneMember ↔ ¬ Clause.DropsMembers node) := by
  constructor
  · intro json clause h
    refine ⟨fun node hr => Clause.hasOneMember_iff_of_ofJson h hr, ?_⟩
    exact Clause.exists_cleared_of_ofJson h
  · intro json filter h condition hc
    obtain ⟨clause, hw⟩ := Filter.exists_clause_of_ofJson h hc
    exact ⟨⟨clause, hw⟩, fun node hr => Clause.hasOneMember_iff_of_ofJson hw hr⟩

/-- The field beside a conjunction is gone: the clause asks for less than the object says. -/
theorem combinator_drops_its_sibling :
    let json := Json.object [("and", .array [.object [("a", .null)]]), ("b", .null)]
    Clause.ofJson 64 json = .ok (.and [.field "a" (.literal .null)]) ∧
      Clause.ReadsFrom json json ∧ ¬ json.HasOneMember ∧ Clause.DropsMembers json := by
  intro json
  have h : Clause.ofJson 64 json = .ok (.and [.field "a" (.literal .null)]) := rfl
  have hr : Clause.ReadsFrom json json := .self json
  have hd : Clause.DropsMembers json := ⟨_, rfl, by decide, .inl nofun⟩
  have hi := ((read_nodes_stand_alone_or_drop_members 64).1 json _ h).1 json hr
  exact ⟨h, hr, fun ho => hi.mp ho hd, hd⟩

end QueryDialect
