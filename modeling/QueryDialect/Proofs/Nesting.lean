import QueryDialect.Proofs.FirstViolation
import QueryDialect.Proofs.ReaderLimit

namespace QueryDialect

/-- The error as it is reported by a context that holds the examined value at a place and has a limit
of its own. -/
def FilterError.nested (limit : Nat) (place : Path) : FilterError → FilterError
  | depthLimitExceeded _ => depthLimitExceeded limit
  | malformed path defect => malformed (place ++ path) defect
  | error => error

theorem Path.foldl_text_eq_append (path : Path) (text : String) :
    path.foldl (fun text step => text ++ step.text) text =
      text ++ path.foldl (fun text step => text ++ step.text) "" := by
  induction path generalizing text with
  | nil => simp
  | cons step rest ih =>
    rw [List.foldl_cons, List.foldl_cons, ih, ih ("" ++ step.text), String.empty_append,
      String.append_assoc]

/-- The root of a place inside a value gives way to the place of the value. -/
theorem Path.exists_text_append (path : Path) :
    ∃ rest, path.text = "$" ++ rest ∧ ∀ place : Path, (place ++ path).text = place.text ++ rest := by
  refine ⟨_, foldl_text_eq_append path "$", fun place => ?_⟩
  rw [text, List.foldl_append]
  exact foldl_text_eq_append path _

namespace Checked

variable {α β γ δ : Type} {limit : Nat} {place : Path} {outcome : Checked α}

/-- The outcome in a context: what comes out is put into the context, and an error is placed there. -/
def nested (limit : Nat) (place : Path) (wrap : α → β) : Checked α → Checked β
  | .ok value => .ok (wrap value)
  | .error error => .error (error.nested limit place)

/-- Errors about nesting name this limit and no other. -/
def NamesLimit (limit : Nat) (outcome : Checked α) : Prop :=
  ∀ found, outcome = .error (.depthLimitExceeded found) → found = limit

theorem Measured.namesLimit {tooDeep : Prop} (h : Measured limit tooDeep outcome) :
    NamesLimit limit outcome := by
  rintro found rfl
  exact h.of_depth_error.1

theorem Cut.namesLimit {larger : Nat} {fits : α → Prop} {long : Checked α}
    (h : Cut limit larger fits long outcome) : NamesLimit limit outcome := by
  rintro found rfl
  cases h with
  | dropped | overtaken | tooDeep => rfl
  | refused hn => exact absurd trivial hn

theorem inside_deeper : inside place (deeper outcome) = deeper (inside place outcome) := by
  cases outcome with
  | ok value => rfl
  | error error => exact congrArg Except.error (FilterError.deeper_inside place error).symm

theorem map_inside_eq_nested (hl : NamesLimit limit outcome) (wrap : α → β) :
    wrap <$> inside place outcome = outcome.nested limit place wrap := by
  cases outcome with
  | ok value => rfl
  | error error =>
    cases error with
    | depthLimitExceeded found => rw [hl found rfl]; rfl
    | _ => rfl

theorem map_inside_deeper_eq_nested (hl : NamesLimit limit outcome) (wrap : α → β) :
    wrap <$> inside place (deeper outcome) = outcome.nested (limit + 1) place wrap := by
  cases outcome with
  | ok value => rfl
  | error error =>
    cases error with
    | depthLimitExceeded found => rw [hl found rfl]; rfl
    | _ => rfl

/-- Two stages in a context, if each of them goes on in the context as it does alone. -/
theorem nested_bind {next : α → Checked γ} {wrap : α → β} {next' : β → Checked δ} {wrap' : γ → δ}
    (hn : ∀ value, next' (wrap value) = (next value).nested limit place wrap') :
    outcome.nested limit place wrap >>= next' = (outcome >>= next).nested limit place wrap' := by
  cases outcome with
  | ok value => exact hn value
  | error error => rfl

theorem map_nested {wrap : α → β} {write : α → γ} {write' : β → δ} {wrap' : γ → δ}
    (hw : ∀ value, write' (wrap value) = wrap' (write value)) :
    write' <$> outcome.nested limit place wrap = (write <$> outcome).nested limit place wrap' := by
  cases outcome with
  | ok value => exact congrArg Except.ok (hw value)
  | error error => rfl

theorem StopsAt.exists_of_error {level : Nat} {found : List FilterError} {error : FilterError}
    (h : StopsAt level place found (.error error : Checked α)) :
    ∃ rest, found = error.placed level place :: rest := by
  cases h with
  | first => exact ⟨_, rfl⟩

theorem optional_of_get? {members : Keyed Json} {key : String} {json : Json}
    {examine : Json → Checked α} (h : members.get? key = some json) (hn : json ≠ .null) :
    optional members key examine = some <$> member key examine json := by
  rw [optional, Json.member?_eq_some_iff.mpr ⟨h, hn⟩]

end Checked

open Checked (NamesLimit map_inside_eq_nested map_inside_deeper_eq_nested nested_bind map_nested)

theorem Checked.each_singleton {α β : Type} (steps : Nat → Path) (examine : α → Checked β) (item : α) :
    each steps examine [item] = ([·]) <$> inside (steps 0) (examine item) := by
  rw [each, List.zipIdx_singleton, List.mapM_cons, List.mapM_nil]
  cases examine item <;> rfl

namespace Clause

theorem namesLimit_ofJson (limit : Nat) (json : Json) : NamesLimit limit (ofJson limit json) :=
  (cut_ofJson (Nat.le_refl limit) json).namesLimit

theorem namesLimit_toPredicate (limit : Nat) (clause : Clause) :
    NamesLimit limit (clause.toPredicate limit) :=
  (measured_toPredicate limit clause).namesLimit

/-- A combinator of a single clause is read as that clause is, a level deeper. -/
theorem ofJson_combinator {combine : List Clause → Clause} {key : String}
    (hk : ∀ child json, ofJsonWith child (.object [(key, json)]) =
      combine <$> Checked.member key (listOfJson child) json) (limit : Nat) (json : Json) :
    ofJson (limit + 1) (.object [(key, .array [json])]) =
      (ofJson limit json).nested (limit + 1) [.key key, .index 0] fun clause => combine [clause] := by
  have hs : ofJson (limit + 1) (.object [(key, .array [json])]) =
      ofJsonWith (fun inner => Checked.deeper (ofJson limit inner)) (.object [(key, .array [json])]) :=
    rfl
  rw [hs, hk, ← map_inside_deeper_eq_nested (namesLimit_ofJson limit json), Checked.member,
    listOfJson, Checked.each_singleton]
  cases Checked.deeper (ofJson limit json) with
  | ok clause => rfl
  | error error => cases error <;> rfl

/-- Nothing in a clause has a place of its own, so the conversion has none to name. -/
theorem toPredicate_ne_malformed (limit : Nat) (clause : Clause) (path : Path) (defect : Defect) :
    clause.toPredicate limit ≠ .error (.malformed path defect) := by
  intro h
  have hr := stopsAt_toPredicate limit 0 [] clause
  have hp := stopsAt_toPredicate limit 0 [.index 0] clause
  rw [h] at hr hp
  obtain ⟨rest, hr⟩ := hr.exists_of_error
  obtain ⟨rest', hp⟩ := hp.exists_of_error
  have hl := congrArg List.head? (hr.symm.trans hp)
  simp [FilterError.placed] at hl

theorem inside_toPredicate (place : Path) (limit : Nat) (clause : Clause) :
    Checked.inside place (clause.toPredicate limit) = clause.toPredicate limit := by
  cases h : clause.toPredicate limit with
  | ok predicate => rfl
  | error error =>
    cases error with
    | malformed path defect => exact absurd h (toPredicate_ne_malformed limit clause path defect)
    | _ => rfl

theorem toPredicate_combinator {combine : List Clause → Clause}
    {combine' : List Predicate → Predicate}
    (hc : ∀ child children, toPredicateWith child (combine children) =
      combine' <$> children.mapM child) (place : Path) (limit : Nat) (clause : Clause) :
    toPredicate (limit + 1) (combine [clause]) =
      (clause.toPredicate limit).nested (limit + 1) place fun predicate => combine' [predicate] := by
  have hs : toPredicate (limit + 1) (combine [clause]) =
      toPredicateWith (fun inner => Checked.deeper (inner.toPredicate limit)) (combine [clause]) :=
    rfl
  rw [hs, hc, ← map_inside_deeper_eq_nested (namesLimit_toPredicate limit clause),
    Checked.inside_deeper, inside_toPredicate, List.mapM_cons, List.mapM_nil]
  cases Checked.deeper (clause.toPredicate limit) <;> rfl

theorem convertJson_combinator {combine : List Clause → Clause}
    {combine' : List Predicate → Predicate} {key key' : String}
    (hk : ∀ child json, ofJsonWith child (.object [(key, json)]) =
      combine <$> Checked.member key (listOfJson child) json)
    (hc : ∀ child children, toPredicateWith child (combine children) =
      combine' <$> children.mapM child)
    (hw : ∀ predicate, (combine' [predicate]).toJson = .object [(key', .array [predicate.toJson])])
    {inner outer : Options} (hl : outer.limit = inner.limit + 1) (json : Json) :
    convertJson outer (.object [(key, .array [json])]) =
      (convertJson inner json).nested outer.limit [.key key, .index 0]
        fun out => .object [(key', .array [out])] := by
  rw [convertJson_eq_steps, convertJson_eq_steps, hl, ofJson_combinator hk]
  refine nested_bind fun clause => ?_
  rw [toPredicate_combinator hc [.key key, .index 0]]
  exact map_nested hw

end Clause

namespace Filter

theorem namesLimit_ofJson (limit : Nat) (json : Json) : NamesLimit limit (ofJson limit json) :=
  (cut_ofJson (Nat.le_refl limit) json).namesLimit

theorem namesLimit_toQuery (limit : Nat) (filter : Filter) :
    NamesLimit limit (filter.toQuery limit) :=
  (measured_toQuery limit filter).namesLimit

theorem ofJson_condition {json : Json} (hn : json ≠ .null) (limit : Nat) :
    ofJson limit (.object [("where", json)]) =
      (Clause.ofJson limit json).nested limit [.key "where"] fun tree => { condition := some tree } := by
  have hs : ofJson limit (.object [("where", json)]) =
      (fun condition => { condition }) <$>
        Checked.optional [("where", json)] "where" (Clause.ofJson limit) := by
    cases limit <;> rfl
  rw [hs, Checked.optional_of_get? rfl hn,
    ← map_inside_eq_nested (Clause.namesLimit_ofJson limit json), Checked.member]
  cases Clause.ofJson limit json <;> rfl

theorem ofJsonWith_scope {json : Json} (hn : json ≠ .null) (relation : String)
    (scope : Json → Checked Filter) (clause : Json → Checked Clause) :
    ofJsonWith scope clause (.object [("include", .array
        [.object [("relation", .string relation), ("scope", json)]])]) =
      (fun scope => { inclusions := some [.scoped relation scope] }) <$>
        Checked.inside [.key "include", .index 0, .key "scope"] (scope json) := by
  let members := [("relation", Json.string relation), ("scope", json)]
  have hi : Inclusion.ofJsonWith scope (.object members) =
      (.scoped relation ·) <$> Checked.inside [.key "scope"] (scope json) := by
    change (Checked.optional members "scope" scope >>= _) = _
    rw [Checked.optional_of_get? rfl hn, Checked.member]
    cases scope json <;> rfl
  let included := Json.array [.object members]
  have hg : Keyed.get? "include" [("include", included)] = some included := rfl
  have hs : ofJsonWith scope clause (.object [("include", included)]) =
      Checked.optional [("include", included)] "include" (Inclusion.listOfJson scope) >>=
        fun inclusions => .ok { inclusions } :=
    rfl
  rw [hs, Checked.optional_of_get? hg nofun, Checked.member, Inclusion.listOfJson,
    Checked.each_singleton, hi]
  cases scope json with
  | ok filter => rfl
  | error error => cases error <;> rfl

theorem ofJson_scope {json : Json} (hn : json ≠ .null) (relation : String) (limit : Nat) :
    ofJson (limit + 1) (.object [("include", .array
        [.object [("relation", .string relation), ("scope", json)]])]) =
      (ofJson limit json).nested (limit + 1) [.key "include", .index 0, .key "scope"]
        fun scope => { inclusions := some [.scoped relation scope] } := by
  rw [← map_inside_deeper_eq_nested (namesLimit_ofJson limit json)]
  exact ofJsonWith_scope hn relation _ _

theorem toQuery_condition (limit : Nat) (tree : Clause) :
    toQuery limit { condition := some tree } =
      (tree.toPredicate limit).nested limit [.key "where"]
        fun predicate => { condition := some predicate } := by
  have hs : toQuery limit { condition := some tree } = (some <$> tree.toPredicate limit) >>=
      fun condition => .ok { condition } := by
    cases limit <;> rfl
  rw [hs, ← map_inside_eq_nested (Clause.namesLimit_toPredicate limit tree),
    Clause.inside_toPredicate]
  cases tree.toPredicate limit <;> rfl

theorem toQuery_scope (relation : String) (limit : Nat) (scope : Filter) :
    toQuery (limit + 1) { inclusions := some [.scoped relation scope] } =
      (scope.toQuery limit).nested (limit + 1) [.key "include", .index 0, .key "scope"]
        fun query => { projection := some (.relations [(relation, .scoped query)]) } := by
  have hs : toQuery (limit + 1) { inclusions := some [.scoped relation scope] } =
      ((some ∘ .relations) <$> relationsOf (fun inner => Checked.deeper (inner.toQuery limit))
        [.scoped relation scope]) >>= fun projection => .ok { projection } :=
    rfl
  rw [hs, relationsOf, Checked.each_singleton,
    ← map_inside_deeper_eq_nested (namesLimit_toQuery limit scope), Inclusion.toRelated]
  cases Checked.deeper (scope.toQuery limit) with
  | ok query => rfl
  | error error => cases error <;> rfl

theorem convertJson_condition {json : Json} (hn : json ≠ .null) (options : Options) :
    convertJson options (.object [("where", json)]) =
      (Clause.convertJson options json).nested options.limit [.key "where"]
        fun out => .object [("where", out)] := by
  rw [convertJson_eq_steps, Clause.convertJson_eq_steps, ofJson_condition hn]
  refine nested_bind fun tree => ?_
  rw [toQuery_condition]
  exact map_nested fun predicate => rfl

theorem convertJson_scope {json : Json} (hn : json ≠ .null) (relation : String)
    {inner outer : Options} (hl : outer.limit = inner.limit + 1) :
    convertJson outer (.object [("include", .array
        [.object [("relation", .string relation), ("scope", json)]])]) =
      (convertJson inner json).nested outer.limit [.key "include", .index 0, .key "scope"]
        fun out => .object [("include", .object [(relation, out)])] := by
  rw [convertJson_eq_steps, convertJson_eq_steps, hl, ofJson_scope hn]
  refine nested_bind fun scope => ?_
  rw [toQuery_scope]
  exact map_nested fun query => rfl

end Filter

/-- A condition is converted in a filter as it is alone. In a combinator a clause is converted as it
is alone under a limit that is one smaller, and so is a scope in an inclusion; under the limit zero
there is no room for either. -/
theorem conversion_commutes_with_nesting (json : Json) (relation : String) :
    (∀ options : Options, json ≠ .null →
      Filter.convertJson options (.object [("where", json)]) =
        (Clause.convertJson options json).nested options.limit [.key "where"]
          fun out => .object [("where", out)]) ∧
    (∀ inner outer : Options, outer.limit = inner.limit + 1 →
      Clause.convertJson outer (.object [("and", .array [json])]) =
          (Clause.convertJson inner json).nested outer.limit [.key "and", .index 0]
            (fun out => .object [("AND", .array [out])]) ∧
        Clause.convertJson outer (.object [("or", .array [json])]) =
          (Clause.convertJson inner json).nested outer.limit [.key "or", .index 0]
            (fun out => .object [("OR", .array [out])]) ∧
        (json ≠ .null →
          Filter.convertJson outer (.object [("include", .array
              [.object [("relation", .string relation), ("scope", json)]])]) =
            (Filter.convertJson inner json).nested outer.limit
              [.key "include", .index 0, .key "scope"]
              fun out => .object [("include", .object [(relation, out)])])) ∧
    (∀ options : Options, options.limit = 0 →
      Clause.convertJson options (.object [("and", .array [json])]) =
          .error (.depthLimitExceeded 0) ∧
        Clause.convertJson options (.object [("or", .array [json])]) =
          .error (.depthLimitExceeded 0) ∧
        (json ≠ .null →
          Filter.convertJson options (.object [("include", .array
              [.object [("relation", .string relation), ("scope", json)]])]) =
            .error (.depthLimitExceeded 0))) ∧
    ∀ path : Path, ∃ rest, path.text = "$" ++ rest ∧
      ([.key "where"] ++ path : Path).text = "$.where" ++ rest ∧
      ([.key "and", .index 0] ++ path : Path).text = "$.and[0]" ++ rest ∧
      ([.key "or", .index 0] ++ path : Path).text = "$.or[0]" ++ rest ∧
      ([.key "include", .index 0, .key "scope"] ++ path : Path).text =
        "$.include[0].scope" ++ rest := by
  refine ⟨fun options hn => Filter.convertJson_condition hn options, ?_, ?_, fun path => ?_⟩
  · intro inner outer hl
    refine ⟨?_, ?_, fun hn => Filter.convertJson_scope hn relation hl⟩
    · exact Clause.convertJson_combinator (fun _ _ => Clause.ofJsonWith_of_and rfl)
        (fun _ _ => rfl) (fun _ => rfl) hl json
    · exact Clause.convertJson_combinator (fun _ _ => Clause.ofJsonWith_of_or rfl rfl)
        (fun _ _ => rfl) (fun _ => rfl) hl json
  · intro options hl
    rw [Clause.convertJson_eq_steps, Clause.convertJson_eq_steps, hl]
    refine ⟨rfl, rfl, fun hn => ?_⟩
    have hs : Filter.ofJson 0 (.object [("include", .array
        [.object [("relation", .string relation), ("scope", json)]])]) =
          .error (.depthLimitExceeded 0) :=
      Filter.ofJsonWith_scope hn relation _ _
    rw [Filter.convertJson_eq_steps, hl, hs]
    rfl
  · obtain ⟨rest, hr, ht⟩ := path.exists_text_append
    exact ⟨rest, hr, ht _, ht _, ht _, ht _⟩

/-- An order entry without a field is found where the scope stands, if the limit leaves room for the
scope. As a condition the same value is a field that is compared with a list. -/
theorem nesting_places_order_error :
    let json := Json.object [("order", .array [.string ""])]
    let filter := Json.object [("include", .array
      [.object [("relation", .string "posts"), ("scope", json)]])]
    let inner : Options := { maxDepth := 0 }
    let outer : Options := { maxDepth := 1 }
    json ≠ .null ∧ outer.limit = inner.limit + 1 ∧ inner.limit = 0 ∧
      Filter.convertJson inner (.object [("where", json)]) = .ok (.object [("where", json)]) ∧
      Clause.convertJson outer (.object [("and", .array [json])]) =
        .ok (.object [("AND", .array [json])]) ∧
      Filter.convertJson outer filter = .error (.malformed
        [.key "include", .index 0, .key "scope", .key "order", .index 0] .missingFieldName) ∧
      Filter.convertJson inner filter = .error (.depthLimitExceeded 0) := by
  intro json filter inner outer
  have hn : json ≠ .null := nofun
  have hl : outer.limit = inner.limit + 1 := rfl
  have hc : Clause.convertJson inner json = .ok json := rfl
  have hf : Filter.convertJson inner json =
      .error (.malformed [.key "order", .index 0] .missingFieldName) := rfl
  obtain ⟨condition, nested, flat, -⟩ := conversion_commutes_with_nesting json "posts"
  obtain ⟨conjunction, -, scope⟩ := nested inner outer hl
  refine ⟨hn, hl, rfl, ?_, ?_, ?_, (flat inner rfl).2.2 hn⟩
  · rw [condition inner hn, hc]
    rfl
  · rw [conjunction, hc]
    rfl
  · rw [scope hn, hf]
    rfl

end QueryDialect
