import QueryDialect.Proofs.Sessions
import QueryDialect.Proofs.TextNesting
import QueryDialect.Proofs.WrittenQueries

namespace QueryDialect

open Checked (Raises)

section Text

variable {limit : Nat} {json : Json}

theorem not_isDepth_of_takesNesting {α : Type} {outcome : Checked α} (hl : 63 ≤ limit)
    (hj : json.nesting ≤ Json.nestingLimit) (h : TakesNesting (2 * limit + 2) json outcome) :
    Raises (fun error => ¬ error.IsDepth) outcome := by
  intro error he hd
  have hn : 2 * limit + 2 ≤ json.nesting := h error he hd
  rw [Json.nestingLimit] at hj
  omega

theorem Clause.ofJson_conjoined (limit : Nat) (json : Json) :
    Clause.ofJson limit (json.conjoined (limit + 1)) = .error (.depthLimitExceeded limit) := by
  induction limit with
  | zero => rfl
  | succ limit ih =>
    rw [Json.conjoined, Clause.ofJson_combinator (fun _ _ => Clause.ofJsonWith_of_and rfl), ih]
    rfl

theorem Filter.ofJson_conjoined (limit : Nat) (json : Json) :
    Filter.ofJson limit (.object [("where", json.conjoined (limit + 1))]) =
      .error (.depthLimitExceeded limit) := by
  have hn : json.conjoined (limit + 1) ≠ .null := nofun
  rw [Filter.ofJson_condition hn, Clause.ofJson_conjoined]
  rfl

theorem Clause.forall_text_not_isDepth_iff :
    (∀ json : Json, json.nesting ≤ Json.nestingLimit →
      Raises (fun error => ¬ error.IsDepth) (Clause.ofJson limit json)) ↔ 63 ≤ limit := by
  constructor
  · intro h
    by_contra hl
    have hn : (Json.null.conjoined (limit + 1)).nesting ≤ Json.nestingLimit := by
      rw [Json.nesting_conjoined, Json.nesting, Json.nestingLimit]
      omega
    exact h _ hn _ (Clause.ofJson_conjoined limit .null) trivial
  · exact fun hl json hj => not_isDepth_of_takesNesting hl hj (Clause.takesNesting_ofJson limit json)

theorem Filter.forall_text_not_isDepth_iff :
    (∀ json : Json, json.nesting ≤ Json.nestingLimit →
      Raises (fun error => ¬ error.IsDepth) (Filter.ofJson limit json)) ↔ 63 ≤ limit := by
  constructor
  · intro h
    by_contra hl
    have hn : (Json.object [("where", Json.null.conjoined (limit + 1))]).nesting ≤
        Json.nestingLimit := by
      rw [Json.nesting, Json.nestingOfMembers, Json.nestingOfMembers, Json.nesting_conjoined,
        Json.nesting, Json.nestingLimit, Nat.max_zero]
      omega
    exact h _ hn _ (Filter.ofJson_conjoined limit .null) trivial
  · exact fun hl json hj => not_isDepth_of_takesNesting hl hj (Filter.takesNesting_ofJson limit json)

end Text

section Conversion

variable {options : Options}

theorem Filter.raises_convert {filter : Filter} (h : filter.depth ≤ options.limit) :
    Raises (fun error => ¬ error.IsDepth) (filter.convert options).1 := by
  intro error he hd
  cases error with
  | depthLimitExceeded limit => exact Filter.convert_ne_depth_error h limit he
  | _ => exact hd

theorem Clause.raises_convert {clause : Clause} (h : clause.depth ≤ options.limit) :
    Raises (fun error => ¬ error.IsDepth) (clause.convert options).1 := by
  intro error he hd
  cases error with
  | depthLimitExceeded limit => exact Clause.convert_ne_depth_error h limit he
  | _ => exact hd

theorem Filter.raises_convertJson {json : Json} (hl : 63 ≤ options.limit)
    (hj : json.nesting ≤ Json.nestingLimit) :
    Raises (fun error => ¬ error.IsDepth) (Filter.convertJson options json) := by
  rw [Filter.convertJson_eq]
  refine Raises.bind (Filter.forall_text_not_isDepth_iff.mpr hl json hj) fun filter hf => ?_
  exact Raises.map (Filter.raises_convert (Filter.depth_le_of_ofJson hf)) Query.toJson

theorem Clause.raises_convertJson {json : Json} (hl : 63 ≤ options.limit)
    (hj : json.nesting ≤ Json.nestingLimit) :
    Raises (fun error => ¬ error.IsDepth) (Clause.convertJson options json) := by
  rw [Clause.convertJson_eq]
  refine Raises.bind (Clause.forall_text_not_isDepth_iff.mpr hl json hj) fun clause hc => ?_
  exact Raises.map (Clause.raises_convert (Clause.depth_le_of_ofJson hc)) Predicate.toJson

end Conversion

namespace Json

mutual

/-- Writing only appends. -/
theorem exists_write_eq (spacing : Spacing) (depth : Nat) (done : String) :
    ∀ json : Json, ∃ rest, json.write spacing depth done = done ++ rest
  | .null => ⟨_, rfl⟩
  | .bool true => ⟨_, rfl⟩
  | .bool false => ⟨_, rfl⟩
  | .number value => ⟨_, rfl⟩
  | .string value => ⟨_, rfl⟩
  | .array [] => ⟨_, rfl⟩
  | .object [] => ⟨_, rfl⟩
  | .array (item :: rest) => by
    obtain ⟨first, hf⟩ := exists_write_eq spacing (depth + 1)
      (done ++ "[" ++ spacing.lineBreak (depth + 1)) item
    obtain ⟨others, ho⟩ := exists_writeItems_eq spacing (depth + 1) _ rest
    rw [write, ho, hf]
    simp only [String.append_assoc]
    exact ⟨_, rfl⟩
  | .object ((key, value) :: rest) => by
    obtain ⟨first, hf⟩ := exists_write_eq spacing (depth + 1)
      (done ++ "\x7b" ++ spacing.lineBreak (depth + 1) ++ quote key ++ ":" ++ spacing.afterColon) value
    obtain ⟨others, ho⟩ := exists_writeMembers_eq spacing (depth + 1) _ rest
    rw [write, ho, hf]
    simp only [String.append_assoc]
    exact ⟨_, rfl⟩

theorem exists_writeItems_eq (spacing : Spacing) (depth : Nat) (done : String) :
    ∀ items : List Json, ∃ rest, writeItems spacing depth done items = done ++ rest
  | [] => ⟨"", by rw [writeItems, String.append_empty]⟩
  | item :: rest => by
    obtain ⟨first, hf⟩ := exists_write_eq spacing depth (done ++ "," ++ spacing.lineBreak depth) item
    obtain ⟨others, ho⟩ := exists_writeItems_eq spacing depth _ rest
    rw [writeItems, ho, hf]
    simp only [String.append_assoc]
    exact ⟨_, rfl⟩

theorem exists_writeMembers_eq (spacing : Spacing) (depth : Nat) (done : String) :
    ∀ members : List (String × Json), ∃ rest,
      writeMembers spacing depth done members = done ++ rest
  | [] => ⟨"", by rw [writeMembers, String.append_empty]⟩
  | (key, value) :: rest => by
    obtain ⟨first, hf⟩ := exists_write_eq spacing depth
      (done ++ "," ++ spacing.lineBreak depth ++ quote key ++ ":" ++ spacing.afterColon) value
    obtain ⟨others, ho⟩ := exists_writeMembers_eq spacing depth _ rest
    rw [writeMembers, ho, hf]
    simp only [String.append_assoc]
    exact ⟨_, rfl⟩

end

theorem exists_pretty_object_eq (members : List (String × Json)) :
    ∃ rest, (object members).pretty = "\x7b" ++ rest := by
  cases members with
  | nil => exact ⟨"\x7d", rfl⟩
  | cons member rest =>
    obtain ⟨key, value⟩ := member
    obtain ⟨first, hf⟩ := exists_write_eq .pretty 1
      ("" ++ "\x7b" ++ Spacing.pretty.lineBreak 1 ++ quote key ++ ":" ++ Spacing.pretty.afterColon)
      value
    obtain ⟨others, ho⟩ := exists_writeMembers_eq .pretty 1 _ rest
    rw [pretty, write, ho, hf]
    simp only [String.append_assoc, String.empty_append]
    exact ⟨_, rfl⟩

end Json

namespace Console

/-- The text tells of an error about nesting. -/
def TellsOfNesting (text : String) : Prop :=
  ∃ message, text = "✗ [DepthLimitExceededError] " ++ message

theorem TellsOfNesting.take_four {text : String} (h : TellsOfNesting text) :
    text.toList.take 4 = ['✗', ' ', '[', 'D'] := by
  obtain ⟨message, rfl⟩ := h
  rw [String.toList_append]
  rfl

theorem not_tellsOfNesting_of_head? {text : String} (h : text.toList.head? ≠ some '✗') :
    ¬ TellsOfNesting text := by
  intro ht
  have hd : (text.toList.take 4).head? = some '✗' := by rw [ht.take_four]; rfl
  rw [List.head?_take, if_neg (by decide)] at hd
  exact h hd

theorem not_tellsOfNesting_pretty (members : List (String × Json)) :
    ¬ TellsOfNesting (Json.object members).pretty := by
  obtain ⟨rest, hr⟩ := Json.exists_pretty_object_eq members
  have hd : (Json.object members).pretty.toList.head? = some '\x7b' := by
    rw [hr, String.toList_append]
    rfl
  exact not_tellsOfNesting_of_head? (by rw [hd]; decide)

/-- Kinds of error that are not about nesting have another first letter. -/
theorem isDepth_of_take_kind {error : FilterError} {rest : List Char}
    (h : (error.kind.toList ++ rest).take 1 = ['D']) : error.IsDepth := by
  have hl : 1 ≤ error.kind.toList.length := by
    cases error <;> simp only [FilterError.kind] <;> decide
  rw [List.take_append_of_le_length hl] at h
  revert h
  cases error <;> simp only [FilterError.kind, FilterError.IsDepth] <;> decide

theorem isDepth_of_tellsOfNesting {error : FilterError}
    (h : TellsOfNesting (shown (.error error))) : error.IsDepth := by
  have ht := h.take_four
  have opening : ("✗ [" : String).toList = ['✗', ' ', '['] := rfl
  simp only [shown, String.toList_append, opening, List.append_assoc, List.cons_append,
    List.nil_append, List.take_succ_cons, List.cons.injEq, true_and] at ht
  exact isDepth_of_take_kind ht

theorem not_tellsOfNesting_shown {outcome : Checked Json}
    (he : Raises (fun error => ¬ error.IsDepth) outcome)
    (ho : ∀ json, outcome = .ok json → ∃ members, json = .object members) :
    ¬ TellsOfNesting (shown outcome) := by
  cases outcome with
  | ok json =>
    obtain ⟨members, rfl⟩ := ho json rfl
    exact not_tellsOfNesting_pretty members
  | error error => exact fun h => he error rfl (isDepth_of_tellsOfNesting h)

theorem not_tellsOfNesting_answer {wording : Wording} {convert : Json → Checked Json}
    {source : String}
    (he : ∀ json : Json, json.nesting ≤ Json.nestingLimit →
      Raises (fun error => ¬ error.IsDepth) (convert json))
    (ho : ∀ source json, convert source = .ok json → ∃ members, json = .object members) :
    ¬ TellsOfNesting (answer wording convert source) := by
  cases hj : Json.ofText? source with
  | none =>
    rw [answer_of_malformed hj]
    intro h
    have ht := h.take_four
    rw [String.toList_append, List.take_append_of_le_length (by decide)] at ht
    exact absurd ht (by decide)
  | some json =>
    rw [answer_of_json hj]
    exact not_tellsOfNesting_shown (he json (Json.nesting_le_of_ofText? hj)) (ho json)

theorem not_tellsOfNesting_help : ¬ TellsOfNesting help := by
  refine not_tellsOfNesting_of_head? ?_
  rw [help, String.intercalate_cons_cons, String.append_assoc, String.toList_append]
  decide

section Session

variable {wording : Wording} {options : Options} (hl : 63 ≤ options.limit)

include hl

theorem not_tellsOfNesting_answer_clause (source : String) :
    ¬ TellsOfNesting (answer wording (Clause.convertJson options) source) := by
  refine not_tellsOfNesting_answer (fun _ => Clause.raises_convertJson hl) fun source json h => ?_
  rw [Clause.convertJson_eq_steps] at h
  obtain ⟨clause, -, h⟩ := Checked.bind_eq_ok_iff.mp h
  obtain ⟨predicate, -, rfl⟩ := Checked.map_eq_ok_iff.mp h
  cases predicate <;> exact ⟨_, rfl⟩

theorem not_tellsOfNesting_answer_filter (source : String) :
    ¬ TellsOfNesting (answer wording (Filter.convertJson options) source) := by
  refine not_tellsOfNesting_answer (fun _ => Filter.raises_convertJson hl) fun source json h => ?_
  rw [Filter.convertJson_eq_steps] at h
  obtain ⟨filter, -, h⟩ := Checked.bind_eq_ok_iff.mp h
  obtain ⟨query, -, rfl⟩ := Checked.map_eq_ok_iff.mp h
  exact ⟨_, Query.toJsonWith_eq query⟩

theorem not_tellsOfNesting_of_answerLine {line text : String}
    (h : answerLine wording options line = .text text) : ¬ TellsOfNesting text := by
  unfold answerLine at h
  simp only at h
  split_ifs at h <;> cases h
  case pos => exact not_tellsOfNesting_of_head? (by decide)
  case pos => exact not_tellsOfNesting_help
  case pos => exact not_tellsOfNesting_pretty _
  case pos => exact not_tellsOfNesting_answer_clause hl _
  case neg => exact not_tellsOfNesting_answer_filter hl _

theorem not_tellsOfNesting_of_mem_answerLines {lines : List String} {text : String}
    (h : text ∈ (answerLines wording options lines).printed) : ¬ TellsOfNesting text := by
  induction lines with
  | nil => cases h
  | cons typed rest ih =>
    rw [answerLines] at h
    split at h
    next => exact ih h
    next line hr =>
      rcases List.mem_cons.mp h with rfl | h
      · rw [reply] at hr
        split at hr
        next => exact not_tellsOfNesting_of_answerLine hl hr
        next => cases hr
      · exact ih h
    next => cases h
    next => cases h

end Session

theorem not_tellsOfNesting_of_mem_opening {wording : Wording} {config : FileContent}
    {text : String} (h : text ∈ opening wording config) : ¬ TellsOfNesting text := by
  simp only [opening, List.mem_cons, List.not_mem_nil, or_false] at h
  rcases h with rfl | rfl | rfl
  · exact not_tellsOfNesting_of_head? (by decide)
  · rw [configReport]
    split
    next => exact not_tellsOfNesting_of_head? (by decide)
    next error _ =>
      have hd : ("⚠️ 未加载配置文件 (" ++ error.message ++ "), 使用默认配置").toList.head? = some '⚠' := by
        rw [String.append_assoc, String.toList_append]
        rfl
      exact not_tellsOfNesting_of_head? (by rw [hd]; decide)
  · exact not_tellsOfNesting_of_head? (by decide)

theorem not_tellsOfNesting_of_mem_run {wording : Wording} {config : FileContent}
    {options : Options} (hc : GoesBy wording config options) (hl : 63 ≤ options.limit)
    {lines : List String} {text : String} (h : text ∈ (run wording config lines).printed) :
    ¬ TellsOfNesting text := by
  rw [run, printed_foldr_after, hc.loadOptions_eq, List.mem_append] at h
  rcases h with h | h
  · exact not_tellsOfNesting_of_mem_opening h
  · exact not_tellsOfNesting_of_mem_answerLines hl h

end Console

/-- JSON values that are nested as deep as text may be are too deep for limits below 63 and for no
others, whether they are read as filters or as clauses. What has been read is never too deep for the
conversion. A session of the console that goes by such a limit, as it does by default, prints no error
about nesting. -/
theorem text_reaches_limits_below_sixty_three (options : Options) :
    ((∀ json : Json, json.nesting ≤ 127 →
      Raises (fun error => ¬ error.IsDepth) (Filter.ofJson options.limit json)) ↔
        63 ≤ options.limit) ∧
    ((∀ json : Json, json.nesting ≤ 127 →
      Raises (fun error => ¬ error.IsDepth) (Clause.ofJson options.limit json)) ↔
        63 ≤ options.limit) ∧
    (63 ≤ options.limit → ∀ json : Json, json.nesting ≤ 127 →
      (∀ filter, Filter.ofJson options.limit json = .ok filter →
        Raises (fun error => ¬ error.IsDepth) (filter.convert options).1) ∧
      (∀ clause, Clause.ofJson options.limit json = .ok clause →
        Raises (fun error => ¬ error.IsDepth) (clause.convert options).1) ∧
      Raises (fun error => ¬ error.IsDepth) (Filter.convertJson options json) ∧
      Raises (fun error => ¬ error.IsDepth) (Clause.convertJson options json)) ∧
    (63 ≤ options.limit → ∀ wording config, Console.GoesBy wording config options → ∀ lines,
      ∀ text ∈ (Console.run wording config lines).printed, ¬ Console.TellsOfNesting text) := by
  refine ⟨Filter.forall_text_not_isDepth_iff, Clause.forall_text_not_isDepth_iff, ?_, ?_⟩
  · intro hl json hj
    refine ⟨fun filter hf => ?_, fun clause hc => ?_, ?_, ?_⟩
    · exact Filter.raises_convert (Filter.depth_le_of_ofJson hf)
    · exact Clause.raises_convert (Clause.depth_le_of_ofJson hc)
    · exact Filter.raises_convertJson hl hj
    · exact Clause.raises_convertJson hl hj
  · intro hl wording config hc lines text ht
    exact Console.not_tellsOfNesting_of_mem_run hc hl ht

/-- Without a configuration no line brings up an error about nesting; under the limit 62 one could. -/
theorem default_limit_is_out_of_reach :
    63 ≤ ({} : Options).limit ∧ (∀ wording, Console.GoesBy wording .missing {}) ∧
      (∀ wording lines, ∀ text ∈ (Console.run wording .missing lines).printed,
        ¬ Console.TellsOfNesting text) ∧
      ∃ json : Json, json.nesting ≤ 127 ∧
        ∃ error, Clause.ofJson 62 json = .error error ∧ error.IsDepth := by
  have hl : 63 ≤ ({} : Options).limit := by decide
  have hc (wording : Wording) : Console.GoesBy wording .missing {} := .defaults rfl
  obtain ⟨-, -, -, silent⟩ := text_reaches_limits_below_sixty_three {}
  obtain ⟨-, reached, -, -⟩ := text_reaches_limits_below_sixty_three { maxDepth := 62 }
  have hn := reached.not.mpr (by decide)
  simp only [Raises, not_forall, not_not] at hn
  obtain ⟨json, hj, error, he, hd⟩ := hn
  exact ⟨hl, hc, fun wording => silent hl wording .missing (hc wording), json, hj, error, he, hd⟩

end QueryDialect
