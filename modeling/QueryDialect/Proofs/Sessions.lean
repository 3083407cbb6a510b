import Mathlib.Data.List.TakeWhile
import Mathlib.Tactic.SplitIfs
import QueryDialect.Console

namespace QueryDialect

namespace Json

theorem Token.next?_dot (rest : List Char) : next? '.' rest = none :=
  rfl

/-- JSON text is not empty and starts with no dot. -/
theorem exists_first_of_ofText? {text : String} {json : Json} (h : ofText? text = some json) :
    ∃ first rest, text.toList = first :: rest ∧ first ≠ '.' := by
  obtain ⟨written, hw, -⟩ := Option.bind_eq_some_iff.mp h
  obtain ⟨tokens, ht, hw⟩ := Option.bind_eq_some_iff.mp hw
  unfold Token.ofText? at ht
  cases hc : text.toList with
  | nil =>
    rw [hc, Token.readAll?] at ht
    cases ht
    cases hw
  | cons first rest =>
    refine ⟨first, rest, rfl, ?_⟩
    rintro rfl
    rw [hc, Token.readAll?] at ht
    split at ht
    next hs => simp [Token.isSpace] at hs
    next hs =>
      cases hs
      split at ht
      next hn => rw [Token.next?_dot] at hn; cases hn
      next => cases ht

end Json

namespace Console

/-- The line asks to leave once backspaces are applied to it. -/
def Leaves (typed : String) : Prop :=
  ∃ line, Text.applyBackspaces? typed = some line ∧
    (Text.trim line = ".exit" ∨ Text.trim line = ".quit")

instance : DecidablePred Leaves := fun typed =>
  inferInstanceAs (Decidable (∃ line ∈ Text.applyBackspaces? typed,
    (Text.trim line = ".exit" ∨ Text.trim line = ".quit")))

theorem leaves_iff {typed line : String} (h : Text.applyBackspaces? typed = some line) :
    Leaves typed ↔ Text.trim line = ".exit" ∨ Text.trim line = ".quit" := by
  simp only [Leaves, h, Option.some.injEq, exists_eq_left']

/-- The text for a conversion: the JSON that came out, or the kind and the message of the error. -/
def shown : Checked Json → String
  | .ok converted => converted.pretty
  | .error error => "✗ [" ++ error.kind ++ "] " ++ error.message

section Answers

variable {wording : Wording} {convert : Json → Checked Json} {source : String}

theorem answer_of_json {json : Json} (h : Json.ofText? source = some json) :
    answer wording convert source = shown (convert json) := by
  rw [answer, h]
  cases hc : convert json <;> simp only [hc, shown]

theorem answer_of_malformed (h : Json.ofText? source = none) :
    answer wording convert source = "✗ 输入不是合法的JSON: " ++ wording.notJson source := by
  rw [answer, h]

end Answers

/-- The session goes on after the reply. -/
def Reply.goesOn : Reply → Bool
  | .silence | .text _ => true
  | .leave | .abort => false

/-- What the reply prints. -/
def Reply.texts : Reply → List String
  | .text line => [line]
  | .silence | .leave | .abort => []

section Trimmed

variable {wording : Wording} {options : Options} {line : String}

theorem answerLine_cases (wording : Wording) (options : Options) (line : String) :
    (line = "" ∧ answerLine wording options line = .silence) ∨
      ((line = ".exit" ∨ line = ".quit") ∧ answerLine wording options line = .leave) ∨
        line ≠ "" ∧ ¬ (line = ".exit" ∨ line = ".quit") ∧
          ∃ text, answerLine wording options line = .text text := by
  by_cases hn : line = ""
  · exact .inl ⟨hn, by simp only [answerLine, if_pos hn]⟩
  by_cases hl : line = ".exit" ∨ line = ".quit"
  · exact .inr (.inl ⟨hl, by simp only [answerLine, if_neg hn, if_pos hl]⟩)
  refine .inr (.inr ⟨hn, hl, ?_⟩)
  simp only [answerLine, if_neg hn, if_neg hl]
  split_ifs <;> exact ⟨_, rfl⟩

theorem exists_text_of_answerLine (wording : Wording) (options : Options) (hn : line ≠ "")
    (hl : ¬ (line = ".exit" ∨ line = ".quit")) :
    ∃ text, answerLine wording options line = .text text := by
  rcases answerLine_cases wording options line with ⟨he, -⟩ | ⟨hq, -⟩ | ⟨-, -, h⟩
  · exact absurd he hn
  · exact absurd hq hl
  · exact h

/-- The lines that are commands without an argument. -/
def commands : List String :=
  [".exit", ".quit", ".where", ".help", ".options"]

theorem answerLine_of_notMem (hn : line ≠ "") (hc : line ∉ commands) :
    answerLine wording options line = .text (
      if (Text.cut Text.isBlank line).1 = ".where" then
        answer wording (Clause.convertJson options) (Text.trim (Text.cut Text.isBlank line).2)
      else answer wording (Filter.convertJson options) line) := by
  simp only [commands, List.mem_cons, List.not_mem_nil, not_or] at hc
  obtain ⟨exit, quit, bare, help, shows, -⟩ := hc
  simp only [answerLine, if_neg hn, if_neg (not_or.mpr ⟨exit, quit⟩), if_neg bare, if_neg help,
    if_neg shows]
  split <;> rfl

/-- The line is the clause command followed by an argument. -/
def AsksForClause (line argument : String) : Prop :=
  ∃ blank, Text.isBlank blank = true ∧ line = ".where" ++ String.singleton blank ++ argument

theorem AsksForClause.answerLine_eq {argument : String} (h : AsksForClause line argument) :
    answerLine wording options line =
      .text (answer wording (Clause.convertJson options) (Text.trim argument)) := by
  obtain ⟨blank, hb, hl⟩ := h
  have hm : blank ∈ line.toList := by simp [hl]
  have hn : line ≠ "" := by
    rintro rfl
    cases hm
  have unbroken : ∀ word ∈ commands, word.toList.any Text.isBlank = false := by decide
  have hc : line ∉ commands := by
    intro hw
    exact List.any_eq_false.mp (unbroken line hw) blank hm hb
  have divided : Text.cut Text.isBlank line = (".where", argument) := by
    rw [hl]
    exact Text.cut_append (by simpa using unbroken ".where" (by decide)) hb
  rw [answerLine_of_notMem hn hc, divided, if_pos rfl]

/-- The line is neither empty nor a command. -/
structure IsFilter (line : String) : Prop where
  ne_empty : line ≠ ""
  not_command : line ∉ commands
  not_clause : ∀ argument, ¬ AsksForClause line argument

theorem IsFilter.answerLine_eq (h : IsFilter line) :
    answerLine wording options line = .text (answer wording (Filter.convertJson options) line) := by
  have undivided : (Text.cut Text.isBlank line).1 ≠ ".where" := by
    intro hw
    rcases Text.cut_fst_eq_or Text.isBlank line with he | ⟨blank, argument, hb, he⟩
    · rw [hw] at he
      exact h.not_command (he ▸ by decide)
    · rw [hw] at he
      exact h.not_clause argument ⟨blank, hb, he⟩
  rw [answerLine_of_notMem h.ne_empty h.not_command, if_neg undivided]

/-- JSON is not taken for a command. -/
theorem isFilter_of_json {json : Json} (h : Json.ofText? line = some json) : IsFilter line := by
  obtain ⟨first, rest, hl, hd⟩ := Json.exists_first_of_ofText? h
  have undotted : line.toList.head? ≠ some '.' := by
    rw [hl]
    exact fun he => hd (Option.some.inj he)
  have dotted : ∀ word ∈ commands, word.toList.head? = some '.' := by decide
  refine ⟨?_, fun hc => undotted (dotted line hc), fun argument hw => ?_⟩
  · rintro rfl
    cases hl
  · obtain ⟨blank, -, rfl⟩ := hw
    exact undotted (by rw [String.append_assoc, String.toList_append]; rfl)

end Trimmed

section Lines

variable {wording : Wording} {options : Options} {typed : String} {before rest : List String}

theorem answerLines_cons (h : (reply wording options typed).goesOn) :
    answerLines wording options (typed :: rest) =
      (reply wording options typed).texts.foldr Outcome.after (answerLines wording options rest) := by
  rw [answerLines]
  cases hr : reply wording options typed with
  | silence => rfl
  | text text => rfl
  | leave | abort =>
    rw [hr] at h
    cases h

theorem answerLines_append (h : ∀ earlier ∈ before, (reply wording options earlier).goesOn) :
    answerLines wording options (before ++ rest) =
      (before.flatMap fun typed => (reply wording options typed).texts).foldr Outcome.after
        (answerLines wording options rest) := by
  induction before with
  | nil => rfl
  | cons typed before ih =>
    obtain ⟨hg, hb⟩ := List.forall_mem_cons.mp h
    rw [List.cons_append, answerLines_cons hg, ih hb, List.flatMap_cons, List.foldr_append]

/-- A session breaks off at a line that the editor does not hand over. -/
theorem answerLines_of_broken (h : ∀ earlier ∈ before, (reply wording options earlier).goesOn)
    (hb : Text.applyBackspaces? typed = none) :
    answerLines wording options (before ++ typed :: rest) =
      (before.flatMap fun typed => (reply wording options typed).texts).foldr Outcome.after
        { printed := [], exitCode := abortCode } := by
  rw [answerLines_append h, answerLines, reply, hb]

theorem reply_of_handed {line : String} (h : Text.applyBackspaces? typed = some line) :
    reply wording options typed = answerLine wording options (Text.trim line) := by
  rw [reply, h]

theorem goesOn_reply (h : Text.applyBackspaces? typed ≠ none) (hl : ¬ Leaves typed) :
    (reply wording options typed).goesOn := by
  obtain ⟨line, hs⟩ := Option.ne_none_iff_exists'.mp h
  rw [reply_of_handed hs]
  rcases answerLine_cases wording options (Text.trim line) with ⟨-, he⟩ | ⟨hq, -⟩ | ⟨-, -, text, he⟩
  · rw [he]
    rfl
  · exact absurd ((leaves_iff hs).mpr hq) hl
  · rw [he]
    rfl

theorem answerLines_of_leaves (h : Leaves typed) :
    answerLines wording options (typed :: rest) = { printed := [], exitCode := 0 } := by
  obtain ⟨line, hs, hl⟩ := h
  rw [answerLines, reply_of_handed hs]
  rcases answerLine_cases wording options (Text.trim line) with ⟨hn, -⟩ | ⟨-, he⟩ | ⟨-, hq, -⟩
  · rw [hn] at hl
    exact absurd hl (by decide)
  · rw [he]
  · exact absurd hl hq

end Lines

theorem printed_foldr_after (texts : List String) (outcome : Outcome) :
    (texts.foldr Outcome.after outcome).printed = texts ++ outcome.printed := by
  induction texts with
  | nil => rfl
  | cons text rest ih => rw [List.foldr_cons, List.cons_append, ← ih, Outcome.after]

theorem exitCode_foldr_after (texts : List String) (outcome : Outcome) :
    (texts.foldr Outcome.after outcome).exitCode = outcome.exitCode := by
  induction texts with
  | nil => rfl
  | cons text rest ih => rw [List.foldr_cons, ← ih, Outcome.after]

/-- What a session with this line alone prints after it has been opened. -/
def alone (wording : Wording) (config : FileContent) (typed : String) : List String :=
  (run wording config [typed]).printed.drop (opening wording config).length

theorem alone_eq (wording : Wording) (config : FileContent) (typed : String) :
    alone wording config typed = (reply wording (loadOptions wording config) typed).texts := by
  rw [alone, run, printed_foldr_after, List.drop_left, answerLines]
  cases reply wording (loadOptions wording config) typed <;> rfl

/-- The options that a session goes by: those in the file, or else the defaults. -/
inductive GoesBy (wording : Wording) (config : FileContent) : Options → Prop
  | loaded {options : Options} (h : Options.ofFile wording configFile config = .ok options) :
    GoesBy wording config options
  | defaults {error : OptionsError} (h : Options.ofFile wording configFile config = .error error) :
    GoesBy wording config {}

section Session

variable {wording : Wording} {config : FileContent} {lines : List String}

theorem GoesBy.loadOptions_eq {options : Options} (h : GoesBy wording config options) :
    loadOptions wording config = options := by
  cases h with
  | loaded h => rw [loadOptions, h]
  | defaults h => rw [loadOptions, h]

theorem run_eq
    (handed : ∀ typed ∈ lines.takeWhile fun typed => ¬ Leaves typed,
      Text.applyBackspaces? typed ≠ none) :
    run wording config lines = (opening wording config ++
      (lines.takeWhile fun typed => ¬ Leaves typed).flatMap (alone wording config)).foldr
        Outcome.after { printed := [], exitCode := 0 } := by
  let stays (typed : String) : Bool := ¬ Leaves typed
  have before : ∀ typed ∈ lines.takeWhile stays,
      (reply wording (loadOptions wording config) typed).goesOn := by
    intro typed hm
    have hs : stays typed = true := List.mem_takeWhile_imp hm
    exact goesOn_reply (handed typed hm) (of_decide_eq_true hs)
  have after : answerLines wording (loadOptions wording config) (lines.dropWhile stays) =
      { printed := [], exitCode := 0 } := by
    cases hd : lines.dropWhile stays with
    | nil => rfl
    | cons typed rest =>
      have hf := List.head?_dropWhile_not stays lines
      rw [hd] at hf
      exact answerLines_of_leaves (not_not.mp (of_decide_eq_false hf))
  have replies : alone wording config =
      fun typed => (reply wording (loadOptions wording config) typed).texts :=
    funext (alone_eq wording config)
  calc run wording config lines
      = (opening wording config).foldr Outcome.after (answerLines wording
          (loadOptions wording config) (lines.takeWhile stays ++ lines.dropWhile stays)) := by
        rw [List.takeWhile_append_dropWhile, run]
    _ = _ := by
        rw [answerLines_append before, after, List.foldr_append, replies]

end Session

/-- A session prints what each of its lines is answered alone, up to the first that leaves, and ends
well, provided that the editor hands over the lines before that one. -/
theorem session_answers_each_line_alone (wording : Wording) (config : FileContent)
    {lines : List String}
    (handed : ∀ typed ∈ lines.takeWhile fun typed => ¬ Leaves typed,
      Text.applyBackspaces? typed ≠ none) :
    (run wording config lines).printed = [banner, configReport wording config, hint] ++
        (lines.takeWhile fun typed => ¬ Leaves typed).flatMap (alone wording config) ∧
      (run wording config lines).exitCode = 0 ∧
      ∀ typed line, Text.applyBackspaces? typed = some line →
        (Text.trim line = "" → alone wording config typed = []) ∧
        (Text.trim line ≠ "" → ¬ Leaves typed → ∃ text, alone wording config typed = [text]) ∧
        ∀ options, GoesBy wording config options →
          (∀ argument, AsksForClause (Text.trim line) argument →
            (∀ json, Json.ofText? (Text.trim argument) = some json →
              alone wording config typed = [shown (Clause.convertJson options json)]) ∧
            (Json.ofText? (Text.trim argument) = none → alone wording config typed =
              ["✗ 输入不是合法的JSON: " ++ wording.notJson (Text.trim argument)])) ∧
          (∀ json, Json.ofText? (Text.trim line) = some json →
            alone wording config typed = [shown (Filter.convertJson options json)]) ∧
          (IsFilter (Text.trim line) → Json.ofText? (Text.trim line) = none →
            alone wording config typed =
              ["✗ 输入不是合法的JSON: " ++ wording.notJson (Text.trim line)]) := by
  refine ⟨?_, ?_, fun typed line h => ?_⟩
  · rw [run_eq handed, printed_foldr_after, List.append_nil]
    rfl
  · rw [run_eq handed, exitCode_foldr_after]
  have told : alone wording config typed =
      (answerLine wording (loadOptions wording config) (Text.trim line)).texts := by
    rw [alone_eq, reply_of_handed h]
  refine ⟨fun hn => ?_, fun hn hl => ?_, fun options ho => ⟨fun argument ha => ?_, ?_, ?_⟩⟩
  · rw [told, hn]
    rfl
  · obtain ⟨text, ht⟩ := exists_text_of_answerLine wording (loadOptions wording config) hn
      ((leaves_iff h).not.mp hl)
    exact ⟨text, by rw [told, ht, Reply.texts]⟩
  · rw [told, ha.answerLine_eq, ho.loadOptions_eq, Reply.texts]
    exact ⟨fun json hj => by rw [answer_of_json hj], fun hj => by rw [answer_of_malformed hj]⟩
  · intro json hj
    rw [told, (isFilter_of_json hj).answerLine_eq, ho.loadOptions_eq, Reply.texts, answer_of_json hj]
  · intro hf hj
    rw [told, hf.answerLine_eq, Reply.texts, answer_of_malformed hj]

theorem session_goes_on_after_malformed_line :
    let wording : Wording :=
      { notJson := fun _ => "EOF while parsing a list at line 1 column 1"
        notOptions := fun _ => "EOF while parsing a value at line 1 column 0" }
    let lines := [".help", "[", "  ", ".exit ", ".options"]
    (∀ typed ∈ lines.takeWhile fun typed => ¬ Leaves typed, Text.applyBackspaces? typed ≠ none) ∧
      (run wording .missing lines).exitCode = 0 ∧
      (run wording .missing lines).printed =
        [banner, "⚠️ 未加载配置文件 (配置文件不存在: translator.json), 使用默认配置", hint] ++
          (alone wording .missing ".help" ++
            ["✗ 输入不是合法的JSON: EOF while parsing a list at line 1 column 1"]) := by
  intro wording lines
  have stay : (lines.takeWhile fun typed => ¬ Leaves typed) = [".help", "[", "  "] := by decide
  have kept : ∀ typed ∈ [".help", "[", "  "], Text.applyBackspaces? typed = some typed := by
    intro typed hm
    refine Text.applyBackspaces?_of_not_mem ?_
    revert typed
    decide
  have handed : ∀ typed ∈ lines.takeWhile fun typed => ¬ Leaves typed,
      Text.applyBackspaces? typed ≠ none := by
    intro typed hm
    rw [kept typed (stay ▸ hm)]
    exact Option.some_ne_none typed
  obtain ⟨printed, code, replies⟩ := session_answers_each_line_alone wording .missing handed
  have silence : alone wording .missing "  " = [] :=
    (replies "  " _ (kept _ (by decide))).1 (by decide)
  have filter : IsFilter (Text.trim "[") := by
    refine ⟨by decide, by decide, fun argument hw => ?_⟩
    obtain ⟨blank, -, he⟩ := hw
    have hf : (Text.trim "[").toList.head? = some '[' := by decide
    rw [he, String.append_assoc, String.toList_append] at hf
    cases hf
  have malformed : Json.ofText? (Text.trim "[") = none :=
    Option.isNone_iff_eq_none.mp (by decide +kernel)
  have told := ((replies "[" _ (kept _ (by decide))).2.2 {} (.defaults rfl)).2.2 filter malformed
  refine ⟨handed, code, ?_⟩
  rw [printed, stay, List.flatMap_cons, List.flatMap_cons, List.flatMap_cons, silence, told]
  rfl

end Console
end QueryDialect
