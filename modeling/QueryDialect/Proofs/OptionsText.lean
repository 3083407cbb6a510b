import QueryDialect.Console
import QueryDialect.Proofs.SpelledValues
import QueryDialect.Proofs.WordLiterals

namespace QueryDialect

open Json (Written Piece Token)
open Json.Number (Literal)

/-- The error of a text that was found in the file. What was said of the text stays. -/
def OptionsError.inFile (path : String) : OptionsError → OptionsError
  | .invalid _ source => .invalid path source
  | error => error

namespace Options

section Members

variable {α : Type} {members : List (String × Written)} {key : String}

/-- The key is given more than once. -/
def Repeated (members : List (String × Written)) (key : String) : Prop :=
  1 < (members.map Prod.fst).count key

/-- The key is given a value that it does not take. -/
def Misused (members : List (String × Written)) (key : String) (Takes : Written → α → Prop) : Prop :=
  ∃ value, (key, value) ∈ members ∧ ∀ meaning, ¬ Takes value meaning

/-- What the members say for the key: what it is given, or the default where it is missing. -/
def Stated (members : List (String × Written)) (key : String) (Takes : Written → α → Prop)
    (missing meaning : α) : Prop :=
  (∃ value, (key, value) ∈ members ∧ Takes value meaning) ∨
    (∀ member ∈ members, member.1 ≠ key) ∧ meaning = missing

theorem repeated_iff : Repeated members key ↔ 1 < (members.filter (·.1 = key)).length := by
  rw [Repeated, List.count, List.countP_map, List.countP_eq_length_filter]
  exact Iff.rfl

variable {read : Written → Option α} {Takes : Written → α → Prop} {missing meaning : α}

/-- A key is repeated, is missing or has a single value. -/
theorem unique?_cases (members : List (String × Written)) (key : String) (read : Written → Option α)
    (missing : α) :
    Repeated members key ∧ unique? members key read missing = none ∨
    ¬ Repeated members key ∧ (∀ member ∈ members, member.1 ≠ key) ∧
      unique? members key read missing = some missing ∨
    ¬ Repeated members key ∧ ∃ value, (∀ other, (key, other) ∈ members ↔ other = value) ∧
      unique? members key read missing = read value := by
  have hm (value : Written) : (key, value) ∈ members ↔ (key, value) ∈ members.filter (·.1 = key) := by
    simp
  simp only [repeated_iff, unique?, hm]
  split
  next hf =>
    refine .inr (.inl ⟨by simp [hf], fun member h => ?_, rfl⟩)
    simpa using List.filter_eq_nil_iff.mp hf member h
  next member hf =>
    obtain ⟨name, value⟩ := member
    have hk : (name, value) ∈ members.filter (·.1 = key) := hf ▸ List.mem_singleton_self _
    obtain rfl : name = key := by simpa using (List.mem_filter.mp hk).2
    exact .inr (.inr ⟨by simp [hf], value, by simp [hf], rfl⟩)
  next hn hs =>
    refine .inl ⟨?_, rfl⟩
    match hf : members.filter (·.1 = key) with
    | [] => exact absurd hf hn
    | [member] => exact absurd hf (hs member)
    | _ :: _ :: rest => simp [hf]

theorem unique?_eq_none_iff (hr : ∀ value meaning, read value = some meaning ↔ Takes value meaning) :
    unique? members key read missing = none ↔ Repeated members key ∨ Misused members key Takes := by
  rcases unique?_cases members key read missing with ⟨hd, hu⟩ | ⟨hd, hn, hu⟩ | ⟨hd, value, hv, hu⟩
  · exact iff_of_true hu (.inl hd)
  · refine iff_of_false (by simp [hu]) (not_or.mpr ⟨hd, ?_⟩)
    rintro ⟨value, hm, -⟩
    exact hn _ hm rfl
  · rw [hu, or_iff_right hd, Option.eq_none_iff_forall_ne_some]
    simp only [Misused, hv, exists_eq_left, ne_eq, hr]

theorem unique?_eq_some_iff (hr : ∀ value meaning, read value = some meaning ↔ Takes value meaning) :
    unique? members key read missing = some meaning ↔
      ¬ Repeated members key ∧ Stated members key Takes missing meaning := by
  rcases unique?_cases members key read missing with ⟨hd, hu⟩ | ⟨hd, hn, hu⟩ | ⟨hd, value, hv, hu⟩
  · exact iff_of_false (by simp [hu]) fun h => h.1 hd
  · rw [hu, and_iff_right hd, Option.some.injEq]
    constructor
    · exact fun h => .inr ⟨hn, h.symm⟩
    · rintro (⟨value, hm, -⟩ | ⟨-, h⟩)
      · exact absurd rfl (hn _ hm)
      · exact h.symm
  · rw [hu, and_iff_right hd, hr]
    constructor
    · exact fun h => .inl ⟨value, (hv value).mpr rfl, h⟩
    · rintro (⟨other, hm, h⟩ | ⟨hn, -⟩)
      · exact (hv other).mp hm ▸ h
      · exact absurd rfl (hn _ ((hv value).mpr rfl))

end Members

section Known

/-- The value is this boolean. -/
def GivesFlag (value : Written) (flag : Bool) : Prop :=
  value = .bool flag

/-- The value is a literal of this word. -/
def GivesDepth (value : Written) (depth : UInt64) : Prop :=
  ∃ literal, value = .number literal ∧ literal.IsWord depth

theorem exclusive?_eq_some_iff (value : Written) (flag : Bool) :
    exclusive? value = some flag ↔ GivesFlag value flag := by
  cases value <;> simp [exclusive?, GivesFlag]

theorem maxDepth?_eq_some_iff (value : Written) (depth : UInt64) :
    maxDepth? value = some depth ↔ GivesDepth value depth := by
  cases value with
  | number literal =>
    simp only [maxDepth?, GivesDepth, Option.bind_eq_some_iff, Json.Number.toUInt64?_eq_some_iff,
      exists_eq_right, Json.Number.ofLiteral?_eq_ofUInt64_iff, Written.number.injEq, exists_eq_left']
  | _ => simp [maxDepth?, GivesDepth]

variable {members : List (String × Written)} {options : Options}

/-- A known key is repeated, or its value is of the wrong kind. -/
def Faulty (members : List (String × Written)) : Prop :=
  Repeated members "assume_exclusive_ownership" ∨
    Misused members "assume_exclusive_ownership" GivesFlag ∨
    Repeated members "max_depth" ∨ Misused members "max_depth" GivesDepth

/-- The options are what the members say for the known keys. -/
structure StatedBy (members : List (String × Written)) (options : Options) : Prop where
  exclusive : Stated members "assume_exclusive_ownership" GivesFlag false options.exclusive
  maxDepth : Stated members "max_depth" GivesDepth 64 options.maxDepth

theorem ofMembers?_eq_none_iff : ofMembers? members = none ↔ Faulty members := by
  rw [Faulty, ← or_assoc, ← unique?_eq_none_iff exclusive?_eq_some_iff,
    ← unique?_eq_none_iff maxDepth?_eq_some_iff, ofMembers?]
  cases unique? members "assume_exclusive_ownership" exclusive? ({} : Options).exclusive <;>
    cases unique? members "max_depth" maxDepth? ({} : Options).maxDepth <;> simp

theorem ofMembers?_eq_some_iff :
    ofMembers? members = some options ↔ ¬ Faulty members ∧ StatedBy members options := by
  constructor
  · intro h
    refine ⟨fun hf => by simp [ofMembers?_eq_none_iff.mpr hf] at h, ?_⟩
    obtain ⟨exclusive, he, h⟩ := Option.bind_eq_some_iff.mp h
    obtain ⟨maxDepth, hd, h⟩ := Option.bind_eq_some_iff.mp h
    obtain rfl := Option.some.inj h
    exact ⟨((unique?_eq_some_iff exclusive?_eq_some_iff).mp he).2,
      ((unique?_eq_some_iff maxDepth?_eq_some_iff).mp hd).2⟩
  · rintro ⟨hf, he, hd⟩
    simp only [Faulty, not_or] at hf
    have he := (unique?_eq_some_iff exclusive?_eq_some_iff).mpr ⟨hf.1, he⟩
    have hd := (unique?_eq_some_iff maxDepth?_eq_some_iff).mpr ⟨hf.2.2.1, hd⟩
    exact Option.bind_eq_some_iff.mpr ⟨_, he, Option.bind_eq_some_iff.mpr ⟨_, hd, rfl⟩⟩

end Known

section Text

/-- The members of an object, with the names that their keys stand for. -/
def Named (members : List (List Piece × Written)) (named : List (String × Written)) : Prop :=
  List.Forall₂ (fun member name => Piece.Means member.1 name.1.toList ∧ name.2 = member.2)
    members named

variable {wording : Wording} {members : List (List Piece × Written)} {named : List (String × Written)}

theorem mapM_decode?_eq_some_iff :
    (members.mapM fun member => do return (← Piece.decode? member.1, member.2)) = some named ↔
      Named members named := by
  induction members generalizing named with
  | nil => cases named <;> simp [Named]
  | cons member rest ih =>
    rw [List.mapM_cons, Named, List.forall₂_cons_left_iff]
    simp only [Option.bind_eq_bind, Option.bind_eq_some_iff, Piece.decode?_eq_some_iff]
    constructor
    · rintro ⟨_, ⟨name, hn, ⟨⟩⟩, others, ho, ⟨⟩⟩
      exact ⟨_, others, ⟨hn, rfl⟩, ih.mp ho, rfl⟩
    · rintro ⟨⟨name, value⟩, others, ⟨hn, rfl⟩, ho, rfl⟩
      exact ⟨_, ⟨name, hn, rfl⟩, others, ih.mpr ho, rfl⟩

theorem ofWritten?_object_of_named (h : Named members named) :
    ofWritten? (.object members) = ofMembers? named := by
  rw [ofWritten?, mapM_decode?_eq_some_iff.mpr h]
  rfl

theorem ofWritten?_object_of_not_named (h : ∀ named, ¬ Named members named) :
    ofWritten? (.object members) = none := by
  rw [ofWritten?, Option.bind_eq_bind, Option.bind_eq_none_iff]
  exact fun named hn => absurd (mapM_decode?_eq_some_iff.mp hn) (h named)

/-- The depth is given, and it is zero. -/
def GivenZero (members : List (String × Written)) : Prop :=
  ∃ value, ("max_depth", value) ∈ members ∧ GivesDepth value 0

theorem maxDepth_eq_zero_iff {options : Options} (h : ofMembers? named = some options) :
    options.maxDepth = 0 ↔ GivenZero named := by
  obtain ⟨hf, hs⟩ := ofMembers?_eq_some_iff.mp h
  constructor
  · intro hz
    rcases hz ▸ hs.maxDepth with hg | ⟨-, hd⟩
    · exact hg
    · cases hd
  · intro hg
    have hz : StatedBy named { options with maxDepth := 0 } := ⟨hs.exclusive, .inl hg⟩
    have he := h.symm.trans (ofMembers?_eq_some_iff.mpr ⟨hf, hz⟩)
    exact congrArg Options.maxDepth (Option.some.inj he)

theorem bind_ofWritten?_spelled {written : Written} {text : String} (h : written.SpelledBy text) :
    (Written.ofText? text).bind ofWritten? = ofWritten? written := by
  rw [Written.ofText?_spelled h, Option.bind_some]

/-- What the text of an object comes to, fault by fault. -/
theorem ofNamedText_object {text : String} (h : (Written.object members).SpelledBy text)
    (hn : Named members named) (path : String) :
    (Faulty named →
      ofNamedText wording path text = .error (.invalid path (wording.notOptions text))) ∧
    (¬ Faulty named → GivenZero named → ofNamedText wording path text = .error .zeroDepth) ∧
    (¬ Faulty named → ¬ GivenZero named →
      ∃ options, StatedBy named options ∧ ofNamedText wording path text = .ok options) := by
  rw [ofNamedText, bind_ofWritten?_spelled h, ofWritten?_object_of_named hn]
  cases ho : ofMembers? named with
  | none =>
    have hf := ofMembers?_eq_none_iff.mp ho
    exact ⟨fun _ => rfl, fun hn => absurd hf hn, fun hn => absurd hf hn⟩
  | some options =>
    obtain ⟨hf, hs⟩ := ofMembers?_eq_some_iff.mp ho
    have hz := maxDepth_eq_zero_iff ho
    exact ⟨fun h => absurd h hf, fun _ hg => if_pos (hz.mpr hg),
      fun _ hg => ⟨options, hs, if_neg fun h => hg (hz.mp h)⟩⟩

theorem ofNamedText_unnamed {text : String} (h : (Written.object members).SpelledBy text)
    (hn : ∀ named, ¬ Named members named) (path : String) :
    ofNamedText wording path text = .error (.invalid path (wording.notOptions text)) := by
  rw [ofNamedText, bind_ofWritten?_spelled h, ofWritten?_object_of_not_named hn]

theorem maxDepth_ne_zero_of_ofNamedText {path text : String} {options : Options}
    (h : ofNamedText wording path text = .ok options) : options.maxDepth ≠ 0 := by
  unfold ofNamedText at h
  split at h
  next => cases h
  next =>
    split at h <;> cases h
    assumption

end Text

section Printing

/-- The text of a boolean is its only spelling. -/
theorem exists_write_bool (spacing : Json.Spacing) (value : Bool) :
    ∃ chars, Token.Spelled (.bool value) chars ∧ ∀ depth done,
      (Json.write spacing depth done (.bool value)).toList = done.toList ++ chars := by
  cases value with
  | false => exact ⟨_, .false, fun _ _ => String.toList_append⟩
  | true => exact ⟨_, .true, fun _ _ => String.toList_append⟩

/-- The text that is printed for options is that of an object with the two known members. -/
theorem exists_spelledBy_pretty (options : Options) :
    ∃ flag depth literal, literal.IsWord options.maxDepth ∧
      Piece.Means flag "assume_exclusive_ownership".toList ∧ Piece.Means depth "max_depth".toList ∧
      (Written.object [(flag, .bool options.exclusive), (depth, .number literal)]).SpelledBy
        options.toJson.pretty := by
  obtain ⟨flag, hf, hq⟩ := Json.exists_spelled_quote "assume_exclusive_ownership"
  obtain ⟨depth, hd, hr⟩ := Json.exists_spelled_quote "max_depth"
  obtain ⟨literal, hl, hs⟩ := Json.Number.spelled_text options.maxDepth
  obtain ⟨chars, hb, hw⟩ := exists_write_bool .pretty options.exclusive
  refine ⟨flag, depth, literal, hl, hf, hd, ?_⟩
  have inner : (Json.Spacing.pretty.lineBreak 1).toList = ['\n', ' ', ' '] := by decide
  have outer : (Json.Spacing.pretty.lineBreak 0).toList = ['\n'] := by decide
  have printed : options.toJson.pretty.toList =
      [] ++ (['\x7b'] ++ (['\n', ' ', ' '] ++ ((Json.quote "assume_exclusive_ownership").toList ++
        ([] ++ ([':'] ++ ([' '] ++ (chars ++ ([] ++ ([','] ++ (['\n', ' ', ' '] ++
          ((Json.quote "max_depth").toList ++ ([] ++ ([':'] ++ ([' '] ++
            ((Json.Number.ofUInt64 options.maxDepth).text.toList ++
              (['\n'] ++ (['\x7d'] ++ []))))))))))))))))) := by
    simp only [Json.pretty, toJson, Json.ofUInt64, Json.write, Json.writeMembers,
      String.toList_append, inner, outer, hw, List.append_assoc]
    rfl
  have none := Token.blank_nil
  have indent : Token.Blank ['\n', ' ', ' '] := by simp [Token.Blank]
  have space : Token.Blank [' '] := by simp [Token.Blank]
  have lineEnd : Token.Blank ['\n'] := by simp [Token.Blank]
  rw [Written.SpelledBy, printed]
  exact .cons none .openObject (.cons indent hq (.cons none .colon (.cons space hb
    (.cons none .comma (.cons indent hr (.cons none .colon (.cons space (.number hs)
      (.cons lineEnd .closeObject (.nil none)))))))))

theorem ofText_pretty {wording : Wording} {options : Options} (h : options.maxDepth ≠ 0) :
    ofText wording options.toJson.pretty = .ok options := by
  obtain ⟨flag, depth, literal, hl, hf, hd, hs⟩ := exists_spelledBy_pretty options
  have hn : Named [(flag, .bool options.exclusive), (depth, .number literal)]
      [("assume_exclusive_ownership", .bool options.exclusive), ("max_depth", .number literal)] :=
    .cons ⟨hf, rfl⟩ (.cons ⟨hd, rfl⟩ .nil)
  have hm := (maxDepth?_eq_some_iff (.number literal) options.maxDepth).mpr ⟨literal, rfl, hl⟩
  have ho : ofMembers? [("assume_exclusive_ownership", .bool options.exclusive),
      ("max_depth", .number literal)] = some options := by
    simp [ofMembers?, unique?, exclusive?, hm]
  rw [ofText, ofNamedText, bind_ofWritten?_spelled hs, ofWritten?_object_of_named hn, ho]
  exact if_neg h

end Printing

section Files

theorem fromUTF8?_toUTF8 (text : String) : String.fromUTF8? text.toUTF8 = some text :=
  dif_pos text.isValidUTF8

theorem ofFile_toUTF8 (wording : Wording) (path text : String) :
    ofFile wording path (.bytes text.toUTF8) =
      (ofText wording text).mapError (OptionsError.inFile path) := by
  rw [ofFile, fromUTF8?_toUTF8]
  simp only [ofText, ofNamedText]
  cases (Written.ofText? text).bind ofWritten? with
  | none => rfl
  | some options =>
    simp only
    split <;> rfl

end Files

theorem reply_options (wording : Wording) (options : Options) :
    Console.reply wording options ".options" = .text options.toJson.pretty := by
  have kept : Text.applyBackspaces? ".options" = some ".options" :=
    Text.applyBackspaces?_of_not_mem (by decide)
  have trimmed : Text.trim ".options" = ".options" := by decide +kernel
  rw [Console.reply, kept]
  simp [Console.answerLine, trimmed]

/-- Options are what the known members of an object's text say, wherever these stand, however their
keys are escaped and whatever the other members hold. A known member that is repeated or of the wrong
kind is reported first, a depth of zero next, and what is missing takes its default. A key with half
of a surrogate pair names nothing, and a text with such a key is refused as no JSON. No depth that is
read is zero, what the console prints for options is read back, and a file is read like its text but
for the path that an error names. -/
theorem options_are_read_by_known_members (wording : Wording) :
    (∀ text members, (Written.object members).SpelledBy text →
      (∀ named, Named members named →
        (Faulty named →
          ofText wording text = .error (.invalid "<inline>" (wording.notOptions text))) ∧
        (¬ Faulty named → GivenZero named → ofText wording text = .error .zeroDepth) ∧
        (¬ Faulty named → ¬ GivenZero named →
          ∃ options, StatedBy named options ∧ ofText wording text = .ok options)) ∧
      ((∀ named, ¬ Named members named) →
        ofText wording text = .error (.invalid "<inline>" (wording.notOptions text)))) ∧
    (∀ text options, ofText wording text = .ok options → options.maxDepth ≠ 0) ∧
    (∀ options : Options, options.maxDepth ≠ 0 → ∃ printed,
      Console.reply wording options ".options" = .text printed ∧
        ofText wording printed = .ok options) ∧
    ∀ path text : String, ofFile wording path (.bytes text.toUTF8) =
      (ofText wording text).mapError (·.inFile path) := by
  refine ⟨fun text members hs => ⟨fun named hn => ?_, fun hn => ?_⟩, fun text options h => ?_,
    fun options h => ?_, ofFile_toUTF8 wording⟩
  · exact ofNamedText_object hs hn "<inline>"
  · exact ofNamedText_unnamed hs hn "<inline>"
  · exact maxDepth_ne_zero_of_ofNamedText h
  · exact ⟨_, reply_options wording options, ofText_pretty h⟩

theorem spelledBy_escaped :
    (Written.object [([.char 'x'], .object []),
      ([.char 'm', .char 'a', .char 'x', .unit 0x5f, .char 'd', .char 'e', .char 'p', .char 't',
        .char 'h'], .number ⟨false, [8], [], none⟩)]).SpelledBy
      "\x7b\"x\":\x7b\x7d,\"max\\u005fdepth\": 8\x7d" := by
  have text : ("\x7b\"x\":\x7b\x7d,\"max\\u005fdepth\": 8\x7d" : String).toList =
      [] ++ (['\x7b'] ++ ([] ++ ('"' :: ([['x']].flatten ++ ['"']) ++ ([] ++ ([':'] ++
        ([] ++ (['\x7b'] ++ ([] ++ (['\x7d'] ++ ([] ++ ([','] ++ ([] ++
          ('"' :: ([['m'], ['a'], ['x'], ['\\', 'u', '0', '0', '5', 'f'], ['d'], ['e'], ['p'], ['t'],
            ['h']].flatten ++ ['"']) ++ ([] ++ ([':'] ++ ([' '] ++ (['8'] ++ [] ++ [] ++
              ([] ++ (['\x7d'] ++ []))))))))))))))))))) :=
    rfl
  have plain {c : Char} (h : ' ' ≤ c ∧ c ≠ '"' ∧ c ≠ '\\') : Piece.Spelled (.char c) [c] :=
    .plain h.1 h.2.1 h.2.2
  have underscore : Piece.Spelled (.unit 0x5f) ['\\', 'u', '0', '0', '5', 'f'] :=
    have digit {value : Nat} (h : value < 16) := Json.isHexDigit_digitChar h
    .unit (digit (show 0 < 16 by decide)) (digit (show 0 < 16 by decide))
      (digit (show 5 < 16 by decide)) (digit (show 15 < 16 by decide))
  have unknown : Token.Spelled (.string [.char 'x']) ('"' :: ([['x']].flatten ++ ['"'])) :=
    .string (.cons (plain (by decide)) .nil)
  have number : Literal.Spelled ⟨false, [8], [], none⟩ (['8'] ++ [] ++ []) :=
    .unsigned rfl ⟨.inr ⟨⟨nofun, List.forall_mem_singleton.mpr rfl, rfl⟩, by decide⟩, .missing,
      .missing⟩
  have known : Token.Spelled (.string [.char 'm', .char 'a', .char 'x', .unit 0x5f, .char 'd',
      .char 'e', .char 'p', .char 't', .char 'h'])
      ('"' :: ([['m'], ['a'], ['x'], ['\\', 'u', '0', '0', '5', 'f'], ['d'], ['e'], ['p'], ['t'],
        ['h']].flatten ++ ['"'])) :=
    .string (.cons (plain (by decide)) (.cons (plain (by decide)) (.cons (plain (by decide))
      (.cons underscore (.cons (plain (by decide)) (.cons (plain (by decide))
        (.cons (plain (by decide)) (.cons (plain (by decide)) (.cons (plain (by decide)) .nil)))))))))
  have none := Token.blank_nil
  have space : Token.Blank [' '] := by simp [Token.Blank]
  rw [Written.SpelledBy, text]
  exact .cons none .openObject (.cons none unknown (.cons none .colon (.cons none .openObject
    (.cons none .closeObject (.cons none .comma (.cons none known (.cons none .colon
      (.cons space (.number number) (.cons none .closeObject (.nil none))))))))))

/-- An escaped key is known, an unknown one does no harm, and what the console prints for the options
that were read is read as well. -/
theorem escaped_key_is_known :
    ∃ members named,
      (Written.object members).SpelledBy "\x7b\"x\":\x7b\x7d,\"max\\u005fdepth\": 8\x7d" ∧
      Named members named ∧ ¬ Faulty named ∧ ¬ GivenZero named ∧
      ∀ wording,
        ofText wording "\x7b\"x\":\x7b\x7d,\"max\\u005fdepth\": 8\x7d" = .ok { maxDepth := 8 } ∧
        ∃ printed, Console.reply wording { maxDepth := 8 } ".options" = .text printed ∧
          ofText wording printed = .ok { maxDepth := 8 } := by
  have named : Named [([.char 'x'], .object []), ([.char 'm', .char 'a', .char 'x', .unit 0x5f,
      .char 'd', .char 'e', .char 'p', .char 't', .char 'h'], .number ⟨false, [8], [], none⟩)]
      [("x", .object []), ("max_depth", .number ⟨false, [8], [], none⟩)] :=
    .cons ⟨Piece.decode?_eq_some_iff.mp (by decide), rfl⟩
      (.cons ⟨Piece.decode?_eq_some_iff.mp (by decide), rfl⟩ .nil)
  have members : ofMembers? [("x", .object []), ("max_depth", .number ⟨false, [8], [], none⟩)] =
      some { maxDepth := 8 } := by
    have hm := (maxDepth?_eq_some_iff (.number ⟨false, [8], [], none⟩) 8).mpr
      ⟨_, rfl, rfl, rfl, rfl, rfl⟩
    simp [ofMembers?, unique?, hm]
  obtain ⟨sound, stated⟩ := ofMembers?_eq_some_iff.mp members
  have positive := (maxDepth_eq_zero_iff members).not.mp (by decide)
  refine ⟨_, _, spelledBy_escaped, named, sound, positive, fun wording => ?_⟩
  obtain ⟨texts, depths, prints, -⟩ := options_are_read_by_known_members wording
  obtain ⟨options, ho, read⟩ := ((texts _ _ spelledBy_escaped).1 _ named).2.2 sound positive
  have found := members.symm.trans (ofMembers?_eq_some_iff.mpr ⟨sound, ho⟩)
  obtain rfl := Option.some.inj found
  exact ⟨read, prints _ (depths _ _ read)⟩

end Options

end QueryDialect
