import QueryDialect.Json.Writer
import QueryDialect.Json.Written
import QueryDialect.Proofs.TokenSpelling

namespace QueryDialect.Json

namespace Piece

/-- The text that pieces stand for. Two halves of a surrogate pair are one character, and half of a
pair stands for nothing by itself. -/
inductive Means : List Piece → List Char → Prop
  | nil : Means [] []
  | char {c : Char} {pieces : List Piece} {text : List Char} (h : Means pieces text) :
    Means (.char c :: pieces) (c :: text)
  | unit {code : Nat} {pieces : List Piece} {text : List Char} (hc : code < 0xD800 ∨ 0xDFFF < code)
      (h : Means pieces text) : Means (.unit code :: pieces) (Char.ofNat code :: text)
  | pair {leading trailing : Nat} {pieces : List Piece} {text : List Char}
      (hl : 0xD800 ≤ leading ∧ leading ≤ 0xDBFF) (ht : 0xDC00 ≤ trailing ∧ trailing ≤ 0xDFFF)
      (h : Means pieces text) :
    Means (.unit leading :: .unit trailing :: pieces)
      (Char.ofNat (0x10000 + (leading - 0xD800) * 0x400 + (trailing - 0xDC00)) :: text)

theorem decodeFrom?_of_means {pieces : List Piece} {chars : List Char} (h : Means pieces chars)
    {done text : String} (ht : text.toList = done.toList ++ chars) :
    decodeFrom? done pieces = some text := by
  induction h generalizing done with
  | nil => exact congrArg some (String.toList_inj.mp (by simpa using ht.symm))
  | char _ ih => exact ih (by simpa using ht)
  | unit hc _ ih =>
    unfold decodeFrom?
    rw [if_pos hc]
    exact ih (by simpa using ht)
  | pair hl hh _ ih =>
    unfold decodeFrom?
    rw [if_neg (by omega), if_neg (by omega)]
    simp only [if_pos hh]
    exact ih (by simpa using ht)

theorem exists_means_of_decodeFrom? {done text : String} {pieces : List Piece}
    (h : decodeFrom? done pieces = some text) :
    ∃ chars, Means pieces chars ∧ text.toList = done.toList ++ chars := by
  fun_induction decodeFrom? done pieces with
  | case1 done =>
    obtain rfl := Option.some.inj h
    exact ⟨[], .nil, (List.append_nil _).symm⟩
  | case2 done c rest ih =>
    obtain ⟨chars, hm, ht⟩ := ih h
    exact ⟨c :: chars, .char hm, by simpa using ht⟩
  | case3 done code rest hc ih =>
    obtain ⟨chars, hm, ht⟩ := ih h
    exact ⟨_, .unit hc hm, by simpa using ht⟩
  | case5 done code hc hl trailing rest hh scalar ih =>
    obtain ⟨chars, hm, ht⟩ := ih h
    exact ⟨_, .pair (by omega) hh hm, by simpa using ht⟩
  | case4 | case6 | case7 => cases h

theorem decode?_eq_some_iff {pieces : List Piece} {text : String} :
    decode? pieces = some text ↔ Means pieces text.toList := by
  constructor
  · intro h
    obtain ⟨chars, hm, ht⟩ := exists_means_of_decodeFrom? h
    rwa [ht]
  · exact fun h => decodeFrom?_of_means h rfl

end Piece

section Quotes

theorem spelled_control {c : Char} (h : c < ' ') :
    Piece.Spelled (.unit c.toNat)
      ['\\', 'u', '0', '0', Nat.digitChar (c.toNat / 16), Nat.digitChar (c.toNat % 16)] := by
  have hn : c.toNat < 32 := h
  have hz : IsHexDigit 0 '0' := isHexDigit_digitChar (by decide)
  have hv : ((0 * 16 + 0) * 16 + c.toNat / 16) * 16 + c.toNat % 16 = c.toNat := by omega
  have hs := Piece.Spelled.unit hz hz (isHexDigit_digitChar (show c.toNat / 16 < 16 by omega))
    (isHexDigit_digitChar (show c.toNat % 16 < 16 by omega))
  rwa [hv] at hs

/-- The text of a character inside quotation marks. -/
theorem exists_spelled_escape (c : Char) :
    ∃ piece : Piece, piece.Spelled (escape c).toList ∧ ∀ {pieces text},
      Piece.Means pieces text → Piece.Means (piece :: pieces) (c :: text) := by
  have named {c d : Char} (h : (c, d) ∈ escapes) : ∃ piece : Piece, piece.Spelled ['\\', c] ∧
      ∀ {pieces text}, Piece.Means pieces text → Piece.Means (piece :: pieces) (d :: text) :=
    ⟨.char d, .escape h, .char⟩
  unfold escape
  split_ifs with hq hb h₁ h₂ h₃ h₄ h₅ hs
  · exact hq ▸ named (by decide)
  · exact hb ▸ named (by decide)
  · exact h₁ ▸ named (by decide)
  · exact h₂ ▸ named (by decide)
  · exact h₃ ▸ named (by decide)
  · exact h₄ ▸ named (by decide)
  · exact h₅ ▸ named (by decide)
  · refine ⟨.unit c.toNat, ?_, fun hm => ?_⟩
    · simp only [String.toList_append, String.toList_ofList]
      exact spelled_control hs
    · have hn : c.toNat < 32 := hs
      have hu := Piece.Means.unit (show c.toNat < 0xD800 ∨ 0xDFFF < c.toNat by omega) hm
      rwa [Char.ofNat_toNat] at hu
  · refine ⟨.char c, ?_, .char⟩
    rw [Char.toString_eq_singleton, String.toList_singleton]
    exact .plain (Char.not_lt.mp hs) hq hb

theorem toList_foldl_escape (chars : List Char) (done : String) :
    (chars.foldl (fun done c => done ++ escape c) done).toList =
      done.toList ++ (chars.map fun c => (escape c).toList).flatten := by
  induction chars generalizing done with
  | nil => simp
  | cons c rest ih =>
    rw [List.foldl_cons, ih, String.toList_append, List.append_assoc]
    rfl

theorem exists_spelled_escapes (chars : List Char) :
    ∃ pieces, Piece.Means pieces chars ∧
      List.Forall₂ Piece.Spelled pieces (chars.map fun c => (escape c).toList) := by
  induction chars with
  | nil => exact ⟨[], .nil, .nil⟩
  | cons c rest ih =>
    obtain ⟨pieces, hm, hs⟩ := ih
    obtain ⟨piece, hp, hc⟩ := exists_spelled_escape c
    exact ⟨piece :: pieces, hc hm, .cons hp hs⟩

/-- A quoted text is a string that stands for the text. -/
theorem exists_spelled_quote (text : String) :
    ∃ pieces, Piece.Means pieces text.toList ∧
      Token.Spelled (.string pieces) (quote text).toList := by
  obtain ⟨pieces, hm, hs⟩ := exists_spelled_escapes text.toList
  refine ⟨pieces, hm, ?_⟩
  rw [quote, String.toList_append, toList_foldl_escape, List.append_assoc]
  exact .string hs

end Quotes

namespace Written

mutual

/-- The tokens of a value, in the order of the text. -/
def tokens : Written → List Token
  | .null => [.null]
  | .bool value => [.bool value]
  | .number literal => [.number literal]
  | .string pieces => [.string pieces]
  | .array [] => [.openArray, .closeArray]
  | .array (item :: rest) => .openArray :: (item.tokens ++ tokensOfItems rest)
  | .object [] => [.openObject, .closeObject]
  | .object ((key, value) :: rest) =>
    .openObject :: .string key :: .colon :: (value.tokens ++ tokensOfMembers rest)

/-- What is left of an array behind one of its items. -/
def tokensOfItems : List Written → List Token
  | [] => [.closeArray]
  | item :: rest => .comma :: (item.tokens ++ tokensOfItems rest)

/-- What is left of an object behind one of its members. -/
def tokensOfMembers : List (List Piece × Written) → List Token
  | [] => [.closeObject]
  | (key, value) :: rest =>
    .comma :: .string key :: .colon :: (value.tokens ++ tokensOfMembers rest)

end

/-- The text is a spelling of the value. -/
def SpelledBy (written : Written) (text : String) : Prop :=
  Token.SpelledAll written.tokens text.toList

theorem value?_openArray (written : Written) (frames : List Frame) (rest : List Token) :
    value? frames (.openArray :: (written.tokens ++ rest)) =
      value? (.array [] :: frames) (written.tokens ++ rest) := by
  cases written with
  | array items => cases items <;> rfl
  | object members => cases members <;> rfl
  | _ => rfl

mutual

/-- Once the tokens of a value are read, the value is finished. -/
theorem value?_tokens (frames : List Frame) (rest : List Token) :
    ∀ written : Written,
      value? frames (written.tokens ++ rest) = finished? written frames rest
  | .null => rfl
  | .bool _ => rfl
  | .number _ => rfl
  | .string _ => rfl
  | .array [] => rfl
  | .object [] => rfl
  | .array (item :: others) => by
    rw [tokens, List.cons_append, List.append_assoc, value?_openArray,
      value?_tokens (.array [] :: frames) (tokensOfItems others ++ rest) item,
      finished?_items frames rest [] item others]
    rfl
  | .object ((key, value) :: others) => by
    rw [tokens, List.cons_append, List.cons_append, List.cons_append, List.append_assoc, value?,
      value?_tokens (.object [] key :: frames) (tokensOfMembers others ++ rest) value,
      finished?_members frames rest [] key value others]
    rfl

theorem finished?_items (frames : List Frame) (rest : List Token) (done : List Written)
    (item : Written) : ∀ others : List Written,
      finished? item (.array done :: frames) (tokensOfItems others ++ rest) =
        finished? (.array (done.reverse ++ item :: others)) frames rest
  | [] => by
    rw [tokensOfItems, List.singleton_append, finished?, List.reverse_cons]
  | next :: others => by
    rw [tokensOfItems, List.cons_append, List.append_assoc, finished?,
      value?_tokens (.array (item :: done) :: frames) (tokensOfItems others ++ rest) next,
      finished?_items frames rest (item :: done) next others, List.reverse_cons, List.append_assoc,
      List.singleton_append]

theorem finished?_members (frames : List Frame) (rest : List Token)
    (done : List (List Piece × Written)) (key : List Piece) (value : Written) :
    ∀ others : List (List Piece × Written),
      finished? value (.object done key :: frames) (tokensOfMembers others ++ rest) =
        finished? (.object (done.reverse ++ (key, value) :: others)) frames rest
  | [] => by
    rw [tokensOfMembers, List.singleton_append, finished?, List.reverse_cons]
  | (name, next) :: others => by
    rw [tokensOfMembers, List.cons_append, List.cons_append, List.cons_append, List.append_assoc,
      finished?,
      value?_tokens (.object ((key, value) :: done) name :: frames)
        (tokensOfMembers others ++ rest) next,
      finished?_members frames rest ((key, value) :: done) name next others, List.reverse_cons,
      List.append_assoc, List.singleton_append]

end

theorem ofTokens?_tokens (written : Written) : ofTokens? written.tokens = some written := by
  have h := value?_tokens [] [] written
  rwa [List.append_nil, finished?] at h

theorem isChain_cons_apart {token : Token} {rest : List Token} (hn : ¬ token.IsNumber)
    (hr : rest.IsChain Token.Apart) : (token :: rest).IsChain Token.Apart :=
  List.isChain_cons.mpr ⟨fun _ _ hl => absurd hl hn, hr⟩

mutual

/-- A comma or a bracket stands behind every number. -/
theorem isChain_tokens {rest : List Token} (hr : rest.IsChain Token.Apart)
    (hh : ∀ token ∈ rest.head?, ¬ token.IsNumber) :
    ∀ written : Written, (written.tokens ++ rest).IsChain Token.Apart
  | .null | .bool _ | .string _ => isChain_cons_apart nofun hr
  | .number _ => List.isChain_cons.mpr ⟨fun token ht _ => hh token ht, hr⟩
  | .array [] | .object [] => isChain_cons_apart nofun (isChain_cons_apart nofun hr)
  | .array (item :: others) => by
    obtain ⟨hi, hn⟩ := isChain_tokensOfItems hr others
    rw [tokens, List.cons_append, List.append_assoc]
    exact isChain_cons_apart nofun (isChain_tokens hi hn item)
  | .object ((key, value) :: others) => by
    obtain ⟨hm, hn⟩ := isChain_tokensOfMembers hr others
    rw [tokens, List.cons_append, List.cons_append, List.cons_append, List.append_assoc]
    exact isChain_cons_apart nofun (isChain_cons_apart nofun (isChain_cons_apart nofun
      (isChain_tokens hm hn value)))

theorem isChain_tokensOfItems {rest : List Token} (hr : rest.IsChain Token.Apart) :
    ∀ others : List Written, (tokensOfItems others ++ rest).IsChain Token.Apart ∧
      ∀ token ∈ (tokensOfItems others ++ rest).head?, ¬ token.IsNumber
  | [] => ⟨isChain_cons_apart nofun hr, by rintro _ ⟨⟩; nofun⟩
  | item :: others => by
    obtain ⟨hi, hn⟩ := isChain_tokensOfItems hr others
    rw [tokensOfItems, List.cons_append, List.append_assoc]
    exact ⟨isChain_cons_apart nofun (isChain_tokens hi hn item), by rintro _ ⟨⟩; nofun⟩

theorem isChain_tokensOfMembers {rest : List Token} (hr : rest.IsChain Token.Apart) :
    ∀ others : List (List Piece × Written), (tokensOfMembers others ++ rest).IsChain Token.Apart ∧
      ∀ token ∈ (tokensOfMembers others ++ rest).head?, ¬ token.IsNumber
  | [] => ⟨isChain_cons_apart nofun hr, by rintro _ ⟨⟩; nofun⟩
  | (key, value) :: others => by
    obtain ⟨hm, hn⟩ := isChain_tokensOfMembers hr others
    rw [tokensOfMembers, List.cons_append, List.cons_append, List.cons_append, List.append_assoc]
    exact ⟨isChain_cons_apart nofun (isChain_cons_apart nofun (isChain_cons_apart nofun
      (isChain_tokens hm hn value))), by rintro _ ⟨⟩; nofun⟩

end

/-- Every spelling of a value is read as that value. -/
theorem ofText?_spelled {written : Written} {text : String} (h : written.SpelledBy text) :
    ofText? text = some written := by
  have ha : written.tokens.IsChain Token.Apart := by
    simpa using isChain_tokens List.isChain_nil nofun written
  rw [ofText?, Token.ofText?_spelledAll h ha, Option.bind_some, ofTokens?_tokens]

end Written

end QueryDialect.Json
