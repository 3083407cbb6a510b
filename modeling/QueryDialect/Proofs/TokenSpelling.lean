import Mathlib.Data.List.Chain
import Mathlib.Data.List.Forall2
import Mathlib.Data.List.TakeWhile
import QueryDialect.Json.Token

namespace QueryDialect.Json

/-- The characters that may follow a backslash on their own, and what they stand for. -/
def escapes : List (Char × Char) :=
  [('"', '"'), ('\\', '\\'), ('/', '/'), ('b', '\x08'), ('f', '\x0c'), ('n', '\n'), ('r', '\r'),
    ('t', '\t')]

/-- The character is the hexadecimal digit of this value, in either case. -/
def IsHexDigit (value : Nat) (c : Char) : Prop :=
  value < 16 ∧ (c = value.digitChar ∨ c = value.digitChar.toUpper)

/-- How one place of a string is spelled. -/
inductive Piece.Spelled : Piece → List Char → Prop
  | plain {c : Char} (hs : ' ' ≤ c) (hq : c ≠ '"') (hb : c ≠ '\\') : Spelled (.char c) [c]
  | escape {c value : Char} (h : (c, value) ∈ escapes) : Spelled (.char value) ['\\', c]
  | unit {w x y z : Nat} {a b c d : Char} (ha : IsHexDigit w a) (hb : IsHexDigit x b)
      (hc : IsHexDigit y c) (hd : IsHexDigit z d) :
    Spelled (.unit (((w * 16 + x) * 16 + y) * 16 + z)) ['\\', 'u', a, b, c, d]

/-- The characters are decimal digits of these values, and there are some. -/
structure SpelledDigits (values : List Nat) (chars : List Char) : Prop where
  nonempty : chars ≠ []
  digits : ∀ c ∈ chars, c.isDigit = true
  values_eq : values = chars.map fun c => c.toNat - '0'.toNat

/-- The number that decimal digits stand for. -/
def decimalValue (digits : List Nat) : Nat :=
  digits.foldl (· * 10 + ·) 0

namespace Number

/-- There is no leading zero but the digit zero alone. -/
def SpelledWhole (values : List Nat) (chars : List Char) : Prop :=
  chars = ['0'] ∧ values = [0] ∨ SpelledDigits values chars ∧ chars.head? ≠ some '0'

inductive SpelledFraction : List Nat → List Char → Prop
  | missing : SpelledFraction [] []
  | present {values : List Nat} {chars : List Char} (h : SpelledDigits values chars) :
    SpelledFraction values ('.' :: chars)

inductive SpelledExponent : Option Int → List Char → Prop
  | missing : SpelledExponent none []
  | unsigned {e : Char} {values : List Nat} {chars : List Char} (he : e = 'e' ∨ e = 'E')
      (h : SpelledDigits values chars) : SpelledExponent (some (decimalValue values)) (e :: chars)
  | positive {e : Char} {values : List Nat} {chars : List Char} (he : e = 'e' ∨ e = 'E')
      (h : SpelledDigits values chars) :
    SpelledExponent (some (decimalValue values)) (e :: '+' :: chars)
  | negative {e : Char} {values : List Nat} {chars : List Char} (he : e = 'e' ∨ e = 'E')
      (h : SpelledDigits values chars) :
    SpelledExponent (some (-decimalValue values)) (e :: '-' :: chars)

/-- The parts of a number that has no sign. -/
structure SpelledParts (literal : Literal) (whole fraction exponent : List Char) : Prop where
  whole_spelled : SpelledWhole literal.whole whole
  fraction_spelled : SpelledFraction literal.fraction fraction
  exponent_spelled : SpelledExponent literal.exponent exponent

inductive Literal.Spelled : Literal → List Char → Prop
  | unsigned {literal : Literal} {whole fraction exponent : List Char}
      (hn : literal.negative = false) (h : SpelledParts literal whole fraction exponent) :
    Spelled literal (whole ++ fraction ++ exponent)
  | negative {literal : Literal} {whole fraction exponent : List Char}
      (hn : literal.negative = true) (h : SpelledParts literal whole fraction exponent) :
    Spelled literal ('-' :: whole ++ fraction ++ exponent)

end Number

namespace Token

def IsNumber (token : Token) : Prop :=
  ∃ literal, token = .number literal

inductive Spelled : Token → List Char → Prop
  | openArray : Spelled .openArray ['[']
  | closeArray : Spelled .closeArray [']']
  | openObject : Spelled .openObject ['\x7b']
  | closeObject : Spelled .closeObject ['\x7d']
  | comma : Spelled .comma [',']
  | colon : Spelled .colon [':']
  | null : Spelled .null ['n', 'u', 'l', 'l']
  | true : Spelled (.bool true) ['t', 'r', 'u', 'e']
  | false : Spelled (.bool false) ['f', 'a', 'l', 's', 'e']
  | number {literal : Number.Literal} {chars : List Char} (h : literal.Spelled chars) :
    Spelled (.number literal) chars
  | string {pieces : List Piece} {parts : List (List Char)}
      (h : List.Forall₂ Piece.Spelled pieces parts) :
    Spelled (.string pieces) ('"' :: (parts.flatten ++ ['"']))

/-- The characters that may stand between tokens. -/
def Blank (chars : List Char) : Prop :=
  ∀ c ∈ chars, c ∈ [' ', '\t', '\n', '\r']

theorem blank_nil : Blank [] :=
  List.forall_mem_nil _

/-- The tokens one after the other, with white space before, between and after them. -/
inductive SpelledAll : List Token → List Char → Prop
  | nil {blank : List Char} (hb : Blank blank) : SpelledAll [] blank
  | cons {token : Token} {tokens : List Token} {blank chars rest : List Char} (hb : Blank blank)
      (ht : token.Spelled chars) (hr : SpelledAll tokens rest) :
    SpelledAll (token :: tokens) (blank ++ (chars ++ rest))

end Token

section Characters

theorem toNat_of_isDigit {c : Char} (h : c.isDigit = true) : 48 ≤ c.toNat ∧ c.toNat ≤ 57 := by
  simp only [Char.isDigit, Bool.and_eq_true, decide_eq_true_eq, ge_iff_le,
    UInt32.le_iff_toNat_le] at h
  exact h

theorem mem_of_isDigit {c : Char} (h : c.isDigit = true) :
    c ∈ ['0', '1', '2', '3', '4', '5', '6', '7', '8', '9'] := by
  have named : ∀ n ≤ 57, 48 ≤ n →
      Char.ofNat n ∈ ['0', '1', '2', '3', '4', '5', '6', '7', '8', '9'] := by decide
  obtain ⟨hl, hu⟩ := toNat_of_isDigit h
  rw [← Char.ofNat_toNat c]
  exact named _ hu hl

theorem isHexDigit_digitChar {value : Nat} (h : value < 16) : IsHexDigit value value.digitChar :=
  ⟨h, .inl rfl⟩

theorem IsHexDigit.hexValue? {value : Nat} {c : Char} (h : IsHexDigit value c) :
    Token.hexValue? c = some value := by
  have lower : ∀ n < 16, Token.hexValue? n.digitChar = some n := by decide
  have upper : ∀ n < 16, Token.hexValue? n.digitChar.toUpper = some n := by decide
  obtain ⟨hl, rfl | rfl⟩ := h
  · exact lower value hl
  · exact upper value hl

theorem SpelledDigits.exists_eq_cons {values : List Nat} {chars : List Char}
    (h : SpelledDigits values chars) : ∃ c tail, chars = c :: tail ∧ c.isDigit = true := by
  obtain ⟨c, tail, rfl⟩ := List.exists_cons_of_ne_nil h.nonempty
  exact ⟨c, tail, rfl, h.digits c (List.mem_cons_self ..)⟩

theorem Number.SpelledWhole.exists_eq_cons {values : List Nat} {chars : List Char}
    (h : SpelledWhole values chars) : ∃ c tail, chars = c :: tail ∧ c.isDigit = true := by
  rcases h with ⟨rfl, -⟩ | ⟨hd, -⟩
  · exact ⟨'0', [], rfl, rfl⟩
  · exact hd.exists_eq_cons

end Characters

namespace Token

section Strings

theorem escaped?_eq_some_iff {c value : Char} : escaped? c = some value ↔ (c, value) ∈ escapes := by
  unfold escaped? escapes
  split <;> simp_all [eq_comm]

theorem string?_plain {c : Char} (hs : ' ' ≤ c) (hq : c ≠ '"') (hb : c ≠ '\\') (done : List Piece)
    (rest : List Char) : string? done (c :: rest) = string? (.char c :: done) rest := by
  rw [string?, if_neg]
  all_goals simp_all

theorem string?_escape {c value : Char} (h : (c, value) ∈ escapes) (done : List Piece)
    (rest : List Char) : string? done ('\\' :: c :: rest) = string? (.char value :: done) rest := by
  have hu : c ≠ 'u' := by
    rintro rfl
    revert h
    simp [escapes]
  rw [string?, escaped?_eq_some_iff.mpr h]
  simp_all

theorem string?_unit {w x y z : Nat} {a b c d : Char} (ha : IsHexDigit w a) (hb : IsHexDigit x b)
    (hc : IsHexDigit y c) (hd : IsHexDigit z d) (done : List Piece) (rest : List Char) :
    string? done ('\\' :: 'u' :: a :: b :: c :: d :: rest) =
      string? (.unit (((w * 16 + x) * 16 + y) * 16 + z) :: done) rest := by
  rw [string?, unit?, ha.hexValue?, hb.hexValue?, hc.hexValue?, hd.hexValue?]
  rfl

theorem string?_piece {piece : Piece} {chars : List Char} (h : piece.Spelled chars)
    (done : List Piece) (rest : List Char) :
    string? done (chars ++ rest) = string? (piece :: done) rest := by
  cases h with
  | plain hs hq hb => exact string?_plain hs hq hb done rest
  | escape h => exact string?_escape h done rest
  | unit ha hb hc hd => exact string?_unit ha hb hc hd done rest

theorem string?_spelled {pieces : List Piece} {parts : List (List Char)}
    (h : List.Forall₂ Piece.Spelled pieces parts) (done : List Piece) (rest : List Char) :
    string? done (parts.flatten ++ '"' :: rest) = some (.string (done.reverse ++ pieces), rest) := by
  induction h generalizing done with
  | nil => simp [string?]
  | @cons piece chars pieces parts hp _ ih =>
    rw [List.flatten_cons, List.append_assoc, string?_piece hp, ih, List.reverse_cons,
      List.append_assoc, List.singleton_append]

end Strings

section Numbers

/-- No digit, point or exponent stands at the beginning, so a number that ends here is complete. -/
def EndsNumber (rest : List Char) : Prop :=
  ∀ c ∈ rest.head?, c.isDigit = false ∧ c ∉ ['.', 'e', 'E']

theorem digits?_spelled {values : List Nat} {chars rest : List Char}
    (h : SpelledDigits values chars) (hr : ∀ c ∈ rest.head?, c.isDigit = false) :
    digits? (chars ++ rest) = some (values, rest) := by
  have ht : rest.takeWhile Char.isDigit = [] := by
    cases rest with
    | nil => rfl
    | cons c rest => exact List.takeWhile_cons_of_neg (by simp [hr c rfl])
  have hd : rest.dropWhile Char.isDigit = rest := by
    cases rest with
    | nil => rfl
    | cons c rest => exact List.dropWhile_cons_of_neg (by simp [hr c rfl])
  rw [digits?, List.takeWhile_append_of_pos h.digits, List.dropWhile_append_of_pos h.digits, ht, hd,
    List.append_nil, h.values_eq]
  obtain ⟨c, tail, rfl, -⟩ := h.exists_eq_cons
  rfl

theorem whole?_spelled {values : List Nat} {chars rest : List Char}
    (h : Number.SpelledWhole values chars) (hr : ∀ c ∈ rest.head?, c.isDigit = false) :
    whole? (chars ++ rest) = some (values, rest) := by
  rcases h with ⟨rfl, rfl⟩ | ⟨hd, hz⟩
  · rfl
  · rw [whole?, digits?_spelled hd hr]
    obtain ⟨c, tail, rfl, -⟩ := hd.exists_eq_cons
    intro after he
    exact hz (congrArg some (List.cons.inj he).1)

theorem fraction?_spelled {values : List Nat} {chars rest : List Char}
    (h : Number.SpelledFraction values chars)
    (hr : ∀ c ∈ rest.head?, c.isDigit = false ∧ c ≠ '.') :
    fraction? (chars ++ rest) = some (values, rest) := by
  cases h with
  | missing =>
    rw [List.nil_append, fraction?]
    rintro after rfl
    exact (hr '.' rfl).2 rfl
  | present hd => exact digits?_spelled hd fun c hc => (hr c hc).1

theorem sign_of_isDigit {c : Char} (h : c.isDigit = true) (rest : List Char) :
    sign (c :: rest) = (false, c :: rest) := by
  rw [sign]
  all_goals
    intro after he
    obtain ⟨rfl, -⟩ := List.cons.inj he
    exact absurd h (by decide)

theorem exponent?_spelled {exponent : Option Int} {chars rest : List Char}
    (h : Number.SpelledExponent exponent chars) (hr : EndsNumber rest) :
    exponent? (chars ++ rest) = some (exponent, rest) := by
  have hd : ∀ c ∈ rest.head?, c.isDigit = false := fun c hc => (hr c hc).1
  cases h with
  | missing =>
    cases rest with
    | nil => rfl
    | cons c rest =>
      have hc := (hr c rfl).2
      simp only [List.mem_cons, not_or] at hc
      rw [List.nil_append, exponent?, if_neg (by simp [hc])]
  | @unsigned e values chars he hs =>
    have hsign : sign (chars ++ rest) = (false, chars ++ rest) := by
      obtain ⟨c, tail, rfl, hc⟩ := hs.exists_eq_cons
      exact sign_of_isDigit hc (tail ++ rest)
    rw [List.cons_append, exponent?, if_pos he, hsign]
    simp [digits?_spelled hs hd, decimalValue]
  | positive he hs =>
    rw [List.cons_append, List.cons_append, exponent?, if_pos he]
    simp [sign, digits?_spelled hs hd, decimalValue]
  | negative he hs =>
    rw [List.cons_append, List.cons_append, exponent?, if_pos he]
    simp [sign, digits?_spelled hs hd, decimalValue]

theorem head?_spelledFraction {values : List Nat} {chars : List Char}
    (h : Number.SpelledFraction values chars) : chars = [] ∨ chars.head? = some '.' := by
  cases h with
  | missing => exact .inl rfl
  | present => exact .inr rfl

theorem head?_spelledExponent {exponent : Option Int} {chars : List Char}
    (h : Number.SpelledExponent exponent chars) :
    chars = [] ∨ chars.head? = some 'e' ∨ chars.head? = some 'E' := by
  cases h with
  | missing => exact .inl rfl
  | unsigned he | positive he | negative he => exact .inr (he.imp (congrArg some) (congrArg some))

theorem unsigned?_spelled {literal : Number.Literal} {whole fraction exponent rest : List Char}
    (h : Number.SpelledParts literal whole fraction exponent) (hr : EndsNumber rest) :
    unsigned? literal.negative (whole ++ fraction ++ exponent ++ rest) =
      some (.number literal, rest) := by
  have he : ∀ c ∈ (exponent ++ rest).head?, c.isDigit = false ∧ c ≠ '.' := by
    rcases head?_spelledExponent h.exponent_spelled with rfl | he
    · exact fun c hc => ⟨(hr c hc).1, fun hp => (hr c hc).2 (by simp [hp])⟩
    · rcases he with he | he <;>
        (rw [List.head?_append, he]; rintro c ⟨⟩; exact ⟨by decide, by decide⟩)
  have hf : ∀ c ∈ (fraction ++ (exponent ++ rest)).head?, c.isDigit = false := by
    rcases head?_spelledFraction h.fraction_spelled with rfl | hp
    · exact fun c hc => (he c hc).1
    · rw [List.head?_append, hp]
      rintro c ⟨⟩
      decide
  rw [unsigned?, List.append_assoc, List.append_assoc, whole?_spelled h.whole_spelled hf]
  simp only [Option.bind_eq_bind, Option.bind_some, fraction?_spelled h.fraction_spelled he,
    exponent?_spelled h.exponent_spelled hr]
  rfl

end Numbers

section Tokens

/-- A digit is no white space and begins a number. -/
theorem next?_of_isDigit {c : Char} (h : c.isDigit = true) :
    isSpace c = false ∧ ∀ rest, next? c rest = unsigned? false (c :: rest) := by
  have hc := mem_of_isDigit h
  simp only [List.mem_cons, List.not_mem_nil, or_false] at hc
  rcases hc with rfl | rfl | rfl | rfl | rfl | rfl | rfl | rfl | rfl | rfl <;>
    exact ⟨rfl, fun _ => rfl⟩

theorem exists_next?_number {literal : Number.Literal} {chars rest : List Char}
    (h : literal.Spelled chars) (hr : EndsNumber rest) :
    ∃ first tail, chars = first :: tail ∧ isSpace first = false ∧
      next? first (tail ++ rest) = some (.number literal, rest) := by
  cases h with
  | @unsigned whole fraction exponent hn h =>
    obtain ⟨c, tail, rfl, hc⟩ := h.whole_spelled.exists_eq_cons
    obtain ⟨hs, hx⟩ := next?_of_isDigit hc
    refine ⟨c, tail ++ fraction ++ exponent, rfl, hs, ?_⟩
    rw [hx, ← hn]
    exact unsigned?_spelled h hr
  | negative hn h =>
    refine ⟨_, _, rfl, rfl, ?_⟩
    rw [next?, ← hn]
    exact unsigned?_spelled h hr

theorem exists_next?_spelled {token : Token} {chars rest : List Char} (h : token.Spelled chars)
    (hr : token.IsNumber → EndsNumber rest) :
    ∃ first tail, chars = first :: tail ∧ isSpace first = false ∧
      next? first (tail ++ rest) = some (token, rest) := by
  cases h with
  | number h => exact exists_next?_number h (hr ⟨_, rfl⟩)
  | string h =>
    refine ⟨_, _, rfl, rfl, ?_⟩
    rw [List.append_assoc, next?]
    exact string?_spelled h [] rest
  | _ => exact ⟨_, _, rfl, rfl, rfl⟩

theorem isSpace_iff {c : Char} : isSpace c = true ↔ c ∈ [' ', '\t', '\n', '\r'] := by
  simp [isSpace, or_assoc]

theorem dropWhile_blank_append {blank : List Char} (hb : Blank blank) (chars : List Char) :
    (blank ++ chars).dropWhile isSpace = chars.dropWhile isSpace :=
  List.dropWhile_append_of_pos fun c hc => isSpace_iff.mpr (hb c hc)

theorem readAll?_blank {blank : List Char} (hb : Blank blank) (done : List Token) :
    readAll? done blank = some done.reverse := by
  have hd : blank.dropWhile isSpace = [] := by simpa using dropWhile_blank_append hb []
  rw [readAll?]
  split
  next => rfl
  next hs => rw [hd] at hs; cases hs

theorem readAll?_step {blank tail after : List Char} {first : Char} {token : Token}
    (hb : Blank blank) (hf : isSpace first = false) (hn : next? first tail = some (token, after))
    (done : List Token) :
    readAll? done (blank ++ first :: tail) = readAll? (token :: done) after := by
  have hd : (blank ++ first :: tail).dropWhile isSpace = first :: tail := by
    rw [dropWhile_blank_append hb, List.dropWhile_cons_of_neg (by simp [hf])]
  rw [readAll?]
  split
  next hs => rw [hd] at hs; cases hs
  next hs =>
    obtain ⟨rfl, rfl⟩ := List.cons.inj (hd.symm.trans hs)
    split
    next h => cases hn.symm.trans h; rfl
    next h => cases hn.symm.trans h

/-- Two numbers on end would run into each other. -/
def Apart (left right : Token) : Prop :=
  left.IsNumber → ¬ right.IsNumber

theorem endsNumber_of_spelled {token : Token} {chars : List Char} (h : token.Spelled chars)
    (hn : ¬ token.IsNumber) (rest : List Char) : EndsNumber (chars ++ rest) := by
  cases h with
  | number => exact absurd ⟨_, rfl⟩ hn
  | _ => rintro c ⟨⟩; decide

theorem endsNumber_of_spelledAll {tokens : List Token} {chars : List Char}
    (h : SpelledAll tokens chars) (hn : ∀ token ∈ tokens.head?, ¬ token.IsNumber) :
    EndsNumber chars := by
  have space : ∀ c ∈ [' ', '\t', '\n', '\r'], c.isDigit = false ∧ c ∉ ['.', 'e', 'E'] := by
    simp only [List.forall_mem_cons]
    exact ⟨by decide, by decide, by decide, by decide, nofun⟩
  cases h with
  | nil hb => exact fun c hc => space c (hb c (List.mem_of_mem_head? hc))
  | @cons token tokens blank chars rest hb ht hr =>
    cases blank with
    | nil => exact endsNumber_of_spelled ht (hn token rfl) rest
    | cons b blank => rintro c ⟨⟩; exact space b (hb b (List.mem_cons_self ..))

/-- A text is taken apart into the tokens that it spells. -/
theorem readAll?_spelledAll {tokens : List Token} {chars : List Char} (h : SpelledAll tokens chars)
    (ha : tokens.IsChain Apart) (done : List Token) :
    readAll? done chars = some (done.reverse ++ tokens) := by
  induction h generalizing done with
  | nil hb => rw [readAll?_blank hb, List.append_nil]
  | @cons token tokens blank chars rest hb ht hr ih =>
    obtain ⟨hnext, hrest⟩ := List.isChain_cons.mp ha
    have hends : token.IsNumber → EndsNumber rest := fun hn =>
      endsNumber_of_spelledAll hr fun next hx => hnext next hx hn
    obtain ⟨first, tail, rfl, hf, hx⟩ := exists_next?_spelled ht hends
    rw [List.cons_append, readAll?_step hb hf hx, ih hrest, List.reverse_cons, List.append_assoc,
      List.singleton_append]

theorem ofText?_spelledAll {tokens : List Token} {text : String} (h : SpelledAll tokens text.toList)
    (ha : tokens.IsChain Apart) : ofText? text = some tokens :=
  readAll?_spelledAll h ha []

end Tokens

end Token

end QueryDialect.Json
