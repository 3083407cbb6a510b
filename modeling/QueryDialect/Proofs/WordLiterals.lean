import QueryDialect.Json.Writer
import QueryDialect.Proofs.TokenSpelling

namespace QueryDialect.Json.Number

/-- The literal is that of a word: it has digits only, and they stand for the word. Minus zero is
none. -/
structure Literal.IsWord (literal : Literal) (word : UInt64) : Prop where
  unsigned : literal.negative = false
  whole : literal.fraction = []
  unscaled : literal.exponent = none
  value : decimalValue literal.whole = word.toNat

section Absorbing

theorem le_foldl_digits (digits : List Nat) (significand : Nat) :
    significand ≤ digits.foldl (· * 10 + ·) significand := by
  induction digits generalizing significand with
  | nil => exact Nat.le_refl _
  | cons digit rest ih => exact Nat.le_trans (by omega) (ih (significand * 10 + digit))

/-- All digits of a number below the bound find room. -/
theorem absorb_of_lt {digits : List Nat} {significand : Nat}
    (h : digits.foldl (· * 10 + ·) significand < 0x10000000000000000) :
    absorb significand digits = (digits.foldl (· * 10 + ·) significand, []) := by
  induction digits generalizing significand with
  | nil => rfl
  | cons digit rest ih =>
    have hd := Nat.lt_of_le_of_lt (le_foldl_digits rest (significand * 10 + digit)) h
    rw [absorb, if_pos hd, ih h, List.foldl_cons]

theorem foldl_lt_of_absorb {digits : List Nat} {significand : Nat}
    (hs : significand < 0x10000000000000000) (h : (absorb significand digits).2 = []) :
    digits.foldl (· * 10 + ·) significand < 0x10000000000000000 := by
  induction digits generalizing significand with
  | nil => exact hs
  | cons digit rest ih =>
    rw [absorb] at h
    split at h
    next hd => exact ih hd h
    next => cases h

end Absorbing

theorem ofFloat?_ne_ofUInt64 (value : Float) (word : UInt64) :
    ofFloat? value ≠ some (ofUInt64 word) := by
  intro h
  unfold ofFloat? at h
  split at h <;> cases h

theorem scaled?_ne_ofUInt64 {negative : Bool} {significand : Nat} {exponent : Int} {word : UInt64} :
    scaled? negative significand exponent ≠ some (ofUInt64 word) := by
  unfold scaled?
  simp only
  split_ifs
  all_goals first | exact ofFloat?_ne_ofUInt64 _ word | nofun

theorem ofInt?_eq_ofUInt64_iff {value : Int} {word : UInt64} :
    ofInt? value = some (ofUInt64 word) ↔ value = word.toNat := by
  have hw := word.toNat_lt
  constructor
  · intro h
    unfold ofInt? at h
    split at h <;> cases h
    rfl
  · rintro rfl
    exact dif_pos ⟨by omega, by omega⟩

theorem isWord_of_ofLiteral? {literal : Literal} {word : UInt64}
    (h : ofLiteral? literal = some (ofUInt64 word)) : literal.IsWord word := by
  unfold ofLiteral? at h
  split at h
  next whole beyond ha =>
    split at h
    next hi =>
      obtain ⟨hi, hb⟩ := Bool.and_eq_true_iff.mp hi
      obtain ⟨hf, he⟩ := Bool.and_eq_true_iff.mp hi
      obtain rfl := List.isEmpty_iff.mp hb
      have hl : literal.whole.foldl (· * 10 + ·) 0 < 0x10000000000000000 :=
        foldl_lt_of_absorb (by decide) (congrArg Prod.snd ha)
      have hv : decimalValue literal.whole = whole :=
        congrArg Prod.fst ((absorb_of_lt hl).symm.trans ha)
      split at h
      next hn =>
        refine ⟨by simpa using hn, List.isEmpty_iff.mp hf, Option.isNone_iff_eq_none.mp he, ?_⟩
        exact hv.trans (Int.ofNat.inj (ofInt?_eq_ofUInt64_iff.mp h))
      next =>
        split at h
        next => exact absurd h scaled?_ne_ofUInt64
        next hz =>
          rw [Option.orElse_eq_orElse, Option.orElse_eq_or, Option.or_eq_some_iff] at h
          rcases h with h | ⟨-, h⟩
          · have hw := ofInt?_eq_ofUInt64_iff.mp h
            omega
          · exact absurd h scaled?_ne_ofUInt64
    next => exact absurd h scaled?_ne_ofUInt64

theorem ofLiteral?_of_isWord {literal : Literal} {word : UInt64} (h : literal.IsWord word) :
    ofLiteral? literal = some (ofUInt64 word) := by
  have hl : decimalValue literal.whole < 0x10000000000000000 := h.value ▸ word.toNat_lt
  have hi : literal.isInteger = true := by rw [Literal.isInteger, h.whole, h.unscaled]; rfl
  rw [ofLiteral?, absorb_of_lt hl]
  simp only [hi, List.isEmpty_nil, Bool.and_self, if_true, h.unsigned, Bool.not_false]
  exact ofInt?_eq_ofUInt64_iff.mpr (congrArg Int.ofNat h.value)

theorem ofLiteral?_eq_ofUInt64_iff {literal : Literal} {word : UInt64} :
    ofLiteral? literal = some (ofUInt64 word) ↔ literal.IsWord word :=
  ⟨isWord_of_ofLiteral?, ofLiteral?_of_isWord⟩

section Digits

theorem head?_toDigits_ne {n : Nat} (h : n ≠ 0) : (Nat.toDigits 10 n).head? ≠ some '0' := by
  induction n using Nat.strong_induction_on with
  | _ n ih =>
    by_cases hl : n < 10
    · rw [Nat.toDigits_of_lt_base hl]
      have hd : ∀ n < 10, n ≠ 0 → n.digitChar ≠ '0' := by decide
      simpa using hd n hl h
    · have hp := ih (n / 10) (by omega) (by omega)
      rw [Nat.toDigits_of_base_le (by decide) (by omega), List.head?_append]
      cases hc : (Nat.toDigits 10 (n / 10)).head? with
      | none => exact absurd (List.head?_eq_none_iff.mp hc) Nat.toDigits_ne_nil
      | some c => rwa [hc] at hp

theorem spelledWhole_toDigits (n : Nat) :
    ∃ values, SpelledWhole values (Nat.toDigits 10 n) ∧ decimalValue values = n := by
  by_cases hn : n = 0
  · subst hn
    exact ⟨[0], .inl ⟨rfl, rfl⟩, rfl⟩
  · refine ⟨_, .inr ⟨⟨?_, fun c hc => Nat.isDigit_of_mem_toDigits (by decide) (by decide) hc, rfl⟩,
      head?_toDigits_ne hn⟩, ?_⟩
    · exact Nat.toDigits_ne_nil
    · rw [decimalValue, List.foldl_map]
      conv_rhs => rw [← Nat.ofDigitChars_ten_toDigits (n := n), Nat.ofDigitChars]
      simp only [Nat.mul_comm 10]

end Digits

/-- What is written for a word is a literal of it. -/
theorem spelled_text (word : UInt64) :
    ∃ literal : Literal, literal.IsWord word ∧ literal.Spelled (ofUInt64 word).text.toList := by
  obtain ⟨values, hs, hv⟩ := spelledWhole_toDigits word.toNat
  refine ⟨⟨false, values, [], none⟩, ⟨rfl, rfl, rfl, hv⟩, ?_⟩
  have ht : (ofUInt64 word).text.toList = Nat.toDigits 10 word.toNat := by
    rw [ofUInt64, text, Int.toString_eq_repr, Int.repr_eq_if, if_pos (by omega), Int.toNat_natCast,
      Nat.toList_repr]
  have hl : Literal.Spelled ⟨false, values, [], none⟩ (Nat.toDigits 10 word.toNat ++ [] ++ []) :=
    .unsigned rfl ⟨hs, .missing, .missing⟩
  rwa [List.append_nil, List.append_nil, ← ht] at hl

end QueryDialect.Json.Number
