namespace QueryDialect.Text

/-- The code points with the property White_Space, as closed ranges. -/
def blankRanges : List (Nat × Nat) :=
  [(0x0009, 0x000D), (0x0020, 0x0020), (0x0085, 0x0085), (0x00A0, 0x00A0), (0x1680, 0x1680),
    (0x2000, 0x200A), (0x2028, 0x2029), (0x202F, 0x202F), (0x205F, 0x205F), (0x3000, 0x3000)]

def isBlank (c : Char) : Bool :=
  blankRanges.any fun range => range.1 ≤ c.toNat && c.toNat ≤ range.2

def trim (text : String) : String :=
  String.ofList ((text.toList.dropWhile isBlank).reverse.dropWhile isBlank).reverse

/-- The text before the first character with the property, and the text after that character; the
whole text and nothing if there is no such character. -/
def cut (p : Char → Bool) (text : String) : String × String :=
  (String.ofList (text.toList.takeWhile (!p ·)),
    String.ofList ((text.toList.dropWhile (!p ·)).drop 1))

section Cut

variable {p : Char → Bool} {first rest text : String}

theorem cut_of_forall (h : ∀ c ∈ text.toList, p c = false) : cut p text = (text, "") := by
  have hp : ∀ c ∈ text.toList, (!p c) = true := by simpa using h
  rw [cut, ← text.toList.append_nil, List.takeWhile_append_of_pos hp,
    List.dropWhile_append_of_pos hp]
  simp

theorem cut_append {c : Char} (h : ∀ c ∈ first.toList, p c = false) (hc : p c = true) :
    cut p (first ++ String.singleton c ++ rest) = (first, rest) := by
  have hp : ∀ c ∈ first.toList, (!p c) = true := by simpa using h
  simp [cut, List.takeWhile_append_of_pos hp, List.dropWhile_append_of_pos hp, hc]

/-- What is cut off is the whole text, or is followed by a character with the property. -/
theorem cut_fst_eq_or (p : Char → Bool) (text : String) :
    (cut p text).1 = text ∨
      ∃ c rest, p c = true ∧ text = (cut p text).1 ++ String.singleton c ++ rest := by
  have whole := text.toList.takeWhile_append_dropWhile (p := (!p ·))
  cases hd : text.toList.dropWhile (!p ·) with
  | nil =>
    rw [hd, List.append_nil] at whole
    exact .inl (by rw [cut, whole, String.ofList_toList])
  | cons c rest =>
    have hf := List.head?_dropWhile_not (!p ·) text.toList
    rw [hd] at whole hf
    refine .inr ⟨c, String.ofList rest, by simpa using hf, ?_⟩
    rw [← String.toList_inj]
    simp [cut, whole]

end Cut

end QueryDialect.Text
