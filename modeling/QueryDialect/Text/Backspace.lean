import QueryDialect.Text.Cluster

namespace QueryDialect.Text

def backspace : Char :=
  '\x08'

/-- The part of a line that has been kept so far, the last character first, and the sizes of its
clusters, the last one first. A size is a number of bytes and is itself held in one byte. -/
structure Kept where
  chars : List Char := []
  sizes : List Nat := []

/-- Takes characters off until the size is used up. There is no result if that falls inside a
character. -/
def takeBack? (size : Nat) : List Char → Option (List Char)
  | [] => if size = 0 then some [] else none
  | c :: rest =>
    if size = 0 then some (c :: rest)
    else if c.utf8Size ≤ size then takeBack? (size - c.utf8Size) rest
    else none

namespace Kept

def push? (kept : Kept) (cluster : List Char) : Option Kept :=
  if cluster = [backspace] then
    match kept.sizes with
    | [] => some kept
    | size :: sizes => (takeBack? size kept.chars).map fun chars => { chars, sizes }
  else
    some {
      chars := cluster.reverse ++ kept.chars
      sizes := (String.ofList cluster).utf8ByteSize % 256 :: kept.sizes }

end Kept

/-- The line that remains of a typed one. There is none if taking back a cluster would cut a character
in two, which only a cluster of 256 bytes or more can bring about: its size does not fit in a byte. -/
def applyBackspaces? (line : String) : Option String :=
  ((clusters line.toList).foldlM Kept.push? {}).map fun kept => String.ofList kept.chars.reverse

theorem foldlM_push?_of_not_mem (parts : List (List Char)) (kept : Kept)
    (h : [backspace] ∉ parts) :
    (parts.foldlM Kept.push? kept).map (·.chars) =
      some (parts.flatten.reverse ++ kept.chars) := by
  induction parts generalizing kept with
  | nil => simp
  | cons cluster rest ih =>
    have hc : cluster ≠ [backspace] := fun hc => h (hc ▸ List.mem_cons_self ..)
    have hr : [backspace] ∉ rest := fun hr => h (List.mem_cons_of_mem _ hr)
    simp [Kept.push?, hc, ih _ hr]

theorem applyBackspaces?_of_not_mem {line : String} (h : backspace ∉ line.toList) :
    applyBackspaces? line = some line := by
  have hc : [backspace] ∉ clusters line.toList := fun hc =>
    h (flatten_clusters line.toList ▸ List.mem_flatten_of_mem hc (List.mem_cons_self ..))
  have hk := foldlM_push?_of_not_mem (clusters line.toList) {} hc
  obtain ⟨kept, hf, he⟩ := Option.map_eq_some_iff.mp hk
  simp [applyBackspaces?, hf, he]

end QueryDialect.Text
