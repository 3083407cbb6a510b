import QueryDialect.Text.ClusterClass

namespace QueryDialect.Text

/-- How far a text has come towards a sequence that is not to be split. -/
inductive Progress where
  | none
  | begun
  | ready
  deriving DecidableEq

/-- What matters of the text before a place: its last class, a pictograph that a joiner may tie to
the next one, a consonant that a linker may tie to the next one, and whether the number of regional
indicators at its end is odd. -/
structure ClusterContext where
  last : ClusterClass
  pictograph : Progress
  conjunct : Progress
  oddRegional : Bool

namespace ClusterContext

def start : ClusterContext :=
  { last := .other, pictograph := .none, conjunct := .none, oddRegional := false }

def push (context : ClusterContext) (next : ClusterClass) : ClusterContext :=
  { last := next
    pictograph :=
      match next, context.pictograph with
      | .pictograph, _ => .begun
      | .extend, .begun | .nonJoiner, .begun | .linker, .begun => .begun
      | .joiner, .begun => .ready
      | _, _ => .none
    conjunct :=
      match next, context.conjunct with
      | .consonant, _ => .begun
      | .linker, .begun | .linker, .ready => .ready
      | .extend, progress | .joiner, progress => progress
      | _, _ => .none
    oddRegional := next = .regional && !context.oddRegional }

/-- Does a cluster end between the text before and a character of the class? -/
def endsBefore (context : ClusterContext) (next : ClusterClass) : Bool :=
  match context.last, next with
  | .carriageReturn, .lineFeed => false
  | .control, _ | .carriageReturn, _ | .lineFeed, _ => true
  | _, .control | _, .carriageReturn | _, .lineFeed => true
  | .leading, .leading | .leading, .vowel | .leading, .openSyllable | .leading, .closedSyllable
  | .openSyllable, .vowel | .openSyllable, .trailing | .vowel, .vowel | .vowel, .trailing
  | .closedSyllable, .trailing | .trailing, .trailing => false
  | _, .extend | _, .nonJoiner | _, .linker | _, .joiner | _, .spacingMark => false
  | .prepend, _ => false
  | _, .consonant => context.conjunct ≠ .ready
  | _, .pictograph => context.pictograph ≠ .ready
  | _, .regional => !context.oddRegional
  | _, _ => true

end ClusterContext

/-- Splits what follows `current`, the characters of an unfinished cluster with the last one first;
`done` holds the finished clusters, the last one first. -/
def clustersFrom (done : List (List Char)) (current : List Char) (context : ClusterContext) :
    List Char → List (List Char)
  | [] => (current.reverse :: done).reverse
  | c :: rest =>
    let next := ClusterClass.ofChar c
    if context.endsBefore next then
      clustersFrom (current.reverse :: done) [c] (context.push next) rest
    else clustersFrom done (c :: current) (context.push next) rest

def clusters : List Char → List (List Char)
  | [] => []
  | c :: rest => clustersFrom [] [c] (ClusterContext.start.push (.ofChar c)) rest

theorem flatten_clustersFrom (done : List (List Char)) (current : List Char)
    (context : ClusterContext) (chars : List Char) :
    (clustersFrom done current context chars).flatten =
      done.reverse.flatten ++ current.reverse ++ chars := by
  induction chars generalizing done current context with
  | nil => simp [clustersFrom]
  | cons c rest ih =>
    rw [clustersFrom]
    split <;> simp [ih]

@[simp] theorem flatten_clusters (chars : List Char) : (clusters chars).flatten = chars := by
  cases chars with
  | nil => rfl
  | cons c rest => simp [clusters, flatten_clustersFrom]

end QueryDialect.Text
