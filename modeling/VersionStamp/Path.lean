/-
# Paths

A path is a text of pieces between slashes.  It is absolute if it starts with a slash, and
joining keeps both texts as they are.  The parent of a path is the path without its last
component: empty pieces and single points are no components, except a single point in front.
The ancestors of a path are the path itself, its parent, the parent of that, and so on.
-/

namespace VersionStamp

/-- A path, as it is written. -/
structure Path where
  text : String
  deriving DecidableEq, Repr

namespace Path

/-! ## Joining -/

/-- A path that starts with a slash. -/
def isAbsolute (p : Path) : Bool :=
  p.text.toList.head? = some '/'

/-- The base of a join, with a slash behind it unless it is empty or has one already. -/
def withSlash (p : Path) : String :=
  if p.text = "" ∨ p.text.toList.getLast? = some '/' then p.text else p.text ++ "/"

/-- The path `p` seen from `base`: `p` itself if it is absolute, else `p` behind `base`. -/
def join (base p : Path) : Path :=
  if p.isAbsolute then p else ⟨base.withSlash ++ p.text⟩

/-! ## Parents -/

/-- What stands before the body: a slash in front, or a single point that stands for a component. -/
def head : List Char → List Char
  | '/' :: _ => ['/']
  | ['.'] => ['.']
  | '.' :: '/' :: _ => ['.']
  | _ => []

/-- The body of a path: all that stands behind its head. -/
def body (cs : List Char) : List Char :=
  cs.drop (head cs).length

/-- A piece that is no component: nothing between two slashes, or a single point. -/
def isIdle (piece : List Char) : Bool :=
  piece = [] ∨ piece = ['.']

/-- The pieces without the idle ones at the end. -/
def dropIdle (pieces : List (List Char)) : List (List Char) :=
  (pieces.reverse.dropWhile isIdle).reverse

/-- The path without its last component, if it has one that can be left out. -/
def parent? (p : Path) : Option Path :=
  let cs := p.text.toList
  match dropIdle ((body cs).splitOn '/') with
  | [] => if head cs = ['.'] then some ⟨""⟩ else none
  | pieces =>
    some ⟨String.ofList (head cs ++ ['/'].intercalate (dropIdle pieces.dropLast))⟩

/-! ## Ancestors -/

/-- Text that stands in the pieces stands in their join. -/
theorem length_flatten_le_intercalate (sep : List Char) (pieces : List (List Char)) :
    pieces.flatten.length ≤ (sep.intercalate pieces).length := by
  induction pieces with
  | nil => simp
  | cons piece rest ih =>
    cases rest with
    | nil => simp
    | cons next more =>
      rw [List.intercalate_cons_cons, List.flatten_cons]
      simp only [List.length_append]
      omega

/-- A join of more pieces is longer by at least the text of the added pieces. -/
theorem length_intercalate_append_le (sep : List Char) (front back : List (List Char)) :
    (sep.intercalate front).length + back.flatten.length ≤
      (sep.intercalate (front ++ back)).length := by
  induction front with
  | nil => simpa using length_flatten_le_intercalate sep back
  | cons piece rest ih =>
    cases rest with
    | nil =>
      cases back with
      | nil => simp
      | cons next more =>
        have h := length_flatten_le_intercalate sep (next :: more)
        rw [List.cons_append, List.nil_append, List.intercalate_cons_cons]
        simp only [List.intercalate_singleton, List.length_append]
        omega
    | cons next more =>
      rw [List.cons_append, List.cons_append, List.intercalate_cons_cons,
        List.intercalate_cons_cons]
      simp only [List.length_append]
      rw [List.cons_append] at ih
      omega

/-- Only idle pieces are dropped. -/
theorem exists_dropIdle_append (pieces : List (List Char)) :
    ∃ idle, dropIdle pieces ++ idle = pieces := by
  refine ⟨(pieces.reverse.takeWhile isIdle).reverse, ?_⟩
  rw [dropIdle, ← List.reverse_append, List.takeWhile_append_dropWhile, List.reverse_reverse]

/-- What is left ends in a component. -/
theorem isIdle_getLast_dropIdle {pieces : List (List Char)} (h : dropIdle pieces ≠ []) :
    isIdle ((dropIdle pieces).getLast h) = false := by
  have hne : pieces.reverse.dropWhile isIdle ≠ [] := by simpa [dropIdle] using h
  simpa [dropIdle] using List.head_dropWhile_not isIdle hne

/-- The head and the body make up the path. -/
theorem head_append_body (cs : List Char) : head cs ++ body cs = cs := by
  unfold body head
  split <;> simp

/-- Leaving out the last of the pieces that are not idle shortens their join. -/
theorem length_intercalate_dropIdle_lt {pieces : List (List Char)} (h : dropIdle pieces ≠ []) :
    (['/'].intercalate (dropIdle (dropIdle pieces).dropLast)).length <
      (['/'].intercalate pieces).length := by
  obtain ⟨idle, hidle⟩ := exists_dropIdle_append pieces
  obtain ⟨rest, hrest⟩ := exists_dropIdle_append (dropIdle pieces).dropLast
  have hlast := isIdle_getLast_dropIdle h
  have hpos : 0 < ((dropIdle pieces).getLast h).length := by
    cases hp : (dropIdle pieces).getLast h with
    | nil => simp [hp, isIdle] at hlast
    | cons c r => simp
  have hlen := length_intercalate_append_le ['/'] (dropIdle (dropIdle pieces).dropLast)
    (rest ++ [(dropIdle pieces).getLast h] ++ idle)
  rw [← List.append_assoc, ← List.append_assoc, hrest, List.dropLast_concat_getLast, hidle] at hlen
  simp only [List.flatten_append, List.flatten_singleton, List.length_append] at hlen
  omega

/-- A parent is shorter than the path it is the parent of. -/
theorem length_lt_of_parent? {p q : Path} (h : p.parent? = some q) :
    q.text.toList.length < p.text.toList.length := by
  have hsplit := congrArg List.length (head_append_body p.text.toList)
  rw [List.length_append] at hsplit
  have hbody : ['/'].intercalate ((body p.text.toList).splitOn '/') = body p.text.toList :=
    List.intercalate_splitOn '/'
  unfold parent? at h
  dsimp only at h
  split at h
  next hnone =>
    split at h
    next hpoint =>
      cases h
      simp [hpoint] at hsplit
      simp
      omega
    · contradiction
  next pieces hsome =>
    cases h
    have hlt := length_intercalate_dropIdle_lt hsome
    rw [hbody] at hlt
    simp only [String.toList_ofList, List.length_append]
    omega

/-- The path itself, then its parent, the parent of that, and so on while there is one. -/
def ancestors (p : Path) : List Path :=
  match _h : p.parent? with
  | none => [p]
  | some q => p :: q.ancestors
termination_by p.text.toList.length
decreasing_by exact length_lt_of_parent? _h

end Path

end VersionStamp
