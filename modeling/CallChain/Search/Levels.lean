/-
# The chains of a search, level by level

What a search finds when nothing cuts it short, said without a queue: the
trails of one link, of two, and so on; of those short enough and long enough
the ones that reach the goal; of chains that look the same the first; of what
is left as many as asked for.

Key definitions: `Facts.level`, `Facts.answers`, `Chain.firstOfEach`,
`Facts.enumeration`.
-/
import CallChain.Search.Run

namespace CallChain

/-- The trails of `n + 1` links, in the order of the search. -/
def Facts.level (F : Facts) (L : Limits) (starts : List Link) : Nat → List Trail
  | 0 => (L.openings starts).map fun l => { tail := l }
  | n + 1 =>
    (F.level L starts n).flatMap fun t => t.extensions (F.expansion L t.tail.type.elementType)

/-- The chains for one goal, in the order of the search. -/
def Facts.answers (F : Facts) (L : Limits) (starts : List Link) (g : Goal) : List Chain :=
  (((List.range L.maxLength).flatMap (F.level L starts)).filter fun t =>
    L.minLength ≤ t.length && F.reaches g t.tail).map (·.chain g.dims)

/-- The chains whose text is not among those seen, of each text the first. -/
def Chain.firstOfEach (seen : List String) : List Chain → List Chain
  | [] => []
  | c :: cs =>
    if c.printed ∈ seen then firstOfEach seen cs
    else c :: firstOfEach (c.printed :: seen) cs

/-- What a search for values of the given types finds when nothing cuts it
short. -/
def Facts.enumeration (F : Facts) (L : Limits) (starts : List Link) (types : List JavaType) :
    List Chain :=
  let wanted := types.filter fun type => !L.excludes type.elementType.signature
  (Chain.firstOfEach [] (wanted.flatMap fun type =>
    F.answers L starts (Goal.ofType type))).take L.maxChains

theorem Facts.length_of_mem_level {F : Facts} {L : Limits} {starts : List Link} {n : Nat}
    {t : Trail} (h : t ∈ F.level L starts n) : t.length = n + 1 := by
  induction n generalizing t with
  | zero =>
    obtain ⟨l, _, rfl⟩ := List.mem_map.1 h
    rfl
  | succ n ih =>
    obtain ⟨u, hu, ht⟩ := List.mem_flatMap.1 h
    rw [Trail.length_of_mem_extensions ht, ih hu]

end CallChain
