/-
# What is inserted is well typed

The body of a chain that a search has found is an expression. Each use but the
last takes its value down to a single one, of which the next link is a visible
member; the last takes it down to the dimensions of the type asked for, never
below. So the whole has the element of the last value in as many dimensions as
that type, and may stand where it is asked for.

Key definitions: `JavaType.indexed?`, `Facts.HasType`, `Chain.WellTyped`.
Key theorem: `Facts.search_wellTyped`.
-/
import CallChain.Proofs.Completion.Starts
import CallChain.Proofs.Snippet.Body
import CallChain.Proofs.TypeTable.Assignable

namespace CallChain

/-! ### Indexed values -/

namespace JavaType

/-- The type of what an index picks from a value of an array type. -/
def component? (t : JavaType) : Option JavaType :=
  match t.dimensions with
  | 0 => none
  | n + 1 => some (arrayOf t.elementType n)

/-- The type of a value of some type with indices after it, its dimensions
gathered in one array. There may be too many indices. -/
def indexed? : Nat → JavaType → Option JavaType
  | 0, t => some (arrayOf t.elementType t.dimensions)
  | n + 1, t => t.component?.bind (indexed? n)

theorem indexed?_eq_some (n m : Nat) {t : JavaType} (h : n + m = t.dimensions) :
    indexed? n t = some (arrayOf t.elementType m) := by
  induction n generalizing t with
  | zero => rw [indexed?, ← h, Nat.zero_add]
  | succ n ih =>
    have hdims : t.dimensions = (n + m) + 1 := by omega
    have hcomponent : t.component? = some (arrayOf t.elementType (n + m)) := by
      rw [component?, hdims]
    have hrest : n + m = (arrayOf t.elementType (n + m)).dimensions := by
      rw [dimensions_arrayOf, dimensions_elementType, Nat.zero_add]
    calc indexed? (n + 1) t
        = t.component?.bind (indexed? n) := rfl
      _ = indexed? n (arrayOf t.elementType (n + m)) := by rw [hcomponent, Option.bind_some]
      _ = some (arrayOf t.elementType m) := by
        rw [ih hrest, elementType_arrayOf, elementType_elementType]

end JavaType

/-! ### Typed bodies -/

/-- `F.HasType first uses type` says that uses with dots between them, the
first one of the whole chain or not, are an expression of a type: all are
calls; a use before a dot has as many indices as its link has dimensions, and
what follows is a visible member of the single value they pick; and the last
use has the type. -/
inductive Facts.HasType (F : Facts) : Bool → List Use → JavaType → Prop where
  | last {first : Bool} {u : Use} {type : JavaType} (call : u.link.Calls first u.call)
      (value : JavaType.indexed? u.indices.length u.link.type = some type) :
      F.HasType first [u] type
  | dot {first : Bool} {u v : Use} {us : List Use} {receiver type : JavaType}
      (call : u.link.Calls first u.call) (whole : u.indices.length = u.link.type.dimensions)
      (value : JavaType.indexed? u.indices.length u.link.type = some receiver)
      (single : receiver.isArray = false) (offers : F.Offers receiver v.link)
      (rest : F.HasType false (v :: us) type) : F.HasType first (u :: v :: us) type

/-- The link counts the dimensions of its value, as each link does that is made
for a member. -/
def Link.Counted (l : Link) : Prop := l.dims = l.type.dimensions

/-- The links that a request has its chains start with count their dimensions. -/
theorem Request.counted_starts (F : Facts) (r : Request) : ∀ l ∈ r.starts F, l.Counted :=
  fun l hl => (isMade_starts F r l hl).dims_eq

variable {F : Facts} {L : Limits} {starts : List Link}

theorem Facts.Admits.counted {ls : List Link} (h : F.Admits L starts ls)
    (counted : ∀ l ∈ starts, l.Counted) : ∀ l ∈ ls, l.Counted :=
  h.forall_links counted fun _ _ offers => offers.isMade.dims_eq

/-- What is written for a row of links that follow each other, from which no
more is kept than the last one has, is an expression. -/
theorem Facts.exists_hasType (F : Facts) (kept : Nat) : ∀ (ls : List Link) (first : Bool)
    (before : Draft.Counts), ls.IsChain F.Follows → (∀ l ∈ ls, l.Counted) →
    ∀ k, ls.getLast? = some k → kept ≤ k.dims →
      ∃ uses last, uses.map Use.link = ls ∧ uses.getLast? = some last ∧
        last.indices.length + kept = k.type.dimensions ∧
        Draft.write before (Chain.bodyDrafts first kept ls) = ".".intercalate (uses.map Use.text) ∧
        F.HasType first uses (JavaType.arrayOf k.type.elementType kept)
  | [], _, _, _, _, _, hlast, _ => by cases hlast
  | [l], first, before, _, counted, k, hlast, hkept => by
    obtain rfl : l = k := by simpa using hlast
    have hdims : l.dims = l.type.dimensions := counted l List.mem_cons_self
    obtain ⟨u, rfl, hcall, hindices, hwrite⟩ := l.exists_use first (l.holes true kept) before
    have hcount : u.indices.length + kept = u.link.type.dimensions := by
      rw [hindices, Link.holes, if_pos rfl]
      omega
    refine ⟨[u], u, rfl, rfl, hcount, ?_, .last hcall (JavaType.indexed?_eq_some _ _ hcount)⟩
    rw [Chain.bodyDrafts, hwrite, List.map_singleton, String.intercalate_singleton]
  | l :: l' :: ls, first, before, follows, counted, k, hlast, hkept => by
    obtain ⟨hfollows, hrest⟩ := List.isChain_cons_cons.1 follows
    have hdims : l.dims = l.type.dimensions := counted l List.mem_cons_self
    obtain ⟨u, rfl, hcall, hindices, hwrite⟩ := l.exists_use first (l.holes false kept) before
    -- the numbers of the holes go on where those of the first use end
    obtain ⟨uses, last, hlinks, hlast', hcount, hbody, htype⟩ := exists_hasType F kept (l' :: ls) false
      (Draft.after before (u.link.drafts first (u.link.holes false kept))) hrest
      (fun m hm => counted m (List.mem_cons_of_mem _ hm)) k (by simpa using hlast) hkept
    cases uses with
    | nil => cases hlinks
    | cons v us =>
      obtain ⟨rfl, hlinks'⟩ := List.cons.inj hlinks
      have hwhole : u.indices.length = u.link.type.dimensions := by
        rw [hindices, Link.holes, if_neg Bool.false_ne_true, hdims]
      have hvalue : JavaType.indexed? u.indices.length u.link.type = some u.link.type.elementType :=
        JavaType.indexed?_eq_some _ 0 hwhole
      refine ⟨u :: v :: us, last, ?_, ?_, hcount, ?_, ?_⟩
      · rw [List.map_cons, List.map_cons, hlinks']
      · simpa using hlast'
      · calc Draft.write before (Chain.bodyDrafts first kept (u.link :: v.link :: ls))
            = u.text ++ ("." ++ ".".intercalate ((v :: us).map Use.text)) := by
              rw [Chain.bodyDrafts, Draft.write_append, Draft.write_text, hwrite, hbody]
          _ = ".".intercalate ((u :: v :: us).map Use.text) := by
              simp only [List.map_cons, String.intercalate_cons_cons, String.append_assoc]
      · exact .dot hcall hwhole hvalue u.link.type.isArray_elementType hfollows htype

/-- The chain's body is well typed where a value of a type is asked for: it is
the given uses of its links, the last of which keeps the type's dimensions; as
an expression it has the last value's element in these dimensions, and that
may stand for the type. -/
structure Chain.WellTyped (F : Facts) (supertypes : JavaType → List String) (type : JavaType)
    (c : Chain) (uses : List Use) (last : Use) : Prop where
  dims : c.keptDims = type.dimensions
  body : (Snippet.ofChain c).body = ".".intercalate (uses.map Use.text)
  links : uses.map Use.link = c.links
  getLast : uses.getLast? = some last
  kept : last.indices.length + type.dimensions = last.link.type.dimensions
  hasType : F.HasType true uses (JavaType.arrayOf last.link.type.elementType type.dimensions)
  assignable : JavaType.assignable supertypes
    (JavaType.arrayOf last.link.type.elementType type.dimensions)
    (JavaType.arrayOf type.elementType type.dimensions) = true

/-- **What is inserted is well typed.** From starts that count their
dimensions, as those of every request do, and with the rules of assignability,
each chain that a search finds has a body that is well typed for one of the
types asked for. -/
theorem Facts.search_wellTyped {supertypes : JavaType → List String}
    (rules : F.assignable = JavaType.assignable supertypes) (I : Interruptions)
    (types : List JavaType) (counted : ∀ l ∈ starts, l.Counted) {c : Chain}
    (hc : c ∈ (F.search L I starts types).chains) :
    ∃ type ∈ types, ∃ uses last, c.WellTyped F supertypes type uses last := by
  obtain ⟨new, hnew, hvalid⟩ :=
    SearchState.findings_search_valid I starts types ({} : SearchState F L)
  have hmem : c ∈ new := by
    have hchains : (F.search L I starts types).chains = new := hnew
    rwa [hchains] at hc
  obtain ⟨hadmits, -, -, type, htype, -, hkept, l, hlast, hle, hprimitive, -, hassign⟩ := hvalid c hmem
  obtain ⟨uses, last, hlinks, hlast', hcount, hbody, hhasType⟩ :=
    F.exists_hasType c.keptDims c.links true [] hadmits.follows (hadmits.counted counted) l hlast hle
  have hl : last.link = l := by
    rw [← hlinks, List.getLast?_map, hlast'] at hlast
    exact Option.some.inj hlast
  subst hl
  rw [hkept] at hcount hhasType
  rw [rules] at hassign
  exact ⟨type, htype, uses, last, {
    dims := hkept
    body := hbody
    links := hlinks
    getLast := hlast'
    kept := hcount
    hasType := hhasType
    assignable := JavaType.assignable_arrayOf (JavaType.isArray_elementType _)
      (JavaType.isArray_elementType _) hprimitive hassign _ }⟩

/-- What is known of the two types of the circle, with the rules of
assignability for types above which there is none. -/
def Circle.ruled : Facts := { facts with assignable := JavaType.assignable fun _ => [] }

/-- What is inserted where arrays of objects are wanted, or else objects. -/
theorem Circle.wellTyped_circle :
    (∀ l ∈ [start "x"], l.Counted) ∧
    (ruled.search limits .none [start "x"]
        [.array (.named "java.lang.Object") 1, .named "java.lang.Object"]).chains.map
      (fun c => (Snippet.ofChain c).body) = ["x.bs", "x", "x.bs[$\x7bi\x7d].a"] ∧
    ∀ c ∈ (ruled.search limits .none [start "x"]
        [.array (.named "java.lang.Object") 1, .named "java.lang.Object"]).chains,
      ∃ type ∈ [.array (.named "java.lang.Object") 1, .named "java.lang.Object"],
        ∃ uses last, c.WellTyped ruled (fun _ => []) type uses last := by
  have counted : ∀ l ∈ [start "x"], l.Counted := by
    intro l hl
    rw [List.mem_singleton.1 hl]
    rfl
  exact ⟨counted, by decide, fun c hc => Facts.search_wellTyped rfl .none _ counted hc⟩

end CallChain
