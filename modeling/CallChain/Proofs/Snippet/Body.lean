/-
# How a body reads

The body of a chain is the uses of its links with dots between them. A use
calls the member, with a hole for each argument, and goes on with a pair of
brackets around a hole for each index. The numbers of the holes run through
all uses; apart from them, each use hangs on its link alone.

Key definitions: `Use`, `Use.text`, `Link.Calls`, `Draft.write`.
Key theorem: `Link.exists_use`.
-/
import CallChain.Snippet

namespace CallChain

namespace Draft

variable {before : Counts} {ds : List Draft} {name s : String}

/-! ### Numbered drafts -/

/-- How many holes of a name came, once those of the drafts came too. -/
def after (before : Counts) : List Draft → Counts
  | [] => before
  | .text _ :: ds => after before ds
  | .hole name :: ds => after (count name before) ds

/-- The drafts as they stand in a body, their holes numbered. -/
def write (before : Counts) (ds : List Draft) : String :=
  String.join ((number before ds).map Piece.render)

theorem number_append (before : Counts) (ds es : List Draft) :
    number before (ds ++ es) = number before ds ++ number (after before ds) es := by
  induction ds generalizing before with
  | nil => rfl
  | cons d ds ih =>
    cases d with
    | text s => rw [List.cons_append, number, number, after, ih, List.cons_append]
    | hole name => rw [List.cons_append, number, number, after, ih, List.cons_append]

theorem write_append (before : Counts) (ds es : List Draft) :
    write before (ds ++ es) = write before ds ++ write (after before ds) es := by
  rw [write, number_append, List.map_append, String.join_append]
  rfl

theorem write_nil : write before [] = "" := by
  rw [write, number, List.map_nil, String.join_nil]

theorem write_text : write before (.text s :: ds) = s ++ write before ds := by
  rw [write, number, List.map_cons, String.join_cons]
  rfl

theorem write_hole : write before (.hole name :: ds) =
    (Piece.hole name ((before.lookup name).getD 0 + 1)).render ++ write (count name before) ds := by
  rw [write, number, List.map_cons, String.join_cons]
  rfl

/-! ### Holes for arguments and indices -/

/-- The hole for an argument in a body. -/
def argumentText (type : JavaType) (nth : Nat) : String := (Piece.hole (holeName type) nth).render

/-- The hole for an index in a body, with its brackets. -/
def indexText (nth : Nat) : String := "[" ++ (Piece.hole "i" nth).render ++ "]"

theorem write_arguments : ∀ (types : List JavaType) (before : Counts),
    ∃ nths : List Nat, nths.length = types.length ∧
      write before (arguments types) = ", ".intercalate (List.zipWith argumentText types nths)
  | [], _ => ⟨[], rfl, by simp [arguments, write_nil]⟩
  | [type], before => by
    refine ⟨[(before.lookup (holeName type)).getD 0 + 1], rfl, ?_⟩
    simp [arguments, write_hole, write_nil, argumentText]
  | type :: next :: types, before => by
    obtain ⟨nths, hlen, hwrite⟩ := write_arguments (next :: types) (count (holeName type) before)
    refine ⟨((before.lookup (holeName type)).getD 0 + 1) :: nths, by simp [hlen], ?_⟩
    cases nths with
    | nil => cases hlen
    | cons nth nths =>
      rw [arguments, write_hole, write_text, hwrite]
      simp [argumentText, String.append_assoc]

theorem write_indices (n : Nat) (before : Counts) :
    ∃ nths : List Nat, nths.length = n ∧
      write before (indices n) = String.join (nths.map indexText) := by
  induction n generalizing before with
  | zero => exact ⟨[], rfl, by simp [indices, write_nil]⟩
  | succ n ih =>
    obtain ⟨nths, hlen, hwrite⟩ := ih (count "i" before)
    refine ⟨((before.lookup "i").getD 0 + 1) :: nths, by simp [hlen], ?_⟩
    rw [indices, write_text, write_hole, write_text, hwrite]
    simp [indexText, String.append_assoc]

end Draft

/-! ### Uses of links -/

/-- The use of a link in a body: what calls its member, and the numbers of the
holes for the indices after it. -/
structure Use where
  link : Link
  call : String
  indices : List Nat

/-- The use as it stands in a body. -/
def Use.text (u : Use) : String := u.call ++ String.join (u.indices.map Draft.indexText)

/-- `l.Calls first s` says that `s` calls the member of `l`: by its name, or by
its name and as many arguments as it has parameters. -/
inductive Link.Calls (first : Bool) (l : Link) : String → Prop where
  | name (h : l.kind ≠ .method) : l.Calls first (l.qualifier first ++ l.member.name)
  | method (h : l.kind = .method) (nths : List Nat)
      (holes : nths.length = l.member.parameterTypes.length) :
      l.Calls first (l.member.name ++ "(" ++ ", ".intercalate
        (List.zipWith Draft.argumentText l.member.parameterTypes nths) ++ ")")

theorem Link.drafts_of_kind {l : Link} {first : Bool} {holes : Nat} (h : l.kind = .method) :
    l.drafts first holes = .text (l.member.name ++ "(") ::
      (Draft.arguments l.member.parameterTypes ++ .text ")" :: Draft.indices holes) := by
  simp [drafts, h]

theorem Link.drafts_of_kind_ne {l : Link} {first : Bool} {holes : Nat} (h : l.kind ≠ .method) :
    l.drafts first holes = .text (l.qualifier first ++ l.member.name) :: Draft.indices holes := by
  unfold drafts
  cases hkind : l.kind with
  | method => exact absurd hkind h
  | _ => rfl

/-- What is written for a link is a use of it with the given number of indices. -/
theorem Link.exists_use (l : Link) (first : Bool) (holes : Nat) (before : Draft.Counts) :
    ∃ u : Use, u.link = l ∧ l.Calls first u.call ∧ u.indices.length = holes ∧
      Draft.write before (l.drafts first holes) = u.text := by
  by_cases hkind : l.kind = .method
  · obtain ⟨args, hargs, hwrite⟩ := Draft.write_arguments l.member.parameterTypes before
    obtain ⟨nths, hlen, hindices⟩ :=
      Draft.write_indices holes (Draft.after before (Draft.arguments l.member.parameterTypes))
    refine ⟨⟨l, _, nths⟩, rfl, .method hkind args hargs, hlen, ?_⟩
    rw [drafts_of_kind hkind, Draft.write_text, Draft.write_append, Draft.write_text, hwrite, hindices, Use.text]
    simp only [String.append_assoc]
  · obtain ⟨nths, hlen, hindices⟩ := Draft.write_indices holes before
    refine ⟨⟨l, _, nths⟩, rfl, .name hkind, hlen, ?_⟩
    rw [drafts_of_kind_ne hkind, Draft.write_text, hindices]
    rfl

end CallChain
