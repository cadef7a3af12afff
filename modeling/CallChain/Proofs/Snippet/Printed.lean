/-
# Titles and printed chains

A chain is written out in two ways that know nothing of each other: in print, by
which a search tells chains apart, and in the title that a user sees. A title
has the brackets of the values besides. Without them it is the printed chain
exactly if the first link is no method that is reached through `this`, and each
link shows the label of its member (`Chain.bareTitle_eq_printed_iff`). Links
that are made for members always do; but a method that is reached through `this`
is printed after it, while its title and its body leave it out
(`Caller.this_left_out`).

No link of a title is longer than in print, so that the two texts can only be
the same if they are so link by link (`Text.NoLonger.eq_of_intercalate_eq`).

Key definitions: `Chain.bareTitle`, `Chain.direct`, `Link.ShowsLabel`,
`Link.ShowsThis`.
Key theorems: `Chain.bareTitle_eq_printed_iff`, `Chain.title_tells_printed`.
-/
import CallChain.Proofs.Snippet.Body
import CallChain.Proofs.Snippet.Title
import Mathlib.Data.List.Forall2

namespace CallChain

/-! ### Texts in a row -/

namespace Text

/-- Texts in a row of which none is longer than the other at its place. -/
abbrev NoLonger (ss ts : List String) : Prop := List.Forall₂ (fun s t => s.length ≤ t.length) ss ts

variable {sep : String} {ss ts : List String}

theorem NoLonger.length_intercalate_le (h : NoLonger ss ts) :
    (sep.intercalate ss).length ≤ (sep.intercalate ts).length := by
  induction h with
  | nil => exact Nat.le_refl _
  | cons hle hrest ih =>
    cases hrest with
    | nil => rwa [String.intercalate_singleton, String.intercalate_singleton]
    | cons _ _ =>
      simp only [String.intercalate_cons_cons, String.length_append] at ih ⊢
      omega

/-- Texts that are no longer than others are the same if they make one text. -/
theorem NoLonger.eq_of_intercalate_eq (h : NoLonger ss ts)
    (heq : sep.intercalate ss = sep.intercalate ts) : ss = ts := by
  induction h with
  | nil => rfl
  | @cons s t ss ts hle hrest ih =>
    have hlength : (sep.intercalate ss).length ≤ (sep.intercalate ts).length :=
      NoLonger.length_intercalate_le hrest
    cases hrest with
    | nil =>
      rw [String.intercalate_singleton, String.intercalate_singleton] at heq
      rw [heq]
    | @cons s' t' ss ts _ _ =>
      rw [String.intercalate_cons_cons, String.intercalate_cons_cons, String.append_assoc,
        String.append_assoc] at heq
      have htotal := congrArg String.length heq
      simp only [String.length_append] at htotal
      have hhead : s.toList.length = t.toList.length := by
        rw [String.length_toList, String.length_toList]
        omega
      have hlists := congrArg String.toList heq
      rw [String.toList_append, String.toList_append (s := t)] at hlists
      obtain ⟨hfirst, hrest⟩ := List.append_inj hlists hhead
      rw [String.toList_inj] at hfirst hrest
      rw [hfirst, ih ((String.append_right_inj sep).1 hrest)]

end Text

/-! ### Titles without the brackets of values -/

theorem Member.length_name_le_label (m : Member) : m.name.length ≤ m.label.length := by
  unfold label
  split
  · simp only [String.length_append]
    omega
  · exact Nat.le_refl _

theorem Link.length_titleText_le (l : Link) (first : Bool) :
    (l.titleText first).length ≤ (l.qualifier first ++ l.member.label).length := by
  rw [String.length_append]
  by_cases h : l.kind = .method
  · rw [titleText_of_kind h]
    omega
  · have hname := l.member.length_name_le_label
    rw [titleText_of_kind_ne h, String.length_append]
    omega

namespace Chain

/-- Links as they stand in a title, without the brackets of their values. -/
def bareTexts (first : Bool) : List Link → List String
  | [] => []
  | l :: ls => l.titleText first :: bareTexts false ls

/-- The title of a chain without the brackets of its values. -/
def bareTitle (c : Chain) : String := ".".intercalate (bareTexts true c.links)

theorem titleTexts_eq_zipWith (first : Bool) (ls : List Link) :
    titleTexts first ls =
      List.zipWith (fun s l => s ++ Text.copies l.dims "[]") (bareTexts first ls) ls := by
  induction ls generalizing first with
  | nil => rfl
  | cons l ls ih => rw [titleTexts, bareTexts, List.zipWith_cons_cons, ih]

theorem noLonger_bareTexts (first : Bool) (ls : List Link) :
    Text.NoLonger (bareTexts first ls) (labels first ls) := by
  induction ls generalizing first with
  | nil => exact .nil
  | cons l ls ih => exact .cons (l.length_titleText_le first) (ih false)

/-- Links show what is printed exactly if each shows its label, and the first of a
chain `this` if it is reached through it. -/
theorem bareTexts_eq_labels_iff {first : Bool} {ls : List Link} :
    bareTexts first ls = labels first ls ↔
      (∀ l ∈ ls, l.ShowsLabel) ∧ (first = true → ∀ l ∈ ls.head?, l.ShowsThis) := by
  induction ls generalizing first with
  | nil => simp [bareTexts, labels]
  | cons l ls ih =>
    rw [bareTexts, labels, List.cons.injEq, Link.titleText_eq_iff, ih, List.forall_mem_cons]
    constructor
    · rintro ⟨⟨hlabel, hthis⟩, hlabels, -⟩
      exact ⟨⟨hlabel, hlabels⟩, fun hfirst k hk => Option.some.inj hk ▸ hthis hfirst⟩
    · rintro ⟨⟨hlabel, hlabels⟩, hthis⟩
      exact ⟨⟨hlabel, fun hfirst => hthis hfirst l rfl⟩, hlabels, fun h => by cases h⟩

/-- A title without the brackets of values is the printed chain exactly if each
link shows its label, and the first `this` if it is reached through it. -/
theorem bareTitle_eq_printed_iff (c : Chain) : c.bareTitle = c.printed ↔
    (∀ l ∈ c.links, l.ShowsLabel) ∧ ∀ l ∈ c.links.head?, l.ShowsThis := by
  have hinj : c.bareTitle = c.printed ↔ bareTexts true c.links = labels true c.links := by
    rw [bareTitle, printed_eq]
    exact ⟨(noLonger_bareTexts true c.links).eq_of_intercalate_eq, congrArg _⟩
  rw [hinj, bareTexts_eq_labels_iff]
  simp only [true_implies]

end Chain

/-! ### Chains that are reached through `this` -/

namespace Link

/-- The link reached without `this`. -/
def direct (l : Link) : Link := { l with ofThis := false }

/-- What stands before the link, if it is the first, in a title and in a body:
nothing before a method. -/
def shownReach (l : Link) : String := if l.kind = .method then "" else l.qualifier true

theorem qualifier_direct (l : Link) (first : Bool) : l.direct.qualifier first = "" := by
  rw [qualifier, direct, Bool.and_false, if_neg Bool.false_ne_true]

theorem titleText_true (l : Link) : l.titleText true = l.shownReach ++ l.direct.titleText true := by
  unfold shownReach
  by_cases h : l.kind = .method
  · have hdirect : l.direct.kind = .method := h
    rw [if_pos h, titleText_of_kind h, titleText_of_kind hdirect, String.empty_append]
    rfl
  · have hdirect : l.direct.kind ≠ .method := h
    rw [if_neg h, titleText_of_kind_ne h, titleText_of_kind_ne hdirect, qualifier_direct,
      String.empty_append]
    rfl

theorem write_drafts_true (l : Link) (holes : Nat) (ds : List Draft) :
    Draft.write [] (l.drafts true holes ++ ds) =
      l.shownReach ++ Draft.write [] (l.direct.drafts true holes ++ ds) := by
  unfold shownReach
  by_cases h : l.kind = .method
  · have hdirect : l.direct.kind = .method := h
    rw [if_pos h, drafts_of_kind h, drafts_of_kind hdirect, String.empty_append]
    rfl
  · have hdirect : l.direct.kind ≠ .method := h
    rw [if_neg h, drafts_of_kind_ne h, drafts_of_kind_ne hdirect, qualifier_direct, List.cons_append,
      List.cons_append, Draft.write_text, Draft.write_text, String.empty_append, String.append_assoc]
    rfl

end Link

namespace Chain

/-- The chain with its first link reached without `this`. -/
def direct (c : Chain) : Chain :=
  match c.links with
  | [] => c
  | l :: ls => { c with links := l.direct :: ls }

/-- What the printed chain starts with: `this`, if the first link is reached
through it. -/
def reach (c : Chain) : String :=
  match c.links with
  | [] => ""
  | l :: _ => l.qualifier true

/-- What the title and the body start with. -/
def shownReach (c : Chain) : String :=
  match c.links with
  | [] => ""
  | l :: _ => l.shownReach

theorem printed_eq_reach_append (c : Chain) : c.printed = c.reach ++ c.direct.printed := by
  obtain ⟨ls, kept⟩ := c
  cases ls with
  | nil => rfl
  | cons l ls =>
    have hdirect : ".".intercalate ((l.direct.qualifier true ++ l.member.label) :: labels false ls) =
        ".".intercalate (l.member.label :: labels false ls) := by
      rw [Link.qualifier_direct, String.empty_append]
    rw [printed_eq, printed_eq, labels, String.intercalate_cons_append, ← hdirect]
    rfl

theorem title_eq_shownReach_append (c : Chain) : c.title = c.shownReach ++ c.direct.title := by
  obtain ⟨ls, kept⟩ := c
  cases ls with
  | nil => rfl
  | cons l ls =>
    rw [title, titleTexts, Link.titleText_true, String.append_assoc, String.intercalate_cons_append]
    rfl

theorem body_eq_shownReach_append (c : Chain) : c.body = c.shownReach ++ c.direct.body := by
  obtain ⟨ls, kept⟩ := c
  match ls with
  | [] => rfl
  | [l] =>
    have hbody := l.write_drafts_true (l.holes true kept) []
    rw [List.append_nil, List.append_nil] at hbody
    exact hbody
  | l :: k :: ls =>
    exact l.write_drafts_true (l.holes false kept) (.text "." :: bodyDrafts false kept (k :: ls))

/-- A title and a body say what the first link is reached through exactly if it is
not a method reached through `this`. -/
theorem shownReach_eq_reach_iff (c : Chain) :
    c.shownReach = c.reach ↔ ∀ l ∈ c.links.head?, l.ShowsThis := by
  obtain ⟨ls, kept⟩ := c
  cases ls with
  | nil => simp [shownReach, reach]
  | cons l ls =>
    have hfirst : l.shownReach = l.qualifier true ↔ l.ShowsThis := by
      unfold Link.shownReach Link.ShowsThis
      by_cases h : l.kind = .method
      · rw [if_pos h, eq_comm, Link.qualifier_eq_empty_iff]
        simp [h]
      · simp [h]
    simpa [shownReach, reach] using hfirst

/-- **What a title tells of the printed chain.** A title has the brackets of each
value behind what it shows of the link. Without them it is the printed chain
exactly if each link shows its label, and the first `this` if it is reached
through it; of links that are made for members only the latter can fail. What a
chain says of `this`, in print, in its title and in its body, stands before what
it says if its first link is reached directly; title and body say the same, and
the same as the printed chain exactly if the first link shows `this`. -/
theorem title_tells_printed (c : Chain) :
    c.title = ".".intercalate (List.zipWith (fun s l => s ++ Text.copies l.dims "[]")
      (bareTexts true c.links) c.links) ∧
    (c.bareTitle = c.printed ↔
      (∀ l ∈ c.links, l.ShowsLabel) ∧ ∀ l ∈ c.links.head?, l.ShowsThis) ∧
    ((∀ l ∈ c.links, l.IsMade) → (c.bareTitle = c.printed ↔ ∀ l ∈ c.links.head?, l.ShowsThis)) ∧
    (c.printed = c.reach ++ c.direct.printed ∧ c.title = c.shownReach ++ c.direct.title ∧
      c.body = c.shownReach ++ c.direct.body) ∧
    (c.shownReach = c.reach ↔ ∀ l ∈ c.links.head?, l.ShowsThis) := by
  refine ⟨?_, c.bareTitle_eq_printed_iff, fun made => ?_,
    ⟨c.printed_eq_reach_append, c.title_eq_shownReach_append, c.body_eq_shownReach_append⟩,
    c.shownReach_eq_reach_iff⟩
  · rw [title, titleTexts_eq_zipWith]
  · rw [bareTitle_eq_printed_iff, and_iff_right fun l hl => (made l hl).showsLabel]

end Chain

namespace Caller

def make : Member := .method "p.Caller" "make" [] (.named "p.Foo")

/-- A method of the type around the place, reached through `this`. -/
def chain : Chain := { links := [.ofMember make .method (.named "p.Foo") 0 true], keptDims := 0 }

/-- The printed chain has `this`; its title and its body do not. -/
theorem this_left_out :
    (∀ l ∈ chain.links, l.IsMade) ∧ chain.printed = "this.make()" ∧ chain.title = "make()" ∧
    chain.bareTitle = "make()" ∧ chain.body = "make()" ∧ chain.bareTitle ≠ chain.printed := by
  refine ⟨?_, by decide, by decide, by decide, by decide, by decide⟩
  intro l hl
  obtain rfl := List.mem_singleton.1 hl
  exact ⟨make, .named "p.Foo", true, rfl⟩

def rows : Member := .field "p.Caller" "rows" (.array (.named "p.Row") 2)

def find : Member :=
  .method "p.Row" "find" [.array (.plain "int") 1] (.array (.named "p.Cell") 1)

/-- A field reached through `this`, and a method with an array for its argument. -/
def cells : Chain where
  links := [.ofMember rows .field (.array (.named "p.Row") 2) 2 true,
    .ofMember find .method (.array (.named "p.Cell") 1) 1 false]
  keptDims := 1

/-- The brackets of the argument belong to the label and stay. -/
theorem cells_told :
    (∀ l ∈ cells.links, l.IsMade) ∧ cells.title = "this.rows[][].find(int[])[]" ∧
    cells.body = "this.rows[$\x7bi\x7d][$\x7bi2\x7d].find($\x7bint\x7d)" ∧
    cells.bareTitle = "this.rows.find(int[])" ∧ cells.bareTitle = cells.printed := by
  have hmade : ∀ l ∈ cells.links, l.IsMade := by
    intro l hl
    rcases List.mem_cons.1 hl with rfl | hl
    · exact ⟨rows, .array (.named "p.Row") 2, true, rfl⟩
    · obtain rfl := List.mem_singleton.1 hl
      exact ⟨find, .array (.named "p.Cell") 1, false, rfl⟩
  obtain ⟨-, -, hprinted, -⟩ := cells.title_tells_printed
  refine ⟨hmade, by decide, by decide, by decide, (hprinted hmade).2 ?_⟩
  intro l hl
  obtain rfl := Option.some.inj hl
  exact fun h => by cases h

end Caller

end CallChain
