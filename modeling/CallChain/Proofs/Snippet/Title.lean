/-
# What a title shows

A title has all that the chain has in print, and the brackets of its values
besides. Where names are plain, without parentheses and brackets of their own,
these are the brackets outside of parentheses: those of parameters that are
arrays stand inside. Without them a title is the chain as it is printed, so
that chains with one title are printed alike.

Key definitions: `Text.bare`, `JavaType.names`, `Member.IsPlain`, `Chain.labels`,
`Chain.IsPlain`.
Key theorems: `Chain.IsPlain.bare_title`, `Chain.IsPlain.printed_eq_of_title_eq`.
-/
import CallChain.Proofs.Text.Marks
import CallChain.Snippet

namespace CallChain

/-! ### Texts without brackets -/

namespace Text

/-- The characters without the brackets outside of parentheses; `inside` tells
whether a parenthesis is open. -/
def bare (inside : Bool) : List Char → List Char
  | [] => []
  | c :: cs =>
    if inside then c :: bare (c != ')') cs
    else if isBracket c then bare false cs
    else c :: bare (c == '(') cs

variable {cs rest : List Char}

theorem bare_append (parentheses : ∀ c ∈ cs, isParenthesis c = false)
    (brackets : ∀ c ∈ cs, isBracket c = false) :
    bare false (cs ++ rest) = cs ++ bare false rest := by
  induction cs with
  | nil => rfl
  | cons c cs ih =>
    rw [List.forall_mem_cons] at parentheses brackets
    obtain ⟨hparenthesis, hparentheses⟩ := parentheses
    obtain ⟨hbracket, hbrackets⟩ := brackets
    have hopen : (c == '(') = false := (Bool.or_eq_false_iff.1 hparenthesis).1
    rw [List.cons_append, List.cons_append, bare, hbracket, hopen, ih hparentheses hbrackets]
    rfl

theorem bare_inside (parentheses : ∀ c ∈ cs, isParenthesis c = false) :
    bare true (cs ++ ')' :: rest) = cs ++ ')' :: bare false rest := by
  induction cs with
  | nil => rfl
  | cons c cs ih =>
    rw [List.forall_mem_cons] at parentheses
    obtain ⟨hparenthesis, hparentheses⟩ := parentheses
    have hclose : (c != ')') = true := by
      rw [bne, (Bool.or_eq_false_iff.1 hparenthesis).2]
      rfl
    rw [List.cons_append, List.cons_append, bare, hclose, ih hparentheses]
    rfl

theorem bare_copies (n : Nat) :
    bare false ((copies n "[]").toList ++ rest) = bare false rest := by
  rw [copies, String.toList_join]
  induction n with
  | zero => rfl
  | succ n ih =>
    rw [List.replicate_succ, List.flatMap_cons, List.append_assoc]
    exact ih

end Text

/-! ### Plain members -/

theorem JavaName.avoids_simple {p : Char → Bool} {name : String} (h : Text.Avoids p name) :
    Text.Avoids p (simple name) := by
  intro c hc
  rw [simple, Text.afterLast, String.toList_ofList, List.mem_reverse] at hc
  exact h c (List.mem_reverse.1 ((List.takeWhile_prefix _).subset hc))

namespace JavaType

mutual

/-- The names that a type is made of. -/
def names : JavaType → List String
  | plain name => [name]
  | named name => [name]
  | applied base args => base.names ++ namesOfAll args
  | array element _ => element.names
  | unresolved => []

/-- The names that types are made of. -/
def namesOfAll : List JavaType → List String
  | [] => []
  | t :: ts => t.names ++ namesOfAll ts

end

mutual

theorem avoids_shortText : ∀ {t : JavaType}, (∀ name ∈ t.names, Text.Avoids Text.isParenthesis name) →
    Text.Avoids Text.isParenthesis t.shortText
  | plain name, h => h name List.mem_cons_self
  | named name, h => JavaName.avoids_simple (h name List.mem_cons_self)
  | applied base args, h => by
    rw [names, List.forall_mem_append] at h
    obtain ⟨hbase, hargs⟩ := h
    rw [shortText]
    exact (((avoids_shortText hbase).append (by decide)).append (avoids_shortTexts hargs)).append
      (by decide)
  | array element dims, h => by
    rw [shortText]
    exact (avoids_shortText (t := element) h).append (Text.Avoids.copies (by decide) dims)
  | unresolved, _ => by decide

theorem avoids_shortTexts : ∀ {ts : List JavaType},
    (∀ name ∈ namesOfAll ts, Text.Avoids Text.isParenthesis name) →
    Text.Avoids Text.isParenthesis (shortTexts ts)
  | [], _ => by decide
  | [t], h => by
    rw [namesOfAll, List.forall_mem_append] at h
    exact avoids_shortText h.1
  | t :: u :: ts, h => by
    rw [namesOfAll, List.forall_mem_append] at h
    obtain ⟨ht, hts⟩ := h
    rw [shortTexts]
    exact ((avoids_shortText ht).append (by decide)).append (avoids_shortTexts hts)

end

end JavaType

namespace Member

theorem name_eq_label_iff {m : Member} : m.name = m.label ↔ m.isInvocable = false := by
  unfold label
  cases m.isInvocable with
  | false => simp
  | true =>
    have hlonger : m.name.length < (m.name ++ "(" ++
        ", ".intercalate (m.parameterTypes.map JavaType.shortText) ++ ")").length := by
      have hmark : "(".length = 1 := rfl
      simp only [String.length_append]
      omega
    simp only [↓reduceIte, Bool.true_eq_false, iff_false]
    intro h
    rw [← h] at hlonger
    exact absurd hlonger (Nat.lt_irrefl _)

/-- A member is plain if its name has neither parentheses nor brackets, and no
name in the types of its parameters has parentheses. -/
structure IsPlain (m : Member) : Prop where
  parentheses : Text.Avoids Text.isParenthesis m.name
  brackets : Text.Avoids Text.isBracket m.name
  types : ∀ type ∈ m.parameterTypes, ∀ name ∈ type.names, Text.Avoids Text.isParenthesis name

instance (m : Member) : Decidable m.IsPlain :=
  decidable_of_iff
    (Text.Avoids Text.isParenthesis m.name ∧ Text.Avoids Text.isBracket m.name ∧
      ∀ type ∈ m.parameterTypes, ∀ name ∈ type.names, Text.Avoids Text.isParenthesis name)
    ⟨fun ⟨h, k, l⟩ => ⟨h, k, l⟩, fun ⟨h, k, l⟩ => ⟨h, k, l⟩⟩

/-- The label of a plain member keeps its brackets: they are all inside of
parentheses. -/
theorem IsPlain.bare_label {m : Member} (h : m.IsPlain) (rest : List Char) :
    Text.bare false (m.label.toList ++ rest) = m.label.toList ++ Text.bare false rest := by
  unfold label
  split
  · have hargs : Text.Avoids Text.isParenthesis
        (", ".intercalate (m.parameterTypes.map JavaType.shortText)) := by
      refine Text.Avoids.intercalate (by decide) fun s hs => ?_
      obtain ⟨type, htype, rfl⟩ := List.mem_map.1 hs
      exact JavaType.avoids_shortText (h.types type htype)
    simp only [String.toList_append, List.append_assoc]
    rw [Text.bare_append h.parentheses h.brackets]
    exact congrArg (m.name.toList ++ '(' :: ·) (Text.bare_inside hargs)
  · exact Text.bare_append h.parentheses h.brackets

end Member

/-! ### Titles -/

namespace Link

variable {l : Link} {first : Bool}

theorem avoids_qualifier {p : Char → Bool} (h : Text.Avoids p "this.") :
    Text.Avoids p (l.qualifier first) := by
  unfold qualifier
  split
  · exact h
  · exact fun c hc => absurd hc (by simp)

/-- The title of the link shows the label of its member: it calls a method, or
its member is none that takes arguments. -/
def ShowsLabel (l : Link) : Prop := l.kind = .method ∨ l.member.isInvocable = false

/-- The title of the link shows `this` if the link is reached through it. -/
def ShowsThis (l : Link) : Prop := l.kind = .method → l.ofThis = false

theorem showsThis_of_kind (this : l.ofThis = true → l.kind = .field) : l.ShowsThis := by
  intro h
  cases hthis : l.ofThis with
  | false => rfl
  | true =>
    rw [this hthis] at h
    cases h

theorem IsMade.showsLabel (h : l.IsMade) : l.ShowsLabel := by
  have hkind := h.kind_eq
  unfold ShowsLabel Member.isInvocable
  cases hmember : l.member.kind with
  | field => exact .inr rfl
  | localVar => exact .inr rfl
  | method =>
    rw [hmember] at hkind
    exact .inl (Option.some.inj hkind).symm
  | constructor =>
    rw [hmember] at hkind
    cases hkind

theorem titleText_of_kind (h : l.kind = .method) : l.titleText first = l.member.label := by
  rw [titleText, h]

theorem titleText_of_kind_ne (h : l.kind ≠ .method) :
    l.titleText first = l.qualifier first ++ l.member.name := by
  unfold titleText
  cases hkind : l.kind with
  | method => exact absurd hkind h
  | _ => rfl

theorem qualifier_eq_empty_iff : l.qualifier first = "" ↔ (first = true → l.ofThis = false) := by
  unfold qualifier
  cases first <;> cases l.ofThis <;> simp

/-- A link is the same in a title and in print exactly if its title shows the
label, and `this` where it is the first. -/
theorem titleText_eq_iff : l.titleText first = l.qualifier first ++ l.member.label ↔
    l.ShowsLabel ∧ (first = true → l.ShowsThis) := by
  unfold ShowsLabel ShowsThis
  by_cases h : l.kind = .method
  · rw [titleText_of_kind h, eq_comm, String.append_eq_right_iff, qualifier_eq_empty_iff]
    simp [h]
  · rw [titleText_of_kind_ne h, String.append_right_inj, Member.name_eq_label_iff]
    simp [h]

theorem bare_titleText (made : l.IsMade) (plain : l.member.IsPlain)
    (this : first = true → l.ofThis = true → l.kind = .field) (rest : List Char) :
    Text.bare false ((l.titleText first ++ Text.copies l.dims "[]").toList ++ rest) =
      (l.qualifier first ++ l.member.label).toList ++ Text.bare false rest := by
  rw [titleText_eq_iff.2 ⟨made.showsLabel, fun hfirst => showsThis_of_kind (this hfirst)⟩]
  simp only [String.toList_append, List.append_assoc]
  rw [Text.bare_append (avoids_qualifier (by decide)) (avoids_qualifier (by decide)),
    plain.bare_label, Text.bare_copies]

end Link

namespace Chain

/-- The labels of links, the first after `this` if it has to be. -/
def labels (first : Bool) : List Link → List String
  | [] => []
  | l :: ls => (l.qualifier first ++ l.member.label) :: labels false ls

theorem labels_false (ls : List Link) : labels false ls = ls.map fun l => l.member.label := by
  induction ls with
  | nil => rfl
  | cons l ls ih =>
    rw [labels, ih, List.map_cons]
    simp [Link.qualifier]

theorem printed_eq (c : Chain) : c.printed = ".".intercalate (labels true c.links) := by
  unfold printed
  cases c.links with
  | nil => rfl
  | cons l ls =>
    simp only [labels, labels_false, Link.qualifier, Bool.true_and, List.map_cons,
      String.intercalate_cons_append]
    split
    · rfl
    · rw [String.empty_append]

theorem bare_titleTexts : ∀ {first : Bool} {ls : List Link}, (∀ l ∈ ls, l.IsMade) →
    (∀ l ∈ ls, l.member.IsPlain) →
    (first = true → ∀ l ∈ ls.head?, l.ofThis = true → l.kind = .field) →
    Text.bare false (".".intercalate (titleTexts first ls)).toList =
      (".".intercalate (labels first ls)).toList
  | _, [], _, _, _ => by simp [titleTexts, labels, Text.bare]
  | first, l :: ls, made, plain, this => by
    rw [List.forall_mem_cons] at made plain
    obtain ⟨hmade, hmades⟩ := made
    obtain ⟨hplain, hplains⟩ := plain
    have hlink := Link.bare_titleText hmade hplain fun hfirst => this hfirst l rfl
    have hrest : Text.bare false (".".intercalate (titleTexts false ls)).toList =
        (".".intercalate (labels false ls)).toList :=
      bare_titleTexts hmades hplains (fun h => by cases h)
    cases ls with
    | nil =>
      have h := hlink []
      rw [List.append_nil, Text.bare, List.append_nil] at h
      rw [titleTexts, titleTexts, labels, labels, String.intercalate_singleton,
        String.intercalate_singleton, h]
    | cons k ls =>
      have hparentheses : Text.Avoids Text.isParenthesis "." := by decide
      have hbrackets : Text.Avoids Text.isBracket "." := by decide
      rw [titleTexts, labels] at hrest
      rw [titleTexts, titleTexts, labels, labels, String.intercalate_cons_cons,
        String.intercalate_cons_cons, String.toList_append, String.toList_append, List.append_assoc,
        hlink, Text.bare_append hparentheses hbrackets, hrest]
      simp only [String.toList_append, List.append_assoc]

/-- A chain is plain if its links are made for plain members, and its first is
reached through `this` only if it is a field. -/
structure IsPlain (c : Chain) : Prop where
  made : ∀ l ∈ c.links, l.IsMade
  members : ∀ l ∈ c.links, l.member.IsPlain
  this : ∀ l ∈ c.links.head?, l.ofThis = true → l.kind = .field

/-- A plain chain is printed as its title without the brackets outside of
parentheses. -/
theorem IsPlain.bare_title {c : Chain} (h : c.IsPlain) :
    Text.bare false c.title.toList = c.printed.toList := by
  rw [printed_eq]
  exact bare_titleTexts h.made h.members fun _ => h.this

example : String.ofList (Text.bare false "this.rows[][].find(int[], E)[].id".toList) =
    "this.rows.find(int[], E).id" := by decide

/-- Plain chains with one title are printed alike. -/
theorem IsPlain.printed_eq_of_title_eq {c d : Chain} (hc : c.IsPlain) (hd : d.IsPlain)
    (h : c.title = d.title) : c.printed = d.printed := by
  rw [← String.toList_inj, ← hc.bare_title, ← hd.bare_title, h]

end Chain

end CallChain
