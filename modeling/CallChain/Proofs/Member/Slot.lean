/-
# What fills one slot

A member hides those of supertypes with its slot: a method those of its name and
parameters, a field those of its name and type. For methods the parenthesis
after the name tells the two parts of the slot apart. In the slot of a field
nothing stands between name and signature. Where names are identifiers, two
fields that differ can fill one slot in one way only: the name of one goes on
with the beginning of the other's signature, which then begins with the letter
before a name (`Member.RunsInto`). Fields that fill one slot so are taken for
one by a query for members, though their names differ.

Key definitions: `Member.IsWellNamed`, `Member.Replaces`, `Member.RunsInto`.
Key theorems: `Member.slot_eq_iff`, `Member.slot_merges`.
-/
import CallChain.Proofs.JavaType.Identifier
import CallChain.Proofs.Member.Key
import CallChain.Proofs.TypeTable.VisibleMembers

namespace CallChain

/-- What a signature has before the end that is a signature too begins with the
letter before a name, if it may stand in an identifier. -/
theorem IsSignature.head?_of_append {u v text : List Char} (hu : IsSignature u)
    (hv : IsSignature v) (h : u = text ++ v) (some_text : text ≠ [])
    (parts : ∀ c ∈ text, JavaName.isPart c = true) :
    text.head? = some 'L' ∨ text.head? = some 'T' := by
  obtain ⟨d, ds, rfl⟩ := List.exists_cons_of_ne_nil some_text
  cases hu with
  | letter single =>
    have hnil : ds ++ v = [] := (List.cons.inj h).2.symm
    exact absurd (List.append_eq_nil_iff.1 hnil).2 hv.ne_nil
  | name opens _ =>
    obtain rfl := (List.cons.inj h).1
    exact opens.imp (congrArg some) (congrArg some)
  | array _ =>
    obtain rfl := (List.cons.inj h).1
    exact absurd (parts '[' List.mem_cons_self) (by decide)

namespace Member

/-- A field or method whose names are identifiers. -/
structure IsWellNamed (m : Member) : Prop where
  kind : m.kind = .field ∨ m.kind = .method
  name : JavaName.isIdentifier m.name = true
  type : m.type.IsWellNamed
  parameters : ∀ type ∈ m.parameterTypes, type.IsWellNamed

instance (m : Member) : Decidable m.IsWellNamed :=
  decidable_of_iff
    ((m.kind = .field ∨ m.kind = .method) ∧ JavaName.isIdentifier m.name = true ∧
      m.type.IsWellNamed ∧ ∀ type ∈ m.parameterTypes, type.IsWellNamed)
    ⟨fun ⟨h, k, l, n⟩ => ⟨h, k, l, n⟩, fun ⟨h, k, l, n⟩ => ⟨h, k, l, n⟩⟩

/-- Declared one above the other, one of the members takes the place of the other:
they are fields of one name and signature, or methods of one name and list of
parameter signatures. -/
inductive Replaces (a b : Member) : Prop where
  | field (left : a.kind = .field) (right : b.kind = .field) (name : a.name = b.name)
      (type : a.type.signature = b.type.signature)
  | method (left : a.kind = .method) (right : b.kind = .method) (name : a.name = b.name)
      (parameters :
        a.parameterTypes.map JavaType.signature = b.parameterTypes.map JavaType.signature)

/-- The slot of a field reads as that of another with a longer name: the name goes
on with the beginning of the first one's signature, and the rest of that is the
signature of the other. -/
structure RunsInto (a b : Member) : Prop where
  left : a.kind = .field
  right : b.kind = .field
  runs : ∃ text : String, (text.toList.head? = some 'L' ∨ text.toList.head? = some 'T') ∧
    b.name = a.name ++ text ∧ a.type.signature = text ++ b.type.signature

variable {a b m : Member}

theorem toList_slot_of_field (h : m.kind = .field) :
    m.slot.toList = m.name.toList ++ m.type.signature.toList := by
  simp [slot, isInvocable, h, String.toList_append]

theorem toList_slot_of_method (h : m.kind = .method) : m.slot.toList =
    m.name.toList ++ '(' :: (m.parameterTypes.map fun type => type.signature.toList).flatten := by
  rw [← toList_parameterSignatures]
  simp [slot, isInvocable, h, String.toList_append]

theorem IsWellNamed.avoids_name (h : m.IsWellNamed) {p : Char → Bool}
    (marks : ∀ c, p c = true → JavaName.isPart c = false) : Text.Avoids p m.name :=
  JavaName.avoids_of_isIdentifier h.name marks

theorem isPart_of_isParenthesis (c : Char) (h : Text.isParenthesis c = true) :
    JavaName.isPart c = false := by
  rw [Text.isParenthesis, Bool.or_eq_true, beq_iff_eq, beq_iff_eq] at h
  rcases h with rfl | rfl <;> decide

theorem IsWellNamed.slot_avoids (h : m.IsWellNamed) (field : m.kind = .field) :
    Text.Avoids Text.isParenthesis m.slot := by
  have htype : m.type.Shows (Text.Avoids Text.isParenthesis) (Text.Avoids Text.isParenthesis) :=
    h.type.imp (fun _ hname => JavaName.avoids_of_isIdentifier hname isPart_of_isParenthesis)
      fun _ hname => JavaName.avoids_of_isFullName hname isPart_of_isParenthesis (by decide)
  -- decided as a Boolean over the list, not over all characters
  have hmarks : JavaType.signatureMarks.all (fun c => !Text.isParenthesis c) = true := by decide
  have hsignature := JavaType.avoids_signature (by simpa using hmarks) htype
  intro c hc
  rw [toList_slot_of_field field, List.mem_append] at hc
  exact hc.elim (h.avoids_name isPart_of_isParenthesis c) (hsignature c)

theorem IsWellNamed.slot_ne (ha : a.IsWellNamed) (field : a.kind = .field) (method : b.kind = .method) :
    a.slot ≠ b.slot := by
  intro h
  have hopen : '(' ∈ a.slot.toList := by
    rw [h, toList_slot_of_method method]
    simp
  exact absurd (ha.slot_avoids field '(' hopen) (by decide)

theorem IsWellNamed.method_inj (ha : a.IsWellNamed) (hb : b.IsWellNamed) (method_a : a.kind = .method)
    (method_b : b.kind = .method) (h : a.slot = b.slot) : a.name = b.name ∧
      a.parameterTypes.map JavaType.signature = b.parameterTypes.map JavaType.signature := by
  have hlists := congrArg String.toList h
  rw [toList_slot_of_method method_a, toList_slot_of_method method_b] at hlists
  obtain ⟨hname, -, hparameters⟩ := Text.append_cons_inj (ha.avoids_name isPart_of_isParenthesis)
    (hb.avoids_name isPart_of_isParenthesis) rfl rfl hlists
  have hclosed := congrArg (· ++ [')']) hparameters
  exact ⟨String.toList_inj.1 hname, (JavaType.signatures_inj (fun s hs => (ha.parameters s hs).isSpelt)
    (fun t ht => (hb.parameters t ht).isSpelt) hclosed).1⟩

/-- Of two fields that fill one slot, the second with the longer name, they are
one or the first runs into the second. -/
theorem IsWellNamed.replaces_or_runsInto (ha : a.IsWellNamed) (hb : b.IsWellNamed)
    (field_a : a.kind = .field) (field_b : b.kind = .field) {text : List Char}
    (hname : b.name.toList = a.name.toList ++ text)
    (htype : a.type.signature.toList = text ++ b.type.signature.toList) :
    a.Replaces b ∨ a.RunsInto b := by
  by_cases htext : text = []
  · rw [htext, List.append_nil] at hname
    rw [htext, List.nil_append] at htype
    exact .inl (.field field_a field_b (String.toList_inj.1 hname).symm (String.toList_inj.1 htype))
  · have hparts : ∀ c ∈ text, JavaName.isPart c = true := by
      intro c hc
      refine JavaName.isPart_of_isIdentifier hb.name c ?_
      rw [hname]
      exact List.mem_append_right _ hc
    have hhead := (JavaType.isSignature_signature ha.type.isSpelt).head?_of_append
      (JavaType.isSignature_signature hb.type.isSpelt) htype htext hparts
    refine .inr ⟨field_a, field_b, String.ofList text, by rwa [String.toList_ofList], ?_, ?_⟩
    · rw [← String.toList_inj, String.toList_append, String.toList_ofList, hname]
    · rw [← String.toList_inj, String.toList_append, String.toList_ofList, htype]

theorem Replaces.symm (h : a.Replaces b) : b.Replaces a := by
  cases h with
  | field left right name type => exact .field right left name.symm type.symm
  | method left right name parameters => exact .method right left name.symm parameters.symm

theorem Replaces.slot_eq (h : a.Replaces b) : a.slot = b.slot := by
  rw [← String.toList_inj]
  cases h with
  | field left right name type =>
    rw [toList_slot_of_field left, toList_slot_of_field right, name, type]
  | method left right name parameters =>
    rw [toList_slot_of_method left, toList_slot_of_method right, name,
      JavaType.toList_signatures_congr parameters]

theorem RunsInto.slot_eq (h : a.RunsInto b) : a.slot = b.slot := by
  obtain ⟨text, -, hname, htype⟩ := h.runs
  rw [← String.toList_inj, toList_slot_of_field h.left, toList_slot_of_field h.right, hname, htype,
    String.toList_append, String.toList_append, List.append_assoc]

/-- **What fills one slot.** Members whose names are identifiers fill one slot
exactly if one replaces the other, or one is a field that runs into the other. -/
theorem slot_eq_iff (ha : a.IsWellNamed) (hb : b.IsWellNamed) :
    a.slot = b.slot ↔ a.Replaces b ∨ a.RunsInto b ∨ b.RunsInto a := by
  constructor
  · intro h
    rcases ha.kind with field_a | method_a <;> rcases hb.kind with field_b | method_b
    · have hlists := congrArg String.toList h
      rw [toList_slot_of_field field_a, toList_slot_of_field field_b,
        List.append_eq_append_iff] at hlists
      rcases hlists with ⟨text, hname, htype⟩ | ⟨text, hname, htype⟩
      · exact (ha.replaces_or_runsInto hb field_a field_b hname htype).imp_right .inl
      · exact (hb.replaces_or_runsInto ha field_b field_a hname htype).imp Replaces.symm .inr
    · exact absurd h (ha.slot_ne field_a method_b)
    · exact absurd h.symm (hb.slot_ne field_b method_a)
    · obtain ⟨hname, hparameters⟩ := ha.method_inj hb method_a method_b h
      exact .inl (.method method_a method_b hname hparameters)
  · rintro (h | h | h)
    · exact h.slot_eq
    · exact h.slot_eq
    · exact h.slot_eq.symm

/-- **What a slot merges.** Members whose names are identifiers fill one slot
exactly if they are fields of one name and signature, or methods of one name and
list of parameter signatures; or if they are fields of which one runs into the
other. Where all that counts for a query has such names, each member that counts
is represented among those found by one that replaces it, or by a field that
runs into it or that it runs into. -/
theorem slot_merges (a b : Member) (ha : a.IsWellNamed) (hb : b.IsWellNamed) :
    (a.slot = b.slot ↔ a.Replaces b ∨ a.RunsInto b ∨ b.RunsInto a) ∧
    ∀ (t : TypeTable) (scope : MemberScope) (site : Site) (type : JavaType) (ms : List Member),
      t.visibleMembers scope site type = .ok ms →
      (∀ p m, t.Stored type p m → t.Eligible scope site m → m.IsWellNamed) →
      ∀ p, t.Stored type p b → t.Eligible scope site b →
        ∃ k ∈ ms, k.Replaces b ∨ k.RunsInto b ∨ b.RunsInto k := by
  refine ⟨slot_eq_iff ha hb, fun t scope site type ms hquery hnamed p hp heligible => ?_⟩
  obtain ⟨found, rfl, hfound⟩ := TypeTable.firstDeclared_of_visibleMembers hquery
  obtain ⟨e, he, hslot, -⟩ := hfound.first p b hp heligible
  refine ⟨e.2, List.mem_map_of_mem he, ?_⟩
  have hwell : e.2.IsWellNamed := hnamed e.1 e.2 (hfound.stored e he) (hfound.eligible e he)
  exact (slot_eq_iff hwell hb).1 hslot

end Member

namespace Drawer

def head : Member := .field "A" "head" (.named "LNode")

def headL : Member := .field "A" "headL" (.named "Node")

def find (owner : String) (result : JavaType) : Member :=
  .method owner "find" [.applied (.named "p.List") [result], .plain "int"] result

/-- A type with two fields whose names differ, and a method that the type above
has as well. -/
def table : TypeTable := .ofDecls [
  { name := "A", superclass := some "B", members := [head, headL, find "A" (.plain "T")] },
  { name := "B", members := [find "B" (.named "Node")] }]

/-- The name of the second field and its signature read as those of the first do,
so that a query for the members of the type does not find it. -/
theorem headL_hidden :
    head.IsWellNamed ∧ headL.IsWellNamed ∧ head.slot = headL.slot ∧ head.name ≠ headL.name ∧
    table.visibleMembers .value (Site.named "A") (.named "A") = .ok [head, find "A" (.plain "T")] := by
  refine ⟨by decide, by decide, by decide, by decide, rfl⟩

/-- The first field runs into the second; the method of the type above is replaced. -/
theorem merges_drawer :
    let site := Site.named "A"
    let found := [head, find "A" (.plain "T")]
    head.IsWellNamed ∧ headL.IsWellNamed ∧
    table.visibleMembers .value site (.named "A") = .ok found ∧
    (∀ p m, table.Stored (.named "A") p m → table.Eligible .value site m → m.IsWellNamed) ∧
    (head.RunsInto headL ∨ headL.RunsInto head) ∧
    (∃ k ∈ found, k.Replaces headL ∨ k.RunsInto headL ∨ headL.RunsInto k) ∧
    ∃ k ∈ found, k.Replaces (find "B" (.named "Node")) ∨ k.RunsInto (find "B" (.named "Node")) ∨
      (find "B" (.named "Node")).RunsInto k := by
  intro site found
  have hhead : head.IsWellNamed := by decide
  have hheadL : headL.IsWellNamed := by decide
  have hquery : table.visibleMembers .value site (.named "A") = .ok found := rfl
  have hnamed : ∀ p m, table.Stored (.named "A") p m → table.Eligible .value site m →
      m.IsWellNamed := by
    rintro p m ⟨d, hd, -, hm⟩ -
    have hall : ∀ d ∈ table.decls, ∀ m ∈ d.members, m.IsWellNamed := by decide
    exact hall d hd m (List.mem_of_getElem? hm)
  have hfind : (find "B" (.named "Node")).IsWellNamed := by decide
  obtain ⟨hslot, hfound⟩ := Member.slot_merges head headL hhead hheadL
  obtain ⟨-, hfound'⟩ := Member.slot_merges head (find "B" (.named "Node")) hhead hfind
  have hdiffer : ¬ head.Replaces headL := by
    intro h
    cases h with
    | field _ _ name _ => exact absurd name (by decide)
    | method left _ _ _ => exact absurd left (by decide)
  refine ⟨hhead, hheadL, hquery, hnamed, (hslot.1 (by decide)).resolve_left hdiffer, ?_, ?_⟩
  · exact hfound table .value site (.named "A") found hquery hnamed ⟨0, 1⟩
      ⟨_, List.mem_cons_self, rfl, rfl⟩ ⟨by decide, by decide, by decide⟩
  · exact hfound' table .value site (.named "A") found hquery hnamed ⟨1, 0⟩
      ⟨_, List.mem_cons_of_mem _ List.mem_cons_self, rfl, rfl⟩ ⟨by decide, by decide, by decide⟩

end Drawer

end CallChain
