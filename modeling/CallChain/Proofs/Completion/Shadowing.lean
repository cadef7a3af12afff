/-
# A hidden field is not lost

Where a name is being typed, a field with the name of a local variable can only
be reached through `this`, and so it is printed. A search keeps one chain of
those that are printed alike; as what stands before the first dot is `this` or
the name of the start, a chain from a field is never printed like one from a
local variable, whatever comes behind. A completion whose search has gone
through all there is proposes both.

Key definitions: `Request.IsWellNamed`, `Chain.StartsIn`.
Key theorems: `Chain.beforeFirst_printed`, `Request.IsWellNamed.printed_ne`,
`Completion.exists_proposal_of_valid`, `Completion.hidden_fields_kept`.
-/
import CallChain.Proofs.Completion.Proposals
import CallChain.Proofs.Completion.Starts
import CallChain.Proofs.Search.Failures
import CallChain.Proofs.Snippet.Title

namespace CallChain

/-! ### What a printed chain starts with -/

/-- A chain printed after `this` starts with it, any other with the label of its
first member. -/
theorem Chain.beforeFirst_printed {c : Chain} {l : Link} (head : c.links.head? = some l)
    (label : Text.Avoids (· == '.') l.member.label) :
    Text.beforeFirst '.' c.printed = if l.ofThis then "this" else l.member.label := by
  obtain ⟨ls, hlinks⟩ : ∃ ls, c.links = l :: ls := List.head?_eq_some_iff.1 head
  have hdot : String.singleton '.' = "." := by decide
  rw [printed_eq, hlinks, labels]
  cases hthis : l.ofThis with
  | false =>
    have hself : l.qualifier true = "" := Link.qualifier_eq_empty_iff.2 fun _ => hthis
    rw [hself, String.empty_append, ← hdot, Text.beforeFirst_intercalate label]
    rfl
  | true =>
    have hqualifier : l.qualifier true = "this" ++ "." := by
      rw [Link.qualifier, hthis]
      rfl
    have hword : Text.Avoids (· == '.') "this" := by decide
    rw [String.intercalate_cons_append, hqualifier, ← String.intercalate_cons_cons, ← hdot,
      Text.beforeFirst_intercalate hword]
    rfl

variable {F : Facts} {r : Request}

/-- The chain starts with one of the given members, as a request lets it. -/
def Chain.StartsIn (F : Facts) (r : Request) (ms : List Member) (c : Chain) : Prop :=
  ∃ l ∈ r.starts F, l.member ∈ ms ∧ c.links.head? = some l

/-- A name is being typed, the names of local variables and of fields have no
dots, and no local variable is called `this`. -/
structure Request.IsWellNamed (r : Request) : Prop where
  place : r.place = .simpleName
  locals : ∀ m ∈ r.locals,
    m.kind = .localVar ∧ Text.Avoids (· == '.') m.name ∧ m.name ≠ "this"
  fields : ∀ m ∈ r.fields, m.kind = .field ∧ Text.Avoids (· == '.') m.name

namespace Request

theorem isHidden_iff {m : Member} :
    r.isHidden m = true ↔ m.kind = .field ∧ m.name ∈ r.locals.map (·.name) := by
  rw [isHidden, Bool.and_eq_true, beq_iff_eq, List.contains_iff_mem]

variable {c d : Chain}

theorem exists_beforeFirst_printed {ms : List Member} (place : r.place = .simpleName)
    (plain : ∀ m ∈ ms, m.isInvocable = false ∧ Text.Avoids (· == '.') m.name)
    (h : c.StartsIn F r ms) : ∃ m ∈ ms,
      Text.beforeFirst '.' c.printed = if r.isHidden m then "this" else m.name := by
  obtain ⟨l, hl, hmember, hhead⟩ := h
  obtain ⟨hinvocable, hdots⟩ := plain _ hmember
  have hlabel : l.member.name = l.member.label := Member.name_eq_label_iff.2 hinvocable
  refine ⟨l.member, hmember, ?_⟩
  rw [Chain.beforeFirst_printed hhead (hlabel ▸ hdots), ofThis_eq_isHidden place hl, hlabel]

theorem IsWellNamed.beforeFirst_of_locals (named : r.IsWellNamed) (h : c.StartsIn F r r.locals) :
    ∃ m ∈ r.locals, Text.beforeFirst '.' c.printed = m.name := by
  obtain ⟨m, hm, hfront⟩ := exists_beforeFirst_printed named.place (fun m hm => by
    obtain ⟨hkind, hdots, -⟩ := named.locals m hm
    exact ⟨by rw [Member.isInvocable, hkind]; rfl, hdots⟩) h
  have hhidden : r.isHidden m = false := by
    rw [isHidden, (named.locals m hm).1]
    rfl
  rw [hhidden] at hfront
  exact ⟨m, hm, hfront⟩

/-- A chain from a field is printed with `this` in front, or with a name that no
local variable has. -/
theorem IsWellNamed.beforeFirst_of_fields (named : r.IsWellNamed) (h : c.StartsIn F r r.fields) :
    Text.beforeFirst '.' c.printed = "this" ∨
      Text.beforeFirst '.' c.printed ∉ r.locals.map (·.name) := by
  obtain ⟨m, hm, hfront⟩ := exists_beforeFirst_printed named.place (fun m hm => by
    obtain ⟨hkind, hdots⟩ := named.fields m hm
    exact ⟨by rw [Member.isInvocable, hkind]; rfl, hdots⟩) h
  cases hhidden : r.isHidden m with
  | true =>
    rw [hhidden] at hfront
    exact .inl hfront
  | false =>
    rw [hhidden, if_neg Bool.false_ne_true] at hfront
    refine .inr fun hname => ?_
    rw [hfront] at hname
    rw [isHidden_iff.2 ⟨(named.fields m hm).1, hname⟩] at hhidden
    cases hhidden

/-- A chain from a field and one from a local variable are not printed alike. -/
theorem IsWellNamed.printed_ne (named : r.IsWellNamed) (hc : c.StartsIn F r r.fields)
    (hd : d.StartsIn F r r.locals) : c.printed ≠ d.printed := by
  intro hsame
  obtain ⟨m, hm, hfront⟩ := named.beforeFirst_of_locals hd
  rw [← hsame] at hfront
  rcases named.beforeFirst_of_fields hc with hthis | hfree
  · exact (named.locals m hm).2.2 (hfront.symm.trans hthis)
  · rw [hfront] at hfree
    exact hfree (List.mem_map_of_mem hm)

theorem IsWellNamed.printed_of_hidden (named : r.IsWellNamed) (h : c.StartsIn F r r.fields)
    {l : Link} (head : c.links.head? = some l) (hidden : l.member.name ∈ r.locals.map (·.name)) :
    c.printed = "this." ++ ".".intercalate (c.links.map fun k => k.member.label) := by
  obtain ⟨k, hk, hmember, hhead⟩ := h
  obtain rfl : k = l := Option.some.inj (hhead.symm.trans head)
  have hthis : k.ofThis = true := by
    rw [ofThis_eq_isHidden named.place hk]
    exact isHidden_iff.2 ⟨(named.fields _ hmember).1, hidden⟩
  obtain ⟨ks, hlinks⟩ : ∃ ks, c.links = k :: ks := List.head?_eq_some_iff.1 head
  rw [Chain.printed, hlinks]
  simp only [hthis, if_true]

end Request

/-! ### Completions -/

variable {known : String → Option Facts} {I : Interruptions} {settings : Settings} {L : Limits}
  {type : JavaType}

/-- A completion whose search has ended exhausted and whose queue has always had
room proposes the texts of all valid chains. -/
theorem Completion.exists_proposal_of_valid {c : Completion} {d : Chain}
    (answered : completeBy known I settings r = .ok c) (facts : known r.invokingType = some F)
    (limits : settings.limits = .ok L) (expected : r.expected = some type)
    (done : c.status = .exhausted)
    (roomy : ∀ u, SearchState.Moment I (r.starts F) [type] ({} : SearchState F L) u → u.HasRoom)
    (valid : d.Valid F L (r.starts F) [type]) :
    ∃ p ∈ c.proposals, p.chain.printed = d.printed := by
  have hcompletion : c = completeWithin F L I r := by
    simp only [completeBy, facts, limits, bind, Except.bind, Except.ok.injEq] at answered
    exact answered.symm
  have hdone : (F.search L I (r.starts F) [type]).status = .exhausted := by
    rw [← status_completeWithin expected, ← hcompletion]
    exact done
  have hmax : 1 ≤ L.maxChains := by
    obtain ⟨hfault, rfl⟩ := Settings.limits_eq_ok_iff.1 limits
    exact Nat.one_le_iff_ne_zero.2 (Settings.fault?_eq_none_iff.1 hfault).1
  obtain ⟨e, he, hprinted⟩ := Facts.exists_printed_of_valid hdone roomy hmax valid
  refine ⟨.ofChain e, ?_, hprinted⟩
  rw [hcompletion, proposals_completeWithin expected]
  exact Proposal.mem_rank.2 ⟨e, he, rfl⟩

/-- **A hidden field is not lost.** Where a name is being typed, no chain from a
field is printed like one from a local variable. A completion whose search has
ended exhausted, with room in its queue all the while, therefore proposes the
texts of all valid chains from either, those from a local variable not by a
chain from a field nor the other way round; and those from a field with the name
of a local variable have `this` in front. -/
theorem Completion.hidden_fields_kept (F : Facts) (r : Request) (named : r.IsWellNamed) :
    (∀ c d : Chain, c.StartsIn F r r.fields → d.StartsIn F r r.locals → c.printed ≠ d.printed) ∧
    ∀ (known : String → Option Facts) (I : Interruptions) (settings : Settings) (L : Limits)
      (type : JavaType) (c : Completion), known r.invokingType = some F →
      settings.limits = .ok L → r.expected = some type →
      completeBy known I settings r = .ok c → c.status = .exhausted →
      (∀ u, SearchState.Moment I (r.starts F) [type] ({} : SearchState F L) u → u.HasRoom) →
      ∀ d : Chain, d.Valid F L (r.starts F) [type] →
        (d.StartsIn F r r.locals →
          ∃ p ∈ c.proposals, p.chain.printed = d.printed ∧ ¬ p.chain.StartsIn F r r.fields) ∧
        (d.StartsIn F r r.fields →
          (∃ p ∈ c.proposals, p.chain.printed = d.printed ∧ ¬ p.chain.StartsIn F r r.locals) ∧
          ∀ l, d.links.head? = some l → l.member.name ∈ r.locals.map (·.name) →
            d.printed = "this." ++ ".".intercalate (d.links.map fun k => k.member.label)) := by
  refine ⟨fun c d => named.printed_ne, ?_⟩
  intro known I settings L type c facts limits expected answered done roomy d valid
  obtain ⟨p, hp, hprinted⟩ :=
    exists_proposal_of_valid answered facts limits expected done roomy valid
  constructor
  · intro hlocal
    exact ⟨p, hp, hprinted, fun hfield => named.printed_ne hfield hlocal hprinted⟩
  · intro hfield
    refine ⟨⟨p, hp, hprinted, fun hlocal => named.printed_ne hfield hlocal hprinted.symm⟩, ?_⟩
    exact fun l hhead hidden => named.printed_of_hidden hfield hhead hidden

namespace Circle

/-- The field that the local variable of the request hides, as a link. -/
def hidden : Link := .ofMember (.field "S" "x" (.named "A")) .field (.named "A") 0 true

/-- The chain from a value of type `A` through the array back to the type. -/
def back (l : Link) : Chain where
  links := [l,
    .ofMember (.field "A" "bs" (.array (.named "B") 1)) .field (.array (.named "B") 1) 1 false,
    .ofMember (.field "B" "a" (.named "A")) .field (.named "A") 0 false]
  keptDims := 0

theorem starts_request (type : JavaType) : (request type).starts facts = [start "x", hidden] := rfl

theorem search_request {L : Limits} (h : ({ minLength := 1 } : Settings).limits = .ok L) :
    facts.search L .none ((request (.named "A")).starts facts) [.named "A"] = {
      status := .exhausted
      chains := [⟨[start "x"], 0⟩, ⟨[hidden], 0⟩, back (start "x"), back hidden] } := by
  rw [starts_request]
  obtain ⟨-, rfl⟩ := Settings.limits_eq_ok_iff.1 h
  rfl

theorem isWellNamed_request (type : JavaType) : (request type).IsWellNamed where
  place := rfl
  locals := by
    intro m hm
    obtain rfl := List.mem_singleton.1 hm
    decide
  fields := by
    intro m hm
    obtain rfl := List.mem_singleton.1 hm
    decide

/-- The chains back from the local variable and from the field that it hides are
both valid, printed apart, and proposed. -/
theorem hidden_kept :
    let r := request (.named "A")
    let settings : Settings := { minLength := 1 }
    ∃ L c, settings.limits = .ok L ∧
      completeBy (fun _ => some facts) .none settings r = .ok c ∧ c.status = .exhausted ∧
      (back (start "x")).Valid facts L (r.starts facts) [.named "A"] ∧
      (back hidden).Valid facts L (r.starts facts) [.named "A"] ∧
      (back (start "x")).printed = "x.bs.a" ∧ (back hidden).printed = "this.x.bs.a" ∧
      (back hidden).printed ≠ (back (start "x")).printed ∧
      (∃ p ∈ c.proposals, p.chain.printed = (back (start "x")).printed ∧
        ¬ p.chain.StartsIn facts r r.fields) ∧
      ∃ p ∈ c.proposals, p.chain.printed = (back hidden).printed ∧
        ¬ p.chain.StartsIn facts r r.locals := by
  intro r settings
  obtain ⟨L, hlimits⟩ : ∃ L, settings.limits = .ok L := ⟨_, rfl⟩
  have hsearch := search_request hlimits
  have hanswered : completeBy (fun _ => some facts) .none settings r =
      .ok (completeWithin facts L .none r) := by
    simp only [completeBy, hlimits, bind, Except.bind]
  have hdone : (completeWithin facts L .none r).status = .exhausted := by
    rw [status_completeWithin rfl, hsearch]
  have hlocal : (back (start "x")).StartsIn facts r r.locals :=
    ⟨start "x", List.mem_cons_self, List.mem_singleton.2 rfl, rfl⟩
  have hfield : (back hidden).StartsIn facts r r.fields :=
    ⟨hidden, List.mem_cons_of_mem _ List.mem_cons_self, List.mem_singleton.2 rfl, rfl⟩
  have hvalid : ∀ d ∈ (facts.search L .none (r.starts facts) [.named "A"]).chains,
      d.Valid facts L (r.starts facts) [.named "A"] := fun _ => Facts.valid_of_mem_search
  rw [hsearch] at hvalid
  have hback : (back (start "x")).Valid facts L (r.starts facts) [.named "A"] :=
    hvalid _ (by simp)
  have hback' : (back hidden).Valid facts L (r.starts facts) [.named "A"] := hvalid _ (by simp)
  have hnarrow : ∀ type, (facts.expansion L type).length ≤ 1 :=
    fun _ => Facts.length_expansion_le fun _ h => length_members_le h
  have hroomy : ∀ u, SearchState.Moment .none (r.starts facts) [.named "A"]
      ({} : SearchState facts L) u → u.HasRoom :=
    fun _ hu => SearchState.hasRoom_of_narrow hnarrow (by decide) hu
  obtain ⟨hapart, hkept⟩ :=
    Completion.hidden_fields_kept facts r (isWellNamed_request (.named "A"))
  have hboth := hkept (fun _ => some facts) .none settings L (.named "A") _ rfl hlimits rfl
    hanswered hdone hroomy
  exact ⟨L, _, hlimits, hanswered, hdone, hback, hback', by decide, by decide,
    hapart _ _ hfield hlocal, (hboth _ hback).1 hlocal, ((hboth _ hback').2 hfield).1⟩

end Circle

end CallChain
