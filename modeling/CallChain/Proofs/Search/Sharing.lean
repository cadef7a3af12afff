/-
# Shared findings are those of the pushes

Only pushes change shared findings, and each is served as a whole. So whatever
the order in which the holders of handles are served, the findings are those of
the chains pushed, one after the other, and every answer is what the chains
pushed before say: a push is answered as new exactly if it is the first of its
text, and lists grow from the one to the next. This is kept by every step
(`Consistent.step`), and so it holds of whatever may have happened.

Key definitions: `Findings.pushAll`, `Findings.Request.answerTo`,
`Shared.pushed`, `Shared.taken`, `Shared.Consistent`.
Key theorems: `Findings.toList_pushAll`, `Shared.Consistent.step`,
`Shared.Reached.consistent`, `Shared.reached_consistent`.
-/
import CallChain.Proofs.Search.Course
import CallChain.Search.Levels
import CallChain.Search.Sharing

namespace CallChain

/-! ### Chains pushed one by one -/

namespace Findings

/-- The findings with the chains of a list, as far as they are new. -/
def pushAll (f : Findings) (cs : List Chain) : Findings := cs.foldl push f

theorem pushAll_append (f : Findings) (cs ds : List Chain) :
    f.pushAll (cs ++ ds) = (f.pushAll cs).pushAll ds :=
  List.foldl_append

theorem mem_printed_pushAll_iff {f : Findings} {cs : List Chain} {text : String} :
    text ∈ (f.pushAll cs).printed ↔ text ∈ f.printed ∨ text ∈ cs.map Chain.printed := by
  induction cs generalizing f with
  | nil => simp [pushAll]
  | cons c cs ih =>
    have hstep : f.pushAll (c :: cs) = (f.push c).pushAll cs := rfl
    rw [hstep, ih, mem_printed_push_iff, List.map_cons, List.mem_cons, or_assoc]

/-- Of chains pushed one by one the first of each new text is found. -/
theorem toList_pushAll (f : Findings) (cs : List Chain) :
    (f.pushAll cs).toList = f.toList ++ Chain.firstOfEach f.printed cs := by
  induction cs generalizing f with
  | nil => simp [pushAll, Chain.firstOfEach]
  | cons c cs ih =>
    have hstep : f.pushAll (c :: cs) = (f.push c).pushAll cs := rfl
    rw [hstep, ih, Chain.firstOfEach]
    cases hn : f.isNew c with
    | true =>
      rw [if_neg (isNew_iff.1 hn), printed_push_of_isNew hn, toList_push_of_isNew hn,
        List.append_assoc, List.singleton_append]
    | false => rw [if_pos (isNew_eq_false_iff.1 hn), push_of_not_isNew hn]

theorem prefix_pushAll (f : Findings) (cs : List Chain) : f.toList <+: (f.pushAll cs).toList := by
  rw [toList_pushAll]
  exact List.prefix_append _ _

theorem nodup_printed_pushAll {f : Findings} (h : f.printed.Nodup) (cs : List Chain) :
    (f.pushAll cs).printed.Nodup := by
  induction cs generalizing f with
  | nil => exact h
  | cons c cs ih => exact ih (nodup_printed_push h c)

/-- The answer to a request when the given chains were pushed before. -/
def Request.answerTo (before : List Chain) : Request → Answer
  | .push c => .pushed (c.printed ∉ before.map Chain.printed)
  | .list => .listed (Chain.firstOfEach [] before)
  | .size => .counted (Chain.firstOfEach [] before).length

theorem answer_serve_pushAll (before : List Chain) (r : Request) :
    ((empty.pushAll before).serve r).1 = r.answerTo before := by
  have hlist : (empty.pushAll before).toList = Chain.firstOfEach [] before :=
    toList_pushAll empty before
  cases r with
  | push c =>
    have hnew : (empty.pushAll before).isNew c = decide (c.printed ∉ before.map Chain.printed) := by
      rw [Bool.eq_iff_iff, isNew_iff, mem_printed_pushAll_iff, decide_eq_true_iff, or_iff_right]
      exact List.not_mem_nil
    rw [serve, hnew, Request.answerTo]
  | list => rw [serve, hlist, Request.answerTo]
  | size => rw [serve, ← length_toList, hlist, Request.answerTo]

end Findings

/-! ### In every order -/

namespace Shared

/-- The chains that were pushed, in the order of serving. -/
def pushed (log : List Served) : List Chain :=
  log.filterMap fun e =>
    match e.request with
    | .push c => some c
    | .list | .size => none

/-- The chains of the pushes that were answered as new, in the order of serving. -/
def taken (log : List Served) : List Chain :=
  log.filterMap fun e =>
    match e.request, e.answer with
    | .push c, .pushed true => some c
    | _, _ => none

theorem pushed_append (log log' : List Served) : pushed (log ++ log') = pushed log ++ pushed log' :=
  List.filterMap_append

theorem taken_append (log log' : List Served) : taken (log ++ log') = taken log ++ taken log' :=
  List.filterMap_append

/-- The findings are those of the pushes that were served, the chains those
answered as new, and each answer is that to the pushes served before. -/
structure Consistent (s : Shared) : Prop where
  findings_eq : s.findings = Findings.empty.pushAll (pushed s.log)
  toList_eq : s.findings.toList = taken s.log
  answer_eq : ∀ (n : Nat) (e : Served), s.log[n]? = some e →
    e.answer = e.request.answerTo (pushed (s.log.take n))

theorem consistent_fresh : Consistent fresh where
  findings_eq := rfl
  toList_eq := rfl
  answer_eq := by simp [fresh]

theorem findings_serve (f : Findings) (handle : Nat) (r : Findings.Request) (a : Findings.Answer) :
    (f.serve r).2 = f.pushAll (pushed [{ handle, request := r, answer := a }]) := by
  cases r <;> rfl

theorem toList_findings_serve (f : Findings) (handle : Nat) (r : Findings.Request) :
    (f.serve r).2.toList =
      f.toList ++ taken [{ handle, request := r, answer := (f.serve r).1 }] := by
  cases r with
  | push c =>
    cases hn : f.isNew c with
    | true => simp [Findings.serve, taken, hn, Findings.toList_push_of_isNew hn]
    | false => simp [Findings.serve, taken, hn, Findings.push_of_not_isNew hn]
  | list => simp [Findings.serve, taken]
  | size => simp [Findings.serve, taken]

theorem Consistent.serve {s : Shared} (h : s.Consistent) (handle : Nat) (r : Findings.Request) :
    (s.serve handle r).Consistent where
  findings_eq := by
    rw [Shared.serve, pushed_append, Findings.pushAll_append, ← h.findings_eq]
    exact findings_serve s.findings handle r _
  toList_eq := by
    rw [Shared.serve, taken_append, ← h.toList_eq]
    exact toList_findings_serve s.findings handle r
  answer_eq := by
    intro n e he
    rw [Shared.serve] at he ⊢
    rcases Nat.lt_or_ge n s.log.length with hn | hn
    · rw [List.getElem?_append_left hn] at he
      rw [List.take_append_of_le_length (Nat.le_of_lt hn)]
      exact h.answer_eq n e he
    · rw [List.getElem?_append_right hn, List.getElem?_singleton] at he
      split at he
      · rename_i hlast
        -- The last request found what the pushes before it had left.
        have hn' : n = s.log.length := by omega
        rw [← Option.some.inj he, hn', List.take_left, h.findings_eq]
        exact Findings.answer_serve_pushAll (pushed s.log) r
      · cases he

/-- Whatever happens next keeps the findings consistent with what was served. -/
theorem Consistent.step {s s' : Shared} (h : s.Consistent) (next : s.Step s') : s'.Consistent := by
  cases next with
  | copies handle held => exact ⟨h.findings_eq, h.toList_eq, h.answer_eq⟩
  | serves handle held r => exact h.serve handle r

theorem Reached.consistent {s : Shared} (h : s.Reached) : s.Consistent := by
  induction h with
  | fresh => exact consistent_fresh
  | step _ next ih => exact ih.step next

/-- What is taken is the first chain of each text that is pushed. -/
theorem Consistent.taken_eq {s : Shared} (h : s.Consistent) :
    taken s.log = Chain.firstOfEach [] (pushed s.log) := by
  rw [← h.toList_eq, h.findings_eq]
  exact Findings.toList_pushAll .empty (pushed s.log)

/-- Of requests served in a row the later ones come after as many pushes or more. -/
theorem firstOfEach_pushed_prefix (log : List Served) {m n : Nat} (h : m ≤ n) :
    Chain.firstOfEach [] (pushed (log.take m)) <+: Chain.firstOfEach [] (pushed (log.take n)) := by
  obtain ⟨later, hlater⟩ := List.take_prefix_take_left h (l := log)
  have hgrown := Findings.prefix_pushAll (Findings.empty.pushAll (pushed (log.take m))) (pushed later)
  rw [← Findings.pushAll_append, ← pushed_append, hlater, Findings.toList_pushAll,
    Findings.toList_pushAll] at hgrown
  exact hgrown

/-- **Findings in several hands are consistent.** In whatever order the requests
of any number of holders are served: the texts kept are those of the chains, and
none is kept twice; a push is answered as new exactly if no chain with its text
was pushed before; the chains are those of the pushes answered as new, in their
order, which are the first of each text; and of two lists that are answered the
earlier is the beginning of the later. -/
theorem reached_consistent {s : Shared} (h : s.Reached) :
    (∀ text, text ∈ s.findings.printed ↔ ∃ c ∈ s.findings.toList, c.printed = text) ∧
    (s.findings.toList.map Chain.printed).Nodup ∧
    (∀ (n : Nat) (e : Served) (c : Chain), s.log[n]? = some e → e.request = .push c →
      ∃ new : Bool, e.answer = .pushed new ∧
        (new = true ↔ ∀ k ∈ pushed (s.log.take n), k.printed ≠ c.printed)) ∧
    (s.findings.toList = taken s.log ∧ taken s.log = Chain.firstOfEach [] (pushed s.log)) ∧
    ∀ (m n : Nat) (e e' : Served), m ≤ n → s.log[m]? = some e → s.log[n]? = some e' →
      e.request = .list → e'.request = .list →
      ∃ cs ds, e.answer = .listed cs ∧ e'.answer = .listed ds ∧ cs <+: ds := by
  have hs := h.consistent
  refine ⟨fun text => ?_, ?_, fun n e c he hpush => ?_, ⟨hs.toList_eq, hs.taken_eq⟩, ?_⟩
  · rw [← List.mem_map, Findings.map_printed_toList, List.mem_reverse]
  · rw [hs.findings_eq]
    exact Findings.nodup_map_printed_toList (Findings.nodup_printed_pushAll (f := .empty) .nil _)
  · have hanswer := hs.answer_eq n e he
    rw [hpush, Findings.Request.answerTo] at hanswer
    exact ⟨_, hanswer, by simp⟩
  · intro m n e e' hmn he he' hlist hlist'
    refine ⟨_, _, ?_, ?_, firstOfEach_pushed_prefix s.log hmn⟩
    · rw [hs.answer_eq m e he, hlist, Findings.Request.answerTo]
    · rw [hs.answer_eq n e' he', hlist', Findings.Request.answerTo]

end Shared

namespace Circle

/-- A chain of one local variable. -/
def single (name : String) (keptDims : Nat) : Chain := { links := [start name], keptDims }

/-- Two holders of findings: the second, who has copied the handle of the first,
reads what the first has pushed and pushes another chain of the same text, then
the first pushes and reads again. -/
def hands : Shared :=
  ((((Shared.fresh.serve 0 (.push (single "x" 0))).copy.serve 1 .list).serve 1
    (.push (single "x" 1))).serve 0 (.push (single "y" 0))).serve 0 .list

theorem reached_hands : hands.Reached :=
  .step (.step (.step (.step (.step (.step .fresh
    (.serves 0 (by decide) _)) (.copies 0 (by decide))) (.serves 1 (by decide) _))
    (.serves 1 (by decide) _)) (.serves 0 (by decide) _)) (.serves 0 (by decide) _)

/-- The second chain of the text is answered as not new, the second list has the
first in it, and one chain of each text is kept. -/
theorem hands_consistent :
    hands.Reached ∧
    hands.findings.toList.map Chain.printed = ["x", "y"] ∧
    (hands.findings.toList.map Chain.printed).Nodup ∧
    (∃ new : Bool, Findings.Answer.pushed false = .pushed new ∧
      (new = true ↔ ∀ k ∈ Shared.pushed (hands.log.take 2), k.printed ≠ (single "x" 1).printed)) ∧
    hands.findings.toList = Shared.taken hands.log ∧
    [single "x" 0] <+: [single "x" 0, single "y" 0] := by
  obtain ⟨-, hnodup, hpush, ⟨htaken, -⟩, hgrow⟩ := Shared.reached_consistent reached_hands
  obtain ⟨cs, ds, hcs, hds, hprefix⟩ := hgrow 1 4 _ _ (by decide) rfl rfl rfl rfl
  have hfirst : cs = [single "x" 0] := by injection hcs.symm
  have hlast : ds = [single "x" 0, single "y" 0] := by injection hds.symm
  rw [hfirst, hlast] at hprefix
  exact ⟨reached_hands, by decide, hnodup, hpush 2 _ (single "x" 1) rfl rfl, htaken, hprefix⟩

end Circle

end CallChain
