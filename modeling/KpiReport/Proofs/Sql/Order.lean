import KpiReport.Proofs.Sql.Drafts

/-!
# The order of bindings

A binding can refer only to what stands before it, so a list has to have what is needed in front of
what needs it. Adding bindings sees to that at the moment of the call; it stays so as long as bound
queries are left as they are, since a change of one shows in what its binding needs.

* **`Sheet.withsOf_insert`** — a new query changes nothing for those that were there before it.
* **`Sheet.needs_addWiths`** — and a query that gets bindings changes nothing for what it has bound.
* **`Sheet.Ordered.run`** — so one call keeps the order in all lists, as it keeps numbers meaningful
  (`Sheet.WellFormed`).
* **`Sheet.addWiths_keeps`** — adding bindings extends the list, binds every alias given and is
  idempotent, and along a history the lists are in order.
-/

namespace KpiReport.Sql

namespace Sheet

variable {s : Sheet} {i j : QueryId} {vs : List DraftWith}

/-- In every list, the bindings that an entry needs stand before it. -/
def Ordered (s : Sheet) : Prop :=
  ∀ i, NeedsFirst DraftWith.name s.needs (s.withsOf i)

/-- Unions begin with queries that were there before them, and bindings are of queries on the sheet.
Numbers then mean the same query before and after a new one is made. -/
structure WellFormed (s : Sheet) : Prop where
  first_lt : ∀ k first, (s.drafts[k]?).bind Draft.lead? = some first → first < k
  target_lt : ∀ i, ∀ w ∈ s.withsOf i, w.target < s.drafts.size

/-- The queries that a call mentions besides the one it changes are on the sheet. -/
def Knows (s : Sheet) : Call → Prop
  | .newUnion first rest => ∀ i ∈ first :: rest, i < s.drafts.size
  | .setWiths _ vs | .addWiths _ vs => ∀ v ∈ vs, v.target < s.drafts.size
  | _ => True

/-- No bound query has other bindings after the call. The order was right for the bindings that a
query had when it was bound; where it gets more, nothing moves. -/
def SparesBound (s : Sheet) (c : Call) : Prop :=
  ∀ i, ∀ w ∈ s.withsOf i, (s.run c).withsOf w.target = s.withsOf w.target

instance (s : Sheet) (c : Call) : Decidable (s.Knows c) := by
  cases c <;> unfold Knows <;> infer_instance

/-- Numbers without a query bind nothing. -/
theorem sparesBound_iff {c : Call} :
    (∀ i ∈ List.range s.drafts.size, ∀ w ∈ s.withsOf i,
      (s.run c).withsOf w.target = s.withsOf w.target) ↔ s.SparesBound c := by
  refine ⟨fun h i w hw => ?_, fun h i _ => h i⟩
  exact h i (List.mem_range.2 (lt_size_of_mem_withsOf hw)) w hw

instance (s : Sheet) (c : Call) : Decidable (s.SparesBound c) :=
  decidable_of_iff _ sparesBound_iff

/-! ### Queries that are new -/

/-- Leaders are made before the unions that they lead. -/
theorem leaderFrom_le (h : s.WellFormed) (n : Nat) (i : QueryId) : s.leaderFrom n i ≤ i := by
  induction n generalizing i with
  | zero => exact le_refl i
  | succ n ih =>
    rw [leaderFrom_succ]
    split
    · next first hfirst => exact (ih first).trans (h.first_lt i first hfirst).le
    · exact le_refl i

/-- A leader is found in as many steps as there are earlier queries. By induction on the steps: each
of them goes to an earlier query. -/
theorem leaderFrom_succ_eq (h : s.WellFormed) {n : Nat} (hi : i ≤ n) :
    s.leaderFrom (n + 1) i = s.leaderFrom n i := by
  induction n generalizing i with
  | zero =>
    obtain rfl : i = 0 := Nat.le_zero.1 hi
    rw [leaderFrom_succ]
    split
    · next first hfirst => exact absurd (h.first_lt 0 first hfirst) (Nat.not_lt_zero _)
    · rfl
  -- one step down, and from there by induction
  | succ n ih =>
    rw [leaderFrom_succ, leaderFrom_succ]
    split
    · next first hfirst =>
      have hlt : first < i := h.first_lt i first hfirst
      exact ih (Nat.le_of_lt_succ (hlt.trans_le hi))
    · rfl

theorem getElem?_insert (s : Sheet) (d : Draft) (hi : i < s.drafts.size) :
    (s.insert d).1.drafts[i]? = s.drafts[i]? := by
  show (s.drafts.push d)[i]? = _
  rw [Array.getElem?_push, if_neg (Nat.ne_of_lt hi)]

/-- A new query leads none of those that were there. There is one step more to look for a leader,
and it is not needed. -/
theorem leader_insert (h : s.WellFormed) (d : Draft) (hi : i < s.drafts.size) :
    (s.insert d).1.leader i = s.leader i := by
  -- no step from an old query leads to the new one
  have hsteps : ∀ n k, k < s.drafts.size → (s.insert d).1.leaderFrom n k = s.leaderFrom n k := by
    intro n
    induction n with
    | zero => exact fun k _ => rfl
    | succ n ih =>
      intro k hk
      rw [leaderFrom_succ, leaderFrom_succ, getElem?_insert s d hk]
      split
      · next first hfirst => exact ih first ((h.first_lt k first hfirst).trans hk)
      · rfl
  have hsize : (s.insert d).1.drafts.size = s.drafts.size + 1 := Array.size_push d
  rw [leader, hsize, hsteps _ _ hi, leaderFrom_succ_eq h hi.le, leader]

/-- A new query changes nothing for those that were there. -/
theorem withsOf_insert (h : s.WellFormed) (d : Draft) (hi : i < s.drafts.size) :
    (s.insert d).1.withsOf i = s.withsOf i := by
  have hleader : s.leader i < s.drafts.size := (leaderFrom_le h _ i).trans_lt hi
  rw [withsOf_eq, withsOf_eq, leader_insert h d hi, getElem?_insert s d hleader]

/-- A new query without bindings keeps all lists in order: no list is new, and what bound queries
need has not changed. -/
theorem Ordered.insert (hordered : s.Ordered) (h : s.WellFormed) {d : Draft} (hd : d.withs = []) :
    (s.insert d).1.Ordered := by
  intro j
  rcases withsOf_insert_cases hd s j with hnil | ⟨k, hk⟩
  · rw [hnil]
    exact needsFirst_nil
  · rw [hk]
    exact (hordered k).congr fun w hw => withsOf_insert h d (h.target_lt k w hw)

/-- A new query keeps numbers meaningful if it begins with one that is on the sheet. All other
numbers were meaningful before it, and there is one query more now. -/
theorem WellFormed.insert (h : s.WellFormed) {d : Draft} (hd : d.withs = [])
    (hlead : ∀ first, d.lead? = some first → first < s.drafts.size) :
    (s.insert d).1.WellFormed := by
  have hsize : (s.insert d).1.drafts.size = s.drafts.size + 1 := Array.size_push d
  refine ⟨fun k first hfirst => ?_, fun j w hw => ?_⟩
  · have hpush : ((s.drafts.push d)[k]?).bind Draft.lead? = some first := hfirst
    rw [Array.getElem?_push] at hpush
    -- the number is that of the new query, or an old one
    split at hpush
    · next hk => exact hk ▸ hlead first hpush
    · exact h.first_lt k first hpush
  · rw [hsize]
    rcases withsOf_insert_cases hd s j with hnil | ⟨k, hk⟩
    · rw [hnil] at hw
      cases hw
    · rw [hk] at hw
      exact (h.target_lt k w hw).trans (Nat.lt_succ_self _)

/-! ### Queries that change -/

/-- So does a change that keeps unions as they are and binds queries on the sheet only. -/
theorem WellFormed.modify (h : s.WellFormed) {f : Draft → Draft}
    (hf : ∀ d, (f d).lead? = d.lead?)
    (htarget : ∀ j, ∀ w ∈ (s.modify i f).withsOf j, w.target < s.drafts.size) :
    (s.modify i f).WellFormed := by
  have hsize : (s.modify i f).drafts.size = s.drafts.size := Array.size_modify
  refine ⟨fun k first hfirst => ?_, ?_⟩
  · rw [bind_lead?_modify hf] at hfirst
    exact h.first_lt k first hfirst
  · rw [hsize]
    exact htarget

theorem WellFormed.clear (h : s.WellFormed) (i : QueryId) : (s.clear i).WellFormed :=
  h.modify (Draft.lead?_setWiths []) fun j w hw => h.target_lt j w (withsOf_clear_subset s i j hw)

/-- Adding bindings of queries on the sheet keeps numbers meaningful. What is added was given, or it
was looked up in a list of the sheet. -/
theorem WellFormed.addWiths (h : s.WellFormed) (hacyclic : s.Acyclic) (i : QueryId)
    (hvs : ∀ v ∈ vs, v.target < s.drafts.size) : (s.addWiths i vs).WellFormed := by
  by_cases hi : s.Leads i
  · obtain ⟨added, hrun, hlist⟩ := exists_added hacyclic hi vs
    have htarget : ∀ w ∈ (s.addWiths i vs).withsOf i, w.target < s.drafts.size := by
      intro w hw
      rw [hlist] at hw
      rcases List.mem_append.1 hw with hw | hw
      · exact h.target_lt i w hw
      · -- what is added was given, or it is in a list of the sheet
        obtain ⟨v, hv, hneeds⟩ := hrun.source w hw
        rcases hneeds.cases_tail with rfl | ⟨u, -, hu⟩
        · exact hvs w hv
        · exact h.target_lt u.target w hu
    -- the list of `i` and all that are the same, and then the others
    have hall : ∀ j, ∀ w ∈ (s.addWiths i vs).withsOf j, w.target < s.drafts.size := by
      intro j
      by_cases hj : s.leader i = s.leader j
      · rw [withsOf_addWiths_of_eq hj]
        exact htarget
      · rw [withsOf_addWiths_of_ne hj]
        exact h.target_lt j
    rw [addWiths_eq] at hall ⊢
    exact h.modify (Draft.lead?_setWiths _) hall
  · rw [addWiths_of_not_leads hi]
    exact h

/-- What a query has bound does not need more because of that: else the query would be nested in
itself. -/
theorem needs_addWiths (hacyclic' : (s.addWiths i vs).Acyclic) {w : DraftWith}
    (hw : w ∈ (s.addWiths i vs).withsOf i) : (s.addWiths i vs).needs w = s.needs w := by
  show (s.addWiths i vs).withsOf w.target = s.withsOf w.target
  -- a bound query with the list of `i` would have itself in it
  by_cases htarget : s.leader i = s.leader w.target
  · refine absurd (.single ⟨w, ?_, rfl⟩) (hacyclic' w.target)
    rw [withsOf_addWiths_of_eq htarget]
    exact hw
  · exact withsOf_addWiths_of_ne htarget vs

/-- Adding bindings to a list keeps it in order, by what is needed afterwards as well. -/
theorem needsFirst_addWiths (hacyclic : s.Acyclic) (hacyclic' : (s.addWiths i vs).Acyclic)
    (h : NeedsFirst DraftWith.name s.needs (s.withsOf i)) :
    NeedsFirst DraftWith.name (s.addWiths i vs).needs ((s.addWiths i vs).withsOf i) := by
  -- first by what was needed before the call, which the run of hoisting sees to
  have hkept : NeedsFirst DraftWith.name s.needs ((s.addWiths i vs).withsOf i) := by
    by_cases hi : s.Leads i
    · obtain ⟨added, hrun, hlist⟩ := exists_added hacyclic hi vs
      rw [hlist]
      exact hrun.needsFirst h
    · rw [addWiths_of_not_leads hi]
      exact h
  exact hkept.congr fun w hw => needs_addWiths hacyclic' hw

/-- A call that gives bindings to one query keeps the order in its list, and in the other lists if
it spares what these bind. -/
theorem ordered_addWiths (hacyclic : s.Acyclic) (hacyclic' : (s.addWiths i vs).Acyclic)
    (hlist : NeedsFirst DraftWith.name s.needs (s.withsOf i))
    (hothers : ∀ j, s.leader i ≠ s.leader j →
      NeedsFirst DraftWith.name (s.addWiths i vs).needs (s.withsOf j)) :
    (s.addWiths i vs).Ordered := by
  intro j
  by_cases hj : s.leader i = s.leader j
  · rw [withsOf_addWiths_of_eq hj]
    exact needsFirst_addWiths hacyclic hacyclic' hlist
  · rw [withsOf_addWiths_of_ne hj]
    exact hothers j hj

/-- **What one call keeps of the order.** By cases on the call. New queries and calls that set a
clause change no list; what is left is adding bindings, to a list that may have been emptied
before. -/
theorem Ordered.run (hordered : s.Ordered) (h : s.WellFormed) (hacyclic : s.Acyclic) {c : Call}
    (hacyclic' : (s.run c).Acyclic) (hknows : s.Knows c) (hspares : s.SparesBound c) :
    (s.run c).WellFormed ∧ (s.run c).Ordered := by
  -- calls that set a clause
  have hkept : ∀ f : Draft → Draft, (∀ d, (f d).lead? = d.lead?) → (∀ d, (f d).withs = d.withs) →
      ∀ i, (s.modify i f).WellFormed ∧ (s.modify i f).Ordered := by
    intro f hlead hwiths i
    have hlists := withsOf_modify_of_withs hlead hwiths s i
    refine ⟨h.modify hlead fun j w hw => ?_, fun j => ?_⟩
    · rw [hlists] at hw
      exact h.target_lt j w hw
    · rw [hlists]
      exact (hordered j).congr fun w _ => hlists w.target
  cases c with
  | newSelect =>
    refine ⟨h.insert rfl fun first hfirst => ?_, hordered.insert h rfl⟩
    cases hfirst
  | newUnion first rest =>
    refine ⟨h.insert rfl fun k hk => ?_, hordered.insert h rfl⟩
    obtain rfl : first = k := Option.some.inj hk
    exact hknows first List.mem_cons_self
  | setColumns i | setSource i | setGroupBy i | setOrderBy i =>
    refine hkept _ (fun d => ?_) (fun d => ?_) i
    all_goals cases d <;> rfl
  | setWiths i vs =>
    -- the old bindings go first, and then it is a call that adds
    have hrun : s.run (.setWiths i vs) = (s.clear i).addWiths i vs := setWiths_eq s i vs
    have hsize : (s.clear i).drafts.size = s.drafts.size := Array.size_modify
    have hknows' : ∀ v ∈ vs, v.target < (s.clear i).drafts.size := by
      rw [hsize]
      exact hknows
    unfold SparesBound at hspares
    rw [hrun] at hacyclic' hspares ⊢
    refine ⟨(h.clear i).addWiths (hacyclic.clear i) i hknows',
      ordered_addWiths (hacyclic.clear i) hacyclic' ?_ fun j hj => ?_⟩
    · rw [withsOf_clear, if_pos rfl]
      exact needsFirst_nil
    · rw [leader_clear, leader_clear] at hj
      rw [withsOf_clear, if_neg hj]
      exact (hordered j).congr fun w hw => hspares j w hw
  | addWiths i vs =>
    exact ⟨h.addWiths hacyclic i hknows, ordered_addWiths hacyclic hacyclic' (hordered i)
      fun j _ => (hordered j).congr fun w hw => hspares j w hw⟩

/-- Along a history, one call after the other. -/
theorem ordered_steps (hordered : s.Ordered) (h : s.WellFormed) (hacyclic : s.Acyclic)
    {calls : List Call}
    (hsteps : ∀ p ∈ s.steps calls, (p.1.run p.2).Acyclic ∧ p.1.Knows p.2 ∧ p.1.SparesBound p.2) :
    ∀ p ∈ s.steps calls, (p.1.run p.2).Ordered := by
  induction calls generalizing s with
  | nil => simp [steps]
  | cons c calls ih =>
    rw [steps, List.forall_mem_cons] at hsteps ⊢
    -- what the call has kept is what the next one starts from
    obtain ⟨⟨hacyclic', hknows, hspares⟩, hrest⟩ := hsteps
    obtain ⟨hwell, hnext⟩ := hordered.run h hacyclic hacyclic' hknows hspares
    exact ⟨hnext, ih hnext hwell hacyclic' hrest⟩

theorem wellFormed_empty : (⟨#[]⟩ : Sheet).WellFormed := by
  refine ⟨fun k first hfirst => ?_, fun i w hw => ?_⟩
  · cases hfirst
  · rw [withsOf_empty] at hw
    cases hw

theorem ordered_empty : (⟨#[]⟩ : Sheet).Ordered := by
  intro i
  rw [withsOf_empty]
  exact needsFirst_nil

/-- **What adding bindings keeps.** On every sheet where no query is nested in itself, adding
bindings to a select, or to a union that one leads, leaves the old list as the beginning of the new
one and binds all aliases that were given; a second call with the same bindings changes nothing. And
along a history of calls that leave bound queries as they are, everything that the query of a
binding has bound is bound, by alias, strictly before it. -/
theorem addWiths_keeps :
    (∀ (s : Sheet) (i : QueryId) (vs : List DraftWith), s.Acyclic → s.Leads i →
      s.withsOf i <+: (s.addWiths i vs).withsOf i ∧
      (∀ v ∈ vs, v.name ∈ ((s.addWiths i vs).withsOf i).map DraftWith.name) ∧
      (s.addWiths i vs).addWiths i vs = s.addWiths i vs) ∧
    ∀ calls : List Call,
      (∀ p ∈ history calls,
        (p.1.run p.2).Acyclic ∧ p.1.Knows p.2 ∧ p.1.SparesBound p.2) →
      ∀ p ∈ history calls, ∀ i before w after,
        (p.1.run p.2).withsOf i = before ++ w :: after →
          ∀ v ∈ (p.1.run p.2).withsOf w.target, v.name ∈ before.map DraftWith.name := by
  constructor
  · -- one call, on any sheet
    intro s i vs hacyclic hi
    obtain ⟨added, hrun, hlist⟩ := exists_added hacyclic hi vs
    refine ⟨?_, ?_, addWiths_addWiths hacyclic i vs⟩
    · rw [hlist]
      exact List.prefix_append _ _
    · rw [hlist]
      exact hrun.named
  · -- a history, from the empty sheet on
    intro calls hcalls p hp i
    exact ordered_steps ordered_empty wellFormed_empty acyclic_empty hcalls p hp i

/-- A query with a binding leads a union, which is bound in a third query. The binding of the first
stands in front of the union there, and a second binding to its alias is passed over. -/
theorem addWiths_keeps_nested :
    let calls : List Call := [.newSelect, .newSelect, .addWiths 1 [⟨"base", 0⟩], .newUnion 1 [0],
      .newSelect, .addWiths 3 [⟨"both", 2⟩, ⟨"base", 1⟩]]
    let s := calls.foldl run ⟨#[]⟩
    (s.Acyclic ∧ s.Leads 2 ∧
      s.withsOf 2 <+: (s.addWiths 2 [⟨"other", 0⟩]).withsOf 2 ∧
      (∀ v ∈ [(⟨"other", 0⟩ : DraftWith)],
        v.name ∈ ((s.addWiths 2 [⟨"other", 0⟩]).withsOf 2).map DraftWith.name) ∧
      (s.addWiths 2 [⟨"other", 0⟩]).addWiths 2 [⟨"other", 0⟩] = s.addWiths 2 [⟨"other", 0⟩]) ∧
    (∀ p ∈ history calls, (p.1.run p.2).Acyclic ∧ p.1.Knows p.2 ∧ p.1.SparesBound p.2) ∧
      s.withsOf 3 = [⟨"base", 0⟩] ++ ⟨"both", 2⟩ :: [] ∧ s.withsOf 2 = [⟨"base", 0⟩] ∧
      ∀ v ∈ s.withsOf 2, v.name ∈ [(⟨"base", 0⟩ : DraftWith)].map DraftWith.name := by
  intro calls s
  have hcalls : ∀ p ∈ history calls,
      (p.1.run p.2).Acyclic ∧ p.1.Knows p.2 ∧ p.1.SparesBound p.2 := by
    have hall : (history calls).all (fun (s, c) =>
        (s.run c).descends && decide (s.Knows c) && decide (s.SparesBound c)) = true := by cbv
    rintro ⟨s, c⟩ hp
    have hp := List.all_eq_true.1 hall (s, c) hp
    simp only [Bool.and_eq_true, decide_eq_true_eq] at hp
    exact ⟨acyclic_of_descends hp.1.1, hp.1.2, hp.2⟩
  have hlast := List.getLast_mem (l := history calls) (List.cons_ne_nil _ _)
  have hacyclic : s.Acyclic := (hcalls _ hlast).1
  have hleads : s.Leads 2 := by
    have hlead : (s.drafts[s.leader 2]?).map Draft.lead? = some none := by cbv
    exact Option.map_eq_some_iff.1 hlead
  have hlist : s.withsOf 3 = [⟨"base", 0⟩] ++ ⟨"both", 2⟩ :: [] := by cbv
  exact ⟨⟨hacyclic, hleads, addWiths_keeps.1 s 2 _ hacyclic hleads⟩, hcalls, hlist, by cbv,
    addWiths_keeps.2 calls hcalls _ hlast 3 _ _ _ hlist⟩

end Sheet

end KpiReport.Sql
