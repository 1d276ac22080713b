import KpiReport.Proofs.Sql.Drafts
import KpiReport.Sql.Render

/-!
# Aliases that are bound once

Whether an alias is taken is asked before the bindings are added that the new one needs. These may
take it, and it is not asked again; so a list can get an alias twice. This module says when it does.

* **`Sheet.distinct_run_iff`** — a call leaves a list in which an alias comes twice exactly if it adds
  a binding for the sake of another one with the same alias.
* **`Sheet.distinct_iff`** — so no list ever has an alias twice exactly if no call of the history does
  that.
* **`Sheet.alias_bound_twice`** — a history in which one does.
-/

namespace KpiReport.Sql

namespace Sheet

variable {s : Sheet}

/-- No query has two bindings with the same alias. -/
def Distinct (s : Sheet) : Prop :=
  ∀ i, ((s.withsOf i).map DraftWith.name).Nodup

/-- Adding the bindings to the query adds two with the same alias, one of which is needed for the
other, directly or through others. -/
def Repeats (s : Sheet) (i : QueryId) (vs : List DraftWith) : Prop :=
  ∃ added, (s.addWiths i vs).withsOf i = s.withsOf i ++ added ∧
    ∃ u ∈ added, ∃ w ∈ added,
      Relation.TransGen (Requires s.needs) w u ∧ u.name = w.name

/-- The call adds bindings in this way. When bindings are replaced, the old ones go first. -/
def RepeatsAlias (s : Sheet) : Call → Prop
  | .setWiths i vs => (s.clear i).Repeats i vs
  | .addWiths i vs => s.Repeats i vs
  | _ => False

/-- Calls that change no list of bindings keep aliases distinct. -/
theorem distinct_of_withsOf_eq {s' : Sheet} (h : s.Distinct)
    (heq : ∀ j, s'.withsOf j = s.withsOf j) : s'.Distinct := by
  intro j
  rw [heq j]
  exact h j

/-- A new query has no bindings, or, as a union, those of its first member. -/
theorem Distinct.insert (h : s.Distinct) {d : Draft} (hd : d.withs = []) :
    (s.insert d).1.Distinct := by
  intro j
  rcases withsOf_insert_cases hd s j with hnil | ⟨k, hk⟩
  · rw [hnil]
    exact List.nodup_nil
  · rw [hk]
    exact h k

theorem Distinct.clear (h : s.Distinct) (i : QueryId) : (s.clear i).Distinct := by
  intro j
  rw [withsOf_clear]
  split
  · exact List.nodup_nil
  · exact h j

/-- Adding bindings keeps aliases distinct exactly if it does not repeat one. Only the list of the
query that takes them changes, and every query that has the same list changes with it. -/
theorem distinct_addWiths_iff (hacyclic : s.Acyclic) (hdistinct : s.Distinct) (i : QueryId)
    (vs : List DraftWith) : (s.addWiths i vs).Distinct ↔ ¬ s.Repeats i vs := by
  by_cases hi : s.Leads i
  · obtain ⟨added, hrun, hlist⟩ := exists_added hacyclic hi vs
    -- the list is the old one with what was added behind it, in the order of a run
    have hiff := hrun.nodup_iff hacyclic.not_requires
    constructor
    · rintro h ⟨added', hadded', u, hu, w, hw, hneeds, hname⟩
      -- what was added is determined by the lists before and after
      obtain rfl : added = added' := List.append_cancel_left (hlist.symm.trans hadded')
      have hnodup := h i
      rw [hlist] at hnodup
      exact (hiff.1 hnodup).2 u hu w hw hneeds hname
    · -- queries with the same list as `i` have got the same, all others have kept theirs
      intro hnot j
      by_cases hj : s.leader i = s.leader j
      · rw [withsOf_addWiths_of_eq hj, hlist]
        refine hiff.2 ⟨hdistinct i, fun u hu w hw hneeds hname => hnot ?_⟩
        exact ⟨added, hlist, u, hu, w, hw, hneeds, hname⟩
      · rw [withsOf_addWiths_of_ne hj]
        exact hdistinct j
  · -- there is no select that could take the bindings
    rw [addWiths_of_not_leads hi]
    refine iff_of_true hdistinct ?_
    rintro ⟨added, hadded, u, hu, -⟩
    rw [addWiths_of_not_leads hi] at hadded
    obtain rfl : added = [] := List.self_eq_append_right.1 hadded
    cases hu

/-- **What one call does to distinct aliases.** Calls that set a clause do nothing to them, and new
queries bring in no list of their own. What is left are the two ways to add bindings. -/
theorem distinct_run_iff (hacyclic : s.Acyclic) (hdistinct : s.Distinct) (c : Call) :
    (s.run c).Distinct ↔ ¬ s.RepeatsAlias c := by
  -- clauses have no part in the lists of bindings
  have hkept : ∀ f : Draft → Draft, (∀ d, (f d).lead? = d.lead?) → (∀ d, (f d).withs = d.withs) →
      ∀ i, (s.modify i f).Distinct ↔ ¬ False := fun f hlead hwiths i =>
    iff_of_true (distinct_of_withsOf_eq hdistinct (withsOf_modify_of_withs hlead hwiths s i)) id
  cases c with
  | newSelect => exact iff_of_true (hdistinct.insert rfl) id
  | newUnion first rest => exact iff_of_true (hdistinct.insert rfl) id
  | setColumns i | setSource i | setGroupBy i | setOrderBy i =>
    refine hkept _ (fun d => ?_) (fun d => ?_) i
    all_goals cases d <;> rfl
  | setWiths i vs =>
    -- replacing the bindings is to drop the old ones and to add the new ones
    show (s.setWiths i vs).Distinct ↔ ¬ (s.clear i).Repeats i vs
    rw [setWiths_eq]
    exact distinct_addWiths_iff (hacyclic.clear i) (hdistinct.clear i) i vs
  | addWiths i vs => exact distinct_addWiths_iff hacyclic hdistinct i vs

/-- Along a history, one call after the other: as long as aliases are distinct, the next call
decides whether they stay so. -/
theorem distinct_steps_iff (hacyclic : s.Acyclic) (hdistinct : s.Distinct) {calls : List Call}
    (hsteps : ∀ p ∈ s.steps calls, (p.1.run p.2).Acyclic) :
    (∀ p ∈ s.steps calls, (p.1.run p.2).Distinct) ↔
      ∀ p ∈ s.steps calls, ¬ p.1.RepeatsAlias p.2 := by
  induction calls generalizing s with
  | nil => simp [steps]
  | cons c calls ih =>
    rw [steps, List.forall_mem_cons] at hsteps
    rw [steps, List.forall_mem_cons, List.forall_mem_cons]
    have hstep := distinct_run_iff hacyclic hdistinct c
    -- the rest of the history starts from distinct aliases, or there is nothing left to show
    constructor
    · rintro ⟨hfirst, hrest⟩
      exact ⟨hstep.1 hfirst, (ih hsteps.1 hfirst hsteps.2).1 hrest⟩
    · rintro ⟨hfirst, hrest⟩
      have hnext := hstep.2 hfirst
      exact ⟨hnext, (ih hsteps.1 hnext hsteps.2).2 hrest⟩

/-- **When aliases are bound once.** In a history of calls on any selects and unions, in which no
query is ever nested in itself, no query ever has two bindings with the same alias, exactly if no
call of the history adds a binding for the sake of another one with the same alias. -/
theorem distinct_iff (calls : List Call)
    (hacyclic : ∀ p ∈ history calls, (p.1.run p.2).Acyclic) :
    (∀ p ∈ history calls, (p.1.run p.2).Distinct) ↔
      ∀ p ∈ history calls, ¬ p.1.RepeatsAlias p.2 := by
  refine distinct_steps_iff acyclic_empty (fun i => ?_) hacyclic
  rw [withsOf_empty]
  exact List.nodup_nil

/-- A union is given a binding, and in a later query it is bound to the same alias. Then the alias
is in the list of that query twice, once for the union and once for what the union needs. -/
theorem distinct_iff_union :
    let calls : List Call := [.newSelect, .newSelect, .newUnion 1 [0], .addWiths 2 [⟨"a", 0⟩],
      .newSelect, .setWiths 3 [⟨"b", 0⟩, ⟨"a", 2⟩]]
    (∀ p ∈ history calls, (p.1.run p.2).Acyclic) ∧
      (¬ ∀ p ∈ history calls, (p.1.run p.2).Distinct) ∧
      ∃ p ∈ history calls, p.1.RepeatsAlias p.2 := by
  intro calls
  have hacyclic : ∀ p ∈ history calls, (p.1.run p.2).Acyclic := by
    have hall : (history calls).all (fun (s, c) => (s.run c).descends) = true := by cbv
    exact fun p hp => acyclic_of_descends (List.all_eq_true.1 hall p hp)
  -- the alias of the union is taken by a binding of its first member, added for its sake
  have hdistinct : ¬ ∀ p ∈ history calls, (p.1.run p.2).Distinct := by
    intro h
    have hlast := h _ (List.getLast_mem (List.cons_ne_nil _ _)) 3
    have hnames : (((calls.foldl run ⟨#[]⟩).withsOf 3).map DraftWith.name) = ["b", "a", "a"] := by
      cbv
    exact absurd (hnames ▸ hlast) (by decide)
  refine ⟨hacyclic, hdistinct, ?_⟩
  by_contra hnone
  exact hdistinct ((distinct_iff calls hacyclic).2 fun p hp hrep => hnone ⟨p, hp, hrep⟩)

/-- **An alias can be bound twice.** A query reads from a binding that is itself written over a
binding with the same alias. -/
theorem alias_bound_twice :
    let star : Template Expr := fun _ => .raw "*"
    let table : Template Expr := fun _ => .raw "t"
    let outer : DraftWith := ⟨"a", 1⟩
    let calls : List Call := [.newSelect, .setColumns 0 [star], .setSource 0 (some table),
      .newSelect, .setColumns 1 [star], .setSource 1 (some table), .addWiths 1 [⟨"a", 0⟩],
      .newSelect, .setColumns 2 [star], .setSource 2 (some fun query => .withRef (outer.bind query)),
      .addWiths 2 [outer]]
    let s := calls.foldl run ⟨#[]⟩
    (∀ p ∈ history calls, (p.1.run p.2).Acyclic) ∧
      s.withsOf 2 = [⟨"a", 0⟩, outer] ∧ ¬ s.Distinct ∧
      (s.query 2).toSql none [] = .ok ("WITH \"a\" as (SELECT * FROM t), "
        ++ "\"a\" as (SELECT * FROM t) SELECT * FROM \"a\"") := by
  intro star table outer calls s
  have hall : (history calls).all (fun (s, c) => (s.run c).descends) = true := by cbv
  have hlist : s.withsOf 2 = [⟨"a", 0⟩, outer] := by cbv
  refine ⟨fun p hp => acyclic_of_descends (List.all_eq_true.1 hall p hp), hlist, ?_, by cbv⟩
  -- the list of the last query has the alias twice
  intro h
  have hnodup := h 2
  rw [hlist] at hnodup
  exact absurd hnodup (by decide)

end Sheet

end KpiReport.Sql
