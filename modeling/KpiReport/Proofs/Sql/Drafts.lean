import KpiReport.Proofs.Sql.Hoisting
import KpiReport.Sql.Draft
import Mathlib.Data.Finset.Card
import Mathlib.Data.Finset.Range

/-!
# Bindings on a sheet

Queries under construction share parts, so the bindings that a new binding needs are those its query
has at that moment. They are looked up on the sheet, down to a fixed depth. This module shows that
the depth is never reached unless a query is nested in itself, and says what the calls for bindings
do to all lists of the sheet.

* **`Call`**, **`Sheet.history`** — what is done to a sheet, and the sheets on which it is done.
* **`Sheet.withsOf_modify`** — a change of a query shows in the queries that it leads, which are
  itself and the unions that begin with it, and in no other.
* **`Sheet.Acyclic`** — no query is nested in itself. Then what stands below a query can be counted,
  and the count bounds the depth (`Sheet.height_lt`).
* **`Sheet.exists_hoists`** — so adding bindings is a run of hoisting, whatever the depth.
* **`Sheet.exists_added`**, **`Sheet.setWiths_eq`** — what adding and what replacing bindings changes
  on the sheet.
* **`Sheet.addWiths_addWiths`** — the same bindings are not added twice.
-/

namespace KpiReport.Sql

/-! ## Drafts -/

namespace Draft

/-- The query that has the bindings of a union. -/
def lead? : Draft → Option QueryId
  | select .. => none
  | unionAll first _ => some first

/-- The bindings of a select; a union has none of its own. -/
def withs : Draft → List DraftWith
  | select ws .. => ws
  | unionAll .. => []

/-- The select with other bindings. -/
def setWiths (ws : List DraftWith) : Draft → Draft
  | select _ cs src g o => select ws cs src g o
  | unionAll first rest => unionAll first rest

theorem lead?_setWiths (ws : List DraftWith) (d : Draft) :
    (d.setWiths ws).lead? = d.lead? := by
  cases d <;> rfl

theorem setWiths_withs (d : Draft) : d.setWiths d.withs = d := by
  cases d <;> rfl

theorem withs_setWiths {d : Draft} (h : d.lead? = none) (ws : List DraftWith) :
    (d.setWiths ws).withs = ws := by
  cases d with
  | select => rfl
  | unionAll => cases h

theorem withs_of_lead?_eq_some {d : Draft} {i : QueryId} (h : d.lead? = some i) :
    d.withs = [] := by
  cases d with
  | select => cases h
  | unionAll => rfl

end Draft

/-! ## Calls -/

/-- A call that puts a query on a sheet or changes one. Queries are meant by the numbers that the
sheet has given them. -/
inductive Call where
  | newSelect
  | newUnion (first : QueryId) (rest : List QueryId)
  | setColumns (i : QueryId) (columns : List (Template Expr))
  | setSource (i : QueryId) (source : Option (Template Expr))
  | setGroupBy (i : QueryId) (groupBy : List (Template Expr))
  | setOrderBy (i : QueryId) (orderBy : List (Template Expr))
  | setWiths (i : QueryId) (vs : List DraftWith)
  | addWiths (i : QueryId) (vs : List DraftWith)

namespace Sheet

/-- The sheet after a call. -/
def run (s : Sheet) : Call → Sheet
  | .newSelect => (s.insert (.select [] [] none [] [])).1
  | .newUnion first rest => (s.insert (.unionAll first rest)).1
  | .setColumns i columns => s.setColumns i columns
  | .setSource i source => s.setSource i source
  | .setGroupBy i groupBy => s.setGroupBy i groupBy
  | .setOrderBy i orderBy => s.setOrderBy i orderBy
  | .setWiths i vs => s.setWiths i vs
  | .addWiths i vs => s.addWiths i vs

/-- The calls of a history, each with the sheet it is made on. -/
def steps (s : Sheet) : List Call → List (Sheet × Call)
  | [] => []
  | c :: calls => (s, c) :: (s.run c).steps calls

/-- The calls of a history that begins with the empty sheet. -/
def history (calls : List Call) : List (Sheet × Call) :=
  steps ⟨#[]⟩ calls

variable {s : Sheet} {i j : QueryId} {ws vs : List DraftWith}

/-! ## The select that leads a query -/

/-- The query is a select, or a union that leads to one. All other numbers have no list of bindings
that could be changed. -/
def Leads (s : Sheet) (i : QueryId) : Prop :=
  ∃ d, s.drafts[s.leader i]? = some d ∧ d.lead? = none

/-- One step towards the leader of a query: on to the first member of a union, and no step from
anything else. -/
theorem leaderFrom_succ (s : Sheet) (n : Nat) (i : QueryId) :
    s.leaderFrom (n + 1) i =
      match (s.drafts[i]?).bind Draft.lead? with
      | some first => s.leaderFrom n first
      | none => i := by
  rw [leaderFrom]
  rcases s.drafts[i]? with _ | _ | _ <;> rfl

/-- The bindings of a query are those of the draft that leads it. -/
theorem withsOf_eq (s : Sheet) (i : QueryId) :
    s.withsOf i = ((s.drafts[s.leader i]?).map Draft.withs).getD [] := by
  rw [withsOf]
  rcases s.drafts[s.leader i]? with _ | _ | _ <;> rfl

/-- A query without a leading select has no bindings. -/
theorem withsOf_of_not_leads (h : ¬ s.Leads i) : s.withsOf i = [] := by
  rw [withsOf_eq]
  cases hd : s.drafts[s.leader i]? with
  | none => rfl
  | some d =>
    cases hlead : d.lead? with
    | none => exact absurd ⟨d, hd, hlead⟩ h
    | some first => exact Draft.withs_of_lead?_eq_some hlead

/-- Queries with one leader have the same bindings. -/
theorem withsOf_congr (h : s.leader i = s.leader j) : s.withsOf i = s.withsOf j := by
  rw [withsOf_eq, withsOf_eq, h]

theorem leads_congr (h : s.leader i = s.leader j) : s.Leads i ↔ s.Leads j := by
  unfold Leads
  rw [h]

/-- A select leads itself, and so does a number without a query. -/
theorem leader_eq_self (h : (s.drafts[i]?).bind Draft.lead? = none) : s.leader i = i := by
  rw [leader]
  cases s.drafts.size with
  | zero => rfl
  | succ n => rw [leaderFrom_succ, h]

/-- Only queries that are on the sheet have bindings. -/
theorem lt_size_of_mem_withsOf {w : DraftWith} (h : w ∈ s.withsOf i) : i < s.drafts.size := by
  by_contra hout
  have hnone : s.drafts[i]? = none := Array.getElem?_eq_none (Nat.le_of_not_lt hout)
  -- a number without a query leads itself, and has no draft with bindings
  have hleader : s.leader i = i := by
    apply leader_eq_self
    rw [hnone, Option.bind_none]
  rw [withsOf_eq, hleader, hnone] at h
  cases h

/-! ## New queries -/

/-- The bindings of a draft are those of a query. -/
theorem withs_eq_withsOf {d : Draft} (hd : s.drafts[i]? = some d) :
    d.withs = [] ∨ d.withs = s.withsOf i := by
  cases hlead : d.lead? with
  | some first => exact .inl (Draft.withs_of_lead?_eq_some hlead)
  | none =>
    right
    have hleader : s.leader i = i := by
      apply leader_eq_self
      rw [hd, Option.bind_some, hlead]
    rw [withsOf_eq, hleader, hd]
    rfl

/-- With a query that has no bindings, no list of bindings comes to the sheet. Nothing is assumed of
the numbers that unions begin with, so even an old query may have another list afterwards; but it is
one that was there. -/
theorem withsOf_insert_cases {d : Draft} (hd : d.withs = []) (s : Sheet) (j : QueryId) :
    (s.insert d).1.withsOf j = [] ∨ ∃ k, (s.insert d).1.withsOf j = s.withsOf k := by
  have hlist : (s.insert d).1.withsOf j =
      (((s.drafts.push d)[(s.insert d).1.leader j]?).map Draft.withs).getD [] :=
    withsOf_eq _ j
  -- whoever leads `j` now, it is the new query or one that was there
  generalize (s.insert d).1.leader j = k at hlist
  rw [hlist, Array.getElem?_push]
  split
  · exact .inl hd
  · cases hk : s.drafts[k]? with
    | none => exact .inl rfl
    | some e => exact (withs_eq_withsOf hk).imp_right fun h => ⟨k, h⟩

/-! ## Changes of one query -/

section Modify

variable {f : Draft → Draft} (hf : ∀ d, (f d).lead? = d.lead?)

include hf

/-- A change that keeps unions as they are keeps what every query is led by. -/
theorem bind_lead?_modify (s : Sheet) (i k : QueryId) :
    ((s.modify i f).drafts[k]?).bind Draft.lead? = (s.drafts[k]?).bind Draft.lead? := by
  show ((s.drafts.modify (s.leader i) f)[k]?).bind Draft.lead? = _
  rw [Array.getElem?_modify]
  split
  · cases s.drafts[k]? with
    | none => rfl
    | some d => exact hf d
  · rfl

/-- A change that keeps unions as they are does not change who leads whom. -/
theorem leader_modify (s : Sheet) (i j : QueryId) : (s.modify i f).leader j = s.leader j := by
  -- the steps are the same, and there are as many
  have hsteps : ∀ n k, (s.modify i f).leaderFrom n k = s.leaderFrom n k := by
    intro n
    induction n with
    | zero => exact fun k => rfl
    | succ n ih =>
      intro k
      rw [leaderFrom_succ, leaderFrom_succ, bind_lead?_modify hf]
      simp only [ih]
  have hsize : (s.modify i f).drafts.size = s.drafts.size := Array.size_modify
  rw [leader, leader, hsize, hsteps]

/-- A change of a query shows in every query with the same leader, and in no other. What these get
is read off the changed draft of the leader. -/
theorem withsOf_modify (s : Sheet) (i j : QueryId) :
    (s.modify i f).withsOf j =
      if s.leader i = s.leader j then
        ((s.drafts[s.leader j]?).map fun d => (f d).withs).getD []
      else s.withsOf j := by
  rw [withsOf_eq, leader_modify hf]
  show (((s.drafts.modify (s.leader i) f)[s.leader j]?).map Draft.withs).getD [] = _
  rw [Array.getElem?_modify]
  split
  · show (Option.map Draft.withs (Option.map f s.drafts[s.leader j]?)).getD [] = _
    rw [Option.map_map]
    rfl
  · rw [withsOf_eq]

/-- A change that keeps the bindings of selects keeps all bindings. All calls that set a clause are
of this kind. -/
theorem withsOf_modify_of_withs (hwiths : ∀ d, (f d).withs = d.withs) (s : Sheet)
    (i j : QueryId) : (s.modify i f).withsOf j = s.withsOf j := by
  rw [withsOf_modify hf]
  split
  · simp only [hwiths, withsOf_eq]
  · rfl

end Modify

/-- A change that does nothing to the leading draft does nothing to the sheet. The draft may be
missing as well. -/
theorem modify_eq_self {f : Draft → Draft}
    (h : ∀ d, s.drafts[s.leader i]? = some d → f d = d) : s.modify i f = s := by
  have hdrafts : s.drafts.modify (s.leader i) f = s.drafts := by
    refine Array.ext_getElem? fun k => ?_
    rw [Array.getElem?_modify]
    split
    · next heq =>
      subst heq
      cases hd : s.drafts[s.leader i]? with
      | none => rfl
      | some d => exact congrArg some (h d hd)
    · rfl
  show (⟨s.drafts.modify (s.leader i) f⟩ : Sheet) = s
  rw [hdrafts]

/-- Setting the bindings of a query sets them for every query with the same leader. -/
theorem withsOf_setWiths (h : s.Leads i) (ws : List DraftWith) (j : QueryId) :
    (s.modify i (Draft.setWiths ws)).withsOf j =
      if s.leader i = s.leader j then ws else s.withsOf j := by
  rw [withsOf_modify (Draft.lead?_setWiths ws)]
  split
  · next heq =>
    obtain ⟨d, hd, hlead⟩ := (leads_congr heq).1 h
    rw [hd]
    exact Draft.withs_setWiths hlead ws
  · rfl

/-- Where there is no select that could take them, bindings are lost. -/
theorem modify_setWiths_of_not_leads (h : ¬ s.Leads i) (ws : List DraftWith) :
    s.modify i (Draft.setWiths ws) = s := by
  refine modify_eq_self fun d hd => ?_
  cases d with
  | select _ cs src g o => exact absurd ⟨_, hd, rfl⟩ h
  | unionAll => rfl

/-! ## Queries that are not nested in themselves -/

/-- The bindings that a binding needs. -/
def needs (s : Sheet) (w : DraftWith) : List DraftWith :=
  s.withsOf w.target

/-- The second query is bound in the list of the first one. -/
def Nests (s : Sheet) (i j : QueryId) : Prop :=
  ∃ w ∈ s.withsOf i, w.target = j

/-- No query is nested in itself, directly or through others. -/
def Acyclic (s : Sheet) : Prop :=
  ∀ i, ¬ Relation.TransGen s.Nests i i

/-- It is enough to number the queries so that every bound query has a smaller number than the one
that binds it. -/
theorem acyclic_of_rank (rank : QueryId → Nat)
    (h : ∀ i, ∀ w ∈ s.withsOf i, rank w.target < rank i) : s.Acyclic := by
  -- along a chain of bindings the rank gets smaller
  have hrank : ∀ i j, Relation.TransGen s.Nests i j → rank j < rank i := by
    intro i j hij
    induction hij with
    | single hstep =>
      obtain ⟨w, hw, rfl⟩ := hstep
      exact h _ w hw
    | tail _ hstep ih =>
      obtain ⟨w, hw, rfl⟩ := hstep
      exact (h _ w hw).trans ih
  exact fun i hi => absurd (hrank i i hi) (Nat.lt_irrefl _)

/-- Fewer bindings nest no more. -/
theorem Acyclic.mono (h : s.Acyclic) {s' : Sheet} (hsub : ∀ i, s'.withsOf i ⊆ s.withsOf i) :
    s'.Acyclic := by
  have hnests : ∀ j k, s'.Nests j k → s.Nests j k :=
    fun j _ ⟨w, hw, hk⟩ => ⟨w, hsub j hw, hk⟩
  exact fun i hi => h i (Relation.TransGen.mono hnests i i hi)

/-- Every query is bound in the lists of later ones only. -/
def descends (s : Sheet) : Bool :=
  (List.range s.drafts.size).all fun i => (s.withsOf i).all fun w => w.target < i

/-- The numbers of the sheet will often do, as a query is mostly made before it is bound. This can
be evaluated, which `Acyclic` cannot. -/
theorem acyclic_of_descends (h : s.descends = true) : s.Acyclic := by
  refine acyclic_of_rank id fun i w hw => ?_
  have hi := List.all_eq_true.1 h i (List.mem_range.2 (lt_size_of_mem_withsOf hw))
  exact of_decide_eq_true (List.all_eq_true.1 hi w hw)

/-- In a sheet without such queries no binding is needed for itself. -/
theorem Acyclic.not_requires (h : s.Acyclic) (w : DraftWith) :
    ¬ Relation.TransGen (Requires s.needs) w w := by
  intro hw
  refine h w.target (hw.lift DraftWith.target ?_)
  exact fun v u hu => ⟨u, hu, rfl⟩

open Classical in
/-- How many queries are nested in a query, itself included. A number without a query has none.

What a bound query has nested in itself is nested in the query that binds it as well, so the count
gets smaller on the way down. -/
noncomputable def height (s : Sheet) (i : QueryId) : Nat :=
  if i < s.drafts.size then
    ((Finset.range s.drafts.size).filter (Relation.TransGen s.Nests i)).card + 1
  else 0

/-- A bound query is of less height than the one that binds it. What is nested in it is nested in
the other, and it is itself nested there but not in itself. -/
theorem height_lt (h : s.Acyclic) {w : DraftWith} (hw : w ∈ s.withsOf i) :
    s.height w.target < s.height i := by
  classical
  have hi : i < s.drafts.size := lt_size_of_mem_withsOf hw
  have hstep : s.Nests i w.target := ⟨w, hw, rfl⟩
  unfold height
  rw [if_pos hi]
  split
  · next htarget =>
    -- what is nested in the target is nested in `i`, and so is the target, which is not in itself
    refine Nat.succ_lt_succ (Finset.card_lt_card ?_)
    rw [Finset.ssubset_iff_of_subset]
    · refine ⟨w.target, ?_, ?_⟩
      · simp only [Finset.mem_filter, Finset.mem_range]
        exact ⟨htarget, .single hstep⟩
      · simp only [Finset.mem_filter, not_and]
        exact fun _ => h w.target
    · intro k hk
      simp only [Finset.mem_filter] at hk ⊢
      exact ⟨hk.1, .head hstep hk.2⟩
  · omega

/-- No height reaches the depth down to which bindings are looked up. There are only so many queries
on the sheet. -/
theorem height_lt_depth (s : Sheet) (i : QueryId) : s.height i < s.depth := by
  classical
  unfold height depth
  split
  · have hcard := Finset.card_filter_le (Finset.range s.drafts.size)
      (Relation.TransGen s.Nests i)
    rw [Finset.card_range] at hcard
    omega
  · omega

/-! ## Adding bindings -/

theorem any_name_iff {ws : List DraftWith} {a : String} :
    ws.any (·.name == a) = true ↔ a ∈ ws.map DraftWith.name := by
  simp

/-- A depth that is not reached does not show. By induction on the depth, for the needs of a
binding, and on the bindings, for those that are given after it. -/
theorem exists_hoists_of_height (h : s.Acyclic) (depth : Nat) (ws vs : List DraftWith)
    (hdepth : ∀ v ∈ vs, s.height v.target < depth) :
    ∃ added, s.addWithsTo depth ws vs = ws ++ added ∧
      Hoists DraftWith.name s.needs ws vs added := by
  induction depth generalizing ws vs with
  -- no query is of height below zero, so there is nothing to add
  | zero =>
    cases vs with
    | nil => exact ⟨[], by rw [addWithsTo, List.append_nil], .nil ws⟩
    | cons v vs => exact absurd (hdepth v List.mem_cons_self) (Nat.not_lt_zero _)
  | succ depth ihdepth =>
    induction vs generalizing ws with
    | nil => exact ⟨[], by rw [addWithsTo, List.append_nil], .nil ws⟩
    -- the alias is taken, or `v` is added behind its needs
    | cons v vs ihvs =>
      have hrest : ∀ u ∈ vs, s.height u.target < depth + 1 :=
        fun u hu => hdepth u (List.mem_cons_of_mem v hu)
      rw [addWithsTo]
      split
      · next htaken =>
        obtain ⟨added, heq, hadded⟩ := ihvs ws hrest
        exact ⟨added, heq, .taken (any_name_iff.1 htaken) hadded⟩
      · next hfresh =>
        -- the needs of `v` lie deeper, what comes after `v` does not
        have hneeds : ∀ u ∈ s.needs v, s.height u.target < depth := fun u hu =>
          (height_lt h hu).trans_le (Nat.le_of_lt_succ (hdepth v List.mem_cons_self))
        obtain ⟨before, hbefore, hrun⟩ := ihdepth ws (s.needs v) hneeds
        obtain ⟨after, hafter, hrun'⟩ := ihvs (ws ++ before ++ [v]) hrest
        refine ⟨before ++ v :: after, ?_, .fresh (fun hv => hfresh (any_name_iff.2 hv)) hrun hrun'⟩
        have heq : s.addWithsTo depth ws (s.withsOf v.target) = ws ++ before := hbefore
        simp only [heq, hafter]
        simp

/-- So what is added to a list is what a run of hoisting adds, with no depth in it. -/
theorem exists_hoists (h : s.Acyclic) (ws vs : List DraftWith) :
    ∃ added, s.addWithsTo s.depth ws vs = ws ++ added ∧
      Hoists DraftWith.name s.needs ws vs added :=
  exists_hoists_of_height h s.depth ws vs fun v _ => s.height_lt_depth v.target

/-- Where all aliases are taken nothing is looked up, so that it does not matter what is nested in
what. -/
theorem addWithsTo_of_taken (s : Sheet) (depth : Nat)
    (h : ∀ v ∈ vs, v.name ∈ ws.map DraftWith.name) : s.addWithsTo depth ws vs = ws := by
  induction vs with
  | nil => rw [addWithsTo]
  | cons v vs ih =>
    have htaken := any_name_iff.2 (h v List.mem_cons_self)
    rw [addWithsTo.eq_def]
    simp only [htaken, if_true]
    exact ih fun u hu => h u (List.mem_cons_of_mem v hu)

/-- Setting the bindings of a select leaves its clauses and all unions as they are. -/
theorem modify_select_eq (s : Sheet) (i : QueryId) (ws : List DraftWith) :
    (s.modify i fun
      | .select _ cs src g o => .select ws cs src g o
      | d => d) = s.modify i (Draft.setWiths ws) := by
  refine congrArg (s.modify i) (funext fun d => ?_)
  cases d <;> rfl

/-- Adding bindings to a query sets its list to the longer one. -/
theorem addWiths_eq (s : Sheet) (i : QueryId) (vs : List DraftWith) :
    s.addWiths i vs = s.modify i (Draft.setWiths (s.addWithsTo s.depth (s.withsOf i) vs)) :=
  modify_select_eq s i _

/-- Where no select leads, adding bindings does nothing. -/
theorem addWiths_of_not_leads (h : ¬ s.Leads i) (vs : List DraftWith) : s.addWiths i vs = s := by
  rw [addWiths_eq, modify_setWiths_of_not_leads h]

theorem leader_addWiths (s : Sheet) (i j : QueryId) (vs : List DraftWith) :
    (s.addWiths i vs).leader j = s.leader j := by
  rw [addWiths_eq]
  exact leader_modify (Draft.lead?_setWiths _) s i j

theorem withsOf_addWiths_of_ne (hne : s.leader i ≠ s.leader j) (vs : List DraftWith) :
    (s.addWiths i vs).withsOf j = s.withsOf j := by
  rw [addWiths_eq, withsOf_modify (Draft.lead?_setWiths _), if_neg hne]

/-- What is added to the list of a query is added to that of every query with the same leader. -/
theorem withsOf_addWiths_of_eq (heq : s.leader i = s.leader j) (vs : List DraftWith) :
    (s.addWiths i vs).withsOf j = (s.addWiths i vs).withsOf i := by
  apply withsOf_congr
  rw [leader_addWiths, leader_addWiths, heq]

/-- **What a call adds to the list of a query.** All that is known of a run of hoisting is known of
it: what it adds, where it comes from and in which order. -/
theorem exists_added (hacyclic : s.Acyclic) (hi : s.Leads i) (vs : List DraftWith) :
    ∃ added, Hoists DraftWith.name s.needs (s.withsOf i) vs added ∧
      (s.addWiths i vs).withsOf i = s.withsOf i ++ added := by
  obtain ⟨added, heq, hrun⟩ := exists_hoists hacyclic (s.withsOf i) vs
  refine ⟨added, hrun, ?_⟩
  rw [addWiths_eq, heq, withsOf_setWiths hi, if_pos rfl]

/-- **Adding is idempotent.** The first call leaves no alias for the second one to add, and so the
second one sets the list to what it is. -/
theorem addWiths_addWiths (h : s.Acyclic) (i : QueryId) (vs : List DraftWith) :
    (s.addWiths i vs).addWiths i vs = s.addWiths i vs := by
  -- without a leading select there is no list, and both calls do nothing
  by_cases hi : s.Leads i
  · obtain ⟨added, hrun, hlist⟩ := exists_added h hi vs
    rw [addWiths_eq (s.addWiths i vs), addWithsTo_of_taken]
    · -- the list is set to what it is
      refine modify_eq_self fun d hd => ?_
      have hwiths : (s.addWiths i vs).withsOf i = d.withs := by
        rw [withsOf_eq, hd]
        rfl
      rw [hwiths]
      exact d.setWiths_withs
    · rw [hlist]
      exact hrun.named
  · rw [addWiths_of_not_leads hi, addWiths_of_not_leads hi]

/-! ## Replacing bindings -/

/-- Takes all bindings from a query. -/
def clear (s : Sheet) (i : QueryId) : Sheet :=
  s.modify i (Draft.setWiths [])

theorem leader_clear (s : Sheet) (i j : QueryId) : (s.clear i).leader j = s.leader j :=
  leader_modify (Draft.lead?_setWiths []) s i j

/-- Bindings are dropped for every query with the same leader, as they are set for every one of
them. -/
theorem withsOf_clear (s : Sheet) (i j : QueryId) :
    (s.clear i).withsOf j = if s.leader i = s.leader j then [] else s.withsOf j := by
  -- without a leading select there was no list to drop
  by_cases hi : s.Leads i
  · exact withsOf_setWiths hi [] j
  · rw [clear, modify_setWiths_of_not_leads hi]
    split
    · next heq => rw [← withsOf_congr heq, withsOf_of_not_leads hi]
    · rfl

theorem withsOf_clear_subset (s : Sheet) (i j : QueryId) :
    (s.clear i).withsOf j ⊆ s.withsOf j := by
  rw [withsOf_clear]
  split
  · exact List.nil_subset _
  · exact List.Subset.refl _

theorem Acyclic.clear (h : s.Acyclic) (i : QueryId) : (s.clear i).Acyclic :=
  h.mono (withsOf_clear_subset s i)

/-- Replacing bindings is taking them away and adding others. What the new ones need is looked up
when the old ones are gone. -/
theorem setWiths_eq (s : Sheet) (i : QueryId) (vs : List DraftWith) :
    s.setWiths i vs = (s.clear i).addWiths i vs := by
  have hset : ∀ t : Sheet, (s.modify i fun
      | .select _ cs src g o => .select [] cs src g o
      | d => d) = t →
      s.setWiths i vs = t.modify i (Draft.setWiths (t.addWithsTo t.depth [] vs)) := by
    rintro _ rfl
    exact modify_select_eq _ i _
  have hempty : (s.clear i).withsOf i = [] := by
    rw [withsOf_clear, if_pos rfl]
  rw [hset (s.clear i) (modify_select_eq s i []), addWiths_eq, hempty]

/-! ## The empty sheet -/

theorem withsOf_empty (i : QueryId) : (⟨#[]⟩ : Sheet).withsOf i = [] := by
  rw [withsOf_eq]
  rfl

theorem acyclic_empty : (⟨#[]⟩ : Sheet).Acyclic := by
  refine acyclic_of_rank id fun i w hw => ?_
  rw [withsOf_empty] at hw
  cases hw

end Sheet

end KpiReport.Sql
