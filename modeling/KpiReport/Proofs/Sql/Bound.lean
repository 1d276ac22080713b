import KpiReport.Proofs.Sql.Pieces
import KpiReport.Sql.Binding
import Mathlib.Logic.Relation

/-!
# Every reference is to a binding

A query that gets a binding takes over the bindings of the bound query, because these are not
written inside it. So the bindings of a *well-bound* query, whose references are to bindings it was
given, hold whatever the bound queries refer to.

* **`Grown`** — how adding bindings can change a list: one binding at a time, each after those its
  query needs. Everything about such lists follows from `grown_addWiths`.
* **`Query.WellBound.bound_of_mem_refs`** — what a query refers to is bound in its list, with one
  exception. The list of a union is that of its first member, so what a later member refers to may
  be in no list: it has *strayed*.
* **`Query.WellBound.references_defined_iff`** — so every reference in the text of a select is to an
  alias defined in front of it, exactly if nothing strays that is not bound elsewhere too.
* **`reference_not_defined`** — an alias that has strayed can be missing from the text.
-/

namespace KpiReport.Sql

/-- An alias is bound in a list if a binding of the list has it, whatever is bound to it. -/
theorem bound_iff {ws : List With} {a : String} : bound ws a = true ↔ ∃ w ∈ ws, w.name = a := by
  simp [bound]

/-! ## How a list of bindings grows -/

/-- The second binding is needed for the first, directly or through others. -/
abbrev Needs : With → With → Prop :=
  Relation.ReflTransGen fun v w => w ∈ v.query.withs

/-- A list that starts with `ws` and to which bindings were added one at a time, each with a source
and after the bindings of its query. Nothing is said about which bindings were passed over. -/
inductive Grown (source : With → Prop) (ws : List With) : List With → Prop where
  | refl : Grown source ws ws
  | add {us : List With} {w : With} (h : Grown source ws us)
      (hneeds : ∀ v ∈ w.query.withs, bound us v.name = true) (hw : source w) :
      Grown source ws (us ++ [w])

namespace Grown

variable {source : With → Prop} {ws us vs : List With}

theorem trans (h : Grown source ws us) (h' : Grown source us vs) : Grown source ws vs := by
  induction h' with
  | refl => exact h
  | add _ hneeds hw ih => exact .add ih hneeds hw

theorem mono {source' : With → Prop} (h : Grown source ws us)
    (hsource : ∀ w, source w → source' w) : Grown source' ws us := by
  induction h with
  | refl => exact .refl
  | add _ hneeds hw ih => exact .add ih hneeds (hsource _ hw)

theorem bound_append {w : With} {a : String} (h : bound us a = true) :
    bound (us ++ [w]) a = true := by
  simp only [bound, List.any_append, Bool.or_eq_true] at h ⊢
  exact .inl h

/-- What is bound stays bound while the list grows. -/
theorem bound_mono {a : String} (h : Grown source ws us) (ha : bound ws a = true) :
    bound us a = true := by
  induction h with
  | refl => exact ha
  | add _ _ _ ih => exact bound_append ih

/-- A list grown from nothing binds what the queries in it need. For each binding this was so when
it was added, and the list has only grown since. -/
theorem bound_needs (h : Grown source [] us) :
    ∀ w ∈ us, ∀ v ∈ w.query.withs, bound us v.name = true := by
  induction h with
  | refl => simp
  | add _ hneeds _ ih =>
    intro w hw v hv
    rcases List.mem_append.1 hw with hw | hw
    · exact bound_append (ih w hw v hv)
    · obtain rfl := List.mem_singleton.1 hw
      exact bound_append (hneeds v hv)

/-- In a list grown from nothing, every binding has a source. -/
theorem source_of_mem (h : Grown source [] us) : ∀ w ∈ us, source w := by
  induction h with
  | refl => simp
  | add _ _ hw ih =>
    intro w hmem
    rcases List.mem_append.1 hmem with hmem | hmem
    · exact ih w hmem
    · obtain rfl := List.mem_singleton.1 hmem
      exact hw

end Grown

/-- Adding a binding leaves its alias bound: by it, or by one that was there before. -/
theorem bound_addWith (ws : List With) (v : With) : bound (addWith ws v) v.name = true := by
  obtain ⟨name, q⟩ := v
  rw [addWith]
  split
  · assumption
  · simp [bound]

mutual

/-- Adding bindings adds these and what they need. The five statements of this section go together
along the recursion of the three functions, from a binding to its query and from that to its
bindings. -/
theorem grown_addWiths (ws vs : List With) :
    Grown (fun w => ∃ v ∈ vs, Needs v w) ws (addWiths ws vs) := by
  match vs with
  | [] =>
    rw [addWiths]
    exact .refl
  | v :: vs =>
    rw [addWiths]
    -- first the one binding, then the others to the longer list
    refine Grown.trans ((grown_addWith ws v).mono ?_) ((grown_addWiths _ vs).mono ?_)
    · exact fun w hw => ⟨v, List.mem_cons_self, hw⟩
    · exact fun w ⟨u, hu, hw⟩ => ⟨u, List.mem_cons_of_mem v hu, hw⟩

/-- Adding one binding adds it and what it needs, or nothing where its alias is taken. -/
theorem grown_addWith (ws : List With) (v : With) : Grown (Needs v) ws (addWith ws v) := by
  match v with
  | .mk name q =>
    rw [addWith]
    split
    · exact .refl
    · -- the query's own bindings go first, then the binding itself
      refine .add ((grown_addNeeds ws q).mono ?_) ?_ .refl
      · exact fun w ⟨u, hu, hw⟩ => .head hu hw
      · exact bound_addNeeds ws q

/-- What a query needs are the bindings in its list. Of a union this is the list of its first
member. -/
theorem grown_addNeeds (ws : List With) (q : Query) :
    Grown (fun w => ∃ v ∈ q.withs, Needs v w) ws (addNeeds ws q) := by
  match q with
  | .select vs .. =>
    rw [addNeeds]
    exact grown_addWiths ws vs
  | .unionAll q _ =>
    -- later members add nothing
    rw [addNeeds]
    exact grown_addNeeds ws q

/-- What is added is bound then. -/
theorem bound_addWiths (ws vs : List With) : ∀ v ∈ vs, bound (addWiths ws vs) v.name = true := by
  match vs with
  | [] => simp
  | v :: vs =>
    rw [addWiths]
    intro u hu
    -- the binding is bound as soon as it was added, and stays so
    rcases List.mem_cons.1 hu with rfl | hu
    · exact (grown_addWiths _ vs).bound_mono (bound_addWith ws u)
    · exact bound_addWiths _ vs u hu

/-- So is what a query needs, which is why a binding can be added behind it. -/
theorem bound_addNeeds (ws : List With) (q : Query) :
    ∀ v ∈ q.withs, bound (addNeeds ws q) v.name = true := by
  match q with
  | .select vs .. =>
    rw [addNeeds]
    exact bound_addWiths ws vs
  | .unionAll q _ =>
    rw [addNeeds]
    exact bound_addNeeds ws q

end

/-! ## Well-bound queries -/

/-- All that the expression refers to is among the bindings, and no query stands in it. This is what
a caller can write who has these bindings at hand. -/
inductive Expr.Over (vs : List With) : Expr → Prop where
  | raw (text : String) : Over vs (.raw text)
  | num (text : String) : Over vs (.num text)
  | binary (op : String) {l r : Expr} (hl : Over vs l) (hr : Over vs r) : Over vs (.binary op l r)
  | aggregate (fn : String) {arg : Expr} (h : Over vs arg) : Over vs (.aggregate fn arg)
  | window {fn : Expr} {ps : List Expr} (hfn : Over vs fn) (hps : ∀ p ∈ ps, Over vs p) :
      Over vs (.window fn ps)
  | column {e : Expr} (h : Over vs e) (name : String) : Over vs (.column e name)
  | order {e : Expr} (h : Over vs e) (direction : Direction) (nulls : Nulls) :
      Over vs (.order e direction nulls)
  | withRef {w : With} (hw : w ∈ vs) : Over vs (.withRef w)

/-- A select refers only to bindings it was given, in one call or in several, and their queries are
well bound themselves. So are all members of a union.

The list of the select is not arbitrary. It is what adding these bindings leaves behind, so it has
what the bound queries need as well. -/
inductive Query.WellBound : Query → Prop where
  | select {vs : List With} {columns groupBy orderBy : List Expr} {source : Option Expr}
      (hvs : ∀ v ∈ vs, v.query.WellBound)
      (hover : ∀ e ∈ columns ++ source.toList ++ groupBy ++ orderBy, e.Over vs) :
      WellBound (.select (addWiths [] vs) columns source groupBy orderBy)
  | unionAll {q : Query} {qs : List Query} (hq : q.WellBound) (hqs : ∀ r ∈ qs, r.WellBound) :
      WellBound (.unionAll q qs)

/-- It makes no difference whether the bindings were given in one call or in several: the list that
the calls leave behind is that of a single one. -/
theorem Query.WellBound.select_calls {calls : List (List With)}
    {columns groupBy orderBy : List Expr} {source : Option Expr}
    (hvs : ∀ vs ∈ calls, ∀ v ∈ vs, v.query.WellBound)
    (hover : ∀ e ∈ columns ++ source.toList ++ groupBy ++ orderBy, e.Over calls.flatten) :
    (Query.select (calls.foldl addWiths []) columns source groupBy orderBy).WellBound := by
  rw [foldl_addWiths]
  refine .select (fun v hv => ?_) hover
  obtain ⟨vs, hmem, hv⟩ := List.mem_flatten.1 hv
  exact hvs vs hmem v hv

/-- In the query there is a union with a later member that refers to the alias, while the first
member does not bind it. When the union is bound somewhere, only the list of its first member is
taken over. -/
inductive Query.Strays (a : String) : Query → Prop where
  | union {q r : Query} {qs : List Query} (hr : r ∈ qs) (href : a ∈ r.refs)
      (hfirst : bound q.withs a = false) : Strays a (.unionAll q qs)
  | member {q r : Query} {qs : List Query} (hr : r ∈ q :: qs) (h : r.Strays a) :
      Strays a (.unionAll q qs)

/-! ## What well-bound queries refer to -/

theorem Expr.mem_refsAll {es : List Expr} {a : String} :
    a ∈ Expr.refsAll es ↔ ∃ e ∈ es, a ∈ e.refs := by
  induction es with
  | nil => simp [Expr.refsAll]
  | cons e es ih => simp [Expr.refsAll, ih]

theorem Query.mem_refsAll {qs : List Query} {a : String} :
    a ∈ Query.refsAll qs ↔ ∃ q ∈ qs, a ∈ q.refs := by
  induction qs with
  | nil => simp [Query.refsAll]
  | cons q qs ih => simp [Query.refsAll, ih]

theorem Query.mem_refs_unionAll {q : Query} {qs : List Query} {a : String} :
    a ∈ (Query.unionAll q qs).refs ↔ ∃ r ∈ q :: qs, a ∈ r.refs := by
  rw [Query.refs, List.mem_append, Query.mem_refsAll]
  simp

/-- A select refers to what an expression in one of its clauses refers to. Its bindings are not
among the clauses. -/
theorem Query.mem_refs_select {ws : List With} {columns groupBy orderBy : List Expr}
    {source : Option Expr} {a : String} :
    a ∈ (Query.select ws columns source groupBy orderBy).refs ↔
      ∃ e ∈ columns ++ source.toList ++ groupBy ++ orderBy, a ∈ e.refs := by
  have hsource : a ∈ Expr.sourceRefs source ↔ ∃ e ∈ source.toList, a ∈ e.refs := by
    cases source <;> simp [Expr.sourceRefs]
  simp only [Query.refs, List.mem_append, Expr.mem_refsAll, hsource, or_and_right, exists_or]

/-- An expression over bindings refers to nothing but these. By induction on the expression, which
has no query in it. -/
theorem Expr.Over.bound_of_mem_refs {vs : List With} {e : Expr} (he : e.Over vs) {a : String}
    (ha : a ∈ e.refs) : bound vs a = true := by
  induction he with
  | raw | num =>
    rw [Expr.refs] at ha
    cases ha
  | binary _ _ _ ihl ihr =>
    rw [Expr.refs, List.mem_append] at ha
    exact ha.elim ihl ihr
  | aggregate _ _ ih | column _ _ ih | order _ _ _ ih =>
    rw [Expr.refs] at ha
    exact ih ha
  | window _ _ ihfn ihps =>
    rw [Expr.refs, List.mem_append, Expr.mem_refsAll] at ha
    rcases ha with ha | ⟨p, hp, ha⟩
    · exact ihfn ha
    · exact ihps p hp ha
  | @withRef w hw =>
    obtain ⟨name, q⟩ := w
    rw [Expr.refs, List.mem_singleton] at ha
    subst ha
    exact bound_iff.2 ⟨_, hw, rfl⟩

namespace Query.WellBound

variable {q : Query}

/-- What a query refers to is bound in its list or has strayed. Only a union can have it stray: a
select binds all it was given. -/
theorem bound_of_mem_refs (hq : q.WellBound) {a : String} (ha : a ∈ q.refs) :
    bound q.withs a = true ∨ q.Strays a := by
  induction hq with
  | @select vs columns groupBy orderBy source _ hover =>
    -- a select refers to what it was given, and that was added to its list
    obtain ⟨e, he, ha⟩ := Query.mem_refs_select.1 ha
    obtain ⟨v, hv, rfl⟩ := bound_iff.1 ((hover e he).bound_of_mem_refs ha)
    exact .inl (bound_addWiths [] vs v hv)
  | @unionAll q qs _ _ ihq ihqs =>
    obtain ⟨r, hr, href⟩ := Query.mem_refs_unionAll.1 ha
    rcases List.mem_cons.1 hr with rfl | hrest
    · -- the first member has the list of the union
      exact (ihq href).imp_right (.member hr)
    · cases hfirst : bound q.withs a with
      | true => exact .inl hfirst
      | false => exact .inr (.union hrest href hfirst)

/-- In a select itself nothing strays. -/
theorem bound_of_mem_refs_select (hq : q.WellBound) (hselect : q.members? = none) {a : String}
    (ha : a ∈ q.refs) : bound q.withs a = true := by
  refine (hq.bound_of_mem_refs ha).resolve_right ?_
  -- a select has no members
  rintro (_ | _) <;> cases hselect

/-- Whatever is needed for a binding of a well-bound query has a well-bound query itself. By
induction on the query: a binding of its list was given to it, or is needed for one that was. -/
theorem of_needs (hq : q.WellBound) : ∀ w ∈ q.withs, ∀ u, Needs w u → u.query.WellBound := by
  induction hq with
  | @select vs _ _ _ _ hvs _ ih =>
    intro w hw u hu
    obtain ⟨v, hv, hneeds⟩ := (grown_addWiths [] vs).source_of_mem w hw
    -- `u` is one of the bindings given, or needed for one that such a binding's query lists
    rcases (hneeds.trans hu).cases_head with rfl | ⟨x, hx, hxu⟩
    · exact hvs v hv
    · exact ih v hv x hx u hxu
  | unionAll _ _ ih _ => exact ih

/-- The list of a well-bound query binds what the queries in it list. For a union this is said of
the list of its first member, which is the one that it has. -/
theorem bound_needs (hq : q.WellBound) :
    ∀ w ∈ q.withs, ∀ v ∈ w.query.withs, bound q.withs v.name = true := by
  induction hq with
  | @select vs => exact (grown_addWiths [] vs).bound_needs
  | unionAll _ _ ih _ => exact ih

/-- What a bound query refers to is bound next to it, or has strayed in the bound query. -/
theorem bound_of_mem_refs_binding (hq : q.WellBound) {w : With} (hw : w ∈ q.withs) {a : String}
    (ha : a ∈ w.query.refs) : bound q.withs a = true ∨ w.query.Strays a := by
  refine ((hq.of_needs w hw w .refl).bound_of_mem_refs ha).imp_left fun hbound => ?_
  obtain ⟨v, hv, rfl⟩ := bound_iff.1 hbound
  exact hq.bound_needs w hw v hv

end Query.WellBound

/-- What strays in a query is referred to in its text. -/
theorem Query.Strays.mem_refs {q : Query} {a : String} (h : q.Strays a) : a ∈ q.refs := by
  induction h with
  | union hr href _ => exact Query.mem_refs_unionAll.2 ⟨_, List.mem_cons_of_mem _ hr, href⟩
  | member hr _ ih => exact Query.mem_refs_unionAll.2 ⟨_, hr, ih⟩

/-! ## The text of a well-bound select -/

section Text

variable {o o' : Options}

/-- A list of expressions is written alike under two lists of options if each of them is. -/
theorem Expr.piecesAll_congr {es : List Expr} (h : ∀ e ∈ es, e.pieces o = e.pieces o') :
    Expr.piecesAll o es = Expr.piecesAll o' es := by
  induction es with
  | nil => simp only [Expr.piecesAll]
  | cons e es ih =>
    rw [Expr.piecesAll, Expr.piecesAll, h e List.mem_cons_self,
      ih fun e' he' => h e' (List.mem_cons_of_mem e he')]

/-- An expression in which no query stands is written in the same way whether bindings are shown or
not. Only queries look at that option. -/
theorem Expr.Over.pieces_congr {vs : List With} {e : Expr} (he : e.Over vs)
    (ho : o.inlines = false) (ho' : o'.inlines = false) : e.pieces o = e.pieces o' := by
  induction he generalizing o o' with
  | raw | num => simp only [Expr.pieces]
  | binary _ _ _ ihl ihr => simp only [Expr.pieces, ihl ho ho', ihr ho ho']
  | aggregate _ _ ih | order _ _ _ ih => simp only [Expr.pieces, ih ho ho']
  | column _ _ ih =>
    simp only [Expr.pieces]
    rw [ih ((Options.inlines_bareRef o).trans ho) ((Options.inlines_bareRef o').trans ho')]
  | @window fn ps _ _ ihfn ihps =>
    cases ps with
    | nil => simp only [Expr.pieces, ihfn ho ho']
    | cons p ps =>
      have hps := Expr.piecesAll_congr fun r hr => ihps r (List.mem_cons_of_mem p hr) ho ho'
      simp only [Expr.pieces, ihfn ho ho', ihps p List.mem_cons_self ho ho', hps]
  | @withRef w _ =>
    obtain ⟨name, q⟩ := w
    simp only [Expr.pieces, ho, ho', Bool.false_eq_true, if_false]

/-- The references in the clauses of a select, also where its bindings are shown. They are read off
the clauses themselves, not off the text. -/
theorem references_clausePieces_of_over {vs ws : List With} {columns groupBy orderBy : List Expr}
    {source : Option Expr} {cs gs os : List (List Piece)} {src : List Piece}
    (hover : ∀ e ∈ columns ++ source.toList ++ groupBy ++ orderBy, e.Over vs)
    (ho : o.inlines = false) (hcs : Expr.piecesAll o columns = .ok cs)
    (hsrc : Expr.sourcePieces o source = .ok src) (hgs : Expr.piecesAll o groupBy = .ok gs)
    (hos : Expr.piecesAll o orderBy = .ok os) :
    references (clausePieces cs src gs os) =
      (Query.select ws columns source groupBy orderBy).refs := by
  -- it makes no difference to the clauses if bindings are hidden, where `references_pieces` applies
  have hhidden : ∀ e ∈ columns ++ source.toList ++ groupBy ++ orderBy,
      e.pieces o = e.pieces [Options.skipWith] := fun e he => (hover e he).pieces_congr ho rfl
  simp only [List.forall_mem_append] at hhidden
  obtain ⟨⟨⟨hcolumns, hsource⟩, hgroupBy⟩, horderBy⟩ := hhidden
  rw [Expr.piecesAll_congr hcolumns] at hcs
  rw [Expr.piecesAll_congr hgroupBy] at hgs
  rw [Expr.piecesAll_congr horderBy] at hos
  have hsrc : Expr.sourcePieces [Options.skipWith] source = .ok src := by
    cases source with
    | none => rwa [Expr.sourcePieces] at hsrc ⊢
    | some e => rwa [Expr.sourcePieces, hsource e (by simp)] at hsrc
  rw [references_clausePieces, Query.refs, Expr.references_piecesAll rfl rfl hcs,
    Expr.references_sourcePieces rfl rfl hsrc, Expr.references_piecesAll rfl rfl hgs,
    Expr.references_piecesAll rfl rfl hos]

/-- A binding is written as its alias and its query in brackets. -/
theorem With.pieces_eq_ok {w : With} {entry : List Piece} (h : w.pieces o = .ok entry) :
    ∃ inner, w.query.pieces o = .ok inner ∧
      entry = [.definition w.name, .text " as ("] ++ inner ++ [.text ")"] := by
  obtain ⟨name, q⟩ := w
  rw [With.pieces] at h
  obtain ⟨inner, hinner, h⟩ := bind_eq_ok_iff.1 h
  exact ⟨inner, hinner, (Except.ok.inj h).symm⟩

/-- What is referred to in the entry of a binding is what its query refers to. The alias at its
start is a definition and not a reference. -/
theorem With.references_pieces (hhide : o.hidesWith = true) (ho : o.inlines = false) {w : With}
    {entry : List Piece} (h : w.pieces o = .ok entry) : references entry = w.query.refs := by
  obtain ⟨inner, hinner, rfl⟩ := With.pieces_eq_ok h
  simp [Query.references_pieces hhide ho hinner]

/-- A well-bound select is written as its bindings, one entry each, and what it says itself. -/
theorem Query.WellBound.exists_entries {q : Query} (hq : q.WellBound)
    (hselect : q.members? = none) {ps : List Piece} (h : q.pieces [] = .ok ps) :
    ∃ entries body, ps = bindingPieces entries ++ body ∧ references body = q.refs ∧
      List.Forall₂ (fun w entry => w.pieces [Options.skipWith] = .ok entry) q.withs entries := by
  cases hq with
  | unionAll => cases hselect
  | select _ hover =>
    obtain ⟨entries, cs, src, gs, os, hentries, hcs, hsrc, hgs, hos, rfl⟩ := Query.pieces_select h
    exact ⟨entries, _, rfl, references_clausePieces_of_over hover rfl hcs hsrc hgs hos,
      With.forall₂_piecesAll hentries⟩

section Entries

variable {ws : List With} {entries : List (List Piece)} {a : String}

/-- An alias is defined by an entry exactly if it is bound in the list. Each entry starts with the
alias of its binding. -/
theorem exists_definition_iff
    (h : List.Forall₂ (fun w entry => w.pieces o = .ok entry) ws entries) :
    (∃ entry ∈ entries, entry.head? = some (.definition a)) ↔ bound ws a = true := by
  rw [bound_iff]
  -- entries and bindings belong together one by one, so either gives the other
  constructor
  · rintro ⟨entry, hentry, hhead⟩
    obtain ⟨w, hw, hpieces⟩ := exists_of_forall₂ h hentry
    obtain ⟨inner, -, rfl⟩ := With.pieces_eq_ok hpieces
    exact ⟨w, hw, Piece.definition.inj (Option.some.inj hhead)⟩
  · rintro ⟨w, hw, rfl⟩
    obtain ⟨entry, hentry, hpieces⟩ := exists_of_forall₂ h.flip hw
    obtain ⟨inner, -, rfl⟩ := With.pieces_eq_ok hpieces
    exact ⟨_, hentry, rfl⟩

/-- What is referred to in the entries is what the bound queries refer to. -/
theorem mem_references_bindingPieces (hhide : o.hidesWith = true) (ho : o.inlines = false)
    (h : List.Forall₂ (fun w entry => w.pieces o = .ok entry) ws entries) :
    a ∈ references (bindingPieces entries) ↔ ∃ w ∈ ws, a ∈ w.query.refs := by
  rw [references_bindingPieces, List.mem_flatMap]
  constructor
  · rintro ⟨entry, hentry, ha⟩
    obtain ⟨w, hw, hpieces⟩ := exists_of_forall₂ h hentry
    exact ⟨w, hw, With.references_pieces hhide ho hpieces ▸ ha⟩
  · rintro ⟨w, hw, ha⟩
    obtain ⟨entry, hentry, hpieces⟩ := exists_of_forall₂ h.flip hw
    exact ⟨entry, hentry, (With.references_pieces hhide ho hpieces).symm ▸ ha⟩

end Entries

end Text

/-- **When every reference is to a defined alias.** The text of a well-bound select starts with one
entry for each of its bindings. Every alias that is referred to, in an entry or after them, is
defined by an entry, if and only if whatever strays in the union of a binding is bound elsewhere:
what a later member of a union refers to, and the first member does not bind. -/
theorem Query.WellBound.references_defined_iff {q : Query} (hq : q.WellBound)
    (hselect : q.members? = none) {d : Option Dialect} {text : String}
    (h : q.toSql d [] = .ok text) :
    ∃ entries body,
      q.pieces [] = .ok (bindingPieces entries ++ body) ∧
      text = spell (d.getD .postgres).quoteIdent (bindingPieces entries ++ body) ∧
      List.Forall₂ (fun w entry => ∃ inner,
        entry = [.definition w.name, .text " as ("] ++ inner ++ [.text ")"]) q.withs entries ∧
      ((∀ a ∈ references (bindingPieces entries ++ body),
          ∃ entry ∈ entries, entry.head? = some (.definition a)) ↔
        ∀ w ∈ q.withs, ∀ a, w.query.Strays a → bound q.withs a = true) := by
  obtain ⟨ps, hps, rfl⟩ := Query.render_eq_ok_iff.1 h
  obtain ⟨entries, body, rfl, hbody, hentries⟩ := hq.exists_entries hselect hps
  have hshape := hentries.imp fun w entry hentry => by
    obtain ⟨inner, -, hinner⟩ := With.pieces_eq_ok hentry
    exact Exists.intro inner hinner
  refine ⟨entries, body, hps, rfl, hshape, ?_⟩
  -- a reference stands in the entry of a binding or in the select itself
  simp only [references_append, List.mem_append, mem_references_bindingPieces rfl rfl hentries,
    hbody, exists_definition_iff hentries]
  constructor
  · -- what has strayed is referred to in the entry of its binding
    intro hdefined w hw a hstrays
    exact hdefined a (.inl ⟨w, hw, hstrays.mem_refs⟩)
  · -- in an entry it is bound next to it or has strayed; in the select it is bound
    rintro hstrays a (⟨w, hw, ha⟩ | ha)
    · exact (hq.bound_of_mem_refs_binding hw ha).elim id (hstrays w hw a)
    · exact hq.bound_of_mem_refs_select hselect ha

/-- All columns of a table or of a binding, with the bindings that were given to the query. -/
def readAll (vs : List With) (source : Expr) : Query :=
  .select (addWiths [] vs) [.raw "*"] (some source) [] []

theorem wellBound_readAll {vs : List With} {source : Expr} (hvs : ∀ v ∈ vs, v.query.WellBound)
    (hsource : source.Over vs) : (readAll vs source).WellBound := by
  refine .select hvs ?_
  simp [hsource, Expr.Over.raw]

theorem not_strays_readAll {vs : List With} {source : Expr} {a : String} :
    ¬ (readAll vs source).Strays a := by
  unfold readAll
  rintro (_ | _)

/-- A union is bound whose members read from a binding of a binding and from that one. The second
member has strayed, but what it refers to is bound for the sake of the first. -/
theorem references_defined_iff_nested :
    let base : With := .mk "base" (readAll [] (.raw "t"))
    let mid : With := .mk "mid" (readAll [base] (.withRef base))
    let both : With := .mk "both"
      (.unionAll (readAll [mid] (.withRef mid)) [readAll [base] (.withRef base)])
    let q := readAll [both] (.withRef both)
    let text := "WITH \"base\" as (SELECT * FROM t), \"mid\" as (SELECT * FROM \"base\"), "
      ++ "\"both\" as (SELECT * FROM \"mid\" UNION ALL SELECT * FROM \"base\") "
      ++ "SELECT * FROM \"both\""
    q.WellBound ∧ q.members? = none ∧ q.toSql none [] = .ok text ∧
    ∃ entries body, q.pieces [] = .ok (bindingPieces entries ++ body) ∧
      ∀ a ∈ references (bindingPieces entries ++ body),
        ∃ entry ∈ entries, entry.head? = some (.definition a) := by
  intro base mid both q text
  have hbase : base.query.WellBound := wellBound_readAll (by simp) (.raw _)
  have hmid : mid.query.WellBound := wellBound_readAll (by simpa using hbase) (.withRef (by simp))
  have hboth : both.query.WellBound :=
    .unionAll (wellBound_readAll (by simpa using hmid) (.withRef (by simp)))
      (by simpa using wellBound_readAll (by simpa using hbase) (.withRef (by simp)))
  have hq : q.WellBound := wellBound_readAll (by simpa using hboth) (.withRef (by simp))
  have htext : q.toSql none [] = .ok text := by decide +kernel
  have hwiths : q.withs = [base, mid, both] := rfl
  -- the second member refers to `base`, which the first one binds
  have hstrays : ∀ w ∈ q.withs, ∀ a, w.query.Strays a → bound q.withs a = true := by
    rw [hwiths]
    simp only [List.forall_mem_cons, List.not_mem_nil, false_implies, implies_true, and_true]
    refine ⟨fun a h => (not_strays_readAll h).elim, fun a h => (not_strays_readAll h).elim, ?_⟩
    rintro a (⟨hr, href, -⟩ | ⟨hr, h⟩)
    · obtain rfl := List.mem_singleton.1 hr
      obtain rfl : a = "base" := List.mem_singleton.1 href
      rfl
    · simp only [List.mem_cons, List.not_mem_nil, or_false] at hr
      rcases hr with rfl | rfl <;> exact (not_strays_readAll h).elim
  obtain ⟨entries, body, hpieces, -, -, hiff⟩ := hq.references_defined_iff rfl htext
  exact ⟨hq, rfl, htext, entries, body, hpieces, hiff.2 hstrays⟩

/-- **A reference can be to nothing.** The second member of the union has a binding of its own,
which the list of the union does not hold. -/
theorem reference_not_defined :
    let own : With := .mk "own" (readAll [] (.raw "t2"))
    let both : With := .mk "both"
      (.unionAll (readAll [] (.raw "t1")) [readAll [own] (.withRef own)])
    let q := readAll [both] (.withRef both)
    q.WellBound ∧ q.members? = none ∧
    q.toSql none [] = .ok ("WITH \"both\" as (SELECT * FROM t1 UNION ALL SELECT * FROM \"own\") "
      ++ "SELECT * FROM \"both\"") ∧
    ∃ ps, q.pieces [] = .ok ps ∧ .reference "own" ∈ ps ∧ .definition "own" ∉ ps := by
  intro own both q
  have hown : own.query.WellBound := wellBound_readAll (by simp) (.raw _)
  have hboth : both.query.WellBound :=
    .unionAll (wellBound_readAll (by simp) (.raw _))
      (by simpa using wellBound_readAll (by simpa using hown) (.withRef (by simp)))
  refine ⟨wellBound_readAll (by simpa using hboth) (.withRef (by simp)), rfl,
    by decide +kernel, ?_⟩
  -- the text has a reference to the alias and no definition of it
  refine ⟨_, by cbv, ?_, ?_⟩
  all_goals decide

end KpiReport.Sql
