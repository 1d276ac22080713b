import KpiReport.Proofs.Compile
import KpiReport.Sql.Render
import Mathlib.Data.List.Forall2

/-!
# The pieces of a text

Names get into the text of a query in three ways: an alias is defined by a binding, it is referred
to by a reference, and an output column or an inlined query has a label. The text alone does not
tell them apart, so the *pieces* of a query keep what was written for which reason.

* **`Query.pieces`** — the pieces of a query, clause by clause.
* **`Query.render_eq_pieces`** — the text of a query is that of its pieces, whichever way names are
  quoted, and there are pieces exactly if there is a text.
* **`Expr.exists_segments`** — so a dialect decides nothing but how names are quoted: neither the
  words between them nor whether there is a text.
* **`Query.pieces_select`** — what the pieces of a select are made of: its bindings, if they are
  shown, and then its clauses.
* **`Query.references_pieces`** — the references in the text of a query whose bindings are neither
  shown nor inlined, in order, read off the query itself.
-/

namespace KpiReport.Sql

/-- A part of a text and the reason it is there. -/
inductive Piece where
  | text (s : String)
  /-- The name of an output column or of an inlined query. -/
  | label (name : String)
  /-- The alias that a binding defines. -/
  | definition (name : String)
  /-- The alias that a reference is to. -/
  | reference (name : String)
deriving DecidableEq, Repr

/-- A piece as it is written. -/
def Piece.write (quote : String → String) : Piece → String
  | text s => s
  | label name | definition name | reference name => quote name

/-- Pieces one after the other. -/
def spell (quote : String → String) (ps : List Piece) : String :=
  String.join (ps.map (Piece.write quote))

/-- Lists of pieces with a text between them. -/
def joinPieces (sep : String) (pss : List (List Piece)) : List Piece :=
  List.intercalate [.text sep] pss

/-- The bindings in front of a query, from the pieces of each; nothing if there are none. -/
def bindingPieces (entries : List (List Piece)) : List Piece :=
  if entries.isEmpty then [] else [.text "WITH "] ++ joinPieces ", " entries ++ [.text " "]

/-- A query without its bindings, from the pieces of its columns, of what it reads from, and of its
grouping and ordering. -/
def clausePieces (columns : List (List Piece)) (source : List Piece)
    (groupBy orderBy : List (List Piece)) : List Piece :=
  [.text "SELECT "] ++ joinPieces ", " columns ++ source
    ++ (if groupBy.isEmpty then [] else [.text " GROUP BY "] ++ joinPieces ", " groupBy)
    ++ (if orderBy.isEmpty then [] else [.text " ORDER BY "] ++ joinPieces ", " orderBy)

mutual

/-- The pieces of an expression. -/
def Expr.pieces (o : Options) : Expr → Except RenderError (List Piece)
  | .raw text => .ok [.text text]
  | .num text => if text = "" then .error .emptyNumber else .ok [.text text]
  | .binary op l r => do
    let l ← l.pieces o
    let r ← r.pieces o
    return [.text "("] ++ l ++ [.text (" " ++ op ++ " ")] ++ r ++ [.text ")"]
  | .aggregate fn arg => do
    return [.text (fn ++ "(")] ++ (← arg.pieces o) ++ [.text ")"]
  | .window fn [] => do
    return (← fn.pieces o) ++ [.text " over ()"]
  | .window fn (p :: ps) => do
    let fn ← fn.pieces o
    let p ← p.pieces o
    let ps ← Expr.piecesAll o ps
    return fn ++ [.text " over (partition by "] ++ joinPieces ", " (p :: ps) ++ [.text ")"]
  | .column e name => do
    let e ← e.pieces (o ++ [Options.bareRef])
    return if name = "" then e else e ++ [.text " as ", .label name]
  | .order e direction nulls => do
    return (← e.pieces o) ++ [.text (" " ++ direction.text ++ nulls.text)]
  | .binding w => w.pieces o
  | .withRef (.mk name q) =>
    if name = "" then .error .emptyAlias
    else if o.inlines then do
      let q ← q.pieces (o.filter (· != Options.bareRef))
      return [.text "("] ++ q ++ [.text ")"] ++ if o.isBare then [] else [.text " as ", .label name]
    else .ok [.reference name]
  | .query q => q.pieces o

def Expr.piecesAll (o : Options) : List Expr → Except RenderError (List (List Piece))
  | [] => .ok []
  | e :: es => do
    let e ← e.pieces o
    let es ← Expr.piecesAll o es
    return e :: es

def Expr.sourcePieces (o : Options) : Option Expr → Except RenderError (List Piece)
  | none => .ok []
  | some e => do return [.text " FROM "] ++ (← e.pieces o)

def With.pieces (o : Options) : With → Except RenderError (List Piece)
  | .mk name q => do return [.definition name, .text " as ("] ++ (← q.pieces o) ++ [.text ")"]

def With.piecesAll (o : Options) : List With → Except RenderError (List (List Piece))
  | [] => .ok []
  | w :: ws => do
    let w ← w.pieces o
    let ws ← With.piecesAll o ws
    return w :: ws

/-- The pieces of a query: its bindings, if they are shown, and its clauses. -/
def Query.pieces (o : Options) : Query → Except RenderError (List Piece)
  | .select withs columns source groupBy orderBy => do
    let entries ←
      (if o.hidesWith then .ok [] else With.piecesAll (o ++ [Options.skipWith]) withs)
    if columns.isEmpty then throw .noColumns
    let columns ← Expr.piecesAll o columns
    let source ← Expr.sourcePieces o source
    let groupBy ← Expr.piecesAll o groupBy
    let orderBy ← Expr.piecesAll o orderBy
    return bindingPieces entries ++ clausePieces columns source groupBy orderBy
  | .unionAll q qs => do
    let q ← q.pieces o
    let qs ← Query.piecesAll o qs
    return joinPieces " UNION ALL " (q :: qs)

def Query.piecesAll (o : Options) : List Query → Except RenderError (List (List Piece))
  | [] => .ok []
  | q :: qs => do
    let q ← q.pieces o
    let qs ← Query.piecesAll o qs
    return q :: qs

end

/-! ## The text of pieces -/

section Spell

variable {quote : String → String}

@[simp] theorem spell_nil : spell quote [] = "" := rfl

@[simp] theorem spell_cons (p : Piece) (ps : List Piece) :
    spell quote (p :: ps) = p.write quote ++ spell quote ps := by
  simp [spell]

@[simp] theorem spell_append (ps qs : List Piece) :
    spell quote (ps ++ qs) = spell quote ps ++ spell quote qs := by
  induction ps with
  | nil => simp
  | cons p ps ih => simp [ih, String.append_assoc]

/-- Pieces joined with a separator are written as the joined texts. -/
@[simp] theorem spell_joinPieces (sep : String) (pss : List (List Piece)) :
    spell quote (joinPieces sep pss) = sep.intercalate (pss.map (spell quote)) := by
  induction pss with
  | nil => rfl
  | cons ps pss ih =>
    cases pss with
    | nil => simp [joinPieces, List.intercalate]
    | cons qs pss =>
      -- one separator between the first two, and the rest by induction
      rw [List.map_cons, List.map_cons, String.intercalate_cons_cons, ← List.map_cons, ← ih]
      simp [joinPieces, List.intercalate, Piece.write, String.append_assoc]

end Spell

/-! ## A text and its pieces -/

/-- Steps on results that correspond give results that correspond. Every clause of a query is such a
step: its text is that of its pieces, or both fail with one error. -/
theorem map_bind_eq {ε α α' β β' : Type} {x : Except ε α} {g : α → α'} {k : β → β'}
    {f : α → Except ε β} {f' : α' → Except ε β'} (h : ∀ a, f' (g a) = (f a).map k) :
    (x.map g >>= f') = (x >>= f).map k := by
  cases x with
  | error => rfl
  | ok a => exact h a

/-- The bindings in front of a query as they are written, when there are any. -/
theorem spell_bindingPieces (quote : String → String) {entries : List (List Piece)}
    (h : entries ≠ []) :
    spell quote (bindingPieces entries) =
      "WITH " ++ ", ".intercalate (entries.map (spell quote)) ++ " " := by
  rw [bindingPieces, if_neg (by simpa using h)]
  simp [Piece.write, String.append_assoc]

/-- Where there are bindings there are entries, so the word in front of them is written. -/
theorem With.piecesAll_ne_nil {o : Options} {w : With} {ws : List With}
    {entries : List (List Piece)} (h : With.piecesAll o (w :: ws) = .ok entries) :
    entries ≠ [] := by
  rw [With.piecesAll] at h
  obtain ⟨e, -, h⟩ := bind_eq_ok_iff.1 h
  obtain ⟨es, -, h⟩ := bind_eq_ok_iff.1 h
  cases h
  exact List.cons_ne_nil e es

/-- The clauses of a query, after whatever stands in front of them. The steps are the same on both
sides, each on the text of what the other has. A query without columns fails on both sides before
any clause is looked at. -/
theorem clauses_eq_pieces {quote : String → String} {front : String} {entries : List (List Piece)}
    (hfront : front = spell quote (bindingPieces entries)) (empty : Bool)
    (columns groupBy orderBy : Except RenderError (List (List Piece)))
    (source : Except RenderError (List Piece)) :
    (do
      if empty then throw RenderError.noColumns
      let columns ← columns.map (List.map (spell quote))
      let source ← source.map (spell quote)
      let groupBy ← groupBy.map (List.map (spell quote))
      let orderBy ← orderBy.map (List.map (spell quote))
      return front ++ "SELECT " ++ ", ".intercalate columns ++ source
        ++ (if groupBy.isEmpty then "" else " GROUP BY " ++ ", ".intercalate groupBy)
        ++ (if orderBy.isEmpty then "" else " ORDER BY " ++ ", ".intercalate orderBy)) =
    (do
      if empty then throw RenderError.noColumns
      let columns ← columns
      let source ← source
      let groupBy ← groupBy
      let orderBy ← orderBy
      return bindingPieces entries ++ clausePieces columns source groupBy orderBy).map
        (spell quote) := by
  -- without columns both sides fail; otherwise clause by clause
  subst hfront
  split
  · rfl
  · refine map_bind_eq fun cs => map_bind_eq fun src => map_bind_eq fun gs =>
      map_bind_eq fun os => congrArg Except.ok ?_
    simp only [clausePieces, spell_append, List.isEmpty_map, String.append_assoc]
    split <;> split <;> simp [Piece.write]

mutual

/-- The text of an expression is that of its pieces, and it fails with the same error. The
statements of this section go together along the trees. -/
theorem Expr.render_eq_pieces (quote : String → String) (o : Options) (e : Expr) :
    e.render quote o = (e.pieces o).map (spell quote) := by
  match e with
  | .raw text => simp [Expr.render, Expr.pieces, Except.map, Piece.write]
  | .num text =>
    rw [Expr.render, Expr.pieces]
    split
    · rfl
    · simp [Except.map, Piece.write]
  | .binary op l r =>
    rw [Expr.render, Expr.pieces, l.render_eq_pieces, r.render_eq_pieces]
    refine map_bind_eq fun l => map_bind_eq fun r => congrArg Except.ok ?_
    simp [Piece.write, String.append_assoc]
  | .aggregate fn arg =>
    rw [Expr.render, Expr.pieces, arg.render_eq_pieces]
    refine map_bind_eq fun arg => congrArg Except.ok ?_
    simp [Piece.write, String.append_assoc]
  | .window fn [] =>
    rw [Expr.render, Expr.pieces, fn.render_eq_pieces]
    refine map_bind_eq fun fn => congrArg Except.ok ?_
    simp [Piece.write]
  | .window fn (p :: ps) =>
    rw [Expr.render, Expr.pieces, fn.render_eq_pieces, p.render_eq_pieces,
      Expr.renderAll_eq_pieces]
    refine map_bind_eq fun fn => map_bind_eq fun p => map_bind_eq fun ps =>
      congrArg Except.ok ?_
    simp [Piece.write, String.append_assoc]
  | .column e name =>
    rw [Expr.render, Expr.pieces, e.render_eq_pieces]
    refine map_bind_eq fun e => congrArg Except.ok ?_
    split
    · rfl
    · simp [Piece.write, String.append_assoc]
  | .order e direction nulls =>
    rw [Expr.render, Expr.pieces, e.render_eq_pieces]
    refine map_bind_eq fun e => congrArg Except.ok ?_
    simp [Piece.write, String.append_assoc]
  | .binding w => rw [Expr.render, Expr.pieces, w.render_eq_pieces]
  | .withRef (.mk name q) =>
    rw [Expr.render, Expr.pieces, q.render_eq_pieces]
    -- without a name the alias is an error; else it is inlined, with a label or without, or
    -- referred to
    split
    · rfl
    · split
      · refine map_bind_eq fun q => congrArg Except.ok ?_
        split <;> simp [Piece.write, String.append_assoc]
      · simp [Except.map, Piece.write]
  | .query q => rw [Expr.render, Expr.pieces, q.render_eq_pieces]

/-- The same for a list of expressions, up to the first that fails. -/
theorem Expr.renderAll_eq_pieces (quote : String → String) (o : Options) (es : List Expr) :
    Expr.renderAll quote o es = (Expr.piecesAll o es).map (List.map (spell quote)) := by
  match es with
  | [] => rfl
  | e :: es =>
    rw [Expr.renderAll, Expr.piecesAll, e.render_eq_pieces, Expr.renderAll_eq_pieces]
    exact map_bind_eq fun e => map_bind_eq fun es => rfl

/-- The same for what a query reads from, with the word in front of it. -/
theorem Expr.renderSource_eq_pieces (quote : String → String) (o : Options) (e : Option Expr) :
    Expr.renderSource quote o e = (Expr.sourcePieces o e).map (spell quote) := by
  match e with
  | none => rfl
  | some e =>
    rw [Expr.renderSource, Expr.sourcePieces, e.render_eq_pieces]
    refine map_bind_eq fun e => congrArg Except.ok ?_
    simp [Piece.write]

/-- The same for a binding. Its alias is quoted like a reference to it, and still is another kind of
piece. -/
theorem With.render_eq_pieces (quote : String → String) (o : Options) (w : With) :
    w.render quote o = (w.pieces o).map (spell quote) := by
  match w with
  | .mk name q =>
    rw [With.render, With.pieces, q.render_eq_pieces]
    refine map_bind_eq fun q => congrArg Except.ok ?_
    simp [Piece.write, String.append_assoc]

/-- The same for the bindings of a query. -/
theorem With.renderAll_eq_pieces (quote : String → String) (o : Options) (ws : List With) :
    With.renderAll quote o ws = (With.piecesAll o ws).map (List.map (spell quote)) := by
  match ws with
  | [] => rfl
  | w :: ws =>
    rw [With.renderAll, With.piecesAll, w.render_eq_pieces, With.renderAll_eq_pieces]
    exact map_bind_eq fun w => map_bind_eq fun ws => rfl

/-- **The text of a query is that of its pieces.** So whether there is a text, and which words stand
in it, can be seen from pieces that know nothing of the quoting. -/
theorem Query.render_eq_pieces (quote : String → String) (o : Options) (q : Query) :
    q.render quote o = (q.pieces o).map (spell quote) := by
  match q with
  | .select withs columns source groupBy orderBy =>
    rw [Query.render, Query.pieces, With.renderAll_eq_pieces,
      Expr.renderAll_eq_pieces quote o columns, Expr.renderSource_eq_pieces,
      Expr.renderAll_eq_pieces quote o groupBy, Expr.renderAll_eq_pieces quote o orderBy]
    have hnone : "" = spell quote (bindingPieces []) := rfl
    -- what stands in front: nothing if bindings are hidden or there are none, else their entries
    cases o.hidesWith with
    | true =>
      simp only [Bool.true_or, if_true, pure_bind]
      exact clauses_eq_pieces hnone _ _ _ _ _
    | false =>
      match withs with
      | [] =>
        simp only [List.isEmpty_nil, Bool.or_true, if_true, Bool.false_eq_true, if_false, pure_bind,
          With.piecesAll]
        exact clauses_eq_pieces hnone _ _ _ _ _
      | w :: ws =>
        simp only [List.isEmpty_cons, Bool.or_false, Bool.false_eq_true, if_false]
        cases hentries : With.piecesAll (o ++ [Options.skipWith]) (w :: ws) with
        | error => rfl
        | ok entries =>
          have hsome := (spell_bindingPieces quote (With.piecesAll_ne_nil hentries)).symm
          exact clauses_eq_pieces hsome _ _ _ _ _
  | .unionAll q qs =>
    rw [Query.render, Query.pieces, q.render_eq_pieces, Query.renderAll_eq_pieces]
    refine map_bind_eq fun q => map_bind_eq fun qs => congrArg Except.ok ?_
    simp

/-- The same for the members of a union. -/
theorem Query.renderAll_eq_pieces (quote : String → String) (o : Options) (qs : List Query) :
    Query.renderAll quote o qs = (Query.piecesAll o qs).map (List.map (spell quote)) := by
  match qs with
  | [] => rfl
  | q :: qs =>
    rw [Query.renderAll, Query.piecesAll, q.render_eq_pieces, Query.renderAll_eq_pieces]
    exact map_bind_eq fun q => map_bind_eq fun qs => rfl

end

/-- A query has a text exactly if it has pieces, and the text is what these are written as. -/
theorem Query.render_eq_ok_iff {quote : String → String} {o : Options} {q : Query}
    {text : String} :
    q.render quote o = .ok text ↔ ∃ ps, q.pieces o = .ok ps ∧ text = spell quote ps := by
  rw [Query.render_eq_pieces]
  cases q.pieces o <;> simp [Except.map, eq_comm]

/-! ## What a dialect decides -/

/-- A part of a text without the reason it is there: words that are written as they are, or a name
to be quoted. -/
inductive Segment where
  | literal (words : String)
  | name (ident : String)
deriving DecidableEq, Repr

/-- A segment as it is written. -/
def Segment.write (quote : String → String) : Segment → String
  | literal words => words
  | name ident => quote ident

/-- Segments one after the other. -/
def concat (quote : String → String) (ss : List Segment) : String :=
  String.join (ss.map (Segment.write quote))

/-- Forgets why a piece is there. -/
def Piece.segment : Piece → Segment
  | text s => .literal s
  | label name | definition name | reference name => .name name

theorem Piece.write_segment (quote : String → String) (p : Piece) :
    p.segment.write quote = p.write quote := by
  cases p <;> rfl

theorem concat_segments (quote : String → String) (ps : List Piece) :
    concat quote (ps.map Piece.segment) = spell quote ps := by
  rw [concat, spell, List.map_map]
  congr 1
  exact List.map_congr_left fun p _ => p.write_segment quote

/-- **A dialect decides only how names are quoted.** An expression or a query with some options
either fails with one error or is written from one list of segments, whatever the dialect is and
whichever function stands in the place of its quoting. Without a context, or in one without dialect,
it is written as for `postgres`. -/
theorem Expr.exists_segments (e : Expr) (o : Options) :
    ((∃ err, (∀ quote, e.render quote o = .error err) ∧ ∀ d, e.toSql d o = .error err) ∨
      ∃ segments, (∀ quote, e.render quote o = .ok (concat quote segments)) ∧
        ∀ d, e.toSql d o = .ok (concat (d.getD .postgres).quoteIdent segments)) ∧
    e.render QuoteContext.absent.quoteIdent o = e.toSql (some .postgres) o ∧
    e.render QuoteContext.unset.quoteIdent o = e.toSql (some .postgres) o ∧
    ∀ d, e.render (QuoteContext.ofDialect d).quoteIdent o = e.toSql (some d) o := by
  have hrender : ∀ quote, e.render quote o = (e.pieces o).map (spell quote) := by
    intro quote
    exact e.render_eq_pieces quote o
  refine ⟨?_, rfl, rfl, fun d => rfl⟩
  -- the pieces do not depend on the quoting, and neither does their absence
  cases hpieces : e.pieces o with
  | error err =>
    have hall : ∀ quote, e.render quote o = .error err := by
      intro quote
      rw [hrender, hpieces]
      rfl
    exact .inl ⟨err, hall, fun d => hall _⟩
  | ok ps =>
    have hall : ∀ quote, e.render quote o = .ok (concat quote (ps.map Piece.segment)) := by
      intro quote
      rw [hrender, hpieces, concat_segments]
      rfl
    exact .inr ⟨_, hall, fun d => hall _⟩

/-! ## Where the pieces of a text come from -/

section Origin

variable {o : Options} {ps : List Piece}

/-- Each binding has its entry, in the order of the list. Had one of them failed, there would be no
entries at all. -/
theorem With.forall₂_piecesAll {ws : List With} {entries : List (List Piece)}
    (h : With.piecesAll o ws = .ok entries) :
    List.Forall₂ (fun w entry => w.pieces o = .ok entry) ws entries := by
  -- one entry for the first binding, and the rest by induction
  induction ws generalizing entries with
  | nil =>
    rw [With.piecesAll] at h
    cases h
    exact .nil
  | cons w ws ih =>
    rw [With.piecesAll] at h
    obtain ⟨entry, hentry, h⟩ := bind_eq_ok_iff.1 h
    obtain ⟨entries, hentries, h⟩ := bind_eq_ok_iff.1 h
    cases h
    exact .cons hentry (ih hentries)

/-- In two lists that belong together, each member of the second has a partner in the first. -/
theorem exists_of_forall₂ {α β : Type} {r : α → β → Prop} {as : List α} {bs : List β}
    (h : List.Forall₂ r as bs) {b : β} (hb : b ∈ bs) : ∃ a ∈ as, r a b := by
  induction h with
  | nil => cases hb
  | cons hab _ ih =>
    rcases List.mem_cons.1 hb with rfl | hb
    · exact ⟨_, List.mem_cons_self, hab⟩
    · obtain ⟨a, ha, hr⟩ := ih hb
      exact ⟨a, List.mem_cons_of_mem _ ha, hr⟩

/-- The pieces of a select are its bindings, if they are shown, and its clauses. All clauses have
been written if the select has. -/
theorem Query.pieces_select {withs : List With} {columns groupBy orderBy : List Expr}
    {source : Option Expr}
    (h : (Query.select withs columns source groupBy orderBy).pieces o = .ok ps) :
    ∃ entries cs src gs os,
      (if o.hidesWith then .ok [] else With.piecesAll (o ++ [Options.skipWith]) withs) =
        .ok entries ∧
      Expr.piecesAll o columns = .ok cs ∧ Expr.sourcePieces o source = .ok src ∧
      Expr.piecesAll o groupBy = .ok gs ∧ Expr.piecesAll o orderBy = .ok os ∧
      ps = bindingPieces entries ++ clausePieces cs src gs os := by
  rw [Query.pieces] at h
  obtain ⟨entries, hentries, h⟩ := bind_eq_ok_iff.1 h
  dsimp only at h
  -- a select without columns has no pieces
  split at h
  · cases h
  · obtain ⟨cs, hcs, h⟩ := bind_eq_ok_iff.1 h
    obtain ⟨src, hsrc, h⟩ := bind_eq_ok_iff.1 h
    obtain ⟨gs, hgs, h⟩ := bind_eq_ok_iff.1 h
    obtain ⟨os, hos, h⟩ := bind_eq_ok_iff.1 h
    exact ⟨entries, cs, src, gs, os, hentries, hcs, hsrc, hgs, hos, (Except.ok.inj h).symm⟩

end Origin

/-! ## References -/

/-- The alias of a reference. -/
def Piece.reference? : Piece → Option String
  | reference name => some name
  | _ => none

/-- The aliases that are referred to, in the order of the text. -/
def references (ps : List Piece) : List String :=
  ps.filterMap Piece.reference?

@[simp] theorem references_nil : references [] = [] := rfl

@[simp] theorem references_append (ps qs : List Piece) :
    references (ps ++ qs) = references ps ++ references qs :=
  List.filterMap_append

@[simp] theorem references_text (s : String) (ps : List Piece) :
    references (.text s :: ps) = references ps := rfl

@[simp] theorem references_label (name : String) (ps : List Piece) :
    references (.label name :: ps) = references ps := rfl

@[simp] theorem references_definition (name : String) (ps : List Piece) :
    references (.definition name :: ps) = references ps := rfl

@[simp] theorem references_reference (name : String) (ps : List Piece) :
    references (.reference name :: ps) = name :: references ps := rfl

@[simp] theorem references_joinPieces (sep : String) (pss : List (List Piece)) :
    references (joinPieces sep pss) = pss.flatMap references := by
  induction pss with
  | nil => rfl
  | cons ps pss ih =>
    cases pss with
    | nil => simp [joinPieces, List.intercalate]
    | cons qs pss =>
      have hsplit : joinPieces sep (ps :: qs :: pss) =
          ps ++ .text sep :: joinPieces sep (qs :: pss) := by
        simp [joinPieces, List.intercalate]
      rw [hsplit, references_append, references_text, ih, ← List.flatMap_cons]

@[simp] theorem references_bindingPieces (entries : List (List Piece)) :
    references (bindingPieces entries) = entries.flatMap references := by
  cases entries with
  | nil => rfl
  | cons e es => simp [bindingPieces]

/-- The references of a query without its bindings are those in its clauses, in their order. -/
@[simp] theorem references_clausePieces (cs gs os : List (List Piece)) (src : List Piece) :
    references (clausePieces cs src gs os) =
      cs.flatMap references ++ references src ++ gs.flatMap references
        ++ os.flatMap references := by
  -- an empty clause is left out, with the word that starts it
  have hclause : ∀ (word : String) (pss : List (List Piece)),
      references (if pss.isEmpty then [] else [.text word] ++ joinPieces ", " pss) =
        pss.flatMap references := by
    intro word pss
    cases pss <;> simp
  simp only [clausePieces, references_append, references_text, references_nil,
    references_joinPieces, hclause, List.nil_append]

mutual

/-- The aliases that the text of an expression refers to when no bindings are written and none are
inlined. -/
def Expr.refs : Expr → List String
  | .raw _ | .num _ => []
  | .binary _ l r => l.refs ++ r.refs
  | .aggregate _ arg => arg.refs
  | .window fn ps => fn.refs ++ Expr.refsAll ps
  | .column e _ | .order e _ _ => e.refs
  | .binding (.mk _ q) => q.refs
  | .withRef (.mk name _) => [name]
  | .query q => q.refs

def Expr.refsAll : List Expr → List String
  | [] => []
  | e :: es => e.refs ++ Expr.refsAll es

def Expr.sourceRefs : Option Expr → List String
  | none => []
  | some e => e.refs

/-- The aliases that the text of a query refers to, in the same way. -/
def Query.refs : Query → List String
  | .select _ columns source groupBy orderBy =>
    Expr.refsAll columns ++ Expr.sourceRefs source ++ Expr.refsAll groupBy ++ Expr.refsAll orderBy
  | .unionAll q qs => q.refs ++ Query.refsAll qs

def Query.refsAll : List Query → List String
  | [] => []
  | q :: qs => q.refs ++ Query.refsAll qs

end

theorem Options.hidesWith_append {o : Options} (h : o.hidesWith = true) (i : Int) :
    Options.hidesWith (o ++ [i]) = true := by
  simp only [Options.hidesWith, List.any_append, Bool.or_eq_true] at h ⊢
  exact .inl h

theorem Options.inlines_bareRef (o : Options) :
    Options.inlines (o ++ [Options.bareRef]) = o.inlines := by
  simp [Options.inlines, Options.bareRef, Options.inlineWith]

mutual

/-- The references in the text of an expression, where bindings are hidden and nothing is inlined,
are those that its tree has. The statements of this section go together along the trees. -/
theorem Expr.references_pieces {o : Options} (hhide : o.hidesWith = true)
    (ho : o.inlines = false) {e : Expr} {ps : List Piece} (h : e.pieces o = .ok ps) :
    references ps = e.refs := by
  match e with
  | .raw text =>
    rw [Expr.pieces] at h
    cases h
    rw [Expr.refs, references_text, references_nil]
  | .num text =>
    rw [Expr.pieces] at h
    split at h
    · cases h
    · cases h
      rw [Expr.refs, references_text, references_nil]
  | .binary op l r =>
    rw [Expr.pieces] at h
    obtain ⟨pl, hl, h⟩ := bind_eq_ok_iff.1 h
    obtain ⟨pr, hr, h⟩ := bind_eq_ok_iff.1 h
    cases h
    simp [Expr.refs, Expr.references_pieces hhide ho hl, Expr.references_pieces hhide ho hr]
  | .aggregate fn arg =>
    rw [Expr.pieces] at h
    obtain ⟨pa, ha, h⟩ := bind_eq_ok_iff.1 h
    cases h
    simp [Expr.refs, Expr.references_pieces hhide ho ha]
  | .window fn [] =>
    rw [Expr.pieces] at h
    obtain ⟨pf, hf, h⟩ := bind_eq_ok_iff.1 h
    cases h
    simp [Expr.refs, Expr.refsAll, Expr.references_pieces hhide ho hf]
  | .window fn (p :: ps) =>
    rw [Expr.pieces] at h
    obtain ⟨pf, hf, h⟩ := bind_eq_ok_iff.1 h
    obtain ⟨pp, hp, h⟩ := bind_eq_ok_iff.1 h
    obtain ⟨pps, hps, h⟩ := bind_eq_ok_iff.1 h
    cases h
    simp [Expr.refs, Expr.refsAll, Expr.references_pieces hhide ho hf,
      Expr.references_pieces hhide ho hp, Expr.references_piecesAll hhide ho hps]
  | .column e name =>
    rw [Expr.pieces] at h
    obtain ⟨pe, he, h⟩ := bind_eq_ok_iff.1 h
    cases h
    -- the option that is added for an output column is about references that are inlined
    have ih := Expr.references_pieces (Options.hidesWith_append hhide _)
      ((Options.inlines_bareRef o).trans ho) he
    rw [Expr.refs, ← ih]
    split <;> simp
  | .order e direction nulls =>
    rw [Expr.pieces] at h
    obtain ⟨pe, he, h⟩ := bind_eq_ok_iff.1 h
    cases h
    simp [Expr.refs, Expr.references_pieces hhide ho he]
  | .binding (.mk name q) =>
    rw [Expr.pieces, With.pieces] at h
    obtain ⟨pq, hq, h⟩ := bind_eq_ok_iff.1 h
    cases h
    simp [Expr.refs, Query.references_pieces hhide ho hq]
  | .withRef (.mk name q) =>
    rw [Expr.pieces] at h
    split at h
    · cases h
    · -- nothing is inlined, so the alias is all that is written
      rw [ho] at h
      cases h
      rw [Expr.refs]
      rfl
  | .query q =>
    rw [Expr.pieces] at h
    rw [Expr.refs, Query.references_pieces hhide ho h]

/-- The same for a list of expressions, one after the other. -/
theorem Expr.references_piecesAll {o : Options} (hhide : o.hidesWith = true)
    (ho : o.inlines = false) {es : List Expr} {pss : List (List Piece)}
    (h : Expr.piecesAll o es = .ok pss) :
    pss.flatMap references = Expr.refsAll es := by
  match es with
  | [] =>
    rw [Expr.piecesAll] at h
    cases h
    rw [Expr.refsAll, List.flatMap_nil]
  | e :: es =>
    rw [Expr.piecesAll] at h
    obtain ⟨ps, he, h⟩ := bind_eq_ok_iff.1 h
    obtain ⟨pss, hes, h⟩ := bind_eq_ok_iff.1 h
    cases h
    rw [List.flatMap_cons, Expr.refsAll, Expr.references_pieces hhide ho he,
      Expr.references_piecesAll hhide ho hes]

/-- The same for what a query reads from. -/
theorem Expr.references_sourcePieces {o : Options} (hhide : o.hidesWith = true)
    (ho : o.inlines = false) {e : Option Expr} {ps : List Piece}
    (h : Expr.sourcePieces o e = .ok ps) :
    references ps = Expr.sourceRefs e := by
  match e with
  | none =>
    rw [Expr.sourcePieces] at h
    cases h
    rw [Expr.sourceRefs, references_nil]
  | some e =>
    rw [Expr.sourcePieces] at h
    obtain ⟨ps, he, h⟩ := bind_eq_ok_iff.1 h
    cases h
    simp [Expr.sourceRefs, Expr.references_pieces hhide ho he]

/-- **The references in the text of a query**, written without its bindings, are those of its
clauses and members. -/
theorem Query.references_pieces {o : Options} (hhide : o.hidesWith = true)
    (ho : o.inlines = false) {q : Query} {ps : List Piece} (h : q.pieces o = .ok ps) :
    references ps = q.refs := by
  match q with
  | .select withs columns source groupBy orderBy =>
    obtain ⟨entries, cs, src, gs, os, hentries, hcs, hsrc, hgs, hos, rfl⟩ := Query.pieces_select h
    -- no entries are written, so all references are those of the clauses
    rw [hhide] at hentries
    cases hentries
    rw [references_append, references_bindingPieces, references_clausePieces, Query.refs,
      Expr.references_piecesAll hhide ho hcs, Expr.references_sourcePieces hhide ho hsrc,
      Expr.references_piecesAll hhide ho hgs, Expr.references_piecesAll hhide ho hos]
    rfl
  | .unionAll q qs =>
    rw [Query.pieces] at h
    obtain ⟨ps, hq, h⟩ := bind_eq_ok_iff.1 h
    obtain ⟨pss, hqs, h⟩ := bind_eq_ok_iff.1 h
    cases h
    rw [references_joinPieces, List.flatMap_cons, Query.refs, Query.references_pieces hhide ho hq,
      Query.references_piecesAll hhide ho hqs]

/-- The same for the members of a union. -/
theorem Query.references_piecesAll {o : Options} (hhide : o.hidesWith = true)
    (ho : o.inlines = false) {qs : List Query} {pss : List (List Piece)}
    (h : Query.piecesAll o qs = .ok pss) :
    pss.flatMap references = Query.refsAll qs := by
  match qs with
  | [] =>
    rw [Query.piecesAll] at h
    cases h
    rw [Query.refsAll, List.flatMap_nil]
  | q :: qs =>
    rw [Query.piecesAll] at h
    obtain ⟨ps, hq, h⟩ := bind_eq_ok_iff.1 h
    obtain ⟨pss, hqs, h⟩ := bind_eq_ok_iff.1 h
    cases h
    rw [List.flatMap_cons, Query.refsAll, Query.references_pieces hhide ho hq,
      Query.references_piecesAll hhide ho hqs]

end

end KpiReport.Sql
