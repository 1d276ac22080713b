import KpiReport.Sql.Expr

/-!
# Lists of bindings

A query that gets a new binding also needs the bindings of the bound query, because these are not
written inside it. They are added first, so that each binding stands after those it needs. A
binding whose name is taken already is left out.
-/

namespace KpiReport.Sql

/-- The alias is bound in the list. -/
def bound (ws : List With) (name : String) : Bool :=
  ws.any (·.name == name)

mutual

/-- Adds bindings in order, each after the bindings its query needs. -/
def addWiths (ws : List With) : List With → List With
  | [] => ws
  | v :: vs => addWiths (addWith ws v) vs

/-- Adds one binding unless its alias is taken. -/
def addWith (ws : List With) : With → List With
  | .mk name q => if bound ws name then ws else addNeeds ws q ++ [.mk name q]

/-- Adds the bindings that a query needs. -/
def addNeeds (ws : List With) : Query → List With
  | .select vs .. => addWiths ws vs
  | .unionAll q _ => addNeeds ws q

end

/-- What a query needs is its own list of bindings. -/
theorem addNeeds_eq (ws : List With) (q : Query) : addNeeds ws q = addWiths ws q.withs := by
  match q with
  | .select .. => simp [addNeeds, Query.withs]
  | .unionAll q _ => simp [addNeeds, Query.withs, addNeeds_eq ws q]

/-- Two lists that are added one after the other are added as one. -/
theorem addWiths_append (ws us vs : List With) :
    addWiths ws (us ++ vs) = addWiths (addWiths ws us) vs := by
  induction us generalizing ws with
  | nil => simp [addWiths]
  | cons u us ih => simp [addWiths, ih]

/-- However many calls a list of bindings comes in, it is as if it had come in one. -/
theorem foldl_addWiths (ws : List With) (calls : List (List With)) :
    calls.foldl addWiths ws = addWiths ws calls.flatten := by
  induction calls generalizing ws with
  | nil => simp [addWiths]
  | cons vs calls ih => rw [List.foldl_cons, ih, List.flatten_cons, addWiths_append]

end KpiReport.Sql
