import KpiReport.Assemble
import KpiReport.Proofs.Compile
import Mathlib.Data.List.Nodup

/-!
# The slots of a report

The columns of a report are laid out in slots in one pass and filled by jobs in another. This
module says what the two passes come to.

* **`slots_jobs_sublist`** — the slot numbers of the jobs are some of the numbers of the slots, each
  at most once and in their order. Jobs of different columns or dimensions never meet.
* **`runJobs_layout`** — after all jobs the slots hold, column by column, what the column
  contributes (`columnSlots`), and the slot arithmetic is gone. A formula that does not parse and
  one that does not compile leave the same kind of slot behind.
-/

namespace KpiReport

/-- The mapping is one to a column of the tables. -/
def Mapping.isColumn : Mapping → Bool
  | column _ => true
  | formula _ | other _ _ => false

theorem Mapping.isColumn_eq_true_iff {m : Mapping} :
    m.isColumn = true ↔ ∃ text, m = .column text := by
  cases m <;> simp [isColumn]

theorem Mapping.isColumn_eq_false_iff {m : Mapping} :
    m.isColumn = false ↔ ∀ text, m ≠ .column text := by
  cases m <;> simp [isColumn]

namespace ReportSpec

variable (r : ReportSpec)

/-! ## Slot numbers -/

/-- A column is unmapped, mapped to a column of the tables, or mapped to something that is taken for
a formula. -/
theorem mapping_cases (name : String) :
    r.mappings.get? name = none ∨ (∃ text, r.mappings.get? name = some (.column text)) ∨
      ∃ m, r.mappings.get? name = some m ∧ ∀ text, m ≠ .column text := by
  cases r.mappings.get? name with
  | none => exact .inl rfl
  | some m =>
    cases m with
    | column text => exact .inr (.inl ⟨text, rfl⟩)
    | formula text => exact .inr (.inr ⟨_, rfl, nofun⟩)
    | other code text => exact .inr (.inr ⟨_, rfl, nofun⟩)

theorem columnLayout_of_unmapped {name : String} (h : r.mappings.get? name = none)
    (slot column : Nat) : r.columnLayout slot column name = ⟨[], []⟩ := by
  rw [columnLayout, h]

theorem columnLayout_of_column {name text : String}
    (h : r.mappings.get? name = some (.column text)) (slot column : Nat) :
    r.columnLayout slot column name = ⟨[.ofField (.raw text)], []⟩ := by
  rw [columnLayout, h]

/-- The layout of a column that is not mapped to a column of the tables. A formula that does not
parse takes up as many slots as one that does, and has no jobs. -/
theorem columnLayout_of_formula {name : String} {m : Mapping}
    (h : r.mappings.get? name = some m) (hm : ∀ text, m ≠ .column text) (slot column : Nat) :
    r.columnLayout slot column name = match parseFormula m.text with
      | .error e => ⟨r.dimensions.map fun _ => .ofError e, []⟩
      | .ok node =>
        { slots := r.dimensions.map fun _ => .vacant
          jobs := r.dimensions.mapIdx fun i d =>
            ⟨slot + i, node, m.text, d, fieldAlias column (r.mappings.textOf d.name)⟩ } := by
  rw [columnLayout, h]
  cases m with
  | column text => exact absurd rfl (hm text)
  | formula text => rfl
  | other code text => rfl

/-- The slot numbers of a column's jobs are some of those of its slots: all of them for a formula
that parses, and none otherwise. -/
theorem slots_columnLayout_sublist (slot column : Nat) (name : String) :
    ((r.columnLayout slot column name).jobs.map Job.slot).Sublist
      (List.range' slot (r.columnLayout slot column name).slots.length) := by
  obtain h | ⟨text, h⟩ | ⟨m, h, hm⟩ := r.mapping_cases name
  · rw [columnLayout_of_unmapped r h]
    exact List.nil_sublist _
  · rw [columnLayout_of_column r h]
    exact List.nil_sublist _
  · rw [columnLayout_of_formula r h hm]
    cases parseFormula m.text with
    | error e => exact List.nil_sublist _
    | ok node =>
      -- one job for each dimension, numbered in a row
      have hjobs : List.map Job.slot (r.dimensions.mapIdx fun i d =>
          (⟨slot + i, node, m.text, d, fieldAlias column (r.mappings.textOf d.name)⟩ : Job))
          = List.range' slot r.dimensions.length := by
        apply List.ext_getElem
        · simp
        · intro k hk hk'
          simp
      simp only [hjobs, List.length_map]
      exact List.Sublist.refl _

/-- The slot numbers of the jobs are some of those of the slots. -/
theorem slots_jobs_sublist (slot column : Nat) (names : List String) :
    ((r.layoutFrom slot column names).jobs.map Job.slot).Sublist
      (List.range' slot (r.layoutFrom slot column names).slots.length) := by
  induction names generalizing slot column with
  | nil => exact List.nil_sublist _
  | cons name names ih =>
    -- the numbers of the other columns begin where those of the first one end
    simp only [layoutFrom, List.map_append, List.length_append]
    rw [← List.range'_append_1]
    exact (r.slots_columnLayout_sublist slot column name).append (ih _ _)

/-- No two jobs have the same slot. -/
theorem nodup_slots_jobs : (r.layout.jobs.map Job.slot).Nodup :=
  (r.slots_jobs_sublist 0 0 r.columns).nodup List.nodup_range'

/-! ## The order of the jobs

A job changes its own slot and reads nothing from the others, so two jobs with different slots can
be exchanged. -/

theorem runJob_comm {j k : Job} (h : j.slot ≠ k.slot) (slots : List Slot) :
    r.runJob (r.runJob slots j) k = r.runJob (r.runJob slots k) j := by
  unfold runJob
  exact List.modify_modify_ne _ _ slots h

/-- Jobs of different slots leave the same slots behind in every order. -/
theorem runJobs_perm {jobs order : List Job} (hslots : (jobs.map Job.slot).Nodup)
    (horder : order.Perm jobs) (slots : List Slot) :
    r.runJobs slots order = r.runJobs slots jobs := by
  unfold runJobs
  apply horder.foldl_eq'
  intro j hj k hk s
  -- a job may be exchanged with itself, and with any of another slot
  by_cases hjk : j = k
  · rw [hjk]
  · have hne : j.slot ≠ k.slot := fun h =>
      hjk (List.inj_on_of_nodup_map hslots (horder.mem_iff.1 hj) (horder.mem_iff.1 hk) h)
    exact r.runJob_comm hne s

/-! ## What the jobs leave behind -/

/-- What the formula of a column leaves in the slot of a dimension. -/
def fieldSlot (column : Nat) (formula : String) (d : Dimension) : Slot :=
  Slot.vacant.enter (fieldAlias column (r.mappings.textOf d.name))
    (compileFormula formula d r.measures r.mappings)

/-- What the jobs leave in the slots of a column. There are no slot numbers in it. -/
def columnSlots (column : Nat) (name : String) : List Slot :=
  match r.mappings.get? name with
  | none => []
  | some (.column text) => [.ofField (.raw text)]
  | some m => r.dimensions.map (r.fieldSlot column m.text)

theorem columnSlots_of_unmapped {name : String} (h : r.mappings.get? name = none) (column : Nat) :
    r.columnSlots column name = [] := by
  rw [columnSlots, h]

theorem columnSlots_of_column {name text : String}
    (h : r.mappings.get? name = some (.column text)) (column : Nat) :
    r.columnSlots column name = [.ofField (.raw text)] := by
  rw [columnSlots, h]

theorem columnSlots_of_formula {name : String} {m : Mapping} (h : r.mappings.get? name = some m)
    (hm : ∀ text, m ≠ .column text) (column : Nat) :
    r.columnSlots column name = r.dimensions.map (r.fieldSlot column m.text) := by
  rw [columnSlots, h]
  cases m with
  | column text => exact absurd rfl (hm text)
  | formula text => rfl
  | other code text => rfl

/-- A formula that does not parse leaves its syntax error at every dimension. -/
theorem fieldSlot_of_parse_error {f : String} {e : CompileError} (h : parseFormula f = .error e)
    (column : Nat) (d : Dimension) : r.fieldSlot column f d = .ofError e := by
  rw [fieldSlot, compileFormula, h]
  rfl

theorem fieldSlot_of_parse {f : String} {node : Formula.Node} (h : parseFormula f = .ok node)
    (column : Nat) (d : Dimension) :
    r.fieldSlot column f d = Slot.vacant.enter (fieldAlias column (r.mappings.textOf d.name))
      (Scope.compile ⟨f, d, r.measures, r.mappings⟩ node) := by
  rw [fieldSlot, compileFormula, h]
  rfl

theorem runJobs_append (slots : List Slot) (jobs jobs' : List Job) :
    r.runJobs slots (jobs ++ jobs') = r.runJobs (r.runJobs slots jobs) jobs' :=
  List.foldl_append

/-- A job finds the slot behind as many others as its number says. -/
theorem runJob_append (before after : List Slot) (s : Slot) {j : Job}
    (hj : j.slot = before.length) :
    r.runJob (before ++ s :: after) j = before ++ s.enter j.name (r.compileJob j) :: after := by
  rw [runJob, hj, List.modify_eq_take_cons_drop (by simp)]
  simp

/-- Jobs with consecutive slot numbers fill vacant slots one after the other. By induction on the
dimensions, with the slots that are done growing in front. -/
theorem runJobs_mapIdx (column : Nat) (formula : String) {node : Formula.Node}
    (hparse : parseFormula formula = .ok node) (ds : List Dimension) (before after : List Slot) :
    r.runJobs (before ++ ds.map (fun _ => .vacant) ++ after)
        (ds.mapIdx fun i d =>
          ⟨before.length + i, node, formula, d, fieldAlias column (r.mappings.textOf d.name)⟩) =
      before ++ ds.map (r.fieldSlot column formula) ++ after := by
  induction ds generalizing before with
  | nil => rfl
  | cons d ds ih =>
    -- the first job moves its slot to the part that is done
    have hdone := ih (before ++ [r.fieldSlot column formula d])
    simp only [List.length_append, List.length_singleton, Nat.add_assoc, List.append_assoc,
      List.singleton_append] at hdone
    have hfirst := r.runJob_append before (ds.map (fun _ => .vacant) ++ after) .vacant
      (j := ⟨before.length + 0, node, formula, d, fieldAlias column (r.mappings.textOf d.name)⟩)
      rfl
    simp only [compileJob, ← r.fieldSlot_of_parse hparse] at hfirst
    simp only [List.mapIdx_cons, List.map_cons, List.append_assoc, List.cons_append, runJobs,
      List.foldl_cons, hfirst, Nat.add_comm _ 1]
    exact hdone

/-- The jobs of one column fill its slots and leave all others alone, in front of them and
behind. -/
theorem runJobs_columnLayout (column : Nat) (name : String) (before after : List Slot) :
    r.runJobs (before ++ (r.columnLayout before.length column name).slots ++ after)
        (r.columnLayout before.length column name).jobs =
      before ++ r.columnSlots column name ++ after := by
  obtain h | ⟨text, h⟩ | ⟨m, h, hm⟩ := r.mapping_cases name
  · rw [columnLayout_of_unmapped r h, columnSlots_of_unmapped r h]
    rfl
  · rw [columnLayout_of_column r h, columnSlots_of_column r h]
    rfl
  · rw [columnLayout_of_formula r h hm, columnSlots_of_formula r h hm]
    cases hparse : parseFormula m.text with
    | error e =>
      -- no job at all: the error is in the slots from the start
      have hslot : r.fieldSlot column m.text = fun _ => Slot.ofError e :=
        funext (r.fieldSlot_of_parse_error hparse column)
      rw [hslot]
      rfl
    | ok node => exact r.runJobs_mapIdx column m.text hparse r.dimensions before after

/-- A column has as many slots as its jobs leave behind. -/
theorem length_slots_columnLayout (slot column : Nat) (name : String) :
    (r.columnLayout slot column name).slots.length = (r.columnSlots column name).length := by
  obtain h | ⟨text, h⟩ | ⟨m, h, hm⟩ := r.mapping_cases name
  · rw [columnLayout_of_unmapped r h, columnSlots_of_unmapped r h]
  · rw [columnLayout_of_column r h, columnSlots_of_column r h]
  · rw [columnLayout_of_formula r h hm, columnSlots_of_formula r h hm]
    cases parseFormula m.text <;> simp only [List.length_map]

/-- The jobs of a list of columns fill the slots of one column after the other. By induction on the
columns: the first one is numbered from the slots that are there, the next from those and its
own. -/
theorem runJobs_layoutFrom (before : List Slot) (column : Nat) (names : List String) :
    r.runJobs (before ++ (r.layoutFrom before.length column names).slots)
        (r.layoutFrom before.length column names).jobs =
      before ++ (names.zipIdx column).flatMap fun p => r.columnSlots p.2 p.1 := by
  induction names generalizing before column with
  | nil => rfl
  | cons name names ih =>
    simp only [layoutFrom, List.zipIdx_cons, List.flatMap_cons]
    rw [runJobs_append, ← List.append_assoc, r.runJobs_columnLayout]
    -- the slots of the first column are done, and as many as the numbering assumes
    have hrest := ih (before ++ r.columnSlots column name) (column + 1)
    rw [List.length_append, ← r.length_slots_columnLayout before.length] at hrest
    rw [hrest, List.append_assoc]

/-- After all jobs the slots hold what each column contributes, in the order of the columns. -/
theorem runJobs_layout :
    r.runJobs r.layout.slots r.layout.jobs =
      r.columns.zipIdx.flatMap fun p => r.columnSlots p.2 p.1 :=
  r.runJobs_layoutFrom [] 0 r.columns

end ReportSpec

end KpiReport
