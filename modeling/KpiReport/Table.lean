/-!
# Tables

A finite map from names to values that remembers the order in which the names came. A name has at
most one value, and a table carries the proof of it: a later value takes the place of an earlier
one, so no table with two values of a name can be built.

* **`Table.get?_eq_some_iff`** — the value that is found under a name is the one it was entered
  with; which entry comes first makes no difference.
* **`Table.get?_insert_self`**, **`Table.get?_insert_of_ne`** — giving a name a value is seen under
  that name and under no other.
-/

namespace KpiReport

/-- A finite map from names to values. -/
structure Table (α : Type) where
  entries : List (String × α)
  /-- A name is entered once. -/
  nodup : (entries.map Prod.fst).Nodup := by simp
deriving DecidableEq, Repr

namespace Table

variable {α β : Type}

/-- The table without names. -/
def empty : Table α := { entries := [] }

instance : Inhabited (Table α) := ⟨empty⟩

/-- The value of a name. -/
def get? (t : Table α) (name : String) : Option α :=
  t.entries.lookup name

/-- The name has a value. -/
def contains (t : Table α) (name : String) : Bool :=
  (t.get? name).isSome

/-- Names that stay when others are left out are still entered once. -/
theorem nodup_filter (t : Table α) (p : String × α → Bool) :
    ((t.entries.filter p).map Prod.fst).Nodup :=
  t.nodup.sublist (List.filter_sublist.map Prod.fst)

/-- Takes a name out of the table. -/
def erase (t : Table α) (name : String) : Table α where
  entries := t.entries.filter (·.1 != name)
  nodup := t.nodup_filter _

/-- Gives a name a value. -/
def insert (t : Table α) (name : String) (a : α) : Table α where
  entries := t.entries.filter (·.1 != name) ++ [(name, a)]
  nodup := by
    rw [List.map_append, List.nodup_append]
    refine ⟨t.nodup_filter _, by simp, ?_⟩
    -- what was left in the table has other names
    simp only [List.mem_map, List.mem_filter, bne_iff_ne, List.mem_singleton]
    rintro k ⟨p, ⟨-, hp⟩, rfl⟩ _ ⟨_, rfl, rfl⟩
    exact hp

/-- The table of a list of names and values; the last value of a name counts. -/
def ofList (l : List (String × α)) : Table α :=
  l.foldl (fun t p => t.insert p.1 p.2) empty

/-- The table with all values changed. -/
def map (f : String → α → β) (t : Table α) : Table β where
  entries := t.entries.map fun p => (p.1, f p.1 p.2)
  nodup := by
    rw [List.map_map]
    exact t.nodup

/-- An entry is what its name has as its value. With names entered twice this would hold of the
first entry of a name only. -/
theorem get?_eq_some_iff (t : Table α) {name : String} {a : α} :
    t.get? name = some a ↔ (name, a) ∈ t.entries := by
  obtain ⟨entries, hnodup⟩ := t
  simp only [get?]
  induction entries with
  | nil => simp
  | cons p l ih =>
    obtain ⟨k, b⟩ := p
    obtain ⟨hk, hl⟩ := List.nodup_cons.1 hnodup
    by_cases h : name = k
    · -- the name is not entered again further on
      subst h
      have hlater : (name, a) ∉ l := fun hmem => hk (List.mem_map.2 ⟨_, hmem, rfl⟩)
      simp [hlater, eq_comm]
    · have hb : (name == k) = false := beq_eq_false_iff_ne.2 h
      rw [List.lookup_cons, hb, ih hl]
      simp [h]

theorem get?_erase_of_ne (t : Table α) {name other : String} (h : other ≠ name) :
    (t.erase name).get? other = t.get? other := by
  simp only [get?, erase]
  induction t.entries with
  | nil => rfl
  | cons p l ih =>
    obtain ⟨k, b⟩ := p
    -- the entry is taken out, or it stays and may be the one looked for
    by_cases hp : k = name
    · subst hp
      have hb : (other == k) = false := beq_eq_false_iff_ne.2 h
      simpa [List.lookup_cons, hb] using ih
    · by_cases ho : other = k
      · simp [ho, hp]
      · have hb : (other == k) = false := beq_eq_false_iff_ne.2 ho
        simpa [hp, List.lookup_cons, hb] using ih

theorem get?_erase_self (t : Table α) (name : String) : (t.erase name).get? name = none := by
  simp only [get?, erase, List.lookup_eq_none_iff, List.mem_filter, bne_iff_ne, ne_eq]
  rintro p ⟨-, hp⟩ rfl
  exact hp rfl

/-- A name that is given a value stands after all others. -/
theorem get?_insert (t : Table α) (name other : String) (a : α) :
    (t.insert name a).get? other =
      ((t.erase name).get? other).or (if other = name then some a else none) := by
  -- the new entry is found where nothing before it is
  have hlast : List.lookup other [(name, a)] = if other = name then some a else none := by
    by_cases h : other = name
    · simp [h]
    · have hb : (other == name) = false := beq_eq_false_iff_ne.2 h
      simp [List.lookup_cons, hb, h]
  rw [get?, get?, insert, erase, List.lookup_append, hlast]

theorem get?_insert_self (t : Table α) (name : String) (a : α) :
    (t.insert name a).get? name = some a := by
  rw [get?_insert, get?_erase_self, if_pos rfl, Option.none_or]

theorem get?_insert_of_ne (t : Table α) {name other : String} (h : other ≠ name) (a : α) :
    (t.insert name a).get? other = t.get? other := by
  rw [get?_insert, get?_erase_of_ne t h, if_neg h, Option.or_none]

theorem get?_map (f : String → α → β) (t : Table α) (name : String) :
    (t.map f).get? name = (t.get? name).map (f name) := by
  simp only [get?, map]
  induction t.entries with
  | nil => rfl
  | cons p l ih =>
    obtain ⟨k, a⟩ := p
    by_cases h : name = k
    · simp [h]
    · have hb : (name == k) = false := beq_eq_false_iff_ne.2 h
      simpa [List.lookup_cons, hb] using ih

end Table

end KpiReport
