import KpiReport.Proofs.Formula.Acceptance

/-!
# The names in a formula

The measures that a formula refers to are found by walking over its tree, and a repeated name is
kept where it appears first. Here the walk is traced back to the text.

* **`Node.names`** — the names of a tree from left to right, repetitions included; the references
  are their first occurrences (`Node.references_eq`).
* **`names_eq_namesOf`** — the names of a parsed formula are its identifiers, in the order of the
  text.
* **`Node.mem_references_iff`** — a tree refers to a name, however deep, if and only if the name is
  among its references.

Dropping repetitions keeps the first name of any kind (`find?_firstOccurrences`), so a search
through the references is a search through the identifiers. It drops what `List.eraseDups` does
(`firstOccurrences_eq_eraseDups`), though it goes over the list from its end.
-/

namespace KpiReport.Formula

/-- The name that a word stands for. -/
def Word.name? (w : Word) : Option String :=
  if w.kind = .ident then some w.text else none

/-- The identifiers of a formula, in the order of the text. -/
def namesOf (f : String) : List String :=
  (scan f).tokens.filterMap fun t => t.word.name?

namespace Node

/-- The names in a tree, from left to right. -/
def names : Node → List String
  | addSub _ _ l r => l.names ++ r.names
  | mulDiv _ _ l r => l.names ++ r.names
  | paren _ inner => inner.names
  | agg _ name => [name]
  | number .. => []
  | hole _ => []

/-- Walking over a tree meets its names from left to right. The nodes between the leaves come first
in a walk, but they have no names to give. -/
theorem filterMap_reference?_walk (n : Node) :
    (n.walk fun _ => true).filterMap reference? = n.names := by
  induction n with
  | addSub _ _ l r ihl ihr =>
    rw [walk_addSub, if_pos rfl, List.filterMap_cons_none rfl, List.filterMap_append, ihl, ihr,
      names]
  | mulDiv _ _ l r ihl ihr =>
    rw [walk_mulDiv, if_pos rfl, List.filterMap_cons_none rfl, List.filterMap_append, ihl, ihr,
      names]
  | paren _ inner ih => rw [walk_paren, if_pos rfl, List.filterMap_cons_none rfl, ih, names]
  | number | agg => rfl
  | hole what => cases what <;> rfl

/-- References are looked for in the walk, which is nothing but the names in order. -/
theorem references_eq (n : Node) : n.references = firstOccurrences n.names := by
  rw [references, filterMap_reference?_walk]

/-- A sign is no name. -/
theorem name?_sign (op : String) : (Word.sign op).name? = none := by
  unfold Word.sign
  split <;> rfl

/-- The names of a tree are those among its words. So they can be read off the text, where the words
of a parsed tree come from. -/
theorem filterMap_name?_words (n : Node) : n.words.filterMap Word.name? = n.names := by
  induction n with
  | addSub _ op l r ihl ihr | mulDiv _ op l r ihl ihr =>
    rw [words, List.filterMap_append, List.filterMap_cons_none (name?_sign op), ihl, ihr, names]
  | paren _ inner ih =>
    have hopen : Word.opening.name? = none := rfl
    have hclose : [Word.closing].filterMap Word.name? = [] := rfl
    rw [words, List.cons_append, List.filterMap_cons_none hopen, List.filterMap_append, ih, hclose,
      List.append_nil, names]
  | number | agg | hole => rfl

/-- Positions are not part of the names, since they are not part of the words. -/
theorem names_eq_of_bare_eq {m n : Node} (h : m.bare = n.bare) : m.names = n.names := by
  rw [← filterMap_name?_words, words_eq_of_bare_eq h, filterMap_name?_words]

/-- The tree refers to the name at some depth. -/
inductive Refers (name : String) : Node → Prop where
  | here (pos : Position) : Refers name (.agg pos name)
  | inside (pos : Position) {inner : Node} (h : Refers name inner) : Refers name (.paren pos inner)
  | sumLeft (pos : Position) (op : String) {l : Node} (r : Node) (h : Refers name l) :
      Refers name (.addSub pos op l r)
  | sumRight (pos : Position) (op : String) (l : Node) {r : Node} (h : Refers name r) :
      Refers name (.addSub pos op l r)
  | productLeft (pos : Position) (op : String) {l : Node} (r : Node) (h : Refers name l) :
      Refers name (.mulDiv pos op l r)
  | productRight (pos : Position) (op : String) (l : Node) {r : Node} (h : Refers name r) :
      Refers name (.mulDiv pos op l r)

/-- A reference at some depth is among the names. Induction on the way down to it. -/
theorem mem_names_of_refers {name : String} {n : Node} (h : n.Refers name) : name ∈ n.names := by
  induction h with
  | here => exact List.mem_singleton_self name
  | inside _ _ ih => exact ih
  | sumLeft _ _ _ _ ih | productLeft _ _ _ _ ih => exact List.mem_append_left _ ih
  | sumRight _ _ _ _ ih | productRight _ _ _ _ ih => exact List.mem_append_right _ ih

/-- A name comes from a leaf, and the way there is the reference. By induction on the tree, of which
the name is in one part or the other. -/
theorem refers_of_mem_names {name : String} {n : Node} (h : name ∈ n.names) : n.Refers name := by
  induction n with
  | addSub pos op l r ihl ihr =>
    -- the name stands in one of the operands
    rcases List.mem_append.1 h with h | h
    · exact .sumLeft pos op r (ihl h)
    · exact .sumRight pos op l (ihr h)
  | mulDiv pos op l r ihl ihr =>
    rcases List.mem_append.1 h with h | h
    · exact .productLeft pos op r (ihl h)
    · exact .productRight pos op l (ihr h)
  | paren pos _ ih => exact .inside pos (ih h)
  | agg pos =>
    obtain rfl := List.mem_singleton.1 h
    exact .here pos
  | number | hole => exact absurd h List.not_mem_nil

/-- No name is missed, at any depth, and none is made up. -/
theorem mem_references_iff {name : String} {n : Node} : name ∈ n.references ↔ n.Refers name := by
  rw [references_eq, mem_firstOccurrences]
  exact ⟨refers_of_mem_names, mem_names_of_refers⟩

end Node

/-- The names of a parsed formula are its identifiers, each as often as it stands there. -/
theorem names_eq_namesOf {f : String} {n : Node} (h : parse f = .ok n) : n.names = namesOf f := by
  rw [← Node.filterMap_name?_words, (parse_sound h).2, List.filterMap_map]
  rfl

/-! ## First occurrences -/

/-- The first name of a kind is found among the first occurrences too. So a search for an undeclared
measure, made through the references, finds the one that stands first in the text. -/
theorem find?_firstOccurrences (p : String → Bool) (l : List String) :
    (firstOccurrences l).find? p = l.find? p := by
  induction l with
  | nil => rfl
  | cons a l ih =>
    rw [firstOccurrences, List.find?_cons, List.find?_cons]
    cases ha : p a with
    | true => rfl
    | false =>
      -- only `a` is left out after `a`, and it is not of the kind
      have hskip : (fun b => decide (decide (b ≠ a) = true ∧ p b = true)) = p := by
        funext b
        by_cases hb : b = a
        · simp [hb, ha]
        · simp [hb]
      rw [List.find?_filter, hskip, ih]

/-- Dropping repetitions and dropping names of a kind can be done in either order, because whether a
name is dropped for its kind does not depend on which of its occurrences it is. -/
theorem firstOccurrences_filter (p : String → Bool) (l : List String) :
    firstOccurrences (l.filter p) = (firstOccurrences l).filter p := by
  induction l with
  | nil => rfl
  | cons a l ih =>
    rw [firstOccurrences, List.filter_cons]
    cases ha : p a with
    | true =>
      rw [if_pos rfl, firstOccurrences, ih, List.filter_cons_of_pos ha, List.filter_filter,
        List.filter_filter]
      simp only [Bool.and_comm]
    | false =>
      -- the copies of `a` that are dropped after it would be dropped with it
      have hskip : ∀ b, (p b && decide (b ≠ a)) = p b := by
        intro b
        by_cases hb : b = a
        · simp [hb, ha]
        · simp [hb]
      rw [if_neg Bool.false_ne_true, ih, List.filter_cons_of_neg (by simp [ha]), List.filter_filter]
      simp only [hskip]

/-- Keeping first occurrences is dropping later repetitions, as the library does it. The library
goes on with the filtered list and not with a part of the list it was given, so the recursion is on
the length. -/
theorem firstOccurrences_eq_eraseDups (l : List String) : firstOccurrences l = l.eraseDups := by
  match l with
  | [] => rfl
  | a :: l =>
    have hrest : ∀ b : String, (!b == a) = decide (b ≠ a) := by
      intro b
      by_cases hb : b = a <;> simp [hb]
    rw [firstOccurrences, List.eraseDups_cons, ← firstOccurrences_eq_eraseDups,
      firstOccurrences_filter]
    simp only [hrest]
termination_by l.length
decreasing_by
  have := List.length_filter_le (fun b => !b == a) l
  simp only [List.length_cons]
  omega

end KpiReport.Formula
