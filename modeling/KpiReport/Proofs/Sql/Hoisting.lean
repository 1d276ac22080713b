import Mathlib.Data.List.Nodup
import Mathlib.Logic.Relation

/-!
# Hoisting by name

Things with names are put into a list, and each of them needs others. Before one is put into the
list, those it needs are put there in the same way; one whose name is taken already is passed over
with all it needs. This module is about what such a run adds to a list, for any things, names and
needs. It does not ask how the run ends, so it holds of a recursion on trees as well as of one with
a bound on its depth.

* **`Hoists`** — a run as a relation: adding `vs` to the list `ws` puts `added` behind it.
* **`Hoists.named`** — every name that was given is in the list then.
* **`Hoists.needsFirst`** — what is needed stands before what needs it (`NeedsFirst`).
* **`Hoists.nodup_iff`** — a name comes twice only if something with that name is added for the sake
  of another thing of the same name. The check is made before the needs are added, and not again
  after that.
-/

namespace KpiReport.Sql

variable {α : Type}

/-- Adding things to a list, each after those it needs and none whose name is taken. The last list
is what is put behind the first one.

There is a run for every way in which a recursion can end, and only for these: a thing that is
needed for itself has none. -/
inductive Hoists (name : α → String) (needs : α → List α) : List α → List α → List α → Prop where
  | nil (ws : List α) : Hoists name needs ws [] []
  | taken {ws vs added : List α} {v : α} (htaken : name v ∈ ws.map name)
      (hvs : Hoists name needs ws vs added) : Hoists name needs ws (v :: vs) added
  | fresh {ws vs before after : List α} {v : α} (hfresh : name v ∉ ws.map name)
      (hneeds : Hoists name needs ws (needs v) before)
      (hvs : Hoists name needs (ws ++ before ++ [v]) vs after) :
      Hoists name needs ws (v :: vs) (before ++ v :: after)

/-- Whatever is needed for an entry of the list stands, at least by name, before it. -/
def NeedsFirst (name : α → String) (needs : α → List α) (ws : List α) : Prop :=
  ∀ pre w post, ws = pre ++ w :: post → ∀ v ∈ needs w, name v ∈ pre.map name

/-- The first thing needs the second one. -/
def Requires (needs : α → List α) (w u : α) : Prop := u ∈ needs w

section NeedsFirst

variable {name : α → String} {needs : α → List α} {ws : List α}

theorem needsFirst_nil : NeedsFirst name needs [] := by
  intro pre w post h
  simp at h

/-- A thing may be put behind a list that has all it needs. What stands before the other entries is
as it was. -/
theorem NeedsFirst.concat (h : NeedsFirst name needs ws) {v : α}
    (hv : ∀ x ∈ needs v, name x ∈ ws.map name) : NeedsFirst name needs (ws ++ [v]) := by
  intro pre w post heq x hx
  rcases List.eq_nil_or_concat' post with rfl | ⟨init, last, rfl⟩
  · -- `w` is the new entry
    obtain ⟨rfl, hlast⟩ := List.append_inj' heq rfl
    obtain rfl : v = w := List.singleton_inj.1 hlast
    exact hv x hx
  · have heq' : ws ++ [v] = (pre ++ w :: init) ++ [last] := by simpa using heq
    obtain ⟨hws, -⟩ := List.append_inj' heq' rfl
    exact h pre w init hws x hx

/-- Only the needs of the entries matter. -/
theorem NeedsFirst.congr {needs' : α → List α} (h : NeedsFirst name needs ws)
    (hneeds : ∀ w ∈ ws, needs' w = needs w) : NeedsFirst name needs' ws := by
  intro pre w post heq v hv
  have hw : w ∈ ws := by simp [heq]
  rw [hneeds w hw] at hv
  exact h pre w post heq v hv

end NeedsFirst

namespace Hoists

variable {name : α → String} {needs : α → List α} {ws vs added : List α}

/-- Every name that was given is in the list. It may belong to another thing that was there
before. -/
theorem named (h : Hoists name needs ws vs added) :
    ∀ v ∈ vs, name v ∈ (ws ++ added).map name := by
  induction h with
  | nil => simp
  -- the name was there before
  | taken htaken _ ih =>
    intro u hu
    rcases List.mem_cons.1 hu with rfl | hu
    · rw [List.map_append]
      exact List.mem_append_left _ htaken
    · exact ih u hu
  | fresh _ _ _ _ ih =>
    intro u hu
    rcases List.mem_cons.1 hu with rfl | hu
    · simp
    · simpa using ih u hu

/-- What is added is among the things given or needed for one of them, directly or through
others. -/
theorem source (h : Hoists name needs ws vs added) :
    ∀ u ∈ added, ∃ v ∈ vs, Relation.ReflTransGen (Requires needs) v u := by
  induction h with
  | nil => simp
  | taken _ _ ih =>
    intro u hu
    obtain ⟨v, hv, hneeds⟩ := ih u hu
    exact ⟨v, List.mem_cons_of_mem _ hv, hneeds⟩
  -- what was added first is needed for `v`; then `v` itself; then what was given after it
  | @fresh ws vs before after v _ _ _ ihneeds ihvs =>
    intro u hu
    rcases List.mem_append.1 hu with hu | hu
    · obtain ⟨x, hx, hneeds⟩ := ihneeds u hu
      exact ⟨v, List.mem_cons_self, .head hx hneeds⟩
    · rcases List.mem_cons.1 hu with rfl | hu
      · exact ⟨u, List.mem_cons_self, .refl⟩
      · obtain ⟨x, hx, hneeds⟩ := ihvs u hu
        exact ⟨x, List.mem_cons_of_mem _ hx, hneeds⟩

/-- A list in this order is kept in it, whatever is added. -/
theorem needsFirst (h : Hoists name needs ws vs added) (hws : NeedsFirst name needs ws) :
    NeedsFirst name needs (ws ++ added) := by
  induction h with
  | nil => simpa using hws
  | taken _ _ ih => exact ih hws
  | @fresh ws vs before after v _ hneeds _ ihneeds ihvs =>
    -- when `v` is added, the list has everything that `v` needs
    have hconcat : NeedsFirst name needs (ws ++ before ++ [v]) := (ihneeds hws).concat hneeds.named
    have hall : NeedsFirst name needs (ws ++ before ++ [v] ++ after) := ihvs hconcat
    simpa using hall

/-- No name of the old list is added again. Each name is checked against at least this list before
anything is added for its sake. -/
theorem disjoint (h : Hoists name needs ws vs added) :
    ∀ u ∈ ws, ∀ w ∈ added, name u ≠ name w := by
  induction h with
  | nil => simp
  | taken _ _ ih => exact ih
  | @fresh ws vs before after v hfresh _ _ ihneeds ihvs =>
    intro u hu w hw
    -- the three parts of what was added are checked against growing lists
    rcases List.mem_append.1 hw with hw | hw
    · exact ihneeds u hu w hw
    · rcases List.mem_cons.1 hw with rfl | hw
      · exact fun heq => hfresh (heq ▸ List.mem_map_of_mem hu)
      · exact ihvs u (by simp [hu]) w hw

/-- If two things of one name are added, the earlier one is needed for the later one: it came after
the check for the later one's name. -/
theorem pairwise (h : Hoists name needs ws vs added) :
    added.Pairwise fun u w => name u = name w → Relation.TransGen (Requires needs) w u := by
  induction h with
  | nil => exact .nil
  | taken _ _ ih => exact ih
  | @fresh ws vs before after v _ hneeds hvs ihneeds ihvs =>
    -- what follows `v` was checked against a list in which `v` and its needs stand
    have hnew : ∀ u ∈ before ++ [v], ∀ w ∈ after, name u ≠ name w := by
      intro u hu w hw
      refine hvs.disjoint u ?_ w hw
      rw [List.append_assoc]
      exact List.mem_append_right _ hu
    rw [List.pairwise_append, List.pairwise_cons]
    refine ⟨ihneeds, ⟨fun w hw heq => ?_, ihvs⟩, fun u hu w hw heq => ?_⟩
    · exact absurd heq (hnew v (by simp) w hw)
    · rcases List.mem_cons.1 hw with rfl | hw
      · -- `u` was added with the needs of `w`
        obtain ⟨x, hx, hxu⟩ := hneeds.source u hu
        exact .head' hx hxu
      · exact absurd heq (hnew u (by simp [hu]) w hw)

/-- **Where names come twice.** In a list without repeated names, a name is repeated by what is added
exactly if one thing is added for the sake of another one of the same name. Nothing may be needed for
itself. -/
theorem nodup_iff (h : Hoists name needs ws vs added)
    (hirrefl : ∀ w, ¬ Relation.TransGen (Requires needs) w w) :
    ((ws ++ added).map name).Nodup ↔ (ws.map name).Nodup ∧
      ∀ u ∈ added, ∀ w ∈ added, Relation.TransGen (Requires needs) w u → name u ≠ name w := by
  constructor
  · intro hnodup
    refine ⟨?_, fun u hu w hw hneeds heq => ?_⟩
    · rw [List.map_append] at hnodup
      exact (List.nodup_append.1 hnodup).1
    · -- both are the same entry, so that it is needed for itself
      have hsame : u = w := List.inj_on_of_nodup_map hnodup (List.mem_append_right _ hu)
        (List.mem_append_right _ hw) heq
      subst hsame
      exact hirrefl u hneeds
  · rintro ⟨hws, hadded⟩
    -- repeated names come only in pairs of which one thing is needed for the other
    have hpairs : added.Pairwise fun u w => name u ≠ name w := by
      refine h.pairwise.imp_of_mem fun hu hw hneeds heq => ?_
      exact hadded _ hu _ hw (hneeds heq) heq
    rw [List.map_append, List.nodup_append]
    refine ⟨hws, List.pairwise_map.2 hpairs, ?_⟩
    intro a ha b hb
    obtain ⟨u, hu, rfl⟩ := List.mem_map.1 ha
    obtain ⟨w, hw, rfl⟩ := List.mem_map.1 hb
    exact h.disjoint u hu w hw

end Hoists

end KpiReport.Sql
