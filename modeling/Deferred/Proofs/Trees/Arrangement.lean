import Mathlib.Data.List.Perm.Basic
import Mathlib.Data.Set.List
import Deferred.Proofs.Trees.Mixtures

/-! Arrangements of labelled items. A label says where in a tree an item comes from, and an
arrangement has each item once and none before one that has to precede it. What is arranged side by
side is mixed, and nothing else. -/

namespace Deferred

variable {α β : Type}

/-- The list has the values of these items, each item once and none before one that precedes it. -/
def Arranges (items : List (List Nat × α)) (precedes : List Nat → List Nat → Prop) (list : List α) :
    Prop :=
  ∃ order : List (List Nat × α), order.Perm items ∧
    order.Pairwise (fun a b => ¬ precedes b.1 a.1) ∧ list = order.map Prod.snd

/-- The item from the subtree with this number. -/
def mark (index : Nat) (entry : List Nat × α) : List Nat × α :=
  (index :: entry.1, entry.2)

theorem mark_injective {index : Nat} :
    Function.Injective (mark index : List Nat × α → List Nat × α) := by
  rintro ⟨label, value⟩ ⟨other, more⟩ same
  obtain ⟨labels, values⟩ := Prod.mk.inj same
  exact Prod.ext (List.tail_eq_of_cons_eq labels) values

namespace Arranges

variable {items others : List (List Nat × α)} {precedes own whole : List Nat → List Nat → Prop}
  {list more : List α} {index : Nat}

theorem perm (arranges : Arranges items precedes list) : list.Perm (items.map Prod.snd) := by
  obtain ⟨order, perm, -, rfl⟩ := arranges
  exact perm.map Prod.snd

theorem nil_iff : Arranges [] precedes list ↔ list = [] := by
  constructor
  · rintro ⟨order, perm, -, rfl⟩
    rw [perm.eq_nil]
    rfl
  · rintro rfl
    exact ⟨[], .nil, .nil, rfl⟩

theorem map (arranges : Arranges items precedes list) (f : α → β) :
    Arranges (items.map (Prod.map id f)) precedes (list.map f) := by
  obtain ⟨order, perm, sorted, rfl⟩ := arranges
  refine ⟨order.map (Prod.map id f), perm.map _, List.pairwise_map.mpr sorted, ?_⟩
  rw [List.map_map, List.map_map]
  rfl

theorem filter (arranges : Arranges items precedes list) (fine : α → Bool) :
    Arranges (items.filter (fine ·.2)) precedes (list.filter fine) := by
  obtain ⟨order, perm, sorted, rfl⟩ := arranges
  refine ⟨order.filter (fine ·.2), perm.filter _, sorted.filter _, ?_⟩
  rw [List.filter_map]
  rfl

/-- The items of the first come before those of the second. -/
theorem append {first second : Nat} (arranges : Arranges items precedes list)
    (follows : Arranges others own more)
    (inner : ∀ p q, whole (first :: p) (first :: q) → precedes p q)
    (later : ∀ p q, whole (second :: p) (second :: q) → own p q)
    (across : ∀ p q, ¬ whole (second :: q) (first :: p)) :
    Arranges (items.map (mark first) ++ others.map (mark second)) whole (list ++ more) := by
  obtain ⟨order, perm, sorted, rfl⟩ := arranges
  obtain ⟨rest, same, kept, rfl⟩ := follows
  refine ⟨order.map (mark first) ++ rest.map (mark second), (perm.map _).append (same.map _), ?_,
    ?_⟩
  · rw [List.pairwise_append]
    refine ⟨List.pairwise_map.mpr (sorted.imp fun {a b} apart => mt (inner b.1 a.1) apart),
      List.pairwise_map.mpr (kept.imp fun {a b} apart => mt (later b.1 a.1) apart), ?_⟩
    intro a here b there
    obtain ⟨p, -, rfl⟩ := List.mem_map.mp here
    obtain ⟨q, -, rfl⟩ := List.mem_map.mp there
    exact across p.1 q.1
  · rw [List.map_append, List.map_map, List.map_map]
    rfl

/-- Items in their order are arranged. -/
theorem of_pairwise (sorted : items.Pairwise fun a b => ¬ precedes b.1 a.1) :
    Arranges items precedes (items.map Prod.snd) :=
  ⟨items, .refl items, sorted, rfl⟩

/-! ### Side by side -/

/-- Nothing of one subtree has to precede anything of the others. -/
structure Beside (index : Nat) (own whole : List Nat → List Nat → Prop)
    (others : List (List Nat × α)) : Prop where
  own : ∀ p q, whole (index :: p) (index :: q) ↔ own p q
  apart : ∀ entry ∈ others, entry.1.head? ≠ some index
  free : ∀ p, ∀ entry ∈ others, ¬ whole (index :: p) entry.1 ∧ ¬ whole entry.1 (index :: p)

theorem of_mixes (beside : Beside index own whole others)
    (mixes : Mixes (Arranges items own) (Arranges others whole) list) :
    Arranges (items.map (mark index) ++ others) whole list := by
  obtain ⟨_, _, ⟨order, perm, sorted, rfl⟩, ⟨rest, same, kept, rfl⟩, shuffles⟩ := mixes
  have marked : order.map Prod.snd = (order.map (mark index)).map Prod.snd := by
    rw [List.map_map]
    rfl
  rw [marked] at shuffles
  obtain ⟨mixed, shuffled, rfl⟩ := shuffles.of_map
  refine ⟨mixed, shuffled.perm.trans ((perm.map _).append same), shuffled.pairwise ?_ kept ?_, rfl⟩
  · exact List.pairwise_map.mpr (sorted.imp fun {a b} apart => mt (beside.own b.1 a.1).mp apart)
  · intro a here b there
    obtain ⟨entry, -, rfl⟩ := List.mem_map.mp here
    exact (beside.free entry.1 b (same.mem_iff.mp there)).symm

theorem mixes (beside : Beside index own whole others)
    (arranges : Arranges (items.map (mark index) ++ others) whole list) :
    Mixes (Arranges items own) (Arranges others whole) list := by
  obtain ⟨order, perm, sorted, rfl⟩ := arranges
  let mine : List Nat × α → Bool := fun entry => entry.1.head? == some index
  have inside : (items.map (mark index)).filter mine = items.map (mark index) :=
    List.filter_eq_self.mpr fun entry member => by
      obtain ⟨entry, -, rfl⟩ := List.mem_map.mp member
      exact beq_self_eq_true _
  have outside : others.filter mine = [] :=
    List.filter_eq_nil_iff.mpr fun entry member => by
      simpa [mine] using beside.apart entry member
  have excluded : (items.map (mark index)).filter (!mine ·) = [] :=
    List.filter_eq_nil_iff.mpr fun entry member => by
      obtain ⟨entry, -, rfl⟩ := List.mem_map.mp member
      simp [mine, mark]
  have rest : others.filter (!mine ·) = others :=
    List.filter_eq_self.mpr fun entry member => by
      simpa [mine] using beside.apart entry member
  have first := perm.filter mine
  have second := perm.filter (!mine ·)
  rw [List.filter_append, inside, outside, List.append_nil] at first
  rw [List.filter_append, excluded, rest, List.nil_append] at second
  have marks : ∀ entry ∈ order.filter mine, entry ∈ Set.range (mark index) := fun entry member => by
    obtain ⟨bare, -, same⟩ := List.mem_map.mp (first.mem_iff.mp member)
    exact ⟨bare, same⟩
  -- The items of the subtree are all marked, so the marks can be taken off again.
  obtain ⟨bare, same⟩ : order.filter mine ∈ Set.range (List.map (mark index)) := by
    rw [Set.range_list_map]
    exact marks
  rw [← same] at first
  refine ⟨bare.map Prod.snd, (order.filter (!mine ·)).map Prod.snd, ⟨bare, ?_, ?_, rfl⟩,
    ⟨_, second, sorted.filter _, rfl⟩, ?_⟩
  · exact (List.map_perm_map_iff mark_injective).mp first
  · have kept := sorted.filter mine
    rw [← same, List.pairwise_map] at kept
    exact kept.imp fun {a b} apart => mt (beside.own b.1 a.1).mpr apart
  · have shuffles := (Shuffles.of_filter mine order).map Prod.snd
    rw [← same, List.map_map] at shuffles
    exact shuffles

/-- What is arranged side by side is mixed. -/
theorem append_iff (beside : Beside index own whole others) :
    Arranges (items.map (mark index) ++ others) whole list ↔
      Mixes (Arranges items own) (Arranges others whole) list :=
  ⟨mixes beside, of_mixes beside⟩

end Arranges

section
variable {count : Nat}

/-- One item precedes another of the same subtree. -/
def Within (precedes : Fin count → List Nat → List Nat → Prop) (first second : List Nat) : Prop :=
  ∃ index p q, first = index.val :: p ∧ second = index.val :: q ∧ precedes index p q

theorem within_cons {precedes : Fin count → List Nat → List Nat → Prop} {index : Fin count}
    {p q : List Nat} :
    Within precedes (index.val :: p) (index.val :: q) ↔ precedes index p q := by
  constructor
  · rintro ⟨other, p, q, same, sameToo, before⟩
    obtain ⟨here, rfl⟩ := List.cons.inj same
    obtain rfl := Fin.ext here
    obtain ⟨-, rfl⟩ := List.cons.inj sameToo
    exact before
  · exact fun before => ⟨index, p, q, rfl, rfl, before⟩

/-- An arrangement of subtrees side by side is a mixture of arrangements of them. -/
theorem arranges_flatMap_iff (items : Fin count → List (List Nat × α))
    (precedes : Fin count → List Nat → List Nat → Prop) (indices : List (Fin count))
    (nodup : indices.Nodup) (list : List α) :
    Arranges (indices.flatMap fun index => (items index).map (mark index)) (Within precedes) list ↔
      Mixture (indices.map fun index => Arranges (items index) (precedes index)) list := by
  induction indices generalizing list with
  | nil => exact Arranges.nil_iff
  | cons index rest ih =>
    obtain ⟨absent, nodup⟩ := List.nodup_cons.mp nodup
    have others : ∀ entry ∈ rest.flatMap fun index => (items index).map (mark index),
        ∃ other : Fin count, other ≠ index ∧ ∃ q, entry.1 = other.val :: q := by
      intro entry member
      obtain ⟨other, there, inside⟩ := List.mem_flatMap.mp member
      obtain ⟨entry, -, rfl⟩ := List.mem_map.mp inside
      exact ⟨other, fun same => absent (same ▸ there), entry.1, rfl⟩
    have beside : Arranges.Beside index.val (precedes index) (Within precedes)
        (rest.flatMap fun index => (items index).map (mark index)) := by
      refine ⟨fun p q => within_cons, fun entry member => ?_, fun p entry member => ?_⟩
      all_goals
        obtain ⟨other, apart, q, label⟩ := others entry member
        have apart := Fin.val_ne_of_ne apart
        rw [label]
      · simpa using apart
      · constructor
        · rintro ⟨here, _, _, same, sameToo, -⟩
          exact apart ((List.cons.inj sameToo).1.trans (List.cons.inj same).1.symm)
        · rintro ⟨here, _, _, same, sameToo, -⟩
          exact apart ((List.cons.inj same).1.trans (List.cons.inj sameToo).1.symm)
    rw [List.flatMap_cons, List.map_cons, mixture_cons, Arranges.append_iff beside,
      funext fun list => propext (ih nodup list)]

end

end Deferred
