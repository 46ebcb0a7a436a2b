/-! Interleavings of lists. Items that carry the number of the list that they are from show that
the whole is an interleaving of the lists that they make up. -/

namespace Deferred

variable {α : Type}

/-- The whole takes all items of the parts, those of each part in their order. -/
inductive Interleaves : List (List α) → List α → Prop where
  | nil {parts : List (List α)} (empty : ∀ part ∈ parts, part = []) : Interleaves parts []
  | cons {parts : List (List α)} {index : Nat} {value : α} {rest whole : List α}
      (head : parts[index]? = some (value :: rest))
      (tail : Interleaves (parts.set index rest) whole) : Interleaves parts (value :: whole)

/-- The items that carry the number. -/
def itemsOf (tagged : List (Nat × α)) (index : Nat) : List α :=
  (tagged.filter (·.1 == index)).map Prod.snd

@[simp] theorem itemsOf_append (first second : List (Nat × α)) (index : Nat) :
    itemsOf (first ++ second) index = itemsOf first index ++ itemsOf second index := by
  simp [itemsOf]

theorem itemsOf_cons_self (value : α) (tagged : List (Nat × α)) (index : Nat) :
    itemsOf ((index, value) :: tagged) index = value :: itemsOf tagged index := by
  simp [itemsOf]

theorem itemsOf_cons_ne {index other : Nat} (value : α) (tagged : List (Nat × α))
    (apart : other ≠ index) : itemsOf ((other, value) :: tagged) index = itemsOf tagged index := by
  simp [itemsOf, apart]

@[simp] theorem itemsOf_tag_self (values : List α) (index : Nat) :
    itemsOf (values.map (index, ·)) index = values := by
  simp [itemsOf, List.filter_map, Function.comp_def]

theorem itemsOf_tag_ne {index other : Nat} (values : List α) (apart : other ≠ index) :
    itemsOf (values.map (other, ·)) index = [] := by
  simp [itemsOf, apart]

theorem itemsOf_eq_nil {tagged : List (Nat × α)} {index : Nat}
    (absent : ∀ entry ∈ tagged, entry.1 ≠ index) : itemsOf tagged index = [] := by
  simpa [itemsOf, List.filter_eq_nil_iff] using fun tag value member => absent (tag, value) member

theorem interleaves_of_tagged (tagged : List (Nat × α)) {parts : List (List α)}
    (known : ∀ entry ∈ tagged, entry.1 < parts.length)
    (own : ∀ index part, parts[index]? = some part → itemsOf tagged index = part) :
    Interleaves parts (tagged.map Prod.snd) := by
  induction tagged generalizing parts with
  | nil =>
    refine .nil fun part member => ?_
    obtain ⟨index, found⟩ := List.mem_iff_getElem?.mp member
    exact (own index part found).symm
  | cons entry tagged ih =>
    obtain ⟨tag, value⟩ := entry
    have bound : tag < parts.length := known (tag, value) List.mem_cons_self
    have head : parts[tag]? = some (value :: itemsOf tagged tag) := by
      rw [List.getElem?_eq_getElem bound, ← own tag _ (List.getElem?_eq_getElem bound),
        itemsOf_cons_self]
    refine .cons head (ih ?_ ?_)
    · intro other member
      rw [List.length_set]
      exact known other (List.mem_cons_of_mem _ member)
    · intro index part found
      by_cases same : tag = index
      · subst same
        rw [List.getElem?_set_self bound] at found
        exact Option.some.inj found
      · rw [List.getElem?_set_ne same] at found
        rw [← own index part found, itemsOf_cons_ne value tagged same]

end Deferred
