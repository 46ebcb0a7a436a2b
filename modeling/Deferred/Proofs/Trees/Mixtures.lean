import Mathlib.Data.List.Perm.Basic

/-! Mixtures. Items of two lists come in any order in which each list keeps its own. What may come
of several sources is mixed one source at a time, and it does not matter how the sources are
grouped. -/

namespace Deferred

variable {α β : Type}

/-- The items of both lists, each list in its order. -/
inductive Shuffles : List α → List α → List α → Prop where
  | nil : Shuffles [] [] []
  | left {value first second whole} (rest : Shuffles first second whole) :
      Shuffles (value :: first) second (value :: whole)
  | right {value first second whole} (rest : Shuffles first second whole) :
      Shuffles first (value :: second) (value :: whole)

namespace Shuffles

variable {first second third whole outer : List α}

theorem symm (shuffles : Shuffles first second whole) : Shuffles second first whole := by
  induction shuffles with
  | nil => exact .nil
  | left _ ih => exact .right ih
  | right _ ih => exact .left ih

theorem append_left (shuffles : Shuffles first second whole) (values : List α) :
    Shuffles (values ++ first) second (values ++ whole) := by
  induction values with
  | nil => exact shuffles
  | cons value values ih => exact .left ih

theorem refl_left (values : List α) : Shuffles values [] values := by
  induction values with
  | nil => exact .nil
  | cons value values ih => exact .left ih

theorem eq_of_nil (shuffles : Shuffles first [] whole) : whole = first := by
  generalize empty : ([] : List α) = none at shuffles
  induction shuffles with
  | nil => rfl
  | left _ ih => rw [ih empty]
  | right => cases empty

theorem perm (shuffles : Shuffles first second whole) : whole.Perm (first ++ second) := by
  induction shuffles with
  | nil => rfl
  | left _ ih => exact ih.cons _
  | right _ ih => exact (ih.cons _).trans List.perm_middle.symm

theorem map (f : α → β) (shuffles : Shuffles first second whole) :
    Shuffles (first.map f) (second.map f) (whole.map f) := by
  induction shuffles with
  | nil => exact .nil
  | left _ ih => exact .left ih
  | right _ ih => exact .right ih

/-- What is shuffled can be told more closely if the two lists can. -/
theorem of_map (f : α → β) {mixed : List β}
    (shuffles : Shuffles (first.map f) (second.map f) mixed) :
    ∃ whole, Shuffles first second whole ∧ mixed = whole.map f := by
  generalize one : first.map f = left at shuffles
  generalize other : second.map f = right at shuffles
  induction shuffles generalizing first second with
  | nil =>
    obtain rfl := List.map_eq_nil_iff.mp one
    obtain rfl := List.map_eq_nil_iff.mp other
    exact ⟨[], .nil, rfl⟩
  | left _ ih =>
    obtain ⟨value, rest, rfl, rfl, rfl⟩ := List.map_eq_cons_iff.mp one
    obtain ⟨whole, shuffles, rfl⟩ := ih rfl other
    exact ⟨value :: whole, .left shuffles, rfl⟩
  | right _ ih =>
    obtain ⟨value, rest, rfl, rfl, rfl⟩ := List.map_eq_cons_iff.mp other
    obtain ⟨whole, shuffles, rfl⟩ := ih one rfl
    exact ⟨value :: whole, .right shuffles, rfl⟩

theorem of_filter (fine : α → Bool) (values : List α) :
    Shuffles (values.filter fine) (values.filter (!fine ·)) values := by
  induction values with
  | nil => exact .nil
  | cons value values ih =>
    cases accepted : fine value with
    | true =>
      rw [List.filter_cons_of_pos accepted, List.filter_cons_of_neg (by simp [accepted])]
      exact .left ih
    | false =>
      rw [List.filter_cons_of_neg (by simp [accepted]),
        List.filter_cons_of_pos (by simp [accepted])]
      exact .right ih

/-- What holds between any two items of one list in their order, and between items of both lists in
either order, holds between any two items of the whole. -/
theorem pairwise {before : α → α → Prop} (shuffles : Shuffles first second whole)
    (one : first.Pairwise before) (other : second.Pairwise before)
    (across : ∀ a ∈ first, ∀ b ∈ second, before a b ∧ before b a) : whole.Pairwise before := by
  induction shuffles with
  | nil => exact .nil
  | @left value first second whole rest ih =>
    rw [List.pairwise_cons] at one ⊢
    refine ⟨fun b member => ?_, ih one.2 other fun a here => across a (List.mem_cons_of_mem _ here)⟩
    rcases List.mem_append.mp (rest.perm.mem_iff.mp member) with here | there
    · exact one.1 b here
    · exact (across value List.mem_cons_self b there).1
  | @right value first second whole rest ih =>
    rw [List.pairwise_cons] at other ⊢
    refine ⟨fun b member => ?_, ih one other.2 fun a here b there =>
      across a here b (List.mem_cons_of_mem _ there)⟩
    rcases List.mem_append.mp (rest.perm.mem_iff.mp member) with here | there
    · exact (across b here value List.mem_cons_self).2
    · exact other.1 b there

theorem assoc (inner : Shuffles first second whole) (shuffles : Shuffles whole third outer) :
    ∃ rest, Shuffles second third rest ∧ Shuffles first rest outer := by
  induction shuffles generalizing first second with
  | nil =>
    cases inner
    exact ⟨[], .nil, .nil⟩
  | left _ ih =>
    cases inner with
    | left inner =>
      obtain ⟨rest, later, goesOn⟩ := ih inner
      exact ⟨rest, later, .left goesOn⟩
    | right inner =>
      obtain ⟨rest, later, goesOn⟩ := ih inner
      exact ⟨_ :: rest, .left later, .right goesOn⟩
  | right _ ih =>
    obtain ⟨rest, later, goesOn⟩ := ih inner
    exact ⟨_ :: rest, .right later, .right goesOn⟩

end Shuffles

/-- Whatever comes of one and whatever comes of the other, in any mixture. -/
def Mixes (may more : List α → Prop) (list : List α) : Prop :=
  ∃ first second, may first ∧ more second ∧ Shuffles first second list

/-- Whatever comes of all of them. -/
def Mixture (mays : List (List α → Prop)) : List α → Prop :=
  mays.foldr Mixes (· = [])

section
variable {may more last : List α → Prop} {mays : List (List α → Prop)} {list : List α}

theorem mixes_comm : Mixes may more list ↔ Mixes more may list := by
  have swap : ∀ {may more : List α → Prop}, Mixes may more list → Mixes more may list :=
    fun ⟨first, second, comes, follows, shuffles⟩ => ⟨second, first, follows, comes, shuffles.symm⟩
  exact ⟨swap, swap⟩

theorem mixes_nothing : Mixes may (· = []) list ↔ may list := by
  constructor
  · rintro ⟨first, second, comes, rfl, shuffles⟩
    exact shuffles.eq_of_nil ▸ comes
  · exact fun comes => ⟨list, [], comes, rfl, .refl_left list⟩

theorem mixes_assoc : Mixes (Mixes may more) last list ↔ Mixes may (Mixes more last) list := by
  constructor
  · rintro ⟨whole, third, ⟨first, second, comes, follows, inner⟩, ends, shuffles⟩
    obtain ⟨rest, later, goesOn⟩ := inner.assoc shuffles
    exact ⟨first, rest, comes, ⟨second, third, follows, ends, later⟩, goesOn⟩
  · rintro ⟨first, whole, comes, ⟨second, third, follows, ends, inner⟩, shuffles⟩
    obtain ⟨rest, later, goesOn⟩ := inner.symm.assoc shuffles.symm
    exact ⟨rest, third, ⟨first, second, comes, follows, later.symm⟩, ends, goesOn.symm⟩

theorem mixture_cons : Mixture (may :: mays) = Mixes may (Mixture mays) := rfl

theorem mixture_append (mays others : List (List α → Prop)) :
    Mixture (mays ++ others) = Mixes (Mixture mays) (Mixture others) := by
  funext list
  apply propext
  induction mays generalizing list with
  | nil => exact mixes_comm.symm.trans mixes_nothing |>.symm
  | cons may mays ih =>
    rw [List.cons_append, mixture_cons, mixture_cons, mixes_assoc,
      funext fun list => propext (ih list)]

/-- Sources may be mixed in groups. -/
theorem mixture_flatten (groups : List (List (List α → Prop))) :
    Mixture groups.flatten = Mixture (groups.map Mixture) := by
  induction groups with
  | nil => rfl
  | cons group groups ih =>
    rw [List.flatten_cons, mixture_append, ih, List.map_cons, mixture_cons]

end

end Deferred
