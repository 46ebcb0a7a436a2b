/-! Lists of parts, of which one changes at a time and new ones come at the end. -/

namespace Deferred

variable {β : Type} {list : List β} {index place : Nat} {value next entry : β}

theorem getElem?_concat_eq_some (found : (list ++ [value])[place]? = some entry) :
    list[place]? = some entry ∨ list.length = place ∧ entry = value := by
  rcases Nat.lt_or_ge place list.length with inside | outside
  · rw [List.getElem?_append_left inside] at found
    exact .inl found
  · rw [List.getElem?_append_right outside, List.getElem?_singleton] at found
    split at found
    · exact .inr ⟨by omega, (Option.some.inj found).symm⟩
    · cases found

theorem getElem?_set_eq_some (found : (list.set index next)[place]? = some entry) :
    index = place ∧ entry = next ∨ index ≠ place ∧ list[place]? = some entry := by
  by_cases same : index = place
  · subst same
    have bound := (List.getElem?_eq_some_iff.mp found).1
    rw [List.length_set] at bound
    rw [List.getElem?_set_self bound] at found
    exact .inl ⟨rfl, (Option.some.inj found).symm⟩
  · rw [List.getElem?_set_ne same] at found
    exact .inr ⟨same, found⟩

/-- An entry other than the given one. -/
def ExistsBeside (list : List β) (index : Nat) (holds : β → Prop) : Prop :=
  ∃ place entry, index ≠ place ∧ list[place]? = some entry ∧ holds entry

theorem exists_mem_iff (here : list[index]? = some value) (holds : β → Prop) :
    (∃ entry ∈ list, holds entry) ↔ holds value ∨ ExistsBeside list index holds := by
  constructor
  · rintro ⟨entry, member, known⟩
    obtain ⟨place, there⟩ := List.mem_iff_getElem?.mp member
    by_cases same : index = place
    · subst same
      obtain rfl := Option.some.inj (here.symm.trans there)
      exact .inl known
    · exact .inr ⟨place, entry, same, there, known⟩
  · rintro (known | ⟨place, entry, -, there, known⟩)
    · exact ⟨value, List.mem_of_getElem? here, known⟩
    · exact ⟨entry, List.mem_of_getElem? there, known⟩

theorem exists_mem_set_iff (here : list[index]? = some value) (next : β) (holds : β → Prop) :
    (∃ entry ∈ list.set index next, holds entry) ↔
      holds next ∨ ExistsBeside list index holds := by
  have there : (list.set index next)[index]? = some next :=
    List.getElem?_set_self (List.getElem?_eq_some_iff.mp here).1
  rw [exists_mem_iff there]
  refine or_congr_right ⟨?_, ?_⟩ <;> rintro ⟨place, entry, apart, found, known⟩
  · exact ⟨place, entry, apart, by rwa [List.getElem?_set_ne apart] at found, known⟩
  · exact ⟨place, entry, apart, by rwa [List.getElem?_set_ne apart], known⟩

/-- What holds of some entry holds of some entry after a change that does not end it. -/
theorem exists_mem_set {holds : β → Prop} (here : list[index]? = some value)
    (before : ∃ entry ∈ list, holds entry) (keeps : holds value → holds next) :
    ∃ entry ∈ list.set index next, holds entry := by
  rw [exists_mem_set_iff here]
  exact ((exists_mem_iff here holds).mp before).imp_left keeps

end Deferred
