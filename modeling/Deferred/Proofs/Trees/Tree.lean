import Mathlib.Algebra.Order.BigOperators.Group.List
import Mathlib.Algebra.Order.Group.Nat
import Deferred.Proofs.Trees.Arrangement
import Deferred.Proofs.Trees.Merging

/-! Trees of feeds. Leaves give items of their own in their own time, and inner nodes map, filter,
append or merge what is below them, to any depth. What has to come of a tree is read off it: its
items with labels that say where they come from, and which of them precede which. A run of the tree
comes to an arrangement of them, whatever goes on beside it. -/

namespace Deferred

variable {σ : Type} [Host σ] {grounds : Grounds σ}

/-- What a merge needs: hubs of its own, and a scope that nobody cancels. -/
structure Merger (grounds : Grounds σ) (α : Type) where
  hubs : Arena σ (Hub α)
  scope : Scope σ
  offers : grounds.Offers hubs
  keeps : grounds.Keeps scope

inductive Tree (grounds : Grounds σ) : Type → Type 1 where
  | leaf {α} (feed : Feed σ α) (values : List α) (pauses : Nat)
      (lists : feed.Lists grounds values pauses) : Tree grounds α
  | map {α β} (tree : Tree grounds α) (f : α → Code σ β) (image : α → β)
      (total : ∀ value, grounds.Total (f value) (image value)) : Tree grounds β
  | filter {α} (tree : Tree grounds α) (accepts : α → Code σ Bool) (fine : α → Bool)
      (total : ∀ value, grounds.Total (accepts value) (fine value)) : Tree grounds α
  | append {α} (first second : Tree grounds α) : Tree grounds α
  | merge {α} (merger : Merger grounds α) {count : Nat} (inputs : Fin count → Tree grounds α) :
      Tree grounds α

namespace Tree

variable {α : Type}

/-- A list as a leaf, which never pauses. -/
def ofList (values : List α) : Tree grounds α :=
  leaf (.ofList values) values 0 (Feed.lists_ofList values)

/-- The feed that the tree describes. Each merged run in it may take so many looks. -/
def feed (span : Nat) : {α : Type} → Tree grounds α → Feed σ α
  | _, leaf feed _ _ _ => feed
  | _, map tree f _ _ => (tree.feed span).map f
  | _, filter tree accepts _ _ => (tree.feed span).filter accepts
  | _, append first second => (first.feed span).append (second.feed span)
  | _, @merge _ _ _ _ merger count inputs =>
      .mergeFor span merger.hubs ((List.finRange count).map fun index => (inputs index).feed span)
        merger.scope

/-- With `Merge.looks` for its looks, a merge of the tree is `Feed.merge`. -/
theorem feed_merge {α : Type} (merger : Merger grounds α) {count : Nat}
    (inputs : Fin count → Tree grounds α) :
    (merge merger inputs).feed Merge.looks = .merge merger.hubs
      ((List.finRange count).map fun index => (inputs index).feed Merge.looks) merger.scope :=
  (Feed.merge_eq_mergeFor _ _ _).symm

/-- The turns that a run of the tree may take, with those of its tasks. -/
def turns : {α : Type} → Tree grounds α → Nat
  | _, leaf _ values pauses _ => values.length + pauses + 1
  | _, map tree _ _ _ => tree.turns
  | _, filter tree _ _ _ => tree.turns
  | _, append first second => first.turns + second.turns
  | _, @merge _ _ _ _ _ count inputs =>
      Merge.mergeTurns (fun index => (inputs index).turns) (List.finRange count)

/-- The items of the tree. An item of a leaf is labelled with its position in the leaf, preceded by
the numbers of the branches on the way to the leaf. -/
def items : {α : Type} → Tree grounds α → List (List Nat × α)
  | _, leaf _ values _ _ => values.zipIdx.map fun (value, position) => ([position], value)
  | _, map tree _ image _ => tree.items.map (Prod.map id image)
  | _, filter tree _ fine _ => tree.items.filter (fine ·.2)
  | _, append first second => first.items.map (mark 0) ++ second.items.map (mark 1)
  | _, @merge _ _ _ _ _ count inputs =>
      (List.finRange count).flatMap fun index => (inputs index).items.map (mark index)

/-- The items of a leaf keep their order, and where a feed is appended to another everything of the
other one comes first. -/
def Precedes : {α : Type} → Tree grounds α → List Nat → List Nat → Prop
  | _, leaf _ _ _ _, p, q => ∃ i j, p = [i] ∧ q = [j] ∧ i < j
  | _, map tree _ _ _, p, q => tree.Precedes p q
  | _, filter tree _ _ _, p, q => tree.Precedes p q
  | _, append _ _, 0 :: _, 1 :: _ => True
  | _, append first _, 0 :: p, 0 :: q => first.Precedes p q
  | _, append _ second, 1 :: p, 1 :: q => second.Precedes p q
  | _, append _ _, _, _ => False
  | _, merge _ inputs, p, q => Within (fun index => (inputs index).Precedes) p q

/-- The lists that a run of the tree may come to. -/
def Allows (tree : Tree grounds α) : List α → Prop :=
  Arranges tree.items tree.Precedes

/-- Whatever comes of the tree has the values of its items. -/
theorem Allows.perm {tree : Tree grounds α} {list : List α} (allows : tree.Allows list) :
    list.Perm (tree.items.map Prod.snd) :=
  Arranges.perm allows

/-! ### What comes of a run -/

theorem allows_leaf (feed : Feed σ α) (values : List α) (pauses : Nat)
    (lists : feed.Lists grounds values pauses) : (leaf feed values pauses lists).Allows values := by
  have sorted : (leaf feed values pauses lists).items.Pairwise
      fun a b => ¬ (leaf feed values pauses lists).Precedes b.1 a.1 := by
    refine List.pairwise_map.mpr (List.pairwise_iff_getElem.mpr fun i j _ _ less => ?_)
    rw [List.getElem_zipIdx, List.getElem_zipIdx]
    rintro ⟨_, _, ⟨⟩, ⟨⟩, more⟩
    omega
  have same : (leaf feed values pauses lists).items.map Prod.snd = values := by
    show (values.zipIdx.map _).map Prod.snd = values
    rw [List.map_map]
    exact List.zipIdx_map_fst 0 values
  have arranges := Arranges.of_pairwise sorted
  rwa [same] at arranges

theorem allows_append {first second : Tree grounds α} {list more : List α}
    (allows : first.Allows list) (follows : second.Allows more) :
    (append first second).Allows (list ++ more) :=
  Arranges.append allows follows (fun _ _ => id) (fun _ _ => id) fun _ _ => id

/-- What comes of a merge is a mixture of what comes of its inputs. -/
theorem allows_merge_iff (merger : Merger grounds α) {count : Nat}
    (inputs : Fin count → Tree grounds α) (list : List α) :
    (merge merger inputs).Allows list ↔
      Mixture ((List.finRange count).map fun index => (inputs index).Allows) list :=
  arranges_flatMap_iff _ _ (List.finRange count) (List.nodup_finRange count) list

/-- The inputs of a merge have fewer turns than the merge. -/
theorem turns_input_le (merger : Merger grounds α) {count : Nat}
    (inputs : Fin count → Tree grounds α) (index : Fin count) :
    (inputs index).turns ≤ (merge merger inputs).turns := by
  have part : (inputs index).turns ≤
      ((List.finRange count).map fun index => (inputs index).turns).sum :=
    List.le_sum_of_mem (List.mem_map_of_mem (List.mem_finRange index))
  show _ ≤ Merge.mergeTurns _ _
  unfold Merge.mergeTurns
  omega

/-- A run of the tree behaves, and comes to what the tree allows. -/
theorem runs (tree : Tree grounds α) {span : Nat} (enough : tree.turns ≤ span) :
    (tree.feed span).Runs grounds tree.turns tree.Allows := by
  induction tree with
  | leaf feed values pauses lists =>
    exact lists.runs.weaken le_rfl fun list same => same ▸ allows_leaf feed values pauses lists
  | map tree f image total ih =>
    refine ((ih enough).map total).weaken le_rfl ?_
    rintro _ ⟨source, allows, rfl⟩
    exact Arranges.map allows image
  | filter tree accepts fine total ih =>
    refine ((ih enough).filter total).weaken le_rfl ?_
    rintro _ ⟨source, allows, rfl⟩
    exact Arranges.filter allows fine
  | append first second ih follows =>
    have sum : first.turns + second.turns ≤ span := enough
    refine ((ih (by omega)).append (follows (by omega))).weaken le_rfl ?_
    rintro _ ⟨list, more, allows, later, rfl⟩
    exact allows_append allows later
  | merge merger inputs ih =>
    refine (Feed.runs_mergeFor merger.offers merger.keeps
      (fun index => ih index ((turns_input_le merger inputs index).trans enough))
      enough).weaken le_rfl fun list => ?_
    exact (allows_merge_iff merger inputs list).mpr

/-! ### Merges of merges -/

/-- A merge of these trees. -/
def mergeAll (merger : Merger grounds α) (trees : List (Tree grounds α)) : Tree grounds α :=
  merge merger trees.get

theorem allows_mergeAll_iff (merger : Merger grounds α) (trees : List (Tree grounds α))
    (list : List α) : (mergeAll merger trees).Allows list ↔ Mixture (trees.map Allows) list := by
  have inputs : (List.finRange trees.length).map (fun index => (trees.get index).Allows) =
      trees.map Allows :=
    calc (List.finRange trees.length).map (fun index => (trees.get index).Allows)
        = ((List.finRange trees.length).map trees.get).map Allows := by
          rw [List.map_map]
          rfl
      _ = trees.map Allows := by rw [List.map_get_finRange]
  exact (allows_merge_iff merger trees.get list).trans (by rw [inputs])

/-- An input of a merge: a tree, or a merge of several. -/
inductive Part (grounds : Grounds σ) (α : Type) : Type 1 where
  | one (tree : Tree grounds α)
  | several (merger : Merger grounds α) (trees : List (Tree grounds α))

namespace Part

def trees : Part grounds α → List (Tree grounds α)
  | one tree => [tree]
  | several _ trees => trees

def tree : Part grounds α → Tree grounds α
  | one tree => tree
  | several merger trees => mergeAll merger trees

theorem allows_iff (part : Part grounds α) (list : List α) :
    part.tree.Allows list ↔ Mixture (part.trees.map Allows) list := by
  cases part with
  | one tree => exact mixes_nothing.symm
  | several merger trees => exact allows_mergeAll_iff merger trees list

end Part

/-- A merge of merges comes to the same as one merge of all their inputs. -/
theorem allows_nested_iff (outer flat : Merger grounds α) (parts : List (Part grounds α))
    (list : List α) :
    (mergeAll outer (parts.map Part.tree)).Allows list ↔
      (mergeAll flat (parts.flatMap Part.trees)).Allows list := by
  have groups : (parts.map Part.tree).map Allows =
      (parts.map fun part => part.trees.map Allows).map Mixture := by
    rw [List.map_map, List.map_map]
    exact List.map_congr_left fun part _ => funext fun list => propext (part.allows_iff list)
  have all : (parts.flatMap Part.trees).map Allows =
      (parts.map fun part => part.trees.map Allows).flatten := by
    rw [List.map_flatMap, List.flatMap]
  rw [allows_mergeAll_iff, allows_mergeAll_iff, groups, all, mixture_flatten]

end Tree
end Deferred
