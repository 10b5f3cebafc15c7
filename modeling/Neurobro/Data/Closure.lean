import Mathlib.Data.Finset.Card

/-! The closure of a list of names under edges, computed by passes over the edges until a
pass adds nothing. -/
namespace Neurobro.Closure

open List

variable {α : Type} [DecidableEq α]

/-- The target of an edge joins once its origin is in. -/
def join (ids : List α) (edge : α × α) : List α :=
  if edge.1 ∈ ids ∧ edge.2 ∉ ids then ids ++ [edge.2] else ids

def sweep (edges : List (α × α)) (ids : List α) : List α := edges.foldl join ids

def saturate (edges : List (α × α)) : Nat → List α → List α
  | 0,ids => ids
  | fuel+1,ids =>
    if (sweep edges ids).length = ids.length then ids else saturate edges fuel (sweep edges ids)

/-- One pass for each edge is enough. -/
def closure (edges : List (α × α)) (ids : List α) : List α := saturate edges (edges.length + 1) ids

variable {edges : List (α × α)} {ids : List α}

theorem join_grows (edge : α × α) : ids <+: join ids edge := by
  unfold join
  split
  · exact prefix_append _ _
  · exact prefix_rfl

theorem sweep_grows : ids <+: sweep edges ids := by
  induction edges generalizing ids with
  | nil => exact prefix_rfl
  | cons edge rest ih => exact (join_grows edge).trans ih

/-- A pass that adds nothing has found every edge closed. -/
theorem sweep_still (still : sweep edges ids = ids) : ∀ edge ∈ edges, edge.1 ∈ ids → edge.2 ∈ ids := by
  induction edges with
  | nil => simp
  | cons edge rest ih =>
    -- The first edge added nothing either, since passes only add.
    have first : join ids edge = ids := by
      apply List.IsPrefix.eq_of_length_le
      · have whole : join ids edge <+: sweep (edge :: rest) ids := sweep_grows
        rwa [still] at whole
      · exact (join_grows edge).length_le
    have later : sweep rest ids = ids := by
      have unfolded : sweep (edge :: rest) ids = sweep rest (join ids edge) := rfl
      rwa [unfolded,first] at still
    intro e member inside
    rcases mem_cons.mp member with rfl | member
    · by_contra outside
      have grown := congrArg List.length first
      simp [join,inside,outside] at grown
    · exact ih later e member inside

/-- What is added is the target of an edge. -/
theorem sweep_targets (member : x ∈ sweep edges ids) : x ∈ ids ∨ x ∈ edges.map Prod.snd := by
  induction edges generalizing ids with
  | nil => exact .inl member
  | cons edge rest ih =>
    have member : x ∈ sweep rest (join ids edge) := member
    rcases ih member with inside | target
    · unfold join at inside
      split at inside
      · simp at inside
        rcases inside with inside | rfl
        · exact .inl inside
        · simp
      · exact .inl inside
    · exact .inr (by simp at target ⊢; exact .inr target)

/-- The targets that are still out. -/
def missing (edges : List (α × α)) (ids : List α) : Finset α := (edges.map Prod.snd).toFinset \ ids.toFinset

theorem missing_le : (missing edges ids).card ≤ edges.length := by
  have all := Finset.card_le_card (Finset.sdiff_subset (s := (edges.map Prod.snd).toFinset) (t := ids.toFinset))
  have each := toFinset_card_le (edges.map Prod.snd)
  simp only [length_map] at each
  exact all.trans each

/-- A pass whose members were all there before has added nothing. -/
theorem sweep_known (known : ∀ x ∈ sweep edges ids, x ∈ ids) : sweep edges ids = ids := by
  induction edges generalizing ids with
  | nil => rfl
  | cons edge rest ih =>
    have unfolded : sweep (edge :: rest) ids = sweep rest (join ids edge) := rfl
    rw [unfolded] at known ⊢
    have first : join ids edge = ids := by
      by_cases joins : edge.1 ∈ ids ∧ edge.2 ∉ ids
      · have added : edge.2 ∈ join ids edge := by simp [join,joins]
        exact absurd (known _ (sweep_grows.subset added)) joins.2
      · simp [join,joins]
    rw [first] at known ⊢
    exact ih known

theorem missing_sweep (moved : (sweep edges ids).length ≠ ids.length) :
    (missing edges (sweep edges ids)).card < (missing edges ids).card := by
  obtain ⟨x,new,outside⟩ : ∃ x ∈ sweep edges ids, x ∉ ids := by
    by_contra none
    push Not at none
    exact moved (congrArg List.length (sweep_known none))
  have target := (sweep_targets new).resolve_left outside
  apply Finset.card_lt_card
  constructor
  · apply Finset.sdiff_subset_sdiff (Finset.Subset.refl _)
    intro y member
    simp at member ⊢
    exact sweep_grows.subset member
  · intro all
    have still : x ∈ missing edges ids := by
      simp only [missing,Finset.mem_sdiff,mem_toFinset]
      exact ⟨target,outside⟩
    have gone := all still
    simp only [missing,Finset.mem_sdiff,mem_toFinset] at gone
    exact gone.2 new

theorem saturate_closed (enough : (missing edges ids).card < fuel) :
    ∀ edge ∈ edges, edge.1 ∈ saturate edges fuel ids → edge.2 ∈ saturate edges fuel ids := by
  induction fuel generalizing ids with
  | zero => omega
  | succ fuel ih =>
    unfold saturate
    split
    · have still : sweep edges ids = ids := (sweep_grows.eq_of_length_le (by omega)).symm
      exact sweep_still still
    · apply ih
      have fewer := missing_sweep ‹_›
      omega

/-- The closure contains the target of every edge whose origin it contains. -/
theorem closure_closed : ∀ edge ∈ edges, edge.1 ∈ closure edges ids → edge.2 ∈ closure edges ids := by
  apply saturate_closed
  have bound := @missing_le _ _ edges ids
  omega

theorem subset_saturate : ids ⊆ saturate edges fuel ids := by
  induction fuel generalizing ids with
  | zero => exact List.Subset.refl _
  | succ fuel ih =>
    unfold saturate
    split
    · exact List.Subset.refl _
    · exact fun _ member => ih (sweep_grows.subset member)

theorem subset_closure : ids ⊆ closure edges ids := subset_saturate

theorem sweep_least {P : α → Prop} (begun : ∀ x ∈ ids, P x) (along : ∀ edge ∈ edges, P edge.1 → P edge.2) :
    ∀ x ∈ sweep edges ids, P x := by
  induction edges generalizing ids with
  | nil => exact begun
  | cons edge rest ih =>
    have joined : ∀ x ∈ join ids edge, P x := by
      intro x member
      unfold join at member
      split at member
      · rcases mem_append.mp member with member | member
        · exact begun x member
        · simp only [mem_singleton] at member
          subst member
          exact along edge mem_cons_self (begun _ ‹_ ∧ _›.1)
      · exact begun x member
    exact ih joined fun e member => along e (mem_cons_of_mem _ member)

/-- It holds nothing beyond what the edges lead to. -/
theorem closure_least {P : α → Prop} (begun : ∀ x ∈ ids, P x) (along : ∀ edge ∈ edges, P edge.1 → P edge.2) :
    ∀ x ∈ closure edges ids, P x := by
  unfold closure
  generalize edges.length + 1 = fuel
  induction fuel generalizing ids with
  | zero => exact begun
  | succ fuel ih =>
    unfold saturate
    split
    · exact begun
    · exact ih (sweep_least begun along)

end Neurobro.Closure
