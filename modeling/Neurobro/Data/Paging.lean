import Mathlib.Data.List.Basic

/-! Reading a whole in pages. Each page says where the next one begins, and nothing but
what it says leads on. -/
namespace Neurobro.Paging

open List

variable {τ β π ε σ : Type}

/-- The pages read one after another, each with a budget of its own, until no page is left or
no budget. -/
def follow (read : Option τ → β → Except ε π) (next : π → Option τ) : Option τ → List β → Except ε (List π)
  | _,[] => .ok []
  | position,budget :: rest =>
    match read position budget with
    | .error e => .error e
    | .ok page =>
      match next page with
      | none => .ok [page]
      | some position => (follow read next (some position) rest).map (page :: ·)

/-- Pages that lead from one place to another. -/
inductive Chain (cut : σ → π → σ → Prop) : σ → List π → σ → Prop where
  | nil {s} : Chain cut s [] s
  | cons {s s' s'' page pages} : cut s page s' → Chain cut s' pages s'' → Chain cut s (page :: pages) s''

theorem Chain.imp {cut cut' : σ → π → σ → Prop} (each : ∀ {s page s'}, cut s page s' → cut' s page s')
    (chain : Chain cut s pages s') : Chain cut' s pages s' := by
  induction chain with
  | nil => exact .nil
  | cons cut_ _ ih => exact .cons (each cut_) ih

/-- What one reading does: the page leads on to a place nearer to the end, or it is the last
one. -/
structure Steps (read : Option τ → β → Except ε π) (next : π → Option τ) (place : Option τ → σ → Prop)
    (cut : σ → π → σ → Prop) (left : σ → Nat) (budgeted : β → Prop) (limit : ε) : Prop where
  page : ∀ {position s budget page}, place position s → budgeted budget → read position budget = .ok page → ∃ s', cut s page s' ∧
    ((next page = none ∧ left s' = 0) ∨ ∃ t, next page = some t ∧ place (some t) s' ∧ left s' < left s)
  refused : ∀ {position s budget e}, place position s → budgeted budget → read position budget = .error e → e = limit

section
variable {read : Option τ → β → Except ε π} {next : π → Option τ} {place : Option τ → σ → Prop}
  {cut : σ → π → σ → Prop} {left : σ → Nat} {budgeted : β → Prop} {limit : ε}

/-- The pages hang together. Either the end is reached, or every budget was used and each
page came nearer to it. -/
theorem follow_chain (steps : Steps read next place cut left budgeted limit) {position : Option τ}
 (placed : place position s) (all : ∀ budget ∈ budgets,budgeted budget)
    (followed : follow read next position budgets = .ok pages) :
    ∃ s', Chain cut s pages s' ∧ ((left s' = 0 ∧ (pages.getLast?.bind next) = none ∧ pages ≠ []) ∨
      (pages.length = budgets.length ∧ left s' + pages.length ≤ left s)) := by
  induction budgets generalizing position s pages with
  | nil =>
    obtain rfl := Except.ok.inj followed
    exact ⟨s,.nil,.inr ⟨rfl,Nat.le_refl _⟩⟩
  | cons budget rest ih =>
    simp only [forall_mem_cons] at all
    rw [follow] at followed
    cases answer : read position budget with
    | error e => simp [answer] at followed
    | ok page =>
      simp only [answer] at followed
      obtain ⟨s',cut_,on⟩ := steps.page placed all.1 answer
      rcases on with ⟨last,done⟩ | ⟨t,more,placed',nearer⟩
      · simp only [last,Except.ok.injEq] at followed
        subst followed
        exact ⟨s',.cons cut_ .nil,.inl ⟨done,by simpa using last,by simp⟩⟩
      · simp only [more] at followed
        cases later : follow read next (some t) rest with
        | error e => simp [later,Except.map] at followed
        | ok pages' =>
          simp only [later,Except.map,Except.ok.injEq] at followed
          subst followed
          obtain ⟨s'',chain,ends⟩ := ih placed' all.2 later
          refine ⟨s'',.cons cut_ chain,?_⟩
          rcases ends with ⟨done,last,some_⟩ | ⟨all_,near⟩
          · obtain ⟨first,others,rfl⟩ := exists_cons_of_ne_nil some_
            exact .inl ⟨done,by simpa [List.getLast?_cons_cons] using last,by simp⟩
          · simp only [length_cons]
            exact .inr ⟨by omega,by omega⟩

/-- Nothing but the limit stops the reading. -/
theorem follow_error (steps : Steps read next place cut left budgeted limit) {position : Option τ}
 (placed : place position s) (all : ∀ budget ∈ budgets,budgeted budget)
    (followed : follow read next position budgets = .error e) : e = limit := by
  induction budgets generalizing position s with
  | nil => simp [follow] at followed
  | cons budget rest ih =>
    simp only [forall_mem_cons] at all
    rw [follow] at followed
    cases answer : read position budget with
    | error e' =>
      simp only [answer,Except.error.injEq] at followed
      exact followed ▸ steps.refused placed all.1 answer
    | ok page =>
      simp only [answer] at followed
      obtain ⟨s',_,on⟩ := steps.page placed all.1 answer
      rcases on with ⟨last,_⟩ | ⟨t,more,placed',_⟩
      · simp [last] at followed
      · simp only [more] at followed
        cases later : follow read next (some t) rest with
        | ok pages' => simp [later,Except.map] at followed
        | error e' =>
          simp only [later,Except.map,Except.error.injEq] at followed
          exact ih placed' all.2 (followed ▸ later)

/-- What holds of every page under its budget. -/
theorem follow_each (each : ∀ {position budget page}, read position budget = .ok page → P page budget)
 {position : Option τ} (followed : follow read next position budgets = .ok pages) :
    List.Forall₂ P pages (budgets.take pages.length) := by
  induction budgets generalizing position pages with
  | nil =>
    obtain rfl := Except.ok.inj followed
    exact .nil
  | cons budget rest ih =>
    rw [follow] at followed
    cases answer : read position budget with
    | error e => simp [answer] at followed
    | ok page =>
      simp only [answer] at followed
      cases more : next page with
      | none =>
        simp only [more,Except.ok.injEq] at followed
        subst followed
        exact .cons (each answer) (by simp)
      | some t =>
        simp only [more] at followed
        cases later : follow read next (some t) rest with
        | error e => simp [later,Except.map] at followed
        | ok pages' =>
          simp only [later,Except.map,Except.ok.injEq] at followed
          subst followed
          exact .cons (each answer) (ih later)

/-- With more budgets than there is left to read, the end is reached. -/
theorem follow_ends (steps : Steps read next place cut left budgeted limit) {position : Option τ}
 (placed : place position s) (all : ∀ budget ∈ budgets,budgeted budget)
    (followed : follow read next position budgets = .ok pages) (enough : left s < budgets.length) :
    ∃ s', Chain cut s pages s' ∧ left s' = 0 ∧ (pages.getLast?.bind next) = none := by
  obtain ⟨s',chain,ends⟩ := follow_chain steps placed all followed
  rcases ends with ⟨done,last,_⟩ | ⟨used,near⟩
  · exact ⟨s',chain,done,last⟩
  · omega

end

/-! What pages hold together. -/

/-- Two stretches of a list one after another. -/
theorem stretch_join {α : Type} (xs : List α) {start middle stop : Nat} (first : start ≤ middle) (second : middle ≤ stop) :
    (xs.take middle).drop start ++ (xs.take stop).drop middle = (xs.take stop).drop start := by
  have sum : stop - start = (middle - start) + (stop - middle) := by omega
  have moved : xs.drop middle = (xs.drop start).drop (middle - start) := by
    rw [drop_drop]
    congr 1
    omega
  simp only [drop_take,sum,moved,take_add]

/-- Pages that each hold what lies between two places hold together what lies between the
first place and the last. -/
theorem chain_holds {cut : σ → π → σ → Prop} {α : Type} {held : π → List α} {between : σ → σ → List α} {U : σ → σ → Prop}
    (each : ∀ {s page s'}, cut s page s' → held page = between s s' ∧ U s s')
    (same : ∀ s, between s s = [] ∧ U s s)
    (joins : ∀ {s s' s''}, U s s' → U s' s'' → between s s' ++ between s' s'' = between s s'' ∧ U s s'')
 (chain : Chain cut s pages s') : pages.flatMap held = between s s' ∧ U s s' := by
  induction chain with
  | nil => exact ⟨(same _).1.symm,(same _).2⟩
  | cons cut_ _ ih =>
    obtain ⟨here,near⟩ := each cut_
    obtain ⟨whole,far⟩ := joins near ih.2
    exact ⟨by rw [flatMap_cons,here,ih.1,whole],far⟩

end Neurobro.Paging
