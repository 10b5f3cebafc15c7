/-! Two runs of one machine that differ only in operations an observer is not shown. Where a relation of
states survives the hidden operations on either side and the shown ones on both, the observer is
told the same, until a reply after which nothing is promised. -/
namespace Neurobro

open List

section Unwinding
variable {σ ω ρ : Type} (step : σ → ω → ρ × σ) (shown : ω → Bool)

/-- What the observer is told. -/
def told (s : σ) : List ω → List ρ
  | [] => []
  | op :: rest => if shown op then (step s op).1 :: told (step s op).2 rest else told (step s op).2 rest

/-- The same replies, up to where they stop to be promised. -/
inductive Alike (stops : ρ → ρ → Prop) : List ρ → List ρ → Prop where
  | nil : Alike stops [] []
  | same {reply : ρ} {l l' : List ρ} : Alike stops l l' → Alike stops (reply :: l) (reply :: l')
  | stopped {reply reply' : ρ} {l l' : List ρ} : stops reply reply' → Alike stops (reply :: l) (reply' :: l')

/-- A relation of states that no operation of a kind breaks. -/
structure Unwinds (good : ω → Prop) (stops : ρ → ρ → Prop) (R : σ → σ → Prop) : Prop where
  left : ∀ {s t op}, R s t → good op → shown op = false → R (step s op).2 t
  right : ∀ {s t op}, R s t → good op → shown op = false → R s (step t op).2
  both : ∀ {s t op}, R s t → good op → shown op = true →
    (step s op).1 = (step t op).1 ∧ R (step s op).2 (step t op).2 ∨ stops (step s op).1 (step t op).1

variable {step shown} {good : ω → Prop} {stops : ρ → ρ → Prop} {R : σ → σ → Prop}

theorem told_hidden {rest : List ω} (hidden : shown op = false) :
    told step shown s (op :: rest) = told step shown (step s op).2 rest := by
  simp [told,hidden]

theorem told_shown {rest : List ω} (is_ : shown op = true) :
    told step shown s (op :: rest) = (step s op).1 :: told step shown (step s op).2 rest := by
  simp [told,is_]

/-- Whatever is hidden in either run, the observer is told the same. -/
theorem Unwinds.alike (unwinds : Unwinds step shown good stops R) {one two : List ω} (start : R s t)
    (same : one.filter shown = two.filter shown) (goodOne : ∀ op ∈ one, good op) (goodTwo : ∀ op ∈ two, good op) :
    Alike stops (told step shown s one) (told step shown t two) := by
  induction one generalizing s t two with
  | nil =>
    induction two generalizing t with
    | nil => exact .nil
    | cons op rest ih =>
      have hidden : shown op = false := by
        cases is_ : shown op with
        | false => rfl
        | true =>
          rw [filter_cons_of_pos is_] at same
          contradiction
      rw [told_hidden hidden]
      rw [filter_cons_of_neg (by simp [hidden])] at same
      exact ih (unwinds.right start (goodTwo op mem_cons_self) hidden) same fun op' member => goodTwo op' (mem_cons_of_mem _ member)
  | cons op rest ih =>
    have later : ∀ op' ∈ rest, good op' := fun op' member => goodOne op' (mem_cons_of_mem _ member)
    cases is_ : shown op with
    | false =>
      rw [told_hidden is_]
      rw [filter_cons_of_neg (by simp [is_])] at same
      exact ih (unwinds.left start (goodOne op mem_cons_self) is_) same later goodTwo
    | true =>
      rw [filter_cons_of_pos is_] at same
      rw [told_shown is_]
      -- the other run first does what is hidden, then the same operation
      induction two generalizing t with
      | nil => contradiction
      | cons op' rest' ih' =>
        have later' : ∀ op ∈ rest', good op := fun op member => goodTwo op (mem_cons_of_mem _ member)
        cases is_' : shown op' with
        | false =>
          rw [told_hidden is_']
          rw [filter_cons_of_neg (by simp [is_'])] at same
          exact ih' (unwinds.right start (goodTwo op' mem_cons_self) is_') same later'
        | true =>
          rw [filter_cons_of_pos is_'] at same
          injection same with sameOp sameRest
          subst sameOp
          rw [told_shown is_']
          rcases unwinds.both start (goodOne op mem_cons_self) is_ with ⟨reply,next⟩ | stop
          · rw [reply]
            exact .same (ih next sameRest later later')
          · exact .stopped stop

end Unwinding

end Neurobro
