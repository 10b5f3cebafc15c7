/-! Reading a computation that may throw backwards: what it must have passed through to
end as it did. -/
namespace Neurobro

theorem bind_ok {ε α β : Type} {m : Except ε α} {f : α → Except ε β} {b : β} (h : (m >>= f) = .ok b) :
    ∃ a, m = .ok a ∧ f a = .ok b := by
  cases m with
  | error e => contradiction
  | ok a => exact ⟨a,rfl,h⟩

theorem map_ok {ε α β : Type} {m : Except ε α} {f : α → β} {b : β} (h : m.map f = .ok b) :
    ∃ a, m = .ok a ∧ f a = b := by
  cases m with
  | error e => contradiction
  | ok a => exact ⟨a,rfl,Except.ok.inj h⟩

theorem bind_error {ε α β : Type} {m : Except ε α} {f : α → Except ε β} {e : ε} (h : (m >>= f) = .error e) :
    m = .error e ∨ ∃ a, m = .ok a ∧ f a = .error e := by
  cases m with
  | error e' => exact .inl (congrArg _ (Except.error.inj h))
  | ok a => exact .inr ⟨a,rfl,h⟩

theorem map_error {ε α β : Type} {m : Except ε α} {f : α → β} {e : ε} (h : m.map f = .error e) :
    m = .error e := by
  cases m with
  | error e' => exact congrArg _ (Except.error.inj h)
  | ok a => contradiction

theorem bind_eq_ok {ε α β : Type} {m : Except ε α} {f : α → Except ε β} {b : β} :
    (m >>= f) = .ok b ↔ ∃ a, m = .ok a ∧ f a = .ok b :=
  ⟨bind_ok,fun ⟨_,first,rest⟩ => by rw [first]; exact rest⟩

/-- A guard that was passed. -/
theorem guard_eq_ok {ε β : Type} {p : Prop} [Decidable p] {e : ε} {m : Except ε β} {b : β} :
    (if p then .error e else m) = .ok b ↔ ¬p ∧ m = .ok b := by
  by_cases holds : p <;> simp [holds]

theorem forM_ok {ι : Type} {f : ι → Except String Unit} {xs : List ι} (h : xs.forM f = .ok ()) : ∀ x ∈ xs, f x = .ok () := by
  induction xs with
  | nil => exact fun x no => absurd no (by simp)
  | cons y rest ih =>
    have unfolded : (y :: rest).forM f = (f y >>= fun _ => rest.forM f) := rfl
    rw [unfolded] at h
    obtain ⟨_,first,later⟩ := bind_ok h
    intro x member
    rcases List.mem_cons.mp member with rfl | there
    · exact first
    · exact ih later x there

/-- What every turn of a loop that may throw keeps. -/
theorem foldlM_keeps {ε α β : Type} {I : β → Prop} {f : β → α → Except ε β} {xs : List α} {b b' : β}
    (turn : ∀ x ∈ xs, ∀ b b', I b → f b x = .ok b' → I b') (start : I b) (h : xs.foldlM f b = .ok b') : I b' := by
  induction xs generalizing b with
  | nil =>
    cases Except.ok.inj h
    exact start
  | cons x rest ih =>
    rw [List.foldlM_cons] at h
    obtain ⟨b₁,first,later⟩ := bind_ok h
    exact ih (fun y member => turn y (List.mem_cons_of_mem _ member)) (turn x List.mem_cons_self b b₁ start first) later

/-- A transaction that throws leaves the store as it was. -/
def atomically {ε σ α : Type} (s : σ) (r : Except ε (α × σ)) : Except ε α × σ :=
  match r with
  | .ok (a,s') => (.ok a,s')
  | .error e => (.error e,s)

/-- A transaction that went through. -/
theorem atomically_eq_ok {ε σ α : Type} {s : σ} {r : Except ε (α × σ)} {a : α} (h : (atomically s r).1 = .ok a) :
    r = .ok (a,(atomically s r).2) := by
  unfold atomically at *
  split at h
  · rw [Except.ok.inj h]
  · contradiction

/-- The state after a transaction was either made by it or is the one before. -/
theorem atomically_cases {ε σ α : Type} {P : σ → Prop} {s : σ} {r : Except ε (α × σ)} (same : P s)
    (made : ∀ a s', r = .ok (a,s') → P s') : P (atomically s r).2 := by
  unfold atomically
  split
  · exact made _ _ rfl
  · exact same

end Neurobro
