import Neurobro.Data.Results

/-! Synchronous programs over durable state. Every durable step may be carried out, be
refused, be taken back or be the one the process dies at; a program's meaning is given
by the fates of its durable steps, in order. -/
namespace Neurobro.Durable

/-- How one durable step goes. A step is `undone` when its transaction is rolled back at
the end, so that what it did outside the transaction stays. -/
inductive Fate where
  | done
  | failed
  | undone
  | crashed
  deriving DecidableEq

inductive Outcome (α : Type) where
  | value (a : α)
  | threw (e : String)
  | crashed
  deriving DecidableEq

/-- Where the fates run out every further step is done. -/
def Script (σ α : Type) := List Fate → σ → Outcome α × List Fate × σ

namespace Script

variable {σ τ α β ι : Type}

protected def pure (a : α) : Script σ α := fun fates s => (.value a,fates,s)

protected def bind (m : Script σ α) (k : α → Script σ β) : Script σ β := fun fates s =>
  match m fates s with
  | (.value a,fates',s') => k a fates' s'
  | (.threw e,fates',s') => (.threw e,fates',s')
  | (.crashed,fates',s') => (.crashed,fates',s')

instance : Monad (Script σ) where
  pure := Script.pure
  bind := Script.bind

private theorem script_map (m : Script σ α) : id <$> m = m := by
  funext fates s
  simp only [Functor.map,Script.bind]
  rcases m fates s with ⟨_ | _ | _,_,_⟩ <;> rfl

private theorem script_assoc (m : Script σ α) (k : α → Script σ β) (l : β → Script σ τ) :
    m >>= k >>= l = m >>= fun a => k a >>= l := by
  funext fates s
  simp only [Bind.bind,Script.bind]
  rcases m fates s with ⟨_ | _ | _,_,_⟩ <;> rfl

instance : LawfulMonad (Script σ) :=
  LawfulMonad.mk' (Script σ) script_map (fun _ _ => rfl) script_assoc

def throw (e : String) : Script σ α := fun fates s => (.threw e,fates,s)

/-- A reading of the state. -/
def look (f : σ → α) : Script σ α := fun fates s => (.value (f s),fates,s)

/-- A change that is not durable and cannot fail. -/
def note (f : σ → σ) : Script σ Unit := fun fates s => (.value (),fates,f s)

def lift : Except String α → Script σ α
  | .ok a => Script.pure a
  | .error e => throw e

def guard (p : Prop) [Decidable p] (e : String) : Script σ Unit := if p then throw e else Script.pure ()

def when (p : Prop) [Decidable p] (m : Script σ Unit) : Script σ Unit := if p then m else Script.pure ()

/-- One durable step, its failure given back as a value. `residue` is what stays of the
state it was taken from and the one it would have made, when it is undone. -/
def attempt (residue : σ → σ → σ) (f : σ → Except String (α × σ)) : Script σ (Except String α) := fun fates s =>
  match fates.headD .done,f s with
  | .crashed,_ => (.crashed,fates.tail,s)
  | .failed,_ => (.value (.error "disk failure"),fates.tail,s)
  | .done,.ok (a,s') => (.value (.ok a),fates.tail,s')
  | .undone,.ok (_,s') => (.value (.error "disk failure"),fates.tail,residue s s')
  | _,.error e => (.value (.error e),fates.tail,s)

/-- One durable step that throws when it fails. -/
def step (residue : σ → σ → σ) (f : σ → Except String (α × σ)) : Script σ α :=
  attempt residue f >>= lift

/-- A statement of its own: nothing stays of it when it fails. -/
def write (f : σ → Except String (α × σ)) : Script σ α := step (fun s _ => s) f

/-- A step outside every transaction: what it did may stay though it failed. -/
def lasting (f : σ → Except String (Unit × σ)) : Script σ Unit := step (fun _ made => made) f

/-- Nothing of it stays, but it may fail. -/
def fallible : Script σ Unit := lasting fun s => .ok ((),s)

/-- An exception is handed over, a crash is not. -/
def rescue (m : Script σ α) (handler : String → Script σ α) : Script σ α := fun fates s =>
  match m fates s with
  | (.value a,fates',s') => (.value a,fates',s')
  | (.threw e,fates',s') => handler e fates' s'
  | (.crashed,fates',s') => (.crashed,fates',s')

/-- A program over a part of the state. -/
def zoom (get : σ → τ) (set : τ → σ → σ) (m : Script τ α) : Script σ α := fun fates s =>
  ((m fates (get s)).1,(m fates (get s)).2.1,set (m fates (get s)).2.2 s)

def each (body : ι → Script σ Unit) : List ι → Script σ Unit
  | [] => Script.pure ()
  | x :: rest => body x >>= fun _ => each body rest

def fold (body : β → ι → Script σ β) : β → List ι → Script σ β
  | b,[] => Script.pure b
  | b,x :: rest => body b x >>= fun b' => fold body b' rest

end Script

open Script

variable {σ τ α β ι κ : Type} {P P' : σ → Prop} {C C' : σ → Prop}

/-- What a script ended with is in order: its value, or the state an exception or a crash
left behind. -/
def Ends (Q : α → σ → Prop) (C : σ → Prop) : Outcome α → σ → Prop
  | .value a,s => Q a s
  | .threw _,s => C s
  | .crashed,s => C s

/-- Started where `P` holds, a script ends with `Q`, or breaks off with `C`, however its
durable steps go. -/
def Meets (P : σ → Prop) (m : Script σ α) (Q : α → σ → Prop) (C : σ → Prop) : Prop :=
  ∀ fates s, P s → Ends Q C (m fates s).1 (m fates s).2.2

namespace Meets

theorem weaken (h : Meets P m Q C) (pre : ∀ s, P' s → P s)
    (post : ∀ a s, Q a s → Q' a s) (broken : ∀ s, C s → C' s) : Meets P' m Q' C' := by
  intro fates s holds
  have ended := h fates s (pre s holds)
  cases outcome : (m fates s).1 <;> rw [outcome] at ended
  · exact post _ _ ended
  · exact broken _ ended
  · exact broken _ ended

theorem pre (h : Meets P m Q C) (weaker : ∀ s, P' s → P s) : Meets P' m Q C :=
  h.weaken weaker (fun _ _ q => q) fun _ c => c

theorem post (h : Meets P m Q C) (weaker : ∀ a s, Q a s → Q' a s) : Meets P m Q' C:=
  h.weaken (fun _ p => p) weaker fun _ c => c

/-- A fact about the state before is assumed. -/
theorem assume {F : Prop} (known : ∀ s, P s → F) (h : F → Meets P m Q C) : Meets P m Q C:= fun fates s holds => h (known s holds) fates s holds

/-- Two accounts of one script. -/
theorem both (h : Meets P m Q C) (h' : Meets P' m Q' C') :
    Meets (fun s => P s ∧ P' s) m (fun a s => Q a s ∧ Q' a s) fun s => C s ∧ C' s := by
  intro fates s holds
  have ended := h fates s holds.1
  have ended' := h' fates s holds.2
  cases outcome : (m fates s).1 <;> rw [outcome] at ended ended' <;> exact ⟨ended,ended'⟩

/-- The state before is given a name. -/
theorem named (h : ∀ s₀, P s₀ → Meets (fun s => s = s₀) m Q C) : Meets P m Q C :=
  fun fates s holds => h s holds fates s rfl

theorem pure (h : ∀ s, P s → Q a s) : Meets P (Pure.pure a) Q C := fun _ s holds => h s holds

theorem throw (h : ∀ s, P s → C s) : Meets P (Script.throw e) Q C :=
  fun _ s holds => h s holds

theorem bind {m : Script σ α} {k : α → Script σ β} {M : α → σ → Prop} {Q : β → σ → Prop} (first : Meets P m M C)
    (next : ∀ a, Meets (M a) (k a) Q C) : Meets P (m >>= k) Q C := by
  intro fates s holds
  have ended := first fates s holds
  obtain ⟨outcome,fates',s',ran⟩ : ∃ outcome fates' s', m fates s = (outcome,fates',s') := ⟨_,_,_,rfl⟩
  rw [ran] at ended
  have unfolded : (m >>= k) fates s = Script.bind m k fates s := rfl
  cases outcome with
  | value a =>
    have goes : (m >>= k) fates s = k a fates' s' := by rw [unfolded,Script.bind,ran]
    rw [goes]
    exact next a fates' s' ended
  | threw e =>
    have goes : (m >>= k) fates s = (.threw e,fates',s') := by rw [unfolded,Script.bind,ran]
    rw [goes]
    exact ended
  | crashed =>
    have goes : (m >>= k) fates s = (.crashed,fates',s') := by rw [unfolded,Script.bind,ran]
    rw [goes]
    exact ended

theorem look {f : σ → α} {Q : α → σ → Prop} (h : ∀ s, P s → Q (f s) s) : Meets P (Script.look f) Q C :=
  fun _ s holds => h s holds

theorem note (h : ∀ s, P s → Q () (f s)) : Meets P (Script.note f) Q C :=
  fun _ s holds => h s holds

theorem lift {r : Except String α} {Q : α → σ → Prop} (h : ∀ s a, P s → r = .ok a → Q a s) (broken : ∀ s, P s → C s) :
    Meets P (Script.lift r) Q C := by
  intro fates s holds
  cases r with
  | ok a => exact h s a holds rfl
  | error e => exact broken s holds

theorem guard {p : Prop} [Decidable p] (h : ∀ s, P s → ¬p → Q () s)
    (broken : ∀ s, P s → C s) : Meets P (Script.guard p e) Q C := by
  intro fates s holds
  by_cases caught : p
  · simp only [Script.guard,if_pos caught]
    exact broken s holds
  · simp only [Script.guard,if_neg caught]
    exact h s holds caught

theorem ite {p : Prop} [Decidable p] {m m' : Script σ α} {Q : α → σ → Prop} (yes : p → Meets P m Q C)
    (no : ¬p → Meets P m' Q C) : Meets P (if p then m else m') Q C := by
  by_cases h : p
  · simp only [if_pos h]; exact yes h
  · simp only [if_neg h]; exact no h

theorem when {p : Prop} [Decidable p] (yes : p → Meets P m Q C)
    (no : ¬p → ∀ s, P s → Q () s) : Meets P (Script.when p m) Q C := by
  by_cases h : p
  · simp only [Script.when,if_pos h]; exact yes h
  · simp only [Script.when,if_neg h]; exact fun _ s holds => no h s holds

/-- The rule of the durable step: made, undone or refused. -/
theorem attempt {f : σ → Except String (α × σ)}
    (broken : ∀ s, P s → C s) (made : ∀ s a s', P s → f s = .ok (a,s') → Q (.ok a) s')
    (undone : ∀ s a s' e, P s → f s = .ok (a,s') → Q (.error e) (residue s s'))
    (refused : ∀ s e, P s → Q (.error e) s) : Meets P (Script.attempt residue f) Q C := by
  intro fates s holds
  unfold Script.attempt
  split
  · exact broken s holds
  · exact refused s _ holds
  · exact made s _ _ holds ‹_›
  · exact undone s _ _ _ holds ‹_›
  · exact refused s _ holds

theorem step {residue : σ → σ → σ} {f : σ → Except String (α × σ)} {Q : α → σ → Prop} (broken : ∀ s, P s → C s)
    (made : ∀ s a s', P s → f s = .ok (a,s') → Q a s') (undone : ∀ s a s', P s → f s = .ok (a,s') → C (residue s s')) :
    Meets P (Script.step residue f) Q C := by
  let M : Except String α → σ → Prop := fun r s => (∀ a, r = .ok a → Q a s) ∧ ((∃ e, r = .error e) → C s)
  refine .bind (M := M) (.attempt broken (fun s a s' holds ran => ?_) (fun s a s' e holds ran => ?_) fun s e holds => ?_)
    fun r => ?_
  · constructor
    · intro a' same
      cases Except.ok.inj same
      exact made s a s' holds ran
    · rintro ⟨e,no⟩
      contradiction
  · exact ⟨fun _ no => by contradiction,fun _ => undone s a s' holds ran⟩
  · exact ⟨fun _ no => by contradiction,fun _ => broken s holds⟩
  · cases r with
    | ok a => exact fun _ s held => held.1 a rfl
    | error e => exact fun _ s held => held.2 ⟨e,rfl⟩

theorem write {f : σ → Except String (α × σ)} (broken : ∀ s, P s → C s)
    (made : ∀ s a s', P s → f s = .ok (a,s') → Q a s') : Meets P (Script.write f) Q C :=
  .step broken made fun s _ _ holds _ => broken s holds

theorem lasting (broken : ∀ s, P s → C s)
    (made : ∀ s s', P s → f s = .ok ((),s') → Q s') (stays : ∀ s, Q s → C s) : Meets P (Script.lasting f) (fun _ => Q) C :=
  .step broken (fun s _ s' holds ran => made s s' holds ran) fun s _ s' holds ran => stays s' (made s s' holds ran)

theorem fallible (broken : ∀ s, P s → C s) : Meets P Script.fallible (fun _ => P) C := by
  refine .lasting broken (fun s s' holds ran => ?_) broken
  cases ran
  exact holds

theorem rescue {handler : String → Script σ α} (first : Meets P m Q C)
    (next : ∀ e, Meets C (handler e) Q C) : Meets P (Script.rescue m handler) Q C := by
  intro fates s holds
  have ended := first fates s holds
  unfold Script.rescue
  obtain ⟨outcome,fates',s',ran⟩ : ∃ outcome fates' s', m fates s = (outcome,fates',s') := ⟨_,_,_,rfl⟩
  rw [ran] at ended
  rw [ran]
  cases outcome with
  | value a => exact ended
  | threw e => exact next e fates' s' ended
  | crashed => exact ended

/-- What a program does to its part, put back into the whole. -/
theorem zoom {get : σ → τ} {set : τ → σ → σ}
    (part : ∀ s₀, P s₀ → Meets (fun t => t = get s₀) m (fun a t => Q a (set t s₀)) fun t => C (set t s₀)) :
    Meets P (Script.zoom get set m) Q C := by
  intro fates s holds
  have ended := part s holds fates (get s) rfl
  unfold Script.zoom
  cases outcome : (m fates (get s)).1 <;> rw [outcome] at ended <;> exact ended

/-- A loop keeps what holds of the items still to come. -/
theorem each {body : ι → Script σ Unit} {I : List ι → σ → Prop} (xs : List ι)
    (turn : ∀ x rest, x ∈ xs → Meets (I (x :: rest)) (body x) (fun _ => I rest) C) :
    Meets (I xs) (Script.each body xs) (fun _ => I []) C := by
  induction xs with
  | nil => exact .pure fun _ h => h
  | cons x rest ih =>
    apply Meets.bind (turn x rest List.mem_cons_self)
    intro _
    exact ih fun y later member => turn y later (List.mem_cons_of_mem _ member)

theorem fold {body : β → ι → Script σ β} {I : List ι → β → σ → Prop} (xs : List ι) (b : β)
    (turn : ∀ b x rest, x ∈ xs → Meets (I (x :: rest) b) (body b x) (fun b' => I rest b') C) :
    Meets (I xs b) (Script.fold body b xs) (fun b' => I [] b') C := by
  induction xs generalizing b with
  | nil => exact .pure fun _ h => h
  | cons x rest ih =>
    apply Meets.bind (turn b x rest List.mem_cons_self)
    intro b'
    exact ih b' fun b y later member => turn b y later (List.mem_cons_of_mem _ member)

end Meets

/-! The same with exceptions and crashes told apart. -/

def EndsIn (Q : α → σ → Prop) (T D : σ → Prop) : Outcome α → σ → Prop
  | .value a,s => Q a s
  | .threw _,s => T s
  | .crashed,s => D s

/-- Started where `P` holds, a script ends with `Q`, throws with `T` or dies with `D`. -/
def Runs (P : σ → Prop) (m : Script σ α) (Q : α → σ → Prop) (T D : σ → Prop) : Prop :=
  ∀ fates s, P s → EndsIn Q T D (m fates s).1 (m fates s).2.2

theorem Meets.runs (h : Meets P m Q C) : Runs P m Q C C := by
  intro fates s holds
  have ended := h fates s holds
  cases outcome : (m fates s).1 <;> rw [outcome] at ended <;> exact ended

namespace Runs

variable {T T' D D' : σ → Prop}

theorem meets (h : Runs P m Q C C) : Meets P m Q C := by
  intro fates s holds
  have ended := h fates s holds
  cases outcome : (m fates s).1 <;> rw [outcome] at ended <;> exact ended

theorem weaken (h : Runs P m Q T D) (pre : ∀ s, P' s → P s)
    (post : ∀ a s, Q a s → Q' a s) (threw : ∀ s, T s → T' s) (died : ∀ s, D s → D' s) : Runs P' m Q' T' D' := by
  intro fates s holds
  have ended := h fates s (pre s holds)
  cases outcome : (m fates s).1 <;> rw [outcome] at ended
  · exact post _ _ ended
  · exact threw _ ended
  · exact died _ ended

theorem assume {F : Prop} (known : ∀ s, P s → F) (h : F → Runs P m Q T D) : Runs P m Q T D:= fun fates s holds => h (known s holds) fates s holds

theorem pure (h : ∀ s, P s → Q a s) : Runs P (Pure.pure a) Q T D := fun _ s holds => h s holds

theorem throw (h : ∀ s, P s → T s) : Runs P (Script.throw e) Q T D :=
  fun _ s holds => h s holds

theorem look {f : σ → α} {Q : α → σ → Prop} (h : ∀ s, P s → Q (f s) s) : Runs P (Script.look f) Q T D :=
  fun _ s holds => h s holds

theorem note (h : ∀ s, P s → Q () (f s)) : Runs P (Script.note f) Q T D :=
  fun _ s holds => h s holds

theorem bind {m : Script σ α} {k : α → Script σ β} {M : α → σ → Prop} {Q : β → σ → Prop} (first : Runs P m M T D)
    (next : ∀ a, Runs (M a) (k a) Q T D) : Runs P (m >>= k) Q T D := by
  intro fates s holds
  have ended := first fates s holds
  obtain ⟨outcome,fates',s',ran⟩ : ∃ outcome fates' s', m fates s = (outcome,fates',s') := ⟨_,_,_,rfl⟩
  rw [ran] at ended
  have unfolded : (m >>= k) fates s = Script.bind m k fates s := rfl
  cases outcome with
  | value a =>
    have goes : (m >>= k) fates s = k a fates' s' := by rw [unfolded,Script.bind,ran]
    rw [goes]
    exact next a fates' s' ended
  | threw e =>
    have goes : (m >>= k) fates s = (.threw e,fates',s') := by rw [unfolded,Script.bind,ran]
    rw [goes]
    exact ended
  | crashed =>
    have goes : (m >>= k) fates s = (.crashed,fates',s') := by rw [unfolded,Script.bind,ran]
    rw [goes]
    exact ended

theorem lift {r : Except String α} {Q : α → σ → Prop} (h : ∀ s a, P s → r = .ok a → Q a s) (broken : ∀ s, P s → T s) :
    Runs P (Script.lift r) Q T D := by
  intro fates s holds
  cases r with
  | ok a => exact h s a holds rfl
  | error e => exact broken s holds

theorem guard {p : Prop} [Decidable p] (h : ∀ s, P s → ¬p → Q () s)
    (broken : ∀ s, P s → p → T s) : Runs P (Script.guard p e) Q T D := by
  intro fates s holds
  by_cases caught : p
  · simp only [Script.guard,if_pos caught]
    exact broken s holds caught
  · simp only [Script.guard,if_neg caught]
    exact h s holds caught

theorem ite {p : Prop} [Decidable p] {m m' : Script σ α} {Q : α → σ → Prop} (yes : p → Runs P m Q T D)
    (no : ¬p → Runs P m' Q T D) : Runs P (if p then m else m') Q T D := by
  by_cases h : p
  · simp only [if_pos h]; exact yes h
  · simp only [if_neg h]; exact no h

/-- An exception is dealt with by the handler; a crash goes through. -/
theorem rescue {handler : String → Script σ α} (first : Runs P m Q B D)
    (next : ∀ e, Runs B (handler e) Q T D) : Runs P (Script.rescue m handler) Q T D := by
  intro fates s holds
  have ended := first fates s holds
  unfold Script.rescue
  obtain ⟨outcome,fates',s',ran⟩ : ∃ outcome fates' s', m fates s = (outcome,fates',s') := ⟨_,_,_,rfl⟩
  rw [ran] at ended
  rw [ran]
  cases outcome with
  | value a => exact ended
  | threw e => exact next e fates' s' ended
  | crashed => exact ended

end Runs

/-- One call after another, each with the fates of its steps. A crash leaves what `fell`
makes of the state. -/
def stepOf (perform : κ → Script σ α) (fell : σ → σ) (s : σ) (event : κ × List Fate) : Outcome α × σ :=
  match perform event.1 event.2 s with
  | (.crashed,_,s') => (.crashed,fell s')
  | (outcome,_,s') => (outcome,s')

def play (perform : κ → Script σ α) (fell : σ → σ) (s : σ) : List (κ × List Fate) → σ
  | [] => s
  | event :: rest => play perform fell (stepOf perform fell s event).2 rest

section Runs
variable {perform : κ → Script σ α} {fell : σ → σ} {I : σ → Prop}

theorem play_append (s : σ) (first second : List (κ × List Fate)) :
    play perform fell s (first ++ second) = play perform fell (play perform fell s first) second := by
  induction first generalizing s with
  | nil => rfl
  | cons event rest ih => exact ih _

/-- What one call of a run ended with. -/
theorem stepOf_ends {event : κ × List Fate} (holds : P s)
    (meets : Meets P (perform event.1) Q C) (falls : ∀ s, C s → C (fell s)) :
    Ends Q C (stepOf perform fell s event).1 (stepOf perform fell s event).2 := by
  have ended := meets event.2 s holds
  obtain ⟨outcome,fates',s',ran⟩ : ∃ outcome fates' s', perform event.1 event.2 s = (outcome,fates',s') := ⟨_,_,_,rfl⟩
  rw [ran] at ended
  unfold stepOf
  rw [ran]
  cases outcome with
  | value a => exact ended
  | threw e => exact ended
  | crashed => exact falls s' ended

/-- An invariant of every call and of every crash is one of every run. -/
theorem play_keeps (call : ∀ k, Meets I (perform k) (fun _ => I) I) (falls : ∀ s, I s → I (fell s)) (events : List (κ × List Fate))
 (begun : I s) : I (play perform fell s events) := by
  induction events generalizing s with
  | nil => exact begun
  | cons event rest ih =>
    apply ih
    have ended := stepOf_ends begun (call event.1) falls
    cases outcome : (stepOf perform fell s event).1 <;> rw [outcome] at ended <;> exact ended

/-- An invariant of every call, of every exception and of what a crash leaves is one of
every run. -/
theorem play_runs (call : ∀ k s, I s → Runs (fun s' => s' = s) (perform k) (fun _ => I) I D)
    (falls : ∀ s, D s → I (fell s)) (events : List (κ × List Fate)) (begun : I s) : I (play perform fell s events) := by
  induction events generalizing s with
  | nil => exact begun
  | cons event rest ih =>
    apply ih
    have ended := call event.1 s begun event.2 s rfl
    obtain ⟨outcome,fates',s',ran⟩ : ∃ outcome fates' s', perform event.1 event.2 s = (outcome,fates',s') := ⟨_,_,_,rfl⟩
    rw [ran] at ended
    unfold stepOf
    rw [ran]
    cases outcome with
    | value a => exact ended
    | threw e => exact ended
    | crashed => exact falls s' ended

end Runs

end Neurobro.Durable
