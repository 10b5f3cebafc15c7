import Neurobro.Coop.Process

/-! Assertions for cooperative processes. Rules say what a fiber may commit and
call in a given core; a process is safe when every node it can reach obeys them
against any interference by other fibers. Safety of each operation's body gives
the rules at every step of every run. -/
namespace Neurobro.Coop

variable {S : Signature}

/-- `taken` names fibers that no new work may get. -/
structure Rules (S : Signature) where
  inv : Core S → Prop
  mayAct : Nat → S.Cmd → Core S → Prop
  mayCall : Nat → S.Call → Core S → Prop
  taken : Nat → Prop := fun _ => False

/-- A change of the core by a named fiber, or by the surroundings. -/
inductive Move (R : Rules S) : Option Nat → Core S → Core S → Prop where
  | act {c : Core S} {i : Nat} {cmd : S.Cmd} :
      R.inv c → R.mayAct i cmd c → Move R (some i) c (c.act i cmd)
  | call {c : Core S} {i : Nat} {q : S.Call} :
      R.inv c → R.mayCall i q c → Move R (some i) c (c.call i q)
  | reply {c : Core S} {i : Nat} (q : S.Call) (r : S.Reply q) :
      R.inv c → Move R (some i) c (c.reply i q r)
  | shock {c : Core S} (x : S.Shock) : R.inv c → Move R none c (c.shock x)

/-- Moves never leave the invariant, and a crash does not either. -/
structure Rules.Sound (R : Rules S) : Prop where
  move : ∀ {who : Option Nat} {c c' : Core S}, Move R who c c' → R.inv c'
  crash : ∀ {c : Core S}, R.inv c → R.inv c.crash

def Others (R : Rules S) (i : Nat) : Core S → Core S → Prop :=
  Relation.ReflTransGen fun c c' => ∃ who, who ≠ some i ∧ Move R who c c'

def Evolves (R : Rules S) : Core S → Core S → Prop :=
  Relation.ReflTransGen fun c c' => ∃ who, Move R who c c'

theorem Others.evolves (h : Others R i c c') : Evolves R c c':= h.lift id fun _ _ ⟨who,_,move⟩ => ⟨who,move⟩

/-- An assertion that no other fiber can break. -/
def Stable (R : Rules S) (i : Nat) (A : Core S → Prop) : Prop :=
  ∀ ⦃who : Option Nat⦄ ⦃c c' : Core S⦄, who ≠ some i → Move R who c c' → A c → A c'

/-- An assertion that nothing short of a crash can break. -/
def Lasting (R : Rules S) (A : Core S → Prop) : Prop :=
  ∀ ⦃who : Option Nat⦄ ⦃c c' : Core S⦄, Move R who c c' → A c → A c'

section relations

variable {R : Rules S} {i : Nat} {A B : Core S → Prop}

theorem Stable.others (stable : Stable R i A) (h : Others R i c c') (a : A c) : A c':= by
  induction h with
  | refl => exact a
  | tail _ last ih =>
    obtain ⟨who,other,move⟩ := last
    exact stable other move ih

theorem Lasting.evolves (lasting : Lasting R A) (h : Evolves R c c') (a : A c) : A c':= by
  induction h with
  | refl => exact a
  | tail _ last ih =>
    obtain ⟨who,move⟩ := last
    exact lasting move ih

theorem Lasting.stable (lasting : Lasting R A) : Stable R i A :=
  fun _ _ _ _ move a => lasting move a

theorem Stable.and (a : Stable R i A) (b : Stable R i B) : Stable R i fun c => A c ∧ B c :=
  fun _ _ _ other move ⟨ha,hb⟩ => ⟨a other move ha,b other move hb⟩

theorem Lasting.and (a : Lasting R A) (b : Lasting R B) : Lasting R fun c => A c ∧ B c :=
  fun _ _ _ move ⟨ha,hb⟩ => ⟨a move ha,b move hb⟩

theorem Lasting.forall {ι : Sort*} {A : ι → Core S → Prop} (a : ∀ x, Lasting R (A x)) :
    Lasting R fun c => ∀ x, A x c := fun _ _ _ move h x => a x move (h x)

theorem Lasting.imp {p : Prop} (a : Lasting R A) : Lasting R fun c => p → A c :=
  fun _ _ _ move h hp => a move (h hp)

theorem Rules.Sound.evolves (sound : R.Sound) (h : Evolves R c c') (inv : R.inv c) : R.inv c':= by
  induction h with
  | refl => exact inv
  | tail _ last _ =>
    obtain ⟨who,move⟩ := last
    exact sound.move move

end relations

/-! ## Safe processes -/

def Safe (R : Rules S) (i : Nat) : Proc S → Core S → Prop
  | .done _, _ => True
  | .look next, c => Safe R i (next c.state) c
  | .act cmd next, c =>
    R.mayAct i cmd c ∧ Safe R i (next (S.exec cmd c.state).1) (c.act i cmd)
  | .wait q next, c =>
    R.mayCall i q c ∧ ∀ c', Others R i (c.call i q) c' → ∀ r, Safe R i (next r) (c'.reply i q r)
  | .pause next, c => ∀ c', Others R i c c' → Safe R i next c'
  | .fork child next, c =>
    (∀ j, ¬R.taken j → Safe R j child c) ∧ ∀ c', Others R i c c' → ∀ j, Safe R i (next j) c'
  | .join _ next, c => ∀ c', Others R i c c' → ∀ r, Safe R i (next r) c'

/-- A contract: from `P`, the computation is safe and hands `Q` to whatever comes
next, in a core that evolved by the rules from where it started. -/
def Triple (R : Rules S) (i : Nat) (P : Core S → Prop) (m : Async S α)
    (Q : Except S.Err α → Core S → Prop) : Prop :=
  ∀ (k : Except S.Err α → Proc S) (c : Core S), R.inv c → P c →
    (∀ r c', R.inv c' → Evolves R c c' → Q r c' → Safe R i (k r) c') → Safe R i (m k) c

/-- A postcondition of the value alone; an error promises nothing. -/
def onOk (Q : α → Core S → Prop) : Except S.Err α → Core S → Prop
  | .ok a,c => Q a c
  | .error _,_ => True

/-- One assertion for a value, another for an error. -/
def onResult (Q : α → Core S → Prop) (E : Core S → Prop) : Except S.Err α → Core S → Prop
  | .ok a => Q a
  | .error _ => E

/-- A computation that keeps the rules whoever runs it and wherever it starts. -/
def Quiet (R : Rules S) (m : Async S α) : Prop :=
  ∀ i, ¬R.taken i → Triple R i (fun _ => True) m fun _ _ => True

/-- A fiber about which the rules say nothing may do anything. -/
theorem Safe.unruled (acts : ∀ j cmd c, ¬R.taken j → R.mayAct j cmd c)
    (calls : ∀ j q c, ¬R.taken j → R.mayCall j q c) (p : Proc S) :
    ∀ (i : Nat) (c : Core S), ¬R.taken i → Safe R i p c := by
  induction p with
  | done r => exact fun _ _ _ => trivial
  | look next ih => exact fun i c free => ih _ i c free
  | act cmd next ih => exact fun i c free => ⟨acts i cmd c free,ih _ i _ free⟩
  | wait q next ih => exact fun i c free => ⟨calls i q c free,fun _ _ r => ih r i _ free⟩
  | pause next ih => exact fun i c free c' _ => ih i c' free
  | fork child next first ih =>
    exact fun i c free => ⟨fun j other => first j c other,fun c' _ j => ih j i c' free⟩
  | join target next ih => exact fun i c free c' _ r => ih r i c' free

/-- Rules that ask more of the fibers they take, and the same of all others. -/
structure Rules.Tightens (R R' : Rules S) : Prop where
  inv : ∀ c, R'.inv c ↔ R.inv c
  acts : ∀ {i cmd c}, R'.mayAct i cmd c → R.mayAct i cmd c
  calls : ∀ {i q c}, R'.mayCall i q c → R.mayCall i q c
  act : ∀ {i cmd c}, ¬R'.taken i → R.mayAct i cmd c → R'.mayAct i cmd c
  call : ∀ {i q c}, ¬R'.taken i → R.mayCall i q c → R'.mayCall i q c
  taken : ∀ i, R.taken i → R'.taken i

namespace Rules.Tightens

variable {R R' : Rules S} (tight : R.Tightens R')

include tight

theorem move (h : Move R' who c c') : Move R who c c' := by
  cases h with
  | act inv may => exact .act ((tight.inv _).mp inv) (tight.acts may)
  | call inv may => exact .call ((tight.inv _).mp inv) (tight.calls may)
  | reply q r inv => exact .reply q r ((tight.inv _).mp inv)
  | shock x inv => exact .shock x ((tight.inv _).mp inv)

theorem others (h : Others R' i c c') : Others R i c c' :=
  h.lift id fun _ _ ⟨who,other,move⟩ => ⟨who,other,tight.move move⟩

theorem sound (sound : R.Sound) : R'.Sound where
  move h := (tight.inv _).mpr (sound.move (tight.move h))
  crash inv := (tight.inv _).mpr (sound.crash ((tight.inv _).mp inv))

theorem lasting (lasting : Lasting R A) : Lasting R' A :=
  fun _ _ _ h a => lasting (tight.move h) a

end Rules.Tightens

/-- A fiber that is not taken is as safe under the tighter rules. -/
theorem Safe.tighten (tight : R.Tightens R') : ∀ {i : Nat} {c : Core S}, ¬R'.taken i → Safe R i p c → Safe R' i p c:= by
  induction p with
  | done r => exact fun _ _ => trivial
  | look next ih => exact fun free safe => ih _ free safe
  | act cmd next ih => exact fun free safe => ⟨tight.act free safe.1,ih _ free safe.2⟩
  | wait q next ih =>
    exact fun free safe => ⟨tight.call free safe.1,fun c' others r => ih r free (safe.2 c' (tight.others others) r)⟩
  | pause next ih => exact fun free safe c' others => ih free (safe c' (tight.others others))
  | fork child next first ih =>
    exact fun free safe => ⟨fun j other => first other (safe.1 j fun mine => other (tight.taken j mine)),
      fun c' others j => ih j free (safe.2 c' (tight.others others) j)⟩
  | join target next ih => exact fun free safe c' others r => ih r free (safe c' (tight.others others) r)

namespace Triple

variable {R : Rules S} {i : Nat} {α β : Type} {P P' : Core S → Prop}
  {Q Q' : Except S.Err α → Core S → Prop} {T : Except S.Err β → Core S → Prop}

theorem weaken (h : Triple R i P m Q) (pre : ∀ c, R.inv c → P' c → P c)
    (post : ∀ r c, R.inv c → Q r c → Q' r c) : Triple R i P' m Q' := by
  intro k c inv p rest
  exact h k c inv (pre c inv p) fun r c' inv' e q => rest r c' inv' e (post r c' inv' q)

theorem pre (h : Triple R i P m Q) (entails : ∀ c, R.inv c → P' c → P c) : Triple R i P' m Q:= h.weaken entails fun _ _ _ q => q

theorem post (h : Triple R i P m Q) (entails : ∀ r c, R.inv c → Q r c → Q' r c) : Triple R i P m Q':= h.weaken (fun _ _ p => p) entails

/-- What outlasts every move outlasts any computation. -/
theorem keep (h : Triple R i P m Q) (lasting : Lasting R A) : Triple R i (fun c => P c ∧ A c) m fun r c => Q r c ∧ A c:= by
  intro k c inv ⟨p,a⟩ rest
  exact h k c inv p fun r c' inv' e q => rest r c' inv' e ⟨q,lasting.evolves e a⟩

theorem keepOk {m : Async S α} {Q : α → Core S → Prop} {A : Core S → Prop} (h : Triple R i P m (onOk Q)) (lasting : Lasting R A) :
    Triple R i (fun c => P c ∧ A c) m (onOk fun a c => Q a c ∧ A c) := by
  refine (h.keep lasting).post fun r c _ held => ?_
  cases r with
  | ok a => exact held
  | error e => trivial

theorem assume {p : Prop} (h : p → Triple R i P m Q) : Triple R i (fun c => p ∧ P c) m Q:= fun k c inv ⟨hp,hP⟩ rest => h hp k c inv hP rest

/-- The core a computation starts in may be named. -/
theorem named (h : ∀ c₀, R.inv c₀ → P c₀ → Triple R i (fun c => c = c₀) m Q) : Triple R i P m Q:= fun k c inv p rest => h c inv p k c inv rfl rest

theorem absurd (no : ∀ c, R.inv c → ¬P c) : Triple R i P m Q :=
  fun _ c inv p _ => (no c inv p).elim

theorem pure (h : ∀ c, R.inv c → P c → Q (.ok a) c) : Triple R i P (Pure.pure a : Async S α) Q:= by
  intro k c inv p rest
  exact rest _ c inv .refl (h c inv p)

theorem bind {m : Async S α} {f : α → Async S β} (first : Triple R i P m Q)
    (next : ∀ a, Triple R i (Q (.ok a)) (f a) T)
    (fails : ∀ e c, R.inv c → Q (.error e) c → T (.error e) c) : Triple R i P (m >>= f) T := by
  intro k c inv p rest
  refine first _ c inv p fun r c' inv' e q => ?_
  cases r with
  | ok a => exact next a k c' inv' q fun r c'' inv'' e' t => rest r c'' inv'' (e.trans e') t
  | error err => exact rest _ c' inv' e (fails err c' inv' q)

/-- Sequencing when nothing is asked of the end. -/
theorem seq (first : Triple R i P m Q)
    (next : ∀ a, Triple R i (Q (.ok a)) (f a) fun _ _ => True) : Triple R i P (m >>= f) fun _ _ => True :=
  .bind first next fun _ _ _ _ => trivial

theorem ite {p : Prop} [Decidable p] (yes : p → Triple R i P m Q)
    (no : ¬p → Triple R i P m' Q) : Triple R i P (if p then m else m') Q := by
  split
  · exact yes ‹_›
  · exact no ‹_›

theorem settle {m : Async S α} {T : Except S.Err (Except S.Err α) → Core S → Prop}
    (h : Triple R i P m fun r c => T (.ok r) c) : Triple R i P (Async.settle m) T :=
  fun k c inv p rest => h (fun r => k (.ok r)) c inv p fun r c' inv' e q => rest (.ok r) c' inv' e q

/-- However it settles, what lasts is still there. -/
theorem settled (h : Triple R i P m fun _ _ => True)
    (lasting : Lasting R A) (given : ∀ c, P c → A c) : Triple R i P (Async.settle m) (onOk fun _ => A) := by
  intro k c inv p rest
  exact h _ c inv p fun r c' inv' e _ => rest (.ok r) c' inv' e (lasting.evolves e (given c p))

theorem look {f : S.State → α} (h : ∀ c, R.inv c → P c → Q (.ok (f c.state)) c) :
    Triple R i P (Async.look f) Q := by
  intro k c inv p rest
  exact rest _ c inv .refl (h c inv p)

theorem check {f : S.State → Except S.Err α} (h : ∀ c, R.inv c → P c → Q (f c.state) c) :
    Triple R i P (Async.check f) Q := by
  intro k c inv p rest
  exact rest _ c inv .refl (h c inv p)

theorem lift {r : Except S.Err α} (h : ∀ c, R.inv c → P c → Q r c) :
    Triple R i P (Async.lift r) Q := by
  intro k c inv p rest
  exact rest _ c inv .refl (h c inv p)

theorem act (sound : R.Sound) {cmd : S.Cmd} {Q : Except S.Err (S.Result cmd) → Core S → Prop}
    (may : ∀ c, R.inv c → P c → R.mayAct i cmd c)
    (h : ∀ c, R.inv c → P c → R.inv (c.act i cmd) →
      Q (.ok (S.exec cmd c.state).1) (c.act i cmd)) : Triple R i P (Async.act cmd) Q := by
  intro k c inv p rest
  have move : Move R (some i) c (c.act i cmd) := .act inv (may c inv p)
  exact ⟨may c inv p,rest _ _ (sound.move move) (.single ⟨_,move⟩) (h c inv p (sound.move move))⟩

theorem call (sound : R.Sound) {q : S.Call} {A : Core S → Prop}
    {Q : Except S.Err (S.Reply q) → Core S → Prop} (stable : Stable R i A)
    (may : ∀ c, R.inv c → P c → R.mayCall i q c) (asked : ∀ c, R.inv c → P c → A (c.call i q))
    (h : ∀ c r, R.inv c → A c → Q (.ok r) (c.reply i q r)) : Triple R i P (Async.call q) Q := by
  intro k c inv p rest
  refine ⟨may c inv p,fun c' others r => ?_⟩
  have first : Move R (some i) c (c.call i q) := .call inv (may c inv p)
  have held := stable.others others (asked c inv p)
  have inv' := sound.evolves others.evolves (sound.move first)
  have last : Move R (some i) c' (c'.reply i q r) := .reply q r inv'
  exact rest _ _ (sound.move last) (.trans (.head ⟨_,first⟩ others.evolves) (.single ⟨_,last⟩))
    (h c' r inv' held)

theorem await (sound : R.Sound) (h : Triple R i P m Q) (stable : ∀ r, Stable R i (Q r)) :
    Triple R i P (Async.await m) Q := by
  intro k c inv p rest
  refine h _ c inv p fun r c' inv' e q c'' others => ?_
  exact rest r c'' (sound.evolves others.evolves inv') (e.trans others.evolves)
    ((stable r).others others q)

theorem awaitOk (sound : R.Sound) {m : Async S α} {Q : α → Core S → Prop} (h : Triple R i P m (onOk Q))
    (stable : ∀ a, Stable R i (Q a)) : Triple R i P (Async.await m) (onOk Q) :=
  .await sound h fun r => by
    cases r with
    | ok a => exact stable a
    | error e => exact fun _ _ _ _ _ _ => trivial

theorem fork (sound : R.Sound)
    {Q : Except S.Err Nat → Core S → Prop} (stable : Stable R i P)
    (child : ∀ j, ¬R.taken j → Triple R j A m fun _ _ => True) (given : ∀ c, R.inv c → P c → A c)
    (h : ∀ j c, R.inv c → P c → Q (.ok j) c) : Triple R i P (Async.fork m) Q := by
  intro k c inv p rest
  refine ⟨fun j free => child j free _ c inv (given c inv p) fun _ _ _ _ _ => trivial,
    fun c' others j => ?_⟩
  exact rest _ c' (sound.evolves others.evolves inv) others.evolves
    (h j c' (sound.evolves others.evolves inv) (stable.others others p))

theorem join (sound : R.Sound) {Q : Except S.Err Unit → Core S → Prop}
    (stable : Stable R i P) (h : ∀ r c, R.inv c → P c → Q r c) : Triple R i P (Async.join p) Q := by
  intro k c inv hp rest c' others r
  exact rest r c' (sound.evolves others.evolves inv) others.evolves
    (h r c' (sound.evolves others.evolves inv) (stable.others others hp))

/-- A loop keeps what its body keeps; it may stop early with an error. -/
theorem each {body : β → Async S Unit}
    {E : S.Err → Core S → Prop}
    (h : ∀ item ∈ items, Triple R i I (body item) fun
      | .ok _ => I
      | .error e => E e) :
    Triple R i I (Async.each items body) fun
      | .ok _ => I
      | .error e => E e := by
  induction items with
  | nil => exact .pure fun _ _ p => p
  | cons item items ih =>
    exact .bind (h item (by simp)) (fun _ => ih fun x member => h x (by simp [member]))
      fun _ _ _ e => e

/-- A loop that ends keeps what its body keeps when it ends. -/
theorem each_keeps {body : β → Async S Unit}
    (h : ∀ item ∈ items, Triple R i I (body item) (onOk fun _ => I)) :
    Triple R i I (Async.each items body) (onOk fun _ => I) := by
  induction items with
  | nil => exact .pure fun _ _ p => p
  | cons item items ih =>
    exact .bind (h item (by simp)) (fun _ => ih fun x member => h x (by simp [member])) fun _ _ _ _ => trivial

/-- What lasts need not be kept by the body. -/
theorem each_lasting {items : List β} {body : β → Async S Unit} {I : Core S → Prop} (lasting : Lasting R I)
    (h : ∀ item ∈ items, Triple R i I (body item) fun _ _ => True) :
    Triple R i I (Async.each items body) fun _ _ => True := by
  refine (each (E := fun _ _ => True) fun item member => ?_).post fun _ _ _ _ => trivial
  refine ((h item member).keep lasting).weaken (fun _ _ a => ⟨a,a⟩) ?_
  rintro (e | _) c _ ⟨_,a⟩
  · trivial
  · exact a

/-- A loop whose body establishes something of its own item, and keeps it of the others:
`I done` says what is known once the items of `done` are through. -/
theorem each_done {body : β → Async S Unit} {I : (β → Prop) → Core S → Prop}
    (h : ∀ item ∈ items, ∀ done, Triple R i (I done) (body item) (onOk fun _ => I fun x => done x ∨ x = item))
    (done : β → Prop) :
    Triple R i (I done) (Async.each items body) (onOk fun _ => I fun x => done x ∨ x ∈ items) := by
  induction items generalizing done with
  | nil => exact .pure fun c _ known => by simpa [onOk] using known
  | cons item items ih =>
    refine .bind (h item (by simp) done) (fun _ => ?_) fun _ _ _ _ => trivial
    have rest := ih (fun x member => h x (by simp [member])) fun x => done x ∨ x = item
    refine rest.post ?_
    rintro (e | _) c _ known
    · trivial
    · simpa [onOk,or_assoc] using known

theorem gather {body : β → Async S α}
    {E : S.Err → Core S → Prop}
    (h : ∀ item ∈ items, Triple R i I (body item) fun
      | .ok _ => I
      | .error e => E e) :
    Triple R i I (Async.gather items body) fun
      | .ok _ => I
      | .error e => E e := by
  induction items with
  | nil => exact .pure fun _ _ p => p
  | cons item items ih =>
    refine .bind (h item (by simp)) (fun first => ?_) fun _ _ _ e => e
    exact .bind (ih fun x member => h x (by simp [member])) (fun others => .pure fun _ _ p => p)
      fun _ _ _ e => e

end Triple

theorem Stable.top : Stable R i fun _ => True := fun _ _ _ _ _ _ => trivial

namespace Quiet

variable {R : Rules S} {α β : Type}

theorem triple (h : Quiet R m) (free : ¬R.taken i) : Triple R i P m fun _ _ => True:= (h i free).pre fun _ _ _ => trivial

/-- A quiet computation keeps what lasts, and nothing is asked of its result. -/
theorem keeps (h : Quiet R m) (free : ¬R.taken i) (lasting : Lasting R A) : Triple R i A m fun _ c => A c:=
  ((h i free).keep lasting).weaken (fun _ _ a => ⟨trivial,a⟩) fun _ _ _ q => q.2

theorem bind {m : Async S α} {f : α → Async S β} (first : Quiet R m) (next : ∀ a, Quiet R (f a)) :
    Quiet R (m >>= f) :=
  fun i free => .bind (first i free) (fun a => next a i free) fun _ _ _ _ => trivial

@[simp] theorem pure (a : α) : Quiet R (Pure.pure a : Async S α) := fun _ _ => .pure fun _ _ _ => trivial

@[simp] theorem look (f : S.State → α) : Quiet R (Async.look f) := fun _ _ => .look fun _ _ _ => trivial

@[simp] theorem check (f : S.State → Except S.Err α) : Quiet R (Async.check f) :=
  fun _ _ => .check fun _ _ _ => trivial

@[simp] theorem lift (r : Except S.Err α) : Quiet R (Async.lift r) := fun _ _ => .lift fun _ _ _ => trivial

theorem settle {m : Async S α} (h : Quiet R m) : Quiet R (Async.settle m) :=
  fun i free => .settle (h i free)

theorem act (sound : R.Sound) {cmd : S.Cmd} (may : ∀ i c, R.inv c → R.mayAct i cmd c) :
    Quiet R (Async.act cmd) := fun i _ => .act sound (fun c inv _ => may i c inv) fun _ _ _ _ => trivial

theorem call (sound : R.Sound) {q : S.Call} (may : ∀ i c, R.inv c → R.mayCall i q c) :
    Quiet R (Async.call q) :=
  fun i _ => .call sound .top (fun c inv _ => may i c inv) (fun _ _ _ => trivial) fun _ _ _ _ => trivial

theorem await (sound : R.Sound) (h : Quiet R m) : Quiet R (Async.await m) :=
  fun i free => .await sound (h i free) fun _ => .top

theorem fork (sound : R.Sound) (h : Quiet R m) : Quiet R (Async.fork m) :=
  fun _ _ => .fork sound .top h (fun _ _ _ => trivial) fun _ _ _ _ => trivial

theorem join (sound : R.Sound) (p : Nat) : Quiet R (Async.join p : Async S Unit) :=
  fun _ _ => .join sound .top fun _ _ _ _ => trivial

theorem ite {p : Prop} [Decidable p] {m m' : Async S α} (yes : Quiet R m) (no : Quiet R m') :
    Quiet R (if p then m else m') := by
  split <;> assumption

theorem each {items : List β} {body : β → Async S Unit} (h : ∀ x ∈ items, Quiet R (body x)) :
    Quiet R (Async.each items body) := by
  intro i free
  refine (Triple.each (E := fun _ _ => True) fun x member => (h x member i free).post ?_).post ?_
  · intro r c _ _; cases r <;> trivial
  · intro _ _ _ _; trivial

theorem gather {items : List β} {body : β → Async S α} (h : ∀ x ∈ items, Quiet R (body x)) :
    Quiet R (Async.gather items body) := by
  intro i free
  refine (Triple.gather (E := fun _ _ => True) fun x member => (h x member i free).post ?_).post ?_
  · intro r c _ _; cases r <;> trivial
  · intro _ _ _ _; trivial

end Quiet

/-- A whole operation that meets a contract is safe. -/
theorem Triple.safe
 (h : Triple R i P m Q) (inv : R.inv c) (p : P c) :
    Safe R i (m .done) c := h .done c inv p fun _ _ _ _ _ => trivial

-- contracts are used through their rules from here on
attribute [irreducible] Triple

end Neurobro.Coop
