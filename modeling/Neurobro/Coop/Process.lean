import Mathlib.Logic.Relation
import Mathlib.Data.List.Basic

/-! Cooperative processes over a shared state. A process runs without interruption
between two suspension points; every command is one durable commit, so a crash may
fall between any two of them. Calls leave the system and their replies are chosen
by the environment, in any order. Nothing here fixes what the state is. -/
namespace Neurobro.Coop

/-- The vocabulary of a family of processes: commands change the state, calls are
answered from outside, shocks are changes of the surroundings, and `restart` is
what a crash leaves of the state. -/
structure Signature where
  State : Type
  Err : Type
  Cmd : Type
  Result : Cmd → Type
  exec : (cmd : Cmd) → State → Result cmd × State
  Call : Type
  Reply : Call → Type
  Shock : Type
  shock : Shock → State → State
  restart : State → State

/-- A suspended or running computation. `pause` gives up the turn and resumes
without outside help; `join` waits for another fiber to finish. -/
inductive Proc (S : Signature) : Type where
  | done (result : Except S.Err Unit)
  | look (next : S.State → Proc S)
  | act (cmd : S.Cmd) (next : S.Result cmd → Proc S)
  | wait (call : S.Call) (next : S.Reply call → Proc S)
  | pause (next : Proc S)
  | fork (child : Proc S) (next : Nat → Proc S)
  | join (fiber : Nat) (next : Except S.Err Unit → Proc S)

inductive Event (S : Signature) : Type where
  | act (fiber : Nat) (cmd : S.Cmd) (result : S.Result cmd)
  | call (fiber : Nat) (call : S.Call)
  | reply (fiber : Nat) (call : S.Call) (value : S.Reply call)
  | shock (change : S.Shock)
  | crash

/-- The state with its history, newest event first. -/
structure Core (S : Signature) where
  state : S.State
  trace : List (Event S)

namespace Core

variable {S : Signature}

def act (c : Core S) (fiber : Nat) (cmd : S.Cmd) : Core S :=
  ⟨(S.exec cmd c.state).2,.act fiber cmd (S.exec cmd c.state).1 :: c.trace⟩

def call (c : Core S) (fiber : Nat) (call : S.Call) : Core S :=
  ⟨c.state,.call fiber call :: c.trace⟩

def reply (c : Core S) (fiber : Nat) (call : S.Call) (value : S.Reply call) : Core S :=
  ⟨c.state,.reply fiber call value :: c.trace⟩

def shock (c : Core S) (change : S.Shock) : Core S :=
  ⟨S.shock change c.state,.shock change :: c.trace⟩

def crash (c : Core S) : Core S := ⟨S.restart c.state,.crash :: c.trace⟩

end Core

/-! ## Writing processes -/

/-- A computation in continuation style: what to do next with a value or an error. -/
def Async (S : Signature) (α : Type) : Type := (Except S.Err α → Proc S) → Proc S

namespace Async

variable {S : Signature} {α β : Type}

instance : Monad (Async S) where
  pure a := fun k => k (.ok a)
  bind m f := fun k => m fun
    | .ok a => f a k
    | .error e => k (.error e)

def look (f : S.State → α) : Async S α := fun k => .look fun s => k (.ok (f s))

def lift (r : Except S.Err α) : Async S α := fun k => k r

/-- A synchronous reading that may refuse. -/
def check (f : S.State → Except S.Err α) : Async S α := fun k => .look fun s => k (f s)

def act (cmd : S.Cmd) : Async S (S.Result cmd) := fun k => .act cmd fun r => k (.ok r)

def call (q : S.Call) : Async S (S.Reply q) := fun k => .wait q fun r => k (.ok r)

/-- Awaiting a computation of one's own costs a turn after it has settled. -/
def await (m : Async S α) : Async S α := fun k => m fun r => .pause (k r)

def fork (m : Async S Unit) : Async S Nat := fun k => .fork (m .done) fun fiber => k (.ok fiber)

def join (fiber : Nat) : Async S Unit := fun k => .join fiber k

/-- Settle either way: the error becomes a value. -/
def settle (m : Async S α) : Async S (Except S.Err α) := fun k => m fun r => k (.ok r)

def each (items : List β) (body : β → Async S Unit) : Async S Unit :=
  match items with
  | [] => pure ()
  | item :: rest => do
    body item
    each rest body

def gather (items : List β) (body : β → Async S α) : Async S (List α) :=
  match items with
  | [] => pure []
  | item :: rest => do
    let first ← body item
    let others ← gather rest body
    pure (first :: others)

end Async

/-! ## Worlds -/

inductive Blocked (S : Signature) : Type where
  | call (call : S.Call) (next : S.Reply call → Proc S)
  | pause (next : Proc S)
  | join (fiber : Nat) (next : Except S.Err Unit → Proc S)

/-- The stack is the segment being run: a forked child runs before its parent
goes on. Every other live fiber is parked. -/
structure World (S : Signature) where
  core : Core S
  stack : List (Nat × Proc S)
  parked : List (Nat × Blocked S)
  finished : List (Nat × Except S.Err Unit)
  next : Nat

inductive Choice (S : Signature) (Op : Type) : Type where
  | run
  | invoke (op : Op)
  | resume (fiber : Nat) (answer : (call : S.Call) → Option (S.Reply call))
  | wake (fiber : Nat)
  | shock (change : S.Shock)
  | crash

namespace World

variable {S : Signature} {Op : Type}

def initial (state : S.State) : World S := ⟨⟨state,[]⟩,[],[],[],0⟩

def find (fiber : Nat) : List (Nat × α) → Option α
  | [] => none
  | (i,a) :: rest => if i = fiber then some a else find fiber rest

def remove (fiber : Nat) (parked : List (Nat × α)) : List (Nat × α) :=
  parked.filter fun p => p.1 != fiber

/-- A computation begins on a fiber of its own. -/
def begin (w : World S) (p : Proc S) : World S := { w with stack := [(w.next,p)], next := w.next + 1 }

/-- One node of the running segment. -/
def advance (w : World S) : Option (World S) :=
  match w.stack with
  | [] => none
  | (i,.done r) :: rest => some { w with stack := rest, finished := (i,r) :: w.finished }
  | (i,.look next) :: rest => some { w with stack := (i,next w.core.state) :: rest }
  | (i,.act cmd next) :: rest =>
    some { w with core := w.core.act i cmd, stack := (i,next (S.exec cmd w.core.state).1) :: rest }
  | (i,.wait q next) :: rest =>
    some { w with core := w.core.call i q, stack := rest, parked := w.parked ++ [(i,.call q next)] }
  | (i,.pause next) :: rest =>
    some { w with stack := rest, parked := w.parked ++ [(i,.pause next)] }
  | (i,.fork child next) :: rest =>
    some { w with stack := (w.next,child) :: (i,next w.next) :: rest, next := w.next + 1 }
  | (i,.join p next) :: rest =>
    some { w with stack := rest, parked := w.parked ++ [(i,.join p next)] }

/-- Nothing is scheduled while a segment runs; a crash may fall anywhere. -/
def step (body : Op → Proc S) (choice : Choice S Op) (w : World S) : Option (World S) :=
  match choice with
  | .run => w.advance
  | .crash => some { w with core := w.core.crash, stack := [], parked := [], finished := [] }
  | .invoke op =>
    if w.stack.isEmpty then some { w with stack := [(w.next,body op)], next := w.next + 1 } else none
  | .shock change =>
    if w.stack.isEmpty then some { w with core := w.core.shock change } else none
  | .resume i answer =>
    if w.stack.isEmpty then
      match find i w.parked with
      | some (.call q next) => (answer q).map fun r =>
          { w with core := w.core.reply i q r, stack := [(i,next r)], parked := remove i w.parked }
      | _ => none
    else none
  | .wake i =>
    if w.stack.isEmpty then
      match find i w.parked with
      | some (.pause next) => some { w with stack := [(i,next)], parked := remove i w.parked }
      | some (.join p next) => (find p w.finished).map fun r =>
          { w with stack := [(i,next r)], parked := remove i w.parked }
      | _ => none
    else none

/-- Runs of any length over any choices. -/
def Leads (body : Op → Proc S) : World S → World S → Prop :=
  Relation.ReflTransGen fun w w' => ∃ choice, step body choice w = some w'

/-- The command the running segment is about to commit. -/
def about (w : World S) : Option (Nat × S.Cmd) :=
  match w.stack with
  | (i,.act cmd _) :: _ => some (i,cmd)
  | _ => none

/-- The call the running segment is about to make. -/
def calling (w : World S) : Option (Nat × S.Call) :=
  match w.stack with
  | (i,.wait q _) :: _ => some (i,q)
  | _ => none

/-- Runs in which every command, when it commits, meets a condition on the core
before it. -/
def LeadsIf (body : Op → Proc S) (ok : S.Cmd → Core S → Prop) : World S → World S → Prop :=
  Relation.ReflTransGen fun w w' => ∃ choice, step body choice w = some w' ∧
    (choice = .run → ∀ i cmd, w.about = some (i,cmd) → ok cmd w.core)

theorem LeadsIf.leads {body : Op → Proc S} (run : LeadsIf body ok w w') : Leads body w w':=
  run.lift id fun _ _ ⟨choice,stepped,_⟩ => ⟨choice,stepped⟩

/-- A fiber that needs no reply to go on. -/
def idle (w : World S) : Option Nat :=
  (w.parked.find? fun p => match p.2 with
    | .call _ _ => false
    | .pause _ => true
    | .join q _ => (find q w.finished).isSome).map Prod.fst

/-- Run the current segment and every turn that needs no reply, oldest first. -/
def drain (body : Op → Proc S) : Nat → World S → World S
  | 0, w => w
  | fuel + 1, w =>
    match w.advance with
    | some w' => drain body fuel w'
    | none =>
      match w.idle with
      | some i =>
        match step body (.wake i) w with
        | some w' => drain body fuel w'
        | none => w
      | none => w

/-- A script: each choice is followed by what runs without outside help, the last one
by no more than `last` steps of it. -/
def play (body : Op → Proc S) (fuel last : Nat) : List (Choice S Op) → World S → Option (World S)
  | [], w => some w
  | choice :: rest, w =>
    match step body choice w with
    | some w' => play body fuel last rest (drain body (if rest.isEmpty then last else fuel) w')
    | none => none

theorem drain_leads (body : Op → Proc S) (fuel : Nat) (w : World S) : Leads body w (drain body fuel w) := by
  induction fuel generalizing w with
  | zero => exact .refl
  | succ fuel ih =>
    unfold drain
    split
    · rename_i w' advanced
      exact .head ⟨.run,advanced⟩ (ih w')
    · split
      · split
        · rename_i w' woken
          exact .head ⟨_,woken⟩ (ih w')
        · exact .refl
      · exact .refl

theorem play_leads {body : Op → Proc S} (played : play body fuel last script w = some w') : Leads body w w':= by
  induction script generalizing w with
  | nil =>
    cases Option.some.inj played
    exact .refl
  | cons choice rest ih =>
    unfold play at played
    split at played
    · rename_i middle stepped
      exact .head ⟨choice,stepped⟩ ((drain_leads body _ middle).trans (ih played))
    · contradiction

/-- A script that can be played to a world of some kind leads to one. -/
theorem play_any {body : Op → Proc S}
 (played : (play body fuel last script w).any test) :
    ∃ w', Leads body w w' ∧ test w' := by
  obtain ⟨w',ends,holds⟩ := (Option.any_eq_true _ _).mp played
  exact ⟨w',play_leads ends,holds⟩

/-- What is about to be committed passes the test. -/
def meets (test : S.Cmd → Core S → Bool) (w : World S) : Bool := w.about.all fun next => test next.2 w.core

/-- `drain`, as long as every command passes the test. -/
def drainIf (body : Op → Proc S) (test : S.Cmd → Core S → Bool) : Nat → World S → Option (World S)
  | 0, w => some w
  | fuel + 1, w =>
    if w.meets test = true then
      match w.advance with
      | some w' => drainIf body test fuel w'
      | none =>
        match w.idle with
        | some i =>
          match step body (.wake i) w with
          | some w' => drainIf body test fuel w'
          | none => some w
        | none => some w
    else none

/-- `play`, as long as every command passes the test. -/
def playIf (body : Op → Proc S) (test : S.Cmd → Core S → Bool) (fuel : Nat) : List (Choice S Op) → World S → Option (World S)
  | [], w => some w
  | choice :: rest, w =>
    if w.meets test = true then
      match step body choice w with
      | some w' => (drainIf body test fuel w').bind (playIf body test fuel rest)
      | none => none
    else none

section Tested
variable {body : Op → Proc S} {test : S.Cmd → Core S → Bool} {ok : S.Cmd → Core S → Prop} {fuel : Nat}

theorem meets_ok (passes : ∀ cmd c, test cmd c = true → ok cmd c) {w : World S} (meets : w.meets test = true)
 (about : w.about = some (i,cmd)) : ok cmd w.core := by
  simp only [World.meets,about,Option.all_some] at meets
  exact passes cmd w.core meets

theorem drainIf_leads (passes : ∀ cmd c, test cmd c = true → ok cmd c)
    (drained : drainIf body test fuel w = some w') : LeadsIf body ok w w' := by
  induction fuel generalizing w with
  | zero =>
    cases Option.some.inj drained
    exact .refl
  | succ fuel ih =>
    unfold drainIf at drained
    split at drained
    · rename_i meets
      have held : ∀ i cmd, w.about = some (i,cmd) → ok cmd w.core := fun _ _ => meets_ok passes meets
      split at drained
      · rename_i middle advanced
        exact .head ⟨.run,advanced,fun _ => held⟩ (ih drained)
      · split at drained
        · split at drained
          · rename_i middle woken
            exact .head ⟨_,woken,nofun⟩ (ih drained)
          · cases Option.some.inj drained
            exact .refl
        · cases Option.some.inj drained
          exact .refl
    · cases drained

theorem playIf_leads (passes : ∀ cmd c, test cmd c = true → ok cmd c)
    (played : playIf body test fuel script w = some w') : LeadsIf body ok w w' := by
  induction script generalizing w with
  | nil =>
    cases Option.some.inj played
    exact .refl
  | cons choice rest ih =>
    unfold playIf at played
    split at played
    · rename_i meets
      split at played
      · rename_i middle stepped
        obtain ⟨rested,drained,played⟩ := Option.bind_eq_some_iff.mp played
        exact .head ⟨choice,stepped,fun _ _ _ => meets_ok passes meets⟩ ((drainIf_leads passes drained).trans (ih played))
      · cases played
    · cases played

end Tested

end World

end Neurobro.Coop
