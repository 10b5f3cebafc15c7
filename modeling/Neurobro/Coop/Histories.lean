import Neurobro.Coop.Logic

/-! What a history records: that an event happened, that it happened at most once,
and that one happened after another. Histories only grow, so all that has happened
stays so, crashes included. -/
namespace Neurobro.Coop

variable {S : Signature} {c c' : Core S} {e : Event S} {p q : Event S → Prop}

namespace Core

/-- One more event. -/
def Records (c c' : Core S) (e : Event S) : Prop := c'.trace = e :: c.trace

def Happened (c : Core S) (p : Event S → Prop) : Prop := ∃ e ∈ c.trace, p e

/-- A `q` event has happened with a `p` event before it. -/
def Followed (c : Core S) (p q : Event S → Prop) : Prop :=
  ∃ later e earlier, c.trace = later ++ e :: earlier ∧ q e ∧ ∃ e' ∈ earlier, p e'

def AtMostOnce (c : Core S) (p : Event S → Bool) : Prop := c.trace.countP p ≤ 1

/-- What the events of a history have to show for themselves, newest first. -/
def logged (c : Core S) (f : Event S → Option α) : List α := c.trace.filterMap f

theorem not_happened_initial (state : S.State) : ¬(⟨state,[]⟩ : Core S).Happened p := by
  simp [Happened]

theorem happened_records (records : c.Records c' e) : c'.Happened p ↔ p e ∨ c.Happened p := by
  unfold Records at records
  simp [Happened,records]

theorem Happened.records (happened : c.Happened p) (records : c.Records c' e) : c'.Happened p :=
  (happened_records records).mpr (.inr happened)

theorem followed_records (records : c.Records c' e) :
    c'.Followed p q ↔ (q e ∧ c.Happened p) ∨ c.Followed p q := by
  unfold Records at records
  constructor
  · rintro ⟨later,x,earlier,split,after,before⟩
    rw [records] at split
    cases later with
    | nil =>
      obtain ⟨rfl,rfl⟩ := List.cons.inj split
      exact .inl ⟨after,before⟩
    | cons y later =>
      obtain ⟨rfl,rest⟩ := List.cons.inj split
      exact .inr ⟨later,x,earlier,rest,after,before⟩
  · rintro (⟨after,before⟩ | ⟨later,x,earlier,split,after,before⟩)
    · exact ⟨[],e,c.trace,records,after,before⟩
    · exact ⟨e :: later,x,earlier,by rw [records,split]; rfl,after,before⟩

/-- What was followed has happened. -/
theorem Followed.happened (followed : c.Followed p q) : c.Happened p := by
  obtain ⟨later,x,earlier,split,_,e,member,holds⟩ := followed
  exact ⟨e,by simp [split,member],holds⟩

theorem AtMostOnce.records {p : Event S → Bool} (once : c.AtMostOnce p) (records : c.Records c' e)
    (new : p e → ¬c.Happened fun e => p e) : c'.AtMostOnce p := by
  unfold AtMostOnce Records at *
  rw [records,List.countP_cons]
  split
  · rename_i holds
    have none : c.trace.countP p = 0 :=
      List.countP_eq_zero.mpr fun x member holds' => new holds ⟨x,member,holds'⟩
    omega
  · simpa using once

theorem logged_records (records : c.Records c' e) : c'.logged f = (f e).toList ++ c.logged f:= by
  unfold Records at records
  unfold logged
  rw [records,List.filterMap_cons]
  cases f e <;> rfl

theorem records_act (c : Core S) (i : Nat) (cmd : S.Cmd) :
    c.Records (c.act i cmd) (.act i cmd (S.exec cmd c.state).1) := rfl

theorem records_call (c : Core S) (i : Nat) (q : S.Call) : c.Records (c.call i q) (.call i q) := rfl

theorem records_reply (c : Core S) (i : Nat) (q : S.Call) (r : S.Reply q) :
    c.Records (c.reply i q r) (.reply i q r) := rfl

theorem records_shock (c : Core S) (x : S.Shock) : c.Records (c.shock x) (.shock x) := rfl

theorem records_crash (c : Core S) : c.Records c.crash .crash := rfl

end Core

/-- Every move leaves its mark. -/
theorem Move.records (move : Move R who c c') : ∃ e, c.Records c' e := by
  cases move with
  | act => exact ⟨_,c.records_act _ _⟩
  | call => exact ⟨_,c.records_call _ _⟩
  | reply => exact ⟨_,c.records_reply _ _ _⟩
  | shock => exact ⟨_,c.records_shock _⟩

theorem Core.happened_lasting : Lasting R fun c => c.Happened p := by
  intro _ c c' move happened
  obtain ⟨e,records⟩ := move.records
  exact happened.records records

theorem Core.logged_lasting : Lasting R fun c => a ∈ c.logged f := by
  intro _ c c' move member
  obtain ⟨e,records⟩ := move.records
  rw [Core.logged_records records]
  exact List.mem_append_right _ member

/-! ## States along a history -/

/-- What a history makes of the state it began in. -/
def replay (start : S.State) : List (Event S) → S.State
  | [] => start
  | .act _ cmd _ :: rest => (S.exec cmd (replay start rest)).2
  | .shock change :: rest => S.shock change (replay start rest)
  | .crash :: rest => S.restart (replay start rest)
  | _ :: rest => replay start rest

/-- The state is the one its history leads to. -/
def Core.Replays (start : S.State) (c : Core S) : Prop := c.state = replay start c.trace

theorem Core.replays_initial (start : S.State) : (⟨start,[]⟩ : Core S).Replays start := rfl

theorem Core.Replays.crash {start : S.State} (h : c.Replays start) : c.crash.Replays start :=
  congrArg S.restart h

theorem Core.Replays.move {start : S.State} (h : c.Replays start) (move : Move R who c c') : c'.Replays start:= by
  cases move with
  | @act _ _ cmd _ _ => exact congrArg (fun s => (S.exec cmd s).2) h
  | call => exact h
  | reply => exact h
  | shock x => exact congrArg (S.shock x) h

/-! ## Histories whose events have their grounds -/

/-- Every event had its ground in what came before it. -/
def Justified (J : Event S → List (Event S) → Prop) : List (Event S) → Prop
  | [] => True
  | x :: before => J x before ∧ Justified J before

theorem Justified.event {later before : List (Event S)} (h : Justified J (later ++ x :: before)) : J x before:= by
  induction later with
  | nil => exact h.1
  | cons y rest ih => exact ih h.2

/-- Events that each come directly after one of another kind are no more than those. -/
theorem Justified.count {p q : Event S → Bool}
    (follows : ∀ x before, J x before → q x = true → ∃ y rest, before = y :: rest ∧ p y = true)
    (apart : ∀ x, q x = true → p x = false) {trace : List (Event S)} (h : Justified J trace) :
    trace.countP q ≤ trace.countP p := by
  -- an event of the first kind at the head has not been followed yet
  have open_ : trace.countP q + (trace.head?.any p).toNat ≤ trace.countP p := by
    induction trace with
    | nil => simp
    | cons x before ih =>
      have earlier := ih h.2
      rw [List.countP_cons,List.countP_cons]
      cases second : q x with
      | true =>
        obtain ⟨y,rest,rfl,first⟩ := follows x before h.1 second
        simp [apart x second,first] at earlier ⊢
        omega
      | false =>
        cases first : p x <;> simp [first] <;> omega
  omega

end Neurobro.Coop
