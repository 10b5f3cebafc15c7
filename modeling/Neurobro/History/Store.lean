import Mathlib.Data.List.Induction
import Neurobro.Durable.Ledger
import Neurobro.History.Pages

/-! The store of a history task: a journal of pages, chained by digest from the intent. -/
namespace Neurobro.History

open Durable Script Journal Ledger

/-- A page as it is sealed in its file. -/
structure Envelope where
  taskId : String
  intentHash : String
  index : Nat
  previousHash : String
  result : TaskPage
  deriving DecidableEq

/-- The digests of what is sealed. -/
structure Digests where
  intent : Intent → String
  page : Envelope → String

structure PageEntry where
  hash : String
  before : Checkpoint
  next : Checkpoint
  deriving DecidableEq

/-- What a handle knows of the pages. -/
structure Progress where
  pages : List PageEntry
  checkpoint : Checkpoint
  chainHash : String
  deriving DecidableEq

def maximumPages : Nat := 1024

section Store
variable (h : Digests) (i : Intent)

def Progress.begin : Progress where
  pages := []
  checkpoint := initial i
  chainHash := h.intent i

def Progress.envelope (p : Progress) (result : TaskPage) : Envelope where
  taskId := i.taskId
  intentHash := h.intent i
  index := p.pages.length + 1
  previousHash := p.chainHash
  result := result

def Progress.push (p : Progress) (result : TaskPage) : Progress where
  pages := p.pages ++ [⟨h.page (p.envelope h i result),p.checkpoint,result.nextCheckpoint⟩]
  checkpoint := result.nextCheckpoint
  chainHash := h.page (p.envelope h i result)

/-- What is read from a file is the next page or it is refused. -/
def decode (p : Progress) (e : Envelope) : Option Progress :=
  if e.taskId = i.taskId ∧ e.intentHash = h.intent i ∧ e.index = p.pages.length + 1 ∧ e.previousHash = p.chainHash then
    match snapshotPage i e.result with
    | .ok result => if result.beforeCheckpoint = p.checkpoint then some (p.push h i result) else none
    | .error _ => none
  else none

abbrev TaskDesk := Ledger.Desk Envelope Progress Intent

def createStore : Script TaskDesk Unit := Ledger.create i (.begin h i)

def openStore : Script TaskDesk Unit := Ledger.reopen (decode h i) maximumPages i (.begin h i)

/-- A page is appended where the reading stands. -/
def appendPage (expected : Checkpoint) (result : TaskPage) : Script TaskDesk Unit := do
  let expected ← lift (snapshotCheckpoint expected)
  let result ← lift (snapshotPage i result)
  operation fun hd => do
    fallible
    guard (hd.tail = true) "tail"
    guard (maximumPages ≤ hd.state.pages.length) "limit"
    guard (expected ≠ hd.state.checkpoint ∨ result.beforeCheckpoint ≠ hd.state.checkpoint) "conflict"
    inventory hd
    commit hd (hd.state.envelope h i result) (.ok (hd.state.push h i result))

inductive StoreCall where
  | create
  | open_
  | append (expected : Checkpoint) (result : TaskPage)

def StoreCall.perform : StoreCall → Script TaskDesk Unit
  | .create => createStore h i
  | .open_ => openStore h i
  | .append expected result => appendPage h i expected result

/-- Any calls, each of whose disk steps goes as it may, with the process dying at one of them
now and then. -/
def storeRun (events : List (StoreCall × List Fate)) : TaskDesk := play (StoreCall.perform h i) fell {} events

/-- The handle that opening the store anew gives, when nothing fails. -/
def reopened (s : TaskDesk) : Option (Handle Progress) := (openStore h i [] s).2.2.handle

/-- These results, one after another from the intent on, each from where the last one ended. -/
inductive Chained : List TaskPage → Progress → Prop where
  | begin : Chained [] (.begin h i)
  | push (results : List TaskPage) (p : Progress) (result : TaskPage) (before : Chained results p)
      (valid : snapshotPage i result = .ok result) (follows : result.beforeCheckpoint = p.checkpoint) :
      Chained (results ++ [result]) (p.push h i result)

end Store

section Decode
variable {h : Digests} {i : Intent} {p p' : Progress} {e : Envelope} {result : TaskPage}

/-- What a reader takes is what an append makes. -/
theorem decode_some (read : decode h i p e = some p') :
    e = p.envelope h i e.result ∧ snapshotPage i e.result = .ok e.result ∧ e.result.beforeCheckpoint = p.checkpoint ∧
      p' = p.push h i e.result := by
  unfold decode at read
  split at read
  · rename_i own
    obtain ⟨task,intent,index,previous⟩ := own
    split at read
    · rename_i result taken
      have same := snapshotPage_same taken
      subst same
      split at read
      · rename_i follows
        refine ⟨?_,taken,follows,(Option.some.inj read).symm⟩
        cases e
        simp only [Progress.envelope] at *
        subst task intent index previous
        rfl
      · cases read
    · cases read
  · cases read

/-- What an append makes a reader takes. -/
theorem decode_envelope (valid : snapshotPage i result = .ok result) (follows : result.beforeCheckpoint = p.checkpoint) :
    decode h i p (p.envelope h i result) = some (p.push h i result) := by
  unfold decode
  rw [if_pos ⟨rfl,rfl,rfl,rfl⟩]
  have taken : snapshotPage i (p.envelope h i result).result = .ok result := valid
  rw [taken]
  simp only [if_pos follows]

theorem replay_length {records : List Envelope} (taken : replay (decode h i) (.begin h i) records = some p) :
    p.pages.length = records.length := by
  induction records using List.reverseRecOn generalizing p with
  | nil =>
    cases Option.some.inj taken
    rfl
  | append_singleton records e ih =>
    rw [replay_append] at taken
    obtain ⟨p₁,first,last⟩ := Option.bind_eq_some_iff.mp taken
    obtain ⟨p₂,read,done⟩ := Option.bind_eq_some_iff.mp last
    cases Option.some.inj done
    obtain ⟨_,_,_,rfl⟩ := decode_some read
    have before := ih first
    simp [Progress.push,before]

theorem replay_index {records : List Envelope} (taken : replay (decode h i) (.begin h i) records = some p)
    (there : records[k]? = some e) : e.index = k + 1 := by
  induction records using List.reverseRecOn generalizing p with
  | nil => simp at there
  | append_singleton records e' ih =>
    rw [replay_append] at taken
    obtain ⟨p₁,first,last⟩ := Option.bind_eq_some_iff.mp taken
    by_cases early : k < records.length
    · rw [List.getElem?_append_left early] at there
      exact ih first there
    · obtain ⟨p₂,read,_⟩ := Option.bind_eq_some_iff.mp last
      have known := (List.getElem?_eq_some_iff.mp there).1
      rw [List.length_append,List.length_singleton] at known
      have same : k = records.length := by omega
      subst same
      simp at there
      subst there
      rw [(decode_some read).1]
      simp only [Progress.envelope,replay_length first]

theorem replay_chained {records : List Envelope} (taken : replay (decode h i) (.begin h i) records = some p) :
    Chained h i (records.map Envelope.result) p := by
  induction records using List.reverseRecOn generalizing p with
  | nil =>
    cases Option.some.inj taken
    exact .begin
  | append_singleton records e ih =>
    rw [replay_append] at taken
    obtain ⟨p₁,first,last⟩ := Option.bind_eq_some_iff.mp taken
    obtain ⟨p₂,read,done⟩ := Option.bind_eq_some_iff.mp last
    cases Option.some.inj done
    obtain ⟨_,valid,follows,rfl⟩ := decode_some read
    rw [List.map_append]
    exact .push _ _ _ (ih first) valid follows

end Decode

section Append
variable {h : Digests} {i : Intent} {expected : Checkpoint} {result : TaskPage} {s₀ : TaskDesk} {hd : Handle Progress}

abbrev TaskReached (h : Digests) (i : Intent) (s : TaskDesk) : Prop :=
  Reached (decode h i) (.begin h i) maximumPages i s

/-- The request goes with where the reading stands. -/
structure Timely (i : Intent) (expected : Checkpoint) (result : TaskPage) (hd : Handle Progress) : Prop where
  ready : hd.tail = false
  room : hd.state.pages.length < maximumPages
  valid : snapshotPage i result = .ok result
  current : expected = hd.state.checkpoint
  follows : result.beforeCheckpoint = hd.state.checkpoint

/-- The page was written and taken. -/
def Appended (h : Digests) (i : Intent) (expected : Checkpoint) (result : TaskPage) (hd : Handle Progress) (records : List Envelope)
    (s₀ s : TaskDesk) : Prop :=
  Timely i expected result hd ∧
    Committed (decode h i) (.begin h i) maximumPages records (hd.state.envelope h i result) (hd.state.push h i result) s₀ s

/-- Nothing was done, or the handle is spent. -/
def Failed (h : Digests) (i : Intent) (expected : Checkpoint) (result : TaskPage) (hd : Handle Progress) (records : List Envelope)
    (s₀ s : TaskDesk) : Prop :=
  s = s₀ ∨ Timely i expected result hd ∧
    Spent (decode h i) (.begin h i) maximumPages records (hd.state.envelope h i result) s₀ s

/-- The process is gone, before the append began or in the middle of it. -/
def Gone (h : Digests) (i : Intent) (expected : Checkpoint) (result : TaskPage) (hd : Handle Progress) (records : List Envelope)
    (s₀ s : TaskDesk) : Prop :=
  s = s₀ ∨ Timely i expected result hd ∧
    Died (decode h i) (.begin h i) maximumPages records (hd.state.envelope h i result) s₀ s

/-- What one append does. -/
theorem appendPage_runs {records : List Envelope} {torn : Bool}
    (fits : Fits (decode h i) (.begin h i) maximumPages records torn s₀) (present : s₀.handle = some hd) (idle : hd.active = false) :
    Runs (fun s => s = s₀) (appendPage h i expected result)
      (fun _ s => ∃ s', Appended h i expected result hd records (activated s₀) s' ∧ s = settled s')
      (fun s => ∃ s', Failed h i expected result hd records (activated s₀) s' ∧ s = settled s')
      (Gone h i expected result hd records (activated s₀)) := by
  have same : ∀ s, s = s₀ → ∃ s', Failed h i expected result hd records (activated s₀) s' ∧ s = settled s' := fun s is_ =>
    ⟨activated s₀,.inl rfl,by rw [is_,settled_activated present idle]⟩
  apply Runs.bind (M := fun expected' s => s = s₀ ∧ expected' = expected)
  · refine .lift (fun s expected' is_ taken => ⟨is_,?_⟩) same
    obtain ⟨_,_,done⟩ := bind_ok taken
    exact (Except.ok.inj done).symm
  intro expected'
  refine .assume (fun _ held => held.2) fun own => ?_
  subst own
  apply Runs.bind (M := fun result' s => s = s₀ ∧ result' = result ∧ snapshotPage i result = .ok result)
  · refine .lift (fun s result' held taken => ?_) fun s held => same s held.1
    have own := snapshotPage_same taken
    subst own
    exact ⟨held.1,rfl,taken⟩
  intro result'
  refine .assume (fun _ held => held.2) fun ⟨own,valid⟩ => ?_
  subst own
  apply Runs.weaken (P := fun s => s = s₀) (operation_runs present idle ?_) (fun _ held => held.1) (fun _ _ held => held)
    (fun _ held => held) fun _ held => held
  have start : ∀ s, s = activated s₀ → Failed h i expected' result' hd records (activated s₀) s := fun s is_ => .inl is_
  have began : ∀ s, s = activated s₀ → Gone h i expected' result' hd records (activated s₀) s := fun s is_ => .inl is_
  apply Runs.bind (M := fun _ s => s = activated s₀)
  · exact (Meets.fallible fun _ is_ => is_).runs.weaken (fun _ is_ => is_) (fun _ _ is_ => is_) start began
  intro _
  apply Runs.bind (M := fun _ s => s = activated s₀ ∧ hd.tail = false)
  · exact .guard (fun s is_ clear => ⟨is_,Bool.eq_false_iff.mpr clear⟩) fun s is_ _ => start s is_
  intro _
  refine .assume (fun _ held => held.2) fun ready => ?_
  obtain ⟨rfl,taken,counted⟩ := live_ready (fits.live hd present idle) ready
  apply Runs.bind (M := fun _ s => s = activated s₀ ∧ hd.state.pages.length < maximumPages)
  · exact .guard (fun s held clear => ⟨held.1,not_le.mp clear⟩) fun s held _ => start s held.1
  intro _
  refine .assume (fun _ held => held.2) fun room => ?_
  apply Runs.bind (M := fun _ s => s = activated s₀ ∧ Timely i expected' result' hd)
  · refine .guard (fun s held clear => ⟨held.1,?_⟩) fun s held _ => start s held.1
    obtain ⟨current,follows⟩ := not_or.mp clear
    exact ⟨ready,room,valid,not_not.mp current,not_not.mp follows⟩
  intro _
  refine .assume (fun _ held => held.2) fun timely => ?_
  have sound : Sound (decode h i) (.begin h i) maximumPages (activated s₀).dir records false := fits.sound
  apply Runs.bind (M := fun _ s => s = activated s₀)
  · exact (inventory_runs sound).weaken (fun _ held => held.1) (fun _ _ is_ => is_) (fun _ spent => .inr ⟨timely,spent⟩)
      fun _ died => .inr ⟨timely,died⟩
  intro _
  have size : records.length < maximumPages := by
    rw [← replay_length taken]
    exact room
  exact (commit_runs sound size taken counted (decode_envelope valid timely.follows)).weaken (fun _ is_ => is_)
    (fun _ _ committed => ⟨timely,committed⟩) (fun _ spent => .inr ⟨timely,spent⟩) fun _ died => .inr ⟨timely,died⟩

/-- An append without a handle, or while another call is going. -/
theorem appendPage_refused (refused : ∀ hd, s₀.handle = some hd → hd.active = true) :
    Runs (fun s => s = s₀) (appendPage h i expected result) (fun _ _ => False) (fun s => s = s₀) fun _ => False := by
  apply Runs.bind (M := fun _ s => s = s₀)
  · exact .lift (fun _ _ is_ _ => is_) fun _ is_ => is_
  intro _
  apply Runs.bind (M := fun _ s => s = s₀)
  · exact .lift (fun _ _ is_ _ => is_) fun _ is_ => is_
  intro _
  exact operation_refused refused

end Append

end Neurobro.History
