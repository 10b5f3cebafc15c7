import Neurobro.Delivery.Outbox

/-! The store of one attempt: a directory that is made once, with one sealed file for each
record, written once. A handle goes through the records in order and is spent by the first
error. -/
namespace Neurobro.Pilot

open Durable Script Telegram

/-- A file: not there, there with part of its bytes, or there with its record. -/
inductive Slot where
  | absent
  | torn
  | whole (record : PilotRecord)
  deriving DecidableEq

structure Folder where
  planned : Slot := .absent
  sending : Slot := .absent
  terminal : Slot := .absent
  deriving DecidableEq

inductive StoreState where
  | unclaimed
  | blocked
  | holds (state : PilotState)
  deriving DecidableEq

structure StoreHandle where
  busy : Bool := false
  state : StoreState := .unclaimed
  identity : Option PilotIdentity := none
  deriving DecidableEq

/-- The directory and the handle that is open on it. -/
structure Vault where
  folder : Option Folder := none
  handle : StoreHandle := {}
  deriving DecidableEq

def Folder.slot (f : Folder) : PilotState → Slot
  | .planned => f.planned
  | .sending => f.sending
  | _ => f.terminal

def Folder.fill (f : Folder) (slot : Slot) : PilotState → Folder
  | .planned => { f with planned := slot }
  | .sending => { f with sending := slot }
  | _ => { f with terminal := slot }

def Vault.mkdir (v : Vault) : Except String (Unit × Vault) :=
  match v.folder with
  | some _ => .error "EEXIST"
  | none => .ok ((),{ v with folder := some {} })

/-- An exclusive creation. -/
def Vault.openNew (v : Vault) (state : PilotState) : Except String (Unit × Vault) :=
  match v.folder with
  | none => .error "pilot-store-directory-refused"
  | some f => if f.slot state = .absent then .ok ((),{ v with folder := some (f.fill .torn state) }) else .error "EEXIST"

def Vault.writeFile (v : Vault) (record : PilotRecord) : Except String (Unit × Vault) :=
  match v.folder with
  | none => .error "pilot-store-directory-refused"
  | some f => .ok ((),{ v with folder := some (f.fill (.whole record) record.state) })

def writeRecord (record : PilotRecord) : Script Vault Unit := do
  fallible
  lasting fun v => v.openNew record.state
  lasting fun v => v.writeFile record
  fallible

/-- Only a verified reply to a message may stand alone. -/
def wireRefused (record : PilotRecord) : Bool :=
  record.detached && !(decide (record.state = .verified) && record.replyToMessageId.any messageIdValid &&
    record.messageId.any messageIdValid)

def transition : StoreState → PilotState → Bool
  | .holds .planned,.sending => true
  | .holds .planned,.failedTerminal => true
  | .holds .sending,.verified => true
  | .holds .sending,.unknown => true
  | .holds .sending,.failedTerminal => true
  | _,_ => false

def claim (record : PilotRecord) : Script Vault Unit := do
  let v ← look id
  guard (v.handle.state ≠ .unclaimed ∨ record.state ≠ .planned) "pilot-store-consumed"
  fallible
  lasting Vault.mkdir
  fallible
  note fun v => { v with handle := { v.handle with identity := some record.toPilotIdentity } }

def follow (record : PilotRecord) : Script Vault Unit := do
  let v ← look id
  guard (v.handle.identity ≠ some record.toPilotIdentity ∨ transition v.handle.state record.state = false)
    "pilot-store-transition-refused"

def prepare (record : PilotRecord) (reserve : Bool) : Script Vault Unit := if reserve then claim record else follow record

def accept (record : PilotRecord) (reserve : Bool) : Script Vault Unit := do
  guard (wireRefused record = true) "pilot-store-wire-anchor-refused"
  prepare record reserve
  writeRecord record
  note fun v => { v with handle := { v.handle with state := .holds record.state } }

def operation (record : PilotRecord) (reserve : Bool) : Script Vault Unit := do
  let v ← look id
  guard (v.handle.busy = true ∨ v.handle.state = .blocked) "pilot-store-consumed"
  note fun v => { v with handle := { v.handle with busy := true } }
  rescue (accept record reserve) fun _ => do
    note fun v => { v with handle := { v.handle with state := .blocked,busy := false } }
    Script.throw "pilot-store-refused"
  note fun v => { v with handle := { v.handle with busy := false } }

/-! What is on the disk. -/

/-- A file that is there stays, and one that is whole stays as it is. -/
def Slot.Grows (a b : Slot) : Prop := (a ≠ .absent → b ≠ .absent) ∧ ∀ r, a = .whole r → b = .whole r

/-- Nothing on the disk is taken back. -/
def Later (a b : Option Folder) : Prop := ∀ f, a = some f → ∃ g, b = some g ∧ ∀ state, (f.slot state).Grows (g.slot state)

theorem Slot.Grows.refl (a : Slot) : a.Grows a := ⟨fun there => there,fun _ is_ => is_⟩

theorem Slot.Grows.trans {a b c : Slot} (first : a.Grows b) (second : b.Grows c) : a.Grows c :=
  ⟨fun there => second.1 (first.1 there),fun r is_ => second.2 r (first.2 r is_)⟩

theorem Later.refl (a : Option Folder) : Later a a := fun f is_ => ⟨f,is_,fun _ => .refl _⟩

theorem Later.trans {a b c : Option Folder} (first : Later a b) (second : Later b c) : Later a c := by
  intro f is_
  obtain ⟨g,is_',grows⟩ := first f is_
  obtain ⟨k,is_'',grows'⟩ := second g is_'
  exact ⟨k,is_'',fun state => (grows state).trans (grows' state)⟩

/-- The records of a folder are those of one attempt, and each follows the one before it. -/
structure Folder.Ordered (f : Folder) : Prop where
  planned : ∀ r, f.planned = .whole r → r.state = .planned
  sending : f.sending ≠ .absent → ∃ p, f.planned = .whole p ∧
    ∀ r, f.sending = .whole r → r.state = .sending ∧ r.toPilotIdentity = p.toPilotIdentity
  terminal : f.terminal ≠ .absent → ∃ p, f.planned = .whole p ∧
    ∀ r, f.terminal = .whole r → r.state.terminal = true ∧ r.toPilotIdentity = p.toPilotIdentity ∧
      (r.state = .failedTerminal ∨ ∃ q, f.sending = .whole q)

/-- What a handle may still write is not there yet. -/
def Vault.Fits (v : Vault) : StoreState → Prop
  | .holds .planned => ∃ f r, v.folder = some f ∧ f.planned = .whole r ∧ v.handle.identity = some r.toPilotIdentity ∧
      f.sending = .absent ∧ f.terminal = .absent
  | .holds .sending => ∃ f r q, v.folder = some f ∧ f.planned = .whole r ∧ v.handle.identity = some r.toPilotIdentity ∧
      f.sending = .whole q ∧ f.terminal = .absent
  | _ => True

structure Vault.Valid (v : Vault) : Prop where
  ordered : ∀ f, v.folder = some f → f.Ordered
  fits : v.handle.busy = false → v.Fits v.handle.state

/-- While a handle is busy only the disk counts. -/
structure Vault.Underway (before : Option Folder) (v : Vault) : Prop where
  ordered : ∀ f, v.folder = some f → f.Ordered
  later : Later before v.folder
  busy : v.handle.busy = true

@[simp] theorem fill_slot_self (f : Folder) (s : Slot) (state : PilotState) : (f.fill s state).slot state = s := by
  cases state <;> rfl

theorem fill_grows (f : Folder) (s : Slot) (state : PilotState) (fresh : f.slot state = .absent) (other : PilotState) :
    (f.slot other).Grows ((f.fill s state).slot other) := by
  by_cases same : (f.fill s state).slot other = f.slot other
  · rw [same]
    exact .refl _
  · have hit : f.slot other = .absent := by
      cases state <;> cases other <;> simp_all [Folder.slot,Folder.fill]
    rw [hit]
    exact ⟨fun no => absurd rfl no,fun r no => by cases no⟩

/-- The record may be written to this folder. -/
structure Folder.Takes (f : Folder) (record : PilotRecord) : Prop where
  fresh : f.slot record.state = .absent
  torn : (f.fill .torn record.state).Ordered
  whole : (f.fill (.whole record) record.state).Ordered

theorem fill_fill (f : Folder) (s s' : Slot) (state : PilotState) : (f.fill s state).fill s' state = f.fill s' state := by
  cases state <;> rfl

variable {before : Option Folder} {f : Folder} {record : PilotRecord} {handle : StoreHandle}

theorem writeRecord_meets (busy : handle.busy = true) (later : Later before (some f)) (ordered : f.Ordered)
    (takes : f.Takes record) :
    Meets (fun v => v = ⟨some f,handle⟩) (writeRecord record)
      (fun _ v => v = ⟨some (f.fill (.whole record) record.state),handle⟩) (Vault.Underway before) := by
  have start : ∀ v : Vault, v = ⟨some f,handle⟩ → v.Underway before := by
    rintro v rfl
    exact ⟨fun g is_ => Option.some.inj is_ ▸ ordered,later,busy⟩
  have grown : ∀ s, (f.fill s record.state).Ordered → Vault.Underway before ⟨some (f.fill s record.state),handle⟩ := by
    intro s fine
    refine ⟨fun g is_ => Option.some.inj is_ ▸ fine,later.trans ?_,busy⟩
    intro g is_
    cases is_
    exact ⟨_,rfl,fill_grows f s record.state takes.fresh⟩
  apply Meets.bind (Meets.fallible start)
  intro _
  apply Meets.bind (M := fun _ v => v = ⟨some (f.fill .torn record.state),handle⟩)
  · refine Meets.lasting start (fun v v' is_ ran => ?_) fun v is_ => is_ ▸ grown _ takes.torn
    subst is_
    simp only [Vault.openNew,if_pos takes.fresh] at ran
    cases ran
    rfl
  intro _
  apply Meets.bind (M := fun _ v => v = ⟨some (f.fill (.whole record) record.state),handle⟩)
  · refine Meets.lasting (fun v is_ => is_ ▸ grown _ takes.torn) (fun v v' is_ ran => ?_) fun v is_ => is_ ▸ grown _ takes.whole
    subst is_
    simp only [Vault.writeFile,fill_fill] at ran
    cases ran
    rfl
  intro _
  exact Meets.fallible fun v is_ => is_ ▸ grown _ takes.whole

theorem slot_terminal {state : PilotState} (last : state.terminal = true) : f.slot state = f.terminal := by
  cases state <;> first | rfl | cases last

theorem fill_terminal {state : PilotState} (last : state.terminal = true) (s : Slot) :
    f.fill s state = { f with terminal := s } := by
  cases state <;> first | rfl | cases last

theorem takes_planned (first : record.state = .planned) : Folder.Takes {} record := by
  have bare : ∀ s, (∀ r, s = .whole r → r.state = .planned) → Folder.Ordered { planned := s } := fun s fine =>
    ⟨fine,fun no => absurd rfl no,fun no => absurd rfl no⟩
  refine ⟨by rw [first]; rfl,?_,?_⟩
  · rw [first]
    exact bare _ fun r no => by cases no
  · rw [first]
    refine bare _ fun r is_ => ?_
    cases is_
    exact first

theorem takes_sending (ordered : f.Ordered) (planned : f.planned = .whole p)
    (same : record.toPilotIdentity = p.toPilotIdentity) (second : record.state = .sending)
    (unsent : f.sending = .absent) (unended : f.terminal = .absent) : f.Takes record := by
  have filled : ∀ s, (∀ r, s = .whole r → r = record) → Folder.Ordered { f with sending := s } := by
    intro s fine
    refine ⟨ordered.planned,fun _ => ⟨p,planned,fun r is_ => ?_⟩,fun no => absurd unended no⟩
    cases fine r is_
    exact ⟨second,same⟩
  refine ⟨by rw [second]; exact unsent,?_,?_⟩
  · rw [second]
    exact filled _ fun r no => by cases no
  · rw [second]
    exact filled _ fun r is_ => by cases is_; rfl

theorem takes_terminal (ordered : f.Ordered) (planned : f.planned = .whole p)
    (same : record.toPilotIdentity = p.toPilotIdentity) (last : record.state.terminal = true)
    (sent : record.state = .failedTerminal ∨ ∃ q, f.sending = .whole q) (unended : f.terminal = .absent) : f.Takes record := by
  have filled : ∀ s, (∀ r, s = .whole r → r = record) → Folder.Ordered { f with terminal := s } := by
    intro s fine
    refine ⟨ordered.planned,ordered.sending,fun _ => ⟨p,planned,fun r is_ => ?_⟩⟩
    cases fine r is_
    exact ⟨last,same,sent⟩
  refine ⟨by rw [slot_terminal last]; exact unended,?_,?_⟩
  · rw [fill_terminal last]
    exact filled _ fun r no => by cases no
  · rw [fill_terminal last]
    exact filled _ fun r is_ => by cases is_; rfl

/-- Everything is in place to write the record. -/
structure Vault.Ready (record : PilotRecord) (before : Option Folder) (f : Folder) (v : Vault) : Prop extends v.Underway before where
  there : v.folder = some f
  takes : f.Takes record
  fits : Vault.Fits ⟨some (f.fill (.whole record) record.state),{ v.handle with state := .holds record.state }⟩ (.holds record.state)

/-- The record is on the disk and the handle fits it. -/
structure Vault.Stored (record : PilotRecord) (before : Option Folder) (v : Vault) : Prop extends v.Underway before where
  there : ∃ f, v.folder = some f ∧ f.slot record.state = .whole record
  fits : v.Fits v.handle.state

variable {v₁ : Vault}

theorem claim_meets (underway : v₁.Underway before) :
    Meets (fun v => v = v₁) (claim record) (fun _ v => ∃ f, v.Ready record before f) (Vault.Underway before) := by
  have start : ∀ v, v = v₁ → v.Underway before := fun v is_ => is_ ▸ underway
  apply Meets.bind (M := fun v s => s = v₁ ∧ v = v₁)
  · exact .look fun s is_ => ⟨is_,is_⟩
  intro v
  apply Meets.bind (M := fun _ s => s = v₁ ∧ record.state = .planned)
  · refine .guard (fun s is_ clear => ?_) fun s is_ => start s is_.1
    exact ⟨is_.1,not_not.mp (not_or.mp clear).2⟩
  intro _
  refine .assume (fun _ held => held.2) fun first => ?_
  apply Meets.bind (Meets.fallible fun s held => start s held.1)
  intro _
  have empty : Folder.Ordered {} := ⟨fun r no => (by cases no),fun no => absurd rfl no,fun no => absurd rfl no⟩
  apply Meets.bind (M := fun _ s => s = { v₁ with folder := some {} } ∧ v₁.folder = none)
  · refine Meets.lasting (fun s held => start s held.1) (fun s s' held ran => ?_) fun s held => ?_
    · obtain ⟨rfl,_⟩ := held
      unfold Vault.mkdir at ran
      split at ran
      · cases ran
      · cases ran
        exact ⟨rfl,‹_›⟩
    · obtain ⟨rfl,none_⟩ := held
      refine ⟨fun g is_ => Option.some.inj is_ ▸ empty,?_,underway.busy⟩
      exact underway.later.trans fun g no => by rw [none_] at no; cases no
  intro _
  refine .assume (fun _ held => held.2) fun none_ => ?_
  have made : Vault.Underway before { v₁ with folder := some {} } := by
    refine ⟨fun g is_ => Option.some.inj is_ ▸ empty,?_,underway.busy⟩
    exact underway.later.trans fun g no => by rw [none_] at no; cases no
  apply Meets.bind (Meets.fallible fun s held => held.1 ▸ made)
  intro _
  refine .note fun s held => ?_
  obtain ⟨rfl,_⟩ := held
  refine ⟨{},⟨made.ordered,made.later,made.busy⟩,rfl,takes_planned first,?_⟩
  rw [first]
  exact ⟨_,record,rfl,rfl,rfl,rfl,rfl⟩

theorem follow_meets (underway : v₁.Underway before) (fits : v₁.Fits v₁.handle.state) :
    Meets (fun v => v = v₁) (follow record) (fun _ v => ∃ f, v.Ready record before f) (Vault.Underway before) := by
  apply Meets.bind (M := fun v s => s = v₁ ∧ v = v₁)
  · exact .look fun s is_ => ⟨is_,is_⟩
  intro v
  refine .guard (fun s is_ clear => ?_) fun s is_ => is_.1 ▸ underway
  obtain ⟨rfl,rfl⟩ := is_
  obtain ⟨same,goes⟩ := not_or.mp clear
  have named_ := not_not.mp same
  have goes : transition v.handle.state record.state = true := by simpa using goes
  cases at_ : v.handle.state with
  | unclaimed => rw [at_] at goes; cases goes
  | blocked => rw [at_] at goes; cases goes
  | holds state =>
    rw [at_] at fits goes
    cases state with
    | planned =>
      obtain ⟨f,p,there,planned,identity,unsent,unended⟩ := fits
      have alike : record.toPilotIdentity = p.toPilotIdentity := Option.some.inj (named_.symm.trans identity)
      have ordered := underway.ordered f there
      cases next : record.state with
      | planned => rw [next] at goes; cases goes
      | sending =>
        refine ⟨f,⟨underway,there,takes_sending ordered planned alike next unsent unended,?_⟩⟩
        rw [next]
        exact ⟨_,p,record,rfl,planned,identity,rfl,unended⟩
      | verified => rw [next] at goes; cases goes
      | unknown => rw [next] at goes; cases goes
      | failedTerminal =>
        refine ⟨f,⟨underway,there,takes_terminal ordered planned alike (by rw [next]; rfl) (.inl next) unended,?_⟩⟩
        rw [next]
        trivial
    | sending =>
      obtain ⟨f,p,q,there,planned,identity,sent,unended⟩ := fits
      have alike : record.toPilotIdentity = p.toPilotIdentity := Option.some.inj (named_.symm.trans identity)
      have last : record.state.terminal = true := by
        cases next : record.state <;> rw [next] at goes <;> first | rfl | cases goes
      refine ⟨f,⟨underway,there,takes_terminal (underway.ordered f there) planned alike last (.inr ⟨q,sent⟩) unended,?_⟩⟩
      cases next : record.state <;> rw [next] at last <;> first | trivial | cases last
    | verified => cases goes
    | unknown => cases goes
    | failedTerminal => cases goes

theorem accept_meets (reserve : Bool) (underway : v₁.Underway before) (fits : v₁.Fits v₁.handle.state) :
    Meets (fun v => v = v₁) (accept record reserve) (fun _ => Vault.Stored record before) (Vault.Underway before) := by
  apply Meets.bind (M := fun _ v => v = v₁)
  · exact .guard (fun _ is_ _ => is_) fun v is_ => is_ ▸ underway
  intro _
  apply Meets.bind (M := fun _ v => ∃ f, v.Ready record before f)
  · exact .ite (fun _ => claim_meets underway) fun _ => follow_meets underway fits
  intro _
  refine .named fun v ⟨f,ready⟩ => ?_
  apply Meets.bind (M := fun _ s => s = ⟨some (f.fill (.whole record) record.state),v.handle⟩)
  · apply (writeRecord_meets ready.busy (ready.there ▸ ready.later) (ready.ordered f ready.there) ready.takes).pre
    rintro _ rfl
    rw [← ready.there]
  intro _
  refine .note fun s is_ => ?_
  subst is_
  refine ⟨⟨fun g is_ => Option.some.inj is_ ▸ ready.takes.whole,?_,ready.busy⟩,⟨_,rfl,fill_slot_self ..⟩,ready.fits⟩
  exact ready.later.trans fun g is_ => ⟨_,rfl,by
    cases ready.there.symm.trans is_
    exact fill_grows f _ _ ready.takes.fresh⟩

theorem operation_meets (record : PilotRecord) (reserve : Bool) (v₀ : Vault) (valid : v₀.Valid) :
    Meets (fun v => v = v₀) (operation record reserve)
      (fun _ v => v.Valid ∧ Later v₀.folder v.folder ∧ ∃ f, v.folder = some f ∧ f.slot record.state = .whole record)
      (fun v => v.Valid ∧ Later v₀.folder v.folder) := by
  apply Meets.bind (M := fun v s => s = v₀ ∧ v = v₀)
  · exact .look fun s is_ => ⟨is_,is_⟩
  intro v
  apply Meets.bind (M := fun _ s => s = v₀ ∧ v₀.handle.busy = false)
  · refine .guard (fun s is_ clear => ?_) fun s is_ => by rw [is_.1]; exact ⟨valid,.refl _⟩
    obtain ⟨rfl,rfl⟩ := is_
    exact ⟨rfl,by simpa using (not_or.mp clear).1⟩
  intro _
  refine .assume (fun _ held => held.2) fun idle => ?_
  have fits := valid.fits idle
  apply Meets.bind (M := fun _ s => s = { v₀ with handle := { v₀.handle with busy := true } })
  · exact .note fun s held => by rw [held.1]
  intro _
  have underway : Vault.Underway v₀.folder { v₀ with handle := { v₀.handle with busy := true } } :=
    ⟨valid.ordered,.refl _,rfl⟩
  have stays : ∀ v : Vault, v.Underway v₀.folder → v.Valid ∧ Later v₀.folder v.folder := fun v held =>
    ⟨⟨held.ordered,fun no => by rw [held.busy] at no; cases no⟩,held.later⟩
  apply Meets.bind (M := fun _ => Vault.Stored record v₀.folder)
  · apply Meets.rescue
    · exact (accept_meets reserve underway fits).weaken (fun _ is_ => is_) (fun _ _ held => held) stays
    · intro _
      apply Meets.bind (M := fun _ v => v.Valid ∧ Later v₀.folder v.folder)
      · exact .note fun v held => ⟨⟨held.1.ordered,fun _ => trivial⟩,held.2⟩
      intro _
      exact .throw fun _ held => held
  intro _
  exact .note fun v held => ⟨⟨held.ordered,fun _ => held.fits⟩,held.later,held.there⟩

/-! Any number of calls, each of whose disk steps goes as it may, with the process dying at
one of them now and then. -/

inductive StoreCall where
  | operation (record : PilotRecord) (reserve : Bool)
  | reopen

def StoreCall.perform : StoreCall → Script Vault Unit
  | .operation record reserve => Pilot.operation record reserve
  | .reopen => note fun v => { v with handle := {} }

/-- The handle is lost with its process. -/
def fell (v : Vault) : Vault := { v with handle := {} }

def storeRun (events : List (StoreCall × List Fate)) : Vault := play StoreCall.perform fell {} events

theorem fell_valid (valid : v.Valid) : (fell v).Valid := ⟨valid.ordered,fun _ => trivial⟩

theorem perform_meets (call : StoreCall) (v₀ : Vault) (valid : v₀.Valid) :
    Meets (fun v => v = v₀) call.perform (fun _ v => v.Valid ∧ Later v₀.folder v.folder)
      (fun v => v.Valid ∧ Later v₀.folder v.folder) := by
  cases call with
  | operation record reserve => exact (operation_meets record reserve v₀ valid).post fun _ _ held => ⟨held.1,held.2.1⟩
  | reopen => exact .note fun v is_ => by rw [is_]; exact ⟨fell_valid valid,.refl _⟩

theorem storeRun_valid (events : List (StoreCall × List Fate)) : (storeRun events).Valid := by
  apply play_keeps
  · intro call
    refine .named fun v valid => ?_
    exact (perform_meets call v valid).weaken (fun _ is_ => is_) (fun _ _ held => held.1) fun _ held => held.1
  · exact fun _ => fell_valid
  · exact ⟨fun _ no => (by cases no),fun _ => trivial⟩

/-- What every vault is that comes after this one. -/
def After (v₀ v : Vault) : Prop := v.Valid ∧ Later v₀.folder v.folder

theorem play_later (valid : v₀.Valid) (more : List (StoreCall × List Fate)) :
    After v₀ (play StoreCall.perform fell v₀ more) := by
  apply play_keeps
  · intro call
    refine .named fun v held => ?_
    exact (perform_meets call v held.1).weaken (fun _ is_ => is_) (fun _ _ held' => ⟨held'.1,held.2.trans held'.2⟩)
      fun _ held' => ⟨held'.1,held.2.trans held'.2⟩
  · exact fun v held => ⟨fell_valid held.1,held.2⟩
  · exact ⟨valid,.refl _⟩

theorem storeRun_later (events more : List (StoreCall × List Fate)) :
    Later (storeRun events).folder (storeRun (events ++ more)).folder := by
  unfold storeRun
  rw [play_append]
  exact (play_later (storeRun_valid events) more).2

end Neurobro.Pilot
