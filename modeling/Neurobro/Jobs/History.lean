import Neurobro.Coop.Histories
import Neurobro.Coop.Runs
import Neurobro.Data.Results
import Neurobro.Jobs.Service

/-! The history of a job is a line. Every operation saves what it computed from a record
that had been committed; the compare-and-swap lets only a computation from the latest
one through. -/
namespace Neurobro.Jobs

open Coop

variable {o : Options} {i : Nat}

/-! ## Commits -/

def committed (o : Options) (key : JobKey) : Event (service o) → Option JobRecord
  | .act _ (.save record _) saved => if saved = true ∧ record.key = key then some record else none
  | _ => none

/-- What was committed of a job, newest first. -/
abbrev commits (key : JobKey) (c : Core (service o)) : List JobRecord := c.logged (committed o key)

/-- The states a poll can be in, from the record it loaded. -/
inductive Polls (o : Options) (job : JobRecord) : Polling → Prop
  | start : Polls o job (.start job)
  | page {p p' : Polling} {s : JobSource} {previous : SourceState} {page : SourcePage} {now : String} :
      Polls o job p → p.goesOn = true → p.queue.head? = some s →
      p.next.sourceStates.get (o.host.key s.id) = some previous →
      p.page o.host s previous page now = .ok p' → Polls o job p'

/-- What the operations compute: a new record from nothing, or the next one from the last. -/
inductive Computes (o : Options) : Option JobRecord → JobRecord → Prop
  | created {id : String} {b : TaskBinding} {checked : CheckedSpec} {now : String} :
      Computes o none (newRecord o.host id b checked now)
  | updated {job next : JobRecord} {context : ToolContext} {nextSources : List JobSource} {patch : JobPatch}
      {now : String} : patchSources o.host job patch = .ok nextSources →
      updatedRecord o.host job context nextSources patch now = .ok next → Computes o (some job) next
  | cancelled {job next : JobRecord} {context : ToolContext} {now : String} :
      cancelledRecord job context now = .ok next → Computes o (some job) next
  | polled {job : JobRecord} {p : Polling} {now : String} : Polls o job p →
      Computes o (some job) (p.record o.host now)

/-- The next commit after another. -/
structure Succeeds (o : Options) (next last : JobRecord) : Prop where
  version : next.version = last.version + 1
  active : last.state = .active
  computed : Computes o (some last) next

/-- A save whose record was computed from what was once committed. -/
def Justified (record : JobRecord) (expectedVersion : Option Nat) (c : Core (service o)) : Prop :=
  match expectedVersion with
  | none => Computes o none record
  | some version => ∃ last ∈ commits record.key c, last.version = version ∧ Succeeds o record last

/-- The commits of a job are a line, and the store holds the last of them. -/
structure Linear (key : JobKey) (c : Core (service o)) : Prop where
  chain : (commits key c).IsChain (Succeeds o)
  first : ∀ first ∈ (commits key c).getLast?, first.version = 1 ∧ Computes o none first
  stored : c.state.jobs.get key = (commits key c).head?

def lineage (o : Options) : Rules (service o) where
  inv := fun c => ∀ key, Linear key c
  mayAct := fun _ cmd c => match cmd with
    | .save record expectedVersion => Justified record expectedVersion c
  mayCall := fun _ _ _ => True

/-! ## A save keeps the line -/

theorem Computes.first_version {record : JobRecord} (computed : Computes o none record) : record.version = 1 := by
  cases computed
  rfl

/-- Versions only grow along the line. -/
theorem older_version {next : JobRecord} {rest : List JobRecord} (chain : (next :: rest).IsChain (Succeeds o)) :
    ∀ last ∈ rest, last.version < next.version := by
  induction rest generalizing next with
  | nil => simp
  | cons last rest ih =>
    obtain ⟨first,rest'⟩ := List.isChain_cons_cons.mp chain
    intro r member
    have step := first.version
    rcases List.mem_cons.mp member with rfl | older
    · omega
    · have := ih rest' r older
      omega

/-- Only the latest commit has the stored version. -/
theorem Linear.latest {key : JobKey} (linear : Linear key c)
    (member : last ∈ commits key c) (version : (c.state.jobs.get key).map JobRecord.version = some last.version) :
    (commits key c).head? = some last := by
  rw [linear.stored] at version
  have chain := linear.chain
  cases line : commits key c with
  | nil =>
    rw [line] at member
    cases member
  | cons head rest =>
    rw [line] at member chain version
    have same : head.version = last.version := by simpa using version
    rcases List.mem_cons.mp member with rfl | older
    · rfl
    · have := older_version chain last older
      omega

theorem commits_other {key : JobKey} (records : c.Records c' e)
    (silent : committed o key e = none) : commits key c' = commits key c := by
  rw [commits,Core.logged_records records,silent]
  rfl

theorem Linear.other {key : JobKey} (linear : Linear key c)
    (records : c.Records c' e) (silent : committed o key e = none)
    (same : c'.state.jobs.get key = c.state.jobs.get key) : Linear key c' := by
  have line := commits_other records silent
  exact ⟨line ▸ linear.chain,line ▸ linear.first,by rw [same,line]; exact linear.stored⟩

/-- A record computed from the latest commit goes on top of it. -/
theorem Linear.push {key : JobKey} {c : Core (service o)} (linear : Linear key c) {record : JobRecord}
 (same : record.key = key) (justified : Justified record expectedVersion c)
    (swaps : (c.state.jobs.get key).map JobRecord.version = expectedVersion) :
    (record :: commits key c).IsChain (Succeeds o) ∧
      ∀ first ∈ (record :: commits key c).getLast?, first.version = 1 ∧ Computes o none first := by
  subst same
  cases expectedVersion with
  | none =>
    have empty : commits record.key c = [] := by
      rw [linear.stored] at swaps
      simpa using swaps
    rw [empty]
    refine ⟨.singleton record,?_⟩
    intro first member
    cases member
    exact ⟨justified.first_version,justified⟩
  | some version =>
    obtain ⟨last,member,rfl,succeeds⟩ := justified
    have latest := linear.latest member swaps
    cases line : commits record.key c with
    | nil =>
      rw [line] at latest
      cases latest
    | cons head rest =>
      rw [line] at latest
      cases latest
      have chain := linear.chain
      have first := linear.first
      rw [line] at chain first
      exact ⟨List.isChain_cons_cons.mpr ⟨succeeds,chain⟩,by simpa using first⟩

/-- A save either leaves the commits of a job and its record, or commits the record. -/
theorem save_cases (key : JobKey) (c : Core (service o)) (i : Nat) (record : JobRecord) (expectedVersion : Option Nat) :
    (∃ e, c.Records (c.act i (.save record expectedVersion)) e ∧ committed o key e = none ∧
      (c.act i (.save record expectedVersion)).state.jobs.get key = c.state.jobs.get key) ∨
    record.key = key ∧ (c.state.jobs.get key).map JobRecord.version = expectedVersion ∧
      c.Records (c.act i (.save record expectedVersion)) (.act i (.save record expectedVersion) true) ∧
      (c.act i (.save record expectedVersion)).state.jobs.get key = some record := by
  have records := c.records_act i (.save record expectedVersion)
  by_cases swaps : (c.state.jobs.get record.key).map JobRecord.version = expectedVersion
  · have result : exec (.save record expectedVersion) c.state =
        (true,{ c.state with jobs := c.state.jobs.put record.key record }) := if_pos swaps
    have stored : ∀ k, (c.act i (.save record expectedVersion)).state.jobs.get k =
        if k = record.key then some record else c.state.jobs.get k := by
      intro k
      show (exec (.save record expectedVersion) c.state).2.jobs.get k = _
      rw [result,Table.get_put]
    have event : (service o).exec (.save record expectedVersion) c.state = _ := result
    rw [event] at records
    by_cases same : record.key = key
    · exact .inr ⟨same,same ▸ swaps,records,by rw [stored,if_pos same.symm]⟩
    · exact .inl ⟨_,records,by simp [committed,same],by rw [stored,if_neg fun other => same other.symm]⟩
  · have result : (service o).exec (.save record expectedVersion) c.state = (false,c.state) := if_neg swaps
    refine .inl ⟨_,records,?_,?_⟩
    · rw [result]
      simp [committed]
    · show ((service o).exec (.save record expectedVersion) c.state).2.jobs.get key = _
      rw [result]

theorem commits_push {key : JobKey} {record : JobRecord}
    (records : c.Records c' (.act i (.save record expectedVersion) true)) (same : record.key = key) :
    commits key c' = record :: commits key c := by
  rw [commits,Core.logged_records records]
  simp [committed,same]

theorem Linear.save {key : JobKey} (linear : Linear key c) {record : JobRecord}
 (justified : Justified record expectedVersion c) :
    Linear key (c.act i (.save record expectedVersion)) := by
  rcases save_cases key c i record expectedVersion with ⟨e,records,silent,kept⟩ | ⟨same,swaps,records,stored⟩
  · exact linear.other records silent kept
  · obtain ⟨chain,first⟩ := linear.push same justified swaps
    have line := commits_push records same
    exact ⟨line ▸ chain,line ▸ first,by rw [stored,line]; rfl⟩

theorem lineage_sound (o : Options) : (lineage o).Sound where
  move := by
    intro who c c' move
    cases move with
    | @act c i cmd inv may =>
      cases cmd with
      | save record expectedVersion => exact fun key => (inv key).save may
    | @call c i q inv may => exact fun key => (inv key).other (c.records_call i q) rfl rfl
    | @reply c i q r inv => exact fun key => (inv key).other (c.records_reply i q r) rfl rfl
    | @shock c x inv => exact fun key => (inv key).other (c.records_shock x) rfl rfl
  crash := fun {c} inv key => (inv key).other c.records_crash rfl rfl

/-! ## The operations -/

/-- One page that a poll read: the job and what it stored of the source, what the source
was asked for, and what the page came to. -/
structure Reading where
  job : JobRecord
  source : JobSource
  previous : SourceState
  limit : Nat
  checkpoint : String
  page : SourcePage
  now : String
  state : SourceState
  raised : List MonitorAlert
  fits : Bool

/-- The job of a poll once the turn of a source has come. -/
def Polling.turned (p : Polling) (s : JobSource) : JobRecord := { p.next with nextSourceIndex := nextSourceIndex p.next s }

/-- The states a poll can be in, with the pages it has read. -/
inductive Reads (o : Options) (job : JobRecord) : Polling → List Reading → Prop
  | start : Reads o job (.start job) []
  | page {p p' : Polling} {reads : List Reading} {r : Reading} : Reads o job p reads → p.goesOn = true →
      p.queue.head? = some r.source → p.next.sourceStates.get (o.host.key r.source.id) = some r.previous →
      r.limit = p.limit r.previous → r.checkpoint = checkpoint o.host job.binding.taskId job.id r.previous →
      r.job = p.turned r.source → collectMonitor o.host r.job r.source r.page r.now = .ok (r.state,r.raised) →
      r.fits = decide (p.alerts.length + r.raised.length ≤ p.next.limits.maxAlerts) →
      p.page o.host r.source r.previous r.page r.now = .ok p' → Reads o job p' (reads ++ [r])

/-- The source answered the fiber with the page. -/
def Answered (i : Nat) (r : Reading) : Event (service o) → Prop := fun e =>
  e = .reply i (.read r.source r.previous.cursor r.limit r.checkpoint) (.ok r.page)

/-- What an operation has to show for the record it saves. -/
inductive Made (o : Options) (i : Nat) (c : Core (service o)) : JobRecord → Option Nat → Prop
  | created {id : String} {b : TaskBinding} {spec : JobSpec} {checked : CheckedSpec} {now : String} :
      checkSpec o.host spec = .ok checked → Made o i c (newRecord o.host id b checked now) none
  | updated {job next : JobRecord} {context : ToolContext} {nextSources : List JobSource} {patch : JobPatch}
      {now : String} : job ∈ commits next.key c → job.state = .active → patchSources o.host job patch = .ok nextSources →
      updatedRecord o.host job context nextSources patch now = .ok next → Made o i c next (some job.version)
  | cancelled {job next : JobRecord} {context : ToolContext} {now : String} : job ∈ commits next.key c →
      job.state = .active → cancelledRecord job context now = .ok next → Made o i c next (some job.version)
  | polled {job : JobRecord} {p : Polling} {reads : List Reading} {now : String} : job ∈ commits p.next.key c →
      job.state = .active → Reads o job p reads → p.goesOn = false → (∀ r ∈ reads, c.Happened (Answered i r)) →
      Made o i c (p.record o.host now) (some job.version)

/-- Rules under which the commits are a line, and an operation may save what it made. -/
structure Lineal (R : Rules (service o)) : Prop where
  sound : R.Sound
  free : ∀ i, ¬R.taken i
  calls : ∀ i q c, R.inv c → R.mayCall i q c
  linear : ∀ c, R.inv c → ∀ key, Linear key c
  saves : ∀ {i : Nat} {c : Core (service o)} {record : JobRecord} {expectedVersion : Option Nat},
    R.inv c → Made o i c record expectedVersion → R.mayAct i (.save record expectedVersion) c

theorem binding_ok {context : ToolContext} (ok : binding context = .ok b) : b = context.toTaskBinding:= by
  unfold binding at ok
  obtain ⟨_,_,ok⟩ := bind_ok ok
  obtain ⟨_,_,ok⟩ := bind_ok ok
  obtain ⟨_,_,ok⟩ := bind_ok ok
  split at ok
  · cases ok
  · cases ok
    rfl

theorem updatedRecord_ok {job next : JobRecord} {context : ToolContext}
 {now : String} (ok : updatedRecord h job context nextSources patch now = .ok next) :
    next.version = job.version + 1 ∧ next.key = (context.taskId,job.id) := by
  unfold updatedRecord at ok
  obtain ⟨b,bound,ok⟩ := bind_ok ok
  obtain ⟨_,_,ok⟩ := bind_ok ok
  obtain ⟨_,_,ok⟩ := bind_ok ok
  obtain ⟨_,_,ok⟩ := bind_ok ok
  obtain ⟨_,_,ok⟩ := bind_ok ok
  cases ok
  cases binding_ok bound
  exact ⟨rfl,rfl⟩

theorem cancelledRecord_ok {job next : JobRecord} {context : ToolContext} {now : String}
    (ok : cancelledRecord job context now = .ok next) :
    next.version = job.version + 1 ∧ next.key = (context.taskId,job.id) := by
  obtain ⟨b,bound,same⟩ := bind_ok ok
  cases same
  cases binding_ok bound
  exact ⟨rfl,rfl⟩

theorem Reads.polls {job : JobRecord} {reads : List Reading} (polling : Reads o job p reads) : Polls o job p:= by
  induction polling with
  | start => exact .start
  | page _ goes head stored _ _ _ _ _ ok ih => exact .page ih goes head stored ok

/-- A page touches neither the identity nor the version of the job. -/
theorem page_job {p p' : Polling} {page : SourcePage}
    {now : String} (ok : p.page h s previous page now = .ok p') :
    p'.next.version = p.next.version ∧ p'.next.key = p.next.key ∧ p'.next.state = p.next.state := by
  unfold Polling.page at ok
  obtain ⟨_,ok⟩ := guard_eq_ok.mp ok
  obtain ⟨⟨state,raised⟩,_,ok⟩ := bind_ok ok
  dsimp only at ok
  split at ok <;> cases ok <;> exact ⟨rfl,rfl,rfl⟩

theorem Polls.job {job : JobRecord} {p : Polling} (polls : Polls o job p) :
    p.next.version = job.version ∧ p.next.key = job.key ∧ p.next.state = job.state := by
  induction polls with
  | start => exact ⟨rfl,rfl,rfl⟩
  | page _ _ _ _ ok ih =>
    obtain ⟨version,key,state⟩ := page_job ok
    exact ⟨version.trans ih.1,key.trans ih.2.1,state.trans ih.2.2⟩

/-- A page is collected and counted. -/
theorem page_collected {p p' : Polling} {page : SourcePage}
    {now : String} (ok : p.page h s previous page now = .ok p') :
    ∃ state raised, collectMonitor h (p.turned s) s page now = .ok (state,raised) ∧
      p'.next.limits = p.next.limits ∧ p'.pagesRead = p.pagesRead + 1 := by
  unfold Polling.page at ok
  obtain ⟨_,ok⟩ := guard_eq_ok.mp ok
  obtain ⟨⟨state,raised⟩,collected,ok⟩ := bind_ok ok
  refine ⟨state,raised,collected,?_⟩
  dsimp only at ok
  split at ok <;> cases ok <;> exact ⟨rfl,rfl⟩

/-- A committed record under this key. -/
def Known (key : JobKey) (job : JobRecord) (c : Core (service o)) : Prop := job.key = key ∧ job ∈ commits key c

/-- The poll is at a state it can be in, its source has answered with the pages it read,
and the record it loaded was committed. -/
def Underway (o : Options) (i : Nat) (key : JobKey) (job : JobRecord) (p : Polling) (c : Core (service o)) : Prop :=
  Known key job c ∧ ∃ reads, Reads o job p reads ∧ ∀ r ∈ reads, c.Happened (Answered i r)

theorem checkLoaded_ok {id : String} {revision : Option Int}
    {found : Option JobRecord} {job : JobRecord} (ok : checkLoaded o b id revision allowRebind found = .ok job) :
    found = some job ∧ job.key = (b.taskId,id) := by
  cases found with
  | none => cases ok
  | some found =>
    unfold checkLoaded at ok
    simp only [guard_eq_ok] at ok
    obtain ⟨own,_,_,same⟩ := ok
    cases same
    simp only [ne_eq,Bool.or_eq_true,decide_eq_true_eq,not_or,not_not] at own
    exact ⟨rfl,Prod.ext own.1 own.2⟩

theorem Made.justified {record : JobRecord}
    (made : Made o i c record expectedVersion) : Justified record expectedVersion c := by
  cases made with
  | created _ => exact .created
  | updated known active patched computed =>
    exact ⟨_,known,rfl,(updatedRecord_ok computed).1,active,.updated patched computed⟩
  | cancelled known active computed =>
    exact ⟨_,known,rfl,(cancelledRecord_ok computed).1,active,.cancelled computed⟩
  | polled known active reads _ _ =>
    exact ⟨_,known,rfl,congrArg (· + 1) reads.polls.job.1,active,.polled reads.polls⟩

theorem lineage_lineal (o : Options) : Lineal (lineage o) where
  sound := lineage_sound o
  free _ := id
  calls _ _ _ _ := trivial
  linear _ inv := inv
  saves _ made := made.justified

section walk

variable {α : Type} {R : Rules (service o)} (lineal : Lineal R)

theorem lasting_made (record : JobRecord) (expectedVersion : Option Nat) :
    Lasting R fun c => Made o i c record expectedVersion := by
  intro who c c' move made
  cases made with
  | created checked => exact .created checked
  | updated known active patched computed => exact .updated (Core.logged_lasting move known) active patched computed
  | cancelled known active computed => exact .cancelled (Core.logged_lasting move known) active computed
  | polled known active reads over_ answered =>
    exact .polled (Core.logged_lasting move known) active reads over_ fun r member =>
      Core.happened_lasting move (answered r member)

theorem known_lasting (key : JobKey) (job : JobRecord) : Lasting R (Known (o := o) key job) :=
  fun _ _ _ move ⟨same,member⟩ => ⟨same,Core.logged_lasting move member⟩

theorem underway_lasting (key : JobKey) (job : JobRecord) (p : Polling) : Lasting R (Underway o i key job p) :=
  fun _ _ _ move ⟨known,reads,polling,answered⟩ => ⟨known_lasting key job move known,reads,polling,fun r member =>
    Core.happened_lasting move (answered r member)⟩

include lineal

theorem quiet_call (q : Call) : Quiet R (@Async.call (service o) q) := .call lineal.sound fun i c => lineal.calls i q c

theorem quiet_storeTurn : Quiet R (storeTurn : M o Unit) := .bind (quiet_call lineal _) fun _ => .lift _

theorem quiet_validateContext (context : ToolContext) (sources : List JobSource) :
    Quiet R (validateContext context sources : M o Unit) :=
  .ite (.bind (quiet_call lineal _) fun _ => .lift _) (.await lineal.sound (.pure ()))

theorem quiet_authorize (context : ToolContext) (sources : List JobSource) :
    Quiet R (authorize context sources : M o Unit) :=
  .bind (.lift _) fun _ => quiet_validateContext lineal context sources

theorem storeLoad_spec (taskId id : String) :
    Triple R i (fun _ => True) (storeLoad taskId id)
      (onOk fun found c => ∀ job, found = some job → job ∈ commits (taskId,id) c) := by
  refine .bind ((quiet_storeTurn lineal).triple (lineal.free i)) (fun _ => ?_) fun _ _ _ _ => trivial
  refine .bind (Q := onOk fun found c => ∀ job, found = some job → job ∈ commits (taskId,id) c) (.look ?_)
    (fun found => ?_) fun _ _ _ _ => trivial
  · intro c inv _ job found
    have stored := (lineal.linear c inv (taskId,id)).stored
    rw [stored] at found
    exact List.mem_of_head? found
  · have lasting : Lasting R fun c => ∀ job, found = some job → job ∈ commits (taskId,id) c :=
      .forall fun job => .imp Core.logged_lasting
    exact .bind ((quiet_storeTurn lineal).keeps (lineal.free i) lasting) (fun _ => .pure fun _ _ known => known)
      fun _ _ _ _ => trivial

theorem load_spec (context : ToolContext) (id : String) (revision : Option Int) (allowRebind : Bool) :
    Triple R i (fun _ => True) (load context id revision allowRebind)
      (onOk fun job => Known (context.taskId,id) job) := by
  refine .bind (Q := fun _ _ => True) (.lift fun _ _ _ => trivial) (fun _ => ?_) fun _ _ _ _ => trivial
  refine .bind (Q := onOk fun b _ => b = context.toTaskBinding) (.lift fun c _ _ => ?_) (fun b => ?_)
    fun _ _ _ _ => trivial
  · cases bound : binding context with
    | error e => trivial
    | ok b => exact binding_ok bound
  refine .named fun c₀ _ same => ?_
  cases same
  refine .bind ((storeLoad_spec lineal context.taskId id).pre fun _ _ _ => trivial) (fun found => ?_)
    fun _ _ _ _ => trivial
  refine .bind (Q := onOk fun job => Known (context.taskId,id) job) (.lift fun c _ known => ?_) (fun job => ?_)
    fun _ _ _ _ => trivial
  · cases loaded : checkLoaded o context.toTaskBinding id revision allowRebind found with
    | error e => trivial
    | ok job =>
      obtain ⟨found,key⟩ := checkLoaded_ok loaded
      exact ⟨key,known job found⟩
  · have waits := Quiet.await lineal.sound (quiet_authorize lineal context job.sources)
    exact .bind (waits.keeps (lineal.free i) (known_lasting _ job)) (fun _ => .pure fun _ _ known => known)
      fun _ _ _ _ => trivial

theorem loaded_spec (context : ToolContext) (id : String) (revision : Option Int) (allowRebind : Bool) :
    Triple R i (fun _ => True) (Async.await (load context id revision allowRebind))
      (onOk fun job => Known (context.taskId,id) job) :=
  .await lineal.sound (load_spec lineal context id revision allowRebind) fun
    | .ok job => (known_lasting _ job).stable
    | .error _ => .top

theorem storeSave_quiet (record : JobRecord) (expectedVersion : Option Nat) :
    Triple R i (fun c => Made o i c record expectedVersion) (storeSave record expectedVersion) fun _ _ => True := by
  refine .seq ((quiet_storeTurn lineal).keeps (lineal.free i) (lasting_made record expectedVersion)) fun _ => ?_
  refine .seq (.act (Q := fun _ _ => True) lineal.sound (fun _ inv made => lineal.saves inv made)
    fun _ _ _ _ => trivial) fun saved => ?_
  exact .seq ((quiet_storeTurn lineal).triple (lineal.free i)) fun _ => .pure fun _ _ _ => trivial

/-- A save at the end of an operation: its answer is a value or a refusal. -/
theorem saved_quiet {record : JobRecord} {value : α} :
    Triple R i (fun c => Made o i c record expectedVersion) (do
      if ← storeSave record expectedVersion then pure value else refuse e) fun _ _ => True :=
  .seq (storeSave_quiet lineal record expectedVersion) fun _ => .ite (fun _ => .pure fun _ _ _ => trivial)
    fun _ => .lift fun _ _ _ => trivial

theorem calm_create (context : ToolContext) (spec : JobSpec) : Quiet R (create context spec : M o JobRecord) := by
  intro i _
  refine .seq (Q := fun _ _ => True) (.lift fun _ _ _ => trivial) fun b => ?_
  refine .seq (Q := onOk fun checked _ => checkSpec o.host spec = .ok checked ∧ True) (.lift fun c _ _ => ?_)
    fun checked => .assume fun passed => ?_
  · cases passed : checkSpec o.host spec with
    | error e => trivial
    | ok checked => exact ⟨rfl,trivial⟩
  refine .seq (Q := fun _ _ => True) (.lift fun _ _ _ => trivial) fun id => ?_
  have waits := Quiet.await lineal.sound (quiet_authorize lineal context checked.sources)
  refine .seq (waits.triple (lineal.free i)) fun _ => ?_
  refine .seq ((storeLoad_spec lineal b.taskId id).weaken (fun _ _ _ => trivial) fun _ _ _ _ => trivial) fun found => ?_
  cases found with
  | some existing => exact .ite (fun _ => .lift fun _ _ _ => trivial) fun _ => .pure fun _ _ _ => trivial
  | none =>
    refine .seq (Q := fun _ _ => True) (.look fun _ _ _ => trivial) fun now => ?_
    exact (saved_quiet lineal).pre fun _ _ _ => .created passed

theorem calm_update (context : ToolContext) (id : String) (expectedRevision : Int) (patch : JobPatch) :
    Quiet R (update context id expectedRevision patch : M o JobRecord) := by
  intro i _
  refine .seq (loaded_spec lineal context id _ true) fun job => .ite (fun _ => .lift fun _ _ _ => trivial) fun active => ?_
  have known := known_lasting (o := o) (R := R) (context.taskId,id) job
  refine .seq (Q := onOk fun nextSources c => patchSources o.host job patch = .ok nextSources ∧
    Known (context.taskId,id) job c) (.lift fun c _ known => ?_) fun nextSources => .assume fun patched => ?_
  · cases patched : patchSources o.host job patch with
    | error e => trivial
    | ok nextSources => exact ⟨rfl,known⟩
  have waits := Quiet.await lineal.sound (quiet_authorize lineal context nextSources)
  refine .seq (waits.keeps (lineal.free i) known) fun _ => ?_
  refine .seq (Q := onOk fun _ => Known (context.taskId,id) job) (.look fun _ _ known => known) fun now => ?_
  refine .seq (Q := onOk fun next c => updatedRecord o.host job context nextSources patch now = .ok next ∧
    Known (context.taskId,id) job c) (.lift fun c _ known => ?_) fun next => .assume fun computed => ?_
  · cases computed : updatedRecord o.host job context nextSources patch now with
    | error e => trivial
    | ok next => exact ⟨rfl,known⟩
  refine .seq (waits.keeps (lineal.free i) known) fun _ => (saved_quiet lineal).pre fun c _ known => ?_
  have own : job.id = id := congrArg Prod.snd known.1
  have key : next.key = (context.taskId,id) := own ▸ (updatedRecord_ok computed).2
  exact .updated (key ▸ known.2) (not_not.mp active) patched computed

theorem calm_cancel (context : ToolContext) (id : String) (expectedRevision : Int) :
    Quiet R (cancel context id expectedRevision : M o JobRecord) := by
  intro i _
  refine .seq (loaded_spec lineal context id _ true) fun job => .ite (fun _ => .pure fun _ _ _ => trivial) fun active => ?_
  have known := known_lasting (o := o) (R := R) (context.taskId,id) job
  refine .seq (Q := onOk fun _ => Known (context.taskId,id) job) (.look fun _ _ known => known) fun now => ?_
  refine .seq (Q := onOk fun next c => cancelledRecord job context now = .ok next ∧
    Known (context.taskId,id) job c) (.lift fun c _ known => ?_) fun next => .assume fun computed => ?_
  · cases computed : cancelledRecord job context now with
    | error e => trivial
    | ok next => exact ⟨rfl,known⟩
  have waits := Quiet.await lineal.sound (quiet_authorize lineal context next.sources)
  refine .seq (waits.keeps (lineal.free i) known) fun _ => (saved_quiet lineal).pre fun c _ known => ?_
  have own : job.id = id := congrArg Prod.snd known.1
  have key : next.key = (context.taskId,id) := own ▸ (cancelledRecord_ok computed).2
  have live : job.state = .active := by
    cases state : job.state with
    | active => rfl
    | cancelled => exact (active state).elim
  exact .cancelled (key ▸ known.2) live computed

theorem pollPage_spec {job : JobRecord} (context : ToolContext) (id : String) (version : Nat) {p : Polling}
    (goes : p.goesOn = true) : Triple R i (Underway o i (context.taskId,id) job p) (pollPage context id version p)
      (onOk fun p' c => Underway o i (context.taskId,id) job p' c ∧ p'.next.limits = p.next.limits ∧
        p'.pagesRead = p.pagesRead + 1) := by
  have lasting : Lasting R (Underway o i (context.taskId,id) job p) := underway_lasting _ job p
  unfold pollPage
  cases queue : p.queue with
  | nil => simp [Polling.goesOn,queue] at goes
  | cons s rest =>
    have waits := Quiet.await lineal.sound (quiet_authorize lineal context [s])
    refine .bind (waits.keeps (lineal.free i) lasting) (fun _ => ?_) fun _ _ _ _ => trivial
    refine .bind (((storeLoad_spec lineal context.taskId id).pre fun _ _ _ => trivial).keep lasting |>.weaken
      (fun _ _ known => ⟨known,known⟩) fun _ _ _ both => both.2) (fun current => ?_) fun _ _ _ _ => trivial
    refine .ite (fun _ => .lift fun _ _ _ => trivial) fun _ => ?_
    cases stored : p.next.sourceStates.get (o.host.key s.id) with
    | none => exact .lift fun _ _ _ => trivial
    | some previous =>
      let q : Call := .read s previous.cursor (p.limit previous) (checkpoint o.host context.taskId id previous)
      refine .bind (Q := onOk fun answer c => Underway o i (context.taskId,id) job p c ∧
        c.Happened fun e => e = .reply i q answer) (.call lineal.sound lasting.stable (fun c inv _ => lineal.calls i q c inv)
          (fun c inv held => lasting (.call inv (lineal.calls i q c inv)) held) fun c r inv held => ?_) (fun answer => ?_)
        fun _ _ _ _ => trivial
      · exact ⟨lasting (.reply q r inv) held,(Core.happened_records (c.records_reply i q r)).mpr (.inl rfl)⟩
      refine .bind (Q := onOk fun page c => Underway o i (context.taskId,id) job p c ∧
        c.Happened fun e => e = .reply i q (.ok page)) (.lift fun c _ held => ?_) (fun page => ?_) fun _ _ _ _ => trivial
      · cases answer with
        | error e => trivial
        | ok page => exact held
      refine .bind (Q := onOk fun _ c => Underway o i (context.taskId,id) job p c ∧
        c.Happened fun e => e = .reply i q (.ok page)) (.look fun _ _ held => held) (fun now => ?_) fun _ _ _ _ => trivial
      refine .lift fun c _ held => ?_
      cases ok : p.page o.host s previous page now with
      | error e => trivial
      | ok p' =>
        obtain ⟨⟨known,reads,polling,answered⟩,replied⟩ := held
        obtain ⟨state,raised,collected,limits,counted⟩ := page_collected ok
        have own : job.binding.taskId = context.taskId ∧ job.id = id :=
          ⟨congrArg Prod.fst known.1,congrArg Prod.snd known.1⟩
        let r : Reading := ⟨p.turned s,s,previous,p.limit previous,checkpoint o.host context.taskId id previous,page,now,state,raised,
          decide (p.alerts.length + raised.length ≤ p.next.limits.maxAlerts)⟩
        have read : Reads o job p' (reads ++ [r]) :=
          .page polling goes (by rw [queue]; rfl) stored rfl (by rw [own.1,own.2]) rfl collected rfl ok
        refine ⟨⟨known,_,read,fun r' member => ?_⟩,limits,counted⟩
        rcases List.mem_append.mp member with old | new
        · exact answered r' old
        · cases List.mem_singleton.mp new
          exact replied

theorem pollPages_spec {job : JobRecord} (context : ToolContext) (id : String) (version fuel : Nat) (p : Polling)
    (enough : p.next.limits.maxPages ≤ p.pagesRead + fuel) :
    Triple R i (Underway o i (context.taskId,id) job p) (pollPages context id version fuel p)
      (onOk fun p' c => Underway o i (context.taskId,id) job p' c ∧ p'.goesOn = false) := by
  induction fuel generalizing p with
  | zero =>
    refine .pure fun _ _ held => ⟨held,?_⟩
    have full : ¬p.pagesRead < p.next.limits.maxPages := by omega
    simp [Polling.goesOn,full]
  | succ fuel ih =>
    refine .ite (fun goes => ?_) fun halted => .pure fun _ _ held => ⟨held,by simpa using halted⟩
    refine .bind (pollPage_spec lineal context id version goes) (fun p' => ?_) fun _ _ _ _ => trivial
    refine .named fun c₀ _ ⟨_,limits,counted⟩ => ?_
    exact (ih p' (by rw [limits,counted]; omega)).pre fun c _ same => by
      cases same
      assumption

theorem calm_poll (context : ToolContext) (id : String) (expectedRevision : Int) :
    Quiet R (poll context id expectedRevision : M o PollResult) := by
  intro i _
  refine .seq (loaded_spec lineal context id _ false) fun job => .ite (fun _ => .lift fun _ _ _ => trivial) fun active => ?_
  refine .ite (fun _ => .lift fun _ _ _ => trivial) fun _ => ?_
  refine .seq ((pollPages_spec lineal (i := i) context id job.version _ _ (Nat.le_add_left _ _)).pre
    fun _ _ known => ⟨known,[],.start,by simp⟩) fun p => ?_
  have lasting : Lasting R fun c => Underway o i (context.taskId,id) job p c ∧ p.goesOn = false :=
    fun _ _ _ move ⟨held,halted⟩ => ⟨underway_lasting _ job p move held,halted⟩
  have waits := Quiet.await lineal.sound (quiet_authorize lineal context p.next.sources)
  refine .seq (waits.keeps (lineal.free i) lasting) fun _ => ?_
  refine .seq (Q := onOk fun _ c => Underway o i (context.taskId,id) job p c ∧ p.goesOn = false)
    (.look fun _ _ held => held) fun now => ?_
  refine (saved_quiet lineal).pre fun c _ held => ?_
  obtain ⟨⟨known,reads,polling,answered⟩,halted⟩ := held
  have key : p.next.key = (context.taskId,id) := polling.polls.job.2.1.trans known.1
  exact .polled (key ▸ known.2) (not_not.mp active) polling halted answered

theorem calm_program (op : Op) : Quiet R (program o op) := by
  cases op with
  | create context spec => exact .bind (calm_create lineal context spec) fun _ => .pure ()
  | inspect context id =>
    refine .bind (fun i _ => ?_) fun _ => .pure ()
    exact (load_spec lineal context id none false).post fun _ _ _ _ => trivial
  | update context id expectedRevision patch =>
    exact .bind (calm_update lineal context id expectedRevision patch) fun _ => .pure ()
  | cancel context id expectedRevision =>
    exact .bind (calm_cancel lineal context id expectedRevision) fun _ => .pure ()
  | poll context id expectedRevision => exact .bind (calm_poll lineal context id expectedRevision) fun _ => .pure ()

theorem body_safe (op : Op) (i : Nat) (c : Core (service o)) (free : ¬R.taken i) (inv : R.inv c) :
    Safe R i (body o op) c :=
  (calm_program lineal op i free).safe inv trivial

end walk

/-! ## Every run -/

/-- A world that operations and their surroundings can lead to from an empty store. -/
def Reachable (o : Options) (w : World (service o)) : Prop := ∃ now, World.Leads (body o) (boot o now) w

theorem linear_initial (key : JobKey) (state : State) (empty : state.jobs = ∅) :
    Linear key (⟨state,[]⟩ : Core (service o)) :=
  ⟨.nil,by simp [Core.logged],by rw [empty]; rfl⟩

theorem Reachable.governed (reachable : Reachable o w) : w.Governed (lineage o) := by
  obtain ⟨now,run⟩ := reachable
  exact World.Governed.leads (lineage_sound o) (body_safe (lineage_lineal o))
    (World.initial_governed (fun key => linear_initial key _ rfl) fun _ => id) run

/-- However creations, revisions, cancellations and polls interleave, the commits of a
job are a line: each is computed from the one before it, with the next version, and
none follows a cancellation. The store holds the last. -/
theorem history_linear {w : World (service o)} (reachable : Reachable o w) (key : JobKey) :
    (commits key w.core).IsChain (fun next last =>
      next.version = last.version + 1 ∧ last.state = .active ∧ Computes o (some last) next) ∧
    (∀ first ∈ (commits key w.core).getLast?, first.version = 1 ∧ Computes o none first) ∧
    w.core.state.jobs.get key = (commits key w.core).head? := by
  have linear := reachable.governed.inv key
  refine ⟨linear.chain.imp fun _ _ succeeds => ?_,linear.first,linear.stored⟩
  exact ⟨succeeds.version,succeeds.active,succeeds.computed⟩

def Options.plain : Options := ⟨.plain,false,false⟩

def asker (runId : String) : ToolContext := ⟨⟨"task",1,"grant",1⟩,runId⟩

def answered (fiber : Nat) : Choice (service .plain) Op :=
  .resume fiber fun
    | .store => some (.ok ())
    | _ => none

/-- A job is created; two cancellations load it before either saves. -/
def twiceCancelled : List (Choice (service .plain) Op) :=
  [.invoke (.create (asker "r0") { id := some "job", name := "watch", sources := [⟨"s",.web,"https://example.org"⟩] }),
    answered 0,answered 0,answered 0,answered 0,
    .invoke (.cancel (asker "r1") "job" 1),answered 1,answered 1,
    .invoke (.cancel (asker "r2") "job" 1),answered 2,answered 2,
    answered 1,answered 2,answered 1,answered 2]

theorem history_linear_cancelled : ∃ w : World (service .plain), Reachable .plain w ∧
    (commits ("task","job") w.core).length = 2 ∧
    w.core.state.jobs.get ("task","job") = (commits ("task","job") w.core).head? := by
  have played : (World.play (body .plain) 100 100 twiceCancelled (boot .plain "t0")).any fun w =>
      decide ((commits ("task","job") w.core).length = 2) := by decide +kernel
  obtain ⟨w,run,two⟩ := World.play_any played
  have reachable : Reachable .plain w := ⟨"t0",run⟩
  exact ⟨w,reachable,of_decide_eq_true two,(history_linear reachable ("task","job")).2.2⟩

end Neurobro.Jobs
