import Neurobro.Agent.Commands
import Neurobro.Coop.Process

/-! The agent as a family of cooperative processes: its commits, what it asks of the
engine, the executor and the host, and what a crash leaves. -/
namespace Neurobro.Agent

open Coop

inductive Cmd where
  | issue (context : ToolContext)
  | bindToken (token : Token) (binding : RunBinding)
  | revokeToken (token : Token)
  | claim (token : Token) (context : ToolContext) (request : EffectRequest) (id : EffectId)
      (payloadHash : String)
  | enterFlight (id : EffectId)
  | leaveFlight (id : EffectId)
  | settle (effect : Effect) (result : EffectResult)
  | captureReceipt (effect : Effect)
  | interrupt (stored : Effect)
  | cancelPrepared (id : EffectId)
  | baseline (intent : TaskIntent) (grant : Grant)
  | refreshGrant (intent : TaskIntent) (grant : Grant) (baseline : Time)
      (prepared : Option PreparedAuthority)
  | narrowGrant (taskId : TaskId) (peerId : PeerId)
  | reviewOrigin (review : OriginReview)
  | cancelTask (taskId : TaskId)
  | holdTask (taskId : TaskId) (reason : String) (resumeWhenSettled : Bool)
  | correctTask (request : CorrectionRequest)
  | releaseControl (taskId : TaskId)
  | resumeTask (taskId : TaskId)
  | createTask (observation : Observation) (command : String) (route : Route)
  | openControl (id : TaskId) (source : MessageRef) (target : Option TaskId)
  | reserve (admission : Admission)
  | putAdmission (admission : Admission)
  | loseReservation (key : AdmissionKey)
  | putRun (key : AdmissionKey) (snapshot : RunSnapshot)
  | putChildStop (stop : ChildStop)
  | receive (key : EventKey) (observation : Observation)
  | conclude (key : EventKey) (result : IngestResult)
  | acknowledge (acknowledgement : Acknowledgement)
  | putOwnOutput (output : OwnOutput)
  | putHostRefresh (key : TaskId × String) (refresh : HostRefresh)
  | setReplaying (value : Bool)
  | setStart (fiber : Nat)
  | setPoll (key : AdmissionKey) (fiber : Nat)
  | clearPoll (key : AdmissionKey)
  | note (note : Note)

@[reducible] def Cmd.Result : Cmd → Type
  | .issue _ => Except Err Token
  | .bindToken _ _ => Except Err Unit
  | .claim _ _ _ _ _ => Except Err Effect
  | .settle _ _ => Except Err Settled
  | .interrupt _ => Effect
  | .baseline _ _ => Time
  | .refreshGrant _ _ _ _ => Except Err Unit
  | .narrowGrant _ _ => Except Err Unit
  | .cancelTask _ => Except Err Unit
  | .holdTask _ _ _ => Except Err Unit
  | .correctTask _ => Except Err Corrected
  | .resumeTask _ => Except Err Unit
  | .createTask _ _ _ => TaskIntent × Bool
  | .openControl _ _ _ => TaskIntent
  | .reserve _ => Bool
  | _ => Unit

/-- A transaction: its changes if it returns, nothing if it throws. -/
def transact (s : State) : Except Err (α × State) → Except Err α × State
  | .ok (a,s') => (.ok a,s')
  | .error e => (.error e,s)

def exec (o : Options) : (cmd : Cmd) → State → cmd.Result × State
  | .issue context,s => transact s (s.issue o context)
  | .bindToken token binding,s => transact s (s.bindToken token binding)
  | .revokeToken token,s => ((),s.revokeToken token)
  | .claim _ context request id payloadHash,s => transact s (s.claim o context request id payloadHash)
  | .enterFlight id,s => ((),{ s with memory.inFlight := id :: s.memory.inFlight.erase id })
  | .leaveFlight id,s => ((),{ s with memory.inFlight := s.memory.inFlight.erase id })
  | .settle effect result,s => transact s (s.settle effect result)
  | .captureReceipt effect,s => ((),s.captureOwnReceipt o effect)
  | .interrupt stored,s => s.interrupt stored
  | .cancelPrepared id,s => ((),s.cancelPrepared id)
  | .baseline intent grant,s => s.grantBaseline o intent grant
  | .refreshGrant intent grant baseline prepared,s =>
    transact s (s.refreshGrant o intent grant baseline prepared)
  | .narrowGrant taskId peerId,s => transact s (s.narrowGrant taskId peerId)
  | .reviewOrigin review,s =>
    ((),{ s with store.originReview := s.store.originReview.put review.taskId review })
  | .cancelTask taskId,s => transact s (s.cancelTask o taskId)
  | .holdTask taskId reason resumeWhenSettled,s => transact s (s.holdTask o taskId reason resumeWhenSettled)
  | .correctTask request,s => transact s (s.correctTask o request)
  | .releaseControl taskId,s => ((),{ s with store.controls := s.store.controls.delete taskId })
  | .resumeTask taskId,s => transact s (s.resumeTask o taskId)
  | .createTask observation command route,s => s.createTask o observation command route
  | .openControl id source target,s => s.openControl o id source target
  | .reserve admission,s => s.reserve admission
  | .putAdmission admission,s =>
    ((),{ s with store.admissions := s.store.admissions.put admission.admissionKey admission })
  | .loseReservation key,s => ((),s.loseReservation key)
  | .putRun key snapshot,s => ((),{ s with store.runs := s.store.runs.put key snapshot })
  | .putChildStop stop,s =>
    ((),{ s with store.childStops := s.store.childStops.put (stop.taskId,stop.revision) stop })
  | .receive key observation,s => ((),s.receive key observation)
  | .conclude key result,s =>
    ((),{ s with store.observationResults := s.store.observationResults.put key result })
  | .acknowledge acknowledgement,s =>
    ((),{ s with store.taskAcknowledgements :=
      s.store.taskAcknowledgements.put acknowledgement.taskId acknowledgement })
  | .putOwnOutput output,s =>
    ((),{ s with store.ownOutputs := s.store.ownOutputs.put (refKey output.ref) output })
  | .putHostRefresh key refresh,s =>
    ((),{ s with store.hostContextRefreshes := s.store.hostContextRefreshes.put key refresh })
  | .setReplaying value,s => ((),{ s with memory.replaying := value })
  | .setStart fiber,s => ((),{ s with memory.startFiber := some fiber })
  | .setPoll key fiber,s =>
    ((),{ s with memory.activePolls := (key,fiber) :: s.memory.activePolls.filter (·.1 ≠ key) })
  | .clearPoll key,s =>
    ((),{ s with memory.activePolls := s.memory.activePolls.filter (·.1 ≠ key) })
  | .note _,s => ((),s)

/-- What leaves the process. `dispatch` names the token it is made under, which the
executor does not see. -/
inductive Call where
  | capabilities
  | submit (input : EngineInput)
  | inspect (binding : RunBinding)
  | cancel (binding : RunBinding)
  | dispatch (effect : Effect) (under : Token)
  | reconcile (effect : Effect)
  | prepareInput (intent : TaskIntent)
  | prepareAuthority (intent : TaskIntent)
  | taskStop (taskId : TaskId) (reason : String) (intentRevision : Nat)
  | restoreToolBinding (binding : RunBinding) (token : Token)
  | readDeliveryMessage (ref : MessageRef)

def Call.isDispatch : Call → Bool
  | .dispatch _ _ => true
  | _ => false

/-- Every call may be refused with an error of any kind. -/
@[reducible] def Call.Reply : Call → Type
  | .capabilities => Except Err EngineCapabilities
  | .submit _ | .inspect _ | .cancel _ => Except Err RunSnapshot
  | .dispatch _ _ | .reconcile _ => Except Err EffectResult
  | .prepareInput _ => Except Err PreparedInput
  | .prepareAuthority _ => Except Err PreparedAuthority
  | .taskStop _ _ _ => Except Err StopResult
  | .restoreToolBinding _ _ => Except Err Unit
  | .readDeliveryMessage _ => Except Err (Option Observation)

inductive Shock where
  | clock (now : Time)
  | policy (policy : Policy)

def Shock.apply : Shock → State → State
  | .clock time,s => { s with now := time }
  | .policy callbacks,s => { s with policy := callbacks }

@[reducible] def agent (o : Options) : Signature where
  State := State
  Err := Err
  Cmd := Cmd
  Result := Cmd.Result
  exec := exec o
  Call := Call
  Reply := Call.Reply
  Shock := Shock
  shock := Shock.apply
  restart := State.restart

abbrev M (o : Options) (α : Type) := Async (agent o) α

section programs

variable {o : Options} {α β : Type}

abbrev read (f : State → α) : M o α := @Async.look (agent o) α f

/-- A synchronous reading that may throw. -/
abbrev require (f : State → Except Err α) : M o α := @Async.check (agent o) α f

abbrev commit (cmd : Cmd) : M o cmd.Result := @Async.act (agent o) cmd

abbrev ask (call : Call) : M o call.Reply := @Async.call (agent o) call

abbrev orThrow (r : Except Err α) : M o α := @Async.lift (agent o) α r

abbrev refuse (e : Err) : M o α := @Async.lift (agent o) α (.error e)

end programs

end Neurobro.Agent
