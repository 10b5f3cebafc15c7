import Neurobro.Agent.Terminal

/-! Multipart delivery: the parts of a text, and the order in which a poll dispatches
them. A part is dispatched once the parts before it have been verified. -/
namespace Neurobro.Agent

open Coop List

variable {o : Options}

/-! ## Parts of a text -/

/-- A unit that only the next unit completes to a character. -/
def highSurrogate (unit : Nat) : Bool := 0xD800 ≤ unit && unit < 0xDC00

theorem utf16_bound (c : Char) : (utf16 c).length ≤ 2 := by
  unfold utf16
  split <;> simp

/-- A character's last unit completes it. -/
theorem utf16_closed (c : Char) : ∃ first last, utf16 c = first ++ [last] ∧ highSurrogate last = false := by
  unfold utf16
  split
  · refine ⟨[],c.toNat,rfl,?_⟩
    have valid : c.toNat < 0xD800 ∨ 0xDFFF < c.toNat ∧ c.toNat < 0x110000 := c.valid
    simp only [highSurrogate,Bool.and_eq_false_iff,decide_eq_false_iff_not]
    omega
  · refine ⟨[0xD800 + (c.toNat - 0x10000) / 0x400],_,rfl,?_⟩
    simp only [highSurrogate,Bool.and_eq_false_iff,decide_eq_false_iff_not]
    omega

/-- No text ends in the middle of a character. -/
theorem units_closed (text : String) : ∀ last ∈ (utf16Units text).getLast?, highSurrogate last = false := by
  intro last ends
  unfold utf16Units at ends
  rcases eq_nil_or_concat text.toList with none | ⟨before,c,whole⟩
  · rw [none] at ends
    cases ends
  · obtain ⟨first,final,units,closed⟩ := utf16_closed c
    rw [whole] at ends
    simp only [concat_eq_append,flatMap_append,flatMap_cons,flatMap_nil,append_nil,
      units,← append_assoc,List.getLast?_concat] at ends
    cases ends
    exact closed

theorem splitParts_join (limit : Nat) (cs : List Char) : ∀ (part : List Char) (length : Nat),
    (splitParts limit cs part length).flatMap String.toList = part.reverse ++ cs := by
  induction cs with
  | nil =>
    intro part length
    unfold splitParts
    split
    · simp_all
    · simp
  | cons c cs ih =>
    intro part length
    unfold splitParts
    split
    · simp [ih]
    · rw [ih]
      simp

/-- The running length is that of the part so far, and it never passes the limit. -/
theorem splitParts_bound {limit : Nat} (room : 2 ≤ limit) (cs : List Char) : ∀ (part : List Char) (length : Nat),
    length = (part.reverse.flatMap utf16).length → length ≤ limit →
      ∀ text ∈ splitParts limit cs part length, utf16Length text ≤ limit := by
  induction cs with
  | nil =>
    intro part length counted bound text member
    unfold splitParts at member
    split at member
    · cases member
    · cases mem_singleton.mp member
      simpa [utf16Length,utf16Units,← counted] using bound
  | cons c cs ih =>
    intro part length counted bound text member
    have short := utf16_bound c
    unfold splitParts at member
    split at member
    · rcases mem_cons.mp member with rfl | rest
      · simpa [utf16Length,utf16Units,← counted] using bound
      · exact ih [c] _ (by simp) (by omega) text rest
    · exact ih (c :: part) _ (by simp [counted]) (by omega) text member

theorem deliveryParts_join (text : String) (limit : Nat) : String.join (deliveryParts text limit) = text := by
  apply String.toList_inj.mp
  rw [String.toList_join]
  exact splitParts_join limit text.toList [] 0

theorem deliveryParts_bound (text : String) : ∀ part ∈ deliveryParts text deliveryLimit, utf16Length part ≤ 3500 :=
  splitParts_bound (by decide) text.toList [] 0 rfl (Nat.zero_le _)

/-! ## Marks in the history -/

/-- Fiber `i` has drawn the token for this context. -/
def draws (i : Nat) (token : Token) (context : ToolContext) : Event (agent o) → Prop
  | .act j (Cmd.issue issued) result => j = i ∧ issued = context ∧ result = .ok token
  | _ => False

/-- A settlement finds or leaves the record of this effect verified. -/
def verifies (id : EffectId) : Event (agent o) → Prop
  | .act _ (Cmd.settle effect _) result =>
    effect.id = id ∧ ∃ settled, result = .ok settled ∧ settled.effect.state = .verified
  | _ => False

/-- A recovery rewrites the record of this effect as interrupted. -/
def unsettles (id : EffectId) : Event (agent o) → Prop
  | .act _ (Cmd.interrupt stored) _ => stored.id = id
  | _ => False

/-- A completed run is recorded with its output. -/
def completes (key : AdmissionKey) (runId : RunId) (output : String) : Event (agent o) → Prop
  | .act _ (Cmd.putRun k s) _ => k = key ∧ s.binding.runId = runId ∧ s.state = .completed ∧ s.output = some output
  | _ => False

/-- The record of this effect has been verified, and is still unless a recovery has
interrupted it since. -/
structure Verified (id : EffectId) (c : Instant o) : Prop where
  happened : c.Happened (verifies id)
  stored : (∃ e, c.state.store.effects.get id = some e ∧ e.state = .verified) ∨
    c.Followed (verifies id) (unsettles id)

/-! ## Parts of a run -/

/-- The operation identity of one part: its text is no part of it. -/
def partId (o : Options) (T : TaskId) (revision : Nat) (runId : RunId) (peerId : PeerId) (index : Nat) :
    Except Err EffectId :=
  effectOperationId o { taskId := T,intentRevision := revision,grantId := 0,grantRevision := 0,runId }
    (deliveryRequest runId { peerId } 1 index "")

/-- The payload of a part, with or without the acknowledgement it replaces. -/
def PartPayload (runId : RunId) (route : Route) (output : String) (index : Nat) (payload : Json) : Prop :=
  ∃ part, (deliveryParts output deliveryLimit)[index]? = some part ∧
    let request := deliveryRequest runId route (deliveryParts output deliveryLimit).length index part
    payload = request.payload ∨ ∃ replacement, payload = withReplacement request.payload replacement

/-- The effect is this part of the completed output of the run, for the chat the task's
present revision is routed to. -/
structure PartOf (o : Options) (effect : Effect) (runId : RunId) (output : String) (index : Nat) (c : Instant o) :
    Prop where
  completed : c.Happened (completes (effect.taskId,effect.intentRevision) runId output)
  named : partId o effect.taskId effect.intentRevision runId effect.resource index = .ok effect.id
  payload : ∃ route : Route, route.peerId = effect.resource ∧ PartPayload runId route output index effect.payload
  routed : ∃ intent, c.state.store.tasks.get effect.taskId = some intent ∧
    intent.revision = effect.intentRevision ∧ intent.route.peerId = effect.resource

/-- The earlier parts of the same run have been verified. -/
def PartsVerified (o : Options) (T : TaskId) (revision : Nat) (runId : RunId) (peerId : PeerId) (index : Nat)
    (c : Instant o) : Prop :=
  ∀ j < index, ∃ id, partId o T revision runId peerId j = .ok id ∧ Verified id c

def InOrder (o : Options) (effect : Effect) (c : Instant o) : Prop :=
  ∃ runId output index, PartOf o effect runId output index c ∧
    PartsVerified o effect.taskId effect.intentRevision runId effect.resource index c

/-! ## The rules -/

structure Filed (o : Options) (c : Instant o) : Prop where
  valid : c.state.authority.Valid o
  named : ∀ key run, c.state.store.runs.get key = some run → run.binding.admissionKey = key
  recorded : ∀ key run output, c.state.store.runs.get key = some run → run.state = .completed →
    run.output = some output → c.Happened (completes key run.binding.runId output)
  drawn : ∀ i token context, c.Happened (draws i token context) → token < c.state.fresh
  sole : ∀ i j token context context', c.Happened (draws i token context) →
    c.Happened (draws j token context') → i = j
  verified : ∀ id e, c.state.store.effects.get id = some e → e.state = .verified → c.Happened (verifies id)

/-- A run is filed under its own revision, and a token is bound by who has drawn it. -/
def Files (i : Nat) : Cmd → Instant o → Prop
  | .putRun key snapshot,_ => snapshot.binding.admissionKey = key
  | .bindToken token _,c => ∃ context, c.Happened (draws i token context)
  | _,_ => True

/-- The fibers of `mine` dispatch parts in order; nothing is said of the others' dispatches. -/
def delivery (o : Options) (mine : Nat → Prop) : Rules (agent o) where
  inv := Filed o
  mayAct i cmd c := cmd.Wellformed ∧ Files i cmd c
  mayCall i q c := match q with
    | .dispatch effect _ => mine i → InOrder o effect c
    | _ => True
  taken := mine

section changes

variable {c c' : Instant o} {i : Nat} {cmd : Cmd}

/-- What a row after a single write was before it. -/
theorem put_verified {effects : Table EffectId Effect} {k id : EffectId}
    (found : (effects.put k x).get id = some e) (verified : e.state = .verified) :
    (∃ e', effects.get id = some e' ∧ e'.state = .verified) ∨ (k = id ∧ x.state = .verified) := by
  rw [Table.get_put] at found
  by_cases here : id = k
  · rw [if_pos here] at found
    cases Option.some.inj found
    exact .inr ⟨here.symm,verified⟩
  · rw [if_neg here] at found
    exact .inl ⟨e,found,verified⟩

theorem claim_verified {context : ToolContext} {request : EffectRequest} {k id : EffectId}
    {payloadHash : String} (found : (transact s (s.claim o context request k payloadHash)).2.store.effects.get id = some e)
    (verified : e.state = .verified) : ∃ e', s.store.effects.get id = some e' ∧ e'.state = .verified := by
  rcases transact_cases s (s.claim o context request k payloadHash) with ⟨a,s',done,after⟩ | ⟨_,failed⟩
  · obtain ⟨_,_,made,rfl⟩ := State.claim_ok done
    rw [after] at found
    refine (put_verified found verified).resolve_right fun same => ?_
    rw [made] at same
    cases same.2
  · rw [failed] at found
    exact ⟨e,found,verified⟩

/-- What a settlement that goes through has found or left. -/
theorem settle_verified {s s' : State} {effect : Effect} {result : EffectResult} {settled : Settled}
    (done : s.settle effect result = .ok (settled,s')) :
    (s' = s ∧ ∃ e, s.store.effects.get effect.id = some e ∧ e.state = .verified ∧ settled.effect = e) ∨
      s'.store.effects = s.store.effects.put effect.id settled.effect := by
  unfold State.settle at done
  split at done
  · contradiction
  · split at done
    · rename_i existing found
      cases done
      obtain ⟨stored,verified⟩ := Option.filter_eq_some_iff.mp found
      exact .inl ⟨rfl,existing,stored,of_decide_eq_true verified,rfl⟩
    · cases done
      exact .inr rfl

/-- An effect is verified by its settlement alone. -/
theorem exec_verified {s : State} {id : EffectId} (found : (exec o cmd s).2.store.effects.get id = some e)
    (verified : e.state = .verified) : (∃ e', s.store.effects.get id = some e' ∧ e'.state = .verified) ∨
      ∃ effect result settled, cmd = .settle effect result ∧ effect.id = id ∧
        (exec o (.settle effect result) s).1 = .ok settled ∧ settled.effect.state = .verified := by
  have step := exec_work o s cmd
  generalize work : (exec o cmd s).2.work = after at step
  have read : after.effects.get id = some e := by
    rw [← found,← work]
    rfl
  cases step with
  | revoke _ clock T =>
    have rows : (s.store.effects.get id).map (clock.revokedRow T) = some e := (Table.get_mapRows _ _ _).symm.trans read
    obtain ⟨e',stored,rfl⟩ := Option.map_eq_some_iff.mp rows
    refine .inl ⟨e',stored,?_⟩
    unfold State.revokedRow at verified
    split at verified
    · cases verified
    · exact verified
  | cancel => exact .inl ((put_verified read verified).resolve_right fun same => nomatch same.2)
  | interrupt => exact .inl ((put_verified read verified).resolve_right fun same => nomatch same.2)
  | claim => exact .inl (claim_verified found verified)
  | @settle effect x result unverified =>
    rcases transact_cases s (s.settle effect result) with ⟨settled,s',done,after⟩ | ⟨_,failed⟩
    · replace found : s'.store.effects.get id = some e := by
        have same : (exec o (.settle effect result) s).2 = s' := congrArg Prod.snd after
        rw [← same]
        exact found
      rcases settle_verified done with ⟨rfl,_⟩ | put
      · exact .inl ⟨e,found,verified⟩
      · rw [put] at found
        rcases put_verified found verified with stored | ⟨named,now⟩
        · exact .inl stored
        · exact .inr ⟨effect,result,settled,rfl,named,congrArg Prod.fst after,now⟩
    · have same : (exec o (.settle effect result) s).2 = s := congrArg Prod.snd failed
      rw [same] at found
      exact .inl ⟨e,found,verified⟩
  | _ => exact .inl ⟨e,read,verified⟩

/-- What a new issue event records. -/
theorem draws_act {token : Token} {context : ToolContext}
    (drawn : (c.act i cmd).Happened (draws j token context)) :
    c.Happened (draws j token context) ∨ (j = i ∧ token = c.state.fresh ∧ cmd = .issue context ∧
      (exec o (.issue context) c.state).1 = .ok token) := by
  rcases (Core.happened_records (c.records_act i cmd)).mp drawn with new | old
  · cases cmd with
    | issue issued =>
      obtain ⟨rfl,rfl,result⟩ := new
      exact .inr ⟨rfl,(State.issue_ok (transact_ok result)).2.1,rfl,result⟩
    | _ => exact new.elim
  · exact .inl old

theorem Filed.act (filed : Filed o c) (formed : cmd.Wellformed) (files : Files i cmd c) : Filed o (c.act i cmd) := by
  have recorded := c.records_act i cmd
  have step := exec_step filed.valid formed
  refine ⟨step.valid filed.valid,fun key run found => ?_,fun key run output found completed told => ?_,
    fun j token context drawn => ?_,fun j k token context context' first second => ?_,fun id e found verified => ?_⟩
  · rcases exec_runs o c.state cmd with same | ⟨k,snapshot,rfl,put⟩
    · exact filed.named key run ((congrArg (·.get key) same).symm.trans found)
    · have read := (congrArg (·.get key) put).trans (Table.get_put _ _ _ _)
      by_cases here : key = k
      · cases Option.some.inj (found.symm.trans (read.trans (if_pos here)))
        exact Eq.trans files here.symm
      · exact filed.named key run ((read.trans (if_neg here)).symm.trans found)
  · rcases exec_runs o c.state cmd with same | ⟨k,snapshot,rfl,put⟩
    · exact (filed.recorded key run output ((congrArg (·.get key) same).symm.trans found) completed told).records recorded
    · have read := (congrArg (·.get key) put).trans (Table.get_put _ _ _ _)
      by_cases here : key = k
      · cases Option.some.inj (found.symm.trans (read.trans (if_pos here)))
        exact (Core.happened_records recorded).mpr (.inl ⟨here.symm,rfl,completed,told⟩)
      · exact (filed.recorded key run output ((read.trans (if_neg here)).symm.trans found) completed told).records recorded
  · have grown : c.state.fresh ≤ (c.act i cmd).state.fresh := step.fresh
    rcases draws_act drawn with old | ⟨_,rfl,rfl,issued⟩
    · exact Nat.lt_of_lt_of_le (filed.drawn j token context old) grown
    · have after := congrArg State.fresh (State.issue_ok (transact_ok issued)).2.2
      exact Nat.lt_of_lt_of_eq (Nat.lt_succ_self _) after.symm
  · rcases draws_act first with old | ⟨rfl,new,_⟩
    · rcases draws_act second with old' | ⟨_,new,_⟩
      · exact filed.sole j k token context context' old old'
      · exact absurd (new ▸ filed.drawn j token context old) (Nat.lt_irrefl _)
    · rcases draws_act second with old' | ⟨rfl,_⟩
      · exact absurd (new ▸ filed.drawn k token context' old') (Nat.lt_irrefl _)
      · rfl
  · rcases exec_verified found verified with ⟨e',stored,before⟩ | ⟨effect,result,settled,rfl,rfl,done,now⟩
    · exact (filed.verified id e' stored before).records recorded
    · exact (Core.happened_records recorded).mpr (.inl ⟨rfl,settled,done,now⟩)

/-- A change that leaves the store alone and adds no commit leaves everything filed. -/
theorem Filed.extend (filed : Filed o c) (records : c.Records c' e)
    (store : c'.state.store = c.state.store) (fresh : c'.state.fresh = c.state.fresh)
    (plain : ∀ j token context, ¬draws j token context e) : Filed o c' := by
  have old : ∀ {j token context}, c'.Happened (draws j token context) → c.Happened (draws j token context) :=
    fun drawn => ((Core.happened_records records).mp drawn).resolve_left (plain _ _ _)
  have authority : c'.state.authority = c.state.authority := by simp only [State.authority,store,fresh]
  refine ⟨authority ▸ filed.valid,store ▸ filed.named,fun key run output found completed told => ?_,
    fun j token context drawn => fresh ▸ filed.drawn j token context (old drawn),
    fun j k token context context' first second => filed.sole j k token context context' (old first) (old second),
    fun id e found verified => ?_⟩
  · exact (filed.recorded key run output (store ▸ found) completed told).records records
  · exact (filed.verified id e (store ▸ found) verified).records records

theorem delivery_sound (o : Options) (mine : Nat → Prop) : (delivery o mine).Sound where
  move move := by
    cases move with
    | act filed may => exact filed.act may.1 may.2
    | call filed => exact filed.extend (Core.records_call _ _ _) rfl rfl fun _ _ _ no => no
    | reply q r filed => exact filed.extend (Core.records_reply _ _ q r) rfl rfl fun _ _ _ no => no
    | shock x filed => cases x <;> exact filed.extend (Core.records_shock _ _) rfl rfl fun _ _ _ no => no
  crash filed := filed.extend (Core.records_crash _) rfl rfl fun _ _ _ no => no

end changes

/-! ## What stays -/

/-- A task's route changes with its revision only. -/
theorem Authority.Step.route (step : Authority.Step o a a')
    (found : a.tasks.get T = some intent) : ∃ intent', a'.tasks.get T = some intent' ∧
      intent.revision ≤ intent'.revision ∧ (intent'.revision = intent.revision → intent'.route = intent.route) := by
  have kept : intent.revision ≤ intent.revision ∧ (intent.revision = intent.revision → intent.route = intent.route) :=
    ⟨Nat.le_refl _,fun _ => rfl⟩
  cases step with
  | keep | draw | release | amend | stop => exact ⟨intent,found,kept⟩
  | @correct T' actual revised _ _ _ _ _ current _ _ _ revision =>
    by_cases same : T = T'
    · subst same
      cases Option.some.inj (found.symm.trans current.1)
      exact ⟨revised,Table.get_put_same _ _ _,by omega,fun level => by omega⟩
    · exact ⟨intent,by simpa [Table.get_put,same] using found,kept⟩
  | @resume T' actual _ task =>
    by_cases same : T = T'
    · subst same
      cases Option.some.inj (found.symm.trans task)
      exact ⟨_,Table.get_put_same _ _ _,Nat.le_refl _,fun _ => rfl⟩
    · exact ⟨intent,by simpa [Table.get_put,same] using found,kept⟩
  | @create T' _ _ _ _ new =>
    have other : T ≠ T' := by
      rintro rfl
      simp [new] at found
    exact ⟨intent,by simpa [Table.get_put,other] using found,kept⟩

/-- The chat of a task's replies, for as long as the task keeps this revision. -/
def Routed (T : TaskId) (revision : Nat) (peerId : PeerId) (c : Instant o) : Prop :=
  ∃ intent, c.state.store.tasks.get T = some intent ∧ revision ≤ intent.revision ∧
    (intent.revision = revision → intent.route.peerId = peerId)

section stays

variable {mine : Nat → Prop} {c c' : Instant o} {i : Nat} {cmd : Cmd}

/-- A move of these rules is one well-formed commit, or it leaves the store as it was. -/
theorem delivery_cases (move : Move (delivery o mine) who c c') :
    (c'.state.store = c.state.store) ∨
      ∃ j command, who = some j ∧ c' = c.act j command ∧ Filed o c ∧ command.Wellformed ∧ Files j command c := by
  cases move with
  | act filed may => exact .inr ⟨_,_,rfl,rfl,filed,may.1,may.2⟩
  | call => exact .inl rfl
  | reply => exact .inl rfl
  | shock x => cases x <;> exact .inl rfl

theorem routed_act {revision : Nat} (filed : Filed o c) (formed : cmd.Wellformed)
    (routed : Routed T revision peerId c) : Routed T revision peerId (c.act i cmd) := by
  obtain ⟨intent,found,reached,chat⟩ := routed
  obtain ⟨intent',found',grown,route⟩ := (exec_step filed.valid formed).route found
  refine ⟨intent',found',Nat.le_trans reached grown,fun level => ?_⟩
  rw [route (by omega)]
  exact chat (by omega)

theorem routed_lasting (T : TaskId) (revision : Nat) (peerId : PeerId) :
    Lasting (delivery o mine) (Routed T revision peerId) := by
  intro who c c' move routed
  rcases delivery_cases move with store | ⟨j,command,_,rfl,filed,formed,_⟩
  · unfold Routed
    rw [store]
    exact routed
  · exact routed_act filed formed routed

theorem unsettles_act {id : EffectId} {result : cmd.Result} (interrupts : cmd.interrupts id) :
    unsettles (o := o) id (.act i cmd result) := by
  cases cmd with
  | interrupt stored => exact interrupts
  | _ => exact interrupts.elim

theorem verified_act {id : EffectId} (verified : Verified id c) : Verified id (c.act i cmd) := by
  have recorded := c.records_act i cmd
  refine ⟨verified.happened.records recorded,?_⟩
  rcases verified.stored with ⟨e,found,state⟩ | before
  · obtain ⟨e',found',same⟩ := exec_effect (o := o) found
    by_cases interrupts : cmd.interrupts id
    · exact .inr ((Core.followed_records recorded).mpr (.inl ⟨unsettles_act interrupts,verified.happened⟩))
    · exact .inl ⟨e',found',(same state interrupts) ▸ state⟩
  · exact .inr ((Core.followed_records recorded).mpr (.inr before))

theorem Verified.extend {id : EffectId} (verified : Verified id c) (records : c.Records c' e)
    (store : c'.state.store = c.state.store) : Verified id c' :=
  ⟨verified.happened.records records,verified.stored.imp (fun stored => store ▸ stored) fun before =>
    (Core.followed_records records).mpr (.inr before)⟩

theorem verified_lasting (id : EffectId) : Lasting (delivery o mine) (Verified id) := by
  intro who c c' move verified
  cases move with
  | act => exact verified_act verified
  | call => exact verified.extend (Core.records_call _ _ _) rfl
  | reply q r => exact verified.extend (Core.records_reply _ _ q r) rfl
  | shock x => cases x <;> exact verified.extend (Core.records_shock _ _) rfl

/-- A fiber's own token, with the context it was drawn for. -/
def Holding (i : Nat) (token : Token) (context : ToolContext) (c : Instant o) : Prop :=
  c.Happened (draws i token context) ∧
    ∃ record, c.state.store.contexts.get token = some record ∧ record.context = context

/-- Only a binding changes what a token is for. -/
theorem exec_unbound {token : Token} {record : ContextRecord}
    (found : s.store.contexts.get token = some record) (old : token < s.fresh)
    (free : ∀ binding, cmd ≠ .bindToken token binding) :
    ∃ record', (exec o cmd s).2.store.contexts.get token = some record' ∧ record'.context = record.context := by
  have step := exec_work o s cmd
  generalize work : (exec o cmd s).2.work = after at step
  rw [show (exec o cmd s).2.store.contexts = after.contexts from congrArg Work.contexts work]
  cases step with
  | issue => exact ⟨record,(Table.get_put_other _ _ (Nat.ne_of_lt old)).trans found,rfl⟩
  | @bind token' binding stored _ =>
    have other : token ≠ token' := by
      rintro rfl
      exact free binding rfl
    exact ⟨record,(Table.get_put_other _ _ other).trans found,rfl⟩
  | @revokeToken token' record' stored =>
    by_cases here : token = token'
    · subst here
      cases Option.some.inj (found.symm.trans stored)
      exact ⟨_,Table.get_put_same _ _ _,rfl⟩
    · exact ⟨record,(Table.get_put_other _ _ here).trans found,rfl⟩
  | _ => exact ⟨record,found,rfl⟩

/-- Nobody else binds the token to a run. -/
theorem holding_stable (i : Nat) (token : Token) (context : ToolContext) :
    Stable (delivery o mine) i (Holding i token context) := by
  intro who c c' other move holding
  refine ⟨Core.happened_lasting move holding.1,?_⟩
  obtain ⟨drawn,record,found,same⟩ := holding
  rcases delivery_cases move with store | ⟨j,command,rfl,rfl,filed,_,files⟩
  · exact ⟨record,store ▸ found,same⟩
  · have free : ∀ binding, command ≠ .bindToken token binding := by
      rintro binding rfl
      obtain ⟨context',theirs⟩ := files
      exact other (congrArg some (filed.sole j i token context' context theirs drawn))
    obtain ⟨record',found',kept⟩ := exec_unbound (o := o) found (filed.drawn i token context drawn) free
    exact ⟨record',found',kept.trans same⟩

end stays

/-! ## What is free for all fibers -/

theorem Tightens.delivery (o : Options) (mine : Nat → Prop) :
    (delivery o fun _ => False).Tightens (Agent.delivery o mine) where
  inv _ := Iff.rfl
  acts may := may
  calls {_ q _} _ := by cases q <;> first | trivial | exact fun no => no.elim
  act _ may := may
  call {_ q _} free _ := by cases q <;> first | trivial | exact fun yes => absurd yes free
  taken _ no := no.elim

section walk

variable {mine : Nat → Prop} {i : Nat}

theorem delivery_act {cmd : Cmd} (free : cmd.routine = true) (formed : cmd.Wellformed) {c : Instant o} :
    (delivery o mine).mayAct i cmd c := ⟨formed,by cases cmd <;> trivial⟩

theorem acceptSnapshot_filed (snapshot : RunSnapshot) (T : TaskId) (revision : Nat) (key : String) :
    Triple (delivery o mine) i (fun _ => True) (acceptSnapshot snapshot T revision key) fun _ _ => True := by
  refine .seq (Q := onOk fun _ _ => checkSnapshot snapshot T revision key = .ok ()) (.lift fun c _ _ => ?_) fun _ => ?_
  · cases checked : checkSnapshot snapshot T revision key with
    | error e => trivial
    | ok _ => rfl
  · exact .act (delivery_sound o mine) (fun c _ checked => ⟨trivial,checkSnapshot_ok checked⟩) fun _ _ _ _ => trivial

theorem asks_filed {q : Call} (free : q.isDispatch = false) : Tame (delivery o mine) (ask q : M o q.Reply) :=
  fun _ => .call (delivery_sound o mine) .top (fun _ _ _ => by cases q <;> trivial)
    (fun _ _ _ => trivial) fun _ _ _ _ => trivial

theorem cancelRun_filed (binding : RunBinding) (T : TaskId) (revision : Nat) (key : String) :
    Tame (delivery o mine) (cancelRun binding T revision key : M o RunSnapshot) :=
  .bind (asks_filed rfl) fun _ => .bind (.throws _) fun snapshot => .ite (.throws _) <|
    .bind (fun _ => acceptSnapshot_filed snapshot T revision key) fun _ => .pure _

theorem markUnknown_filed (s : RunSnapshot) (reason : String) :
    Tame (delivery o mine) (markUnknown s s.binding.taskId reason : M o Unit) :=
  .bind (.read _) fun _ _ => .act (delivery_sound o mine) (fun _ _ _ => ⟨trivial,rfl⟩) fun _ _ _ _ => trivial

/-- A computation in between keeps what is known of a token. -/
theorem owned_keeps {α : Type} {m : M o α} {token : Token} (h : Tame (delivery o mine) m) :
    Triple (delivery o mine) i (fun c => ∃ context, c.Happened (draws i token context)) m
      fun _ c => ∃ context, c.Happened (draws i token context) := by
  have lasting : Lasting (delivery o mine) fun c => ∃ context, c.Happened (draws i token context) := by
    intro _ _ _ move known
    obtain ⟨context,drawn⟩ := known
    exact ⟨context,Core.happened_lasting move drawn⟩
  exact (((h i).pre fun _ _ _ => trivial).keep lasting).weaken (fun _ _ known => ⟨known,known⟩) fun _ _ _ q => q.2

theorem delivery_walk (o : Options) (mine : Nat → Prop) : Walk (delivery o mine) (fun _ _ => True)
    fun i token c => ∃ context, c.Happened (draws i token context) where
  sound := delivery_sound o mine
  act _ free formed := delivery_act free formed
  ask {_ q _} _ free := by cases q <;> trivial
  lasting _ _ _ _ _ _ := trivial
  owned i token _ _ _ move known := by
    obtain ⟨context,drawn⟩ := known
    exact ⟨context,Core.happened_lasting move drawn⟩
  drawn {i context token c} issued :=
    ⟨context,(Core.happened_records (c.records_act i (.issue context))).mpr (.inl ⟨rfl,rfl,issued⟩)⟩
  stored filed found := ⟨filed.named _ _ found,trivial⟩
  inspect i s := by
    have asked : Tame (delivery o mine) (do
        let updated ← orThrow (← ask (.inspect s.binding))
        if updated.binding.runId ≠ s.binding.runId then
          refuse (.authority "Inspected engine run changed its registered binding")
        else acceptSnapshot updated s.binding.taskId s.binding.intentRevision s.binding.idempotencyKey : M o Unit) :=
      .bind (asks_filed rfl) fun _ => .bind (.throws _) fun updated => .ite (.throws _) fun _ =>
        acceptSnapshot_filed updated _ _ _
    refine Tame.bind (.settle asked) (fun r => ?_) i
    cases r with
    | ok _ => exact .pure _
    | error e => exact markUnknown_filed s _
  cancel i s := by
    refine Tame.bind (.settle (cancelRun_filed _ _ _ _)) (fun r => ?_) i
    cases r with
    | ok _ => exact .pure _
    | error e => exact markUnknown_filed s _
  stop i s := cancelRun_filed _ _ _ _ i
  submit i intent admission prepared previous := by
    refine .seq (Q := fun _ c => ∃ context, c.Happened (draws i admission.token context))
      (owned_keeps (asks_filed rfl)) fun r => .seq (owned_keeps (.throws _)) fun snapshot =>
      .seq (owned_keeps fun _ => acceptSnapshot_filed snapshot _ _ _) fun _ => ?_
    refine .seq (owned_keeps fun _ => .act (delivery_sound o mine) (fun _ _ _ => ⟨trivial,trivial⟩)
      fun _ _ _ _ => trivial) fun _ => ?_
    refine .seq (Q := fun _ _ => True) (.act (delivery_sound o mine) (fun _ _ drawn => ⟨trivial,drawn⟩)
      fun _ _ _ _ => trivial) fun bound => ?_
    cases bound with
    | ok _ => exact Tame.pure _ i
    | error e =>
      exact Tame.ite (.throws _) (.bind (.settle (cancelRun_filed _ _ _ _)) fun _ => .pure _) i

end walk

/-! ## One poll -/

/-- What a fiber has established before it delivers part `index`. -/
structure Delivering (o : Options) (i : Nat) (token : Token) (context : ToolContext) (peerId : PeerId) (output : String)
    (index : Nat) (c : Instant o) : Prop where
  holding : Holding i token context c
  routed : Routed context.taskId context.intentRevision peerId c
  completed : c.Happened (completes (context.taskId,context.intentRevision) context.runId output)
  verified : PartsVerified o context.taskId context.intentRevision context.runId peerId index c

/-- A payload of part `index`. -/
def Fits (context : ToolContext) (peerId : PeerId) (output : String) (index : Nat) (payload : Json) : Prop :=
  ∃ route : Route, route.peerId = peerId ∧ PartPayload context.runId route output index payload

section poll

variable {mine : Nat → Prop} {i : Nat} {token : Token} {context : ToolContext} {peerId : PeerId} {output : String}
  {index : Nat} {c c' : Instant o}

theorem delivering_stable : Stable (delivery o mine) i (Delivering o i token context peerId output index) := by
  intro who c c' other move ready
  refine ⟨holding_stable i token context other move ready.holding,routed_lasting _ _ _ move ready.routed,
    Core.happened_lasting move ready.completed,fun j before => ?_⟩
  obtain ⟨id,named,verified⟩ := ready.verified j before
  exact ⟨id,named,verified_lasting id move verified⟩

theorem Delivering.extend (ready : Delivering o i token context peerId output index c)
    (records : c.Records c' e) (store : c'.state.store = c.state.store) :
    Delivering o i token context peerId output index c' := by
  refine ⟨⟨ready.holding.1.records records,store ▸ ready.holding.2⟩,?_,ready.completed.records records,
    fun j before => ?_⟩
  · unfold Routed
    rw [store]
    exact ready.routed
  · obtain ⟨id,named,verified⟩ := ready.verified j before
    exact ⟨id,named,verified.extend records store⟩

theorem Delivering.act (ready : Delivering o i token context peerId output index c) (filed : Filed o c) {cmd : Cmd}
    (formed : cmd.Wellformed) (free : cmd.routine = true) : Delivering o i token context peerId output index (c.act i cmd) := by
  obtain ⟨drawn,record,found,same⟩ := ready.holding
  have unbound : ∀ binding, cmd ≠ .bindToken token binding := by
    rintro binding rfl
    cases free
  obtain ⟨record',found',kept⟩ := exec_unbound (o := o) found (filed.drawn i token context drawn) unbound
  refine ⟨⟨drawn.records (c.records_act i cmd),record',found',kept.trans same⟩,
    routed_act filed formed ready.routed,ready.completed.records (c.records_act i cmd),fun j before => ?_⟩
  obtain ⟨id,named,verified⟩ := ready.verified j before
  exact ⟨id,named,verified_act verified⟩

/-- A free commit of the delivering fiber itself. -/
theorem delivering_commit (formed : cmd.Wellformed) (free : cmd.routine = true) :
    Triple (delivery o mine) i (Delivering o i token context peerId output index) (commit cmd)
      (onOk fun _ => Delivering o i token context peerId output index) :=
  .act (delivery_sound o mine) (fun _ _ _ => delivery_act free formed) fun _ filed ready _ => ready.act filed formed free

/-- A token that has just been issued. -/
theorem holding_issued {token : Token} {context : ToolContext}
    (issued : (exec o (.issue context) c.state).1 = .ok token) : Holding i token context (c.act i (.issue context)) := by
  obtain ⟨_,rfl,after⟩ := State.issue_ok (transact_ok issued)
  refine ⟨(Core.happened_records (c.records_act i (.issue context))).mpr (.inl ⟨rfl,rfl,issued⟩),
    { context,expiresAt := c.state.now + o.contextTtl },?_,rfl⟩
  exact (congrArg (fun s : State => s.store.contexts.get c.state.fresh) after).trans (Table.get_put_same _ _ _)

theorem settle_marks {effect : Effect} {result : EffectResult} {settled : Settled}
    (done : (exec o (.settle effect result) c.state).1 = .ok settled) (state : settled.effect.state = .verified) :
    Verified effect.id (c.act i (.settle effect result)) := by
  refine ⟨(Core.happened_records (c.records_act i (.settle effect result))).mpr (.inl ⟨rfl,settled,done,state⟩),.inl ?_⟩
  rcases settle_verified (transact_ok done) with ⟨same,e,found,verified,_⟩ | put
  · refine ⟨e,?_,verified⟩
    rw [← found]
    exact congrArg (fun s : State => s.store.effects.get effect.id) same
  · exact ⟨settled.effect,(congrArg (fun t : Table EffectId Effect => t.get effect.id) put).trans
      (Table.get_put_same _ _ _),state⟩

theorem settle_ordered (effect : Effect) (result : EffectResult) :
    Triple (delivery o mine) i (Delivering o i token context peerId output index) (settle effect result)
      (onOk fun settled c => Delivering o i token context peerId output index c ∧
        (settled.state = .verified → Verified effect.id c)) := by
  refine .bind (Q := onOk fun r c => Delivering o i token context peerId output index c ∧
    ∀ settled : Settled, r = .ok settled → settled.effect.state = .verified → Verified effect.id c)
    (.act (delivery_sound o mine) (fun _ _ _ => ⟨trivial,trivial⟩) fun c filed ready _ =>
      ⟨ready.act filed trivial rfl,fun settled done state => settle_marks done state⟩) (fun r => ?_) fun _ _ _ _ => trivial
  refine .bind (Q := onOk fun settled c => Delivering o i token context peerId output index c ∧
    (settled.effect.state = .verified → Verified effect.id c)) (.lift fun c _ known => ?_) (fun settled => ?_)
    fun _ _ _ _ => trivial
  · cases r with
    | error e => trivial
    | ok settled => exact ⟨known.1,known.2 settled rfl⟩
  · refine .ite (fun _ => ?_) fun _ => .pure fun _ _ known => known
    refine .bind (Q := onOk fun _ c => Delivering o i token context peerId output index c ∧
      (settled.effect.state = .verified → Verified effect.id c)) ?_ (fun _ => .pure fun _ _ known => known)
      fun _ _ _ _ => trivial
    exact .act (delivery_sound o mine) (fun _ _ _ => ⟨trivial,trivial⟩) fun c filed known _ =>
      ⟨known.1.act filed trivial rfl,fun state => verified_act (known.2 state)⟩

/-- The identity of part `index` in this context. -/
def Named (o : Options) (context : ToolContext) (peerId : PeerId) (index : Nat) (id : EffectId) : Prop :=
  partId o context.taskId context.intentRevision context.runId peerId index = .ok id

/-- The request is part `index`: a payload of the part's own, or a record that is there. -/
structure PartRequest (o : Options) (context : ToolContext) (peerId : PeerId) (output : String) (index : Nat)
    (request : EffectRequest) (c : Instant o) : Prop where
  named : effectOperationId o context request = partId o context.taskId context.intentRevision context.runId peerId index
  resource : request.resource = peerId
  payload : Fits context peerId output index request.payload ∨
    ∃ id, Named o context peerId index id ∧ (c.state.store.effects.get id).isSome

theorem prepareEffect_named {s : State} {request : EffectRequest} {prepared : PreparedEffect}
    (h : s.prepareEffect o token request = .ok prepared) :
    effectOperationId o prepared.context request = .ok prepared.id ∧
      prepared.existing = s.store.effects.get prepared.id := by
  unfold State.prepareEffect at h
  split at h
  · contradiction
  obtain ⟨record,_,h⟩ := bind_ok h
  obtain ⟨current,_,h⟩ := bind_ok h
  split at h
  · contradiction
  obtain ⟨_,_,h⟩ := bind_ok h
  obtain ⟨_,_,h⟩ := bind_ok h
  obtain ⟨payload,_,h⟩ := bind_ok h
  obtain ⟨id,named,h⟩ := bind_ok h
  split at h
  · rename_i none'
    cases h
    exact ⟨named,none'.symm⟩
  · rename_i effect found
    split at h
    · contradiction
    · cases h
      exact ⟨named,found.symm⟩

/-- The claimed effect is part `index`, for the task as it stands. -/
structure Claimed (o : Options) (context : ToolContext) (peerId : PeerId) (output : String) (index : Nat)
    (effect : Effect) (c : Instant o) : Prop where
  taskId : effect.taskId = context.taskId
  revision : effect.intentRevision = context.intentRevision
  resource : effect.resource = peerId
  named : Named o context peerId index effect.id
  payload : Fits context peerId output index effect.payload
  current : ∃ intent, c.state.store.tasks.get context.taskId = some intent ∧ intent.revision = context.intentRevision

theorem Delivering.inOrder (ready : Delivering o i token context peerId output index c) {effect : Effect}
    (claimed : Claimed o context peerId output index effect c) : InOrder o effect c := by
  obtain ⟨intent,found,level⟩ := claimed.current
  obtain ⟨intent',found',_,chat⟩ := ready.routed
  cases Option.some.inj (found.symm.trans found')
  refine ⟨context.runId,output,index,⟨?_,?_,?_,intent,?_,?_,?_⟩,?_⟩
  · rw [claimed.taskId,claimed.revision]
    exact ready.completed
  · rw [claimed.taskId,claimed.revision,claimed.resource]
    exact claimed.named
  · rw [claimed.resource]
    exact claimed.payload
  · rw [claimed.taskId]
    exact found
  · rw [claimed.revision]
    exact level
  · rw [claimed.resource]
    exact chat level
  · rw [claimed.taskId,claimed.revision,claimed.resource]
    exact ready.verified

/-- What the execution of part `index` has established when it returns. -/
def Delivered (o : Options) (i : Nat) (token : Token) (context : ToolContext) (peerId : PeerId) (output : String)
    (index : Nat) (effect : Effect) (c : Instant o) : Prop :=
  Delivering o i token context peerId output index c ∧
    (effect.state = .verified → ∃ id, Named o context peerId index id ∧ Verified id c)

/-- What a fiber knows of an execution it has prepared. -/
structure PreparedPart (o : Options) (i : Nat) (token : Token) (context : ToolContext) (peerId : PeerId)
    (output : String) (index : Nat) (request : EffectRequest) (prepared : PreparedEffect) (c : Instant o) : Prop where
  ready : Delivering o i token context peerId output index c
  part : PartRequest o context peerId output index request c
  same : prepared.context = context
  named : Named o context peerId index prepared.id
  existing : prepared.existing = c.state.store.effects.get prepared.id

theorem prepare_ordered {request : EffectRequest} {prepared : PreparedEffect}
    (ready : Delivering o i token context peerId output index c) (part : PartRequest o context peerId output index request c)
    (prepares : c.state.prepareEffect o token request = .ok prepared) :
    PreparedPart o i token context peerId output index request prepared c := by
  obtain ⟨record,found,same⟩ := (prepareEffect_ok prepares).context
  obtain ⟨record',found',own⟩ := ready.holding.2
  cases Option.some.inj (found.symm.trans found')
  obtain ⟨named,existing⟩ := prepareEffect_named prepares
  have context' : prepared.context = context := same.trans own
  refine ⟨ready,part,context',?_,existing⟩
  unfold Named
  rw [← part.named,← context']
  exact named

/-- A claim that goes through makes the part's record under the task as it stands. -/
theorem claim_ordered {request : EffectRequest} {prepared : PreparedEffect} {effect : Effect} (filed : Filed o c)
    (known : PreparedPart o i token context peerId output index request prepared c)
    (claims : (exec o (.claim token prepared.context request prepared.id prepared.payloadHash) c.state).1 = .ok effect) :
    Delivering o i token context peerId output index
        (c.act i (.claim token prepared.context request prepared.id prepared.payloadHash)) ∧
      Claimed o context peerId output index effect
        (c.act i (.claim token prepared.context request prepared.id prepared.payloadHash)) := by
  obtain ⟨⟨current,valid⟩,new,made,after⟩ := State.claim_ok (transact_ok claims)
  obtain ⟨task,_,_,_,level,_⟩ := State.validateContext_ok valid
  refine ⟨known.ready.act filed trivial rfl,?_⟩
  have fits : Fits context peerId output index request.payload := by
    refine known.part.payload.resolve_right fun stored => ?_
    obtain ⟨id,named,there⟩ := stored
    rw [← Except.ok.inj (known.named.symm.trans named),new] at there
    cases there
  rw [known.same] at task level made
  subst made
  refine ⟨rfl,rfl,known.part.resource,known.named,fits,current.1,?_,level⟩
  exact (congrArg (fun s : State => s.store.tasks.get context.taskId) after).trans task

/-- From the claim on: the note and the call are in its segment, so its checks still hold. -/
theorem dispatch_ordered (effect : Effect) :
    Triple (delivery o mine) i (fun c => Delivering o i token context peerId output index c ∧
      Claimed o context peerId output index effect c) (do
        let _ ← commit (.enterFlight effect.id)
        let result ← ask (.dispatch effect token)
        let _ ← commit (.leaveFlight effect.id)
        settle effect (settlement result) : M o Effect)
      (onOk fun settled => Delivered o i token context peerId output index settled) := by
  refine .bind (Q := onOk fun _ c => Delivering o i token context peerId output index c ∧
    Claimed o context peerId output index effect c) (.act (delivery_sound o mine) (fun _ _ _ => ⟨trivial,trivial⟩)
      fun c filed known _ => ⟨known.1.act filed trivial rfl,known.2.taskId,known.2.revision,known.2.resource,
        known.2.named,known.2.payload,known.2.current⟩) (fun _ => ?_) fun _ _ _ _ => trivial
  refine .bind (Q := onOk fun _ c => Delivering o i token context peerId output index c ∧
    Named o context peerId index effect.id) (.call (A := fun c => Delivering o i token context peerId output index c ∧
      Named o context peerId index effect.id) (delivery_sound o mine)
      (delivering_stable.and fun _ _ _ _ _ named => named) (fun c _ known _ => known.1.inOrder known.2)
      (fun c _ known => ⟨known.1.extend (Core.records_call _ _ _) rfl,known.2.named⟩)
      fun c r _ known => ⟨known.1.extend (Core.records_reply _ _ _ r) rfl,known.2⟩) (fun result => ?_) fun _ _ _ _ => trivial
  refine .named fun c₀ _ known => ?_
  have rest : Triple (delivery o mine) i (Delivering o i token context peerId output index) (do
      let _ ← commit (.leaveFlight effect.id)
      settle effect (settlement result) : M o Effect)
      (onOk fun settled c => Delivering o i token context peerId output index c ∧
        (settled.state = .verified → Verified effect.id c)) :=
    .bind (delivering_commit trivial rfl) (fun _ => settle_ordered effect _) fun _ _ _ _ => trivial
  refine rest.weaken (fun c _ same => same ▸ known.1) fun r c _ done => ?_
  cases r with
  | error e => trivial
  | ok settled => exact ⟨done.1,fun verified => ⟨effect.id,known.2,done.2 verified⟩⟩

theorem executeBound_ordered {request : EffectRequest} :
    Triple (delivery o mine) i (fun c => Delivering o i token context peerId output index c ∧
      PartRequest o context peerId output index request c) (executeBound token request)
      (onOk fun effect => Delivered o i token context peerId output index effect) := by
  refine .bind (Q := onOk fun prepared c => PreparedPart o i token context peerId output index request prepared c)
    (.check fun c _ known => ?_) (fun prepared => ?_) fun _ _ _ _ => trivial
  · cases prepares : c.state.prepareEffect o token request with
    | error e => trivial
    | ok prepared => exact prepare_ordered known.1 known.2 prepares
  cases existing : prepared.existing with
  | some effect =>
    refine .pure fun c filed known => ⟨known.ready,fun verified => ⟨prepared.id,known.named,?_⟩⟩
    have found := known.existing.symm.trans existing
    exact ⟨filed.verified _ effect found verified,.inl ⟨effect,found,verified⟩⟩
  | none =>
    refine .bind (Q := onOk fun r c => ∀ effect, r = .ok effect → Delivering o i token context peerId output index c ∧
      Claimed o context peerId output index effect c) (.act (delivery_sound o mine) (fun _ _ _ => ⟨trivial,trivial⟩)
        fun c filed known _ effect claims => claim_ordered filed known claims) (fun r => ?_) fun _ _ _ _ => trivial
    refine .bind (Q := onOk fun effect c => Delivering o i token context peerId output index c ∧
      Claimed o context peerId output index effect c) (.lift fun c _ known => ?_) (fun effect => dispatch_ordered effect)
      fun _ _ _ _ => trivial
    cases r with
    | error e => trivial
    | ok effect => exact known effect rfl

theorem executeDelivery_ordered {request : EffectRequest} :
    Triple (delivery o mine) i (fun c => Delivering o i token context peerId output index c ∧
      PartRequest o context peerId output index request c) (executeDelivery token request)
      (onOk fun effect => Delivered o i token context peerId output index effect) := by
  refine .bind (Q := onOk fun _ c => Delivering o i token context peerId output index c ∧
    PartRequest o context peerId output index request c) (.check fun c _ known => ?_) (fun _ => executeBound_ordered)
    fun _ _ _ _ => trivial
  unfold onOk
  split
  · exact known
  · trivial

theorem delivered_stable (effect : Effect) :
    Stable (delivery o mine) i (Delivered o i token context peerId output index effect) := by
  intro who c c' other move delivered
  refine ⟨delivering_stable other move delivered.1,fun verified => ?_⟩
  obtain ⟨id,named,before⟩ := delivered.2 verified
  exact ⟨id,named,verified_lasting id move before⟩

theorem acknowledgementReplacement_ordered (intent : TaskIntent) :
    Triple (delivery o mine) i (Delivering o i token context peerId output index) (acknowledgementReplacement intent)
      (onOk fun _ => Delivering o i token context peerId output index) := by
  refine .ite (fun _ => .pure fun _ _ ready => ready) fun _ => ?_
  refine .bind (Q := onOk fun _ => Delivering o i token context peerId output index) (.check fun c _ ready => ?_)
    (fun sent => ?_) fun _ _ _ _ => trivial
  · unfold onOk
    split
    · exact ready
    · trivial
  cases sent with
  | none => exact .pure fun _ _ ready => ready
  | some sent =>
    refine .bind (Q := onOk fun _ => Delivering o i token context peerId output index)
      (.call (delivery_sound o mine) delivering_stable (fun _ _ _ => trivial)
        (fun c _ ready => ready.extend (Core.records_call _ _ _) rfl)
        fun c r _ ready => ready.extend (Core.records_reply _ _ _ r) rfl) (fun answer => ?_) fun _ _ _ _ => trivial
    cases answer with
    | error e => exact .pure fun _ _ ready => ready
    | ok current =>
      cases current with
      | none => exact .pure fun _ _ ready => ready
      | some current => exact .ite (fun _ => .pure fun _ _ ready => ready) fun _ => .pure fun _ _ ready => ready

/-- The send of a part, whatever its payload is made of. -/
theorem sendPart_ordered {route : Route} {total : Nat} {part : String}
    (routed : route.peerId = peerId) :
    Triple (delivery o mine) i (fun c => Delivering o i token context peerId output index c ∧
      (Fits context peerId output index payload ∨ ∃ id, Named o context peerId index id ∧
        (c.state.store.effects.get id).isSome))
      (Async.await (executeDelivery token { deliveryRequest context.runId route total index part with payload }))
      (onOk fun effect => Delivered o i token context peerId output index effect) := by
  refine .await (delivery_sound o mine) (executeDelivery_ordered.pre fun c _ known => ⟨known.1,?_,routed,known.2⟩) ?_
  · subst routed
    rfl
  · intro r
    cases r with
    | ok effect => exact delivered_stable effect
    | error e => exact .top

theorem deliverPart_ordered (intent : TaskIntent) {route : Route} {part : String} (routed : route.peerId = peerId)
    (listed : (deliveryParts output deliveryLimit)[index]? = some part) :
    Triple (delivery o mine) i (Delivering o i token context peerId output index)
      (deliverPart token intent (deliveryRequest context.runId route (deliveryParts output deliveryLimit).length index
        part) index) (onOk fun effect => Delivered o i token context peerId output index effect) := by
  let request := deliveryRequest context.runId route (deliveryParts output deliveryLimit).length index part
  refine .bind (Q := onOk fun previous c => Delivering o i token context peerId output index c ∧
    (previous.isSome → ∃ id, Named o context peerId index id ∧ (c.state.store.effects.get id).isSome))
    (.check fun c _ ready => ?_) (fun previous => ?_) fun _ _ _ _ => trivial
  · unfold onOk
    split
    · rename_i previous found
      obtain ⟨record,resolved,rest⟩ := bind_ok found
      obtain ⟨id,named,done⟩ := bind_ok rest
      cases done
      obtain ⟨record',stored,own⟩ := ready.holding.2
      cases Option.some.inj ((State.resolve_ok resolved).1.symm.trans stored)
      refine ⟨ready,fun there => ⟨id,?_,there⟩⟩
      subst own routed
      exact named
    · trivial
  cases previous with
  | some effect =>
    refine .bind (Q := onOk fun payload c => Delivering o i token context peerId output index c ∧
      ∃ id, Named o context peerId index id ∧ (c.state.store.effects.get id).isSome)
      (.pure fun c _ known => ⟨known.1,known.2 rfl⟩) (fun payload => ?_) fun _ _ _ _ => trivial
    exact (sendPart_ordered routed).pre fun c _ known => ⟨known.1,.inr known.2⟩
  | none =>
    have fits : ∀ replacement : Option Json, Fits context peerId output index
        ((replacement.map (withReplacement request.payload)).getD request.payload) := by
      intro replacement
      refine ⟨route,routed,part,listed,?_⟩
      cases replacement with
      | none => exact .inl rfl
      | some replacement => exact .inr ⟨replacement,rfl⟩
    have send : ∀ replacement : Option Json, Triple (delivery o mine) i
        (Delivering o i token context peerId output index) (do
          let payload ← pure ((replacement.map (withReplacement request.payload)).getD request.payload)
          Async.await (executeDelivery token { request with payload }) : M o Effect)
        (onOk fun effect => Delivered o i token context peerId output index effect) := fun replacement =>
      .bind (Q := onOk fun payload c => Delivering o i token context peerId output index c ∧
          Fits context peerId output index payload) (.pure fun _ _ ready => ⟨ready,fits replacement⟩)
        (fun payload => (sendPart_ordered routed).pre fun c _ known => ⟨known.1,.inl known.2⟩) fun _ _ _ _ => trivial
    refine .ite (fun _ => ?_) fun _ => ?_
    · refine .bind (Q := onOk fun _ => Delivering o i token context peerId output index)
        (.await (delivery_sound o mine) ((acknowledgementReplacement_ordered intent).pre fun _ _ known => known.1) fun r => ?_)
        (fun replacement => send replacement)
        fun _ _ _ _ => trivial
      cases r with
      | ok _ => exact delivering_stable
      | error e => exact .top
    · exact .bind (Q := onOk fun _ => Delivering o i token context peerId output index) (.pure fun _ _ known => known.1)
        (fun replacement => send replacement) fun _ _ _ _ => trivial

theorem Delivered.next {effect : Effect} (delivered : Delivered o i token context peerId output index effect c)
    (verified : effect.state = .verified) : Delivering o i token context peerId output (index + 1) c := by
  refine ⟨delivered.1.holding,delivered.1.routed,delivered.1.completed,fun j before => ?_⟩
  rcases Nat.lt_succ_iff_lt_or_eq.mp before with earlier | rfl
  · exact delivered.1.verified j earlier
  · exact delivered.2 verified

/-- The parts go out one by one, each after the one before it is verified. -/
theorem deliverFrom_ordered (intent : TaskIntent) (routed : intent.route.peerId = peerId) (rest : List String) :
    ∀ index, (deliveryParts output deliveryLimit).drop index = rest →
      Triple (delivery o mine) i (Delivering o i token context peerId output index)
        (deliverFrom token intent context.runId (deliveryParts output deliveryLimit).length index rest)
        fun _ _ => True := by
  induction rest with
  | nil => exact fun _ _ => .pure fun _ _ _ => trivial
  | cons part rest ih =>
    intro index remaining
    have listed : (deliveryParts output deliveryLimit)[index]? = some part := by
      rw [← Nat.add_zero index,← List.getElem?_drop,remaining]
      rfl
    have remaining' : (deliveryParts output deliveryLimit).drop (index + 1) = rest := by
      rw [← drop_drop,remaining]
      rfl
    refine .seq (Q := onOk fun r => onOk (fun effect => Delivered o i token context peerId output index effect) r)
      (.settle (deliverPart_ordered intent routed listed)) fun r => ?_
    cases r with
    | error e => exact .ite (fun _ => .pure fun _ _ _ => trivial) fun _ => .lift fun _ _ _ => trivial
    | ok effect =>
      refine .ite (fun _ => .pure fun _ _ _ => trivial) fun state => ?_
      refine .seq ((ih (index + 1) remaining').pre fun c _ delivered => ?_) fun others => .pure fun _ _ _ => trivial
      exact Delivered.next delivered (not_not.mp state)

/-- What a listed status says about the store it was read from. -/
structure Offered (status : TaskStatus) (c : Instant o) : Prop where
  output : ∀ binding text, status.deliverable = some (binding,text) →
    binding.admissionKey = (status.intent.id,status.intent.revision) ∧
      c.Happened (completes binding.admissionKey binding.runId text)
  routed : Routed status.intent.id status.intent.revision status.intent.route.peerId c

theorem offered_lasting (status : TaskStatus) : Lasting (delivery o mine) (Offered status) := by
  intro who c c' move offered
  refine ⟨fun binding text listed => ?_,routed_lasting _ _ _ move offered.routed⟩
  obtain ⟨named,completed⟩ := offered.output binding text listed
  exact ⟨named,Core.happened_lasting move completed⟩

theorem offered_listed (filed : Filed o c) {status : TaskStatus} (member : status ∈ c.state.status o) :
    Offered status c := by
  unfold State.status at member
  obtain ⟨intent,listed,rfl⟩ := mem_map.mp member
  obtain ⟨T,found⟩ := Table.mem_list.mp (mem_filter.mp listed).1
  obtain rfl : intent.id = T := (filed.valid.task T intent found).1
  refine ⟨fun binding text deliverable => ?_,intent,found,Nat.le_refl _,fun _ => rfl⟩
  unfold TaskStatus.deliverable at deliverable
  split at deliverable
  · contradiction
  rename_i run stored
  split at deliverable
  · contradiction
  rename_i output told
  split at deliverable
  · contradiction
  rename_i open'
  simp only [not_or,not_not] at open'
  cases Option.some.inj deliverable
  have key : run.binding.admissionKey = (intent.id,intent.revision) := filed.named _ _ stored
  refine ⟨key,?_⟩
  rw [key]
  exact filed.recorded _ _ _ stored open'.2.2.1 told

/-- The token of a delivery is drawn for the run it delivers. -/
theorem issueToolContext_ordered (binding : RunBinding) (lasting : Lasting (delivery o mine) A) :
    Triple (delivery o mine) i A (issueToolContext binding) (onOk fun token c => A c ∧ ∃ context : ToolContext,
      Holding i token context c ∧ context.taskId = binding.taskId ∧ context.intentRevision = binding.intentRevision ∧
      context.runId = binding.runId) := by
  have drawing : Triple (delivery o mine) i (fun _ => True) (issueToolContext binding)
      (onOk fun token c => ∃ context : ToolContext, Holding i token context c ∧ context.taskId = binding.taskId ∧
        context.intentRevision = binding.intentRevision ∧ context.runId = binding.runId) := by
    refine .bind (Q := onOk fun context _ => context.taskId = binding.taskId ∧
      context.intentRevision = binding.intentRevision ∧ context.runId = binding.runId)
      (.check fun c filed _ => ?_) (fun context => ?_) fun _ _ _ _ => trivial
    · unfold onOk
      split
      · rename_i context made
        split at made
        · obtain ⟨intent,task,made⟩ := bind_ok made
          obtain ⟨grant,_,made⟩ := bind_ok made
          cases made
          exact ⟨(filed.valid.task _ _ (State.requireTask_ok task)).1,rfl,rfl⟩
        · contradiction
      · trivial
    · refine .bind (Q := onOk fun r c => ∀ token, r = .ok token → ∃ context : ToolContext, Holding i token context c ∧
        context.taskId = binding.taskId ∧ context.intentRevision = binding.intentRevision ∧
        context.runId = binding.runId) (.act (delivery_sound o mine) (fun _ _ _ => ⟨trivial,trivial⟩)
          fun c _ named _ token issued => ⟨context,holding_issued issued,named⟩) (fun r => ?_) fun _ _ _ _ => trivial
      refine .lift fun c _ known => ?_
      cases r with
      | ok token => exact known token rfl
      | error e => trivial
  refine (drawing.keep lasting).weaken (fun _ _ a => ⟨trivial,a⟩) fun r c _ known => ?_
  cases r with
  | ok token => exact ⟨known.2,known.1⟩
  | error e => trivial

theorem deliver_ordered (status : TaskStatus) :
    Triple (delivery o mine) i (Offered status) (deliver status) fun _ _ => True := by
  unfold deliver
  cases deliverable : status.deliverable with
  | none => exact .pure fun _ _ _ => trivial
  | some pair =>
    obtain ⟨binding,output⟩ := pair
    have free : ∀ {α : Type} {m : M o α}, Tame (delivery o mine) m →
        Triple (delivery o mine) i (Offered status) m fun _ => Offered status := fun tame =>
      (((tame i).pre fun _ _ _ => trivial).keep (offered_lasting status)).weaken (fun _ _ a => ⟨a,a⟩) fun _ _ _ q => q.2
    refine .seq (free (.require _)) fun grant => .seq (free (.read _)) fun passed =>
      .ite (fun _ => .pure fun _ _ _ => trivial) fun _ => ?_
    refine .seq (issueToolContext_ordered binding (offered_lasting status)) fun token => .named fun c _ known => ?_
    obtain ⟨offered,context,holding,taskId,revision,runId⟩ := known
    obtain ⟨named,completed⟩ := offered.output binding output deliverable
    have key : (context.taskId,context.intentRevision) = (status.intent.id,status.intent.revision) := by
      rw [taskId,revision]
      exact named
    have ready : Delivering o i token context status.intent.route.peerId output 0 c := by
      refine ⟨holding,?_,?_,fun j before => absurd before (Nat.not_lt_zero j)⟩
      · have T : context.taskId = status.intent.id := congrArg Prod.fst key
        have reached : context.intentRevision = status.intent.revision := congrArg Prod.snd key
        rw [T,reached]
        exact offered.routed
      · rw [key,runId,← named]
        exact completed
    rw [← runId]
    exact (deliverFrom_ordered status.intent rfl _ 0 rfl).pre fun _ _ same => same ▸ ready

/-- Every dispatch of a poll is the next part of some completed run. -/
theorem poll_ordered (o : Options) (mine : Nat → Prop) (i : Nat) :
    Triple (delivery o mine) i (fun _ => True) (poll : M o PollResult) fun _ _ => True := by
  have walk := delivery_walk o mine
  have keeps : ∀ statuses : List TaskStatus, Lasting (delivery o mine) fun c => ∀ status ∈ statuses, Offered status c :=
    fun statuses => Lasting.forall fun status => (offered_lasting status).imp
  refine .seq (walk.awaits walk.start i) fun _ => .seq (walk.awaits walk.recoverEffects i) fun _ =>
    .seq (walk.refreshRuns i) fun _ => .seq (walk.stopOpenChildren _ i) fun _ =>
    .seq (walk.awaits walk.resumeSettledCorrections i) fun _ => ?_
  refine .seq (Q := onOk fun (statuses : List TaskStatus) c => ∀ status ∈ statuses, Offered status c)
    (.look fun c filed _ status member => offered_listed filed member) fun statuses => ?_
  refine .seq (Q := fun _ _ => True) ?_ fun deliveries => Tame.bind (.read _) (fun _ => .pure _) i
  refine (Triple.gather (E := fun _ _ => True) fun status member => ?_).post fun _ _ _ _ => trivial
  refine (((deliver_ordered status).pre fun c _ (known : ∀ status ∈ statuses, Offered status c) =>
    known status member).keep (keeps statuses)).weaken (fun _ _ known => ⟨known,known⟩) fun r c _ known => ?_
  cases r with
  | ok _ => exact known.2
  | error e => trivial

end poll

/-! ## Runs -/

theorem boot_filed (o : Options) (now : Time) (policy : Policy) : Filed o ⟨State.boot now policy,[]⟩ := by
  refine ⟨(boot_orderly o now policy).authority,?_,?_,?_,?_,?_⟩ <;> simp [State.boot,Core.Happened]

theorem delivery_safe (op : Op) (i : Nat) (c : Instant o) (_free : ¬(delivery o fun _ => False).taken i)
    (filed : (delivery o fun _ => False).inv c) : Safe (delivery o fun _ => False) i (body o op) c :=
  ((delivery_walk o _).program (fun {_ q _} _ => by cases q <;> first | trivial | exact fun no => no.elim) op i).safe
    filed trivial

theorem Reachable.filed {w : World (agent o)} (reachable : Reachable o w) :
    w.Governed (delivery o fun _ => False) := by
  obtain ⟨now,policy,run⟩ := reachable
  have boot : (World.initial (S := agent o) (State.boot now policy)).Governed (delivery o fun _ => False) :=
    World.initial_governed (boot_filed o now policy) fun _ no => no
  exact boot.leads (delivery_sound o _) delivery_safe run

variable {w w' : World (agent o)}

/-- A poll begun anywhere dispatches part after part. -/
theorem poll_in_order (reachable : Reachable o w) (idle : w.stack = [])
    (run : World.Leads (body o) (w.begin (body o .poll)) w') {effect : Effect} {token : Token}
    (calling : w'.calling = some (w.next,.dispatch effect token)) : InOrder o effect w'.core := by
  let mine : Nat → Prop := fun i => i = w.next
  have safe : Safe (delivery o mine) w.next (body o .poll) w.core :=
    ((Triple.seq (poll_ordered o mine w.next) fun _ => .pure fun _ _ _ => trivial :
      Triple (delivery o mine) w.next (fun _ => True) (discard poll) fun _ _ => True)).safe reachable.filed.inv trivial
  have governed := reachable.filed.begun (delivery_sound o _) delivery_safe idle (Tightens.delivery o mine)
    (fun _ own => own) safe run
  exact governed.calling calling rfl

theorem routed_change {revision : Nat}
 (change : Change (delivery o mine) ok c c') (routed : Routed T revision peerId c) :
    Routed T revision peerId c' := by
  cases change with
  | act i cmd filed may _ => exact routed_act filed may.1 routed
  | call | reply | crash => exact routed
  | shock x => cases x <;> exact routed

/-- A part that has been dispatched is not dispatched again, by this poll or another. -/
theorem part_once {effect again : Effect} {token token' : Token}
    {output output' : String} (reachable : Reachable o w)
    (calling : w.calling = some (i,.dispatch effect token)) (part : PartOf o effect runId output index w.core)
    (stepped : w.advance = some w') (run : World.Leads (body o) w' last)
    (calling' : last.calling = some (j,.dispatch again token')) (part' : PartOf o again runId output' index last.core) :
    (again.taskId,again.intentRevision) ≠ (effect.taskId,effect.intentRevision) := by
  intro key
  have T : again.taskId = effect.taskId := congrArg Prod.fst key
  have revision : again.intentRevision = effect.intentRevision := congrArg Prod.snd key
  have whole : World.Leads (body o) w last := .head ⟨.run,stepped⟩ run
  have routed : Routed effect.taskId effect.intentRevision effect.resource w.core := by
    obtain ⟨intent,found,level,chat⟩ := part.routed
    exact ⟨intent,found,Nat.le_of_eq level.symm,fun _ => chat⟩
  have there : Routed effect.taskId effect.intentRevision effect.resource last.core :=
    (reachable.filed.leadsIf (delivery_sound o _) delivery_safe whole.always).2.keeps
      (fun _ _ change => routed_change change) routed
  have resource : again.resource = effect.resource := by
    obtain ⟨intent,found,_,chat⟩ := there
    obtain ⟨intent',found',level,chat'⟩ := part'.routed
    rw [T,found] at found'
    cases Option.some.inj found'
    rw [← chat']
    exact chat (level.trans revision)
  have same : again.id = effect.id := by
    have named := part'.named
    rw [T,revision,resource] at named
    exact Except.ok.inj (named.symm.trans part.named)
  have dispatched : last.core.Happened (dispatches effect.id ·) := by
    refine ⟨.call i (Call.dispatch effect token),run.trace.mem ?_,by simp [dispatches]⟩
    rw [World.advance_calling calling stepped]
    exact mem_cons_self
  exact ((reachable.leads whole).governed.calling calling').1 (same ▸ dispatched)

/-- The engine completes what is submitted to it at once. -/
def completing : (q : Call) → Option q.Reply
  | .submit input => some (.ok { binding := input.binding,state := .completed,observedAt := some 0,output := some "ok" })
  | _ => none

/-- The owner's command has been carried out, and a poll is about to send the answer. -/
def carriedOut : List (Choice (agent .plain) Op) :=
  [.invoke (.ingest (spoken "7" "a" "/бро x")),.resume 1 capable,.resume 0 completing]

def sendsPart (w : World (agent .plain)) (i : Nat) : Bool :=
  match w.calling with
  | some (j,.dispatch _ _) => j = i
  | _ => false

theorem sendsPart_calling {w : World (agent .plain)} (held : sendsPart w i) :
    ∃ effect token, w.calling = some (i,.dispatch effect token) := by
  unfold sendsPart at held
  split at held
  · rename_i j effect token calling
    cases of_decide_eq_true held
    exact ⟨effect,token,calling⟩
  · cases held

end Neurobro.Agent
