import Mathlib.Data.List.Perm.Subperm
import Neurobro.Coop.Runs
import Neurobro.Ingestor.Program

/-! One process at a time works on the sources, one batch at a time; everything else only adds what waits. -/
namespace Neurobro.Ingestor

open Coop List

section Rules
variable {config : Config} {c c' : Core (ingestor config)} {i j k : Nat} {s : State}

/-- This fiber began the process of this number. -/
def Begun (c : Core (ingestor config)) (i k : Nat) : Prop :=
  ∃ listen, Event.act (S := ingestor config) i (.begin listen) (some k) ∈ c.trace

/-- The process that is running is this fiber's. -/
def Mine (i : Nat) (c : Core (ingestor config)) : Prop := ∃ k, c.state.running = some k ∧ Begun c i k

def ExportedMessage.key (e : ExportedMessage) : String × Int := (e.sourceId,e.messageId)

def State.exported (s : State) : List (String × Int) := s.sink.map ExportedMessage.key

/-- The largest number of the messages. -/
def Tops (last : Int) (messages : List Message) : Prop := (∀ m ∈ messages, m.id ≤ last) ∧ ∃ m ∈ messages, m.id = last

theorem maximum_tops {messages : List Message} (some_ : messages ≠ []) : Tops (maximum messages) messages := by
  cases largest : (messages.map Message.id).max? with
  | none => exact absurd (map_eq_nil_iff.mp (List.max?_eq_none_iff.mp largest)) some_
  | some last =>
    obtain ⟨member,above⟩ := List.max?_eq_some_iff.mp largest
    have is_ : maximum messages = last := by simp [maximum,largest]
    rw [is_]
    obtain ⟨m,mem,same⟩ := mem_map.mp member
    exact ⟨fun m mem => above _ (mem_map_of_mem mem),m,mem,same⟩

theorem Tops.perm {messages others : List Message} (tops : Tops last messages) (perm : messages.Perm others) :
    Tops last others := by
  obtain ⟨above,m,member,is_⟩ := tops
  exact ⟨fun m member => above m (perm.mem_iff.mpr member),m,perm.mem_iff.mp member,is_⟩

theorem ordered_perm (messages : List Message) : (ordered messages).Perm messages := mergeSort_perm messages _

/-- What the running process may do, by what it has in hand. -/
def Allowed (config : Config) : Cmd → State → Prop
  | .adopt,s => s.memory = none
  | .receive _ _,s => s.hand = none
  | .shift,s => s.hand = none
  | .turn,s => s.hand = none
  | .pass source m,s => s.hand = some ⟨source,[m],.taken⟩
  | .append batch,s => ∃ h, s.hand = some h ∧ h.stage = .passed ∧ (batch.map ExportedMessage.key).Subperm h.keys
  | .advance source last,s => ∃ h, s.hand = some h ∧ h.stage ≠ .taken ∧ h.source = source ∧ Tops last h.messages ∧
      ∃ now ≤ s.now, ∀ m ∈ h.messages, config.recent now m = true → (source,m.id) ∈ s.exported
  | .skip source last,s => ∃ h, s.hand = some h ∧ h.stage = .passed ∧ h.source = source ∧ Tops last h.messages
  | .write content,s => s.memory = some content
  | _,_ => True

/-- What anyone may do. -/
def Cmd.free : Cmd → Bool
  | .begin _ => true
  | .arrive _ => true
  | .live => true
  | .stop => true
  | _ => false

def discipline (config : Config) : Rules (ingestor config) where
  inv c := (∀ i k, Begun c i k → k < c.state.begun) ∧ (∀ i j k, Begun c i k → Begun c j k → i = j) ∧
    (c.state.running = none → c.state.hand = none)
  mayAct i cmd c := Cmd.free cmd = true ∨ Mine i c ∧ Allowed config cmd c.state
  mayCall _ _ _ := True

theorem begun_cons {state : State} :
    Begun (⟨state,e :: c.trace⟩ : Core (ingestor config)) i k ↔ (∃ listen, e = .act i (.begin listen) (some k)) ∨ Begun c i k := by
  unfold Begun
  constructor
  · rintro ⟨listen,member⟩
    obtain same | old := mem_cons.mp member
    · exact .inl ⟨listen,same.symm⟩
    · exact .inr ⟨listen,old⟩
  · rintro (⟨listen,rfl⟩ | ⟨listen,old⟩)
    · exact ⟨listen,mem_cons_self⟩
    · exact ⟨listen,mem_cons_of_mem _ old⟩

theorem begun_same {state : State} (other : ∀ i listen k, e ≠ .act i (.begin listen) (some k)) :
    Begun (⟨state,e :: c.trace⟩ : Core (ingestor config)) i k ↔ Begun c i k := by
  rw [begun_cons]
  exact or_iff_right fun ⟨listen,is_⟩ => other i listen k is_

/-! What a command leaves as it is. -/

theorem handler_fields (m : Message) : (handler config m s).running = s.running ∧ (handler config m s).memory = s.memory ∧
    (handler config m s).begun = s.begun ∧ (handler config m s).sink = s.sink ∧ (handler config m s).now = s.now ∧
    (handler config m s).hand = s.hand := by
  simp only [handler,enqueue]
  split
  · split <;> exact ⟨rfl,rfl,rfl,rfl,rfl,rfl⟩
  · exact ⟨rfl,rfl,rfl,rfl,rfl,rfl⟩

theorem exec_running (cmd : Cmd) (other : ∀ listen, cmd ≠ .begin listen) :
    (exec config cmd s).2.running = s.running ∧ (exec config cmd s).2.begun = s.begun := by
  cases cmd with
  | begin listen => exact absurd rfl (other listen)
  | shift =>
    simp only [exec]
    split <;> exact ⟨rfl,rfl⟩
  | turn =>
    simp only [exec]
    split <;> exact ⟨rfl,rfl⟩
  | pass source m =>
    simp only [exec]
    split <;> exact ⟨rfl,rfl⟩
  | arrive m =>
    simp only [exec]
    split
    · exact ⟨(handler_fields m).1,(handler_fields m).2.2.1⟩
    · exact ⟨rfl,rfl⟩
  | adopt => exact ⟨rfl,rfl⟩
  | receive source messages => exact ⟨rfl,rfl⟩
  | append batch => exact ⟨rfl,rfl⟩
  | advance source last => exact ⟨rfl,rfl⟩
  | skip source last => exact ⟨rfl,rfl⟩
  | write content => exact ⟨rfl,rfl⟩
  | live => exact ⟨rfl,rfl⟩
  | stop => exact ⟨rfl,rfl⟩

/-- The free commands leave the hand and the state object of a running process. -/
theorem exec_free (free : Cmd.free cmd = true) (runs : s.running ≠ none) :
    (exec config cmd s).2.running = s.running ∧ (exec config cmd s).2.hand = s.hand ∧ (exec config cmd s).2.memory = s.memory := by
  cases cmd with
  | begin listen =>
    simp only [exec]
    split
    · rename_i idle
      exact absurd idle runs
    · exact ⟨rfl,rfl,rfl⟩
  | arrive m =>
    simp only [exec]
    split
    · exact ⟨(handler_fields m).1,(handler_fields m).2.2.2.2.2,(handler_fields m).2.1⟩
    · exact ⟨rfl,rfl,rfl⟩
  | live => exact ⟨rfl,rfl,rfl⟩
  | stop => exact ⟨rfl,rfl,rfl⟩
  | adopt => cases free
  | receive source messages => cases free
  | shift => cases free
  | turn => cases free
  | pass source m => cases free
  | append batch => cases free
  | advance source last => cases free
  | skip source last => cases free
  | write content => cases free

theorem exec_sink (cmd : Cmd) : ∀ d ∈ s.exported, d ∈ (exec config cmd s).2.exported := by
  intro d member
  cases cmd with
  | append batch =>
    simp only [State.exported,exec,map_append]
    exact mem_append_left _ member
  | begin listen =>
    simp only [exec]
    split <;> exact member
  | shift =>
    simp only [exec]
    split <;> exact member
  | turn =>
    simp only [exec]
    split <;> exact member
  | pass source m =>
    simp only [exec]
    split <;> exact member
  | arrive m =>
    simp only [exec]
    split
    · simp only [State.exported,(handler_fields m).2.2.2.1]
      exact member
    · exact member
  | adopt => exact member
  | receive source messages => exact member
  | advance source last => exact member
  | skip source last => exact member
  | write content => exact member
  | live => exact member
  | stop => exact member

theorem exec_now (cmd : Cmd) : (exec config cmd s).2.now = s.now := by
  cases cmd with
  | begin listen =>
    simp only [exec]
    split <;> rfl
  | shift =>
    simp only [exec]
    split <;> rfl
  | turn =>
    simp only [exec]
    split <;> rfl
  | pass source m =>
    simp only [exec]
    split <;> rfl
  | arrive m =>
    simp only [exec]
    split
    · exact (handler_fields m).2.2.2.2.1
    · rfl
  | append batch => rfl
  | adopt => rfl
  | receive source messages => rfl
  | advance source last => rfl
  | skip source last => rfl
  | write content => rfl
  | live => rfl
  | stop => rfl

theorem act_inv (inv : (discipline config).inv c) (may : (discipline config).mayAct i cmd c) :
    (discipline config).inv (c.act i cmd) := by
  obtain ⟨bound,unique,empty⟩ := inv
  by_cases begins : ∃ listen, cmd = .begin listen
  · obtain ⟨listen,rfl⟩ := begins
    cases runs : c.state.running with
    | some k =>
      have same : exec config (.begin listen) c.state = (none,c.state) := by
        simp only [exec,runs]
        rfl
      have begun : ∀ j k, Begun (c.act i (Cmd.begin listen)) j k → Begun c j k := by
        intro j k held
        obtain ⟨_,is_⟩ | old := begun_cons.mp held
        · simp only [ingestor,same] at is_
          cases is_
        · exact old
      have state : (c.act i (Cmd.begin listen)).state = c.state := by simp [Core.act,ingestor,same]
      refine ⟨fun j k held => ?_,fun a b k first second => unique a b k (begun a k first) (begun b k second),?_⟩
      · rw [state]
        exact bound j k (begun j k held)
      · rw [state]
        exact empty
    | none =>
      have fresh : exec config (.begin listen) c.state = (some c.state.begun,{ c.state with
          running := some c.state.begun, begun := c.state.begun + 1, listening := listen, buffering := listen }) := by
        simp only [exec,runs]
      have begun : ∀ j k, Begun (c.act i (Cmd.begin listen)) j k → (j = i ∧ k = c.state.begun) ∨ Begun c j k := by
        intro j k held
        obtain ⟨_,is_⟩ | old := begun_cons.mp held
        · simp only [ingestor,fresh] at is_
          cases is_
          exact .inl ⟨rfl,rfl⟩
        · exact .inr old
      have state : (c.act i (Cmd.begin listen)).state.begun = c.state.begun + 1 ∧
          (c.act i (Cmd.begin listen)).state.running = some c.state.begun := by simp [Core.act,ingestor,fresh]
      refine ⟨fun j k held => ?_,fun a b k first second => ?_,fun no => ?_⟩
      · rw [state.1]
        obtain ⟨_,rfl⟩ | old := begun j k held
        · exact Nat.lt_succ_self _
        · exact Nat.lt_succ_of_lt (bound j k old)
      · obtain ⟨mine,new⟩ | old := begun a k first
        · obtain ⟨too,_⟩ | older := begun b k second
          · rw [mine,too]
          · exact absurd (bound b k older) (by rw [new]; exact Nat.lt_irrefl _)
        · obtain ⟨_,new⟩ | older := begun b k second
          · exact absurd (bound a k old) (by rw [new]; exact Nat.lt_irrefl _)
          · exact unique a b k old older
      · rw [state.2] at no
        cases no
  · have other : ∀ listen, cmd ≠ .begin listen := fun listen is_ => begins ⟨listen,is_⟩
    have begun : ∀ j k, Begun (c.act i cmd) j k ↔ Begun c j k := fun j k => begun_same fun _ listen _ is_ => other listen (Event.act.inj is_).2.1
    have same : (exec config cmd c.state).2.running = c.state.running ∧ (exec config cmd c.state).2.begun = c.state.begun :=
      exec_running cmd other
    obtain ⟨running,number⟩ := same
    refine ⟨fun j k held => ?_,fun a b k first second => unique a b k ((begun a k).mp first) ((begun b k).mp second),fun no => ?_⟩
    · have kept : (c.act i cmd).state.begun = c.state.begun := number
      rw [kept]
      exact bound j k ((begun j k).mp held)
    · have idle : c.state.running = none := running.symm.trans no
      obtain free | ⟨⟨k,runs,_⟩,_⟩ := may
      · cases cmd with
        | begin listen => exact absurd rfl (other listen)
        | live => exact empty idle
        | stop => exact empty idle
        | arrive m =>
          have kept : (exec config (.arrive m) c.state).2.hand = c.state.hand := by
            by_cases listening : c.state.listening = true
            · have same : (handler config m c.state).hand = c.state.hand := (handler_fields m).2.2.2.2.2
              simpa [exec,listening] using same
            · simp [exec,listening]
          exact kept.trans (empty idle)
        | _ => cases free
      · rw [idle] at runs
        cases runs

theorem discipline_sound : (discipline config).Sound where
  move := by
    intro who c c' move
    cases move with
    | act inv may => exact act_inv inv may
    | call inv _ =>
      exact ⟨fun j k held => inv.1 j k ((begun_same fun _ _ _ no => by cases no).mp held),
        fun a b k first second => inv.2.1 a b k ((begun_same fun _ _ _ no => by cases no).mp first)
          ((begun_same fun _ _ _ no => by cases no).mp second),inv.2.2⟩
    | reply q r inv =>
      exact ⟨fun j k held => inv.1 j k ((begun_same fun _ _ _ no => by cases no).mp held),
        fun a b k first second => inv.2.1 a b k ((begun_same fun _ _ _ no => by cases no).mp first)
          ((begun_same fun _ _ _ no => by cases no).mp second),inv.2.2⟩
    | shock x inv =>
      exact ⟨fun j k held => inv.1 j k ((begun_same fun _ _ _ no => by cases no).mp held),
        fun a b k first second => inv.2.1 a b k ((begun_same fun _ _ _ no => by cases no).mp first)
          ((begun_same fun _ _ _ no => by cases no).mp second),inv.2.2⟩
  crash inv :=
    ⟨fun j k held => inv.1 j k ((begun_same fun _ _ _ no => by cases no).mp held),
      fun a b k first second => inv.2.1 a b k ((begun_same fun _ _ _ no => by cases no).mp first)
        ((begun_same fun _ _ _ no => by cases no).mp second),fun _ => rfl⟩

end Rules

/-! What the running process knows of its own hand. -/

section Own
variable {config : Config} {i : Nat}

/-- The running process is this fiber's, with this in hand. -/
def Own (i : Nat) (P : Option Hand → Option Cursors → Prop) (c : Core (ingestor config)) : Prop :=
  Mine i c ∧ P c.state.hand c.state.memory

theorem own_stable (P : Option Hand → Option Cursors → Prop) : Stable (discipline config) i (Own i P) := by
  rintro who c c' other move ⟨⟨k,runs,began⟩,held⟩
  cases move with
  | @act _ j cmd inv may =>
    have apart : ¬Mine j c := by
      rintro ⟨k',runs',began'⟩
      have same : k = k' := Option.some.inj (runs.symm.trans runs')
      subst same
      exact other (by rw [inv.2.1 i j k began began'])
    have free : Cmd.free cmd = true := may.resolve_right fun both => apart both.1
    have runs_ : c.state.running ≠ none := by
      rw [runs]
      nofun
    have same : (exec config cmd c.state).2.running = c.state.running ∧ (exec config cmd c.state).2.hand = c.state.hand ∧
        (exec config cmd c.state).2.memory = c.state.memory := exec_free free runs_
    obtain ⟨running,hand,memory⟩ := same
    refine ⟨⟨k,running.trans runs,begun_cons.mpr (.inr began)⟩,?_⟩
    have kept : P (exec config cmd c.state).2.hand (exec config cmd c.state).2.memory := by
      rw [hand,memory]
      exact held
    exact kept
  | call inv may => exact ⟨⟨k,runs,begun_cons.mpr (.inr began)⟩,held⟩
  | reply q r inv => exact ⟨⟨k,runs,begun_cons.mpr (.inr began)⟩,held⟩
  | shock x inv => exact ⟨⟨k,runs,begun_cons.mpr (.inr began)⟩,held⟩

/-- What is exported stays so, and time goes on. -/
theorem exported_lasting (d : String × Int) : Lasting (discipline config) fun c => d ∈ c.state.exported := by
  intro who c c' move member
  cases move with
  | act inv may => exact exec_sink _ d member
  | call inv may => exact member
  | reply q r inv => exact member
  | shock x inv => exact member

theorem now_lasting (now : Int) : Lasting (discipline config) fun c => now ≤ c.state.now := by
  intro who c c' move before
  cases move with
  | @act _ j cmd inv may =>
    have same : (c.act j cmd).state.now = c.state.now := exec_now cmd
    rw [same]
    exact before
  | call inv may => exact before
  | reply q r inv => exact before
  | shock x inv =>
    have later : c.state.now ≤ c.state.now + (x.ms : Int) := by omega
    exact Int.le_trans before later

theorem mine_act (other : ∀ listen, cmd ≠ .begin listen) (mine : Mine i c) : Mine i (c.act i cmd):= by
  obtain ⟨k,runs,began⟩ := mine
  exact ⟨k,(exec_running cmd other).1.trans runs,begun_cons.mpr (.inr began)⟩

variable {P N : Option Hand → Option Cursors → Prop}

/-- A command of its own that it may do. -/
theorem own_act (bound : Cmd.free cmd = false) (may : ∀ s : State, P s.hand s.memory → Allowed config cmd s)
    (gives : ∀ s : State, P s.hand s.memory → N (exec config cmd s).2.hand (exec config cmd s).2.memory) :
    Triple (discipline config) i (Own i P) (commit config cmd) (onOk fun _ => Own i N) := by
  have other : ∀ listen, cmd ≠ .begin listen := by
    rintro listen rfl
    cases bound
  exact .act discipline_sound (fun c _ own => .inr ⟨own.1,may _ own.2⟩) fun c _ own _ => ⟨mine_act other own.1,gives _ own.2⟩

theorem own_look (f : State → α) {Q : α → Option Hand → Option Cursors → Prop}
    (gives : ∀ s : State, P s.hand s.memory → Q (f s) s.hand s.memory) :
    Triple (discipline config) i (Own i P) (view config f) (onOk fun a => Own i (Q a)) :=
  .look fun c _ own => ⟨own.1,gives c.state own.2⟩

theorem own_ask (q : Call) : Triple (discipline config) i (Own i P) (ask config q) (onOk fun _ => Own i P) :=
  .call discipline_sound (own_stable P) (fun _ _ _ => trivial)
    (fun _ _ own => ⟨⟨_,own.1.choose_spec.1,begun_cons.mpr (.inr own.1.choose_spec.2)⟩,own.2⟩)
    fun _ _ _ own => ⟨⟨_,own.1.choose_spec.1,begun_cons.mpr (.inr own.1.choose_spec.2)⟩,own.2⟩

theorem own_await {Q : α → Option Hand → Option Cursors → Prop}
    (h : Triple (discipline config) i (Own i P) m (onOk fun a => Own i (Q a))) :
    Triple (discipline config) i (Own i P) (Async.await m) (onOk fun a => Own i (Q a)) :=
  .await discipline_sound h fun r => by
    cases r with
    | ok a => exact own_stable (Q a)
    | error e => exact .top

theorem own_lift (r : Except Err α) : Triple (discipline config) i (Own i P) (Async.lift (S := ingestor config) r) (onOk fun _ => Own i P) :=
  .lift fun c _ own => by
    cases r with
    | ok a => exact own
    | error e => trivial

theorem own_bind
 (first : Triple (discipline config) i (Own i P) m (onOk A))
    (next : ∀ a, Triple (discipline config) i (A a) (f a) (onOk B)) :
    Triple (discipline config) i (Own i P) (m >>= f) (onOk B) := .bind first next fun _ _ _ _ => trivial

end Own

section Calls
variable {config : Config} {i : Nat} {H : Option Hand → Prop}

/-- Something like this in hand. -/
abbrev Holding (H : Option Hand → Prop) : Option Hand → Option Cursors → Prop := fun h _ => H h

/-- Something like this in hand, and the state loaded. -/
abbrev Loaded (H : Option Hand → Prop) : Option Hand → Option Cursors → Prop := fun h m => H h ∧ m.isSome = true

theorem load_keeps : Triple (discipline config) i (Own i (Holding H)) (load config) (onOk fun _ => Own i (Loaded H)) := by
  refine own_bind (own_look (Q := fun m h m' => H h ∧ m' = m) _ fun s held => ⟨held,rfl⟩) fun m => ?_
  cases m with
  | some cursors => exact .pure fun c _ own => ⟨own.1,own.2.1,by rw [own.2.2]; rfl⟩
  | none =>
    refine own_bind (own_ask _) fun content => own_bind (own_lift _) fun _ => ?_
    exact own_act rfl (fun s held => held.2) fun s held => ⟨held.1,rfl⟩

theorem save_keeps : Triple (discipline config) i (Own i (Holding H)) (save config) (onOk fun _ => Own i (Loaded H)) := by
  refine own_bind (own_await load_keeps) fun _ => ?_
  refine own_bind (own_look (Q := fun content h m => H h ∧ m = some content) _ fun s held => ?_) fun content => ?_
  · obtain ⟨cursors,loaded⟩ := Option.isSome_iff_exists.mp held.2
    exact ⟨held.1,by simp [State.cursor,loaded]⟩
  · refine own_bind (own_ask _) fun written => own_bind (own_lift _) fun _ => ?_
    exact own_act rfl (fun s held => held.2) fun s held => ⟨held.1,by simp [exec,held.2]⟩

/-- What a read leaves in hand. -/
def held (source : String) (messages : List Message) : Option Hand :=
  if messages = [] then none else some ⟨source,messages,.passed⟩

/-- All of the batch is in the export. -/
def Put (batch : List ExportedMessage) (c : Core (ingestor config)) : Prop := ∀ e ∈ batch, e.key ∈ c.state.exported

theorem put_lasting (batch : List ExportedMessage) : Lasting (discipline config) (Put batch) :=
  fun _ _ _ move put e member => exported_lasting e.key move (put e member)

/-- The hand still holds these, appended or not. -/
def Has (source : String) (messages : List Message) (h : Option Hand) : Prop := ∃ stage, stage ≠ .taken ∧ h = some ⟨source,messages,stage⟩

theorem append_puts {messages : List Message}
    (of_ : (batch.map ExportedMessage.key).Subperm (keys source messages)) :
    Triple (discipline config) i (Own i (Holding (· = some ⟨source,messages,.passed⟩))) (append config batch)
      (onOk fun _ c => Own i (Holding (Has source messages)) c ∧ Put batch c) := by
  cases batch with
  | nil =>
    refine .pure fun c _ own => ⟨⟨own.1,.passed,nofun,own.2⟩,?_⟩
    intro e member
    cases member
  | cons first rest =>
    refine .ite (fun _ => .lift fun _ _ _ => trivial) fun _ => ?_
    refine own_bind (own_ask _) fun appended => own_bind (own_lift _) fun _ => ?_
    refine .act discipline_sound (fun c _ own => .inr ⟨own.1,_,own.2,rfl,of_⟩) fun c _ own _ => ?_
    have mine : Mine i (c.act i (Cmd.append (first :: rest))) := mine_act nofun own.1
    refine ⟨⟨mine,.appended,nofun,?_⟩,fun e member => ?_⟩
    · have hand : (exec config (.append (first :: rest)) c.state).2.hand = some ⟨source,messages,.appended⟩ := by
        simp only [exec,own.2]
        rfl
      exact hand
    · have all : (exec config (.append (first :: rest)) c.state).2.exported =
          c.state.exported ++ (first :: rest).map ExportedMessage.key := by simp [State.exported,exec]
      have member : e.key ∈ (exec config (.append (first :: rest)) c.state).2.exported := by
        rw [all]
        exact mem_append_right _ (mem_map_of_mem member)
      exact member

/-- The lines of a batch go by the source and the numbers of its messages. -/
theorem batch_keys (source : SourceConfig) (messages : List Message) (keep : Message → Bool) :
    ((((ordered messages).filter keep).map (normalizeMessage source)).map ExportedMessage.key).Subperm (keys source.id messages) := by
  have same : (((ordered messages).filter keep).map (normalizeMessage source)).map ExportedMessage.key =
      keys source.id ((ordered messages).filter keep) := by
    simp only [keys,map_map]
    rfl
  rw [same]
  exact ((filter_sublist.map _).subperm).trans ((ordered_perm messages).map _).subperm

theorem persistBatch_clears (source : SourceConfig) (messages : List Message) :
    Triple (discipline config) i (Own i (Holding (· = held source.id messages))) (persistBatch config source messages)
      (onOk fun _ => Own i (Holding (· = none))) := by
  refine .ite (fun empty => ?_) fun full => ?_
  · exact .pure fun c _ own => ⟨own.1,own.2.trans (if_pos empty)⟩
  have held_ : held source.id messages = some ⟨source.id,messages,.passed⟩ := if_neg full
  rw [held_]
  refine .bind (Q := onOk fun now c => Own i (Holding (· = some ⟨source.id,messages,.passed⟩)) c ∧ now ≤ c.state.now)
    (.look fun c _ own => ⟨own,Int.le_refl _⟩) (fun now => ?_) fun _ _ _ _ => trivial
  let batch := ((ordered messages).filter (config.recent now)).map (normalizeMessage source)
  have passing : Lasting (discipline config) fun c => now ≤ c.state.now := now_lasting now
  refine .bind (.awaitOk discipline_sound ((append_puts (batch_keys source messages (config.recent now))).keepOk passing)
    fun _ => ((own_stable _).and (put_lasting _).stable).and passing.stable) (fun _ => ?_) fun _ _ _ _ => trivial
  refine .bind ((Triple.awaitOk discipline_sound ((load_keeps.keepOk (put_lasting batch)).keepOk passing)
    fun _ => ((own_stable _).and (put_lasting _).stable).and passing.stable)) (fun _ => ?_) fun _ _ _ _ => trivial
  refine .bind (Q := onOk fun _ => Own i (Holding (· = none))) (.act discipline_sound (fun c _ own => .inr ?_) fun c _ own _ => ?_)
    (fun _ => ?_) fun _ _ _ _ => trivial
  · obtain ⟨⟨⟨mine,⟨stage,further,hand⟩,_⟩,put⟩,before⟩ := own
    refine ⟨mine,_,hand,further,rfl,?_,now,before,fun m member recent => ?_⟩
    · have some_ : ordered messages ≠ [] := fun none_ => full (by
        have perm := ordered_perm messages
        rw [none_] at perm
        exact perm.nil_eq.symm)
      exact (maximum_tops some_).perm (ordered_perm messages)
    · have line : normalizeMessage source m ∈ batch :=
        mem_map_of_mem (mem_filter.mpr ⟨(ordered_perm messages).mem_iff.mpr member,recent⟩)
      exact put _ line
  · exact ⟨mine_act nofun own.1.1.1,rfl⟩
  · exact .bind (own_await save_keeps) (fun _ => .pure fun c _ own => ⟨own.1,own.2.1⟩) fun _ _ _ _ => trivial

/-- Nothing in hand. -/
abbrev Free : Option Hand → Prop := (· = none)

theorem collect_holds (source : SourceConfig) (limit : Nat) (minId : Option Int) :
    Triple (discipline config) i (Own i (Holding Free)) (collect config source limit minId)
      (onOk fun messages => Own i (Holding (· = held source.id messages))) := by
  refine own_bind (own_await save_keeps) fun _ => own_bind (own_ask _) fun collected => own_bind (own_lift _) fun messages => ?_
  refine own_bind (own_act (N := Holding (· = held source.id messages)) rfl (fun s free => free.1) fun s free => rfl) fun _ => ?_
  exact .pure fun _ _ own => own

theorem initialSync_clears (source : SourceConfig) : Triple (discipline config) i (Own i (Holding Free))
    (initialSync config source) (onOk fun _ => Own i (Holding Free)) := by
  refine own_bind (own_await (collect_holds source _ none)) fun messages => ?_
  refine .ite (fun skips => ?_) fun _ => persistBatch_clears source messages
  have held_ : held source.id messages = some ⟨source.id,messages,.passed⟩ := if_neg skips.2
  rw [held_]
  refine own_bind (own_await load_keeps) fun _ => ?_
  refine own_bind (own_act (N := Holding Free) rfl (fun s own => ⟨_,own.1,rfl,rfl,maximum_tops skips.2⟩) fun s own => rfl) fun _ => ?_
  exact own_bind (own_await save_keeps) fun _ => .pure fun _ _ own => ⟨own.1,own.2.1⟩

theorem syncPages_clears (source : SourceConfig) (pages : Nat) : ∀ (total : Nat) (cursor : Int),
    Triple (discipline config) i (Own i (Holding Free)) (syncPages config source pages total cursor)
      (onOk fun _ => Own i (Holding Free)) := by
  induction pages with
  | zero => exact fun total cursor => .pure fun _ _ own => own
  | succ pages ih =>
    intro total cursor
    refine .ite (fun _ => .pure fun _ _ own => own) fun _ => ?_
    refine own_bind (own_await (collect_holds source _ _)) fun messages => ?_
    refine .ite (fun empty => .pure fun _ _ own => ⟨own.1,own.2.trans (if_pos empty)⟩) fun _ => ?_
    refine own_bind (own_await (persistBatch_clears source messages)) fun persisted => ?_
    exact .ite (fun _ => .pure fun _ _ own => own) fun _ => ih _ _

theorem syncSource_clears (source : SourceConfig) : Triple (discipline config) i (Own i (Holding Free))
    (syncSource config source) (onOk fun _ => Own i (Holding Free)) := by
  refine own_bind (own_await load_keeps) fun _ => ?_
  refine own_bind (own_look (Q := fun _ => Holding Free) _ fun s own => own.1) fun cursor => ?_
  exact .ite (fun _ => initialSync_clears source) fun _ => syncPages_clears source _ _ _

theorem syncAll_clears : Triple (discipline config) i (Own i (Holding Free)) (syncAll config)
    (onOk fun _ => Own i (Holding Free)) :=
  .each_keeps fun source _ => own_bind (own_await (syncSource_clears source)) fun _ => .pure fun _ _ own => own

/-- A message that was taken. -/
def taken (config : Config) (m : Message) : Option Hand := (config.resolve m.peerId).map fun source => ⟨source.id,[m],.taken⟩

theorem ingestLiveMessage_clears (m : Message) : Triple (discipline config) i (Own i (Holding (· = taken config m)))
    (ingestLiveMessage config m) (onOk fun _ => Own i (Holding Free)) := by
  unfold ingestLiveMessage
  cases found : config.resolve m.peerId with
  | none =>
    have none_ : taken config m = none := by simp [taken,found]
    exact .pure fun c _ own => ⟨own.1,own.2.trans none_⟩
  | some source =>
    have some_ : taken config m = some ⟨source.id,[m],.taken⟩ := by simp [taken,found]
    rw [some_]
    refine own_bind (own_await load_keeps) fun _ => ?_
    refine .bind (Q := onOk fun above => Own i (Holding (· = if above = true then some ⟨source.id,[m],.passed⟩ else none)))
      (.act discipline_sound (fun c _ own => .inr ⟨own.1,own.2.1⟩) fun c _ own _ => ?_) (fun above => ?_) fun _ _ _ _ => trivial
    · refine ⟨mine_act nofun own.1,?_⟩
      simp only [Core.act,ingestor,exec]
      split <;> rfl
    · cases above with
      | true =>
        have batch : Triple (discipline config) i (Own i (Holding (· = held source.id [m]))) (persistBatch config source [m])
            (onOk fun _ => Own i (Holding (· = none))) := persistBatch_clears source [m]
        exact .bind (own_await batch) (fun _ => .pure fun _ _ own => own) fun _ _ _ _ => trivial
      | false => exact .pure fun _ _ own => own

theorem drain_clears (turns : Nat) : Triple (discipline config) i (Own i (Holding Free)) (drain config turns)
    (onOk fun _ => Own i (Holding Free)) := by
  induction turns with
  | zero => exact own_bind (own_ask _) fun never => nomatch never
  | succ turns ih =>
    refine .bind (Q := onOk fun m => Own i (Holding (· = m.bind (taken config))))
      (.act discipline_sound (fun c _ own => .inr ⟨own.1,own.2⟩) fun c _ own _ => ⟨mine_act nofun own.1,?_⟩) (fun m => ?_)
      fun _ _ _ _ => trivial
    · simp only [Core.act,ingestor,exec]
      split
      · exact own.2
      · rfl
    · cases m with
      | none => exact .pure fun _ _ own => own
      | some m => exact .bind (own_await (ingestLiveMessage_clears m)) (fun _ => ih) fun _ _ _ _ => trivial

theorem chained_clears (turns : Nat) : Triple (discipline config) i (Own i (Holding Free)) (chained config turns)
    (onOk fun _ => Own i (Holding Free)) := by
  induction turns with
  | zero => exact own_bind (own_ask _) fun never => nomatch never
  | succ turns ih =>
    refine .bind (Q := onOk fun m => Own i (Holding (· = m.bind (taken config))))
      (.act discipline_sound (fun c _ own => .inr ⟨own.1,own.2⟩) fun c _ own _ => ⟨mine_act nofun own.1,?_⟩) (fun m => ?_)
      fun _ _ _ _ => trivial
    · simp only [Core.act,ingestor,exec]
      split
      · exact own.2
      · rfl
    · cases m with
      | none => exact .bind (own_ask _) (fun aborted => .ite (fun _ => .pure fun _ _ own => own) fun _ => ih) fun _ _ _ _ => trivial
      | some m => exact .bind (own_await (ingestLiveMessage_clears m)) (fun _ => ih) fun _ _ _ _ => trivial

theorem watched_safe (turns : Nat) : Triple (discipline config) i (Own i (Holding Free)) (watched config turns) fun _ _ => True := by
  refine .seq (own_await syncAll_clears) fun _ => .seq (drain_clears turns) fun _ => ?_
  refine .seq (Q := onOk fun _ => Own i (Holding Free)) (.act discipline_sound (fun _ _ _ => .inl rfl) fun c _ own _ =>
    ⟨mine_act nofun own.1,own.2⟩) fun fatal => ?_
  exact .ite (fun _ => .lift fun _ _ _ => trivial) fun _ => (chained_clears turns).post fun _ _ _ _ => trivial

theorem begin_owns (listen : Bool) : Triple (discipline config) i (fun _ => True) (commit config (.begin listen))
    (onOk fun ticket c => ticket.isSome = true → Own i (Holding Free) c) := by
  refine .act discipline_sound (fun _ _ _ => .inl rfl) fun c inv _ _ given => ?_
  cases runs : c.state.running with
  | some k =>
    have none_ : (exec config (.begin listen) c.state).1 = none := by simp only [exec,runs]
    have given : (exec config (.begin listen) c.state).1.isSome = true := given
    rw [none_] at given
    cases given
  | none =>
    have state : exec config (.begin listen) c.state = (some c.state.begun,{ c.state with
        running := some c.state.begun, begun := c.state.begun + 1, listening := listen, buffering := listen }) := by
      simp only [exec,runs]
    refine ⟨⟨c.state.begun,?_,begun_cons.mpr (.inl ⟨listen,?_⟩)⟩,?_⟩
    · simp [Core.act,ingestor,state]
    · simp [ingestor,state]
    · have kept : (c.act i (Cmd.begin listen)).state.hand = c.state.hand := by simp [Core.act,ingestor,state]
      exact kept.trans (inv.2.2 runs)

theorem body_safe (op : Op) (i : Nat) (c : Core (ingestor config)) (inv : (discipline config).inv c) :
    Safe (discipline config) i (body config op) c := by
  cases op with
  | arrive m => exact ⟨.inl rfl,trivial⟩
  | sync =>
    have safe : Triple (discipline config) i (fun _ => True) (sync config) fun _ _ => True := by
      refine .seq (begin_owns false) fun ticket => ?_
      cases ticket with
      | none => exact .pure fun _ _ _ => trivial
      | some k => exact (syncAll_clears.post fun _ _ _ _ => trivial).pre fun _ _ owns => owns rfl
    exact safe.safe inv trivial
  | watch turns =>
    have safe : Triple (discipline config) i (fun _ => True) (watch config turns) fun _ _ => True := by
      refine .seq (begin_owns true) fun ticket => ?_
      cases ticket with
      | none => exact .pure fun _ _ _ => trivial
      | some k =>
        refine .seq (Q := fun _ _ => True) (.settle ((watched_safe turns).pre fun _ _ owns => owns rfl)) fun result => ?_
        refine .seq (Q := fun _ _ => True) (.act discipline_sound (fun _ _ _ => .inl rfl) fun _ _ _ _ => trivial) fun _ => ?_
        exact .lift fun _ _ _ => trivial
    exact safe.safe inv trivial

end Calls

end Neurobro.Ingestor
