import Neurobro.Ingestor.Exports

/-! What was delivered is exported once: in every run in which no cursor passes a message that is still to be
exported, and no process stops between an export and the cursor's file. -/
namespace Neurobro.Ingestor

open Coop World List

section Claims
variable (config : Config) (s : State)

/-- What was delivered so far, to any process. -/
def State.all : List (String × Int) := s.earlier ++ s.delivered

def State.handed : List (String × Int) := s.hand.toList.flatMap Hand.keys

/-- What this process has still to look at. -/
def State.waiting : List (String × Int) := (s.buffer ++ s.chain).filterMap config.key ++ s.handed

/-- How often a message was exported. -/
def State.exports (d : String × Int) : Nat := s.exported.count d

/-- Nothing is exported twice, and nothing past where its source began is lost: it is exported, or it is above the
cursor and waits, was delivered to an earlier process, or came when the buffer was full. -/
def LosesNothing : Prop :=
  (∀ d, s.exports d ≤ 1) ∧ ∀ d ∈ s.all, s.start d.1 < d.2 →
    s.exports d = 1 ∨ s.cursor d.1 < d.2 ∧ (d ∈ s.earlier ∨ d ∈ s.waiting config ∨ s.fatal = true)

end Claims

/-- No cursor passes a message that was delivered and not exported, reads bring new messages only, and a process
starts from a file that knows what was exported. -/
def Calm (config : Config) : Cmd → State → Prop
  | .begin _,s => s.running = none → ∀ d ∈ s.exported, d.2 ≤ s.file d.1
  | .arrive m,s => ∀ d, config.key m = some d → s.start d.1 < d.2 → s.cursor d.1 < d.2 ∨ d ∈ s.exported
  | .receive source messages,s => (keys source messages).Nodup ∧ ∀ m ∈ messages, s.cursor source < m.id
  | .advance source last,s =>
    (∀ d ∈ s.all, d.1 = source → s.start source < d.2 → s.cursor source < d.2 → d.2 ≤ last → d ∈ s.handed) ∧
      ∀ h ∈ s.hand, ∀ m ∈ h.messages, config.recent s.now m = true
  | _,_ => True

structure Kept (config : Config) (s : State) : Prop where
  distinct : s.exported.Nodup
  behind : s.running ≠ none → ∀ d ∈ s.exported, d.2 ≤ s.cursor d.1 ∨ ∃ h, s.hand = some h ∧ h.stage = .appended ∧ d ∈ h.keys
  passed : ∀ d ∈ s.all, s.start d.1 < d.2 → d.2 ≤ s.cursor d.1 → d ∈ s.exported
  saved : ∀ source, s.file source ≤ s.cursor source
  queued : ∀ m ∈ s.buffer ++ s.chain, ∀ d, config.key m = some d → d ∈ s.delivered
  known : ∀ h, s.hand = some h → ∀ d ∈ h.keys, d ∈ s.delivered
  ahead : ∀ h, s.hand = some h → h.stage ≠ .taken → h.keys.Nodup ∧ ∀ d ∈ h.keys, s.cursor h.source < d.2
  waits : ∀ d ∈ s.delivered, s.start d.1 < d.2 → d ∈ s.exported ∨ d ∈ s.waiting config ∨ s.fatal = true

section Steps
variable {config : Config} {s : State} {d : String × Int}

@[simp] theorem mem_keys {messages : List Message} : d ∈ keys source messages ↔ ∃ m ∈ messages, (source,m.id) = d:= by simp [keys]

theorem no_hand {p : Prop} (hand : (none : Option Hand) = some h) : p := by cases hand

theorem hand_source {h : Hand} (member : d ∈ h.keys) : d.1 = h.source := by
  obtain ⟨m,_,rfl⟩ := mem_keys.mp member
  rfl

theorem handed_of (hand : s.hand = some h) : s.handed = h.keys := by simp [State.handed,hand]

theorem handed_free (hand : s.hand = none) : s.handed = [] := by simp [State.handed,hand]

/-- What only concerns the process, and not what it delivers or exports. -/
theorem Kept.process (kept : Kept config s) {running : Option Nat} {begun : Nat} {now : Int}
    (behind : s.running = none → running ≠ none → ∀ d ∈ s.exported, d.2 ≤ s.file d.1) :
    Kept config { s with running := running, begun := begun, listening := listening, buffering := buffering, now := now } where
  distinct := kept.distinct
  behind runs d member := by
    by_cases idle : s.running = none
    · exact .inl (Int.le_trans (behind idle runs d member) (kept.saved d.1))
    · exact kept.behind idle d member
  passed := kept.passed
  saved := kept.saved
  queued := kept.queued
  known := kept.known
  ahead := kept.ahead
  waits := kept.waits

theorem mem_waiting : d ∈ s.waiting config ↔ (∃ m ∈ s.buffer ++ s.chain, config.key m = some d) ∨ d ∈ s.handed := by
  simp only [State.waiting,mem_append,mem_filterMap]

/-- A message is delivered: it waits, or the process is to stop. -/
theorem Kept.deliver (kept : Kept config s) {buffer chain : List Message} {fatal : Bool}
    (calm : ∀ d, config.key m = some d → s.start d.1 < d.2 → s.cursor d.1 < d.2 ∨ d ∈ s.exported)
    (old : ∀ m' ∈ s.buffer ++ s.chain, m' ∈ buffer ++ chain) (only : ∀ m' ∈ buffer ++ chain, m' ∈ s.buffer ++ s.chain ∨ m' = m)
    (new : m ∈ buffer ++ chain ∨ fatal = true) (full : s.fatal = true → fatal = true) :
    Kept config { s with delivered := s.delivered ++ (config.key m).toList, buffer := buffer, chain := chain, fatal := fatal } where
  distinct := kept.distinct
  behind := kept.behind
  passed d member after under := by
    have member : d ∈ s.earlier ++ (s.delivered ++ (config.key m).toList) := member
    rw [← append_assoc,mem_append,Option.mem_toList] at member
    obtain earlier | key := member
    · exact kept.passed d earlier after under
    · exact (calm d key after).resolve_left fun above => absurd under (Int.not_le.mpr above)
  saved := kept.saved
  queued m' member d key := by
    obtain earlier | rfl := only m' member
    · exact mem_append_left _ (kept.queued m' earlier d key)
    · exact mem_append_right _ (Option.mem_toList.mpr key)
  known h hand d member := mem_append_left _ (kept.known h hand d member)
  ahead := kept.ahead
  waits d member after := by
    have waits : ∀ d, d ∈ s.waiting config →
        (∃ m' ∈ buffer ++ chain, config.key m' = some d) ∨ d ∈ s.handed := fun d wait =>
      (mem_waiting.mp wait).imp_left fun ⟨m',queue,key⟩ => ⟨m',old m' queue,key⟩
    obtain earlier | key := mem_append.mp member
    · obtain out | wait | stops := kept.waits d earlier after
      · exact .inl out
      · exact .inr (.inl (mem_waiting.mpr (waits d wait)))
      · exact .inr (.inr (full stops))
    · obtain queue | stops := new
      · exact .inr (.inl (mem_waiting.mpr (.inl ⟨m,queue,Option.mem_toList.mp key⟩)))
      · exact .inr (.inr stops)

theorem Kept.handler (kept : Kept config s)
    (calm : ∀ d, config.key m = some d → s.start d.1 < d.2 → s.cursor d.1 < d.2 ∨ d ∈ s.exported) :
    Kept config (Ingestor.handler config m s) := by
  simp only [Ingestor.handler,enqueue]
  split
  · split
    · exact kept.deliver calm (fun _ old => old) (fun _ old => .inl old) (.inr rfl) fun _ => rfl
    · refine kept.deliver calm (fun m' old => ?_) (fun m' member => ?_) (.inl (by simp)) id
      · obtain buffer | chain := mem_append.mp old <;> simp [*]
      · rw [append_assoc,mem_append,singleton_append,mem_cons] at member
        obtain buffer | new | chain := member
        · exact .inl (mem_append_left _ buffer)
        · exact .inr new
        · exact .inl (mem_append_right _ chain)
  · refine kept.deliver calm (fun m' old => ?_) (fun m' member => ?_) (.inl (by simp)) id
    · obtain buffer | chain := mem_append.mp old <;> simp [*]
    · rw [← append_assoc,mem_append,mem_singleton] at member
      exact member

/-- The next message is taken into an empty hand. -/
theorem Kept.take (kept : Kept config s) (free : s.hand = none) {buffer chain : List Message}
    (queue : ∀ m', m' ∈ s.buffer ++ s.chain ↔ m' = m ∨ m' ∈ buffer ++ chain) :
    Kept config ({ s with buffer := buffer, chain := chain }.take config m) := by
  have hands : ∀ h, ((config.resolve m.peerId).map fun source => (⟨source.id,[m],.taken⟩ : Hand)) = some h →
      h.stage = .taken ∧ ∀ d, d ∈ h.keys ↔ config.key m = some d := by
    rintro h hand
    obtain ⟨source,found,rfl⟩ := Option.map_eq_some_iff.mp hand
    refine ⟨rfl,fun d => ?_⟩
    simp [Hand.keys,keys,Config.key,found,eq_comm]
  refine ⟨kept.distinct,fun runs d member => ?_,kept.passed,kept.saved,fun m' member => kept.queued m' ((queue m').mpr (.inr member)),
    fun h hand d member => ?_,fun h hand stage => absurd (hands h hand).1 stage,fun d member after => ?_⟩
  · refine .inl ((kept.behind runs d member).resolve_right ?_)
    rintro ⟨h,hand,_⟩
    rw [free] at hand
    cases hand
  · exact kept.queued m ((queue m).mpr (.inl rfl)) d (((hands h hand).2 d).mp member)
  · obtain out | wait | full := kept.waits d member after
    · exact .inl out
    · refine .inr (.inl (mem_waiting.mpr ?_))
      obtain ⟨m',waits,key⟩ | held := mem_waiting.mp wait
      · obtain rfl | rest := (queue m').mp waits
        · right
          cases found : config.resolve m'.peerId with
          | none => simp [Config.key,found] at key
          | some source => simpa [State.handed,State.take,found,Hand.keys,keys,Config.key,eq_comm] using key
        · exact .inl ⟨m',rest,key⟩
      · rw [handed_free free] at held
        cases held
    · exact .inr (.inr full)

/-- The messages of a read come into an empty hand. -/
theorem Kept.receive (kept : Kept config s) (free : s.hand = none) {messages : List Message}
    (distinct : (keys source messages).Nodup) (above : ∀ m ∈ messages, s.cursor source < m.id) :
    Kept config (exec config (.receive source messages) s).2 := by
  have hands : ∀ h, (if messages = [] then none else some (⟨source,messages,.passed⟩ : Hand)) = some h → h = ⟨source,messages,.passed⟩ := by
    intro h hand
    split at hand
    · cases hand
    · exact (Option.some.inj hand).symm
  refine ⟨kept.distinct,fun runs d member => ?_,fun d member after under => ?_,kept.saved,
    fun m' member d key => mem_append_left _ (kept.queued m' member d key),fun h hand d member => ?_,fun h hand _ => ?_,
    fun d member after => ?_⟩
  · refine .inl ((kept.behind runs d member).resolve_right ?_)
    rintro ⟨h,hand,_⟩
    rw [free] at hand
    cases hand
  · have member : d ∈ s.earlier ++ (s.delivered ++ keys source messages) := member
    rw [← append_assoc,mem_append] at member
    obtain old | new := member
    · exact kept.passed d old after under
    · obtain ⟨m,mem,rfl⟩ := mem_keys.mp new
      exact absurd under (Int.not_le.mpr (above m mem))
  · rw [hands h hand] at member
    exact mem_append_right _ member
  · rw [hands h hand]
    refine ⟨distinct,fun d member => ?_⟩
    obtain ⟨m,mem,rfl⟩ := mem_keys.mp member
    exact above m mem
  · obtain old | new := mem_append.mp member
    · obtain out | wait | full := kept.waits d old after
      · exact .inl out
      · obtain queue | held := mem_waiting.mp wait
        · exact .inr (.inl (mem_waiting.mpr (.inl queue)))
        · rw [handed_free free] at held
          cases held
      · exact .inr (.inr full)
    · have some_ : messages ≠ [] := by
        rintro rfl
        cases new
      refine .inr (.inl (mem_waiting.mpr (.inr ?_)))
      simp only [State.handed,exec,if_neg some_]
      simpa [Hand.keys] using new

/-- A taken message is above the cursor, or it is out of the hand again because it is exported already. -/
theorem Kept.pass (kept : Kept config s) (hand : s.hand = some ⟨source,[m],.taken⟩) :
    Kept config (exec config (.pass source m) s).2 := by
  have only : ∀ d, d ∈ s.handed ↔ (source,m.id) = d := by
    intro d
    rw [handed_of hand]
    simp [Hand.keys,keys,eq_comm]
  have behind : ∀ runs : s.running ≠ none, ∀ d ∈ s.exported, d.2 ≤ s.cursor d.1 := by
    intro runs d member
    refine (kept.behind runs d member).resolve_right ?_
    rintro ⟨h,is_,stage,_⟩
    rw [hand] at is_
    cases is_
    cases stage
  have known : (source,m.id) ∈ s.delivered := kept.known _ hand _ (by simp [Hand.keys,keys])
  simp only [exec]
  split
  · rename_i under
    refine ⟨kept.distinct,fun runs d member => .inl (behind runs d member),kept.passed,kept.saved,kept.queued,fun _ hand => no_hand hand,fun _ hand => no_hand hand,
      fun d member after => ?_⟩
    obtain out | wait | full := kept.waits d member after
    · exact .inl out
    · obtain queue | held := mem_waiting.mp wait
      · exact .inr (.inl (mem_waiting.mpr (.inl queue)))
      · obtain rfl := (only d).mp held
        exact .inl (kept.passed _ (mem_append_right _ known) after under)
    · exact .inr (.inr full)
  · rename_i above
    refine ⟨kept.distinct,fun runs d member => .inl (behind runs d member),kept.passed,kept.saved,kept.queued,?_,?_,
      fun d member after => ?_⟩
    · rintro h is_ d member
      cases is_
      obtain ⟨m',mem,rfl⟩ := mem_keys.mp member
      rw [mem_singleton.mp mem]
      exact known
    · rintro h is_ _
      cases is_
      refine ⟨nodup_cons.mpr ⟨not_mem_nil,.nil⟩,fun d member => ?_⟩
      obtain ⟨m',mem,rfl⟩ := mem_keys.mp member
      rw [mem_singleton.mp mem]
      exact Int.not_le.mp above
    · obtain out | wait | full := kept.waits d member after
      · exact .inl out
      · refine .inr (.inl (mem_waiting.mpr ((mem_waiting.mp wait).imp_right fun held => ?_)))
        rw [only] at held
        simpa [State.handed,Hand.keys,keys] using held.symm
      · exact .inr (.inr full)

/-- A batch of what is in hand is exported. -/
theorem Kept.append (kept : Kept config s) (runs : s.running ≠ none) {batch : List ExportedMessage}
    (hand : s.hand = some h) (stage : h.stage = .passed) (of_ : (batch.map ExportedMessage.key).Subperm h.keys) :
    Kept config (exec config (.append batch) s).2 := by
  have all : (exec config (.append batch) s).2.exported = s.exported ++ batch.map ExportedMessage.key := by
    simp [State.exported,exec]
  have holds : (exec config (.append batch) s).2.hand = some { h with stage := .appended } := by simp [exec,hand]
  obtain ⟨nodup,above⟩ := kept.ahead h hand (by simp [stage])
  have behind : ∀ d ∈ s.exported, d.2 ≤ s.cursor d.1 := by
    intro d member
    refine (kept.behind runs d member).resolve_right ?_
    rintro ⟨h',is_,done,_⟩
    rw [hand] at is_
    cases is_
    rw [stage] at done
    cases done
  have keys_ : ∀ d ∈ batch.map ExportedMessage.key, d ∈ h.keys := fun d member => of_.subset member
  have handed : (exec config (.append batch) s).2.handed = s.handed := by
    rw [handed_of holds,handed_of hand]
    rfl
  refine ⟨?_,fun _ d member => ?_,fun d member after under => ?_,kept.saved,kept.queued,fun h' is_ d member => ?_,
    fun h' is_ _ => ?_,fun d member after => ?_⟩
  · rw [all]
    obtain ⟨part,perm,sub⟩ := of_
    refine nodup_append.mpr ⟨kept.distinct,perm.nodup_iff.mp (nodup.sublist sub),?_⟩
    rintro d old _ new rfl
    have source := hand_source (keys_ d new)
    have over_ := above d (keys_ d new)
    have under := behind d old
    rw [source] at under
    omega
  · rw [all] at member
    obtain old | new := mem_append.mp member
    · exact .inl (behind d old)
    · exact .inr ⟨_,holds,rfl,keys_ d new⟩
  · rw [all]
    exact mem_append_left _ (kept.passed d member after under)
  · rw [holds] at is_
    cases is_
    exact kept.known h hand d member
  · rw [holds] at is_
    cases is_
    exact ⟨nodup,above⟩
  · rw [all]
    obtain out | wait | full := kept.waits d member after
    · exact .inl (mem_append_left _ out)
    · refine .inr (.inl (mem_waiting.mpr ((mem_waiting.mp wait).imp_right fun held => ?_)))
      rw [handed]
      exact held
    · exact .inr (.inr full)

/-- The cursor that moves up to what was in hand. -/
theorem cursor_move (source : String) (last : Int) (d : String) :
    (s.move source last).cursor d = if d = source then last else s.cursor d := by
  simp [State.cursor,State.move,Function.update_apply]

/-- Moving up, the cursor of no source falls. -/
theorem move_up (up : s.cursor source ≤ last) (d : String) : s.cursor d ≤ (s.move source last).cursor d := by
  rw [cursor_move]
  by_cases same : d = source
  · simpa [same] using up
  · simp [same]

/-- What the messages in hand are to the cursor that moves up to them. -/
theorem Kept.tops (kept : Kept config s) (hand : s.hand = some h) (stage : h.stage ≠ .taken)
    (tops : Tops last h.messages) : s.cursor h.source ≤ last ∧ ∀ d ∈ h.keys, d.2 ≤ last := by
  obtain ⟨_,above⟩ := kept.ahead h hand stage
  obtain ⟨most,m,member,is_⟩ := tops
  refine ⟨?_,fun d key => ?_⟩
  · have over_ := above (h.source,m.id) (mem_keys.mpr ⟨m,member,rfl⟩)
    have over_ : s.cursor h.source < m.id := over_
    omega
  · obtain ⟨m',mem,rfl⟩ := mem_keys.mp key
    exact most m' mem

theorem Kept.moved_behind (kept : Kept config s) {h : Hand} (hand : s.hand = some h) (stage : h.stage ≠ .taken)
    (tops : Tops last h.messages) (runs : s.running ≠ none) : ∀ d ∈ s.exported, d.2 ≤ (s.move h.source last).cursor d.1 := by
  obtain ⟨up,most⟩ := kept.tops hand stage tops
  intro d member
  obtain under | ⟨h',is_,_,key⟩ := kept.behind runs d member
  · exact Int.le_trans under (move_up up d.1)
  · rw [hand] at is_
    cases is_
    rw [cursor_move,if_pos (hand_source key)]
    exact most d key

theorem Kept.advance (kept : Kept config s) (hand : s.hand = some h) (stage : h.stage ≠ .taken)
    (tops : Tops last h.messages) (out : ∀ m ∈ h.messages, (h.source,m.id) ∈ s.exported)
    (calm : ∀ d ∈ s.all, d.1 = h.source → s.start h.source < d.2 → s.cursor h.source < d.2 → d.2 ≤ last → d ∈ s.handed) :
    Kept config (s.move h.source last) := by
  obtain ⟨up,most⟩ := kept.tops hand stage tops
  have held : ∀ d ∈ s.handed, d ∈ s.exported := by
    intro d member
    rw [handed_of hand] at member
    obtain ⟨m,mem,rfl⟩ := mem_keys.mp member
    exact out m mem
  refine ⟨kept.distinct,fun runs d member => .inl (kept.moved_behind hand stage tops runs d member),fun d member after under => ?_,
    fun d => Int.le_trans (kept.saved d) (move_up up d),kept.queued,fun _ hand => no_hand hand,fun _ hand => no_hand hand,
    fun d member after => ?_⟩
  · rw [cursor_move] at under
    by_cases same : d.1 = h.source
    · rw [if_pos same] at under
      by_cases old : d.2 ≤ s.cursor h.source
      · exact kept.passed d member after (by rw [same]; exact old)
      · have after : s.start d.1 < d.2 := after
        rw [same] at after
        exact held d (calm d member same after (Int.not_le.mp old) under)
    · rw [if_neg same] at under
      exact kept.passed d member after under
  · obtain exported | wait | full := kept.waits d member after
    · exact .inl exported
    · obtain queue | held_ := mem_waiting.mp wait
      · exact .inr (.inl (mem_waiting.mpr (.inl queue)))
      · exact .inl (held d held_)
    · exact .inr (.inr full)

/-- A source that begins without what came before begins at its last message. -/
theorem Kept.skip (kept : Kept config s) {h : Hand} (hand : s.hand = some h) (stage : h.stage = .passed)
    (tops : Tops last h.messages) : Kept config (exec config (.skip h.source last) s).2 := by
  have further : h.stage ≠ .taken := by simp [stage]
  obtain ⟨up,most⟩ := kept.tops hand further tops
  have later : ∀ d : String × Int, Function.update s.start h.source (max (s.start h.source) last) d.1 < d.2 →
      s.start d.1 < d.2 ∧ (d.1 = h.source → last < d.2) := by
    intro d after
    rw [Function.update_apply] at after
    by_cases same : d.1 = h.source
    · rw [if_pos same] at after
      rw [same]
      exact ⟨by omega,fun _ => by omega⟩
    · rw [if_neg same] at after
      exact ⟨after,fun is_ => absurd is_ same⟩
  refine ⟨kept.distinct,fun runs d member => .inl (kept.moved_behind hand further tops runs d member),fun d member after under => ?_,
    fun d => Int.le_trans (kept.saved d) (move_up up d),kept.queued,fun _ hand => no_hand hand,fun _ hand => no_hand hand,
    fun d member after => ?_⟩
  · obtain ⟨before,over_⟩ := later d after
    have under : d.2 ≤ (s.move h.source last).cursor d.1 := under
    rw [cursor_move] at under
    by_cases same : d.1 = h.source
    · rw [if_pos same] at under
      have over_ := over_ same
      omega
    · rw [if_neg same] at under
      exact kept.passed d member before under
  · obtain ⟨before,over_⟩ := later d after
    obtain out | wait | full := kept.waits d member before
    · exact .inl out
    · obtain queue | held := mem_waiting.mp wait
      · exact .inr (.inl (mem_waiting.mpr (.inl queue)))
      · rw [handed_of hand] at held
        have over_ := over_ (hand_source held)
        have under := most d held
        omega
    · exact .inr (.inr full)

end Steps

section Runs
variable {config : Config} {c c' : Core (ingestor config)}

theorem exec_kept (owned : Cmd.free cmd = false → s.running ≠ none ∧ Allowed config cmd s)
    (calm : Calm config cmd s) (kept : Kept config s) : Kept config (exec config cmd s).2 := by
  cases cmd with
  | begin listen =>
    simp only [exec]
    split
    · rename_i idle
      exact kept.process fun _ _ => calm idle
    · exact kept
  | arrive m =>
    simp only [exec]
    split
    · exact kept.handler calm
    · exact kept
  | live => exact kept.process fun idle runs => absurd idle runs
  | stop => exact kept.process fun idle runs => absurd idle runs
  | adopt =>
    have none_ : s.memory = none := (owned rfl).2
    have same : (exec config .adopt s).2.cursor = s.cursor := by simp [State.cursor,exec,none_]
    exact ⟨kept.distinct,by rw [same]; exact kept.behind,by rw [same]; exact kept.passed,by rw [same]; exact kept.saved,kept.queued,
      kept.known,by rw [same]; exact kept.ahead,kept.waits⟩
  | receive source messages => exact kept.receive (owned rfl).2 calm.1 calm.2
  | shift =>
    have free : s.hand = none := (owned rfl).2
    simp only [exec]
    split
    · exact kept
    · rename_i m rest buffer
      exact kept.take free fun m' => by simp [buffer]
  | turn =>
    have free : s.hand = none := (owned rfl).2
    simp only [exec]
    split
    · exact kept
    · rename_i m rest chain
      exact kept.take free fun m' => by
        simp only [chain,mem_append,mem_cons]
        tauto
  | pass source m => exact kept.pass (owned rfl).2
  | append batch =>
    obtain ⟨runs,h,hand,stage,of_⟩ := owned rfl
    exact kept.append runs hand stage of_
  | advance source last =>
    obtain ⟨_,h,hand,stage,rfl,tops,now,before,out⟩ := owned rfl
    refine kept.advance hand stage tops (fun m member => out m member ?_) calm.1
    have recent := calm.2 h hand m member
    simp only [Config.recent,decide_eq_true_eq] at recent ⊢
    omega
  | skip source last =>
    obtain ⟨_,h,hand,stage,rfl,tops⟩ := owned rfl
    exact kept.skip hand stage tops
  | write content =>
    have memory : s.memory = some content := (owned rfl).2
    have same : (exec config (.write content) s).2.cursor = s.cursor := by simp [State.cursor,exec,memory]
    refine ⟨kept.distinct,by rw [same]; exact kept.behind,by rw [same]; exact kept.passed,fun source => ?_,kept.queued,kept.known,
      by rw [same]; exact kept.ahead,kept.waits⟩
    rw [same]
    simp [State.cursor,exec,memory]

/-- What was not exported by a process that ends is above the cursor that its file holds. -/
theorem Kept.restart (kept : Kept config s) : Kept config (restart s) := by
  have empty : ∀ {α : Type} (a : α), a ∉ ([] : List α) := fun _ => not_mem_nil
  refine ⟨kept.distinct,fun runs => absurd rfl runs,fun d member after under => ?_,fun _ => Int.le_refl _,
    fun m member => absurd member (empty m),fun _ hand => no_hand hand,fun _ hand => no_hand hand,
    fun d member => absurd member (empty d)⟩
  have member : d ∈ s.earlier ++ s.delivered ++ [] := member
  rw [append_nil] at member
  exact kept.passed d member after (Int.le_trans under (kept.saved d.1))

theorem change_kept (change : Change (discipline config) (fun cmd c => Calm config cmd c.state) c c')
    (kept : Kept config c.state) : Kept config c'.state := by
  cases change with
  | act i cmd inv may calm =>
    refine exec_kept (fun bound => ?_) calm kept
    obtain free | ⟨⟨k,runs,_⟩,allowed⟩ := may
    · rw [bound] at free
      cases free
    · exact ⟨by rw [runs]; nofun,allowed⟩
  | call i q inv may => exact kept
  | reply i q r inv => exact kept
  | shock x inv => exact kept.process fun idle runs => absurd idle runs
  | crash inv => exact kept.restart

theorem boot_kept (file : Cursors) (now : Int) : Kept config (boot file now) :=
  have empty : ∀ {α : Type} (a : α), a ∉ ([] : List α) := fun _ => not_mem_nil
  ⟨.nil,fun _ d member => absurd member (empty d),fun d member => absurd member (empty d),fun _ => Int.le_refl _,
    fun m member => absurd member (empty m),fun _ hand => no_hand hand,fun _ hand => no_hand hand,
    fun d member => absurd member (empty d)⟩

theorem boot_inv (file : Cursors) (now : Int) : (discipline config).inv ⟨boot file now,[]⟩ := by
  refine ⟨?_,?_,fun _ => rfl⟩
  · rintro i k ⟨listen,member⟩
    cases member
  · rintro i j k ⟨listen,member⟩
    cases member

theorem Kept.loses_nothing (kept : Kept config s) : LosesNothing config s := by
  refine ⟨fun d => nodup_iff_count.mp kept.distinct d,fun d member after => ?_⟩
  by_cases out : d ∈ s.exported
  · have once := nodup_iff_count.mp kept.distinct d
    have some_ := count_pos_iff.mpr out
    left
    unfold State.exports
    omega
  · right
    refine ⟨Int.not_le.mp fun under => out (kept.passed d member after under),?_⟩
    obtain earlier | new := mem_append.mp member
    · exact .inl earlier
    · exact .inr ((kept.waits d new after).resolve_left out)

end Runs

/-- In every run in which no cursor passes a message that is still to be exported, and every process starts from a file that
knows what was exported, nothing is lost and nothing is exported twice. -/
theorem exports_once (config : Config) (file : Cursors) (now : Int) (w : World (ingestor config))
    (run : LeadsIf (body config) (fun cmd c => Calm config cmd c.state) (.initial (boot file now)) w) :
    LosesNothing config w.core.state := by
  have governed : (World.initial (boot file now)).Governed (discipline config) := initial_governed (boot_inv file now) fun _ => id
  have changes := (governed.leadsIf discipline_sound (fun op i c _ inv => body_safe op i c inv) run).2
  have kept : Kept config w.core.state := changes.keeps (fun _ _ => change_kept) (boot_kept file now)
  exact kept.loses_nothing

/-! One source, at its tenth message. -/

def plain : Config where
  lookbackDays := 30
  historyPageSize := 100
  maxPagesPerSourcePerRun := 10
  maxMessagesPerSourcePerRun := 500
  liveBufferSize := 100
  sources := [{ id := "chat", peerId := "-1001" }]

def ten : Cursors := fun _ => 10

def message (number : Int) : Message := { id := number, peerId := "-1001", date := 1000000 }

/-- Reads bring these, and everything else goes well. -/
def fine (messages : List Message) (fiber : Nat) : Choice (ingestor plain) Op :=
  .resume fiber fun
    | .readFile => some (.ok ())
    | .writeFile _ => some (.ok ())
    | .appendFile _ => some (.ok ())
    | .collectMessages _ _ _ => some (.ok messages)
    | .idle => some false
    | .never => none

/-- Nothing was missed; then the twelfth message arrives before the eleventh. -/
def outOfOrder : List (Choice (ingestor plain) Op) :=
  [.invoke (.watch 10),fine [] 0,fine [] 0,fine [] 0,.invoke (.arrive (message 12)),.invoke (.arrive (message 11)),
    fine [] 0,fine [] 0,fine [] 0]

theorem loses_late : ¬∀ (config : Config) (file : Cursors) (now : Int) (w : World (ingestor config)),
    Leads (body config) (.initial (boot file now)) w → LosesNothing config w.core.state := by
  intro always
  have played : (World.play (body plain) 200 200 outOfOrder (.initial (boot ten 1000000000))).any fun w =>
      decide (w.core.state.exported = [("chat",12)] ∧ ("chat",(11 : Int)) ∈ w.core.state.all ∧
        w.core.state.cursor "chat" = 12 ∧ w.core.state.start "chat" = 10) := by decide +kernel
  obtain ⟨w,run,holds⟩ := World.play_any played
  obtain ⟨exported,member,cursor,start⟩ := of_decide_eq_true holds
  have lost := (always plain ten 1000000000 w run).2 ("chat",11) member (by rw [start]; decide)
  have none_ : w.core.state.exports ("chat",11) = 0 := by
    unfold State.exports
    rw [exported]
    decide
  rw [none_,cursor] at lost
  obtain no | above := lost
  · cases no
  · exact absurd above.1 (by decide)

def calmly (cmd : Cmd) (c : Core (ingestor plain)) : Bool :=
  match cmd with
  | .begin _ => decide (∀ d ∈ c.state.exported, d.2 ≤ c.state.file d.1)
  | .arrive m => decide (∀ d ∈ (plain.key m).toList, c.state.cursor d.1 < d.2 ∨ d ∈ c.state.exported)
  | .receive source messages => decide ((keys source messages).Nodup) && decide (∀ m ∈ messages, c.state.cursor source < m.id)
  | .advance source last =>
    (c.state.all.all fun d => d.1 != source || decide (d.2 ≤ c.state.cursor source) || decide (last < d.2) || c.state.handed.contains d) &&
      c.state.hand.toList.all fun h => h.messages.all fun m => plain.recent c.state.now m
  | _ => true

theorem calmly_calm (cmd : Cmd) (c : Core (ingestor plain)) (passes : calmly cmd c = true) : Calm plain cmd c.state := by
  cases cmd with
  | begin listen =>
    simp only [calmly,decide_eq_true_eq] at passes
    exact fun _ => passes
  | arrive m =>
    simp only [calmly,decide_eq_true_eq] at passes
    exact fun d key _ => passes d (Option.mem_toList.mpr key)
  | receive source messages =>
    simp only [calmly,Bool.and_eq_true,decide_eq_true_eq] at passes
    exact passes
  | advance source last =>
    simp only [calmly,Bool.and_eq_true,all_eq_true,Bool.or_eq_true,bne_iff_ne,decide_eq_true_eq,contains_iff_mem] at passes
    refine ⟨fun d member of_ _ above under => ?_,fun h hand m mem => passes.2 h (Option.mem_toList.mpr hand) m mem⟩
    obtain ((apart | below) | past) | held := passes.1 d member
    · exact absurd of_ apart
    · exact absurd above (Int.not_lt.mpr below)
    · exact absurd past (Int.not_lt.mpr under)
    · exact held
  | adopt => trivial
  | shift => trivial
  | turn => trivial
  | pass source m => trivial
  | append batch => trivial
  | skip source last => trivial
  | write content => trivial
  | live => trivial
  | stop => trivial

/-- One message was missed, the next arrives twice while it is read; the process stops, and the next one reads what came meanwhile. -/
def inOrder : List (Choice (ingestor plain) Op) :=
  [.invoke (.watch 10),fine [] 0,fine [] 0,.invoke (.arrive (message 12)),.invoke (.arrive (message 12)),fine [message 11] 0,
    fine [] 0,fine [] 0,fine [] 0,fine [] 0,.crash,.invoke (.watch 10),fine [] 3,fine [] 3,fine [message 13] 3,fine [] 3,fine [] 3,
    .invoke (.arrive (message 14)),fine [] 3,fine [] 3,fine [] 3]

theorem exports_once_plain : ∃ w : World (ingestor plain), LosesNothing plain w.core.state ∧
    w.core.state.exported = [("chat",11),("chat",12),("chat",13),("chat",14)] := by
  have played : (World.playIf (body plain) calmly 200 inOrder (.initial (boot ten 1000000000))).any fun w =>
      decide (w.core.state.exported = [("chat",11),("chat",12),("chat",13),("chat",14)]) := by decide +kernel
  obtain ⟨w,run,holds⟩ := (Option.any_eq_true _ _).mp played
  exact ⟨w,exports_once plain ten 1000000000 w (playIf_leads calmly_calm run),of_decide_eq_true holds⟩

end Neurobro.Ingestor
