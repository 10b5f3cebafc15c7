import Neurobro.Epoch.Reading
import Neurobro.Epoch.Multiplex

/-! What the loop of a multiplexer takes off its wire, and to which worker it goes. -/
namespace Neurobro.Epoch

open List

/-! Which reads of a wire end. -/

section Wires

variable {Value : Type} {js : Script Value}

/-- Only the read that waits may have ended. -/
structure Wire.Ends (w w' : Wire Value) : Prop where
  more : ∃ add, w'.settled = w.settled ++ add ∧ ∀ p ∈ add, w.read = some p.1
  read : w'.read = w.read ∨ w'.read = none

theorem Wire.Ends.same {w w' : Wire Value} (settled : w'.settled = w.settled) (read : w'.read = w.read) : w.Ends w' :=
  ⟨⟨[],by rw [settled,append_nil],by simp⟩,.inl read⟩

theorem Wire.Ends.trans {w w' w'' : Wire Value} (first : w.Ends w') (second : w'.Ends w'') : w.Ends w'' := by
  obtain ⟨add,settled,which⟩ := first.more
  obtain ⟨add',settled',which'⟩ := second.more
  refine ⟨⟨add ++ add',by rw [settled',settled,append_assoc],?_⟩,?_⟩
  · intro p in_
    rcases mem_append.mp in_ with in_ | in_
    · exact which p in_
    · rcases first.read with same | none_
      · rw [← same]
        exact which' p in_
      · have no := which' p in_
        rw [none_] at no
        contradiction
  · rcases second.read with same | none_
    · rw [same]
      exact first.read
    · exact .inr none_

theorem settle_ends (w : Wire Value) (result : Settled Value) : w.Ends (w.settle w.read result) := by
  refine ⟨⟨(w.read.map fun n => (n,result)).toList,rfl,?_⟩,.inl rfl⟩
  intro p in_
  cases waiting : w.read with
  | none => simp [waiting] at in_
  | some n =>
    simp only [waiting,Option.map_some,Option.toList_some,mem_singleton] at in_
    rw [in_]

theorem stop_ends (w : Wire Value) (fault : Fault) : w.Ends (w.stop fault) := by
  rw [Wire.stop]
  split
  · exact .same rfl rfl
  · exact ⟨(settle_ends w (.fault fault)).more,.inr rfl⟩

theorem deliver_ends (w : Wire Value) (value : Value) (bytes : Nat) : w.Ends (w.deliver value bytes).1 := by
  rw [Wire.deliver]
  split
  · exact ⟨(settle_ends w (.value value)).more,.inr rfl⟩
  · split <;> exact .same rfl rfl

theorem take_ends (js : Script Value) (w : Wire Value) (segment : Bytes) : w.Ends (w.take js segment).1 := by
  rw [Wire.take]
  split
  · exact .same rfl rfl
  · split
    · exact .same rfl rfl
    · split
      · exact .same rfl rfl
      · split
        · exact .same rfl rfl
        · have ends := deliver_ends { w with pending := [] } ‹_› ((w.pending ++ lineBody segment).length + 1)
          exact ⟨ends.more,ends.read⟩

theorem takeAll_ends (js : Script Value) (w : Wire Value) (parts : List Bytes) : w.Ends (w.takeAll js parts).1 := by
  induction parts generalizing w with
  | nil => exact .same rfl rfl
  | cons segment rest ih =>
    have one := take_ends js w segment
    rw [Wire.takeAll]
    split
    · rename_i result
      rw [result] at one
      exact one
    · rename_i result
      rw [result] at one
      exact one.trans (ih _)

/-- An event that is no read ends at most the read that waits. -/
theorem step_ends (js : Script Value) (w : Wire Value) (event : Event) (outer : event.outer) : w.Ends (w.step js event) := by
  cases event with
  | data chunk =>
    rw [Wire.step,Wire.onData]
    split
    · exact .same rfl rfl
    · have came : w.Ends (w.came chunk) := .same rfl rfl
      split
      · exact came.trans (stop_ends _ _)
      · have all := came.trans (takeAll_ends js (w.came chunk) (segments chunk))
        rw [Wire.caught]
        split
        · exact all.trans (stop_ends _ _)
        · exact all
  | receive timeoutMs => contradiction
  | end_ =>
    rw [Wire.step,Wire.onEnd]
    split
    · exact .same rfl rfl
    · split
      · exact stop_ends _ _
      · exact ⟨(settle_ends w _).more,.inr rfl⟩
  | timer n =>
    rw [Wire.step,Wire.readTimeout]
    split
    · exact ⟨(settle_ends w _).more,.inr rfl⟩
    · exact .same rfl rfl
  | readClose =>
    rw [Wire.step,Wire.onReadClose]
    split
    · exact .same rfl rfl
    · exact stop_ends _ _
  | foreign => exact stop_ends _ _
  | readError => exact stop_ends _ _
  | writeFault fault => exact stop_ends _ _
  | close => exact stop_ends _ _

/-- A new read ends at once or waits. -/
theorem receive_ends (w : Wire Value) (timeoutMs : Int) :
    ∃ add, (w.receive timeoutMs).settled = w.settled ++ add ∧ ∀ p ∈ add, p.1 = w.issued := by
  have one (result : Settled Value) : ∃ add, w.settled ++ ((some w.issued).map fun n => (n,result)).toList = w.settled ++ add ∧
      ∀ p ∈ add, p.1 = w.issued := ⟨_,rfl,by simp⟩
  rw [Wire.receive,Wire.receiving]
  split
  · exact one _
  · split
    · exact one _
    · split
      · exact one _
      · split
        · exact one _
        · split
          · exact one _
          · exact ⟨[],by simp,by simp⟩

/-- The frames that one read was given. -/
def Wire.gave (w : Wire Value) (n : Nat) : List Value := (w.settled.filter fun p => p.1 = n).filterMap fun p => p.2.value?

theorem gave_append {w w' : Wire Value} {add : List (Nat × Settled Value)} (settled : w'.settled = w.settled ++ add) (n : Nat)
    (all : ∀ p ∈ add, p.1 = n) : w'.gave n = w.gave n ++ add.filterMap fun p => p.2.value? := by
  have kept : add.filter (fun p => decide (p.1 = n)) = add := filter_eq_self.mpr fun p in_ => by simp [all p in_]
  rw [Wire.gave,settled,filter_append,kept,filterMap_append]
  rfl

theorem delivered_append {w w' : Wire Value} {add : List (Nat × Settled Value)} (settled : w'.settled = w.settled ++ add) :
    w'.delivered = w.delivered ++ add.filterMap fun p => p.2.value? := by
  rw [Wire.delivered,settled,filterMap_append]
  rfl

theorem gave_unknown {w : Wire Value} (unknown : n ∉ w.reads) : w.gave n = [] := by
  have none_ : w.settled.filter (fun p => decide (p.1 = n)) = [] := by
    rw [filter_eq_nil_iff]
    intro p in_ same
    exact unknown (of_decide_eq_true same ▸ mem_map_of_mem in_)
  rw [Wire.gave,none_]
  rfl

theorem filter_once {α : Type} {entries : List (Nat × α)} (once : (entries.map Prod.fst).Nodup) {p : Nat × α} (in_ : p ∈ entries) :
    entries.filter (fun q => q.1 = p.1) = [p] := by
  induction entries with
  | nil => contradiction
  | cons e entries ih =>
    simp only [map_cons,nodup_cons,mem_map,not_exists,not_and] at once
    rcases mem_cons.mp in_ with rfl | later
    · have rest : entries.filter (fun q => decide (q.1 = p.1)) = [] := by
        rw [filter_eq_nil_iff]
        intro q q_in same
        exact once.1 q q_in (of_decide_eq_true same)
      rw [filter_cons_of_pos (by simp),rest]
    · rw [filter_cons_of_neg (by simpa using fun same : e.1 = p.1 => once.1 p later same.symm)]
      exact ih once.2 later

/-- A read that ended gave what it ended with. -/
theorem gave_settled {w : Wire Value} (once : w.reads.Nodup)
    (found : w.settled.find? (fun p => p.1 = n) = some p) : n ∈ w.reads ∧ w.gave n = p.2.value?.toList := by
  have is_ : p.1 = n := by simpa using List.find?_some found
  have in_ := mem_of_find?_eq_some found
  refine ⟨is_ ▸ mem_map_of_mem in_,?_⟩
  rw [Wire.gave,← is_,filter_once once in_]
  cases got : p.2.value? <;> simp [got]

end Wires

/-! What the loop took is what the wire gave it. -/

variable {js : Script Json} {decoded : String → Option Nat}

structure Mux.Link (js : Script Json) (incoming : Bytes) (m : Mux) : Prop where
  wire : m.wire.Inv js
  begun : m.wire.stream <+: incoming
  whole : m.wire.terminal = none → m.wire.stream = incoming
  idle : m.pump = .idle → m.wire.issued = 0 ∧ m.taken = []
  reading : ∀ n, m.pump = .reading n → m.wire.issued = n + 1 ∧ (∀ k < n, k ∈ m.wire.reads) ∧
    m.wire.delivered = m.taken ++ m.wire.gave n
  ended : m.pump = .over_ → m.terminal.isSome ∨ m.peerClosed = true
  taken : m.taken <+: m.wire.delivered

/-- Between two reads of the loop: what the wire gave is what was taken. -/
structure Mux.Ready (js : Script Json) (incoming : Bytes) (m : Mux) : Prop where
  wire : m.wire.Inv js
  begun : m.wire.stream <+: incoming
  whole : m.wire.terminal = none → m.wire.stream = incoming
  all : ∀ k < m.wire.issued, k ∈ m.wire.reads
  same : m.wire.delivered = m.taken

theorem Mux.Ready.with_ {m m' : Mux} {incoming : Bytes} (ready : m.Ready js incoming) (wire : m'.wire = m.wire)
    (taken : m'.taken = m.taken) : m'.Ready js incoming :=
  ⟨by rw [wire]; exact ready.wire,by rw [wire]; exact ready.begun,by rw [wire]; exact ready.whole,by rw [wire]; exact ready.all,
    by rw [wire,taken]; exact ready.same⟩

/-- One more event of the wire, for what came in. -/
theorem wire_stream {w : Wire Json} {incoming : Bytes} (inv : w.Inv js) (begun : w.stream <+: incoming)
    (whole : w.terminal = none → w.stream = incoming) (event : Event) :
    (w.step js event).stream <+: incoming ++ received [event] ∧
      ((w.step js event).terminal = none → (w.step js event).stream = incoming ++ received [event]) := by
  rcases Option.eq_none_or_eq_some w.terminal with open_ | ⟨fault,ended⟩
  · have same : (w.step js event).stream = incoming ++ received [event] := by rw [step_stream inv open_ event,whole open_]
    exact ⟨by simp [same],fun _ => same⟩
  · obtain ⟨same,still⟩ := step_over js (w := w) (by rw [ended]; rfl) event
    refine ⟨by rw [same]; exact begun.trans (prefix_append _ _),?_⟩
    intro no
    rw [no] at still
    contradiction

theorem Mux.Link.outer {m : Mux} {incoming : Bytes} (link : m.Link js incoming) (event : Event) (outer : event.outer) :
    Mux.Link js (incoming ++ received [event]) { m with wire := m.wire.step js event } := by
  obtain ⟨begun,whole⟩ := wire_stream link.wire link.begun link.whole event
  obtain ⟨⟨add,settled,which⟩,_⟩ := step_ends js m.wire event outer
  have issued : (m.wire.step js event).issued = m.wire.issued := by
    rw [step_issued]
    cases event <;> first | rfl | contradiction
  have inv := link.wire.step event
  have grown := delivered_append settled
  refine ⟨inv,begun,whole,?_,?_,link.ended,?_⟩
  · intro idle
    exact ⟨issued.trans (link.idle idle).1,(link.idle idle).2⟩
  · intro n reading
    obtain ⟨count,earlier,given⟩ := link.reading n reading
    have ids : (m.wire.step js event).reads = m.wire.reads ++ add.map Prod.fst := by
      rw [Wire.reads,settled,map_append]
      rfl
    refine ⟨issued.trans count,?_,?_⟩
    · intro k less
      rw [ids]
      exact mem_append_left _ (earlier k less)
    · -- Only the newest read may still wait, so what was added belongs to it.
      have newest : ∀ p ∈ add, p.1 = n := by
        intro p in_
        obtain ⟨known,_,fresh⟩ := link.wire.reads.waits p.1 (which p in_)
        rw [count] at known
        by_contra other
        exact fresh (earlier p.1 (by omega))
      show (m.wire.step js event).delivered = m.taken ++ (m.wire.step js event).gave n
      rw [grown,gave_append settled n newest,given,append_assoc]
  · show m.taken <+: (m.wire.step js event).delivered
    rw [grown]
    exact link.taken.trans (prefix_append _ _)

theorem Mux.Ready.loop {m : Mux} {incoming : Bytes} (ready : m.Ready js incoming) : m.loop.Link js incoming := by
  rw [Mux.loop]
  split
  · rename_i ended
    refine ⟨ready.wire,ready.begun,ready.whole,by intro no; contradiction,by intro n no; contradiction,fun _ => .inl ended,?_⟩
    show m.taken <+: m.wire.delivered
    simp [ready.same]
  · obtain ⟨begun,whole⟩ := wire_stream ready.wire ready.begun ready.whole (.receive 1000)
    have nothing : incoming ++ received [.receive 1000] = incoming := by simp [received]
    rw [nothing] at begun whole
    obtain ⟨add,settled,which⟩ := receive_ends m.wire 1000
    have issued : (m.wire.receive 1000).issued = m.wire.issued + 1 := step_issued js m.wire (.receive 1000)
    have ids : (m.wire.receive 1000).reads = m.wire.reads ++ add.map Prod.fst := by
      rw [Wire.reads,settled,map_append]
      rfl
    have unknown : m.wire.issued ∉ m.wire.reads := by
      intro in_
      have := ready.wire.reads.known _ in_
      omega
    have grown : (m.wire.receive 1000).delivered = m.taken ++ (m.wire.receive 1000).gave m.wire.issued := by
      rw [delivered_append settled,gave_append settled _ which,gave_unknown unknown,ready.same]
      rfl
    refine ⟨ready.wire.step (.receive 1000),begun,whole,by intro no; contradiction,?_,by intro no; contradiction,?_⟩
    · intro n is_
      have is_ : Pump.reading m.wire.issued = .reading n := is_
      cases is_
      refine ⟨issued,?_,grown⟩
      intro k less
      show k ∈ (m.wire.receive 1000).reads
      rw [ids]
      exact mem_append_left _ (ready.all k less)
    · show m.taken <+: (m.wire.receive 1000).delivered
      rw [grown]
      exact prefix_append _ _

/-- Before the loop begins nothing came off the wire. -/
theorem Mux.Link.ready {m : Mux} {incoming : Bytes} (link : m.Link js incoming) (idle : m.pump = .idle) :
    m.Ready js incoming := by
  obtain ⟨none_,taken⟩ := link.idle idle
  have nothing : m.wire.settled = [] := by
    rw [← map_eq_nil_iff (f := Prod.fst),eq_nil_iff_forall_not_mem]
    intro n in_
    have := link.wire.reads.known n in_
    omega
  refine ⟨link.wire,link.begun,link.whole,?_,?_⟩
  · intro k less
    omega
  · rw [Wire.delivered,nothing,taken]
    rfl

/-- After a read of the loop ended, with what it gave taken too. -/
theorem Mux.Link.next {m : Mux} {incoming : Bytes} (link : m.Link js incoming) (reading : m.pump = .reading n)
    (ended : n ∈ m.wire.reads) (m' : Mux) (wire : m'.wire = m.wire) (taken : m'.taken = m.taken ++ m.wire.gave n) :
    m'.Ready js incoming := by
  obtain ⟨count,earlier,given⟩ := link.reading n reading
  refine ⟨wire ▸ link.wire,wire ▸ link.begun,wire ▸ link.whole,?_,?_⟩
  · intro k less
    rw [wire] at less ⊢
    by_cases newest : k = n
    · rw [newest]
      exact ended
    · exact earlier k (by omega)
  · rw [wire,taken,given]

/-- The loop is over for a reason. -/
theorem Mux.Ready.over_ {m : Mux} {incoming : Bytes} (ready : m.Ready js incoming) (pump : m.pump = .over_)
    (reason : m.terminal.isSome ∨ m.peerClosed = true) : m.Link js incoming := by
  refine ⟨ready.wire,ready.begun,ready.whole,?_,?_,fun _ => reason,?_⟩
  · intro no
    rw [pump] at no
    contradiction
  · intro n no
    rw [pump] at no
    contradiction
  · simp [ready.same]

/-! What goes to which worker. -/

def MuxSettled.value? : MuxSettled → Option Json
  | .value frame => some frame
  | .fault _ => none

/-- The frames a channel was given, in their order. -/
def Mux.out (m : Mux) (c : Channel) : List Json :=
  m.settled.filterMap fun p => if p.2.1 = c then p.2.2.value? else none

/-- The frame in an envelope, if it is for that channel. -/
def frameFor (js : Script Json) (workers : Workers) (c : Channel) (raw : Json) : Option Json :=
  match route js workers raw with
  | .ok (to_,frame,_) => if to_ = c then some frame else none
  | .error _ => none

def framesFor (js : Script Json) (workers : Workers) (c : Channel) (raws : List Json) : List Json :=
  raws.filterMap (frameFor js workers c)

/-- The bytes of all queues. -/
def total (slots : Channel → Slot) : List Channel → Nat
  | [] => 0
  | c :: rest => sizes (slots c).queue + total slots rest

theorem total_same (slots : Channel → Slot) (c : Channel) (slot : Slot) (channels : List Channel) (absent : c ∉ channels) :
    total (Function.update slots c slot) channels = total slots channels := by
  induction channels with
  | nil => rfl
  | cons d channels ih =>
    simp only [mem_cons,not_or] at absent
    simp [total,ih absent.2,Function.update_of_ne (Ne.symm absent.1)]

theorem total_update (slots : Channel → Slot) (c : Channel) (slot : Slot) {channels : List Channel} (in_ : c ∈ channels)
    (distinct : channels.Nodup) :
    total (Function.update slots c slot) channels + sizes (slots c).queue = total slots channels + sizes slot.queue := by
  induction channels with
  | nil => contradiction
  | cons d channels ih =>
    obtain ⟨absent,rest⟩ := nodup_cons.mp distinct
    by_cases same : c = d
    · subst same
      simp only [total,Function.update_self,total_same slots c slot channels absent]
      omega
    · have later : c ∈ channels := by simpa [same] using in_
      simp only [total,Function.update_of_ne (Ne.symm same)]
      have := ih later rest
      omega

theorem total_empty (channels : List Channel) : total (fun _ => {}) channels = 0 := by
  induction channels with
  | nil => rfl
  | cons c channels ih => simp [total,sizes,ih]

theorem total_queues (same : ∀ c, (slots' c).queue = (slots c).queue) (channels : List Channel) :
    total slots' channels = total slots channels := by
  induction channels with
  | nil => rfl
  | cons c channels ih => simp [total,same,ih]

theorem channels_nodup (w : Workers) : w.channels.Nodup := by
  rw [Workers.channels,nodup_append]
  refine ⟨?_,by simp,?_⟩
  · exact w.distinct.map fun a b same => by simpa using same
  · intro c in_ d is_ same
    obtain ⟨id,_,rfl⟩ := mem_map.mp in_
    rw [mem_singleton.mp is_] at same
    contradiction

/-- A frame goes only where a worker, or the pool, waits for it. -/
theorem route_known {raw frame : Json} {size : Nat}
    (routed : route js workers raw = .ok (c,frame,size)) : c ∈ workers.channels := by
  simp only [route,bind,Except.bind] at routed
  split at routed
  · contradiction
  · split at routed
    · split at routed
      · contradiction
      · simp only [Except.ok.injEq,Prod.mk.injEq] at routed
        simp [Workers.channels,← routed.1]
    · split at routed
      · split at routed
        · contradiction
        · rename_i fits
          split at routed
          · contradiction
          · split at routed
            · contradiction
            · simp only [Except.ok.injEq,Prod.mk.injEq] at routed
              simp only [not_or,not_not] at fits
              simp [Workers.channels,← routed.1,fits.2]
      · contradiction

/-- What a channel was given and what is queued for it are its own frames. -/
structure Mux.Split (js : Script Json) (m : Mux) : Prop where
  running : m.terminal = none → ∀ c, framesFor js m.workers c m.taken = m.out c ++ (m.slots c).queue.map Prod.fst
  stopped : ∀ c, m.out c <+: framesFor js m.workers c m.taken
  counted : m.bytes = total m.slots m.workers.channels
  waits : ∀ c, (m.slots c).waiting.isSome → (m.slots c).queue = []
  over_ : m.terminal.isSome → ∀ c, m.slots c = {}

theorem waiters_fault (m : Mux) (fault : MuxFault) : ∀ p ∈ m.waiters fault, p.2.2.value? = none := by
  intro p in_
  obtain ⟨c,_,is_⟩ := mem_filterMap.mp in_
  obtain ⟨n,_,rfl⟩ := Option.map_eq_some_iff.mp is_
  rfl

/-- Faults give no channel a frame. -/
theorem out_faults {m m' : Mux} (add : List (Nat × Channel × MuxSettled)) (settled : m'.settled = m.settled ++ add)
    (faults : ∀ p ∈ add, p.2.2.value? = none) (c : Channel) : m'.out c = m.out c := by
  have none_ : (add.filterMap fun p => if p.2.1 = c then p.2.2.value? else none) = [] := by
    rw [filterMap_eq_nil_iff]
    intro p in_
    simp [faults p in_]
  rw [Mux.out,settled,filterMap_append,none_,append_nil]
  rfl

theorem out_value {m m' : Mux} {frame : Json} (settled : m'.settled = m.settled ++ [(n,c,.value frame)])
    (d : Channel) : m'.out d = m.out d ++ if c = d then [frame] else [] := by
  rw [Mux.out,settled,filterMap_append]
  by_cases same : c = d <;> simp [same,MuxSettled.value?,Mux.out]

theorem framesFor_next (workers : Workers) (c : Channel) (raws : List Json) (raw : Json) :
    framesFor js workers c (raws ++ [raw]) = framesFor js workers c raws ++ (frameFor js workers c raw).toList := by
  rw [framesFor,filterMap_append]
  cases got : frameFor js workers c raw <;> simp [framesFor,got]

/-- A stop keeps what went out, and empties the rest. -/
theorem stop_split {m : Mux} (stopped : ∀ c, m.out c <+: framesFor js m.workers c m.taken) (fault : MuxFault) :
    (m.stop fault).Split js := by
  have out (c : Channel) : (m.stop fault).out c = m.out c := out_faults (m.waiters (m.terminal.getD fault)) rfl (waiters_fault m _) c
  refine ⟨by intro no; contradiction,?_,?_,?_,fun _ c => rfl⟩
  · intro c
    rw [out]
    exact stopped c
  · exact (total_empty _).symm
  · intro c no
    contradiction

/-- One more frame off the wire is none for anybody, as long as nobody took it. -/
theorem stopped_later {m : Mux} (split : m.Split js) (raw : Json) (c : Channel) :
    m.out c <+: framesFor js m.workers c (m.taken ++ [raw]) := by
  rw [framesFor_next]
  exact (split.stopped c).trans (prefix_append _ _)

/-- Handing a frame over touches its channel only. -/
theorem place_kept (m : Mux) (c : Channel) (frame : Json) (size : Nat) :
    (m.place c frame size).1.wire = m.wire ∧ (m.place c frame size).1.taken = m.taken ∧
      (m.place c frame size).1.terminal = m.terminal ∧ (m.place c frame size).1.workers = m.workers := by
  rw [Mux.place]
  split
  · exact ⟨rfl,rfl,rfl,rfl⟩
  · split <;> exact ⟨rfl,rfl,rfl,rfl⟩

theorem place_refused {m : Mux} (c : Channel) (frame : Json) (size : Nat)
    (refused : (m.place c frame size).2 = some code) : (m.place c frame size).1 = m := by
  rw [Mux.place] at refused ⊢
  split at refused
  · contradiction
  · split at refused
    · rename_i none_ full
      simp only [none_]
      rw [if_pos full]
    · contradiction

/-- One channel changes: what it was given and what is queued for it are still its own frames. -/
theorem Mux.Split.channel {m m' : Mux} (split_ : m.Split js) (was : m.terminal = none) (running : m'.terminal = none)
    (workers : m'.workers = m.workers) (known : c ∈ m.workers.channels) {slot : Slot}
    (slots : m'.slots = Function.update m.slots c slot)
    (mine : framesFor js m.workers c m'.taken = m'.out c ++ slot.queue.map Prod.fst)
    (others : ∀ d, d ≠ c → framesFor js m.workers d m'.taken = framesFor js m.workers d m.taken ∧ m'.out d = m.out d)
    (bytes : m'.bytes + sizes (m.slots c).queue = m.bytes + sizes slot.queue)
    (waits : slot.waiting.isSome → slot.queue = []) : m'.Split js := by
  have all (d : Channel) : framesFor js m'.workers d m'.taken = m'.out d ++ (m'.slots d).queue.map Prod.fst := by
    rw [workers,slots]
    by_cases same : d = c
    · subst same
      rw [Function.update_self]
      exact mine
    · rw [Function.update_of_ne same,(others d same).1,(others d same).2]
      exact split_.running was d
  refine ⟨fun _ => all,?_,?_,?_,?_⟩
  · intro d
    rw [all]
    exact prefix_append _ _
  · have sum := total_update m.slots c slot known (channels_nodup m.workers)
    have counted := split_.counted
    rw [workers,slots]
    omega
  · intro d
    rw [slots]
    by_cases same : d = c
    · rw [same,Function.update_self]
      exact waits
    · rw [Function.update_of_ne same]
      exact split_.waits d
  · intro ended
    rw [running] at ended
    contradiction

theorem place_split {m : Mux} (split_ : m.Split js) (running : m.terminal = none) {raw frame : Json} {size : Nat}
    (routed : route js m.workers raw = .ok (c,frame,size))
    (placed : (Mux.place { m with taken := m.taken ++ [raw] } c frame size).2 = none) :
    (Mux.place { m with taken := m.taken ++ [raw] } c frame size).1.Split js := by
  have next (d : Channel) : framesFor js m.workers d (m.taken ++ [raw]) =
      framesFor js m.workers d m.taken ++ if c = d then [frame] else [] := by
    rw [framesFor_next,frameFor,routed]
    by_cases same : c = d <;> simp [same]
  have known := route_known routed
  rw [Mux.place] at placed ⊢
  split
  · rename_i n waiting
    have waiting : (m.slots c).waiting = some n := waiting
    have empty := split_.waits c (by rw [waiting]; rfl)
    refine split_.channel running running rfl known rfl ?_ ?_ rfl (by intro no; contradiction)
    · refine (next c).trans ?_
      rw [out_value (m := m) rfl c,split_.running running c]
      simp [empty]
    · intro d other
      refine ⟨(next d).trans (by simp [Ne.symm other]),?_⟩
      rw [out_value (m := m) rfl d]
      simp [Ne.symm other]
  · rename_i idle
    have idle : (m.slots c).waiting = none := idle
    split
    · rename_i full
      simp only [idle,if_pos full] at placed
      contradiction
    · refine split_.channel running running rfl known rfl ?_ ?_ ?_ ?_
      · refine (next c).trans ?_
        rw [split_.running running c]
        simp [Mux.out]
      · intro d other
        exact ⟨(next d).trans (by simp [Ne.symm other]),rfl⟩
      · simp only [sizes_append,sizes]
        omega
      · intro no
        rw [show Slot.waiting _ = none from idle] at no
        contradiction

/-- The close of the pool gives nobody a frame. -/
theorem shut_split {m : Mux} (split_ : m.Split js) : m.shut.Split js := by
  have out (c : Channel) : m.shut.out c = m.out c := out_faults (m.waiters (.pool .closed)) rfl (waiters_fault m _) c
  have same : total m.shut.slots m.workers.channels = total m.slots m.workers.channels := by
    refine total_queues ?_ _
    intro c
    rfl
  refine ⟨?_,?_,split_.counted.trans same.symm,by intro c no; contradiction,?_⟩
  · intro running c
    rw [out]
    exact split_.running running c
  · intro c
    rw [out]
    exact split_.stopped c
  · intro ended c
    have empty := split_.over_ ended c
    show { m.slots c with waiting := none } = ({} : Slot)
    rw [empty]

theorem loop_split {m : Mux} (split_ : m.Split js) : m.loop.Split js := by
  rw [Mux.loop]
  split <;> exact ⟨split_.running,split_.stopped,split_.counted,split_.waits,split_.over_⟩

theorem fails_split {m : Mux} (stopped : ∀ c, m.out c <+: framesFor js m.workers c m.taken) (code : MuxCode) :
    (m.fails code).Split js := by
  have split_ := stop_split stopped (.pool code)
  exact ⟨split_.running,split_.stopped,split_.counted,split_.waits,split_.over_⟩

/-- What holds of a multiplexer after every event. -/
structure Mux.Inv (js : Script Json) (incoming : Bytes) (m : Mux) : Prop where
  link : m.Link js incoming
  split_ : m.Split js

theorem fails_inv {m : Mux} {incoming : Bytes} (ready : m.Ready js incoming)
    (stopped : ∀ c, m.out c <+: framesFor js m.workers c m.taken) (code : MuxCode) : (m.fails code).Inv js incoming :=
  ⟨Mux.Ready.over_ (ready.with_ rfl rfl) rfl (.inl rfl),fails_split stopped code⟩

theorem take_inv {m : Mux} {incoming : Bytes} (split_ : m.Split js) (running : m.terminal = none)
    (ready : Mux.Ready js incoming { m with taken := m.taken ++ [raw] }) : (m.take js raw).Inv js incoming := by
  have later := stopped_later split_ raw
  rw [Mux.take]
  split
  · exact fails_inv ready later _
  · rename_i c frame size routed
    obtain ⟨wire,taken,terminal,workers⟩ := place_kept { m with taken := m.taken ++ [raw] } c frame size
    have ready' := ready.with_ wire taken
    split
    · rename_i m' code placed
      have same := place_refused (m := { m with taken := m.taken ++ [raw] }) c frame size (by rw [placed])
      rw [placed] at same
      rw [show m' = _ from same]
      exact fails_inv ready later _
    · rename_i m' placed
      have placed_ := place_split split_ running routed (by rw [placed])
      rw [placed] at placed_ ready'
      split
      · have over_ : m'.shut.Link js incoming := Mux.Ready.over_ (ready'.with_ rfl rfl) rfl (.inr rfl)
        exact ⟨over_,shut_split placed_⟩
      · exact ⟨ready'.loop,loop_split placed_⟩

theorem resume_inv {m : Mux} {incoming : Bytes} (inv : m.Inv js incoming) : (m.resume js).Inv js incoming := by
  rw [Mux.resume]
  split
  · rename_i n reading
    split
    · exact inv
    · rename_i found
      obtain ⟨ended,gave⟩ := gave_settled inv.link.wire.reads.once found
      have ready : m.Ready js incoming := inv.link.next reading ended m rfl (by rw [gave]; simp [Settled.value?])
      split
      · exact ⟨ready.loop,loop_split inv.split_⟩
      · exact fails_inv ready inv.split_.stopped _
    · rename_i raw found
      obtain ⟨ended,gave⟩ := gave_settled inv.link.wire.reads.once found
      split
      · rename_i over_
        refine ⟨⟨inv.link.wire,inv.link.begun,inv.link.whole,by intro no; contradiction,by intro k no; contradiction,
          fun _ => .inl over_,inv.link.taken⟩,?_⟩
        exact ⟨inv.split_.running,inv.split_.stopped,inv.split_.counted,inv.split_.waits,inv.split_.over_⟩
      · rename_i running
        exact take_inv inv.split_ (by simpa using running) (inv.link.next reading ended _ rfl (by rw [gave]; rfl))
  · exact inv

/-- What leaves the wire, the loop and the queues alone keeps everything. -/
structure Mux.Quiet (m m' : Mux) : Prop where
  workers : m'.workers = m.workers
  wire : m'.wire = m.wire
  pump : m'.pump = m.pump
  taken : m'.taken = m.taken
  terminal : m'.terminal = m.terminal
  peerClosed : m'.peerClosed = m.peerClosed

theorem Mux.Link.quiet {m m' : Mux} {incoming : Bytes} (link : m.Link js incoming) (quiet : m.Quiet m') :
    m'.Link js incoming := by
  obtain ⟨_,wire,pump,taken,terminal,closed⟩ := quiet
  refine ⟨by rw [wire]; exact link.wire,by rw [wire]; exact link.begun,by rw [wire]; exact link.whole,?_,?_,?_,?_⟩
  · rw [pump,wire,taken]
    exact link.idle
  · rw [pump,wire,taken]
    exact link.reading
  · rw [pump,terminal,closed]
    exact link.ended
  · rw [wire,taken]
    exact link.taken

/-- A fault for one read. -/
theorem settle_split {m : Mux} (split_ : m.Split js) (n : Nat) (c : Channel) (fault : MuxFault) :
    (m.settle n c (.fault fault)).Split js := by
  have out (d : Channel) : (m.settle n c (.fault fault)).out d = m.out d :=
    out_faults ([(n,c,.fault fault)]) rfl (by simp [MuxSettled.value?]) d
  refine ⟨?_,?_,split_.counted,split_.waits,split_.over_⟩
  · intro running d
    rw [out]
    exact split_.running running d
  · intro d
    rw [out]
    exact split_.stopped d

theorem start_inv {m : Mux} {incoming : Bytes} (link : m.Link js incoming) (split_ : m.Split js) : m.start.Inv js incoming := by
  rw [Mux.start]
  split
  · rename_i idle
    exact ⟨(link.ready idle).loop,loop_split split_⟩
  · exact ⟨link,split_⟩

theorem receiving_inv {m : Mux} {incoming : Bytes} (inv : m.Inv js incoming) (n : Nat) (c : Channel) (known : c ∈ m.workers.channels)
    (timeoutMs : Int) : (m.receiving n c timeoutMs).Inv js incoming := by
  have refused (fault : MuxFault) : (m.settle n c (.fault fault)).Inv js incoming :=
    ⟨inv.link.quiet ⟨rfl,rfl,rfl,rfl,rfl,rfl⟩,settle_split inv.split_ n c fault⟩
  rw [Mux.receiving]
  split
  · exact refused _
  · split
    · exact refused _
    · rename_i running
      split
      · exact refused _
      · rename_i idle
        split
        · rename_i saved rest queued
          refine ⟨inv.link.quiet ⟨rfl,rfl,rfl,rfl,rfl,rfl⟩,?_⟩
          refine inv.split_.channel running running rfl known rfl ?_ ?_ ?_ ?_
          · rw [out_value (m := m) rfl c]
            refine (inv.split_.running running c).trans ?_
            simp [queued]
          · intro d other
            refine ⟨rfl,?_⟩
            rw [out_value (m := m) rfl d]
            simp [Ne.symm other]
          · have sum := total_update m.slots c {} known (channels_nodup m.workers)
            have counted := inv.split_.counted
            rw [queued] at sum ⊢
            simp only [sizes] at sum ⊢
            omega
          · intro no
            exact absurd no idle
        · rename_i empty
          split
          · exact refused _
          · have split_ : Mux.Split js { m with slots := Function.update m.slots c { m.slots c with waiting := some n } } := by
              refine inv.split_.channel running running rfl known rfl ?_ ?_ rfl ?_
              · exact inv.split_.running running c
              · intro d _
                exact ⟨rfl,rfl⟩
              · intro _
                exact empty
            exact start_inv (inv.link.quiet ⟨rfl,rfl,rfl,rfl,rfl,rfl⟩) split_

theorem receive_inv {m : Mux} {incoming : Bytes} (inv : m.Inv js incoming) (c : Channel) (timeoutMs : Int) :
    (m.receive c timeoutMs).Inv js incoming := by
  rw [Mux.receive]
  split
  · rename_i known
    have inv' : Mux.Inv js incoming { m with issued := m.issued + 1 } :=
      ⟨inv.link.quiet ⟨rfl,rfl,rfl,rfl,rfl,rfl⟩,
        ⟨inv.split_.running,inv.split_.stopped,inv.split_.counted,inv.split_.waits,inv.split_.over_⟩⟩
    exact receiving_inv inv' m.issued c known timeoutMs
  · exact inv

theorem readTimer_inv {m : Mux} {incoming : Bytes} (inv : m.Inv js incoming) (c : Channel) (n : Nat) :
    (m.readTimer c n).Inv js incoming := by
  rw [Mux.readTimer]
  split
  · rename_i waiting
    refine ⟨inv.link.quiet ⟨rfl,rfl,rfl,rfl,rfl,rfl⟩,?_⟩
    have settled := settle_split inv.split_ n c (.wire (.timeout .read))
    have queues (d : Channel) : (Function.update m.slots c { m.slots c with waiting := none } d).queue = (m.slots d).queue := by
      by_cases same : d = c
      · rw [same,Function.update_self]
      · rw [Function.update_of_ne same]
    refine ⟨?_,settled.stopped,settled.counted.trans (total_queues queues _).symm,?_,?_⟩
    · intro running d
      show _ = _ ++ (Function.update m.slots c { m.slots c with waiting := none } d).queue.map Prod.fst
      rw [queues]
      exact settled.running running d
    · intro d waits
      refine (queues d).trans ?_
      by_cases same : d = c
      · subst same
        exact inv.split_.waits d (by rw [waiting]; rfl)
      · rw [show Mux.slots _ = Function.update m.slots c { m.slots c with waiting := none } from rfl,Function.update_of_ne same] at waits
        exact inv.split_.waits d waits
    · intro ended
      have none_ := inv.split_.over_ ended c
      rw [none_] at waiting
      contradiction
  · exact inv

theorem stop_inv {m : Mux} {incoming : Bytes} (inv : m.Inv js incoming) (fault : MuxFault) :
    (m.stop fault).Inv js incoming := by
  refine ⟨⟨inv.link.wire,inv.link.begun,inv.link.whole,inv.link.idle,inv.link.reading,fun _ => .inl rfl,inv.link.taken⟩,?_⟩
  exact stop_split inv.split_.stopped fault

/-! The writing side leaves the reading side alone, unless it stops everything. -/

theorem Mux.Inv.apart {m m' : Mux} {incoming : Bytes} (inv : m.Inv js incoming) (quiet : m.Quiet m') (slots : m'.slots = m.slots)
    (bytes : m'.bytes = m.bytes) (settled : m'.settled = m.settled) : m'.Inv js incoming := by
  have out (c : Channel) : m'.out c = m.out c := by rw [Mux.out,settled]; rfl
  refine ⟨inv.link.quiet quiet,?_,?_,?_,?_,?_⟩
  · rw [quiet.terminal,quiet.workers,quiet.taken,slots]
    intro running c
    rw [out]
    exact inv.split_.running running c
  · rw [quiet.workers,quiet.taken]
    intro c
    rw [out]
    exact inv.split_.stopped c
  · rw [bytes,slots,quiet.workers]
    exact inv.split_.counted
  · rw [slots]
    exact inv.split_.waits
  · rw [quiet.terminal,slots]
    exact inv.split_.over_

theorem report_inv {m : Mux} {incoming : Bytes} (inv : m.Inv js incoming) (n : Nat) (result : Option MuxFault) :
    (m.report n result).Inv js incoming := by
  rw [Mux.report]
  split
  · exact inv
  · exact inv.apart ⟨rfl,rfl,rfl,rfl,rfl,rfl⟩ rfl rfl rfl

theorem leave_inv {m : Mux} {incoming : Bytes} (inv : m.Inv js incoming) (op : Operation) (rest : List Operation) :
    (m.leave op rest).Inv js incoming := inv.apart ⟨rfl,rfl,rfl,rfl,rfl,rfl⟩ rfl rfl rfl

theorem answer_inv {m : Mux} {incoming : Bytes} (inv : m.Inv js incoming) (result : Option MuxFault) :
    (m.answer result).Inv js incoming := (report_inv inv m.calls result).apart ⟨rfl,rfl,rfl,rfl,rfl,rfl⟩ rfl rfl rfl

theorem send_inv {m : Mux} {incoming : Bytes} (inv : m.Inv js incoming) (worker : String) (value : Json) (bound : Bound)
    (timeoutMs : Int) : (m.send js decoded worker value bound timeoutMs).Inv js incoming := by
  rw [Mux.send]
  split
  · exact inv
  · split
    · exact answer_inv inv _
    · split
      · exact answer_inv inv _
      · split
        · exact answer_inv inv _
        · split
          · exact answer_inv inv _
          · split
            · exact answer_inv inv _
            · exact inv.apart ⟨rfl,rfl,rfl,rfl,rfl,rfl⟩ rfl rfl rfl

theorem requestPoolClose_inv {m : Mux} {incoming : Bytes} (inv : m.Inv js incoming) (timeoutMs : Int) :
    (m.requestPoolClose timeoutMs).Inv js incoming := by
  rw [Mux.requestPoolClose]
  split
  · exact answer_inv inv _
  · split
    · exact inv
    · split
      · exact answer_inv inv _
      · split
        · exact answer_inv inv _
        · exact inv.apart ⟨rfl,rfl,rfl,rfl,rfl,rfl⟩ rfl rfl rfl

theorem writeTimer_inv {m : Mux} {incoming : Bytes} (inv : m.Inv js incoming) (n : Nat) : (m.writeTimer n).Inv js incoming := by
  have expired : (m.expire n).Inv js incoming := inv.apart ⟨rfl,rfl,rfl,rfl,rfl,rfl⟩ rfl rfl rfl
  rw [Mux.writeTimer]
  split
  · exact inv
  · split
    · exact inv
    · split
      · exact report_inv (stop_inv inv _) _ _
      · split
        · exact report_inv (stop_inv expired _) _ _
        · exact report_inv expired _ _

theorem advance_inv {m : Mux} {incoming : Bytes} (inv : m.Inv js incoming) (late : Bool) :
    (m.advance late).Inv js incoming := by
  have dispatched (op : Operation) (rest : List Operation) : (m.dispatch op rest).Inv js incoming :=
    inv.apart ⟨rfl,rfl,rfl,rfl,rfl,rfl⟩ rfl rfl rfl
  rw [Mux.advance]
  split
  · exact inv
  · rename_i op rest _
    have left := leave_inv inv op rest
    split
    · exact inv
    · split
      · rw [Mux.startSend]
        split
        · exact left
        · split
          · exact report_inv left _ _
          · split
            · exact report_inv left _ _
            · split
              · exact report_inv left _ _
              · exact dispatched op rest
      · rw [Mux.startClose]
        split
        · exact report_inv (stop_inv left _) _ _
        · split
          · exact report_inv left _ _
          · split
            · exact report_inv (stop_inv left _) _ _
            · exact dispatched op rest

theorem wrote_inv {m : Mux} {incoming : Bytes} (inv : m.Inv js incoming) (result : Option MuxFault) :
    (m.wrote result).Inv js incoming := by
  have marked (well : Bool) : (m.mark well).Inv js incoming := inv.apart ⟨rfl,rfl,rfl,rfl,rfl,rfl⟩ rfl rfl rfl
  rw [Mux.wrote]
  split
  · exact inv
  · split
    · split
      · exact report_inv (leave_inv (marked true) _ _) _ _
      · exact report_inv (stop_inv (leave_inv (marked false) _ _) _) _ _
    · exact inv

/-- The bytes that an event brings in on the wire below. -/
def MuxEvent.bytes : MuxEvent → Bytes
  | .wire event => received [event]
  | _ => []

def incoming (events : List MuxEvent) : Bytes := events.flatMap MuxEvent.bytes

theorem Mux.Inv.step {m : Mux} {before : Bytes} (inv : m.Inv js before) (decoded : String → Option Nat) (event : MuxEvent) :
    (m.step js decoded event).Inv js (before ++ event.bytes) := by
  have kept {m' : Mux} (inv' : m'.Inv js before) : m'.Inv js (before ++ []) := by
    rw [append_nil]
    exact inv'
  cases event with
  | wire event =>
    rw [Mux.step]
    split
    · rename_i outer
      have split_ := inv.split_
      exact ⟨inv.link.outer event outer,⟨split_.running,split_.stopped,split_.counted,split_.waits,split_.over_⟩⟩
    · rename_i read
      cases event <;> first | exact kept inv | exact absurd rfl read
  | resume => exact kept (resume_inv inv)
  | receive c timeoutMs => exact kept (receive_inv inv c timeoutMs)
  | readTimer c n => exact kept (readTimer_inv inv c n)
  | send worker value bound timeoutMs => exact kept (send_inv inv worker value bound timeoutMs)
  | requestPoolClose timeoutMs => exact kept (requestPoolClose_inv inv timeoutMs)
  | writeTimer n => exact kept (writeTimer_inv inv n)
  | advance late => exact kept (advance_inv inv late)
  | wrote result => exact kept (wrote_inv inv result)
  | abort => exact kept (stop_inv inv _)
  | close => exact kept (stop_inv inv _)

theorem Mux.Inv.run {m : Mux} {before : Bytes} (inv : m.Inv js before) (decoded : String → Option Nat) (events : List MuxEvent) :
    (m.run js decoded events).Inv js (before ++ incoming events) := by
  induction events generalizing m before with
  | nil =>
    rw [show incoming [] = [] from rfl,append_nil]
    exact inv
  | cons event events ih =>
    have next := ih (inv.step decoded event)
    rw [append_assoc] at next
    exact next

theorem create_inv (js : Script Json) (workers : Workers) (aborted : Bool) :
    (createStandingMultiplexEpochWire workers aborted).Inv js [] := by
  have wire := inv_start js
  have fresh : Mux.Inv js [] { workers := workers } := by
    refine ⟨⟨wire,prefix_rfl,fun _ => rfl,fun _ => ⟨rfl,rfl⟩,by intro n no; contradiction,by intro no; contradiction,
      prefix_rfl⟩,?_⟩
    exact ⟨fun _ c => rfl,fun c => prefix_rfl,(total_empty _).symm,by intro c no; contradiction,fun _ c => rfl⟩
  rw [createStandingMultiplexEpochWire]
  split
  · exact stop_inv fresh _
  · exact fresh

end Neurobro.Epoch
