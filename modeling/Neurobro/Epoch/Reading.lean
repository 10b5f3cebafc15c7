import Neurobro.Epoch.Wire
import Mathlib.Tactic.Common

/-! What came in on a wire and what went out: however the bytes are cut into chunks, and whenever reads, timers
and faults come, the frames go out in their order, each once. -/
namespace Neurobro.Epoch

open List

variable {Value : Type} {js : Script Value}

def Settled.value? : Settled Value → Option Value
  | .value v => some v
  | .fault _ => none

/-- The frames that went out, in their order. -/
def Wire.delivered (w : Wire Value) : List Value := w.settled.filterMap fun p => p.2.value?

def Wire.reads (w : Wire Value) : List Nat := w.settled.map Prod.fst

/-- The bytes of the frames in a queue. -/
def sizes : List (Value × Nat) → Nat
  | [] => 0
  | e :: rest => e.2 + sizes rest

theorem sizes_append (q r : List (Value × Nat)) : sizes (q ++ r) = sizes q + sizes r := by
  induction q with
  | nil => simp [sizes]
  | cons e q ih => simp [sizes,ih,Nat.add_assoc]

/-- How the reads stand: each ended once or waits, and only while nothing is queued. -/
structure Wire.Reads (w : Wire Value) : Prop where
  waits : ∀ n, w.read = some n → n < w.issued ∧ w.queue = [] ∧ n ∉ w.reads
  once : w.reads.Nodup
  known : ∀ n ∈ w.reads, n < w.issued
  each : ∀ n < w.issued, n ∈ w.reads ∨ w.read = some n
  counted : w.queuedBytes = sizes w.queue
  over_ : w.terminal.isSome → w.read = none ∧ w.queue = []

/-- The lines of what came in are those that went out, then those that are queued, then the line
that is not complete. -/
structure Wire.Flow (js : Script Value) (w : Wire Value) (stream : Bytes) : Prop where
  left : (cut [] stream).2 = w.pending
  frames : ∃ done todo, (cut [] stream).1 = done ++ todo ∧ done.map (parseFrame js) = w.delivered.map some ∧
    todo.map (fun line => (parseFrame js line,line.length + 1)) = w.queue.map fun q => (some q.1,q.2)

/-- What went out is a beginning of the lines of what came in. -/
def Wire.Begins (js : Script Value) (w : Wire Value) (stream : Bytes) : Prop :=
  w.delivered.map some <+: (cut [] stream).1.map (parseFrame js)

theorem Wire.Flow.begins {w : Wire Value} {stream : Bytes} (flow : w.Flow js stream) : w.Begins js stream := by
  obtain ⟨done,todo,lines,out,_⟩ := flow.frames
  rw [Wire.Begins,lines,map_append,out]
  exact prefix_append _ _

theorem Wire.Begins.later {w : Wire Value} {stream more : Bytes} (begins : w.Begins js stream) :
    w.Begins js (stream ++ more) := by
  rw [Wire.Begins,cut_append,map_append]
  exact begins.trans (prefix_append _ _)

/-! Settling a read. -/

@[simp] theorem settle_reads (w : Wire Value) (reads : Option Nat) (result : Settled Value) :
    (w.settle reads result).reads = w.reads ++ reads.toList := by
  cases reads <;> simp [Wire.settle,Wire.reads]

theorem settle_fault (w : Wire Value) (reads : Option Nat) (fault : Fault) :
    (w.settle reads (.fault fault)).delivered = w.delivered := by
  cases reads <;> simp [Wire.settle,Wire.delivered,Settled.value?]

theorem settle_value (w : Wire Value) (n : Nat) (value : Value) :
    (w.settle (some n) (.value value)).delivered = w.delivered ++ [value] := by
  simp [Wire.settle,Wire.delivered,Settled.value?]

/-- The read that waits ends. -/
theorem Wire.Reads.settle {w : Wire Value} (reads : w.Reads) {n : Nat} (waiting : w.read = some n) (result : Settled Value) :
    Wire.Reads { w.settle w.read result with read := none } := by
  obtain ⟨known,empty,fresh⟩ := reads.waits n waiting
  have ids : Wire.reads { w.settle w.read result with read := none } = w.reads ++ [n] := by
    have := settle_reads w w.read result
    rw [waiting] at this ⊢
    exact this
  refine ⟨?_,?_,?_,?_,?_,?_⟩
  · intro m no
    contradiction
  · rw [ids]
    exact nodup_append.mpr ⟨reads.once,by simp,by
      intro a in_ b is_
      rw [mem_singleton.mp is_]
      intro same
      exact fresh (same ▸ in_)⟩
  · intro m in_
    rw [ids] at in_
    rcases mem_append.mp in_ with old | new
    · exact reads.known m old
    · rw [mem_singleton.mp new]
      exact known
  · intro m less
    rw [ids]
    rcases reads.each m less with old | wait
    · exact .inl (mem_append_left _ old)
    · rw [waiting] at wait
      cases wait
      exact .inl (by simp)
  · exact reads.counted
  · intro terminal
    exact ⟨rfl,(reads.over_ terminal).2⟩

theorem Wire.Reads.stop {w : Wire Value} (reads : w.Reads) (fault : Fault) : (w.stop fault).Reads := by
  by_cases over_ : w.terminal.isSome
  · rw [Wire.stop,if_pos over_]
    exact reads
  · rw [Wire.stop,if_neg over_]
    cases waiting : w.read with
    | none =>
      have same := settle_reads w none (.fault fault)
      simp only [Option.toList_none,append_nil] at same
      refine ⟨by intro n no; contradiction,?_,?_,?_,rfl,fun _ => ⟨rfl,rfl⟩⟩
      · have once := reads.once
        rw [← same] at once
        exact once
      · intro n in_
        exact reads.known n (same ▸ in_)
      · intro n less
        rcases reads.each n less with old | wait
        · exact .inl (same.symm ▸ old)
        · rw [waiting] at wait
          contradiction
    | some n =>
      have settled := reads.settle waiting (.fault fault)
      rw [waiting] at settled
      exact ⟨by intro m no; contradiction,settled.once,settled.known,fun m less => .inl ((settled.each m less).elim id (by
        intro no
        contradiction)),rfl,fun _ => ⟨rfl,rfl⟩⟩

@[simp] theorem stop_delivered (w : Wire Value) (fault : Fault) : (w.stop fault).delivered = w.delivered := by
  rw [Wire.stop]
  split
  · rfl
  · exact settle_fault w w.read fault

@[simp] theorem stop_stream (w : Wire Value) (fault : Fault) : (w.stop fault).stream = w.stream := by
  rw [Wire.stop]
  split <;> rfl

theorem stop_terminal (w : Wire Value) (fault : Fault) : (w.stop fault).terminal.isSome := by
  rw [Wire.stop]
  split
  · assumption
  · rfl

/-! Taking in a chunk. -/

theorem lineBody_line (body : Bytes) : lineBody (body ++ [newline]) = body := by
  simp [lineBody]

theorem lineBody_plain (body : Bytes) (plain : newline ∉ body) : lineBody body = body ∧ body.getLast? ≠ some newline := by
  have other : body.getLast? ≠ some newline := by
    intro last
    exact plain (mem_of_getLast? last)
  exact ⟨by rw [lineBody,if_neg other],other⟩

/-- The stream with one more line. -/
theorem cut_next (stream body : Bytes) (plain : newline ∉ body) :
    cut [] (stream ++ (body ++ [newline])) = ((cut [] stream).1 ++ [(cut [] stream).2 ++ body],[]) := by
  rw [cut_append,cut_line _ body [] plain]
  simp [cut]

theorem Wire.Reads.deliver {w : Wire Value} (reads : w.Reads) (open_ : w.terminal = none) (value : Value) (bytes : Nat) :
    (w.deliver value bytes).1.Reads ∧ (w.deliver value bytes).1.terminal = none ∧ (w.deliver value bytes).1.stream = w.stream := by
  cases waiting : w.read with
  | some n =>
    have settled := reads.settle waiting (.value value)
    rw [Wire.deliver,if_pos (by rw [waiting]; rfl)]
    exact ⟨settled,open_,rfl⟩
  | none =>
    rw [Wire.deliver,if_neg (by simp [waiting])]
    split
    · exact ⟨reads,open_,rfl⟩
    · refine ⟨⟨?_,reads.once,reads.known,reads.each,?_,?_⟩,open_,rfl⟩
      · intro n no
        have no' : w.read = some n := no
        rw [waiting] at no'
        contradiction
      · show w.queuedBytes + bytes = sizes (w.queue ++ [(value,bytes)])
        rw [sizes_append,reads.counted]
        rfl
      · intro over_
        have over' : w.terminal.isSome := over_
        rw [open_] at over'
        contradiction

/-- A frame that is taken in is the next line: it goes out, or into the queue behind the others. -/
theorem Wire.Flow.deliver {w : Wire Value} {stream body : Bytes} (reads : w.Reads) (flow : w.Flow js stream)
    (plain : newline ∉ body) {value : Value} (parsed : parseFrame js (w.pending ++ body) = some value)
    (taken : (Wire.deliver { w with pending := [] } value ((w.pending ++ body).length + 1)).2 = none) :
    (Wire.deliver { w with pending := [] } value ((w.pending ++ body).length + 1)).1.Flow js (stream ++ (body ++ [newline])) := by
  obtain ⟨done,todo,lines,out,queued⟩ := flow.frames
  have next := cut_next stream body plain
  rw [flow.left] at next
  rcases Option.eq_none_or_eq_some w.read with idle | ⟨n,waiting⟩
  · rw [Wire.deliver,if_neg (by simp [idle])] at taken ⊢
    split at taken
    · contradiction
    · rename_i room
      rw [if_neg room]
      refine ⟨by rw [next],done,todo ++ [w.pending ++ body],?_,out,?_⟩
      · rw [next,lines]
        simp
      · show _ = (w.queue ++ [(value,(w.pending ++ body).length + 1)]).map _
        rw [map_append,map_append,queued]
        simp [parsed]
  · -- A read waits only while nothing is queued, so all earlier lines went out already.
    have none_left : w.queue = [] := (reads.waits n waiting).2.1
    have rest : todo = [] := by simpa [none_left] using queued
    rw [Wire.deliver,if_pos (by simp [waiting])]
    refine ⟨by rw [next]; rfl,done ++ [w.pending ++ body],[],?_,?_,?_⟩
    · rw [next,lines,rest]
      simp
    · have more := settle_value w n value
      rw [← waiting] at more
      show _ = (Wire.delivered (w.settle w.read (.value value))).map some
      rw [more]
      simp [out,parsed]
    · show _ = w.queue.map _
      simp [none_left]

/-- What a chunk leaves behind: every line of it taken in, or a code and the lines before it. -/
structure Wire.Taken (js : Script Value) (w : Wire Value) (stream : Bytes) (taken : Wire Value × Option WireCode) : Prop where
  reads : taken.1.Reads
  running : taken.1.terminal = none
  kept : taken.1.stream = w.stream
  begins : taken.1.Begins js stream
  flow : taken.2 = none → taken.1.Flow js stream

theorem taken_refused {w : Wire Value} {stream more : Bytes} (reads : w.Reads) (open_ : w.terminal = none) (flow : w.Flow js stream)
    (code : WireCode) : w.Taken js (stream ++ more) (w,some code) :=
  ⟨reads,open_,rfl,flow.begins.later,by intro no; contradiction⟩

theorem taken_last {w : Wire Value} {stream : Bytes} (reads : w.Reads) (open_ : w.terminal = none) (flow : w.Flow js stream)
    (body : Bytes) (plain : newline ∉ body) : w.Taken js (stream ++ body) (w.take js body) := by
  obtain ⟨same,other⟩ := lineBody_plain body plain
  rw [Wire.take,same,if_pos other]
  split
  · exact taken_refused reads open_ flow .bounds
  · have cuts : cut [] (stream ++ body) = ((cut [] stream).1,w.pending ++ body) := by
      rw [cut_append,cut_plain _ body plain,flow.left]
      simp
    have flows : Wire.Flow js { w with pending := w.pending ++ body } (stream ++ body) := by
      refine ⟨by rw [cuts],?_⟩
      rw [cuts]
      exact flow.frames
    exact ⟨⟨reads.waits,reads.once,reads.known,reads.each,reads.counted,reads.over_⟩,open_,rfl,flows.begins,fun _ => flows⟩

theorem taken_line {w : Wire Value} {stream : Bytes} (reads : w.Reads) (open_ : w.terminal = none) (flow : w.Flow js stream)
    (body : Bytes) (plain : newline ∉ body) : w.Taken js (stream ++ (body ++ [newline])) (w.take js (body ++ [newline])) := by
  rw [Wire.take,lineBody_line]
  split
  · exact taken_refused reads open_ flow .bounds
  · rw [if_neg (by simp)]
    split
    · exact taken_refused reads open_ flow .frame
    · split
      · exact taken_refused reads open_ flow .frame
      · rename_i value parsed
        have bare : Wire.Reads { w with pending := [] } :=
          ⟨reads.waits,reads.once,reads.known,reads.each,reads.counted,reads.over_⟩
        obtain ⟨still,running,kept⟩ := bare.deliver open_ value ((w.pending ++ body).length + 1)
        refine ⟨still,running,kept,?_,flow.deliver reads plain parsed⟩
        cases code : (Wire.deliver { w with pending := [] } value ((w.pending ++ body).length + 1)).2 with
        | none => exact (flow.deliver reads plain parsed code).begins
        | some _ =>
          -- A frame that finds no room changes nothing.
          have nothing : (Wire.deliver { w with pending := [] } value ((w.pending ++ body).length + 1)).1.delivered = w.delivered := by
            rw [Wire.deliver] at code ⊢
            split at code
            · contradiction
            · rename_i waits
              rw [if_neg waits]
              split at code
              · rename_i full
                rw [if_pos full]
                rfl
              · contradiction
          rw [Wire.Begins,nothing]
          exact flow.begins.later

theorem taken_all (chunk : Bytes) : ∀ (w : Wire Value) (stream : Bytes), w.Reads → w.terminal = none → w.Flow js stream →
    w.Taken js (stream ++ chunk) (w.takeAll js (segments chunk)) := by
  induction chunk using chunk_induction with
  | empty =>
    intro w stream reads open_ flow
    rw [append_nil]
    exact ⟨reads,open_,rfl,flow.begins,fun _ => flow⟩
  | last b body plain =>
    intro w stream reads open_ flow
    have taken := taken_last reads open_ flow (b :: body) plain
    rw [segments_plain b body plain,Wire.takeAll]
    cases result : w.take js (b :: body) with
    | mk w' code =>
      rw [result] at taken
      cases code with
      | none => exact taken
      | some code => exact taken
  | line body rest plain ih =>
    intro w stream reads open_ flow
    have taken := taken_line reads open_ flow body plain
    have whole : stream ++ (body ++ newline :: rest) = stream ++ (body ++ [newline]) ++ rest := by simp
    rw [segments_line body rest plain,Wire.takeAll,whole]
    cases result : w.take js (body ++ [newline]) with
    | mk w' code =>
      rw [result] at taken
      cases code with
      | none =>
        have later := ih w' (stream ++ (body ++ [newline])) taken.reads taken.running (taken.flow rfl)
        exact ⟨later.reads,later.running,later.kept.trans taken.kept,later.begins,later.flow⟩
      | some code => exact ⟨taken.reads,taken.running,taken.kept,taken.begins.later,by intro no; contradiction⟩

/-! Single events. -/

/-- What holds of a wire after every event. -/
structure Wire.Inv (js : Script Value) (w : Wire Value) : Prop where
  reads : w.Reads
  flow : w.terminal = none → w.Flow js w.stream
  begins : w.Begins js w.stream

theorem Wire.Inv.stop {w : Wire Value} (inv : w.Inv js) (fault : Fault) : (w.stop fault).Inv js := by
  refine ⟨inv.reads.stop fault,?_,?_⟩
  · intro open_
    have over_ := stop_terminal w fault
    rw [open_] at over_
    contradiction
  · rw [Wire.Begins,stop_delivered,stop_stream]
    exact inv.begins

/-- A read that waits ends without a frame. -/
theorem Wire.Inv.fails {w : Wire Value} (inv : w.Inv js) (fault : Fault) :
    Wire.Inv js { w.settle w.read (.fault fault) with read := none } := by
  have same : Wire.delivered { w.settle w.read (.fault fault) with read := none } = w.delivered := settle_fault w w.read fault
  refine ⟨?_,?_,?_⟩
  · rcases Option.eq_none_or_eq_some w.read with idle | ⟨n,waiting⟩
    · have plain : { w.settle w.read (.fault fault) with read := none } = w := by
        rcases w with ⟨_,_,_,_,_,_,reading,_,_,_⟩
        have none_ : reading = none := idle
        simp [Wire.settle,none_]
      rw [plain]
      exact inv.reads
    · exact inv.reads.settle waiting (.fault fault)
  · intro open_
    obtain ⟨left,done,todo,lines,out,queued⟩ := inv.flow open_
    refine ⟨left,done,todo,lines,?_,queued⟩
    rw [same]
    exact out
  · rw [Wire.Begins,same]
    exact inv.begins

/-- A read ends as soon as it comes. -/
theorem Wire.Reads.atOnce {w : Wire Value} (reads : w.Reads) (result : Settled Value) :
    Wire.Reads (Wire.settle { w with issued := w.issued + 1 } (some w.issued) result) := by
  have ids : (Wire.settle { w with issued := w.issued + 1 } (some w.issued) result).reads = w.reads ++ [w.issued] := settle_reads _ _ _
  refine ⟨?_,?_,?_,?_,reads.counted,reads.over_⟩
  · intro n waiting
    obtain ⟨known,empty,fresh⟩ := reads.waits n waiting
    refine ⟨Nat.lt_succ_of_lt known,empty,?_⟩
    rw [ids]
    simp only [mem_append,mem_singleton,not_or]
    exact ⟨fresh,by omega⟩
  · rw [ids,nodup_append]
    refine ⟨reads.once,by simp,?_⟩
    intro a in_ b is_ same
    have old := reads.known a in_
    rw [mem_singleton] at is_
    omega
  · intro n in_
    rw [ids,mem_append,mem_singleton] at in_
    show n < w.issued + 1
    rcases in_ with old | new
    · have := reads.known n old
      omega
    · omega
  · intro n less
    have less' : n < w.issued + 1 := less
    rw [ids,mem_append,mem_singleton]
    by_cases new : n = w.issued
    · exact .inl (.inr new)
    · rcases reads.each n (by omega) with old | waiting
      · exact .inl (.inl old)
      · exact .inr waiting

/-- A read that fails at once leaves the frames as they are. -/
theorem Wire.Inv.refused {w : Wire Value} (inv : w.Inv js) (fault : Fault) :
    Wire.Inv js (Wire.settle { w with issued := w.issued + 1 } (some w.issued) (.fault fault)) := by
  have same : Wire.delivered (Wire.settle { w with issued := w.issued + 1 } (some w.issued) (.fault fault)) = w.delivered :=
    settle_fault _ _ fault
  refine ⟨inv.reads.atOnce _,?_,?_⟩
  · intro open_
    obtain ⟨left,done,todo,lines,out,queued⟩ := inv.flow open_
    refine ⟨left,done,todo,lines,?_,queued⟩
    rw [same]
    exact out
  · rw [Wire.Begins,same]
    exact inv.begins

/-- A read that finds a frame takes the first one. -/
theorem Wire.Inv.shift {w : Wire Value} (inv : w.Inv js) (open_ : w.terminal = none) (next : Value × Nat) (rest : List (Value × Nat))
    (queued : w.queue = next :: rest) :
    Wire.Inv js { Wire.settle { w with issued := w.issued + 1 } (some w.issued) (.value next.1) with
      queue := rest, queuedBytes := w.queuedBytes - next.2 } := by
  have base := inv.reads.atOnce (.value next.1)
  have idle : w.read = none := by
    rcases Option.eq_none_or_eq_some w.read with idle | ⟨n,waiting⟩
    · exact idle
    · have empty := (inv.reads.waits n waiting).2.1
      rw [queued] at empty
      contradiction
  have more : Wire.delivered { Wire.settle { w with issued := w.issued + 1 } (some w.issued) (.value next.1) with
      queue := rest, queuedBytes := w.queuedBytes - next.2 } = w.delivered ++ [next.1] :=
    settle_value { w with issued := w.issued + 1 } w.issued next.1
  have flows : Wire.Flow js { Wire.settle { w with issued := w.issued + 1 } (some w.issued) (.value next.1) with
      queue := rest, queuedBytes := w.queuedBytes - next.2 } w.stream := by
    obtain ⟨left,done,todo,lines,out,same⟩ := inv.flow open_
    rw [queued] at same
    cases todo with
    | nil => contradiction
    | cons line todo =>
      simp only [map_cons,List.cons.injEq,Prod.mk.injEq] at same
      refine ⟨left,done ++ [line],todo,by rw [lines]; simp,?_,same.2⟩
      rw [more,map_append,map_append,out]
      simp [same.1.1]
  refine ⟨⟨?_,base.once,base.known,base.each,?_,?_⟩,fun _ => flows,flows.begins⟩
  · intro n waiting
    have waiting' : w.read = some n := waiting
    rw [idle] at waiting'
    contradiction
  · show w.queuedBytes - next.2 = sizes rest
    rw [inv.reads.counted,queued]
    simp [sizes]
  · intro over_
    have over' : w.terminal.isSome := over_
    rw [open_] at over'
    contradiction

/-- A read that finds nothing waits. -/
theorem Wire.Inv.waits {w : Wire Value} (inv : w.Inv js) (open_ : w.terminal = none) (idle : w.read = none) (empty : w.queue = []) :
    Wire.Inv js { w with issued := w.issued + 1, read := some w.issued } := by
  refine ⟨⟨?_,inv.reads.once,?_,?_,inv.reads.counted,?_⟩,?_,inv.begins⟩
  · intro n waiting
    have is_ : some w.issued = some n := waiting
    cases is_
    refine ⟨Nat.lt_succ_self _,empty,?_⟩
    intro in_
    have := inv.reads.known _ in_
    omega
  · intro n in_
    exact Nat.lt_succ_of_lt (inv.reads.known n in_)
  · intro n less
    have less' : n < w.issued + 1 := less
    by_cases new : n = w.issued
    · exact .inr (by rw [new])
    · rcases inv.reads.each n (by omega) with old | waiting
      · exact .inl old
      · rw [idle] at waiting
        contradiction
  · intro over_
    have over' : w.terminal.isSome := over_
    rw [open_] at over'
    contradiction
  · intro _
    exact ⟨(inv.flow open_).left,(inv.flow open_).frames⟩

theorem Wire.Inv.receive {w : Wire Value} (inv : w.Inv js) (timeoutMs : Int) : (w.receive timeoutMs).Inv js := by
  rw [Wire.receive,Wire.receiving]
  split
  · exact inv.refused _
  · rename_i open_
    split
    · exact inv.refused _
    · split
      · exact inv.refused _
      · rename_i idle
        split
        · rename_i next rest queued
          exact inv.shift open_ next rest queued
        · rename_i empty
          split
          · exact inv.refused _
          · exact inv.waits open_ (by simpa using idle) empty

theorem Wire.Inv.onData {w : Wire Value} (inv : w.Inv js) (chunk : Bytes) : (w.onData js chunk).Inv js := by
  rw [Wire.onData]
  split
  · exact inv
  · rename_i running
    have open_ : w.terminal = none := by simpa using running
    have reads : (w.came chunk).Reads :=
      ⟨inv.reads.waits,inv.reads.once,inv.reads.known,inv.reads.each,inv.reads.counted,inv.reads.over_⟩
    have flow : (w.came chunk).Flow js w.stream := ⟨(inv.flow open_).left,(inv.flow open_).frames⟩
    split
    · have came : Wire.Begins js (w.came chunk) (w.came chunk).stream := inv.begins.later
      refine ⟨reads.stop _,?_,?_⟩
      · intro no
        have over_ := stop_terminal (w.came chunk) (.error .bounds)
        rw [no] at over_
        contradiction
      · rw [Wire.Begins,stop_delivered,stop_stream]
        exact came
    · have taken := taken_all chunk (w.came chunk) w.stream reads open_ flow
      have kept : ((w.came chunk).takeAll js (segments chunk)).1.stream = w.stream ++ chunk := taken.kept
      rw [Wire.caught]
      split
      · refine ⟨taken.reads.stop _,?_,?_⟩
        · intro no
          have over_ := stop_terminal ((w.came chunk).takeAll js (segments chunk)).1 (.error ‹_›)
          rw [no] at over_
          contradiction
        · rw [Wire.Begins,stop_delivered,stop_stream,kept]
          exact taken.begins
      · rename_i fine_
        refine ⟨taken.reads,?_,?_⟩
        · intro _
          rw [kept]
          exact taken.flow fine_
        · rw [kept]
          exact taken.begins

theorem Wire.Inv.onEnd {w : Wire Value} (inv : w.Inv js) : w.onEnd.Inv js := by
  rw [Wire.onEnd]
  split
  · exact inv
  · split
    · exact inv.stop _
    · have failed := inv.fails (.error .eof)
      exact ⟨⟨failed.reads.waits,failed.reads.once,failed.reads.known,failed.reads.each,failed.reads.counted,failed.reads.over_⟩,
        fun open_ => ⟨(failed.flow open_).left,(failed.flow open_).frames⟩,failed.begins⟩

theorem Wire.Inv.readTimeout {w : Wire Value} (inv : w.Inv js) (n : Nat) : (w.readTimeout n).Inv js := by
  rw [Wire.readTimeout]
  split
  · exact inv.fails (.timeout .read)
  · exact inv

theorem Wire.Inv.step {w : Wire Value} (inv : w.Inv js) (event : Event) : (w.step js event).Inv js := by
  cases event with
  | data chunk => exact inv.onData chunk
  | foreign => exact inv.stop _
  | end_ => exact inv.onEnd
  | readError => exact inv.stop _
  | readClose =>
    rw [Wire.step,Wire.onReadClose]
    split
    · exact inv
    · exact inv.stop _
  | writeFault fault => exact inv.stop fault
  | receive timeoutMs => exact inv.receive timeoutMs
  | timer n => exact inv.readTimeout n
  | close => exact inv.stop _

theorem inv_start (js : Script Value) : Wire.Inv js ({} : Wire Value) := by
  have flow : Wire.Flow js ({} : Wire Value) [] := ⟨rfl,[],[],rfl,rfl,rfl⟩
  exact ⟨⟨by intro n no; contradiction,nodup_nil,by intro n no; contradiction,by intro n no; exact absurd no (Nat.not_lt_zero n),
    rfl,by intro no; contradiction⟩,fun _ => flow,flow.begins⟩

theorem Wire.Inv.run {w : Wire Value} (inv : w.Inv js) (events : List Event) : (w.run js events).Inv js := by
  induction events generalizing w with
  | nil => exact inv
  | cons event events ih => exact ih (inv.step event)

/-! What a whole run keeps. -/

/-- The bytes that came in. -/
def received : List Event → Bytes
  | [] => []
  | .data chunk :: rest => chunk ++ received rest
  | _ :: rest => received rest

/-- How many reads there were. -/
def asked : List Event → Nat
  | [] => 0
  | .receive _ :: rest => asked rest + 1
  | _ :: rest => asked rest

theorem received_cons (event : Event) (rest : List Event) : received (event :: rest) = received [event] ++ received rest := by
  cases event <;> simp [received]

theorem asked_cons (event : Event) (rest : List Event) : asked (event :: rest) = asked [event] + asked rest := by
  cases event <;> simp [asked,Nat.add_comm]

@[simp] theorem stop_issued (w : Wire Value) (fault : Fault) : (w.stop fault).issued = w.issued := by
  rw [Wire.stop]
  split <;> rfl

theorem stop_ended {w : Wire Value} (ended : w.terminal.isSome) (fault : Fault) : w.stop fault = w := by
  rw [Wire.stop,if_pos ended]

theorem deliver_issued (w : Wire Value) (value : Value) (bytes : Nat) : (w.deliver value bytes).1.issued = w.issued := by
  rw [Wire.deliver]
  split
  · rfl
  · split <;> rfl

theorem take_issued (js : Script Value) (w : Wire Value) (segment : Bytes) : (w.take js segment).1.issued = w.issued := by
  rw [Wire.take]
  split
  · rfl
  · split
    · rfl
    · split
      · rfl
      · split
        · rfl
        · exact deliver_issued _ _ _

theorem takeAll_issued (js : Script Value) (w : Wire Value) (parts : List Bytes) :
    (w.takeAll js parts).1.issued = w.issued := by
  induction parts generalizing w with
  | nil => rfl
  | cons segment rest ih =>
    have one := take_issued js w segment
    rw [Wire.takeAll]
    split
    · rename_i result
      rw [result] at one
      exact one
    · rename_i result
      rw [result] at one
      rw [ih]
      exact one

/-- An event asks for a frame or it does not. -/
theorem step_issued (js : Script Value) (w : Wire Value) (event : Event) :
    (w.step js event).issued = w.issued + asked [event] := by
  cases event with
  | data chunk =>
    show (w.onData js chunk).issued = w.issued
    rw [Wire.onData]
    split
    · rfl
    · split
      · exact stop_issued _ _
      · have same : ((w.came chunk).takeAll js (segments chunk)).1.issued = w.issued := takeAll_issued js _ _
        rw [Wire.caught]
        split
        · rw [stop_issued]
          exact same
        · exact same
  | receive timeoutMs =>
    show (Wire.receiving { w with issued := w.issued + 1 } w.issued timeoutMs).issued = w.issued + 1
    rw [Wire.receiving]
    split
    · rfl
    · split
      · rfl
      · split
        · rfl
        · split
          · rfl
          · split <;> rfl
  | end_ =>
    show w.onEnd.issued = w.issued
    rw [Wire.onEnd]
    split
    · rfl
    · split
      · exact stop_issued _ _
      · rfl
  | timer n =>
    show (w.readTimeout n).issued = w.issued
    rw [Wire.readTimeout]
    split <;> rfl
  | readClose =>
    show w.onReadClose.issued = w.issued
    rw [Wire.onReadClose]
    split
    · rfl
    · exact stop_issued _ _
  | foreign => exact stop_issued _ _
  | readError => exact stop_issued _ _
  | writeFault fault => exact stop_issued _ _
  | close => exact stop_issued _ _

theorem run_issued (js : Script Value) (w : Wire Value) (events : List Event) :
    (w.run js events).issued = w.issued + asked events := by
  induction events generalizing w with
  | nil => rfl
  | cons event events ih =>
    have later := ih (w.step js event)
    rw [step_issued] at later
    rw [asked_cons,← Nat.add_assoc]
    exact later

/-- A terminal wire takes nothing in and stays terminal. -/
theorem step_over (js : Script Value) {w : Wire Value} (ended : w.terminal.isSome) (event : Event) :
    (w.step js event).stream = w.stream ∧ (w.step js event).terminal.isSome := by
  cases event with
  | data chunk =>
    rw [Wire.step,Wire.onData,if_pos ended]
    exact ⟨rfl,ended⟩
  | receive timeoutMs =>
    rw [Wire.step,Wire.receive,Wire.receiving]
    split
    · exact ⟨rfl,ended⟩
    · rename_i open_
      have open' : w.terminal = none := open_
      rw [open'] at ended
      contradiction
  | end_ =>
    rw [Wire.step,Wire.onEnd,if_pos ended]
    exact ⟨rfl,ended⟩
  | timer n =>
    rw [Wire.step,Wire.readTimeout]
    split <;> exact ⟨rfl,ended⟩
  | readClose =>
    rw [Wire.step,Wire.onReadClose,stop_ended ended]
    split <;> exact ⟨rfl,ended⟩
  | foreign => exact ⟨stop_stream _ _,stop_terminal _ _⟩
  | readError => exact ⟨stop_stream _ _,stop_terminal _ _⟩
  | writeFault fault => exact ⟨stop_stream _ _,stop_terminal _ _⟩
  | close => exact ⟨stop_stream _ _,stop_terminal _ _⟩

theorem run_over (js : Script Value) {w : Wire Value} (ended : w.terminal.isSome) (events : List Event) :
    (w.run js events).stream = w.stream ∧ (w.run js events).terminal.isSome := by
  induction events generalizing w with
  | nil => exact ⟨rfl,ended⟩
  | cons event events ih =>
    obtain ⟨same,still⟩ := step_over js ended event
    obtain ⟨rest,end_⟩ := ih still
    exact ⟨rest.trans same,end_⟩

/-- A wire that is not terminal takes in what comes. -/
theorem step_stream {w : Wire Value} (inv : w.Inv js) (open_ : w.terminal = none) (event : Event) :
    (w.step js event).stream = w.stream ++ received [event] := by
  have unchanged (v : Wire Value) (same : v.stream = w.stream) : v.stream = w.stream ++ [] := by rw [same,append_nil]
  cases event with
  | data chunk =>
    show (w.onData js chunk).stream = w.stream ++ (chunk ++ [])
    rw [Wire.onData,open_,append_nil,if_neg (by simp)]
    split
    · exact stop_stream _ _
    · have reads : (w.came chunk).Reads :=
        ⟨inv.reads.waits,inv.reads.once,inv.reads.known,inv.reads.each,inv.reads.counted,inv.reads.over_⟩
      have flow : (w.came chunk).Flow js w.stream := ⟨(inv.flow open_).left,(inv.flow open_).frames⟩
      have kept : ((w.came chunk).takeAll js (segments chunk)).1.stream = w.stream ++ chunk :=
        (taken_all chunk (w.came chunk) w.stream reads open_ flow).kept
      rw [Wire.caught]
      split
      · rw [stop_stream,kept]
      · exact kept
  | receive timeoutMs =>
    refine unchanged _ ?_
    rw [Wire.step,Wire.receive,Wire.receiving]
    split
    · rfl
    · split
      · rfl
      · split
        · rfl
        · split
          · rfl
          · split <;> rfl
  | end_ =>
    refine unchanged _ ?_
    rw [Wire.step,Wire.onEnd]
    split
    · rfl
    · split
      · exact stop_stream _ _
      · rfl
  | timer n =>
    refine unchanged _ ?_
    rw [Wire.step,Wire.readTimeout]
    split <;> rfl
  | readClose =>
    refine unchanged _ ?_
    rw [Wire.step,Wire.onReadClose]
    split
    · rfl
    · exact stop_stream _ _
  | foreign => exact unchanged _ (stop_stream _ _)
  | readError => exact unchanged _ (stop_stream _ _)
  | writeFault fault => exact unchanged _ (stop_stream _ _)
  | close => exact unchanged _ (stop_stream _ _)

theorem run_stream {w : Wire Value} (inv : w.Inv js) (open_ : w.terminal = none) (events : List Event) :
    (w.run js events).stream <+: w.stream ++ received events ∧
      ((w.run js events).terminal = none → (w.run js events).stream = w.stream ++ received events) := by
  induction events generalizing w with
  | nil => exact ⟨by simp [Wire.run,received],fun _ => by simp [Wire.run,received]⟩
  | cons event events ih =>
    have next := step_stream inv open_ event
    rw [received_cons,← append_assoc,← next]
    show ((w.step js event).run js events).stream <+: _ ∧ _
    rcases Option.eq_none_or_eq_some (w.step js event).terminal with running | ⟨fault,ended⟩
    · exact ih (inv.step event) running
    · obtain ⟨same,still⟩ := run_over js (by rw [ended]; rfl) events
      refine ⟨by rw [same]; exact prefix_append _ _,?_⟩
      intro running
      have running' : ((w.step js event).run js events).terminal = none := running
      rw [running'] at still
      contradiction

/-- What a wire makes of what happened to it. -/
structure Orderly (js : Script Value) (events : List Event) (w : Wire Value) : Prop where
  /-- Until the wire is terminal, the lines that came in are those that went out and then those that
  are queued, each in its place. -/
  running : w.terminal = none → ∃ done todo, (cut [] (received events)).1 = done ++ todo ∧
    done.map (parseFrame js) = w.delivered.map some ∧
    todo.map (fun line => (parseFrame js line,line.length + 1)) = w.queue.map fun q => (some q.1,q.2)
  /-- Whatever stopped it, what went out was the beginning of what came in. -/
  stopped : w.delivered.map some <+: (cut [] (received events)).1.map (parseFrame js)
  counted : w.queuedBytes = sizes w.queue
  /-- Each read ended once or waits. -/
  once : w.reads.Nodup ∧ ∀ n, n < asked events ↔ n ∈ w.reads ∨ w.read = some n
  waits : ∀ n, w.read = some n → n ∉ w.reads ∧ w.queue = []
  /-- A read that ended with a fault, as one that timed out, took no frame. -/
  failed : ∀ n fault, (n,.fault fault) ∈ w.settled → ∀ value, (n,.value value) ∉ w.settled

theorem nodup_keys {α : Type} {entries : List (Nat × α)} (once : (entries.map Prod.fst).Nodup) {a b : α}
    (first : (n,a) ∈ entries) (second : (n,b) ∈ entries) : a = b := by
  induction entries with
  | nil => contradiction
  | cons e entries ih =>
    simp only [map_cons,nodup_cons,mem_map,not_exists,not_and] at once
    rcases mem_cons.mp first with rfl | early
    · rcases mem_cons.mp second with same | late
      · exact (Prod.mk.inj same).2.symm
      · exact absurd rfl (once.1 (n,b) late)
    · rcases mem_cons.mp second with rfl | late
      · exact absurd rfl (once.1 (n,a) early)
      · exact ih once.2 early late

theorem delivers_in_order (js : Script Value) (events : List Event) : Orderly js events (Wire.run js {} events) := by
  have inv := (inv_start js).run events
  obtain ⟨begun,whole⟩ := run_stream (inv_start js) rfl events
  have count : (Wire.run js ({} : Wire Value) events).issued = asked events := by
    rw [run_issued]
    exact Nat.zero_add _
  have begun' : (Wire.run js ({} : Wire Value) events).stream <+: received events := begun
  refine ⟨?_,?_,inv.reads.counted,⟨inv.reads.once,?_⟩,?_,?_⟩
  · intro running
    have all : (Wire.run js ({} : Wire Value) events).stream = received events := whole running
    rw [← all]
    exact (inv.flow running).frames
  · obtain ⟨rest,all⟩ := begun'
    rw [← all]
    exact inv.begins.later
  · intro n
    rw [← count]
    constructor
    · exact inv.reads.each n
    · rintro (old | waiting)
      · exact inv.reads.known n old
      · exact (inv.reads.waits n waiting).1
  · intro n waiting
    exact ⟨(inv.reads.waits n waiting).2.2,(inv.reads.waits n waiting).2.1⟩
  · intro n fault failed value got
    have same := nodup_keys inv.reads.once failed got
    contradiction

end Neurobro.Epoch
