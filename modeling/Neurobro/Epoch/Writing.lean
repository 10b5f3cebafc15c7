import Neurobro.Epoch.Routing

/-! What a multiplexer writes: one thing after another, and nothing more once something was left
half done. -/
namespace Neurobro.Epoch

open List

variable {js : Script Json} {decoded : String → Option Nat}

def Mux.numbers (m : Mux) : List Nat := m.written.map Write.number

/-- How the chain of writes stands. -/
structure Mux.Chain (m : Mux) : Prop where
  fresh_ : ∀ op ∈ m.ops, op.number < m.calls
  distinct : (m.ops.map Operation.number).Nodup
  told : ∀ p ∈ m.reports, p.1 < m.calls
  known : ∀ n ∈ m.numbers, n < m.calls
  /-- Only the first member was given to the wire below. -/
  turn : ∀ op ∈ m.ops.tail, op.dispatched = false
  unwritten : ∀ op ∈ m.ops, op.dispatched = false → op.number ∉ m.numbers
  earlier : ∀ w ∈ m.written.dropLast, w.result = some true
  well : m.terminal = none → ∀ w ∈ m.written, w.result ≠ some false
  idle : (∀ op ∈ m.ops.head?, op.dispatched = false) → ∀ w ∈ m.written, w.result ≠ none
  /-- Whose caller heard of it already will not be written any more. -/
  heard : ∀ op ∈ m.ops, op.number ∈ m.reports.map Prod.fst →
    m.terminal.isSome ∨ op.expired = true ∧ op.dispatched = false ∧ op.worker.isSome
  timedOut : ∀ n, (n,some writeTimeout) ∈ m.reports → m.terminal.isSome ∨ n ∉ m.numbers

/-- What keeps the chain and its record, and ends nothing, keeps its state. -/
theorem Mux.Chain.apart {m m' : Mux} (chain : m.Chain) (ops : m'.ops = m.ops) (calls : m.calls ≤ m'.calls) (reports : m'.reports = m.reports)
    (written : m'.written = m.written) (terminal : m.terminal.isSome → m'.terminal.isSome) : m'.Chain := by
  have numbers : m'.numbers = m.numbers := by rw [Mux.numbers,written]; rfl
  refine ⟨?_,by rw [ops]; exact chain.distinct,?_,?_,by rw [ops]; exact chain.turn,?_,by rw [written]; exact chain.earlier,?_,?_,?_,?_⟩
  · intro op in_
    rw [ops] at in_
    exact Nat.lt_of_lt_of_le (chain.fresh_ op in_) calls
  · intro p in_
    rw [reports] at in_
    exact Nat.lt_of_lt_of_le (chain.told p in_) calls
  · intro n in_
    rw [numbers] at in_
    exact Nat.lt_of_lt_of_le (chain.known n in_) calls
  · rw [ops,numbers]
    exact chain.unwritten
  · intro running
    rw [written]
    apply chain.well
    by_contra ended
    have over_ := terminal (Option.isSome_iff_ne_none.mpr ended)
    rw [running] at over_
    contradiction
  · rw [ops,written]
    exact chain.idle
  · rw [ops,reports]
    intro op in_ heard
    exact (chain.heard op in_ heard).imp_left terminal
  · rw [reports,numbers]
    intro n in_
    exact (chain.timedOut n in_).imp_left terminal

theorem Mux.Chain.stop {m : Mux} (chain : m.Chain) (fault : MuxFault) : (m.stop fault).Chain :=
  chain.apart rfl (Nat.le_refl _) rfl rfl (fun _ => rfl)

theorem Mux.Chain.report {m : Mux} (chain : m.Chain) (n : Nat) (result : Option MuxFault) (known : n < m.calls)
    (heard : ∀ op ∈ m.ops, op.number = n → m.terminal.isSome ∨ op.expired = true ∧ op.dispatched = false ∧ op.worker.isSome)
    (timed : result = some writeTimeout → m.terminal.isSome ∨ n ∉ m.numbers) : (m.report n result).Chain := by
  rw [Mux.report]
  split
  · exact chain
  · refine ⟨chain.fresh_,chain.distinct,?_,chain.known,chain.turn,chain.unwritten,chain.earlier,chain.well,chain.idle,?_,?_⟩
    · intro p in_
      rcases mem_append.mp in_ with old | new
      · exact chain.told p old
      · rw [mem_singleton.mp new]
        exact known
    · intro op in_ told
      rw [map_append,mem_append] at told
      rcases told with old | new
      · exact chain.heard op in_ old
      · exact heard op in_ (by simpa using new)
    · intro k in_
      rcases mem_append.mp in_ with old | new
      · exact chain.timedOut k old
      · obtain ⟨rfl,same⟩ := Prod.mk.inj (mem_singleton.mp new)
        exact timed same.symm

theorem answer_eq (m : Mux) (result : Option MuxFault) :
    m.answer result = Mux.report { m with calls := m.calls + 1 } m.calls result := by
  rw [Mux.answer,Mux.report,Mux.report]
  split <;> rfl

theorem Mux.Chain.answer {m : Mux} (chain : m.Chain) (result : Option MuxFault) : (m.answer result).Chain := by
  rw [answer_eq]
  have bumped : Mux.Chain { m with calls := m.calls + 1 } := chain.apart rfl (Nat.le_succ _) rfl rfl id
  refine bumped.report _ _ (Nat.lt_succ_self _) ?_ ?_
  · intro op in_ same
    have := chain.fresh_ op in_
    omega
  · intro _
    refine .inr fun in_ => ?_
    have := chain.known m.calls in_
    omega

theorem Mux.Chain.enqueue {m : Mux} (chain : m.Chain) (worker : Option String) (envelope : Json) :
    (m.enqueue worker envelope).Chain := by
  have unknown : m.calls ∉ m.numbers := by
    intro in_
    have := chain.known _ in_
    omega
  have members {op : Operation} (in_ : op ∈ (m.enqueue worker envelope).ops) :
      op ∈ m.ops ∨ op = { number := m.calls, worker := worker, envelope := envelope } := by
    rcases mem_append.mp in_ with old | new
    · exact .inl old
    · exact .inr (mem_singleton.mp new)
  refine ⟨?_,?_,?_,?_,?_,?_,chain.earlier,chain.well,?_,?_,chain.timedOut⟩
  · intro op in_
    show op.number < m.calls + 1
    rcases members in_ with old | rfl
    · have := chain.fresh_ op old
      omega
    · exact Nat.lt_succ_self _
  · show ((m.ops ++ [_]).map Operation.number).Nodup
    rw [map_append,nodup_append]
    refine ⟨chain.distinct,by simp,?_⟩
    intro a in_ b is_ same
    obtain ⟨op,op_in,rfl⟩ := mem_map.mp in_
    have := chain.fresh_ op op_in
    simp only [map_cons,map_nil,mem_singleton] at is_
    omega
  · intro p in_
    exact Nat.lt_succ_of_lt (chain.told p in_)
  · intro n in_
    exact Nat.lt_succ_of_lt (chain.known n in_)
  · intro op in_
    cases shape : m.ops with
    | nil =>
      rw [show (m.enqueue worker envelope).ops = m.ops ++ [_] from rfl,shape] at in_
      contradiction
    | cons first rest =>
      rw [show (m.enqueue worker envelope).ops = m.ops ++ [_] from rfl,shape] at in_
      rcases mem_append.mp in_ with old | new
      · exact chain.turn op (by rw [shape]; exact old)
      · rw [mem_singleton.mp new]
  · intro op in_ waits
    rcases members in_ with old | rfl
    · exact chain.unwritten op old waits
    · exact unknown
  · intro heads
    refine chain.idle fun op first => ?_
    refine heads op ?_
    show op ∈ (m.ops ++ [_]).head?
    cases shape : m.ops with
    | nil => simp [shape] at first
    | cons head rest => simpa [shape] using first
  · intro op in_ told
    rcases members in_ with old | rfl
    · exact chain.heard op old told
    · obtain ⟨p,p_in,same⟩ := mem_map.mp told
      have := chain.told p p_in
      simp only at same
      omega

/-- The first member leaves once nothing is under way. -/
theorem Mux.Chain.leave {m : Mux} (chain : m.Chain) {rest : List Operation} (ops : m.ops = op :: rest)
    (done : ∀ w ∈ m.written, w.result ≠ none) : (m.leave op rest).Chain := by
  have later (o : Operation) (in_ : o ∈ rest) : o ∈ m.ops := by rw [ops]; exact mem_cons_of_mem _ in_
  have distinct := chain.distinct
  have turn := chain.turn
  rw [ops] at distinct turn
  refine ⟨fun o in_ => chain.fresh_ o (later o in_),(nodup_cons.mp distinct).2,chain.told,chain.known,?_,
    fun o in_ => chain.unwritten o (later o in_),chain.earlier,chain.well,fun _ => done,fun o in_ => chain.heard o (later o in_),chain.timedOut⟩
  intro o in_
  exact turn o (mem_of_mem_tail in_)

theorem leave_gone {m : Mux} (chain : m.Chain) {rest : List Operation} (ops : m.ops = op :: rest) :
    ∀ o ∈ rest, o.number ≠ op.number := by
  intro o in_ same
  have distinct := chain.distinct
  rw [ops,map_cons,nodup_cons] at distinct
  exact distinct.1 (same ▸ mem_map_of_mem in_)

/-- The first member is given to the wire below, which is done with all before it. -/
theorem Mux.Chain.dispatch {m : Mux} (chain : m.Chain) (running : m.terminal = none) {rest : List Operation}
    (ops : m.ops = op :: rest) (waits : op.dispatched = false) (unheard : op.number ∉ m.reports.map Prod.fst) :
    (m.dispatch op rest).Chain := by
  have first : op ∈ m.ops := by rw [ops]; exact mem_cons_self
  have numbers : (m.dispatch op rest).numbers = m.numbers ++ [op.number] := by simp [Mux.dispatch,Mux.numbers]
  have done : ∀ w ∈ m.written, w.result = some true := by
    intro w in_
    have idle := chain.idle (by intro o is_; rw [ops] at is_; cases is_; exact waits) w in_
    have well := chain.well running w in_
    cases result : w.result with
    | none => exact absurd result idle
    | some well_ =>
      cases well_ with
      | true => rfl
      | false => exact absurd result well
  have distinct := chain.distinct
  have turn := chain.turn
  rw [ops] at distinct turn
  refine ⟨?_,distinct,chain.told,?_,turn,?_,?_,?_,?_,?_,?_⟩
  · intro o in_
    rcases mem_cons.mp in_ with rfl | later
    · exact chain.fresh_ op first
    · exact chain.fresh_ o (by rw [ops]; exact mem_cons_of_mem _ later)
  · intro n in_
    rw [numbers] at in_
    rcases mem_append.mp in_ with old | new
    · exact chain.known n old
    · rw [mem_singleton.mp new]
      exact chain.fresh_ op first
  · intro o in_ still
    rcases mem_cons.mp in_ with rfl | later
    · contradiction
    · rw [numbers,mem_append,mem_singleton,not_or]
      exact ⟨chain.unwritten o (by rw [ops]; exact mem_cons_of_mem _ later) still,leave_gone chain ops o later⟩
  · intro w in_
    rw [show (m.dispatch op rest).written = m.written ++ [_] from rfl,dropLast_concat] at in_
    exact done w in_
  · intro _ w in_
    rcases mem_append.mp in_ with old | new
    · rw [done w old]
      simp
    · rw [mem_singleton.mp new]
      simp
  · intro heads
    have no := heads { op with dispatched := true } rfl
    contradiction
  · intro o in_ told
    rcases mem_cons.mp in_ with rfl | later
    · exact absurd told unheard
    · exact chain.heard o (by rw [ops]; exact mem_cons_of_mem _ later) told
  · intro n in_
    rcases chain.timedOut n in_ with ended | absent
    · exact .inl ended
    · refine .inr ?_
      rw [numbers,mem_append,mem_singleton,not_or]
      exact ⟨absent,fun same => unheard (same ▸ mem_map_of_mem in_)⟩

theorem mark_numbers (m : Mux) (well : Bool) : (m.mark well).numbers = m.numbers := by
  simp only [Mux.mark,Mux.numbers,map_map]
  refine map_congr_left fun w _ => ?_
  simp only [Function.comp_apply]
  split <;> rfl

/-- What is under way comes to its end. -/
theorem Mux.Chain.mark {m : Mux} (chain : m.Chain) (well : Bool) (fine_ : m.terminal = none → well = true) :
    (m.mark well).Chain ∧ ∀ w ∈ (m.mark well).written, w.result ≠ none := by
  have numbers := mark_numbers m well
  have none_left : ∀ w ∈ (m.mark well).written, w.result ≠ none := by
    intro w in_
    obtain ⟨v,_,rfl⟩ := mem_map.mp in_
    split
    · simp
    · rename_i some_
      simpa using some_
  refine ⟨⟨chain.fresh_,chain.distinct,chain.told,?_,chain.turn,?_,?_,?_,fun _ => none_left,chain.heard,?_⟩,none_left⟩
  · rw [numbers]
    exact chain.known
  · rw [numbers]
    exact chain.unwritten
  · intro w in_
    rw [show (m.mark well).written = m.written.map _ from rfl,← map_dropLast] at in_
    obtain ⟨v,v_in,rfl⟩ := mem_map.mp in_
    have done := chain.earlier v v_in
    simp [done]
  · intro running w in_
    obtain ⟨v,v_in,rfl⟩ := mem_map.mp in_
    split
    · simp [fine_ running]
    · exact chain.well running v v_in
  · rw [numbers]
    exact chain.timedOut

/-- The first member leaves, and its caller hears of it. -/
theorem Mux.Chain.ends {m : Mux} (chain : m.Chain) {rest : List Operation} (ops : m.ops = op :: rest)
    (done : ∀ w ∈ m.written, w.result ≠ none) (result : Option MuxFault)
    (timed : result = some writeTimeout → m.terminal.isSome ∨ op.number ∉ m.numbers) :
    ((m.leave op rest).report op.number result).Chain := by
  have first : op ∈ m.ops := by rw [ops]; exact mem_cons_self
  refine (chain.leave ops done).report op.number result (chain.fresh_ op first) ?_ timed
  intro o in_ same
  exact absurd same (leave_gone chain ops o in_)

/-- The same where everything stops with it. -/
theorem Mux.Chain.breaks {m : Mux} (chain : m.Chain) {rest : List Operation} (ops : m.ops = op :: rest)
    (done : ∀ w ∈ m.written, w.result ≠ none) (fault : MuxFault) (result : Option MuxFault) :
    (((m.leave op rest).stop fault).report op.number result).Chain := by
  have first : op ∈ m.ops := by rw [ops]; exact mem_cons_self
  exact ((chain.leave ops done).stop fault).report op.number result (chain.fresh_ op first) (fun _ _ _ => .inl rfl) (fun _ => .inl rfl)

theorem Mux.Chain.advance {m : Mux} (chain : m.Chain) (late : Bool) : (m.advance late).Chain := by
  rw [Mux.advance]
  split
  · exact chain
  · rename_i op rest ops
    have first : op ∈ m.ops := by rw [ops]; exact mem_cons_self
    split
    · exact chain
    · rename_i waiting
      have waits : op.dispatched = false := by simpa using waiting
      have done : ∀ w ∈ m.written, w.result ≠ none := by
        refine chain.idle ?_
        intro o is_
        rw [ops] at is_
        cases is_
        exact waits
      have absent := chain.unwritten op first waits
      split
      · rw [Mux.startSend]
        split
        · exact chain.leave ops done
        · rename_i unexpired
          split
          · rename_i fault ended
            exact chain.ends ops done _ (fun _ => .inl (by rw [ended]; rfl))
          · rename_i running
            split
            · exact chain.ends ops done _ (fun _ => .inr absent)
            · split
              · exact chain.ends ops done _ (fun _ => .inr absent)
              · refine chain.dispatch running ops waits ?_
                intro told
                rcases chain.heard op first told with ended | ⟨expired,_,_⟩
                · rw [running] at ended
                  contradiction
                · exact unexpired expired
      · rename_i pool
        rw [Mux.startClose]
        split
        · exact chain.breaks ops done _ _
        · rename_i running
          split
          · exact chain.ends ops done _ (fun _ => .inr absent)
          · split
            · exact chain.breaks ops done _ _
            · refine chain.dispatch running ops waits ?_
              intro told
              rcases chain.heard op first told with ended | ⟨_,_,worker⟩
              · rw [running] at ended
                contradiction
              · exact pool worker

theorem Mux.Chain.wrote {m : Mux} (chain : m.Chain) (result : Option MuxFault) : (m.wrote result).Chain := by
  rw [Mux.wrote]
  split
  · exact chain
  · rename_i op rest ops
    split
    · split
      · obtain ⟨marked,done⟩ := chain.mark true (fun _ => rfl)
        exact marked.ends ops done none (by intro no; contradiction)
      · -- The stop may as well come first.
        obtain ⟨marked,done⟩ := (chain.stop (.pool .transport)).mark false (by intro no; contradiction)
        exact marked.ends (m := (m.stop (.pool .transport)).mark false) ops done _ (fun _ => .inl rfl)
    · exact chain

/-- A write whose time is over will not begin any more. -/
theorem Mux.Chain.expire {m : Mux} (chain : m.Chain) (n : Nat) : (m.expire n).Chain := by
  have old {o : Operation} (in_ : o ∈ (m.expire n).ops) :
      ∃ v ∈ m.ops, o.number = v.number ∧ o.dispatched = v.dispatched ∧ o.worker = v.worker ∧ (v.expired = true → o.expired = true) := by
    obtain ⟨v,v_in,rfl⟩ := mem_map.mp in_
    refine ⟨v,v_in,?_⟩
    by_cases same : v.number = n <;> simp [same]
  have numbers : (m.expire n).ops.map Operation.number = m.ops.map Operation.number := by
    simp only [Mux.expire,map_map]
    refine map_congr_left fun v _ => ?_
    simp only [Function.comp_apply]
    split <;> rfl
  refine ⟨?_,by rw [numbers]; exact chain.distinct,chain.told,chain.known,?_,?_,chain.earlier,chain.well,?_,?_,chain.timedOut⟩
  · intro o in_
    obtain ⟨v,v_in,same,_⟩ := old in_
    rw [same]
    exact chain.fresh_ v v_in
  · intro o in_
    rw [show (m.expire n).ops = m.ops.map _ from rfl,← map_tail] at in_
    obtain ⟨v,v_in,rfl⟩ := mem_map.mp in_
    have waits := chain.turn v v_in
    split <;> exact waits
  · intro o in_ waits
    obtain ⟨v,v_in,same,dispatched,_⟩ := old in_
    rw [same]
    exact chain.unwritten v v_in (dispatched.symm.trans waits)
  · intro heads
    refine chain.idle ?_
    intro v first
    have head : (if v.number = n then { v with expired := true } else v) ∈ (m.expire n).ops.head? := by
      simp only [Mux.expire,List.head?_map,Option.mem_def] at first ⊢
      rw [first]
      rfl
    have waits := heads _ head
    split at waits <;> exact waits
  · intro o in_ told
    obtain ⟨v,v_in,same,dispatched,worker,expired⟩ := old in_
    rw [same] at told
    rw [dispatched,worker]
    exact (chain.heard v v_in told).imp_right fun held => ⟨expired held.1,held.2.1,held.2.2⟩

theorem Mux.Chain.writeTimer {m : Mux} (chain : m.Chain) (n : Nat) : (m.writeTimer n).Chain := by
  rw [Mux.writeTimer]
  split
  · exact chain
  · rename_i op found
    have op_in := mem_of_find?_eq_some found
    have is_ : op.number = n := by simpa using List.find?_some found
    have known : n < m.calls := is_ ▸ chain.fresh_ op op_in
    split
    · exact chain
    · split
      · exact (chain.stop _).report n _ known (fun _ _ _ => .inl rfl) (fun _ => .inl rfl)
      · rename_i worker
        split
        · exact ((chain.expire n).stop _).report n _ known (fun _ _ _ => .inl rfl) (fun _ => .inl rfl)
        · rename_i waiting
          have waits : op.dispatched = false := by simpa using waiting
          refine (chain.expire n).report n _ known ?_ (fun _ => .inr (is_ ▸ chain.unwritten op op_in waits))
          intro o in_ same
          obtain ⟨v,v_in,rfl⟩ := mem_map.mp in_
          have number : v.number = n := by
            split at same <;> exact same
          -- The numbers differ, so this is the write the timer was for.
          have mine : v = op := inj_on_of_nodup_map chain.distinct v_in op_in (number.trans is_.symm)
          subst mine
          rw [if_pos number]
          refine .inr ⟨rfl,waits,?_⟩
          cases who : v.worker with
          | none => simp [who] at worker
          | some _ => rfl

theorem Mux.Chain.send {m : Mux} (chain : m.Chain) (worker : String) (value : Json) (bound : Bound) (timeoutMs : Int) :
    (m.send js decoded worker value bound timeoutMs).Chain := by
  rw [Mux.send]
  split
  · exact chain
  · split
    · exact chain.answer _
    · split
      · exact chain.answer _
      · split
        · exact chain.answer _
        · split
          · exact chain.answer _
          · split
            · exact chain.answer _
            · exact chain.enqueue _ _

theorem Mux.Chain.requestPoolClose {m : Mux} (chain : m.Chain) (timeoutMs : Int) : (m.requestPoolClose timeoutMs).Chain := by
  rw [Mux.requestPoolClose]
  split
  · exact chain.answer _
  · split
    · exact chain
    · split
      · exact chain.answer _
      · split
        · exact chain.answer _
        · exact (chain.enqueue none closeEnvelope).apart rfl (Nat.le_refl _) rfl rfl id

/-! Reading writes nothing. -/

structure Mux.Reads (m m' : Mux) : Prop where
  ops : m'.ops = m.ops
  calls : m'.calls = m.calls
  reports : m'.reports = m.reports
  written : m'.written = m.written
  ended : m.terminal.isSome → m'.terminal = m.terminal

theorem Mux.Reads.trans {m m' m'' : Mux} (first : m.Reads m') (second : m'.Reads m'') : m.Reads m'' := by
  refine ⟨second.ops.trans first.ops,second.calls.trans first.calls,second.reports.trans first.reports,
    second.written.trans first.written,?_⟩
  intro ended
  have same := first.ended ended
  exact (second.ended (by rw [same]; exact ended)).trans same

theorem stop_reads (m : Mux) (fault : MuxFault) : m.Reads (m.stop fault) := by
  refine ⟨rfl,rfl,rfl,rfl,?_⟩
  intro ended
  obtain ⟨was,is_⟩ := Option.isSome_iff_exists.mp ended
  simp [Mux.stop,is_]

theorem fails_reads (m : Mux) (code : MuxCode) : m.Reads (m.fails code) :=
  (stop_reads m (.pool code)).trans ⟨rfl,rfl,rfl,rfl,fun _ => rfl⟩

theorem loop_reads (m : Mux) : m.Reads m.loop := by
  rw [Mux.loop]
  split <;> exact ⟨rfl,rfl,rfl,rfl,fun _ => rfl⟩

theorem start_reads (m : Mux) : m.Reads m.start := by
  rw [Mux.start]
  split
  · exact loop_reads m
  · exact ⟨rfl,rfl,rfl,rfl,fun _ => rfl⟩

theorem place_reads (m : Mux) (c : Channel) (frame : Json) (size : Nat) : m.Reads (m.place c frame size).1 := by
  rw [Mux.place]
  split
  · exact ⟨rfl,rfl,rfl,rfl,fun _ => rfl⟩
  · split <;> exact ⟨rfl,rfl,rfl,rfl,fun _ => rfl⟩

theorem take_reads (js : Script Json) (m : Mux) (raw : Json) : m.Reads (m.take js raw) := by
  have took : m.Reads { m with taken := m.taken ++ [raw] } := ⟨rfl,rfl,rfl,rfl,fun _ => rfl⟩
  rw [Mux.take]
  split
  · exact took.trans (fails_reads _ _)
  · rename_i c frame size _
    have placed := took.trans (place_reads { m with taken := m.taken ++ [raw] } c frame size)
    split
    · rename_i result
      rw [result] at placed
      exact placed.trans (fails_reads _ _)
    · rename_i result
      rw [result] at placed
      split
      · exact placed.trans ⟨rfl,rfl,rfl,rfl,fun _ => rfl⟩
      · exact placed.trans (loop_reads _)

theorem resume_reads (js : Script Json) (m : Mux) : m.Reads (m.resume js) := by
  have same : m.Reads m := ⟨rfl,rfl,rfl,rfl,fun _ => rfl⟩
  rw [Mux.resume]
  split
  · split
    · exact same
    · split
      · exact loop_reads m
      · exact fails_reads m _
    · split
      · exact ⟨rfl,rfl,rfl,rfl,fun _ => rfl⟩
      · exact take_reads js m _
  · exact same

theorem receive_reads (m : Mux) (c : Channel) (timeoutMs : Int) : m.Reads (m.receive c timeoutMs) := by
  rw [Mux.receive]
  split
  · rw [Mux.receiving]
    split
    · exact ⟨rfl,rfl,rfl,rfl,fun _ => rfl⟩
    · split
      · exact ⟨rfl,rfl,rfl,rfl,fun _ => rfl⟩
      · split
        · exact ⟨rfl,rfl,rfl,rfl,fun _ => rfl⟩
        · split
          · exact ⟨rfl,rfl,rfl,rfl,fun _ => rfl⟩
          · split
            · exact ⟨rfl,rfl,rfl,rfl,fun _ => rfl⟩
            · have started := start_reads { m with issued := m.issued + 1, slots := Function.update m.slots c { m.slots c with waiting := some m.issued } }
              exact ⟨started.ops,started.calls,started.reports,started.written,started.ended⟩
  · exact ⟨rfl,rfl,rfl,rfl,fun _ => rfl⟩

theorem readTimer_reads (m : Mux) (c : Channel) (n : Nat) : m.Reads (m.readTimer c n) := by
  rw [Mux.readTimer]
  split <;> exact ⟨rfl,rfl,rfl,rfl,fun _ => rfl⟩

theorem Mux.Chain.reads {m m' : Mux} (chain : m.Chain) (reads : m.Reads m') : m'.Chain :=
  chain.apart reads.ops (Nat.le_of_eq reads.calls.symm) reads.reports reads.written fun ended => by
    rw [reads.ended ended]
    exact ended

theorem Mux.Chain.step {m : Mux} (chain : m.Chain) (event : MuxEvent) : (m.step js decoded event).Chain := by
  cases event with
  | wire event =>
    rw [Mux.step]
    split
    · exact chain.reads ⟨rfl,rfl,rfl,rfl,fun _ => rfl⟩
    · exact chain
  | resume => exact chain.reads (resume_reads js m)
  | receive c timeoutMs => exact chain.reads (receive_reads m c timeoutMs)
  | readTimer c n => exact chain.reads (readTimer_reads m c n)
  | send worker value bound timeoutMs => exact chain.send worker value bound timeoutMs
  | requestPoolClose timeoutMs => exact chain.requestPoolClose timeoutMs
  | writeTimer n => exact chain.writeTimer n
  | advance late => exact chain.advance late
  | wrote result => exact chain.wrote result
  | abort => exact chain.stop _
  | close => exact chain.stop _

theorem Mux.Chain.run {m : Mux} (chain : m.Chain) (js : Script Json) (decoded : String → Option Nat)
    (events : List MuxEvent) : (m.run js decoded events).Chain := by
  induction events generalizing m with
  | nil => exact chain
  | cons event events ih => exact ih (chain.step event)

theorem create_chain (workers : Workers) (aborted : Bool) : (createStandingMultiplexEpochWire workers aborted).Chain := by
  have fresh : Mux.Chain { workers := workers } := by
    constructor <;> simp [Mux.numbers]
  rw [createStandingMultiplexEpochWire]
  split
  · exact fresh.stop _
  · exact fresh

/-! Nothing is written after a stop. -/

/-- The wire stays as it ended, and nothing more is given to it. -/
structure Mux.Still (m m' : Mux) : Prop where
  terminal : m'.terminal = m.terminal
  numbers : m'.numbers = m.numbers

theorem Mux.Still.trans {m m' m'' : Mux} (first : m.Still m') (second : m'.Still m'') : m.Still m'' :=
  ⟨second.terminal.trans first.terminal,second.numbers.trans first.numbers⟩

theorem Mux.Reads.still {m m' : Mux} (reads : m.Reads m') (ended : m.terminal.isSome) : m.Still m' :=
  ⟨reads.ended ended,by rw [Mux.numbers,reads.written]; rfl⟩

theorem report_still (m : Mux) (n : Nat) (result : Option MuxFault) : m.Still (m.report n result) := by
  rw [Mux.report]
  split <;> exact ⟨rfl,rfl⟩

theorem answer_still (m : Mux) (result : Option MuxFault) : m.Still (m.answer result) := by
  rw [answer_eq]
  have told := report_still { m with calls := m.calls + 1 } m.calls result
  exact ⟨told.terminal,told.numbers⟩

theorem stop_still {m : Mux} (ended : m.terminal.isSome) (fault : MuxFault) : m.Still (m.stop fault) := (stop_reads m fault).still ended

theorem leave_still (m : Mux) (op : Operation) (rest : List Operation) : m.Still (m.leave op rest) := ⟨rfl,rfl⟩

theorem step_still (js : Script Json) (decoded : String → Option Nat) {m : Mux} (ended : m.terminal.isSome)
    (event : MuxEvent) : m.Still (m.step js decoded event) := by
  have same : m.Still m := ⟨rfl,rfl⟩
  have open_ (no : m.terminal = none) : False := by
    rw [no] at ended
    contradiction
  cases event with
  | wire event =>
    rw [Mux.step]
    split
    · exact ⟨rfl,rfl⟩
    · exact same
  | resume => exact (resume_reads js m).still ended
  | receive c timeoutMs => exact (receive_reads m c timeoutMs).still ended
  | readTimer c n => exact (readTimer_reads m c n).still ended
  | send worker value bound timeoutMs =>
    rw [Mux.step,Mux.send]
    split
    · exact same
    · split
      · exact answer_still m _
      · split
        · exact answer_still m _
        · exact (open_ ‹_›).elim
  | requestPoolClose timeoutMs =>
    rw [Mux.step,Mux.requestPoolClose]
    split
    · exact answer_still m _
    · split
      · exact same
      · split
        · exact answer_still m _
        · exact (open_ ‹_›).elim
  | writeTimer n =>
    have expired : m.Still (m.expire n) := ⟨rfl,rfl⟩
    rw [Mux.step,Mux.writeTimer]
    split
    · exact same
    · split
      · exact same
      · split
        · exact (stop_still ended _).trans (report_still _ _ _)
        · split
          · exact (expired.trans (stop_still (m := m.expire n) ended _)).trans (report_still _ _ _)
          · exact expired.trans (report_still _ _ _)
  | advance late =>
    rw [Mux.step,Mux.advance]
    split
    · exact same
    · rename_i op rest _
      have left := leave_still m op rest
      split
      · exact same
      · split
        · rw [Mux.startSend]
          split
          · exact left
          · split
            · exact left.trans (report_still _ _ _)
            · exact (open_ ‹_›).elim
        · rw [Mux.startClose]
          split
          · exact (left.trans (stop_still (m := m.leave op rest) ended _)).trans (report_still _ _ _)
          · exact (open_ ‹_›).elim
  | wrote result =>
    have marked (well : Bool) : m.Still (m.mark well) := ⟨rfl,mark_numbers m well⟩
    rw [Mux.step,Mux.wrote]
    split
    · exact same
    · rename_i op rest _
      split
      · split
        · exact ((marked true).trans (leave_still _ op rest)).trans (report_still _ _ _)
        · exact (((marked false).trans (leave_still _ op rest)).trans (stop_still (m := (m.mark false).leave op rest) ended _)).trans (report_still _ _ _)
      · exact same
  | abort => exact stop_still ended _
  | close => exact stop_still ended _

theorem run_still (js : Script Json) (decoded : String → Option Nat) {m : Mux} (ended : m.terminal.isSome)
    (events : List MuxEvent) : m.Still (m.run js decoded events) := by
  induction events generalizing m with
  | nil => exact ⟨rfl,rfl⟩
  | cons event events ih =>
    have one := step_still js decoded ended event
    exact one.trans (ih (by rw [one.terminal]; exact ended))

/-! What many workers on one wire see of each other. -/

structure Isolated (js : Script Json) (decoded : String → Option Nat) (events : List MuxEvent) (m : Mux) : Prop where
  /-- Until the wire is terminal, each channel was given the first of its own frames that came off the
  wire, in their order, and the others are queued for it. -/
  running : m.terminal = none → ∀ c, framesFor js m.workers c m.taken = m.out c ++ (m.slots c).queue.map Prod.fst
  stopped : ∀ c, m.out c <+: framesFor js m.workers c m.taken
  /-- What came off the wire is what came in, however it was cut into chunks: nothing but the frame that the
  loop is about to take is between the two. -/
  source : m.taken.map some <+: (cut [] (incoming events)).1.map (parseFrame js)
  flight : ∀ n, m.pump = .reading n → m.wire.terminal = none →
    (cut [] (incoming events)).1.map (parseFrame js) = (m.taken ++ m.wire.gave n ++ m.wire.queue.map Prod.fst).map some
  single : ∀ n, (m.wire.gave n).length ≤ 1
  looping : m.terminal = none → m.peerClosed = false → m.pump ≠ .over_
  budget : m.bytes = total m.slots m.workers.channels
  /-- All writes but the last one went well. -/
  serial : ∀ w ∈ m.written.dropLast, w.result = some true
  timedOut : ∀ n, (n,some writeTimeout) ∈ m.reports → m.terminal.isSome ∨ n ∉ m.numbers
  /-- After a stop nothing is written, whatever happens. -/
  final : m.terminal.isSome → ∀ more, m.Still (m.run js decoded more)

theorem gave_single {w : Wire Json} (once : w.reads.Nodup) (n : Nat) : (w.gave n).length ≤ 1 := by
  cases found : w.settled.find? fun p => p.1 = n with
  | none =>
    have unknown : n ∉ w.reads := by
      intro in_
      obtain ⟨p,p_in,is_⟩ := mem_map.mp in_
      simpa [is_] using List.find?_eq_none.mp found p p_in
    rw [gave_unknown unknown]
    exact Nat.zero_le _
  | some p =>
    rw [(gave_settled once found).2]
    exact Option.length_toList_le

end Neurobro.Epoch
