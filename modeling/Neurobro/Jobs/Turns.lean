import Mathlib.Data.List.Chain
import Mathlib.Data.List.Induction
import Mathlib.Data.List.Rotate
import Neurobro.Data.Rows
import Neurobro.Jobs.History

/-! Turns. A poll reads the sources in their order from the one whose turn it is, and
leaves the turn to the one after the last it read. As long as a job is not revised, as
many polls as it has sources read them all. -/
namespace Neurobro.Jobs

open Coop List

variable {o : Options} {i : Nat}

/-! ## Well-formed records -/

/-- What every operation keeps of a job. -/
structure JobRecord.WellFormed (job : JobRecord) : Prop where
  watches : job.sources ≠ []
  named : (job.sources.map JobSource.id).Nodup
  pageSize : 0 < job.limits.pageSize
  maxPages : 0 < job.limits.maxPages
  maxAlerts : 0 < job.limits.maxAlerts
  index : job.nextSourceIndex < job.sources.length

theorem sources_ok {input result : List JobSource} (ok : sources h input = .ok result) :
    result ≠ [] ∧ (result.map JobSource.id).Nodup := by
  unfold sources at ok
  obtain ⟨bounds,ok⟩ := guard_eq_ok.mp ok
  obtain ⟨checked,passed,ok⟩ := bind_ok ok
  obtain ⟨distinct,ok⟩ := guard_eq_ok.mp ok
  cases ok
  have sorted := mergeSort_perm checked fun a b => (h.localeCompareEn a.id b.id).isLE
  have count : checked.length = input.length :=
    (forall₂_mapM (R := fun _ _ => True) passed fun _ _ _ => trivial).length_eq.symm
  constructor
  · intro empty
    have none : checked.length = 0 := by rw [← sorted.length_eq,empty]; rfl
    have least : ¬input.length < 1 := fun few => bounds (by simp [few])
    omega
  · have named : (checked.map JobSource.id).Nodup := by
      by_contra twice
      exact distinct (by simp [twice])
    exact (sorted.map JobSource.id).nodup_iff.mpr named

theorem bounded_pos {value : Option Int} {bound : Bound} (ok : bounded value bound = .ok n) : 0 < n := by
  unfold bounded at ok
  dsimp only at ok
  obtain ⟨inside,same⟩ := guard_eq_ok.mp ok
  cases same
  simp only [Bool.or_eq_true,decide_eq_true_eq,not_or,Int.not_lt] at inside
  omega

theorem bounds_pos {limits : JobLimits} (ok : (do
      let pageSize ← bounded a pageSizeBound
      let maxPages ← bounded b maxPagesBound
      let maxAlerts ← bounded c maxAlertsBound
      let maxTrackedItems ← bounded d maxTrackedItemsBound
      .ok ⟨pageSize,maxPages,maxAlerts,maxTrackedItems⟩ : Except Err JobLimits) = .ok limits) :
    0 < limits.pageSize ∧ 0 < limits.maxPages ∧ 0 < limits.maxAlerts := by
  obtain ⟨pageSize,first,ok⟩ := bind_ok ok
  obtain ⟨maxPages,second,ok⟩ := bind_ok ok
  obtain ⟨maxAlerts,third,ok⟩ := bind_ok ok
  obtain ⟨maxTrackedItems,_,ok⟩ := bind_ok ok
  cases ok
  exact ⟨bounded_pos first,bounded_pos second,bounded_pos third⟩

theorem newRecord_formed {spec : JobSpec} (ok : checkSpec o.host spec = .ok checked)
    (id : String) (b : TaskBinding) (now : String) : (newRecord o.host id b checked now).WellFormed := by
  unfold checkSpec at ok
  obtain ⟨sourceSet,listed,ok⟩ := bind_ok ok
  obtain ⟨f,_,ok⟩ := bind_ok ok
  obtain ⟨name,_,ok⟩ := bind_ok ok
  obtain ⟨limits,bounds,ok⟩ := bind_ok ok
  cases ok
  obtain ⟨watches,named⟩ := sources_ok listed
  obtain ⟨pageSize,maxPages,maxAlerts⟩ := bounds_pos bounds
  exact ⟨watches,named,pageSize,maxPages,maxAlerts,length_pos_iff.mpr watches⟩

theorem updatedRecord_formed {job next : JobRecord} {context : ToolContext}
 {now : String} (formed : job.WellFormed) (patched : patchSources h job patch = .ok nextSources)
    (ok : updatedRecord h job context nextSources patch now = .ok next) :
    next.WellFormed ∧ next.revision = job.revision + 1 := by
  have listed : nextSources ≠ [] ∧ (nextSources.map JobSource.id).Nodup := by
    unfold patchSources at patched
    cases given : patch.sources with
    | none =>
      rw [given] at patched
      cases patched
      exact ⟨formed.watches,formed.named⟩
    | some input =>
      rw [given] at patched
      exact sources_ok patched
  unfold updatedRecord at ok
  obtain ⟨b,_,ok⟩ := bind_ok ok
  obtain ⟨name,_,ok⟩ := bind_ok ok
  obtain ⟨f,_,ok⟩ := bind_ok ok
  obtain ⟨limits,bounds,ok⟩ := bind_ok ok
  obtain ⟨states,_,ok⟩ := bind_ok ok
  cases ok
  obtain ⟨pageSize,maxPages,maxAlerts⟩ := bounds_pos bounds
  exact ⟨⟨listed.1,listed.2,pageSize,maxPages,maxAlerts,length_pos_iff.mpr listed.1⟩,rfl⟩

/-- A page changes the turn, the state of its source and what was raised. -/
theorem page_next {p p' : Polling} {page : SourcePage}
    {now : String} (ok : p.page h s previous page now = .ok p') :
    p'.next = { p.turned s with sourceStates := p'.next.sourceStates } ∧
      ∃ more, p'.queue = p.queue.tail ++ more := by
  unfold Polling.page at ok
  obtain ⟨_,ok⟩ := guard_eq_ok.mp ok
  obtain ⟨⟨state,raised⟩,collected,ok⟩ := bind_ok ok
  dsimp only at ok
  split at ok
  · cases ok
    exact ⟨rfl,[],(append_nil _).symm⟩
  · cases ok
    refine ⟨rfl,?_⟩
    dsimp only
    split
    · exact ⟨[s],rfl⟩
    · exact ⟨[],(append_nil _).symm⟩

/-- What a poll changes of its job. -/
theorem Polls.next {job : JobRecord} {p : Polling} (polls : Polls o job p) :
    p.next = { job with nextSourceIndex := p.next.nextSourceIndex, sourceStates := p.next.sourceStates } := by
  induction polls with
  | start => rfl
  | page _ _ _ _ ok ih =>
    rw [(page_next ok).1,Polling.turned,ih]

theorem Polls.formed {job : JobRecord} (formed : job.WellFormed) {p : Polling} (polls : Polls o job p) :
    p.next.WellFormed := by
  induction polls with
  | start => exact formed
  | @page p p' s _ _ _ before _ _ _ ok ih =>
    obtain ⟨watches,named,pageSize,maxPages,maxAlerts,_⟩ := ih
    rw [(page_next ok).1]
    exact ⟨watches,named,pageSize,maxPages,maxAlerts,Nat.mod_lt _ (length_pos_iff.mpr watches)⟩

/-! ## Rotation -/

theorem turn_after {job : JobRecord} (named : (job.sources.map JobSource.id).Nodup) (inside : k < job.sources.length) :
    nextSourceIndex job job.sources[k] = (k + 1) % job.sources.length := by
  unfold nextSourceIndex
  have at_ : job.sources.findIdx (fun s => s.id = job.sources[k].id) = k := by
    rw [findIdx_eq inside]
    refine ⟨by simp,fun j before => ?_⟩
    have first : j < (job.sources.map JobSource.id).length := by simp; omega
    have second : k < (job.sources.map JobSource.id).length := by simp; omega
    have apart : (job.sources.map JobSource.id)[j] ≠ (job.sources.map JobSource.id)[k] :=
      fun same => absurd ((named.getElem_inj_iff).mp same) (by omega)
    simpa using apart
  rw [at_]

/-- The pages a poll read are those of the sources whose turn it was, one after another. -/
structure Rotates (job : JobRecord) (p : Polling) (reads : List Reading) : Prop where
  read : ∀ d r, reads[d]? = some r → d < job.sources.length →
    job.sources[(job.nextSourceIndex + d) % job.sources.length]? = some r.source
  queue : ∃ more, p.queue = (pollQueue job).drop reads.length ++ more
  turn : reads.length ≤ job.sources.length →
    p.next.nextSourceIndex = (job.nextSourceIndex + reads.length) % job.sources.length

theorem Reads.rotates {job : JobRecord} (formed : job.WellFormed) {p : Polling} {reads : List Reading}
    (polling : Reads o job p reads) : Rotates job p reads := by
  induction polling with
  | start =>
    refine ⟨by simp,⟨[],by simp [Polling.start]⟩,fun _ => ?_⟩
    rw [length_nil,Nat.add_zero,Nat.mod_eq_of_lt formed.index]
    rfl
  | @page p p' reads r before goes head stored _ _ _ _ _ ok ih =>
    obtain ⟨more,queue⟩ := ih.queue
    obtain ⟨next,more',queue'⟩ := page_next ok
    have length : (pollQueue job).length = job.sources.length := length_rotate ..
    -- while not every source has been read, it is the next one's turn
    have next_source : reads.length < job.sources.length →
        job.sources[(job.nextSourceIndex + reads.length) % job.sources.length]? = some r.source := by
      intro room
      have inside : reads.length < (pollQueue job).length := by omega
      rw [queue,drop_eq_getElem_cons inside,cons_append,List.head?_cons,← List.getElem?_eq_getElem inside] at head
      rw [pollQueue,List.getElem?_rotate room,Nat.mod_eq_of_lt formed.index,Nat.add_comm] at head
      exact head
    refine ⟨fun d r' there room => ?_,?_,fun room => ?_⟩
    · rcases Nat.lt_trichotomy d reads.length with earlier | rfl | later
      · rw [List.getElem?_append_left earlier] at there
        exact ih.read d r' there room
      · simp only [List.getElem?_append_right (Nat.le_refl _),Nat.sub_self,List.getElem?_cons_zero,Option.some.injEq] at there
        exact there ▸ next_source room
      · have : (reads ++ [r])[d]? = none := List.getElem?_eq_none (by simp; omega)
        rw [this] at there
        cases there
    · rw [length_append,length_singleton,queue',queue]
      by_cases room : reads.length < (pollQueue job).length
      · exact ⟨more ++ more',by rw [drop_eq_getElem_cons room,cons_append,tail_cons,append_assoc]⟩
      · have over_ : (pollQueue job).length ≤ reads.length := by omega
        exact ⟨more.tail ++ more',by simp [drop_eq_nil_of_le over_,drop_eq_nil_of_le (Nat.le_succ_of_le over_)]⟩
    · rw [length_append,length_singleton] at room ⊢
      have source := next_source (by omega)
      have inside : (job.nextSourceIndex + reads.length) % job.sources.length < job.sources.length := Nat.mod_lt _ (by omega)
      have same : p.next.sources = job.sources := by rw [before.polls.next]
      rw [List.getElem?_eq_getElem inside,Option.some.injEq] at source
      rw [next,Polling.turned]
      dsimp only
      rw [← source]
      have turn := turn_after (by rw [same]; exact formed.named) (k := (job.nextSourceIndex + reads.length) % job.sources.length) (by rw [same]; exact inside)
      simp only [same] at turn
      rw [turn,Nat.mod_add_mod,Nat.add_assoc]

/-- A poll reads at least one page. -/
theorem Reads.any {job : JobRecord} (formed : job.WellFormed) {reads : List Reading}
    (polling : Reads o job p reads) (halted : p.goesOn = false) : 0 < reads.length := by
  cases polling with
  | start =>
    have queued : pollQueue job ≠ [] := fun none => formed.watches (rotate_eq_nil_iff.mp none)
    have goes : (Polling.start job).goesOn = true := by
      simp [Polling.goesOn,Polling.start,queued,formed.maxPages,formed.maxAlerts]
    rw [goes] at halted
    cases halted
  | page => simp

/-! ## What a poll saved -/

/-- The record was committed. -/
def Commits (i : Nat) (record : JobRecord) : Event (service o) → Prop :=
  fun e => ∃ expectedVersion, e = .act i (.save record expectedVersion) true

/-- The next record was saved by a poll of the last, after its source had answered with
each of the pages. -/
def Polled (o : Options) (c : Core (service o)) (next last : JobRecord) : Prop :=
  ∃ i p reads now, Reads o last p reads ∧ p.goesOn = false ∧ next = p.record o.host now ∧
    ∀ r ∈ reads, c.Followed (Answered i r) (Commits i next)

structure Attended (o : Options) (key : JobKey) (c : Core (service o)) : Prop where
  formed : ∀ job ∈ commits key c, job.WellFormed
  polled : (commits key c).IsChain fun next last => next.revision = last.revision → Polled o c next last

def attended (o : Options) : Rules (service o) where
  inv := fun c => (∀ key, Linear key c) ∧ ∀ key, Attended o key c
  mayAct := fun i cmd c => match cmd with
    | .save record expectedVersion => Made o i c record expectedVersion
  mayCall := fun _ _ _ => True

theorem Polled.records {next last : JobRecord}
    (polled : Polled o c next last) (records : c.Records c' e) : Polled o c' next last := by
  obtain ⟨i,p,reads,now,polling,halted,same,answered⟩ := polled
  exact ⟨i,p,reads,now,polling,halted,same,fun r member => (Core.followed_records records).mpr (.inr (answered r member))⟩

theorem Attended.other {key : JobKey} (kept : Attended o key c)
    (records : c.Records c' e) (silent : committed o key e = none) : Attended o key c' := by
  have line := commits_other records silent
  refine ⟨line ▸ kept.formed,?_⟩
  rw [line]
  exact kept.polled.imp fun _ _ polled same => (polled same).records records

/-- What was made from the latest commit is well formed, and keeps the revision only when
a poll made it. -/
theorem Made.attended {key : JobKey} {record : JobRecord}
    (linear : Linear key c) (kept : Attended o key c) (made : Made o i c record expectedVersion) (same : record.key = key)
    (swaps : (c.state.jobs.get key).map JobRecord.version = expectedVersion)
    (records : c.Records c' (.act i (.save record expectedVersion) true)) :
    record.WellFormed ∧ ∀ last ∈ (commits key c).head?, record.revision = last.revision → Polled o c' record last := by
  subst same
  cases made with
  | created checked =>
    refine ⟨newRecord_formed checked _ _ _,fun last latest => ?_⟩
    rw [← linear.stored] at latest
    rw [latest] at swaps
    cases swaps
  | @updated job _ context nextSources patch now known active patched computed =>
    have latest := linear.latest known swaps
    obtain ⟨formed,revised⟩ := updatedRecord_formed (kept.formed job known) patched computed
    refine ⟨formed,fun last head unrevised => ?_⟩
    cases Option.some.inj (head.symm.trans latest)
    omega
  | @cancelled job _ context now known active computed =>
    have latest := linear.latest known swaps
    obtain ⟨watches,named,pageSize,maxPages,maxAlerts,index⟩ := kept.formed job known
    obtain ⟨b,_,same⟩ := bind_ok computed
    cases same
    refine ⟨⟨watches,named,pageSize,maxPages,maxAlerts,index⟩,fun last head unrevised => ?_⟩
    cases Option.some.inj (head.symm.trans latest)
    dsimp only at unrevised
    omega
  | @polled job p reads now known active polling halted answered =>
    have latest := linear.latest known swaps
    obtain ⟨watches,named,pageSize,maxPages,maxAlerts,index⟩ := polling.polls.formed (kept.formed job known)
    refine ⟨⟨watches,named,pageSize,maxPages,maxAlerts,index⟩,fun last head _ => ?_⟩
    · cases Option.some.inj (head.symm.trans latest)
      exact ⟨i,p,reads,now,polling,halted,rfl,fun r member =>
        (Core.followed_records records).mpr (.inl ⟨⟨_,rfl⟩,answered r member⟩)⟩

/-- A save keeps the line and what its records promise. -/
theorem Attended.save {key : JobKey} (linear : Linear key c) (kept : Attended o key c)
    {record : JobRecord} (made : Made o i c record expectedVersion) :
    Attended o key (c.act i (.save record expectedVersion)) := by
  rcases save_cases key c i record expectedVersion with ⟨e,records,silent,_⟩ | ⟨same,swaps,records,_⟩
  · exact kept.other records silent
  · obtain ⟨formed,polled⟩ := made.attended linear kept same swaps records
    have line := commits_push records same
    have chain := kept.polled.imp fun _ _ polled same => (polled same).records records
    refine ⟨?_,?_⟩
    · rw [line]
      exact forall_mem_cons.mpr ⟨formed,kept.formed⟩
    · rw [line]
      cases older : commits key c with
      | nil => exact .singleton record
      | cons last rest =>
        rw [older] at chain polled
        exact isChain_cons_cons.mpr ⟨polled last rfl,chain⟩

theorem attended_sound (o : Options) : (attended o).Sound where
  move := by
    intro who c c' move
    cases move with
    | @act c i cmd inv may =>
      cases cmd with
      | save record expectedVersion =>
        exact ⟨fun key => (inv.1 key).save may.justified,fun key => (inv.2 key).save (inv.1 key) may⟩
    | @call c i q inv may =>
      exact ⟨fun key => (inv.1 key).other (c.records_call i q) rfl rfl,fun key => (inv.2 key).other (c.records_call i q) rfl⟩
    | @reply c i q r inv =>
      exact ⟨fun key => (inv.1 key).other (c.records_reply i q r) rfl rfl,
        fun key => (inv.2 key).other (c.records_reply i q r) rfl⟩
    | @shock c x inv =>
      exact ⟨fun key => (inv.1 key).other (c.records_shock x) rfl rfl,fun key => (inv.2 key).other (c.records_shock x) rfl⟩
  crash := fun {c} inv =>
    ⟨fun key => (inv.1 key).other c.records_crash rfl rfl,fun key => (inv.2 key).other c.records_crash rfl⟩

theorem attended_lineal (o : Options) : Lineal (attended o) where
  sound := attended_sound o
  free _ := id
  calls _ _ _ _ := trivial
  linear _ inv := inv.1
  saves _ made := made

theorem Reachable.attended (reachable : Reachable o w) (key : JobKey) : Attended o key w.core := by
  obtain ⟨now,run⟩ := reachable
  have governed : w.Governed (Jobs.attended o) := World.Governed.leads (attended_sound o) (body_safe (attended_lineal o))
    (World.initial_governed ⟨fun key => linear_initial key _ rfl,fun key => ⟨by simp [Core.logged],.nil⟩⟩ fun _ => id) run
  exact governed.inv.2 key

/-! ## Every source is read -/

/-- The source was read: it answered the fiber with a page. -/
def Read (i : Nat) (s : JobSource) : Event (service o) → Prop :=
  fun e => ∃ cursor limit checkpoint page, e = .reply i (.read s cursor limit checkpoint) (.ok page)

/-- The poll that committed the record had read the source. -/
def ReadFor (c : Core (service o)) (record : JobRecord) (s : JobSource) : Prop :=
  ∃ i, c.Followed (Read i s) (Commits i record)

theorem readFor_of {record : JobRecord}
    (answered : c.Followed (Answered i r) (Commits i record)) : ReadFor c record r.source := by
  obtain ⟨later,e,earlier,split,commits,e',member,reply⟩ := answered
  exact ⟨i,later,e,earlier,split,commits,e',member,_,_,_,_,reply⟩

/-- The source that is `d` turns away is read within the next `d + 1` polls. -/
theorem turns_come {polls : List JobRecord} {job : JobRecord}
    (formed : ∀ record ∈ polls ++ [job], record.WellFormed) (chain : (polls ++ [job]).IsChain (Polled o c))
    (soon : d < polls.length) (inside : d < job.sources.length)
    (turn : job.sources[(job.nextSourceIndex + d) % job.sources.length]? = some s) : ∃ record ∈ polls, ReadFor c record s := by
  induction polls using List.reverseRecOn generalizing job d with
  | nil => cases soon
  | append_singleton rest first ih =>
    rw [append_assoc] at chain
    obtain ⟨chain',polled,_⟩ := isChain_append_cons_cons.mp chain
    have formedJob : job.WellFormed := formed job (by simp)
    obtain ⟨i,p,reads,now,polling,halted,rfl,answered⟩ := polled
    have rotates := polling.rotates formedJob
    have some := polling.any formedJob halted
    by_cases reached : d < reads.length
    · have read := rotates.read d _ (List.getElem?_eq_getElem reached) inside
      rw [turn,Option.some.injEq] at read
      subst read
      exact ⟨_,by simp,readFor_of (answered _ (getElem_mem reached))⟩
    · have next := polling.polls.next
      have same : p.next.sources = job.sources := by rw [next]
      have index : (p.record o.host now).nextSourceIndex = (job.nextSourceIndex + reads.length) % job.sources.length :=
        rotates.turn (by omega)
      rw [length_append,length_singleton] at soon
      have formed' : ∀ record ∈ rest ++ [p.record o.host now], record.WellFormed := fun record member =>
        formed record (mem_append_left _ member)
      obtain ⟨record,member,read⟩ := ih formed' chain' (d := d - reads.length) (by omega)
        (by show _ < p.next.sources.length; rw [same]; omega) (by
          rw [index]
          show p.next.sources[_ % p.next.sources.length]? = _
          rw [same,Nat.mod_add_mod,Nat.add_assoc,Nat.add_sub_cancel' (by omega)]
          exact turn)
      exact ⟨record,mem_append_left _ member,read⟩

def Options.watching : Options := ⟨.plain,false,true⟩

/-- The store answers, and every source has an empty page. -/
def served (fiber : Nat) : Choice (service .watching) Op :=
  .resume fiber fun
    | .store => some (.ok ())
    | .read s _ _ _ => some (.ok ⟨s.id,[],none,false,none⟩)
    | _ => none

/-- A job of one source is polled twice. -/
def polledTwice : List (Choice (service .watching) Op) :=
  [.invoke (.create (asker "r0") { id := some "job", name := "watch", sources := [⟨"s",.web,"https://example.org"⟩] }),
    served 0,served 0,served 0,served 0,
    .invoke (.poll (asker "r1") "job" 1),served 1,served 1,served 1,served 1,served 1,served 1,served 1,
    .invoke (.poll (asker "r2") "job" 1),served 2,served 2,served 2,served 2,served 2,served 2,served 2]

end Neurobro.Jobs
