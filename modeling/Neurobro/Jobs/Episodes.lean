import Neurobro.Jobs.Alerts
import Neurobro.Jobs.Turns

/-! The life of a job, poll after poll. A page that was left is read again where it was
left, and each loss of a source is told once and its end once, as long as no page of a
lost source needs more room than the job has. -/
namespace Neurobro.Jobs

open List

variable {o : Options} {h : Host} {job : JobRecord} {reads : List Reading}

/-- Of the losses of a source all are over but the one that lasts. -/
def SourceState.ended (s : SourceState) : Nat := if s.status = .lost then s.lossEpisode - 1 else s.lossEpisode

/-- The episode, once for each alert of the kind that a page of the source added. A source
that came back after it was taken out starts again, from another revision. -/
def Reading.tells (h : Host) (slot : String) (start : Option Nat) (kind : AlertKind) (episode : Nat) (r : Reading) : List Nat :=
  if r.slot h = slot ∧ r.previous.bootstrapRevision = start then (r.kept.filter fun a => a.kind = kind).map fun _ => episode
  else []

def restorations (h : Host) (slot : String) (start : Option Nat) (reads : List Reading) : List Nat :=
  reads.flatMap fun r => r.tells h slot start .sourceRestored r.previous.lossEpisode

def losses (h : Host) (slot : String) (start : Option Nat) (reads : List Reading) : List Nat :=
  reads.flatMap fun r => r.tells h slot start .sourceLost r.state.lossEpisode

/-- What a job goes through, with all the pages its committed polls read. -/
inductive Life (o : Options) : JobRecord → List Reading → Prop
  | created {id : String} {b : TaskBinding} {checked : CheckedSpec} {now : String} :
      Life o (newRecord o.host id b checked now) []
  | updated {job next : JobRecord} {reads : List Reading} {context : ToolContext} {nextSources : List JobSource}
      {patch : JobPatch} {now : String} : Life o job reads → patchSources o.host job patch = .ok nextSources →
      updatedRecord o.host job context nextSources patch now = .ok next → Life o next reads
  | cancelled {job next : JobRecord} {reads : List Reading} {context : ToolContext} {now : String} :
      Life o job reads → cancelledRecord job context now = .ok next → Life o next reads
  | polled {job : JobRecord} {p : Polling} {reads fresh : List Reading} {now : String} : Life o job reads →
      Reads o job p fresh → p.goesOn = false → Life o (p.record o.host now) (reads ++ fresh)

/-- A page of a source that was lost has room. -/
def Roomy (h : Host) (r : Reading) : Prop :=
  r.previous.status = .lost → r.page.unavailable ≠ some true → ∀ changes,
    r.page.changes.mapM (admitChange h r.job) = .ok changes →
      requiredTrackedItems r.previous changes ≤ r.job.limits.maxTrackedItems

/-! ## One page -/

theorem restoration_only (h : Host) (job : JobRecord) (source : JobSource) (old : SourceState) (now : String)
    (changes : List Change) :
    (sortAlerts h (restoration h job source old now ++ changes.map (changeAlert h job source))).filter MonitorAlert.restores =
      restoration h job source old now := by
  have perm := (sortAlerts_perm h (restoration h job source old now ++ changes.map (changeAlert h job source))).filter
    MonitorAlert.restores
  have items : (changes.map (changeAlert h job source)).filter MonitorAlert.restores = [] := by
    apply filter_eq_nil_iff.mpr
    intro a member
    obtain ⟨c,_,rfl⟩ := mem_map.mp member
    simp [MonitorAlert.restores,changeAlert,alert]
  rw [filter_append,items,append_nil] at perm
  unfold restoration at perm ⊢
  split
  · rename_i lost
    rw [if_pos lost] at perm
    exact perm_singleton.mp perm
  · rename_i found
    rw [if_neg found] at perm
    exact perm_nil.mp perm

theorem no_losses {now : String} {changes : List Change}
    (within : alerts ⊆ sortAlerts h (restoration h job source old now ++ changes.map (changeAlert h job source))) :
    alerts.filter (fun a => a.kind = .sourceLost) = [] := by
  apply filter_eq_nil_iff.mpr
  intro a member
  rcases mem_append.mp ((sortAlerts_perm h _).mem_iff.mp (within member)) with own | item
  · unfold restoration at own
    split at own
    · cases mem_singleton.mp own
      simp [statusAlert,alert]
    · cases own
  · obtain ⟨c,_,rfl⟩ := mem_map.mp item
    simp [changeAlert,alert]

theorem kept_subset (r : Reading) : r.kept ⊆ r.raised := by
  unfold Reading.kept
  split
  · exact fun _ there => there
  · intro a member
    exact mem_of_find?_eq_some (Option.mem_toList.mp member)

/-- A restoration is told with the page it comes with, whether that is consumed or left. -/
theorem kept_restores {r : Reading} (single : (r.raised.filter MonitorAlert.restores).length ≤ 1) :
    r.kept.filter MonitorAlert.restores = r.raised.filter MonitorAlert.restores := by
  unfold Reading.kept
  cases r.fits with
  | true => rfl
  | false =>
    rw [if_neg Bool.false_ne_true,← List.head?_filter]
    have each := fun a (member : a ∈ r.raised.filter MonitorAlert.restores) => of_mem_filter member
    generalize r.raised.filter MonitorAlert.restores = told at single each ⊢
    match told,single,each with
    | [],_,_ => rfl
    | [a],_,each => simp [each a (by simp)]

/-- What a page does to the episodes of its source. -/
structure Episodes (r : Reading) : Prop where
  start : r.settled.bootstrapRevision = r.previous.bootstrapRevision
  begun : r.settled.status = .lost → 0 < r.settled.lossEpisode
  restored : List.range' 1 r.previous.ended ++ ((r.kept.filter fun a => a.kind = .sourceRestored).map fun _ => r.previous.lossEpisode) =
    List.range' 1 r.settled.ended
  lost : List.range' 1 r.previous.lossEpisode ++ ((r.kept.filter fun a => a.kind = .sourceLost).map fun _ => r.state.lossEpisode) =
    List.range' 1 r.settled.lossEpisode

theorem Reading.Sound.episodes {r : Reading} (sound : r.Sound h) (roomy : Roomy h r)
    (begun : r.previous.status = .lost → 0 < r.previous.lossEpisode) : Episodes r := by
  have collects := collectMonitor_collects sound.stored sound.collected
  have available : r.fits = false → r.previous.status = .lost ∧ r.page.unavailable ≠ some true := sound.late
  obtain ⟨job,source,previous,limit,checkpoint,page,now,state,raised,fits⟩ := r
  dsimp only at collects available begun
  cases collects with
  | stillLost gone was =>
    have consumed : fits = true := by
      cases fits with
      | true => rfl
      | false => exact absurd gone (available rfl).2
    subst consumed
    exact ⟨rfl,fun _ => begun was,by simp [Reading.kept,Reading.settled,SourceState.ended,was],by simp [Reading.kept,Reading.settled]⟩
  | lost gone was =>
    have consumed : fits = true := by
      cases fits with
      | true => rfl
      | false => exact absurd gone (available rfl).2
    subst consumed
    refine ⟨rfl,fun _ => Nat.succ_pos _,?_,?_⟩
    · simp [Reading.kept,Reading.settled,SourceState.ended,was,statusAlert,alert]
    · simp [Reading.kept,Reading.settled,statusAlert,alert,range'_1_concat,Nat.add_comm]
  | @full changes present admitted crowded =>
    have found : previous.status ≠ .lost := fun was => absurd (roomy was present changes admitted) (Nat.not_le_of_lt crowded)
    have consumed : fits = true := by
      cases fits with
      | true => rfl
      | false => exact absurd (available rfl).1 found
    subst consumed
    exact ⟨rfl,fun no => (by cases no),by simp [Reading.kept,Reading.settled,SourceState.ended,found],
      by simp [Reading.kept,Reading.settled]⟩
  | @consumed changes state present admitted episode start found =>
    have only := restoration_only h job source previous now (previous.tracking.alerted changes)
    let r : Reading := ⟨job,source,previous,limit,checkpoint,page,now,state,
      sortAlerts h (restoration h job source previous now ++ (previous.tracking.alerted changes).map (changeAlert h job source)),fits⟩
    have told : r.kept.filter (fun a => a.kind = .sourceRestored) = restoration h job source previous now := by
      refine (kept_restores (r := r) ?_).trans only
      rw [only]
      unfold restoration
      split <;> simp
    have silent : r.kept.filter (fun a => a.kind = .sourceLost) = [] := no_losses (kept_subset r)
    have settled : r.settled.status ≠ .lost ∧ r.settled.lossEpisode = previous.lossEpisode ∧
        r.settled.bootstrapRevision = previous.bootstrapRevision := by
      unfold Reading.settled
      split
      · exact ⟨found,episode,start⟩
      · exact ⟨by simp,rfl,rfl⟩
    have over_ : r.settled.ended = previous.lossEpisode := by
      unfold SourceState.ended
      rw [if_neg settled.1,settled.2.1]
    refine ⟨settled.2.2,fun no => absurd no settled.1,?_,?_⟩
    · show List.range' 1 previous.ended ++ (r.kept.filter _).map _ = List.range' 1 r.settled.ended
      rw [told,over_]
      unfold restoration SourceState.ended
      by_cases was : previous.status = .lost
      · rw [if_pos was,if_pos was]
        have some := begun was
        obtain ⟨n,same⟩ : ∃ n, previous.lossEpisode = n + 1 := ⟨previous.lossEpisode - 1,by omega⟩
        rw [same,Nat.add_sub_cancel,range'_1_concat,Nat.add_comm 1 n]
        rfl
      · rw [if_neg was,if_neg was]
        simp
    · show List.range' 1 previous.lossEpisode ++ (r.kept.filter _).map _ = List.range' 1 r.settled.lossEpisode
      rw [silent,settled.2.1]
      simp

/-! ## The chronicle of a job -/

/-- What was told of every source agrees with its state. -/
structure Chronicle (h : Host) (job : JobRecord) (reads : List Reading) : Prop where
  begun : ∀ slot s, job.sourceStates.get slot = some s → s.status = .lost → 0 < s.lossEpisode
  restored : ∀ slot s, job.sourceStates.get slot = some s →
    restorations h slot s.bootstrapRevision reads = List.range' 1 s.ended
  lost : ∀ slot s, job.sourceStates.get slot = some s →
    losses h slot s.bootstrapRevision reads = List.range' 1 s.lossEpisode
  starts : ∀ slot s, job.sourceStates.get slot = some s → ∀ n ∈ s.bootstrapRevision, n ≤ job.revision
  past : ∀ r ∈ reads, ∀ n ∈ r.previous.bootstrapRevision, n ≤ job.revision

theorem tells_other {slot : String} {start : Option Nat} {r : Reading}
    (apart : ¬(r.slot h = slot ∧ r.previous.bootstrapRevision = start)) : r.tells h slot start kind episode = [] := if_neg apart

theorem Chronicle.read (chronicle : Chronicle h p.next reads) (settles : Settles h p p' r)
    (turned : r.job = p.turned r.source) (roomy : Roomy h r) : Chronicle h p'.next (reads ++ [r]) := by
  have stored : p.next.sourceStates.get (r.slot h) = some r.previous := by
    have := settles.sound.stored
    rwa [turned] at this
  have episodes := settles.sound.episodes roomy (chronicle.begun _ _ stored)
  have states : p'.next.sourceStates = p.next.sourceStates.put (r.slot h) r.settled :=
    congrArg JobRecord.sourceStates settles.job
  have revision : p'.next.revision = p.next.revision := by rw [settles.job]; rfl
  have starts := chronicle.starts _ _ stored
  refine ⟨fun slot s there => ?_,fun slot s there => ?_,fun slot s there => ?_,fun slot s there => ?_,fun r' member => ?_⟩
  · rw [states,Table.get_put] at there
    split at there
    · cases there
      exact episodes.begun
    · exact chronicle.begun slot s there
  · rw [states,Table.get_put] at there
    rw [restorations,flatMap_append,← restorations]
    split at there
    · rename_i same
      cases there
      rw [episodes.start,same,chronicle.restored _ _ stored,← episodes.restored]
      simp [Reading.tells]
    · rename_i apart
      rw [chronicle.restored slot s there]
      simp [Reading.tells,Ne.symm apart]
  · rw [states,Table.get_put] at there
    rw [losses,flatMap_append,← losses]
    split at there
    · rename_i same
      cases there
      rw [episodes.start,same,chronicle.lost _ _ stored,← episodes.lost]
      simp [Reading.tells]
    · rename_i apart
      rw [chronicle.lost slot s there]
      simp [Reading.tells,Ne.symm apart]
  · rw [revision]
    rw [states,Table.get_put] at there
    split at there
    · cases there
      rw [episodes.start]
      exact starts
    · exact chronicle.starts slot s there
  · rw [revision]
    rcases mem_append.mp member with old | new
    · exact chronicle.past r' old
    · cases mem_singleton.mp new
      exact starts

/-- A revised job has of a source what it had before, or a fresh start. -/
theorem carriedState_episode {revision : Nat} {limits : JobLimits} {state : SourceState}
    (ok : carriedState h job revision limits s = .ok state) :
    (state.status = .ready ∧ state.lossEpisode = 0 ∧ state.bootstrapRevision = some revision) ∨
      ∃ old, job.sourceStates.get (h.key s.id) = some old ∧ (state.status = .lost ↔ old.status = .lost) ∧
        state.lossEpisode = old.lossEpisode ∧ state.bootstrapRevision = old.bootstrapRevision := by
  unfold carriedState at ok
  extract_lets base at ok
  obtain ⟨_,ok⟩ := guard_eq_ok.mp ok
  have origin : base = { bootstrapRevision := some revision } ∨ job.sourceStates.get (h.key s.id) = some base := by
    unfold base
    cases job.sources.find? (· = s) with
    | none => exact .inl rfl
    | some found =>
      cases stored : job.sourceStates.get (h.key s.id) with
      | none => exact .inl rfl
      | some old => exact .inr rfl
  clear_value base
  rcases origin with rfl | stored
  · cases ok
    exact .inl ⟨rfl,rfl,rfl⟩
  · refine .inr ⟨base,stored,?_⟩
    by_cases blocked : (decide (base.status = .capacity) && base.capacity.any fun block =>
        decide (block.requiredTrackedItems ≤ limits.maxTrackedItems)) = true
    · rw [if_pos blocked] at ok
      cases ok
      have full : base.status = .capacity := of_decide_eq_true (Bool.and_eq_true_iff.mp blocked).1
      simp [full]
    · rw [if_neg blocked] at ok
      cases ok
      simp

theorem Chronicle.updated {next : JobRecord} {context : ToolContext} {nextSources : List JobSource} {patch : JobPatch}
    {now : String} (chronicle : Chronicle h job reads) (ok : updatedRecord h job context nextSources patch now = .ok next) :
    Chronicle h next reads := by
  unfold updatedRecord at ok
  obtain ⟨b,_,ok⟩ := bind_ok ok
  obtain ⟨name,_,ok⟩ := bind_ok ok
  obtain ⟨f,_,ok⟩ := bind_ok ok
  obtain ⟨limits,_,ok⟩ := bind_ok ok
  obtain ⟨states,carried,ok⟩ := bind_ok ok
  cases ok
  have origin : ∀ slot s, states.get slot = some s →
      (s.status = .ready ∧ s.lossEpisode = 0 ∧ s.bootstrapRevision = some (job.revision + 1)) ∨
        ∃ old, job.sourceStates.get slot = some old ∧ (s.status = .lost ↔ old.status = .lost) ∧
          s.lossEpisode = old.lossEpisode ∧ s.bootstrapRevision = old.bootstrapRevision := by
    intro slot s there
    obtain ⟨source,rfl,kept⟩ := carriedStates_ok carried slot s there
    exact carriedState_episode kept
  -- no page was read from the new start yet
  have unread : ∀ kind (episode : Reading → Nat) slot, (reads.flatMap fun r =>
      r.tells h slot (some (job.revision + 1)) kind (episode r)) = [] := by
    intro kind episode slot
    apply flatMap_eq_nil_iff.mpr
    intro r member
    refine tells_other fun ⟨_,same⟩ => ?_
    have := chronicle.past r member _ same
    omega
  refine ⟨fun slot s there lost => ?_,fun slot s there => ?_,fun slot s there => ?_,fun slot s there n some => ?_,fun r member n some => ?_⟩
  · rcases origin slot s there with ⟨ready,_⟩ | ⟨old,stored,status,episode,_⟩
    · rw [ready] at lost
      cases lost
    · rw [episode]
      exact chronicle.begun slot old stored (status.mp lost)
  · rcases origin slot s there with ⟨ready,none,start⟩ | ⟨old,stored,status,episode,start⟩
    · rw [start,restorations,unread,SourceState.ended,ready,none]
      rfl
    · rw [start,chronicle.restored slot old stored,SourceState.ended,SourceState.ended,episode]
      simp only [status]
  · rcases origin slot s there with ⟨ready,none,start⟩ | ⟨old,stored,status,episode,start⟩
    · rw [start,losses,unread,none]
      rfl
    · rw [start,chronicle.lost slot old stored,episode]
  · rcases origin slot s there with ⟨_,_,start⟩ | ⟨old,stored,_,_,start⟩
    · rw [start] at some
      cases some
      exact Nat.le_refl _
    · rw [start] at some
      exact Nat.le_succ_of_le (chronicle.starts slot old stored n some)
  · exact Nat.le_succ_of_le (chronicle.past r member n some)

theorem chronicle_reads {fresh : List Reading} (chronicle : Chronicle o.host job reads)
    (polling : Reads o job p fresh) (roomy : ∀ r ∈ fresh, Roomy o.host r) : Chronicle o.host p.next (reads ++ fresh) := by
  induction polling with
  | start =>
    rw [append_nil]
    exact chronicle
  | @page p p' earlier r _ goes _ stored within _ turned collected fits ok ih =>
    have settles := page_settles goes stored within turned collected fits ok
    rw [← append_assoc]
    exact (ih fun r' member => roomy r' (mem_append_left _ member)).read settles turned (roomy r (by simp))

theorem Life.chronicle (life : Life o job reads) (roomy : ∀ r ∈ reads, Roomy o.host r) : Chronicle o.host job reads := by
  induction life with
  | created =>
    refine ⟨fun slot s there lost => ?_,fun slot s there => ?_,fun slot s there => ?_,fun slot s there n some => ?_,by simp⟩ <;>
      obtain ⟨_,rfl⟩ := statesOf_get there
    · cases lost
    · rfl
    · rfl
    · cases some
  | updated _ _ updated ih => exact (ih roomy).updated updated
  | cancelled _ cancelled ih =>
    obtain ⟨b,_,same⟩ := bind_ok cancelled
    cases same
    obtain ⟨begun,restored,lost,starts,past⟩ := ih roomy
    exact ⟨begun,restored,lost,fun slot s there n some => Nat.le_succ_of_le (starts slot s there n some),
      fun r member n some => Nat.le_succ_of_le (past r member n some)⟩
  | polled _ polling _ ih =>
    have before := ih fun r member => roomy r (mem_append_left _ member)
    obtain ⟨begun,restored,lost,starts,past⟩ := chronicle_reads before polling fun r member => roomy r (mem_append_right _ member)
    exact ⟨begun,restored,lost,starts,past⟩

/-! ## Pages that were left -/

/-- What is known of the latest pages: the job they were read for, and the state they left. -/
structure Recent (h : Host) (job : JobRecord) (reads : List Reading) : Prop where
  same : ∀ r ∈ reads, r.job.revision ≤ job.revision ∧ (r.job.revision = job.revision →
    r.job.id = job.id ∧ r.job.binding = job.binding ∧ r.job.filter = job.filter)
  latest : ∀ xs r ys, reads = xs ++ r :: ys → (∀ r' ∈ ys, r'.slot h ≠ r.slot h) → r.job.revision = job.revision →
    job.sourceStates.get (r.slot h) = some r.settled

/-- Where a page begins with all of another's changes, and is consumed from where that
one was left, it raises the same item alerts. -/
def RaisedAgain (r r' : Reading) : Prop :=
  r'.page.unavailable ≠ some true → r'.state.status ≠ .capacity → r.page.changes <+: r'.page.changes →
    ∀ a ∈ r.raised, a.restores = false → a ∈ r'.raised

/-- The next page of the source after one that was left is read where that was left, fits,
and brings the alerts that were left. -/
def Resumed (h : Host) (reads : List Reading) : Prop :=
  ∀ xs r ys r' zs, reads = xs ++ r :: ys ++ r' :: zs → r.fits = false → r'.source = r.source →
    r'.job.revision = r.job.revision → (∀ between ∈ ys, between.slot h ≠ r.slot h) →
      r'.previous = { r.previous with status := .catchup } ∧ r'.fits = true ∧ RaisedAgain r r'

theorem admitChange_same {job job' : JobRecord} (filter : job'.filter = job.filter) (raw : SourceChange) :
    admitChange h job' raw = admitChange h job raw := by
  unfold admitChange
  rw [filter]

theorem changeAlert_same {job job' : JobRecord} (id : job'.id = job.id)
    (binding : job'.binding = job.binding) (revision : job'.revision = job.revision) :
    changeAlert h job' source = changeAlert h job source := by
  funext c
  unfold changeAlert alert alertId
  rw [id,binding,revision]

theorem raised_again (sound : r.Sound h) (sound' : r'.Sound h) (source : r'.source = r.source)
    (tracking : r'.previous.tracking = r.previous.tracking) (id : r'.job.id = r.job.id) (binding : r'.job.binding = r.job.binding)
    (filter : r'.job.filter = r.job.filter) (revision : r'.job.revision = r.job.revision) (left : r.fits = false) :
    RaisedAgain r r' := by
  intro present room extends_ a member item
  have first := collectMonitor_collects sound.stored sound.collected
  have second := collectMonitor_collects sound'.stored sound'.collected
  have available := (sound.late left).2
  generalize was : r.raised = raised at first member
  generalize is : r'.raised = raised' at second ⊢
  generalize came : r'.state = state' at second room
  generalize r.state = state at first
  cases first with
  | stillLost gone _ | lost gone _ => exact absurd gone available
  | full => cases member
  | @consumed changes _ _ admitted =>
    cases second with
    | stillLost gone _ | lost gone _ => exact absurd gone present
    | full => exact absurd rfl room
    | @consumed changes' _ _ admitted' =>
      obtain ⟨more,whole⟩ := extends_
      have same : admitChange h r.job = admitChange h r'.job := funext fun raw => (admitChange_same filter raw).symm
      have admitted'' : r'.page.changes.mapM (admitChange h r.job) = .ok changes' := by
        rw [same]
        exact admitted'
      rw [← whole,mapM_append] at admitted''
      obtain ⟨xs,head,rest⟩ := bind_ok admitted''
      obtain ⟨ys,_,same⟩ := bind_ok rest
      obtain rfl : changes = xs := Except.ok.inj (admitted.symm.trans head)
      cases Except.ok.inj same
      rw [(sortAlerts_perm h _).mem_iff] at member ⊢
      rw [tracking,Tracking.alerted_append,changeAlert_same id binding revision,source]
      rcases mem_append.mp member with own | there
      · unfold restoration at own
        split at own
        · cases mem_singleton.mp own
          cases item
        · cases own
      · rw [map_append]
        exact mem_append_right _ (mem_append_left _ there)

theorem settled_left {r : Reading} (left : r.fits = false) : r.settled = { r.previous with status := .catchup } := by
  unfold Reading.settled
  rw [left]
  rfl

theorem Recent.read (recent : Recent h p.next reads) (settles : Settles h p p' r)
    (turned : r.job = p.turned r.source) : Recent h p'.next (reads ++ [r]) := by
  have states : p'.next.sourceStates = p.next.sourceStates.put (r.slot h) r.settled :=
    congrArg JobRecord.sourceStates settles.job
  have revision : p'.next.revision = p.next.revision := by rw [settles.job]; rfl
  have face : p'.next.id = p.next.id ∧ p'.next.binding = p.next.binding ∧ p'.next.filter = p.next.filter := by
    rw [settles.job]
    exact ⟨rfl,rfl,rfl⟩
  refine ⟨fun r' member => ?_,fun xs r' ys split apart current => ?_⟩
  · rw [revision,face.1,face.2.1,face.2.2]
    rcases mem_append.mp member with old | new
    · exact recent.same r' old
    · cases mem_singleton.mp new
      rw [turned]
      exact ⟨Nat.le_refl _,fun _ => ⟨rfl,rfl,rfl⟩⟩
  · rw [states]
    rcases eq_nil_or_concat ys with rfl | ⟨rest,last,rfl⟩
    · cases (append_inj' split rfl).2
      exact Table.get_put_same _ _ _
    · rw [concat_eq_append,← cons_append,← append_assoc] at split
      obtain ⟨before,same⟩ := append_inj' split rfl
      cases same
      rw [Table.get_put_other _ _ (Ne.symm (apart r (by simp)))]
      exact recent.latest xs r' rest before (fun r'' member => apart r'' (by simp [member])) (revision ▸ current)

theorem Resumed.read {p p' : Polling} (resumed : Resumed h reads) (sound : ∀ r ∈ reads, r.Sound h)
    (recent : Recent h p.next reads) (settles : Settles h p p' r) (turned : r.job = p.turned r.source) :
    Resumed h (reads ++ [r]) := by
  intro xs left ys r' zs split late source current apart
  rcases eq_nil_or_concat zs with rfl | ⟨rest,last,rfl⟩
  · obtain ⟨before,same⟩ := append_inj' split rfl
    cases same
    have member : left ∈ reads := by simp [before]
    have stored : p.next.sourceStates.get (r.slot h) = some r.previous := by
      have := settles.sound.stored
      rwa [turned] at this
    have face := (recent.same left member).2 (by rw [← current,turned]; rfl)
    have slot : r.slot h = left.slot h := by rw [Reading.slot,source,Reading.slot]
    have there := recent.latest xs left ys before apart (by rw [← current,turned]; rfl)
    rw [← slot,stored,settled_left late] at there
    have previous := Option.some.inj there
    refine ⟨previous,?_,raised_again (sound left member) settles.sound source ?_ ?_ ?_ ?_ current late⟩
    · cases fits : r.fits with
      | true => rfl
      | false =>
        have lost := (settles.sound.late fits).1
        rw [previous] at lost
        cases lost
    · rw [previous]
      rfl
    · rw [turned]
      exact face.1.symm
    · rw [turned]
      exact face.2.1.symm
    · rw [turned]
      exact face.2.2.symm
  · rw [concat_eq_append,← cons_append,← append_assoc] at split
    exact resumed xs left ys r' rest (append_inj' split rfl).1 late source current apart

theorem recent_reads {fresh : List Reading} (recent : Recent o.host job reads) (resumed : Resumed o.host reads)
    (sound : ∀ r ∈ reads, r.Sound o.host) (polling : Reads o job p fresh) :
    Recent o.host p.next (reads ++ fresh) ∧ Resumed o.host (reads ++ fresh) ∧ ∀ r ∈ reads ++ fresh, r.Sound o.host := by
  induction polling with
  | start =>
    rw [append_nil]
    exact ⟨recent,resumed,sound⟩
  | @page p p' earlier r _ goes _ stored within _ turned collected fits ok ih =>
    have settles := page_settles goes stored within turned collected fits ok
    rw [← append_assoc]
    refine ⟨ih.1.read settles turned,ih.2.1.read ih.2.2 ih.1 settles turned,fun r' member => ?_⟩
    rcases mem_append.mp member with old | new
    · exact ih.2.2 r' old
    · exact mem_singleton.mp new ▸ settles.sound

/-- A job that was revised has read nothing for its revision. -/
theorem Recent.revised {next : JobRecord} (recent : Recent h job reads) (later : next.revision = job.revision + 1) :
    Recent h next reads := by
  refine ⟨fun r member => ?_,fun xs r ys split _ current => ?_⟩
  · have := (recent.same r member).1
    exact ⟨by omega,fun current => by omega⟩
  · have := (recent.same r (by simp [split])).1
    omega

theorem Life.recent (life : Life o job reads) : Recent o.host job reads ∧ Resumed o.host reads ∧ ∀ r ∈ reads, r.Sound o.host := by
  induction life with
  | created =>
    refine ⟨⟨by simp,fun xs r ys split => ?_⟩,fun xs r ys r' zs split => ?_,by simp⟩ <;> simp at split
  | updated _ _ updated ih =>
    refine ⟨ih.1.revised ?_,ih.2⟩
    unfold updatedRecord at updated
    obtain ⟨b,_,updated⟩ := bind_ok updated
    obtain ⟨name,_,updated⟩ := bind_ok updated
    obtain ⟨f,_,updated⟩ := bind_ok updated
    obtain ⟨limits,_,updated⟩ := bind_ok updated
    obtain ⟨states,_,updated⟩ := bind_ok updated
    cases updated
    rfl
  | cancelled _ cancelled ih =>
    obtain ⟨b,_,same⟩ := bind_ok cancelled
    cases same
    exact ⟨ih.1.revised rfl,ih.2⟩
  | polled _ polling _ ih =>
    obtain ⟨⟨same,latest⟩,resumed,sound⟩ := recent_reads ih.1 ih.2.1 ih.2.2 polling
    exact ⟨⟨same,latest⟩,resumed,sound⟩

/-! ## What a poll returns -/

/-- A committed poll returns what its pages raised and no more than it may, and leaves a
page that raised too much where it was. -/
structure Delivers (h : Host) (job : JobRecord) (fresh : List Reading) (record : JobRecord) (result : PollResult) : Prop where
  bounded : result.alerts.length ≤ job.limits.maxAlerts
  returned : result.alerts.Perm (fresh.flatMap Reading.kept)
  consumed : ∀ r ∈ fresh, r.fits = true → ∀ a ∈ r.raised, a ∈ result.alerts
  moved : ∀ slot old new, job.sourceStates.get slot = some old → record.sourceStates.get slot = some new →
    new.cursor ≠ old.cursor → ∃ r ∈ fresh, r.slot h = slot ∧ r.fits = true
  left : ∀ r ∈ fresh, r.fits = false → ∃ state, record.sourceStates.get (r.slot h) = some state ∧
    state.cursor = r.previous.cursor ∧ state.items = r.previous.items ∧ state.seen = r.previous.seen

/-- Only a page that is consumed moves the cursor of its source. -/
theorem Reads.unmoved {p : Polling} {fresh : List Reading} (polling : Reads o job p fresh) {slot : String} {old new : SourceState}
    (before : job.sourceStates.get slot = some old) (after_ : p.next.sourceStates.get slot = some new)
    (none : ∀ r ∈ fresh, r.slot o.host = slot → r.fits = false) : new.cursor = old.cursor := by
  induction polling generalizing new with
  | start =>
    cases Option.some.inj (after_.symm.trans before)
    rfl
  | @page p p' earlier r _ goes _ stored within _ turned collected fits ok ih =>
    have settles := page_settles goes stored within turned collected fits ok
    have states : p'.next.sourceStates = p.next.sourceStates.put (r.slot o.host) r.settled :=
      congrArg JobRecord.sourceStates settles.job
    have unread : ∀ r ∈ earlier, r.slot o.host = slot → r.fits = false := fun r' member => none r' (by simp [member])
    rw [states,Table.get_put] at after_
    split at after_
    · rename_i same
      cases after_
      subst same
      rw [settled_left (none r (by simp) rfl)]
      have held : r.previous.cursor = old.cursor := ih stored unread
      exact held
    · exact ih after_ unread

theorem Reads.delivers {p : Polling} {fresh : List Reading} (polling : Reads o job p fresh) (now : String) :
    Delivers o.host job fresh (p.record o.host now) (p.result o.host (p.record o.host now)) := by
  have kept := polling.kept
  have returned : (sortAlerts o.host p.alerts).Perm (fresh.flatMap Reading.kept) := kept.alerts ▸ sortAlerts_perm o.host p.alerts
  refine ⟨?_,returned,fun r member fits a raised => ?_,fun slot old new before after_ moved => ?_,fun r member late => ?_⟩
  · show (sortAlerts o.host p.alerts).length ≤ _
    rw [(sortAlerts_perm o.host p.alerts).length_eq]
    exact kept.bound
  · refine returned.mem_iff.mpr (mem_flatMap.mpr ⟨r,member,?_⟩)
    unfold Reading.kept
    rwa [if_pos fits]
  · by_contra none
    refine moved (polling.unmoved before after_ fun r member same => ?_)
    cases fits : r.fits with
    | false => rfl
    | true => exact absurd ⟨r,member,same,fits⟩ none
  · refine ⟨r.settled,kept.last r member late,?_⟩
    rw [settled_left late]
    exact ⟨rfl,rfl,rfl⟩

/-- What is promised of the alerts of a job that lived so far. -/
structure Delivered (o : Options) (job : JobRecord) (reads : List Reading) : Prop where
  restored : ∀ slot s, job.sourceStates.get slot = some s →
    restorations o.host slot s.bootstrapRevision reads = List.range' 1 s.ended
  lost : ∀ slot s, job.sourceStates.get slot = some s →
    losses o.host slot s.bootstrapRevision reads = List.range' 1 s.lossEpisode
  resumed : Resumed o.host reads
  next : ∀ p fresh now, Reads o job p fresh → p.goesOn = false →
    Delivers o.host job fresh (p.record o.host now) (p.result o.host (p.record o.host now))

/-- Every committed record of a run is a life, with pages that its sources answered. -/
theorem Reachable.lives (reachable : Reachable o w) (key : JobKey) :
    ∀ job ∈ commits key w.core, ∃ reads, Life o job reads ∧ ∀ r ∈ reads, ∃ i, w.core.Happened (Answered i r) := by
  obtain ⟨chain,first,_⟩ := reachable.governed.inv key
  have polled := (reachable.attended key).polled
  generalize commits key w.core = line at chain first polled ⊢
  induction line with
  | nil => simp
  | cons next rest ih =>
    cases rest with
    | nil =>
      obtain ⟨_,made⟩ := first next (by simp)
      intro job member
      cases mem_singleton.mp member
      cases made
      exact ⟨[],.created,by simp⟩
    | cons last older =>
      obtain ⟨succeeds,chain⟩ := isChain_cons_cons.mp chain
      obtain ⟨poll,polled⟩ := isChain_cons_cons.mp polled
      have before := ih chain (by simpa using first) polled
      intro job member
      rcases mem_cons.mp member with rfl | there
      · obtain ⟨reads,life,answered⟩ := before last (by simp)
        cases succeeds.computed with
        | updated patched updated => exact ⟨reads,.updated life patched updated,answered⟩
        | cancelled cancelled => exact ⟨reads,.cancelled life cancelled,answered⟩
        | @polled _ p now polls =>
          have unrevised : (p.record o.host now).revision = last.revision := by
            show p.next.revision = _
            rw [polls.next]
          obtain ⟨i,q,fresh,later,polling,halted,same,answered'⟩ := poll unrevised
          rw [same]
          refine ⟨reads ++ fresh,.polled life polling halted,fun r member => ?_⟩
          rcases mem_append.mp member with old | new
          · exact answered r old
          · exact ⟨i,(answered' r new).happened⟩
      · exact before job there

/-- However the operations interleave, every committed job has lived as the pages its
sources answered with made it. In every life in which no page of a lost source lacked
room, each loss and each return of a source was told once and in order, pages that were
left were read again where they were left, and the next poll returns what its pages raise
and no more than it may. -/
theorem alerts_delivered (o : Options) :
    (∀ w, Reachable o w → ∀ key, ∀ job ∈ commits key w.core, ∃ reads, Life o job reads ∧
      ∀ r ∈ reads, ∃ i, w.core.Happened (Answered i r)) ∧
    ∀ job reads, Life o job reads → (∀ r ∈ reads, Roomy o.host r) → Delivered o job reads := by
  refine ⟨fun w reachable key => reachable.lives key,fun job reads life roomy => ?_⟩
  have chronicle := life.chronicle roomy
  exact ⟨chronicle.restored,chronicle.lost,life.recent.2.1,fun p fresh now polling _ => polling.delivers now⟩

/-! ## A loss that ends with room, and one that ends without -/

/-- The poll after one page. -/
def Polling.read (o : Options) (job : JobRecord) (p : Polling) (page : SourcePage) (now : String) : Option (Polling × Reading) := do
  guard p.goesOn
  let s ← p.queue.head?
  let previous ← p.next.sourceStates.get (o.host.key s.id)
  let (state,raised) ← (collectMonitor o.host (p.turned s) s page now).toOption
  let p' ← (p.page o.host s previous page now).toOption
  some (p',{
    job := p.turned s
    source := s
    previous
    limit := p.limit previous
    checkpoint := checkpoint o.host job.binding.taskId job.id previous
    page
    now
    state
    raised
    fits := decide (p.alerts.length + raised.length ≤ p.next.limits.maxAlerts) })

/-- The job after a poll of one page. -/
def polledOnce (o : Options) (job : JobRecord) (page : SourcePage) (now : String) : Option (JobRecord × Reading) := do
  let (p,r) ← (Polling.start job).read o job page now
  guard !p.goesOn
  some (p.record o.host now,r)

theorem toOption_ok {ε α : Type} {m : Except ε α} {a : α} (ok : m.toOption = some a) : m = .ok a := by
  cases m with
  | error e => cases ok
  | ok b => exact congrArg Except.ok (Option.some.inj ok)

theorem Polling.read_reads {p p' : Polling} {page : SourcePage} {now : String} {fresh : List Reading}
    (polling : Reads o job p fresh) (ok : p.read o job page now = some (p',r)) : Reads o job p' (fresh ++ [r]) := by
  unfold Polling.read at ok
  obtain ⟨_,goes,ok⟩ := Option.bind_eq_some_iff.mp ok
  obtain ⟨s,head,ok⟩ := Option.bind_eq_some_iff.mp ok
  obtain ⟨previous,stored,ok⟩ := Option.bind_eq_some_iff.mp ok
  obtain ⟨⟨state,raised⟩,collected,ok⟩ := Option.bind_eq_some_iff.mp ok
  obtain ⟨q,paged,ok⟩ := Option.bind_eq_some_iff.mp ok
  cases ok
  have going : p.goesOn = true := by
    by_contra halted
    simp [guard,halted] at goes
  exact .page polling going head stored rfl rfl rfl (toOption_ok collected) rfl (toOption_ok paged)

theorem polledOnce_life {next : JobRecord} {page : SourcePage} {now : String} (life : Life o job reads)
    (ok : polledOnce o job page now = some (next,r)) : Life o next (reads ++ [r]) := by
  unfold polledOnce at ok
  obtain ⟨⟨p,r'⟩,read,ok⟩ := Option.bind_eq_some_iff.mp ok
  obtain ⟨_,halted,ok⟩ := Option.bind_eq_some_iff.mp ok
  cases ok
  refine .polled life (Polling.read_reads .start read) ?_
  by_contra goes
  simp [guard,goes] at halted

/-- One source, one page a poll, and room for so many items. -/
def newJob (room : Nat) : JobRecord :=
  newRecord Options.plain.host "job" ⟨"task",1,"grant",1⟩ ⟨[watched],⟨[],[]⟩,"watch",⟨50,1,100,room⟩⟩ "t0"

def unavailable : SourcePage := ⟨"s",[],none,false,some true⟩

def noItems : SourcePage := ⟨"s",[],some "c1",false,none⟩

/-- The source is lost, and comes back with a page. -/
def lostAndBack (room : Nat) (page : SourcePage) : Option ((JobRecord × Reading) × Reading) := do
  let (lost,first) ← polledOnce .plain (newJob room) unavailable "t1"
  let back ← polledOnce .plain lost page "t2"
  some (back,first)

theorem lostAndBack_life {room : Nat} {page : SourcePage} {job : JobRecord} {first second : Reading}
    (ran : lostAndBack room page = some ((job,second),first)) : Life .plain job [first,second] := by
  unfold lostAndBack at ran
  obtain ⟨⟨lost,r⟩,once,ran⟩ := Option.bind_eq_some_iff.mp ran
  obtain ⟨⟨final,r'⟩,twice,ran⟩ := Option.bind_eq_some_iff.mp ran
  cases ran
  exact polledOnce_life (polledOnce_life .created once) twice

/-- The pages have the room they need, and the return of the source is told. -/
theorem alerts_delivered_back : ∃ job reads, Life .plain job reads ∧ Delivered .plain job reads ∧
    restorations Options.plain.host (Options.plain.host.key "s") none reads = [1] := by
  have ran : ((lostAndBack 1 noItems).any fun run => [run.2,run.1.2].all (fun r =>
      (r.page.changes.mapM (admitChange Options.plain.host r.job)).toOption.all fun changes =>
        decide (requiredTrackedItems r.previous changes ≤ r.job.limits.maxTrackedItems)) &&
      decide (restorations Options.plain.host (Options.plain.host.key "s") none [run.2,run.1.2] = [1])) = true := by
    decide +kernel
  cases run : lostAndBack 1 noItems with
  | none => simp [run] at ran
  | some answer =>
    obtain ⟨⟨job,second⟩,first⟩ := answer
    rw [run,Option.any_some,Bool.and_eq_true] at ran
    obtain ⟨room,told⟩ := ran
    have life := lostAndBack_life run
    refine ⟨job,[first,second],life,(alerts_delivered .plain).2 _ _ life fun r member _ _ changes admitted => ?_,
      of_decide_eq_true told⟩
    have enough := all_eq_true.mp room r member
    rw [admitted] at enough
    exact of_decide_eq_true enough

/-- A source that comes back with more than there is room for is never told to be back. -/
theorem restoration_lost : ∃ job reads, Life .plain job reads ∧ ¬Delivered .plain job reads := by
  have ran : ((lostAndBack 1 twoItems).any fun run =>
      (run.1.1.sourceStates.get (Options.plain.host.key "s")).any (fun s =>
        decide (s.bootstrapRevision = none) && decide (s.ended = 1)) &&
      decide (restorations Options.plain.host (Options.plain.host.key "s") none [run.2,run.1.2] = [])) = true := by
    decide +kernel
  cases run : lostAndBack 1 twoItems with
  | none => simp [run] at ran
  | some answer =>
    obtain ⟨⟨job,second⟩,first⟩ := answer
    rw [run,Option.any_some,Bool.and_eq_true] at ran
    obtain ⟨state,silent⟩ := ran
    refine ⟨job,[first,second],lostAndBack_life run,fun delivered => ?_⟩
    obtain ⟨s,stored,is⟩ := Option.any_eq_true _ _ |>.mp state
    simp only [Bool.and_eq_true,decide_eq_true_eq] at is
    have told := delivered.restored _ s stored
    rw [is.1,is.2,of_decide_eq_true silent] at told
    cases told

end Neurobro.Jobs
