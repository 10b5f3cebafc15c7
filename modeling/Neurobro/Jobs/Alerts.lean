import Neurobro.Jobs.Capacity

/-! What a poll makes of its pages. It returns what the pages it consumed raised, and never
more than the job admits; a page that raises too much is left for a later poll, but for
the restoration of its source. -/
namespace Neurobro.Jobs

open List

variable {o : Options} {h : Host} {job : JobRecord} {source : JobSource}

/-! ## One page -/

/-- What a page can come to. -/
inductive Collects (h : Host) (job : JobRecord) (source : JobSource) (old : SourceState) (page : SourcePage) (now : String) :
    SourceState → List MonitorAlert → Prop
  | stillLost : page.unavailable = some true → old.status = .lost →
      Collects h job source old page now { old with status := .lost, capacity := none } []
  | lost : page.unavailable = some true → old.status ≠ .lost →
      Collects h job source old page now
        { old with status := .lost, lossEpisode := old.lossEpisode + 1, capacity := none }
        [statusAlert h job source .sourceLost (old.lossEpisode + 1) now "Source unavailable"]
  | full {changes : List Change} : page.unavailable ≠ some true → page.changes.mapM (admitChange h job) = .ok changes →
      job.limits.maxTrackedItems < requiredTrackedItems old changes →
      Collects h job source old page now
        { old with status := .capacity, capacity := some { requiredTrackedItems := requiredTrackedItems old changes } } []
  | consumed {changes : List Change} {state : SourceState} : page.unavailable ≠ some true →
      page.changes.mapM (admitChange h job) = .ok changes → state.lossEpisode = old.lossEpisode →
      state.bootstrapRevision = old.bootstrapRevision → state.status ≠ .lost →
      Collects h job source old page now state (sortAlerts h
        (restoration h job source old now ++ (old.tracking.alerted changes).map (changeAlert h job source)))

theorem Loop.takeAll_rest {loop loop' : Loop} (took : loop.takeAll h job source cs = .ok (some loop')) :
    loop'.next = { loop.next with items := loop'.next.items, seen := loop'.next.seen } := by
  induction cs generalizing loop with
  | nil =>
    cases took
    rfl
  | cons c cs ih =>
    obtain ⟨_,rest⟩ := (loop.takeAll_cons loop' c cs).mp took
    rw [ih rest]
    rfl

theorem collectMonitor_collects {page : SourcePage} {now : String} {old state : SourceState}
    (stored : job.sourceState? h source = some old) (collected : collectMonitor h job source page now = .ok (state,alerts)) :
    Collects h job source old page now state alerts := by
  obtain ⟨old',_,stored',_,rest⟩ := collectMonitor_ok.mp collected
  obtain rfl : old = old' := Option.some.inj (stored.symm.trans stored')
  by_cases gone : page.unavailable = some true
  · rw [if_pos gone] at rest
    unfold collectLoss at rest
    obtain ⟨_,rest⟩ := guard_eq_ok.mp rest
    split at rest
    · cases rest
      exact .stillLost gone ‹_›
    · cases rest
      exact .lost gone ‹_›
  · rw [if_neg gone] at rest
    by_cases crowded : state.status = .capacity
    · obtain ⟨old',changes,stored'',_,admitted,rfl,rfl⟩ := collectMonitor_capacity collected crowded
      obtain rfl : old = old' := Option.some.inj (stored.symm.trans stored'')
      refine .full gone admitted (Nat.lt_of_not_le fun room => ?_)
      exact collectMonitor_room collected stored admitted room crowded
    · obtain ⟨changes,loop,admitted,took,rfl,rfl⟩ := collectChanges_ok.mp ⟨rest,crowded⟩
      have kept := Loop.takeAll_rest took
      have raised := (Loop.takeAll_takes took).alerts
      rw [raised]
      refine .consumed gone admitted ?_ ?_ ?_
      · exact (congrArg SourceState.lossEpisode kept).trans rfl
      · exact (congrArg SourceState.bootstrapRevision kept).trans rfl
      · unfold SourceState.turn
        cases page.hasMore <;> simp

/-- A page raises at most one alert a change, and one for its source. -/
theorem Collects.raised_le {page : SourcePage} {now : String} {old state : SourceState}
    (collects : Collects h job source old page now state alerts) :
    alerts.length ≤ 1 ∨ page.unavailable ≠ some true ∧
      alerts.length ≤ page.changes.length + if old.status = .lost then 1 else 0 := by
  cases collects with
  | stillLost | full => exact .inl (Nat.zero_le _)
  | lost => exact .inl (Nat.le_refl _)
  | @consumed changes _ present admitted =>
    refine .inr ⟨present,?_⟩
    have count : page.changes.length = changes.length :=
      (forall₂_mapM (R := fun _ _ => True) admitted fun _ _ _ => trivial).length_eq
    have fewer := (old.tracking.alerted_sublist changes).length_le
    rw [(sortAlerts_perm h _).length_eq,length_append,length_map,count]
    unfold restoration
    split
    · simp only [length_singleton]
      omega
    · simp only [length_nil]
      omega

/-! ## What a poll keeps of a page -/

def MonitorAlert.restores (a : MonitorAlert) : Bool := a.kind = .sourceRestored

/-- The alerts a page adds to those of the poll. -/
def Reading.kept (r : Reading) : List MonitorAlert :=
  if r.fits then r.raised else (r.raised.find? MonitorAlert.restores).toList

/-- The state a page leaves its source in. -/
def Reading.settled (r : Reading) : SourceState := if r.fits then r.state else { r.previous with status := .catchup }

def Reading.slot (h : Host) (r : Reading) : String := h.key r.source.id

/-- What is known of every page that a poll reads. -/
structure Reading.Sound (h : Host) (r : Reading) : Prop where
  stored : r.job.sourceStates.get (r.slot h) = some r.previous
  collected : collectMonitor h r.job r.source r.page r.now = .ok (r.state,r.raised)
  late : r.fits = false → r.previous.status = .lost ∧ r.page.unavailable ≠ some true

/-- One page: what it adds, where it leaves its source, and whether the poll goes on. -/
structure Settles (h : Host) (p p' : Polling) (r : Reading) : Prop where
  alerts : p'.alerts = p.alerts ++ r.kept
  bound : p'.alerts.length ≤ p.next.limits.maxAlerts
  job : p'.next = { p.turned r.source with sourceStates := p.next.sourceStates.put (r.slot h) r.settled }
  stopped : p'.stopped = !r.fits
  sound : r.Sound h

theorem find_length (alerts : List MonitorAlert) : (alerts.find? MonitorAlert.restores).toList.length ≤ 1 := by
  cases alerts.find? MonitorAlert.restores <;> simp

theorem page_settles (goes : p.goesOn = true)
    (stored : p.next.sourceStates.get (h.key r.source.id) = some r.previous) (within : r.limit = p.limit r.previous)
    (turned : r.job = p.turned r.source) (collected : collectMonitor h r.job r.source r.page r.now = .ok (r.state,r.raised))
    (fits : r.fits = decide (p.alerts.length + r.raised.length ≤ p.next.limits.maxAlerts))
    (ok : p.page h r.source r.previous r.page r.now = .ok p') : Settles h p p' r := by
  have going := goes
  simp only [Polling.goesOn,Bool.and_eq_true,Bool.not_eq_true',decide_eq_true_eq] at going
  obtain ⟨⟨⟨open_,_⟩,_⟩,room⟩ := going
  have stored' : r.job.sourceStates.get (r.slot h) = some r.previous := turned ▸ stored
  unfold Polling.page at ok
  obtain ⟨short,ok⟩ := guard_eq_ok.mp ok
  obtain ⟨⟨state,raised⟩,collected',ok⟩ := bind_ok ok
  have same : (state,raised) = (r.state,r.raised) := by
    rw [turned] at collected
    exact Except.ok.inj (collected'.symm.trans collected)
  obtain ⟨rfl,rfl⟩ := Prod.mk.inj same
  dsimp only at ok
  by_cases many : p.next.limits.maxAlerts < p.alerts.length + r.raised.length
  · have late : r.fits = false := by
      rw [fits]
      exact decide_eq_false (by omega)
    rw [if_pos many] at ok
    have some : p.remaining ≥ 1 := by
      unfold Polling.remaining
      omega
    have kept : r.kept = (r.raised.find? MonitorAlert.restores).toList := by
      unfold Reading.kept
      rw [late]
      rfl
    have settled : r.settled = { r.previous with status := .catchup } := by
      unfold Reading.settled
      rw [late]
      rfl
    cases ok
    have restored : (if p.remaining ≥ 1 then (r.raised.find? MonitorAlert.restores).toList else []) = r.kept := by
      rw [if_pos some,kept]
    refine ⟨congrArg (p.alerts ++ ·) restored,?_,by rw [settled]; rfl,by rw [late]; rfl,stored',collected,fun _ => ?_⟩
    · show (p.alerts ++ if p.remaining ≥ 1 then (r.raised.find? MonitorAlert.restores).toList else []).length ≤ _
      have one := find_length r.raised
      rw [restored,kept,length_append]
      omega
    · -- the page was asked for no more than there was room for, so it was the restoration that made it too much
      rcases (collectMonitor_collects stored' collected).raised_le with few | ⟨present,few⟩
      · omega
      · refine ⟨?_,present⟩
        by_contra available
        rw [if_neg available] at few
        unfold Polling.limit Polling.remaining at short
        rw [if_neg available] at short
        omega
  · have early : r.fits = true := by
      rw [fits]
      exact decide_eq_true (by omega)
    rw [if_neg many] at ok
    cases ok
    have kept : r.kept = r.raised := by
      unfold Reading.kept
      rw [early]
      rfl
    have settled : r.settled = r.state := by
      unfold Reading.settled
      rw [early]
      rfl
    refine ⟨by rw [kept],?_,by rw [settled]; rfl,by rw [early]; exact open_,stored',collected,fun late => ?_⟩
    · rw [length_append]
      omega
    · rw [early] at late
      cases late

/-! ## A poll -/

/-- What a poll made of all it read. -/
structure Kept (h : Host) (job : JobRecord) (p : Polling) (reads : List Reading) : Prop where
  alerts : p.alerts = reads.flatMap Reading.kept
  bound : p.alerts.length ≤ job.limits.maxAlerts
  limits : p.next.limits = job.limits
  states : p.next.sourceStates = reads.foldl (fun states r => states.put (r.slot h) r.settled) job.sourceStates
  open_ : p.stopped = false → ∀ r ∈ reads, r.fits = true
  last : ∀ r ∈ reads, r.fits = false → p.next.sourceStates.get (r.slot h) = some r.settled

theorem Reads.kept {p : Polling} {reads : List Reading} (polling : Reads o job p reads) : Kept o.host job p reads := by
  induction polling with
  | start => exact ⟨rfl,Nat.zero_le _,rfl,rfl,by simp,by simp⟩
  | @page p p' reads r _ goes _ stored within _ turned collected fits ok ih =>
    have settles := page_settles goes stored within turned collected fits ok
    have open_ : p.stopped = false := by
      simp only [Polling.goesOn,Bool.and_eq_true,Bool.not_eq_true'] at goes
      exact goes.1.1.1
    have states : p'.next.sourceStates = p.next.sourceStates.put (r.slot o.host) r.settled :=
      congrArg JobRecord.sourceStates settles.job
    refine ⟨?_,?_,?_,?_,fun still r' member => ?_,fun r' member late => ?_⟩
    · rw [settles.alerts,ih.alerts,flatMap_append]
      simp
    · rw [← ih.limits]
      exact settles.bound
    · exact (congrArg JobRecord.limits settles.job).trans ih.limits
    · rw [states,ih.states,foldl_append]
      rfl
    · rcases mem_append.mp member with old | new
      · exact ih.open_ open_ r' old
      · cases mem_singleton.mp new
        rw [settles.stopped] at still
        simpa using still
    · rcases mem_append.mp member with old | new
      · exact absurd (ih.open_ open_ r' old) (by simp [late])
      · cases mem_singleton.mp new
        rw [states,Table.get_put_same]

end Neurobro.Jobs
