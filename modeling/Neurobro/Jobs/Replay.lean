import Neurobro.Data.Results
import Neurobro.Jobs.Reducer

/-! Replay of source pages. What a source has shown is a fold over its changes that
knows nothing of pages, cursors or budgets; the reducer refines it. Repetition,
splitting and tombstones are facts about the fold. -/
namespace Neurobro.Jobs

open List

/-! ## What a stream of changes is tracked as -/

structure Tracking where
  items : Table String TrackedItem
  seen : Table String String

def SourceState.tracking (s : SourceState) : Tracking := ⟨s.items,s.seen⟩

inductive Outcome where
  | repeated
  | silent
  | alerted
  deriving DecidableEq

namespace Tracking

def known (t : Tracking) (key : String) : Prop := (t.seen.get key).isSome

def buried (t : Tracking) (key : String) : Prop := (t.items.get key).any (·.deleted)

instance (t : Tracking) (key : String) : Decidable (t.known key) := inferInstanceAs (Decidable (_ = true))

instance (t : Tracking) (key : String) : Decidable (t.buried key) := inferInstanceAs (Decidable (_ = true))

def matchedBefore (t : Tracking) (c : Change) : Bool := (t.items.get c.itemKey).any (·.matched)

def isMatch (t : Tracking) (c : Change) : Bool := if c.kind = .delete then t.matchedBefore c else c.matched

def outcome (t : Tracking) (c : Change) : Outcome :=
  if t.known c.eventKey then .repeated
  else if t.buried c.itemKey ∧ c.kind ≠ .delete then .silent
  else if t.isMatch c ∨ c.kind = .edit ∧ t.matchedBefore c then .alerted
  else .silent

def item (t : Tracking) (c : Change) : TrackedItem where
  version := c.version
  fingerprint := c.fingerprint
  matched := c.kind ≠ .delete && t.isMatch c
  deleted := c.kind = .delete

def track (t : Tracking) (c : Change) : Tracking :=
  if t.known c.eventKey then t
  else
    let seen := t.seen.put c.eventKey c.fingerprint
    if t.buried c.itemKey ∧ c.kind ≠ .delete then ⟨t.items,seen⟩
    else ⟨t.items.put c.itemKey (t.item c),seen⟩

/-- Each change with what became of it, in order. -/
def outcomes : Tracking → List Change → List (Change × Outcome)
  | _,[] => []
  | t,c :: cs => (c,t.outcome c) :: outcomes (t.track c) cs

def alerted (t : Tracking) (cs : List Change) : List Change :=
  ((t.outcomes cs).filter (·.2 = .alerted)).map Prod.fst

theorem outcomes_append (t : Tracking) (xs ys : List Change) :
    t.outcomes (xs ++ ys) = t.outcomes xs ++ (xs.foldl track t).outcomes ys := by
  induction xs generalizing t with
  | nil => rfl
  | cons c cs ih => simp only [cons_append,outcomes,ih,foldl_cons]

theorem outcomes_changes (t : Tracking) (cs : List Change) : (t.outcomes cs).map Prod.fst = cs := by
  induction cs generalizing t with
  | nil => rfl
  | cons c cs ih => simp [outcomes,ih]

theorem alerted_append (t : Tracking) (xs ys : List Change) :
    t.alerted (xs ++ ys) = t.alerted xs ++ (xs.foldl track t).alerted ys := by
  simp [alerted,outcomes_append]

theorem alerted_cons (t : Tracking) (c : Change) (cs : List Change) :
    t.alerted (c :: cs) = (if t.outcome c = .alerted then [c] else []) ++ (t.track c).alerted cs := by
  by_cases fires : t.outcome c = .alerted <;> simp [alerted,outcomes,fires]

theorem alerted_one (t : Tracking) (c : Change) :
    t.alerted [c] = if t.outcome c = .alerted then [c] else [] := by
  rw [alerted_cons]
  simp [alerted,outcomes]

/-- What tracking keeps decides the outcome of all that comes after. -/
theorem outcomes_always {P : Tracking → Prop} {Q : Change × Outcome → Prop}
    (keeps : ∀ t c, P t → P (t.track c)) (decides : ∀ t c, P t → Q (c,t.outcome c)) {t : Tracking}
    (holds : P t) (cs : List Change) : ∀ y ∈ t.outcomes cs, Q y := by
  induction cs generalizing t with
  | nil => simp [outcomes]
  | cons c cs ih =>
    intro y member
    rcases mem_cons.mp member with rfl | later
    · exact decides t c holds
    · exact ih (keeps t c holds) y later

theorem known_track {t : Tracking} (c : Change) {key : String} (known : t.known key) :
    (t.track c).known key := by
  unfold track
  split
  · exact known
  · split <;> simp only [Tracking.known,Table.get_put] at known ⊢ <;> split <;> simp [known]

theorem track_known (t : Tracking) (c : Change) : (t.track c).known c.eventKey := by
  unfold track
  split
  · assumption
  · split <;> simp [known]

theorem buried_track {t : Tracking} (c : Change) {key : String} (buried : t.buried key) :
    (t.track c).buried key := by
  unfold track
  split
  · exact buried
  · split
    · exact buried
    · rename_i open'
      by_cases same : key = c.itemKey
      · have deletes : c.kind = .delete := by
          by_contra other
          exact open' ⟨same ▸ buried,other⟩
        simp [Tracking.buried,same,item,deletes]
      · simpa [Tracking.buried,Table.get_put,same] using buried

/-- A delete that is news leaves a tombstone. -/
theorem track_buried {t : Tracking} (deletes : c.kind = .delete)
    (new : t.outcome c ≠ .repeated) : (t.track c).buried c.itemKey := by
  have unknown : ¬t.known c.eventKey := by
    intro known
    simp [outcome,known] at new
  simp [track,unknown,deletes,buried,item]

theorem outcome_known {t : Tracking} (known : t.known c.eventKey) : t.outcome c = .repeated := by
  simp [outcome,known]

theorem outcome_buried {t : Tracking} (buried : t.buried c.itemKey) (kind : c.kind ≠ .delete) : t.outcome c ≠ .alerted:= by
  unfold outcome
  split
  · simp
  · simp [buried,kind]

theorem outcomes_known {t : Tracking} {key : String} (known : t.known key) (cs : List Change) :
    ∀ y ∈ t.outcomes cs, y.1.eventKey = key → y.2 = .repeated := by
  apply outcomes_always (P := fun t => t.known key) (Q := fun y => y.1.eventKey = key → y.2 = .repeated)
  · exact fun t c known => known_track c known
  · intro t c known same
    subst same
    exact outcome_known known
  · exact known

theorem outcomes_buried {t : Tracking} {key : String} (buried : t.buried key) (cs : List Change) :
    ∀ y ∈ t.outcomes cs, y.1.itemKey = key → y.1.kind ≠ .delete → y.2 ≠ .alerted := by
  apply outcomes_always (P := fun t => t.buried key)
    (Q := fun y => y.1.itemKey = key → y.1.kind ≠ .delete → y.2 ≠ .alerted)
  · exact fun t c buried => buried_track c buried
  · intro t c buried same kind
    subst same
    exact outcome_buried buried kind
  · exact buried

/-- Only the first of equal events can raise an alert. -/
theorem outcomes_repeated (t : Tracking) (cs : List Change) :
    (t.outcomes cs).Pairwise fun x y => x.1.eventKey = y.1.eventKey → y.2 = .repeated := by
  induction cs generalizing t with
  | nil => exact .nil
  | cons c cs ih =>
    refine .cons (fun y member same => ?_) (ih _)
    exact outcomes_known (t.track_known c) cs y member same.symm

/-- After a delete that was recorded, messages and edits of its item are silent. -/
theorem outcomes_tombstone (t : Tracking) (cs : List Change) :
    (t.outcomes cs).Pairwise fun x y => x.1.kind = .delete → x.2 ≠ .repeated →
      y.1.itemKey = x.1.itemKey → y.1.kind ≠ .delete → y.2 ≠ .alerted := by
  induction cs generalizing t with
  | nil => exact .nil
  | cons c cs ih =>
    refine .cons (fun y member deletes new same kind => ?_) (ih _)
    exact outcomes_buried (track_buried deletes new) cs y member same kind

theorem known_foldl {key : String} (known : t.known key) (cs : List Change) : (cs.foldl track t).known key:= by
  induction cs generalizing t with
  | nil => exact known
  | cons c cs ih => exact ih (known_track c known)

theorem foldl_known {cs : List Change} (member : c ∈ cs) : (cs.foldl track t).known c.eventKey:= by
  induction cs generalizing t with
  | nil => cases member
  | cons d cs ih =>
    rcases mem_cons.mp member with rfl | later
    · exact known_foldl (t.track_known c) cs
    · exact ih later

theorem alerted_unknown {t : Tracking} (fires : c ∈ t.alerted cs) : ¬t.known c.eventKey:= by
  intro known
  obtain ⟨y,member,rfl⟩ := mem_map.mp fires
  obtain ⟨member,fires⟩ := mem_filter.mp member
  have repeated := outcomes_known known cs y member rfl
  simp [repeated] at fires

theorem alerted_sublist (t : Tracking) (cs : List Change) : (t.alerted cs).Sublist cs := by
  induction cs generalizing t with
  | nil => exact .slnil
  | cons c cs ih =>
    rw [alerted_cons]
    split
    · exact (ih _).cons_cons c
    · exact (ih _).cons c

end Tracking

/-! ## The reducer refines the fold -/

variable {h : Host} {job : JobRecord} {source : JobSource}

/-- The counters agree with the tables. -/
structure Loop.Counted (loop : Loop) : Prop where
  items : loop.itemCount = loop.next.items.size
  events : loop.eventCount = loop.next.seen.size

/-- What one change does to the loop, once there is room for it. -/
structure Loop.Takes (h : Host) (job : JobRecord) (source : JobSource) (loop loop' : Loop)
    (cs : List Change) : Prop where
  tracking : loop'.next.tracking = cs.foldl Tracking.track loop.next.tracking
  alerts : loop'.alerts = loop.alerts ++ (loop.next.tracking.alerted cs).map (changeAlert h job source)
  counted : loop.Counted → loop'.Counted

theorem Loop.Takes.trans {a b c : Loop} (first : a.Takes h job source b xs)
    (second : b.Takes h job source c ys) : a.Takes h job source c (xs ++ ys) where
  tracking := by rw [second.tracking,first.tracking,foldl_append]
  alerts := by
    rw [second.alerts,first.alerts,first.tracking,Tracking.alerted_append,map_append,append_assoc]
  counted := fun counted => second.counted (first.counted counted)

/-- The change is consistent with what was seen, and there is room for it. -/
def Loop.admits (job : JobRecord) (loop : Loop) (c : Change) : Bool :=
  match loop.next.seen.get c.eventKey with
  | some fingerprint => fingerprint = c.fingerprint
  | none => !(((loop.next.items.get c.itemKey).isNone && loop.itemCount ≥ job.limits.maxTrackedItems) ||
      loop.eventCount ≥ job.limits.maxTrackedItems)

def Loop.advance (h : Host) (job : JobRecord) (source : JobSource) (loop : Loop) (c : Change) : Loop where
  next := { loop.next with
    items := (loop.next.tracking.track c).items
    seen := (loop.next.tracking.track c).seen }
  itemCount := if loop.next.tracking.known c.eventKey then loop.itemCount
    else if (loop.next.items.get c.itemKey).isNone then loop.itemCount + 1 else loop.itemCount
  eventCount := if loop.next.tracking.known c.eventKey then loop.eventCount else loop.eventCount + 1
  alerts := loop.alerts ++ (loop.next.tracking.alerted [c]).map (changeAlert h job source)

theorem Loop.take_eq (loop loop' : Loop) (c : Change) :
    loop.take h job source c = .ok (some loop') ↔
      loop.admits job c = true ∧ loop' = loop.advance h job source c := by
  unfold Loop.take Loop.admits Loop.advance
  rw [Tracking.alerted_one]
  cases seen : loop.next.seen.get c.eventKey with
  | some fingerprint =>
    have known : loop.next.tracking.known c.eventKey := by simp [Tracking.known,SourceState.tracking,seen]
    have outcome := Tracking.outcome_known known
    have track : loop.next.tracking.track c = loop.next.tracking := if_pos known
    by_cases same : fingerprint = c.fingerprint
    · simp only [same,ne_eq,not_true_eq_false,if_false,known,if_true,outcome,track]
      simp only [reduceCtorEq,if_false,map_nil,append_nil,decide_true,true_and,Except.ok.injEq,
        Option.some.injEq]
      exact eq_comm
    · simp [same]
  | none =>
    have unknown : ¬loop.next.tracking.known c.eventKey := by simp [Tracking.known,SourceState.tracking,seen]
    by_cases full : ((loop.next.items.get c.itemKey).isNone && loop.itemCount ≥ job.limits.maxTrackedItems ||
        loop.eventCount ≥ job.limits.maxTrackedItems) = true
    · simp [full]
    · have admits : (!((loop.next.items.get c.itemKey).isNone && loop.itemCount ≥ job.limits.maxTrackedItems ||
          loop.eventCount ≥ job.limits.maxTrackedItems)) = true := by rw [Bool.not_eq_true] at full; rw [full]; rfl
      dsimp only
      rw [if_neg full,admits,if_neg unknown,if_neg unknown]
      by_cases tomb : loop.next.tracking.buried c.itemKey ∧ c.kind ≠ .delete
      · have track : loop.next.tracking.track c = ⟨loop.next.items,loop.next.seen.put c.eventKey c.fingerprint⟩ :=
          (if_neg unknown).trans (if_pos tomb)
        have silent : loop.next.tracking.outcome c = .silent := (if_neg unknown).trans (if_pos tomb)
        have branch : ((loop.next.items.get c.itemKey).any (·.deleted) && decide (c.kind ≠ .delete)) = true :=
          Bool.and_eq_true_iff.mpr ⟨tomb.1,decide_eq_true tomb.2⟩
        rw [if_pos branch,track,silent]
        simp only [reduceCtorEq,if_false,true_and,Except.ok.injEq,Option.some.injEq,map_nil,append_nil]
        exact eq_comm
      · have track : loop.next.tracking.track c = ⟨loop.next.items.put c.itemKey (loop.next.tracking.item c),
            loop.next.seen.put c.eventKey c.fingerprint⟩ := (if_neg unknown).trans (if_neg tomb)
        have outcome : loop.next.tracking.outcome c = _ := (if_neg unknown).trans (if_neg tomb)
        have branch : ¬((loop.next.items.get c.itemKey).any (·.deleted) && decide (c.kind ≠ .delete)) = true :=
          fun both => tomb ⟨(Bool.and_eq_true_iff.mp both).1,of_decide_eq_true (Bool.and_eq_true_iff.mp both).2⟩
        rw [if_neg branch,track,outcome]
        by_cases fires : loop.next.tracking.isMatch c ∨ c.kind = .edit ∧ loop.next.tracking.matchedBefore c
        · have branch : ((if c.kind = .delete then (loop.next.items.get c.itemKey).any (·.matched) else c.matched) ||
              decide (c.kind = .edit) && (loop.next.items.get c.itemKey).any (·.matched)) = true :=
            (Bool.or_eq_true _ _).mpr (fires.imp_right fun both => Bool.and_eq_true_iff.mpr ⟨decide_eq_true both.1,both.2⟩)
          rw [if_pos fires,if_pos rfl,if_pos branch]
          simp only [true_and,Except.ok.injEq,Option.some.injEq]
          exact eq_comm
        · have branch : ¬((if c.kind = .delete then (loop.next.items.get c.itemKey).any (·.matched) else c.matched) ||
              decide (c.kind = .edit) && (loop.next.items.get c.itemKey).any (·.matched)) = true :=
            fun either => fires (((Bool.or_eq_true _ _).mp either).imp_right fun both =>
              ⟨of_decide_eq_true (Bool.and_eq_true_iff.mp both).1,(Bool.and_eq_true_iff.mp both).2⟩)
          rw [if_neg fires,if_neg branch]
          simp only [reduceCtorEq,if_false,map_nil,append_nil,true_and,Except.ok.injEq,
            Option.some.injEq]
          exact eq_comm

theorem Tracking.track_sizes (t : Tracking) (c : Change) :
    (t.track c).seen.size = (if t.known c.eventKey then t.seen.size else t.seen.size + 1) ∧
    (t.track c).items.size = (if t.known c.eventKey then t.items.size
      else if (t.items.get c.itemKey).isNone then t.items.size + 1 else t.items.size) := by
  unfold track
  by_cases known : t.known c.eventKey
  · simp [known]
  · have new : (t.seen.get c.eventKey).isSome ≠ true := known
    have seen : (t.seen.put c.eventKey c.fingerprint).size = t.seen.size + 1 := by
      rw [Table.size_put,if_neg new]
    rw [if_neg known,if_neg known,if_neg known]
    by_cases tomb : t.buried c.itemKey ∧ c.kind ≠ .delete
    · have there : (t.items.get c.itemKey).isNone = false := by
        have deleted : (t.items.get c.itemKey).any (·.deleted) = true := tomb.1
        cases found : t.items.get c.itemKey with
        | none => simp [found] at deleted
        | some item => rfl
      rw [if_pos tomb]
      exact ⟨seen,by simp [there]⟩
    · rw [if_neg tomb]
      refine ⟨seen,?_⟩
      cases found : t.items.get c.itemKey <;> simp [Table.size_put,found]

theorem Loop.advance_takes (loop : Loop) (c : Change) :
    loop.Takes h job source (loop.advance h job source c) [c] := by
  have sizes := loop.next.tracking.track_sizes c
  refine ⟨rfl,rfl,fun counted => ⟨?_,?_⟩⟩
  · have now : loop.itemCount = loop.next.tracking.items.size := counted.items
    show (if _ then _ else _) = (loop.next.tracking.track c).items.size
    rw [sizes.2,now]
    rfl
  · have now : loop.eventCount = loop.next.tracking.seen.size := counted.events
    show (if _ then _ else _) = (loop.next.tracking.track c).seen.size
    rw [sizes.1,now]

theorem Loop.takeAll_cons (loop loop' : Loop) (c : Change) (cs : List Change) :
    loop.takeAll h job source (c :: cs) = .ok (some loop') ↔
      loop.admits job c = true ∧ (loop.advance h job source c).takeAll h job source cs = .ok (some loop') := by
  show (loop.take h job source c >>= _) = _ ↔ _
  have takes := fun next => @Loop.take_eq h job source loop next c
  constructor
  · intro took
    cases first : loop.take h job source c with
    | error e =>
      rw [first] at took
      cases took
    | ok result =>
      rw [first] at took
      cases result with
      | none => cases took
      | some next =>
        obtain ⟨admits,rfl⟩ := (takes next).mp first
        exact ⟨admits,took⟩
  · rintro ⟨admits,rest⟩
    rw [(takes _).mpr ⟨admits,rfl⟩]
    exact rest

theorem Loop.takeAll_takes {loop loop' : Loop} {cs : List Change}
    (took : loop.takeAll h job source cs = .ok (some loop')) : loop.Takes h job source loop' cs := by
  induction cs generalizing loop with
  | nil =>
    cases took
    exact ⟨rfl,by simp [Tracking.alerted,Tracking.outcomes],id⟩
  | cons c cs ih =>
    obtain ⟨_,rest⟩ := (loop.takeAll_cons loop' c cs).mp took
    exact (loop.advance_takes c).trans (ih rest)

theorem Loop.takeAll_append {loop loop' : Loop} :
    loop.takeAll h job source (xs ++ ys) = .ok (some loop') ↔
      ∃ middle, loop.takeAll h job source xs = .ok (some middle) ∧
        middle.takeAll h job source ys = .ok (some loop') := by
  induction xs generalizing loop with
  | nil => exact ⟨fun took => ⟨loop,rfl,took⟩,fun ⟨_,same,took⟩ => by cases same; exact took⟩
  | cons c cs ih =>
    rw [cons_append,takeAll_cons,ih]
    constructor
    · rintro ⟨admits,middle,first,second⟩
      exact ⟨middle,(loop.takeAll_cons middle c cs).mpr ⟨admits,first⟩,second⟩
    · rintro ⟨middle,first,second⟩
      obtain ⟨admits,first⟩ := (loop.takeAll_cons middle c cs).mp first
      exact ⟨admits,middle,first,second⟩

/-- Only what is tracked decides which changes there is room for. -/
theorem Loop.admits_same {a b : Loop} (same : a.next.tracking = b.next.tracking) (counted : a.Counted)
    (counted' : b.Counted) (c : Change) : a.admits job c = b.admits job c := by
  have items : a.next.items = b.next.items := congrArg Tracking.items same
  have seen : a.next.seen = b.next.seen := congrArg Tracking.seen same
  unfold admits
  rw [counted.items,counted.events,counted'.items,counted'.events,items,seen]

theorem Loop.takeAll_same {a b a' : Loop} (same : a.next.tracking = b.next.tracking)
    (counted : a.Counted) (counted' : b.Counted) (took : a.takeAll h job source cs = .ok (some a')) :
    ∃ b', b.takeAll h job source cs = .ok (some b') := by
  induction cs generalizing a b with
  | nil => exact ⟨b,rfl⟩
  | cons c cs ih =>
    obtain ⟨admits,rest⟩ := (a.takeAll_cons a' c cs).mp took
    have first := @Loop.advance_takes h job source a c
    have second := @Loop.advance_takes h job source b c
    have still : (a.advance h job source c).next.tracking = (b.advance h job source c).next.tracking := by
      rw [first.tracking,second.tracking,same]
    obtain ⟨b',took'⟩ := ih still (first.counted counted) (second.counted counted') rest
    exact ⟨b',(b.takeAll_cons b' c cs).mpr ⟨admits_same same counted counted' c ▸ admits,took'⟩⟩

/-! ## Pages -/

def MonitorAlert.isItem (a : MonitorAlert) : Bool :=
  match a.kind with
  | .change _ => true
  | _ => false

def JobRecord.sourceState? (h : Host) (job : JobRecord) (source : JobSource) : Option SourceState :=
  job.sourceStates.get (h.key source.id)

/-- The job after a page of the source was consumed, as a poll keeps it. -/
def JobRecord.consume (h : Host) (job : JobRecord) (source : JobSource) (state : SourceState) : JobRecord :=
  { job with sourceStates := job.sourceStates.put (h.key source.id) state }

/-- A page that is accepted and has room for all of its changes. -/
def collectPage (h : Host) (source : JobSource) (job : JobRecord) (page : SourcePage) (now : String) :
    Option (JobRecord × List MonitorAlert) :=
  match collectMonitor h job source page now with
  | .ok (state,alerts) => if state.status = .capacity then none else some (job.consume h source state,alerts)
  | .error _ => none

/-- Pages one after another, each with the time of its collection. -/
def collectPages (h : Host) (source : JobSource) : JobRecord → List (SourcePage × String) →
    Option (JobRecord × List MonitorAlert)
  | job,[] => some (job,[])
  | job,(page,now) :: rest => do
    let (middle,alerts) ← collectPage h source job page now
    let (final,more) ← collectPages h source middle rest
    some (final,alerts ++ more)

/-- What a page that is consumed leaves. -/
structure Consumes (h : Host) (job : JobRecord) (source : JobSource) (old : SourceState) (changes : List Change)
    (state : SourceState) (alerts : List MonitorAlert) : Prop where
  tracking : state.tracking = changes.foldl Tracking.track old.tracking
  alerts : (alerts.filter MonitorAlert.isItem).Perm ((old.tracking.alerted changes).map (changeAlert h job source))

theorem Consumes.trans {first second : List MonitorAlert}
    (one : Consumes h job source a xs b first) (two : Consumes h job source b ys c second) :
    Consumes h job source a (xs ++ ys) c (first ++ second) where
  tracking := by rw [two.tracking,one.tracking,foldl_append]
  alerts := by
    rw [filter_append,Tracking.alerted_append,map_append,← one.tracking]
    exact one.alerts.append two.alerts

theorem restoration_items (old : SourceState) (now : String) :
    (restoration h job source old now).filter MonitorAlert.isItem = [] := by
  unfold restoration
  split <;> rfl

theorem collectLoss_consumes {old state : SourceState} {page : SourcePage} {now : String}
 (collected : collectLoss h job source old page now = .ok (state,alerts)) :
    page.changes = [] ∧ Consumes h job source old [] state alerts := by
  unfold collectLoss at collected
  split at collected
  · cases collected
  · rename_i clear
    have empty : page.changes = [] := by
      by_contra some
      simp [some] at clear
    refine ⟨empty,?_⟩
    split at collected <;> cases collected <;> exact ⟨rfl,.refl _⟩

theorem takeAll_consumes {now : String} {changes : List Change} {loop : Loop}
    (took : Loop.takeAll h job source ⟨old,old.items.size,old.seen.size,restoration h job source old now⟩ changes =
      .ok (some loop)) (state : SourceState) (same : state.tracking = loop.next.tracking) :
    Consumes h job source old changes state (sortAlerts h loop.alerts) where
  tracking := same.trans (Loop.takeAll_takes took).tracking
  alerts := by
    refine ((sortAlerts_perm h loop.alerts).filter _).trans ?_
    have items : ((old.tracking.alerted changes).map (changeAlert h job source)).filter MonitorAlert.isItem =
        (old.tracking.alerted changes).map (changeAlert h job source) := by
      apply filter_eq_self.mpr
      intro a member
      obtain ⟨c,_,rfl⟩ := mem_map.mp member
      rfl
    rw [(Loop.takeAll_takes took).alerts,filter_append,restoration_items,nil_append,items]

theorem collectPage_ok {page : SourcePage} {now : String} :
    collectPage h source job page now = some (job',alerts) ↔
      ∃ state, collectMonitor h job source page now = .ok (state,alerts) ∧ state.status ≠ .capacity ∧
        job' = job.consume h source state := by
  unfold collectPage
  split
  · rename_i state raised ok
    rw [ok]
    constructor
    · intro collected
      split at collected
      · cases collected
      · cases collected
        exact ⟨state,rfl,‹_›,rfl⟩
    · rintro ⟨_,same,room,rfl⟩
      cases same
      exact if_neg room
  · rename_i failed
    rw [failed]
    simp

theorem collectMonitor_ok {page : SourcePage} {now : String} {state : SourceState} :
    collectMonitor h job source page now = .ok (state,alerts) ↔
      ∃ old, source ∈ job.sources ∧ job.sourceState? h source = some old ∧ checkPage job source old page = .ok () ∧
        (if page.unavailable = some true then collectLoss h job source old page now
          else collectChanges h job source old page now) = .ok (state,alerts) := by
  unfold collectMonitor JobRecord.sourceState?
  cases configured : job.sources.find? (· = source) with
  | none =>
    have missing : source ∉ job.sources := fun member => by
      have := List.find?_eq_none.mp configured source member
      simp at this
    simp [missing]
  | some found =>
    have member : source ∈ job.sources := by
      have same : found = source := by simpa using List.find?_some configured
      exact same ▸ mem_of_find?_eq_some configured
    cases known : job.sourceStates.get (h.key source.id) with
    | none => simp
    | some old =>
      constructor
      · intro ok
        obtain ⟨_,checked,rest⟩ := bind_ok ok
        exact ⟨old,member,rfl,checked,rest⟩
      · rintro ⟨_,_,same,checked,rest⟩
        cases same
        exact bind_eq_ok.mpr ⟨(),checked,rest⟩

/-- The loop as a page starts it. -/
def Loop.start (h : Host) (job : JobRecord) (source : JobSource) (old : SourceState) (now : String) : Loop :=
  ⟨old,old.items.size,old.seen.size,restoration h job source old now⟩

theorem Loop.start_counted (old : SourceState) (now : String) : (Loop.start h job source old now).Counted :=
  ⟨rfl,rfl⟩

/-- The state a page leaves once its changes are through. -/
def SourceState.turn (s : SourceState) (page : SourcePage) : SourceState :=
  { s with
    cursor := if page.cursor.isSome then page.cursor else s.cursor
    status := if page.hasMore then .catchup else .ready
    capacity := none }

theorem SourceState.turn_tracking (s : SourceState) (page : SourcePage) : (s.turn page).tracking = s.tracking := rfl

theorem SourceState.turn_room (s : SourceState) (page : SourcePage) : (s.turn page).status ≠ .capacity := by
  unfold turn
  cases page.hasMore <;> simp

theorem collectChanges_ok {old state : SourceState} {page : SourcePage} {now : String} :
    collectChanges h job source old page now = .ok (state,alerts) ∧ state.status ≠ .capacity ↔
      ∃ changes loop, page.changes.mapM (admitChange h job) = .ok changes ∧
        (Loop.start h job source old now).takeAll h job source changes = .ok (some loop) ∧
        state = loop.next.turn page ∧ alerts = sortAlerts h loop.alerts := by
  unfold collectChanges
  constructor
  · rintro ⟨collected,room⟩
    obtain ⟨changes,admitted,rest⟩ := bind_ok collected
    obtain ⟨result,took,rest⟩ := bind_ok rest
    cases result with
    | none =>
      cases rest
      exact (room rfl).elim
    | some loop =>
      cases rest
      exact ⟨changes,loop,admitted,took,rfl,rfl⟩
  · rintro ⟨changes,loop,admitted,took,rfl,rfl⟩
    exact ⟨bind_eq_ok.mpr ⟨changes,admitted,bind_eq_ok.mpr ⟨some loop,took,rfl⟩⟩,loop.next.turn_room page⟩

/-- What a page that is consumed leaves: the fold over its changes, and its alerts. -/
theorem collectPage_consumes {page : SourcePage} {now : String}
    (collected : collectPage h source job page now = some (job',alerts)) :
    ∃ old changes state, job.sourceState? h source = some old ∧
      page.changes.mapM (admitChange h job) = .ok changes ∧ job' = job.consume h source state ∧
      Consumes h job source old changes state alerts := by
  obtain ⟨state,ok,room,rfl⟩ := collectPage_ok.mp collected
  obtain ⟨old,_,known,_,rest⟩ := collectMonitor_ok.mp ok
  split at rest
  · obtain ⟨empty,consumes⟩ := collectLoss_consumes rest
    exact ⟨old,[],state,known,by rw [empty]; rfl,rfl,consumes⟩
  · obtain ⟨changes,loop,admitted,took,same,rfl⟩ := collectChanges_ok.mp ⟨rest,room⟩
    exact ⟨old,changes,state,known,admitted,rfl,takeAll_consumes took state (by rw [same,SourceState.turn_tracking])⟩

theorem consume_state (state : SourceState) : (job.consume h source state).sourceState? h source = some state :=
  Table.get_put_same _ _ _

/-- Pages leave what the fold over all their changes leaves. -/
theorem collectPages_consumes {final : JobRecord}
 (collected : collectPages h source job pages = some (final,alerts))
    (known : job.sourceState? h source = some old) :
    ∃ changes state, (pages.flatMap (·.1.changes)).mapM (admitChange h job) = .ok changes ∧
      final.sourceState? h source = some state ∧ Consumes h job source old changes state alerts ∧
      final = { job with sourceStates := final.sourceStates } := by
  induction pages generalizing job old alerts with
  | nil =>
    cases collected
    exact ⟨[],old,rfl,known,⟨rfl,.refl _⟩,rfl⟩
  | cons page rest ih =>
    obtain ⟨page,now⟩ := page
    obtain ⟨⟨middle,first⟩,collectedFirst,collected⟩ := Option.bind_eq_some_iff.mp collected
    obtain ⟨⟨last,more⟩,collectedMore,collected⟩ := Option.bind_eq_some_iff.mp collected
    cases collected
    obtain ⟨old',changes,state,known',admitted,rfl,consumes⟩ := collectPage_consumes collectedFirst
    obtain rfl : old' = old := Option.some.inj (known'.symm.trans known)
    obtain ⟨others,state',admitted',known'',consumes',same⟩ := ih collectedMore (consume_state state)
    refine ⟨changes ++ others,state',?_,known'',consumes.trans ⟨consumes'.tracking,consumes'.alerts⟩,same⟩
    rw [flatMap_cons,mapM_append]
    exact bind_eq_ok.mpr ⟨changes,admitted,bind_eq_ok.mpr ⟨others,admitted',rfl⟩⟩

/-! ## Pieces of a page -/

/-- Pages that bring the changes of a page in pieces: each but the last says there is
more, under a cursor that advances; the last ends as the page does. -/
inductive Splits (page : SourcePage) : String → Option String → List SourceChange → List (SourcePage × String) → Prop
  | last {now : String} {cursor : Option String} {changes : List SourceChange}
      (advances : page.hasMore = true → page.cursor ≠ cursor) :
      Splits page now cursor changes [({ page with changes },now)]
  | more {now later next : String} {cursor : Option String} {changes rest : List SourceChange}
      {pages : List (SourcePage × String)} (valid : string next "cursor" 4096 = .ok next)
      (advances : some next ≠ cursor) (others : Splits page later (some next) rest pages) :
      Splits page now cursor (changes ++ rest)
        (({ page with changes, cursor := some next, hasMore := true },now) :: pages)

theorem checkPage_ok {page : SourcePage} :
    checkPage job source old page = .ok () ↔
      page.sourceId = source.id ∧ page.changes.length ≤ job.limits.pageSize ∧ checkCursor page.cursor = .ok () ∧
        (page.hasMore = true → page.cursor.all (· = "") = false ∧ page.cursor ≠ old.cursor) := by
  unfold checkPage
  rw [guard_eq_ok,guard_eq_ok,bind_eq_ok]
  constructor
  · rintro ⟨named,short,_,checked,advanced⟩
    rw [guard_eq_ok] at advanced
    refine ⟨not_not.mp named,Nat.le_of_not_lt short,checked,fun more => ?_⟩
    simpa [more] using advanced.1
  · rintro ⟨named,short,checked,advanced⟩
    refine ⟨not_not.mpr named,Nat.not_lt.mpr short,(),checked,guard_eq_ok.mpr ⟨?_,rfl⟩⟩
    intro both
    obtain ⟨more,stuck⟩ := Bool.and_eq_true_iff.mp both
    obtain ⟨filled,moved⟩ := advanced more
    simp [filled,moved] at stuck

theorem checkCursor_next {next : String} (valid : string next "cursor" 4096 = .ok next) :
    checkCursor (some next) = .ok () ∧ (some next).all (· = "") = false := by
  refine ⟨congrArg (Except.map fun _ => ()) valid,?_⟩
  by_contra empty
  have same : next = "" := by simpa using empty
  subst same
  cases valid

/-- A page with room is consumed. -/
theorem collectPage_turn {page : SourcePage} {now : String} (member : source ∈ job.sources)
    (known : job.sourceState? h source = some old) (checked : checkPage job source old page = .ok ())
    (present : page.unavailable ≠ some true) {changes : List Change}
    (admitted : page.changes.mapM (admitChange h job) = .ok changes) {loop : Loop}
    (took : (Loop.start h job source old now).takeAll h job source changes = .ok (some loop)) :
    collectPage h source job page now =
      some (job.consume h source (loop.next.turn page),sortAlerts h loop.alerts) := by
  apply collectPage_ok.mpr
  have collected := collectChanges_ok.mpr ⟨changes,loop,admitted,took,rfl,rfl⟩
  refine ⟨loop.next.turn page,collectMonitor_ok.mpr ⟨old,member,known,checked,?_⟩,collected.2,rfl⟩
  rw [if_neg present]
  exact collected.1

theorem takeAll_consume (state : SourceState) (loop : Loop) (cs : List Change) :
    loop.takeAll h (job.consume h source state) source cs = loop.takeAll h job source cs := by
  induction cs generalizing loop with
  | nil => rfl
  | cons c cs ih =>
    show (loop.take h job source c >>= _) = (loop.take h job source c >>= _)
    congr 1
    funext next
    cases next with
    | none => rfl
    | some next => exact ih next

theorem split_collects {page : SourcePage} {now : String} {cursor : Option String}
    {pieces : List (SourcePage × String)} (splits : Splits page now cursor raw pieces)
    (named : page.sourceId = source.id) (present : page.unavailable ≠ some true)
    (checked : checkCursor page.cursor = .ok ()) (more : page.hasMore = true → page.cursor.all (· = "") = false)
    (member : source ∈ job.sources) {old : SourceState} (known : job.sourceState? h source = some old)
    (at' : old.cursor = cursor) (short : raw.length ≤ job.limits.pageSize) {changes : List Change}
    (admitted : raw.mapM (admitChange h job) = .ok changes) {loop : Loop}
    (took : (Loop.start h job source old now).takeAll h job source changes = .ok (some loop)) :
    ∃ final alerts state, collectPages h source job pieces = some (final,alerts) ∧
      final.sourceState? h source = some state ∧ state.tracking = loop.next.tracking ∧ alerts.Perm loop.alerts := by
  induction splits generalizing job old changes loop with
  | @last now cursor raw advances =>
    let piece : SourcePage := { page with changes := raw }
    have passes : checkPage job source old piece = .ok () :=
      checkPage_ok.mpr ⟨named,short,checked,fun yes => ⟨more yes,at' ▸ advances yes⟩⟩
    have collected : collectPage h source job piece now = _ :=
      collectPage_turn member known passes present admitted took
    refine ⟨job.consume h source (loop.next.turn piece),sortAlerts h loop.alerts,loop.next.turn piece,?_,
      consume_state _,rfl,sortAlerts_perm h loop.alerts⟩
    simp [collectPages,collected,piece]
  | @more now later next cursor raw rest pages valid advances others ih =>
    rw [mapM_append] at admitted
    obtain ⟨xs,first,admitted⟩ := bind_ok admitted
    obtain ⟨ys,second,same⟩ := bind_ok admitted
    cases same
    obtain ⟨middle,tookFirst,tookRest⟩ := Loop.takeAll_append.mp took
    obtain ⟨cursorOk,filled⟩ := checkCursor_next valid
    rw [length_append] at short
    let piece : SourcePage := { page with changes := raw, cursor := some next, hasMore := true }
    have fits : raw.length ≤ job.limits.pageSize := by omega
    have passes : checkPage job source old piece = .ok () :=
      checkPage_ok.mpr ⟨named,fits,cursorOk,fun _ => ⟨filled,at' ▸ advances⟩⟩
    have collected : collectPage h source job piece now = _ :=
      collectPage_turn member known passes present first tookFirst
    let state := middle.next.turn piece
    have counted : middle.Counted := (Loop.takeAll_takes tookFirst).counted (Loop.start_counted old now)
    -- the next piece starts where this one stopped, with nothing to restore
    have continues : middle.next.tracking = (Loop.start h job source state later).next.tracking := rfl
    obtain ⟨loop',tookLater⟩ :=
      Loop.takeAll_same continues counted (Loop.start_counted state later) tookRest
    have tookNext : (Loop.start h (job.consume h source state) source state later).takeAll h
        (job.consume h source state) source ys = .ok (some loop') := (takeAll_consume state _ ys).trans tookLater
    have remaining : rest.length ≤ job.limits.pageSize := by omega
    obtain ⟨final,alerts,last,rest',known',tracking,perm⟩ := @ih (job.consume h source state) member state
      (consume_state state) rfl remaining ys second loop' tookNext
    have whole := Loop.takeAll_takes tookRest
    have part := Loop.takeAll_takes tookLater
    refine ⟨final,sortAlerts h middle.alerts ++ alerts,last,?_,known',?_,?_⟩
    · simp [collectPages,collected,rest',piece,state]
    · rw [tracking,part.tracking,whole.tracking]
      rfl
    · have raised : loop'.alerts = (middle.next.tracking.alerted ys).map (changeAlert h job source) := part.alerts
      rw [whole.alerts,← raised]
      exact (sortAlerts_perm h middle.alerts).append perm

/-! ## The law -/

theorem admitChange_ok (admitted : admitChange h job raw = .ok c) :
    c.itemKey = h.key c.itemId ∧ c.eventKey = eventKey h c.itemId c.version := by
  unfold admitChange at admitted
  obtain ⟨itemId,_,admitted⟩ := bind_ok admitted
  obtain ⟨version,_,admitted⟩ := bind_ok admitted
  obtain ⟨observedAt,_,admitted⟩ := bind_ok admitted
  cases admitted
  exact ⟨rfl,rfl⟩

theorem admitted_keys {raw : List SourceChange} {changes : List Change}
    (admitted : raw.mapM (admitChange h job) = .ok changes) :
    ∀ c ∈ changes, c.itemKey = h.key c.itemId ∧ c.eventKey = eventKey h c.itemId c.version ∧
      ∃ r ∈ raw, admitChange h job r = .ok c := by
  induction raw generalizing changes with
  | nil =>
    cases admitted
    simp
  | cons r rest ih =>
    rw [mapM_cons] at admitted
    obtain ⟨first,one,admitted⟩ := bind_ok admitted
    obtain ⟨others,more,admitted⟩ := bind_ok admitted
    cases admitted
    intro c member
    rcases mem_cons.mp member with rfl | later
    · obtain ⟨item,event⟩ := admitChange_ok one
      exact ⟨item,event,r,by simp,one⟩
    · obtain ⟨item,event,r',known,same⟩ := ih more c later
      exact ⟨item,event,r',by simp [known],same⟩

theorem Tracking.alerted_events (t : Tracking) (cs : List Change) :
    (t.alerted cs).Pairwise fun x y => x.eventKey ≠ y.eventKey := by
  unfold alerted
  rw [pairwise_map,pairwise_filter]
  apply (t.outcomes_repeated cs).imp
  intro x y repeated _ fires same
  simp [repeated same] at fires

/-- A page without room raises nothing. -/
theorem collectMonitor_full {page : SourcePage} {now : String} {state : SourceState}
    (collected : collectMonitor h job source page now = .ok (state,alerts)) (full : state.status = .capacity) :
    alerts = [] := by
  obtain ⟨old,_,_,_,rest⟩ := collectMonitor_ok.mp collected
  split at rest
  · unfold collectLoss at rest
    split at rest
    · cases rest
    · split at rest <;> cases rest <;> cases full
  · unfold collectChanges at rest
    obtain ⟨changes,_,rest⟩ := bind_ok rest
    obtain ⟨result,_,rest⟩ := bind_ok rest
    cases result with
    | none =>
      cases rest
      rfl
    | some loop =>
      cases rest
      exact ((loop.next.turn_room page) full).elim

/-- The item alerts are those of these changes. -/
def AlertsOf (h : Host) (job : JobRecord) (source : JobSource) (alerts : List MonitorAlert) (cs : List Change) : Prop :=
  (alerts.filter MonitorAlert.isItem).Perm (cs.map (changeAlert h job source))

/-- Source pages are applied once. The item alerts of any sequence of pages are those of
the changes that the fold over all of them alerts: no two of one item and version, and
none of an item, other than a delete, after a delete of it was recorded. What is collected
afterwards alerts only what was never delivered, and a page brought in pieces leaves
what the whole page leaves. -/
theorem replay_law (h : Host) (job : JobRecord) (source : JobSource) (old : SourceState)
    (pages : List (SourcePage × String)) (final : JobRecord) (alerts : List MonitorAlert)
    (known : job.sourceState? h source = some old)
    (collected : collectPages h source job pages = some (final,alerts)) :
    ∃ changes, (pages.flatMap (·.1.changes)).mapM (admitChange h job) = .ok changes ∧
      AlertsOf h job source alerts (old.tracking.alerted changes) ∧
      ((old.tracking.alerted changes).map fun c => (c.itemId,c.version)).Nodup ∧
      (old.tracking.outcomes changes).Pairwise (fun x y => x.1.kind = .delete → x.2 ≠ .repeated →
        y.1.itemId = x.1.itemId → y.1.kind ≠ .delete → y.2 ≠ .alerted) ∧
      ∀ page now state again, collectMonitor h final source page now = .ok (state,again) →
        (∃ news, AlertsOf h job source again news ∧
          ∀ c ∈ news, (∃ raw ∈ page.changes, admitChange h job raw = .ok c) ∧
            ∀ d ∈ changes, (d.itemId,d.version) ≠ (c.itemId,c.version)) ∧
        (state.status ≠ .capacity → page.unavailable ≠ some true → ∀ last pieces,
          final.sourceState? h source = some last → Splits page now last.cursor page.changes pieces →
          ∃ final' alerts' state', collectPages h source final pieces = some (final',alerts') ∧
            final'.sourceState? h source = some state' ∧ state'.items = state.items ∧ state'.seen = state.seen ∧
            alerts'.Perm again) := by
  obtain ⟨changes,last,admitted,known',consumes,same⟩ := collectPages_consumes collected known
  have keys := admitted_keys admitted
  refine ⟨changes,admitted,consumes.alerts,?_,?_,fun page now state again ok => ⟨?_,?_⟩⟩
  · have delivered := (old.tracking.alerted_sublist changes).subset
    unfold List.Nodup
    rw [pairwise_map]
    apply (old.tracking.alerted_events changes).imp_of_mem
    intro x y mx my apart equal
    obtain ⟨item,version⟩ := Prod.mk.inj equal
    apply apart
    rw [(keys x (delivered mx)).2.1,(keys y (delivered my)).2.1,item,version]
  · have delivered : ∀ x ∈ old.tracking.outcomes changes, x.1 ∈ changes := fun x member =>
      old.tracking.outcomes_changes changes ▸ mem_map_of_mem member
    apply (old.tracking.outcomes_tombstone changes).imp_of_mem
    intro x y mx my silent deletes new item
    apply silent deletes new
    rw [(keys x.1 (delivered x mx)).1,(keys y.1 (delivered y my)).1,item]
  · by_cases full : state.status = .capacity
    · exact ⟨[],by rw [AlertsOf,collectMonitor_full ok full]; exact .refl _,by simp⟩
    · obtain ⟨last',others,state',held,admitted',_,consumes'⟩ :=
        collectPage_consumes (collectPage_ok.mpr ⟨state,ok,full,rfl⟩)
      obtain rfl : last' = last := Option.some.inj (held.symm.trans known')
      rw [same] at admitted' consumes'
      refine ⟨last'.tracking.alerted others,consumes'.alerts,fun c fires => ?_⟩
      have member := (last'.tracking.alerted_sublist others).subset fires
      obtain ⟨_,event,raw,brought,admits⟩ := admitted_keys admitted' c member
      refine ⟨⟨raw,brought,admits⟩,fun d delivered equal => Tracking.alerted_unknown fires ?_⟩
      obtain ⟨item,version⟩ := Prod.mk.inj equal
      rw [event,← item,← version,← (keys d delivered).2.1,consumes.tracking]
      exact Tracking.foldl_known delivered
  · intro room present last' pieces held splits
    obtain rfl : last' = last := Option.some.inj (held.symm.trans known')
    obtain ⟨first,member,stored,checked,rest⟩ := collectMonitor_ok.mp ok
    obtain rfl : first = last' := Option.some.inj (stored.symm.trans held)
    rw [if_neg present] at rest
    obtain ⟨others,loop,admitted',took,rfl,rfl⟩ := collectChanges_ok.mp ⟨rest,room⟩
    obtain ⟨named,short,cursorOk,more⟩ := checkPage_ok.mp checked
    obtain ⟨final',alerts',state',pieces',known',tracking,perm⟩ := split_collects splits named present cursorOk
      (fun yes => (more yes).1) member held rfl short admitted' took
    exact ⟨final',alerts',state',pieces',known',congrArg Tracking.items tracking,congrArg Tracking.seen tracking,
      perm.trans (sortAlerts_perm h loop.alerts).symm⟩

def watched : JobSource := ⟨"s",.web,"https://example.org"⟩

def watching : JobRecord where
  id := "job"
  binding := ⟨"task",1,"grant",1⟩
  name := "watch"
  sources := [watched]
  filter := ⟨[],[]⟩
  revision := 1
  version := 1
  state := .active
  createdAt := "t0"
  updatedAt := "t0"
  limits := ⟨50,4,100,4096⟩
  sourceStates := (∅ : Table String SourceState).put (Host.plain.key "s") {}
  nextSourceIndex := 0
  alertLog := []

def shown (itemId version : String) (kind : ChangeKind) : SourceChange := ⟨itemId,kind,version,"t1",none,none⟩

/-- Two pages with an edit and a delete, the second overlapping the first. -/
def overlapping : List (SourcePage × String) :=
  [(⟨"s",[shown "a" "1" .message,shown "b" "1" .message],some "c1",true,none⟩,"t1"),
    (⟨"s",[shown "b" "1" .message,shown "a" "2" .edit,shown "a" "3" .delete],some "c2",false,none⟩,"t2")]

theorem replay_law_overlapping : ∃ final alerts changes, collectPages Host.plain watched watching overlapping =
    some (final,alerts) ∧ AlertsOf Host.plain watching watched alerts
      ((SourceState.tracking {}).alerted changes) := by
  have collects : (collectPages Host.plain watched watching overlapping).isSome := by decide +kernel
  obtain ⟨⟨final,alerts⟩,collected⟩ := Option.isSome_iff_exists.mp collects
  obtain ⟨changes,_,raised,_⟩ := replay_law Host.plain watching watched {} overlapping final alerts rfl collected
  exact ⟨final,alerts,changes,collected,raised⟩

end Neurobro.Jobs
