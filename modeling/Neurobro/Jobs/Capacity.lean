import Mathlib.Data.List.Dedup
import Mathlib.Data.List.Perm.Subperm
import Neurobro.Data.Rows
import Neurobro.Jobs.History
import Neurobro.Jobs.Replay

/-! Capacity. What is tracked of a source never outgrows its bound, a page without room
leaves everything as it was, and the room that was found wanting is enough. -/
namespace Neurobro.Jobs

open Coop List

variable {o : Options} {h : Host} {job : JobRecord} {source : JobSource}

/-! ## The bound -/

def SourceState.Fits (max : Nat) (state : SourceState) : Prop := state.items.size ≤ max ∧ state.seen.size ≤ max

def JobRecord.Fits (job : JobRecord) : Prop :=
  ∀ key state, job.sourceStates.get key = some state → state.Fits job.limits.maxTrackedItems

def Loop.Fits (max : Nat) (loop : Loop) : Prop := loop.itemCount ≤ max ∧ loop.eventCount ≤ max

theorem Loop.advance_fits {loop : Loop} (fits : loop.Fits job.limits.maxTrackedItems)
    (admits : loop.admits job c = true) : (loop.advance h job source c).Fits job.limits.maxTrackedItems := by
  obtain ⟨items,events⟩ := fits
  unfold advance
  by_cases known : loop.next.tracking.known c.eventKey
  · exact ⟨by simpa [known] using items,by simpa [known] using events⟩
  · have unseen : loop.next.seen.get c.eventKey = none := by
      simpa [Tracking.known,SourceState.tracking] using known
    have room := admits
    unfold Loop.admits at room
    rw [unseen] at room
    simp only [Bool.not_or,Bool.and_eq_true,Bool.not_eq_true',Bool.and_eq_false_iff,decide_eq_false_iff_not] at room
    obtain ⟨item,event⟩ := room
    refine ⟨?_,?_⟩
    · simp only [known,if_false]
      by_cases new : (loop.next.items.get c.itemKey).isNone = true
      · simp only [new,Bool.true_eq_false,false_or] at item
        simp only [new,if_true]
        omega
      · simp only [new]
        exact items
    · simp only [known,if_false]
      omega

theorem Loop.takeAll_fits {loop loop' : Loop} (fits : loop.Fits job.limits.maxTrackedItems)
    (took : loop.takeAll h job source cs = .ok (some loop')) : loop'.Fits job.limits.maxTrackedItems := by
  induction cs generalizing loop with
  | nil =>
    cases took
    exact fits
  | cons c cs ih =>
    obtain ⟨admits,rest⟩ := (loop.takeAll_cons loop' c cs).mp took
    exact ih (advance_fits fits admits) rest

/-- What a page that has no room comes to. -/
theorem collectMonitor_capacity {page : SourcePage} {now : String} {state : SourceState}
    (collected : collectMonitor h job source page now = .ok (state,alerts)) (full : state.status = .capacity) :
    ∃ old changes, job.sourceState? h source = some old ∧ page.sourceId = source.id ∧
      page.changes.mapM (admitChange h job) = .ok changes ∧
      state = { old with status := .capacity, capacity := some { requiredTrackedItems := requiredTrackedItems old changes } } ∧
      alerts = [] := by
  obtain ⟨old,_,stored,checked,rest⟩ := collectMonitor_ok.mp collected
  have named := (checkPage_ok.mp checked).1
  split at rest
  · unfold collectLoss at rest
    split at rest
    · cases rest
    · split at rest <;> cases rest <;> cases full
  · unfold collectChanges at rest
    obtain ⟨changes,admitted,rest⟩ := bind_ok rest
    obtain ⟨result,_,rest⟩ := bind_ok rest
    cases result with
    | none =>
      cases rest
      exact ⟨old,changes,stored,named,admitted,rfl,rfl⟩
    | some loop =>
      cases rest
      exact ((loop.next.turn_room page) full).elim

theorem collectMonitor_fits {page : SourcePage} {now : String} {state : SourceState}
    (collected : collectMonitor h job source page now = .ok (state,alerts)) (fits : job.Fits) :
    state.Fits job.limits.maxTrackedItems := by
  by_cases full : state.status = .capacity
  · obtain ⟨old,_,stored,_,_,rfl,_⟩ := collectMonitor_capacity collected full
    exact fits _ old stored
  obtain ⟨old,_,stored,_,rest⟩ := collectMonitor_ok.mp collected
  have kept := fits _ old stored
  split at rest
  · unfold collectLoss at rest
    split at rest
    · cases rest
    · split at rest <;> cases rest <;> exact kept
  · obtain ⟨changes,loop,_,took,rfl,_⟩ := collectChanges_ok.mp ⟨rest,full⟩
    have counted := (Loop.takeAll_takes took).counted (Loop.start_counted old now)
    have start : (Loop.start h job source old now).Fits job.limits.maxTrackedItems := kept
    have within := Loop.takeAll_fits start took
    rw [Loop.Fits,counted.items,counted.events] at within
    exact within

theorem page_fits {p p' : Polling} {page : SourcePage} {now : String}
    (fits : p.next.Fits) (stored : p.next.sourceStates.get (h.key s.id) = some previous)
    (ok : p.page h s previous page now = .ok p') : p'.next.Fits := by
  unfold Polling.page at ok
  obtain ⟨_,ok⟩ := guard_eq_ok.mp ok
  obtain ⟨⟨state,raised⟩,collected,ok⟩ := bind_ok ok
  have collected' := collectMonitor_fits collected fits
  dsimp only at ok
  split at ok <;> cases ok
  · intro key kept there
    rw [Table.get_put] at there
    split at there
    · cases there
      exact fits _ previous stored
    · exact fits key kept there
  · intro key kept there
    rw [Table.get_put] at there
    split at there
    · cases there
      exact collected'
    · exact fits key kept there

theorem Polls.fits {p : Polling} (fits : job.Fits) (polls : Polls o job p) : p.next.Fits := by
  induction polls with
  | start => exact fits
  | page _ _ _ stored ok ih => exact page_fits ih stored ok

/-! ## The revision of a job -/

theorem carriedState_ok {revision : Nat} {limits : JobLimits} {state : SourceState}
    (ok : carriedState h job revision limits s = .ok state) : state.Fits limits.maxTrackedItems ∧
      (state.tracking = ⟨∅,∅⟩ ∨ ∃ old, job.sourceStates.get (h.key s.id) = some old ∧ state.tracking = old.tracking) := by
  unfold carriedState at ok
  extract_lets base at ok
  obtain ⟨within,ok⟩ := guard_eq_ok.mp ok
  have origin : base.tracking = ⟨∅,∅⟩ ∨ ∃ old, job.sourceStates.get (h.key s.id) = some old ∧ base.tracking = old.tracking := by
    unfold base
    cases job.sources.find? (· = s) with
    | none => exact .inl rfl
    | some found =>
      cases stored : job.sourceStates.get (h.key s.id) with
      | none => exact .inl rfl
      | some old => exact .inr ⟨old,rfl,rfl⟩
  have kept : state.tracking = base.tracking := by
    clear_value base
    split at ok <;> cases ok <;> rfl
  have items : state.items = base.items := congrArg Tracking.items kept
  have seen : state.seen = base.seen := congrArg Tracking.seen kept
  refine ⟨?_,by rwa [kept]⟩
  rw [SourceState.Fits,items,seen]
  clear_value base
  omega

theorem carriedStates_ok {revision : Nat} {limits : JobLimits}
 (ok : carriedStates h job revision limits nextSources = .ok states) :
    ∀ key state, states.get key = some state → ∃ s, h.key s.id = key ∧ carriedState h job revision limits s = .ok state := by
  refine foldlM_keeps (I := fun states => ∀ key state, states.get key = some state →
    ∃ s, h.key s.id = key ∧ carriedState h job revision limits s = .ok state) (fun s _ before after held turn => ?_) ?_ ok
  · obtain ⟨carried,kept,same⟩ := bind_ok turn
    cases same
    intro key state there
    rw [Table.get_put] at there
    split at there
    · rename_i same
      cases there
      exact ⟨s,same.symm,kept⟩
    · exact held key state there
  · intro key state there
    rw [Table.get_empty] at there
    cases there

/-- A revised job tracks of a source what it tracked before, or nothing. -/
theorem updatedRecord_tracks {next : JobRecord} {context : ToolContext}
    {now : String} (ok : updatedRecord h job context nextSources patch now = .ok next) :
    next.Fits ∧ ∀ key state, next.sourceStates.get key = some state →
      state.tracking = ⟨∅,∅⟩ ∨ ∃ old, job.sourceStates.get key = some old ∧ state.tracking = old.tracking := by
  unfold updatedRecord at ok
  obtain ⟨b,_,ok⟩ := bind_ok ok
  obtain ⟨name,_,ok⟩ := bind_ok ok
  obtain ⟨f,_,ok⟩ := bind_ok ok
  obtain ⟨limits,_,ok⟩ := bind_ok ok
  obtain ⟨states,carried,ok⟩ := bind_ok ok
  cases ok
  constructor
  · intro key state there
    obtain ⟨s,_,kept⟩ := carriedStates_ok carried key state there
    exact (carriedState_ok kept).1
  · intro key state there
    obtain ⟨s,rfl,kept⟩ := carriedStates_ok carried key state there
    exact (carriedState_ok kept).2

theorem statesOf_get {sources : List JobSource} {state : JobSource → SourceState} {key : String} {found : SourceState}
    (there : (statesOf h sources state).get key = some found) : ∃ s, found = state s := by
  unfold statesOf at there
  have inside : ∀ (xs : List JobSource) (states : Table String SourceState),
      (∀ found, states.get key = some found → ∃ s, found = state s) → ∀ found,
        (xs.foldl (fun states s => states.put (h.key s.id) (state s)) states).get key = some found → ∃ s, found = state s := by
    intro xs
    induction xs with
    | nil => exact fun _ held => held
    | cons s rest ih =>
      intro states held
      refine ih _ fun found there => ?_
      rw [Table.get_put] at there
      split at there
      · cases there
        exact ⟨s,rfl⟩
      · exact held found there
  exact inside sources ∅ (fun found no => by rw [Table.get_empty] at no; cases no) found there

theorem Computes.fits {next : JobRecord} (computed : Computes o last next)
    (before : ∀ job ∈ last, job.Fits) : next.Fits := by
  cases computed with
  | created =>
    intro key state there
    obtain ⟨s,rfl⟩ := statesOf_get there
    exact ⟨Nat.zero_le _,Nat.zero_le _⟩
  | updated _ computed => exact (updatedRecord_tracks computed).1
  | @cancelled job _ context now computed =>
    obtain ⟨b,_,same⟩ := bind_ok computed
    cases same
    exact before job rfl
  | polled polls => exact polls.fits (before _ rfl)

/-- What every computation keeps holds of every commit. -/
theorem Linear.always {P : JobRecord → Prop} (keeps : ∀ last next, Computes o last next → (∀ job ∈ last, P job) → P next)
    {key : JobKey} {c : Core (service o)} (linear : Linear key c) : ∀ record ∈ commits key c, P record := by
  obtain ⟨chain,first,_⟩ := linear
  generalize commits key c = line at chain first ⊢
  induction line with
  | nil => simp
  | cons record rest ih =>
    cases rest with
    | nil =>
      have made := (first record (by simp)).2
      exact fun r member => mem_singleton.mp member ▸ keeps none record made (by simp)
    | cons last older =>
      obtain ⟨succeeds,chain⟩ := isChain_cons_cons.mp chain
      have before := ih chain (by simpa using first)
      intro r member
      rcases mem_cons.mp member with rfl | there
      · exact keeps (some last) r succeeds.computed fun job same => Option.some.inj same ▸ before last (by simp)
      · exact before r there

/-! ## Enough room -/

theorem dedup_length_le {xs ys : List String} (within : xs ⊆ ys) : xs.dedup.length ≤ ys.dedup.length :=
  ((nodup_dedup xs).subperm fun x member => mem_dedup.mpr (within (mem_dedup.mp member))).length_le

theorem mem_keys_put {V : Type} {t : Table String V} {k k' : String} {v : V} (member : k' ∈ (t.put k v).keys) :
    k' = k ∨ k' ∈ t.keys := by
  unfold Table.put at member
  rw [AList.keys_insert] at member
  exact (mem_cons.mp member).imp_right mem_of_mem_erase

/-- The keys that are tracked, and those of changes still to come, are among these. -/
structure Loop.Among (xs ys : List String) (loop : Loop) (cs : List Change) : Prop where
  items : loop.next.items.keys ⊆ xs
  events : loop.next.seen.keys ⊆ ys
  changes : ∀ c ∈ cs, c.itemKey ∈ xs ∧ c.eventKey ∈ ys

theorem Loop.Among.advance {xs ys : List String} {loop : Loop} {c : Change} {cs : List Change}
    (among : loop.Among xs ys (c :: cs)) : (loop.advance h job source c).Among xs ys cs := by
  obtain ⟨item,event⟩ := among.changes c (by simp)
  refine ⟨?_,?_,fun d member => among.changes d (mem_cons_of_mem _ member)⟩
  · intro k member
    unfold Loop.advance Tracking.track at member
    dsimp only at member
    split at member
    · exact among.items member
    · split at member
      · exact among.items member
      · rcases mem_keys_put member with rfl | there
        · exact item
        · exact among.items there
  · intro k member
    unfold Loop.advance Tracking.track at member
    dsimp only at member
    split at member
    · exact among.events member
    · split at member <;>
      · rcases mem_keys_put member with rfl | there
        · exact event
        · exact among.events there

theorem size_room {V : Type} {t : Table String V} {k : String} {keys : List String} {max : Nat} (within : t.keys ⊆ keys)
    (member : k ∈ keys) (new : t.get k = none) (room : keys.dedup.length ≤ max) : t.size < max := by
  have fresh : k ∉ t.keys := fun there => by
    have : (t.get k).isSome := AList.lookup_isSome.mpr (AList.mem_keys.mpr there)
    simp [new] at this
  have distinct : (k :: t.keys).Nodup := nodup_cons.mpr ⟨fresh,t.nodupKeys⟩
  have subset : k :: t.keys ⊆ keys.dedup := fun x there => mem_dedup.mpr <| by
    rcases mem_cons.mp there with rfl | inside
    · exact member
    · exact within inside
  have := (distinct.subperm subset).length_le
  rw [length_cons] at this
  unfold Table.size
  omega

theorem Loop.take_full {loop : Loop} (full : loop.take h job source c = .ok none) :
    loop.next.seen.get c.eventKey = none ∧ ((loop.next.items.get c.itemKey = none ∧
      job.limits.maxTrackedItems ≤ loop.itemCount) ∨ job.limits.maxTrackedItems ≤ loop.eventCount) := by
  unfold take at full
  dsimp only at full
  cases seen : loop.next.seen.get c.eventKey with
  | some fingerprint =>
    rw [seen] at full
    dsimp only at full
    split at full <;> cases full
  | none =>
    refine ⟨rfl,?_⟩
    by_contra free
    have admits : loop.admits job c = true := by
      unfold admits
      rw [seen]
      simpa [Option.isSome_iff_ne_none,Classical.or_iff_not_imp_left] using free
    have taken := (loop.take_eq (loop.advance h job source c) c).mpr ⟨admits,rfl⟩
    unfold take at taken
    dsimp only at taken
    rw [taken] at full
    cases full

/-- With room for all its keys a page is taken or refused. -/
theorem Loop.takeAll_room {xs ys : List String} {loop : Loop} {cs : List Change}
    (among : loop.Among xs ys cs) (counted : loop.Counted)
    (room : max xs.dedup.length ys.dedup.length ≤ job.limits.maxTrackedItems) :
    loop.takeAll h job source cs ≠ .ok none := by
  induction cs generalizing loop with
  | nil => exact fun no => by cases no
  | cons c cs ih =>
    intro full
    obtain ⟨result,took,rest⟩ := bind_ok full
    cases result with
    | some next =>
      obtain ⟨_,rfl⟩ := (loop.take_eq next c).mp took
      exact ih among.advance ((loop.advance_takes c).counted counted) rest
    | none =>
      obtain ⟨unseen,crowded⟩ := take_full took
      obtain ⟨item,event⟩ := among.changes c (by simp)
      have events' := size_room among.events event unseen (by omega : ys.dedup.length ≤ job.limits.maxTrackedItems)
      rcases crowded with ⟨untracked,crowded⟩ | crowded
      · have items' := size_room among.items item untracked (by omega : xs.dedup.length ≤ job.limits.maxTrackedItems)
        rw [counted.items] at crowded
        omega
      · rw [counted.events] at crowded
        omega

/-- A page has no room only where it needs more than there is. -/
theorem collectMonitor_room {page : SourcePage} {now : String} {state old : SourceState}
    {changes : List Change} (collected : collectMonitor h job source page now = .ok (state,alerts))
    (stored : job.sourceState? h source = some old) (admitted : page.changes.mapM (admitChange h job) = .ok changes)
    (room : requiredTrackedItems old changes ≤ job.limits.maxTrackedItems) : state.status ≠ .capacity := by
  intro full
  obtain ⟨old',_,stored',_,rest⟩ := collectMonitor_ok.mp collected
  obtain rfl : old = old' := Option.some.inj (stored.symm.trans stored')
  split at rest
  · unfold collectLoss at rest
    split at rest
    · cases rest
    · split at rest <;> cases rest <;> cases full
  · unfold collectChanges at rest
    obtain ⟨changes',admitted',rest⟩ := bind_ok rest
    obtain rfl : changes = changes' := Except.ok.inj (admitted.symm.trans admitted')
    obtain ⟨result,took,rest⟩ := bind_ok rest
    cases result with
    | some loop =>
      cases rest
      exact ((loop.next.turn_room page) full).elim
    | none =>
      have among : (Loop.start h job source old now).Among (old.items.keys ++ changes.map Change.itemKey)
          (old.seen.keys ++ changes.map Change.eventKey) changes :=
        ⟨subset_append_left _ _,subset_append_left _ _,fun c member =>
          ⟨mem_append_right _ (mem_map_of_mem member),mem_append_right _ (mem_map_of_mem member)⟩⟩
      exact Loop.takeAll_room among (Loop.start_counted old now) room took

/-! ## The same page again -/

theorem string_ok {value label result : String} (ok : string value label most = .ok result) : result = value := by
  unfold string at ok
  split at ok
  · cases ok
  · cases ok
    rfl

/-- The keys of a change do not depend on the job. -/
theorem admitted_map {page : SourcePage} {changes : List Change} (admitted : page.changes.mapM (admitChange h job) = .ok changes) :
    changes.map Change.itemKey = (page.changes.map fun raw => h.key raw.itemId) ∧
      changes.map Change.eventKey = (page.changes.map fun raw => eventKey h raw.itemId raw.version) := by
  have each := forall₂_mapM (R := fun raw c => c.itemKey = h.key raw.itemId ∧ c.eventKey = eventKey h raw.itemId raw.version)
    admitted fun raw c ok => by
      unfold admitChange at ok
      obtain ⟨itemId,item,ok⟩ := bind_ok ok
      obtain ⟨version,given,ok⟩ := bind_ok ok
      obtain ⟨observedAt,_,ok⟩ := bind_ok ok
      cases ok
      rw [string_ok item,string_ok given]
      exact ⟨rfl,rfl⟩
  clear admitted
  generalize page.changes = raws at each ⊢
  induction each with
  | nil => exact ⟨rfl,rfl⟩
  | cons first _ ih => simp [first.1,first.2,ih.1,ih.2]

theorem required_le {old state : SourceState} {changes changes' : List Change}
    (tracked : state.tracking = ⟨∅,∅⟩ ∨ state.tracking = old.tracking)
    (items : changes'.map Change.itemKey = changes.map Change.itemKey)
    (events : changes'.map Change.eventKey = changes.map Change.eventKey) :
    requiredTrackedItems state changes' ≤ requiredTrackedItems old changes := by
  have among : state.items.keys ⊆ old.items.keys ∧ state.seen.keys ⊆ old.seen.keys := by
    rcases tracked with fresh | same
    · rw [show state.items = ∅ from congrArg Tracking.items fresh,show state.seen = ∅ from congrArg Tracking.seen fresh]
      exact ⟨nil_subset _,nil_subset _⟩
    · rw [show state.items = old.items from congrArg Tracking.items same,
        show state.seen = old.seen from congrArg Tracking.seen same]
      exact ⟨fun _ there => there,fun _ there => there⟩
  unfold requiredTrackedItems
  rw [items,events]
  have grows : ∀ {xs ys zs : List String}, xs ⊆ ys → (xs ++ zs).dedup.length ≤ (ys ++ zs).dedup.length :=
    fun within => dedup_length_le (append_subset.mpr
      ⟨fun _ there => mem_append_left _ (within there),subset_append_right _ _⟩)
  have first := @grows _ _ (changes.map Change.itemKey) among.1
  have second := @grows _ _ (changes.map Change.eventKey) among.2
  omega

/-- A page that had no room has it once the job was revised to what the page was found to
need, whatever else the revision changed. -/
def Recovers (h : Host) (source : JobSource) (page : SourcePage) (state : SourceState) : Prop :=
  ∃ block, state.capacity = some block ∧ ∀ (full next : JobRecord) context nextSources patch now,
    full.sourceState? h source = some state → updatedRecord h full context nextSources patch now = .ok next →
      block.requiredTrackedItems ≤ next.limits.maxTrackedItems → ∀ source' later state' alerts,
        collectMonitor h next source' page later = .ok (state',alerts) → state'.status ≠ .capacity

theorem capacity_recovers {page : SourcePage} {now : String} {state : SourceState}
    (collected : collectMonitor h job source page now = .ok (state,alerts)) (full : state.status = .capacity) :
    Recovers h source page state := by
  obtain ⟨old,changes,_,named,admitted,rfl,_⟩ := collectMonitor_capacity collected full
  refine ⟨_,rfl,fun full next context nextSources patch now stored updated enough source' later state' alerts again => ?_⟩
  obtain ⟨old',_,stored',checked,_⟩ := collectMonitor_ok.mp again
  have same : source'.id = source.id := (checkPage_ok.mp checked).1.symm.trans named
  have tracked := (updatedRecord_tracks updated).2 _ old' stored'
  intro crowded
  obtain ⟨old'',changes',stored'',_,admitted',_,_⟩ := collectMonitor_capacity again crowded
  refine collectMonitor_room again stored'' admitted' ?_ crowded
  obtain rfl : old' = old'' := Option.some.inj (stored'.symm.trans stored'')
  obtain ⟨items,events⟩ := admitted_map admitted
  obtain ⟨items',events'⟩ := admitted_map admitted'
  refine Nat.le_trans (required_le ?_ (items'.trans items.symm) (events'.trans events.symm)) enough
  refine tracked.imp_right fun ⟨before,kept,same'⟩ => ?_
  rw [same] at kept
  rw [same']
  cases Option.some.inj (kept.symm.trans stored)
  rfl

/-- Capacity loses nothing. A page without room raises no alert and leaves the items, the
versions and the cursor of its source; room for what it was found to need is enough; and
in no run of the operations does a job track more than its bound. -/
theorem capacity_lossless (o : Options) :
    (∀ job source page now state alerts, collectMonitor o.host job source page now = .ok (state,alerts) →
      state.status = .capacity → alerts = [] ∧ Recovers o.host source page state ∧
        ∃ old, job.sourceState? o.host source = some old ∧ state.items = old.items ∧ state.seen = old.seen ∧
          state.cursor = old.cursor) ∧
    ∀ w, Reachable o w → ∀ key, ∀ job ∈ commits key w.core, ∀ sourceKey state,
      job.sourceStates.get sourceKey = some state →
        state.items.size ≤ job.limits.maxTrackedItems ∧ state.seen.size ≤ job.limits.maxTrackedItems := by
  constructor
  · intro job source page now state alerts collected full
    obtain ⟨old,changes,stored,_,_,same,none⟩ := collectMonitor_capacity collected full
    refine ⟨none,capacity_recovers collected full,old,stored,?_⟩
    rw [same]
    exact ⟨rfl,rfl,rfl⟩
  · intro w reachable key
    exact (reachable.governed.inv key).always fun last next computed before => computed.fits before

def crowded : JobRecord := { watching with limits := ⟨50,4,100,1⟩ }

def twoItems : SourcePage := ⟨"s",[shown "a" "1" .message,shown "b" "1" .message],some "c1",false,none⟩

/-- Two items where one may be tracked. -/
theorem capacity_lossless_crowded : ∃ state alerts, collectMonitor Options.plain.host crowded watched twoItems "t1" =
    .ok (state,alerts) ∧ state.status = .capacity ∧ alerts = [] ∧ Recovers Options.plain.host watched twoItems state := by
  have answers : ((collectMonitor Options.plain.host crowded watched twoItems "t1").toOption.any fun answer =>
      decide (answer.1.status = .capacity)) = true := by decide +kernel
  cases collected : collectMonitor Options.plain.host crowded watched twoItems "t1" with
  | error e => simp [collected,Except.toOption] at answers
  | ok answer =>
    have full : answer.1.status = .capacity := by simpa [collected,Except.toOption] using answers
    obtain ⟨none,recovers,_⟩ := (capacity_lossless .plain).1 _ _ _ _ _ _ collected full
    exact ⟨answer.1,answer.2,rfl,full,none,recovers⟩

end Neurobro.Jobs
