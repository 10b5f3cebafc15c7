import Neurobro.History.Store

/-! Opening a task store anew gives what its handle has. -/
namespace Neurobro.History

open Durable Script Journal Ledger

section Calls
variable {h : Digests} {i : Intent} {expected : Checkpoint} {result : TaskPage} {s₀ s : TaskDesk} {hd : Handle Progress}

theorem reopened_eq (header : s.header = some (.whole i)) :
    reopened h i s = some (found (decode h i) maximumPages (.begin h i) s) := by
  unfold reopened openStore
  rw [reopen_clean i s header]

theorem activated_present (present : s₀.handle = some hd) : (activated s₀).handle = some { hd with active := true } := by
  unfold activated mapHandle
  rw [present]
  rfl

theorem activated_reached (reached : TaskReached h i s₀) : TaskReached h i (activated s₀) := by
  obtain ⟨records,torn,fits⟩ := reached.fits
  refine ⟨⟨records,torn,fits.sound,fun hd there idle => ?_⟩,fun there => ?_,reached.fresh⟩
  · obtain ⟨hd',_,rfl⟩ := Option.map_eq_some_iff.mp there
    cases idle
  · apply reached.opened
    unfold activated mapHandle at there
    rw [Option.isSome_map] at there
    exact there

section Ends
variable {records : List Envelope} {torn : Bool} {s' : TaskDesk} (reached : TaskReached h i s₀) (idle : Idle s₀)
  (present : s₀.handle = some hd) (fits : Fits (decode h i) (.begin h i) maximumPages records torn s₀)

include fits present idle in
theorem ready_records (ready : hd.tail = false) :
    torn = false ∧ replay (decode h i) (.begin h i) records = some hd.state ∧ hd.count = records.length :=
  live_ready (fits.live hd present (idle hd present)) ready

include reached idle present fits in
theorem appended_reached (ended : Appended h i expected result hd records (activated s₀) s') : TaskReached h i (settled s') := by
  obtain ⟨timely,committed⟩ := ended
  obtain ⟨_,taken,counted⟩ := ready_records idle present fits timely.ready
  exact committed_reached (activated_reached reached) (activated_present present) taken counted
    (decode_envelope timely.valid timely.follows) committed

include reached idle present fits in
theorem failed_reached (ended : Failed h i expected result hd records (activated s₀) s') : TaskReached h i (settled s') := by
  obtain rfl | ⟨timely,spent⟩ := ended
  · rw [settled_activated present (idle hd present)]
    exact reached
  · obtain ⟨_,taken,counted⟩ := ready_records idle present fits timely.ready
    exact spent_reached (activated_reached reached) (activated_present present) taken counted spent

include reached present in
theorem gone_reached (ended : Gone h i expected result hd records (activated s₀) s) : TaskReached h i s := by
  obtain rfl | ⟨_,died⟩ := ended
  · exact activated_reached reached
  · exact died_reached (activated_reached reached) (activated_present present) rfl died

end Ends

/-- What holds between any two calls. -/
def Kept (h : Digests) (i : Intent) (s : TaskDesk) : Prop := TaskReached h i s ∧ Idle s

theorem append_keeps (kept : Kept h i s₀) :
    Runs (fun s => s = s₀) (appendPage h i expected result) (fun _ => Kept h i) (Kept h i) (TaskReached h i) := by
  obtain ⟨reached,idle⟩ := kept
  obtain ⟨records,torn,fits⟩ := reached.fits
  cases present : s₀.handle with
  | none =>
    refine (appendPage_refused fun hd there => ?_).weaken (fun _ is_ => is_) (fun _ _ no => absurd no id)
      (fun s is_ => is_ ▸ ⟨reached,idle⟩) fun _ no => absurd no id
    rw [present] at there
    cases there
  | some hd =>
    apply (appendPage_runs fits present (idle hd present)).weaken
    · exact fun _ is_ => is_
    · rintro _ s ⟨s',ended,rfl⟩
      exact ⟨appended_reached reached idle present fits ended,settle_idle s'⟩
    · rintro s ⟨s',ended,rfl⟩
      exact ⟨failed_reached reached idle present fits ended,settle_idle s'⟩
    · exact fun s ended => gone_reached reached present ended

theorem call_keeps (call : StoreCall) (kept : Kept h i s₀) :
    Runs (fun s => s = s₀) (call.perform h i) (fun _ => Kept h i) (Kept h i) (TaskReached h i) := by
  obtain ⟨reached,idle⟩ := kept
  cases call with
  | create =>
    exact ((create_meets reached).both (create_idle i)).runs.weaken (fun s is_ => ⟨is_,is_ ▸ idle⟩) (fun _ _ held => held)
      (fun _ held => held) fun _ held => held.1
  | open_ =>
    exact ((reopen_meets reached).both (reopen_idle i)).runs.weaken (fun s is_ => ⟨is_,is_ ▸ idle⟩) (fun _ _ held => held)
      (fun _ held => held) fun _ held => held.1
  | append expected result => exact append_keeps ⟨reached,idle⟩

theorem storeRun_kept (events : List (StoreCall × List Fate)) : Kept h i (storeRun h i events) :=
  play_runs (fun call _ kept => call_keeps call kept) (fun s reached => ⟨fell_reached reached,fell_idle s⟩) events
    ⟨empty_reached,fun _ no => by cases no⟩

/-- The pages of a handle are the first files of its directory, one after another, each
chained to the one before it and the first to the intent. -/
def OnDisk (h : Digests) (i : Intent) (s : TaskDesk) (p : Progress) : Prop :=
  ∃ results, Chained h i results p ∧ ∀ k result, results[k]? = some result →
    ∃ e, s.dir.get (k + 1) = some (.whole e) ∧ e.index = k + 1 ∧ e.result = result

theorem replay_onDisk {records done more : List Envelope} {torn : Bool}
    (sound : Sound (decode h i) (.begin h i) maximumPages s.dir records torn) (split : records = done ++ more)
    (taken : replay (decode h i) (.begin h i) done = some p) : OnDisk h i s p := by
  refine ⟨done.map Envelope.result,replay_chained taken,fun k result there => ?_⟩
  rw [List.getElem?_map] at there
  obtain ⟨e,known,same⟩ := Option.map_eq_some_iff.mp there
  refine ⟨e,sound.record k e ?_,replay_index taken known,same⟩
  rw [split,List.getElem?_append_left (List.getElem?_eq_some_iff.mp known).1]
  exact known

/-- Opening the store anew against what its handle has: the same while the handle is ready;
after an append that was accepted the page with it; after one that broke off the page or not,
and then nothing more. -/
structure ReopensAlike (h : Digests) (i : Intent) (s : TaskDesk) : Prop where
  chained : ∀ hd, s.handle = some hd → OnDisk h i s hd.state
  again : ∀ hd, s.handle = some hd → ∃ hd', reopened h i s = some hd' ∧ OnDisk h i s hd'.state ∧
    (hd.tail = false → hd' = hd)
  accepted : ∀ hd expected result fates, s.handle = some hd → (appendPage h i expected result fates s).1 = .value () →
    Timely i expected result hd ∧
    (appendPage h i expected result fates s).2.2.handle =
      some { hd with state := hd.state.push h i result,count := hd.count + 1 } ∧
    reopened h i (appendPage h i expected result fates s).2.2 = (appendPage h i expected result fates s).2.2.handle
  failed : ∀ hd expected result fates e, s.handle = some hd → (appendPage h i expected result fates s).1 = .threw e →
    (appendPage h i expected result fates s).2.2 = s ∨ Timely i expected result hd ∧
      (appendPage h i expected result fates s).2.2.handle = some { hd with tail := true } ∧
      ∃ hd', reopened h i (appendPage h i expected result fates s).2.2 = some hd' ∧
        (hd'.state = hd.state ∨ hd'.state = hd.state.push h i result)
  died : ∀ hd expected result fates, s.handle = some hd → hd.tail = false →
    (appendPage h i expected result fates s).1 = .crashed →
      ∃ hd', reopened h i (fell (appendPage h i expected result fates s).2.2) = some hd' ∧
        (hd'.state = hd.state ∨ hd'.state = hd.state.push h i result)
  spent : ∀ hd expected result fates, s.handle = some hd → hd.tail = true →
    (appendPage h i expected result fates s).1 ≠ .value () ∧
      ((appendPage h i expected result fates s).1 = .crashed ∨ (appendPage h i expected result fates s).2.2 = s)

theorem kept_alike (kept : Kept h i s) : ReopensAlike h i s := by
  obtain ⟨reached,idle⟩ := kept
  obtain ⟨records,torn,fits⟩ := reached.fits
  have ends : ∀ hd expected result fates, s.handle = some hd →
      EndsIn (fun _ s' => ∃ s₁, Appended h i expected result hd records (activated s) s₁ ∧ s' = settled s₁)
        (fun s' => ∃ s₁, Failed h i expected result hd records (activated s) s₁ ∧ s' = settled s₁)
        (Gone h i expected result hd records (activated s)) (appendPage h i expected result fates s).1
        (appendPage h i expected result fates s).2.2 := fun hd expected result fates present =>
    appendPage_runs fits present (idle hd present) fates s rfl
  have header : ∀ hd, s.handle = some hd → s.header = some (.whole i) := fun hd present =>
    reached.opened (by rw [present]; rfl)
  constructor
  · intro hd present
    obtain ⟨done,more,split,taken,_⟩ := fits.live hd present (idle hd present)
    exact replay_onDisk fits.sound split taken
  · intro hd present
    obtain ⟨p,all⟩ := fits.sound.replays
    refine ⟨_,reopened_eq (header hd present),?_,fun ready => ?_⟩
    · rw [found_eq fits.sound all]
      exact replay_onDisk fits.sound (List.append_nil _).symm all
    · obtain ⟨rfl,taken,counted⟩ := ready_records idle present fits ready
      rw [found_eq fits.sound taken]
      have inactive := idle hd present
      obtain ⟨state,count,tail,active⟩ := hd
      cases ready
      cases inactive
      cases counted
      rfl
  · intro hd expected result fates present value
    have ended := ends hd expected result fates present
    rw [value] at ended
    obtain ⟨s₁,⟨timely,committed⟩,is_⟩ := ended
    obtain ⟨_,taken,counted⟩ := ready_records idle present fits timely.ready
    have handle : (settled s₁).handle = some { hd with state := hd.state.push h i result,count := hd.count + 1 } := by
      have inactive := idle hd present
      unfold settled mapHandle
      rw [committed.handle,activated_present present]
      obtain ⟨state,count,tail,active⟩ := hd
      cases inactive
      rfl
    have still : (settled s₁).header = some (.whole i) := by
      rw [committed.same]
      exact header hd present
    rw [is_]
    refine ⟨timely,handle,?_⟩
    have admitted := decode_envelope timely.valid timely.follows (h := h)
    have sound : Sound (decode h i) (.begin h i) maximumPages (settled s₁).dir (records ++ [hd.state.envelope h i result]) false :=
      committed.sound
    rw [reopened_eq still,handle,found_eq sound (replay_snoc taken admitted)]
    have inactive := idle hd present
    have ready := timely.ready
    obtain ⟨state,count,tail,active⟩ := hd
    cases ready
    cases inactive
    cases counted
    simp
  · intro hd expected result fates e present threw
    have ended := ends hd expected result fates present
    rw [threw] at ended
    obtain ⟨s₁,failed,is_⟩ := ended
    rw [is_]
    obtain rfl | ⟨timely,spent⟩ := failed
    · exact .inl (settled_activated present (idle hd present))
    · right
      obtain ⟨_,taken,counted⟩ := ready_records idle present fits timely.ready
      have handle : (settled s₁).handle = some { hd with tail := true } := by
        have inactive := idle hd present
        unfold settled mapHandle
        rw [spent.handle,activated_present present]
        obtain ⟨state,count,tail,active⟩ := hd
        cases inactive
        rfl
      have still : (settled s₁).header = some (.whole i) := by
        rw [spent.same]
        exact header hd present
      exact ⟨timely,handle,_,reopened_eq still,
        found_broken spent.broken taken (decode_envelope timely.valid timely.follows)⟩
  · intro hd expected result fates present ready crashed
    have ended := ends hd expected result fates present
    rw [crashed] at ended
    obtain ⟨rfl,taken,counted⟩ := ready_records idle present fits ready
    obtain is_ | ⟨timely,died⟩ := ended
    · rw [is_]
      refine ⟨_,reopened_eq (header hd present),.inl ?_⟩
      have sound : Sound (decode h i) (.begin h i) maximumPages (fell (activated s)).dir records false := fits.sound
      rw [found_eq sound taken]
    · have still : (fell (appendPage h i expected result fates s).2.2).header = some (.whole i) := by
        rw [died.same]
        exact header hd present
      exact ⟨_,reopened_eq still,found_broken died.broken taken
        (decode_envelope timely.valid timely.follows)⟩
  · intro hd expected result fates present spent
    have ended := ends hd expected result fates present
    have late : ∀ {P : Prop}, Timely i expected result hd → P := by
      intro P timely
      have ready := timely.ready
      rw [spent] at ready
      cases ready
    cases outcome : (appendPage h i expected result fates s).1 with
    | value u =>
      rw [outcome] at ended
      obtain ⟨_,⟨timely,_⟩,_⟩ := ended
      exact late timely
    | threw e =>
      rw [outcome] at ended
      obtain ⟨s₁,failed,is_⟩ := ended
      refine ⟨fun no => (by cases no),.inr ?_⟩
      obtain rfl | ⟨timely,_⟩ := failed
      · rw [is_]
        exact settled_activated present (idle hd present)
      · exact late timely
    | crashed => exact ⟨fun no => (by cases no),.inl rfl⟩

end Calls

/-- After any calls the store reopens as it is. -/
theorem task_store_reopens (h : Digests) (i : Intent) (events : List (StoreCall × List Fate)) :
    ReopensAlike h i (storeRun h i events) :=
  kept_alike (storeRun_kept events)

/-! An append that breaks off after its page was written, and one that is refused before. -/

def plainDigests : Digests where
  intent _ := "intent"
  page e := e.previousHash ++ "-page"

def plainIntent : Intent where
  taskId := "htask"
  accountId := "7"
  chatId := "-5"
  requesterId := "8"
  primaryMessageId := 1
  fromDate := 1000
  toDate := 2000
  timezone := "UTC"
  objective := "summary"
  source := none

def closedCheckpoint : Checkpoint := { initial plainIntent with status := .inaccessible }

/-- A chat that cannot be read. -/
def closedPage : TaskPage where
  page := {
    fromDate := 1000
    toDate := 2000
    messages := []
    cursor := none
    hasMore := false
    status := .inaccessible
    coverage := ⟨none,none,false,0,0⟩
    excluded := {} }
  sources := []
  beforeCheckpoint := initial plainIntent
  nextCheckpoint := closedCheckpoint

/-- Everything is done up to the last check of the append. -/
def brokenOff : TaskDesk := storeRun plainDigests plainIntent
  [(.create,[]),(.append (initial plainIntent) closedPage,[.done,.done,.done,.done,.done,.done,.failed])]

def refusedFirst : TaskDesk := storeRun plainDigests plainIntent
  [(.create,[]),(.append closedCheckpoint closedPage,[])]

theorem brokenOff_pages : (brokenOff.handle.map fun hd => hd.state.pages.length) = some 0 ∧
    ((reopened plainDigests plainIntent brokenOff).map fun hd => hd.state.pages.length) = some 1 := by
  decide +kernel

theorem refusedFirst_outcomes :
    (appendPage plainDigests plainIntent closedCheckpoint closedPage []
      (storeRun plainDigests plainIntent [(.create,[])])).1 = .threw "conflict" ∧
    (appendPage plainDigests plainIntent (initial plainIntent) closedPage [] refusedFirst).1 = .value () := by
  decide +kernel

/-- Reopening may give a page more than the handle has, and an append may be accepted after
one that failed. -/
theorem not_always_alike :
    (¬∀ (h : Digests) (i : Intent) (events : List (StoreCall × List Fate)) (hd : Handle Progress),
      (storeRun h i events).handle = some hd →
        ∃ hd', reopened h i (storeRun h i events) = some hd' ∧ hd'.state = hd.state) ∧
    ¬∀ (h : Digests) (i : Intent) (events : List (StoreCall × List Fate)) (expected expected' : Checkpoint)
      (result result' : TaskPage) (e : String),
      (appendPage h i expected result [] (storeRun h i events)).1 = .threw e →
        (appendPage h i expected' result' [] (storeRun h i (events ++ [(.append expected result,[])]))).1 ≠ .value () := by
  constructor
  · intro always
    obtain ⟨none_,one⟩ := brokenOff_pages
    obtain ⟨hd,present,length⟩ := Option.map_eq_some_iff.mp none_
    obtain ⟨hd',again,same⟩ := always plainDigests plainIntent _ hd present
    have found : reopened plainDigests plainIntent brokenOff = some hd' := again
    rw [found,Option.map_some,same,length] at one
    cases one
  · intro never
    exact never plainDigests plainIntent [(.create,[])] _ _ _ _ _ refusedFirst_outcomes.1 refusedFirst_outcomes.2

end Neurobro.History
