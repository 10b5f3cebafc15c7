import Mathlib.Data.List.Infix
import Neurobro.Data.Rows
import Neurobro.History.Acceptance
import Neurobro.Projection.Selection
import Neurobro.Projection.Stored

/-! The one pass over the rows comes to what trying every end would come to. -/
namespace Neurobro.Projection

open Telegram History Json List

/-- The ends that may be chosen: of an empty page there is one, of any other each that takes a
row and not too many. -/
def Candidate (r : Request) (rows : List SourceRow) (start stop : Nat) : Prop :=
  rows = [] ∧ stop = 0 ∨ rows ≠ [] ∧ start < stop ∧ stop ≤ r.endLimit start rows.length

/-- The fragment that ends there is not too long. -/
def Fits (h : Host) (r : Request) (rows : List SourceRow) (start stop : Nat) : Prop :=
  jsonBytes (fragment h r rows start stop).json ≤ r.budget

/-- The greatest end that fits. -/
def Largest (h : Host) (r : Request) (rows : List SourceRow) (start stop : Nat) : Prop :=
  Candidate r rows start stop ∧ Fits h r rows start stop ∧
    ∀ later, Candidate r rows start later → stop < later → ¬Fits h r rows start later

section
variable {h : Host} {r : Request} {rows : List SourceRow} {start stop : Nat}

theorem endLimit_le : r.endLimit start rows.length ≤ rows.length := by
  unfold Request.endLimit
  cases r.maxRows with
  | none => exact Nat.le_refl _
  | some n => exact Nat.min_le_left _ _

/-- What does not fit does not fit with more rows either. -/
theorem not_fits_later (ok : Rows rows) (forward : start < stop) (out : ¬Fits h r rows start stop) {later : Nat} (at_ : stop ≤ later)
    (within : later ≤ rows.length) : ¬Fits h r rows start later := by
  induction later, at_ using Nat.le_induction with
  | base => exact out
  | succ later at_ ih =>
    have before := ih (by omega)
    have grown := fragment_grows (h := h) (r := r) ok (show start < later by omega) (show later < rows.length by omega)
    unfold Fits at *
    omega

/-- The loop ends at the greatest end that fits, or fits nothing. -/
theorem selectEnd_spec (ok : Rows rows) {limit : Nat} (within : limit ≤ rows.length) {rest : List SourceRow}
    {selected : Option Nat} (rest_ : rest = (rows.take limit).drop stop) (at_ : start ≤ stop) (upTo : stop ≤ limit)
    (counted : Counts (slice rows start stop) t)
    (so_far : stop = start ∧ selected = none ∨ start < stop ∧ selected = some stop ∧ Fits h r rows start stop) :
    (selectEnd r start rows.length r.budget rest stop t selected = none →
      ∀ later, start < later → later ≤ limit → ¬Fits h r rows start later) ∧
    ∀ chosen, selectEnd r start rows.length r.budget rest stop t selected = some chosen →
      start < chosen ∧ chosen ≤ limit ∧ Fits h r rows start chosen ∧
        ∀ later, chosen < later → later ≤ limit → ¬Fits h r rows start later := by
  induction rest generalizing stop t selected with
  | nil =>
    have last : stop = limit := by
      have length := congrArg List.length rest_
      simp only [length_nil,length_drop,length_take] at length
      omega
    subst last
    rw [selectEnd]
    rcases so_far with ⟨rfl,rfl⟩ | ⟨forward,rfl,fits⟩
    · exact ⟨fun _ later first upTo => absurd upTo (by omega),fun _ no => by simp at no⟩
    · refine ⟨fun no => by simp at no,fun chosen is_ => ?_⟩
      obtain rfl := Option.some.inj is_
      exact ⟨forward,Nat.le_refl _,fits,fun later first upTo => absurd upTo (by omega)⟩
  | cons row rest ih =>
    have more : stop < limit := by
      have length := congrArg List.length rest_
      simp only [length_cons,length_drop,length_take] at length
      omega
    have inside : stop < rows.length := by omega
    have next := slice_next at_ inside
    have split_ : (rows.take limit).drop stop = rows.get ⟨stop,inside⟩ :: (rows.take limit).drop (stop + 1) := by
      rw [drop_eq_getElem_cons (by rw [length_take]; omega)]
      simp
    rw [split_] at rest_
    obtain ⟨rfl,rfl⟩ := List.cons.inj rest_
    have empty : (slice rows start stop = []) ↔ ¬start < stop := by
      rw [← length_eq_zero_iff,slice_length start (Nat.le_of_lt inside)]
      omega
    have comma : (if start < stop then 1 else 0 : Int) = if slice rows start stop = [] then 0 else 1 := by
      by_cases forward : start < stop
      · rw [if_pos forward,if_neg (fun is_ => empty.mp is_ forward)]
      · rw [if_neg forward,if_pos (empty.mpr forward)]
    have stepped := counts_step counted (slice_fresh start stop ok)
      (ok.fresh _ (List.get_mem rows ⟨stop,inside⟩)).unmarked
    rw [← next,← comma] at stepped
    have size := fragment_size (h := h) (r := r) (show start < stop + 1 by omega) inside
    have bytes := stepped.bytes
    have long : slice rows start (stop + 1) ≠ [] := by
      rw [next]
      simp
    rw [if_neg long] at bytes
    have exact_ : (jsonBytes (envelope r start rows.length (stop + 1)).json : Int) +
        (t.step (if start < stop then 1 else 0) (rows.get ⟨stop,inside⟩)).rowsBytes =
        jsonBytes (fragment h r rows start (stop + 1)).json := by
      rw [bytes,size]
    rw [selectEnd,exact_]
    by_cases over_ : (r.budget : Int) < jsonBytes (fragment h r rows start (stop + 1)).json
    · have out : ¬Fits h r rows start (stop + 1) := by
        unfold Fits
        omega
      rw [if_pos over_]
      have later_ (later : Nat) (first : stop < later) (upTo_ : later ≤ limit) : ¬Fits h r rows start later :=
        not_fits_later ok (by omega) out first (by omega)
      rcases so_far with ⟨rfl,rfl⟩ | ⟨forward,rfl,fits⟩
      · exact ⟨fun _ => later_,fun _ no => by simp at no⟩
      · refine ⟨fun no => by simp at no,fun chosen is_ => ?_⟩
        obtain rfl := Option.some.inj is_
        exact ⟨forward,upTo,fits,later_⟩
    · have fits : Fits h r rows start (stop + 1) := by
        unfold Fits
        omega
      rw [if_neg over_]
      exact ih rfl (by omega) more stepped (.inr ⟨by omega,rfl,fits⟩)

/-! The rows of an admitted page. -/

theorem mapM_some {α β : Type} {f : α → Option β} {xs : List α} (each : ∀ x ∈ xs, (f x).isSome = true) :
    ∃ ys, xs.mapM f = some ys := by
  induction xs with
  | nil => exact ⟨[],rfl⟩
  | cons x xs ih =>
    simp only [forall_mem_cons] at each
    obtain ⟨y,here⟩ := Option.isSome_iff_exists.mp each.1
    obtain ⟨ys,later⟩ := ih each.2
    exact ⟨y :: ys,by simp [here,later]⟩

theorem admission_page (admitted : admission h r = .ok ()) : SoundPage r.intent r.storedPage.result := by
  unfold admission at admitted
  obtain ⟨_,admitted⟩ := guard_eq_ok.mp admitted
  cases taken : snapshotPage r.intent r.storedPage.result with
  | error e => simp [taken] at admitted
  | ok t => exact snapshotPage_sound taken

/-- Every row of an admitted page can be shown. -/
theorem admission_rows (admitted : admission h r = .ok ()) : ∃ rows, projected h r = some rows ∧ Rows rows ∧
    rows.length = r.storedPage.result.sources.length := by
  have sound := admission_page admitted
  have each : ∀ s ∈ r.storedPage.result.sources, (projectRow h r s).isSome = true := by
    intro s member
    unfold projectRow
    by_cases in_ : s.disposition = .included
    · obtain ⟨m,_,row_,author⟩ := (sound.sources s member).row in_
      obtain ⟨authorId,author⟩ := Option.isSome_iff_exists.mp author
      rw [if_pos in_]
      simp [row_,author]
    · rw [if_neg in_]
      rfl
  obtain ⟨rows,made⟩ := mapM_some each
  have alike := projected_rows made
  have length := alike.length_eq
  refine ⟨rows,made,⟨by rw [← length]; exact sound.few,fun row member => ?_⟩,length.symm⟩
  obtain ⟨s,_,of_⟩ := forall₂_mem alike member
  exact projectRow_fresh of_

/-! The loop without its end. -/

/-- The tally after some rows. -/
def tallyOf (start : Nat) : List SourceRow → Nat → Tally → Tally
  | [],_,t => t
  | row :: rest,stop,t => tallyOf start rest (stop + 1) (t.step (if start < stop then 1 else 0) row)

theorem tallyOf_concat (start : Nat) (rows : List SourceRow) (row : SourceRow) (stop : Nat) (t : Tally) :
    tallyOf start (rows ++ [row]) stop t =
      (tallyOf start rows stop t).step (if start < stop + rows.length then 1 else 0) row := by
  induction rows generalizing stop t with
  | nil => rfl
  | cons first rest ih =>
    have same : stop + 1 + rest.length = stop + (first :: rest).length := by
      rw [length_cons]
      omega
    rw [cons_append,tallyOf,ih,tallyOf,same]

theorem tallyOf_counts (ok : Rows rows) (at_ : start ≤ stop) (within : stop ≤ rows.length) :
    Counts (slice rows start stop) (tallyOf start (slice rows start stop) start {}) := by
  induction stop, at_ using Nat.le_induction with
  | base =>
    have none_ : slice rows start start = [] := by
      rw [← length_eq_zero_iff,slice_length _ within]
      omega
    rw [none_]
    exact counts_nil
  | succ stop at_ ih =>
    have length := slice_length start (Nat.le_of_lt within)
    have stepped := counts_step (ih (by omega)) (slice_fresh start stop ok)
      (ok.fresh _ (List.get_mem rows ⟨stop,within⟩)).unmarked
    have comma : (if start < start + (slice rows start stop).length then 1 else 0 : Int) =
        if slice rows start stop = [] then 0 else 1 := by
      by_cases empty : slice rows start stop = []
      · rw [if_pos empty,empty,if_neg (by simp)]
      · have some_ := length_pos_iff.mpr empty
        rw [if_neg empty,if_pos (by omega)]
    rw [slice_next at_ within,tallyOf_concat,comma]
    exact stepped

/-- What the loop has counted up to an end is what the fragment that ends there takes. -/
theorem tally_exact (ok : Rows rows) (forward : start < stop) (within : stop ≤ rows.length) :
    (jsonBytes (envelope r start rows.length stop).json : Int) + (tallyOf start (slice rows start stop) start {}).rowsBytes =
      jsonBytes (fragment h r rows start stop).json := by
  have counted := (tallyOf_counts ok (Nat.le_of_lt forward) within).bytes
  have some_ : slice rows start stop ≠ [] := by
    rw [← length_pos_iff,slice_length _ within]
    omega
  rw [if_neg some_] at counted
  rw [counted,fragment_size forward within]

/-- A position stands for a row that is there and is not the first. -/
theorem startOf_within (started : startOf h r = .ok start) :
    r.position = none ∧ start = 0 ∨ 1 ≤ start ∧ start < r.storedPage.result.sources.length := by
  unfold startOf at started
  cases given : r.position with
  | none => exact .inl ⟨rfl,by simpa [given] using started.symm⟩
  | some supplied =>
    simp only [given] at started
    obtain ⟨fits,same⟩ := guard_eq_ok.mp started
    rw [Except.ok.injEq] at same
    subst same
    exact .inr (by omega)

theorem project_eq (admitted : admission h r = .ok ()) (started : startOf h r = .ok start)
    (made : projected h r = some rows) : projectStandingHistorySource h r = chooseFragment h r rows start := by
  unfold projectStandingHistorySource
  rw [admitted,started]
  simp only [bind,Except.bind,made]

theorem project_cases (admitted : admission h r = .ok ()) (started : startOf h r = .ok start)
    (made : projected h r = some rows) (ok : Rows rows) (length : rows.length = r.storedPage.result.sources.length) :
    (projectStandingHistorySource h r = .error .limit ∧ ∀ stop, Candidate r rows start stop → ¬Fits h r rows start stop) ∨
    ∃ stop, projectStandingHistorySource h r = .ok (fragment h r rows start stop) ∧ Largest h r rows start stop := by
  rw [project_eq admitted started made,chooseFragment]
  by_cases empty : rows = []
  · subst empty
    have alone (stop : Nat) (candidate : Candidate r [] start stop) : stop = 0 :=
      candidate.elim (fun is_ => is_.2) fun is_ => absurd rfl is_.1
    rw [if_pos rfl]
    by_cases over_ : r.budget < jsonBytes (fragment h r [] start 0).json
    · rw [if_pos over_]
      refine .inl ⟨rfl,fun stop candidate => ?_⟩
      rw [alone stop candidate,Fits]
      omega
    · rw [if_neg over_]
      refine .inr ⟨0,rfl,.inl ⟨rfl,rfl⟩,by rw [Fits]; omega,fun later candidate first => ?_⟩
      exact absurd (alone later candidate) (by omega)
  · have inside : start ≤ rows.length := by
      have := startOf_within started
      omega
    have limit : start ≤ r.endLimit start rows.length := by
      unfold Request.endLimit
      cases r.maxRows with
      | none => exact inside
      | some n => exact Nat.le_min.mpr ⟨inside,Nat.le_add_right _ _⟩
    have none_ : slice rows start start = [] := by
      rw [← length_eq_zero_iff,slice_length _ inside]
      omega
    obtain ⟨nothing,something⟩ := selectEnd_spec (h := h) (r := r) ok endLimit_le rfl (Nat.le_refl start) limit
      (by rw [none_]; exact counts_nil) (.inl ⟨rfl,rfl⟩)
    have only (stop : Nat) (candidate : Candidate r rows start stop) : start < stop ∧ stop ≤ r.endLimit start rows.length :=
      candidate.elim (fun is_ => absurd is_.1 empty) fun is_ => is_.2
    rw [if_neg empty]
    cases chosen : selectEnd r start rows.length r.budget (slice rows start (r.endLimit start rows.length)) start {} none with
    | none => exact .inl ⟨rfl,fun stop candidate => nothing chosen stop (only stop candidate).1 (only stop candidate).2⟩
    | some stop =>
      obtain ⟨forward,upTo,fits,later⟩ := something stop chosen
      exact .inr ⟨stop,rfl,.inr ⟨empty,forward,upTo⟩,fits,fun other candidate first => later other first (only other candidate).2⟩

theorem largest_unique (one : Largest h r rows start stop) (other : Largest h r rows start stop') : stop = stop':= by
  rcases Nat.lt_trichotomy stop stop' with less | same | more
  · exact absurd other.2.1 (one.2.2 stop' other.1 less)
  · exact same
  · exact absurd one.2.1 (other.2.2 stop one.1 more)

end

/-! A page of two entries that cannot be read. -/

def shownIntent : Intent where
  taskId := "htask_" ++ zeros
  accountId := "7"
  chatId := "-5"
  requesterId := "8"
  primaryMessageId := 1
  fromDate := 1000
  toDate := 2000
  timezone := "UTC"
  objective := "summary"
  source := none

def shownSources : List Source := [
  { messageId := 5, date := none, disposition := .unavailable },
  { messageId := 4, date := none, disposition := .unavailable }]

def shownNext : Checkpoint := { initial shownIntent with
  offsetId := 4
  undated := 2
  pages := 1
  upperBoundMessageId := some 5 }

def shownPage : TaskPage where
  page := {
    fromDate := 1000
    toDate := 2000
    messages := []
    cursor := none
    hasMore := true
    status := .more
    coverage := ⟨none,none,false,2,1⟩
    excluded := { unavailable := 2 } }
  sources := shownSources
  beforeCheckpoint := initial shownIntent
  nextCheckpoint := shownNext

def shownRequest : Request where
  intent := shownIntent
  referenceKey := hexText 64 0
  storedPage := ⟨1,hexText 64 0,shownPage⟩
  position := none
  maxBytes := none
  maxRows := none

/-- The digests, under that key, of the texts that name this page and its parts, each found by
what only its text has. -/
def shownDigests : List (String × Nat) := [
  ("\"stored\"",0xce2a0f1e825c61f0161c17fe3f30e524d77c404131b86fa4f135a530099ab166),
  ("\"offset\":1",0x5a01af17a9aa221ca5fc0650a89dd1e7e188da2cce321b29909448b72b23e20f),
  ("\"end\":1",0xa4f78e32f80d7de7ab3e453680bb5f22d7510964993315321387e8c9ceb8a773),
  ("\"end\":2,",0x09ddccdc27ad9fe92e3a8445ed708f69b1fc16b81a1898d8cc6ec48d2e4c9fb1),
  ("\"messageId\":5",0xa58a5aaddbf59feaffaabe5f5e1aaeea3dec7a7b0a660d028ac5e895204ffba4),
  ("\"messageId\":4",0x5f782c4a2d99bc617558b583b0f4c0c1fde80b0aa40fc3bb4940981a2ee2eb80),
  ("],5]",0x7b51e1f68d286f51a1bb32eaf9f726483a3caa9d8764dd2e19c9f2f3ab4b3c43),
  ("],4]",0x923689e44b94c1e7ea7561c180203e714ac408c7fc65b83ed63b7ac10b134bd4)]

def shownHost : Host where
  hmac _ text := hexText 64 (((shownDigests.find? fun d => decide (d.1.toList <:+: text.toList)).map Prod.snd).getD 0)
  timezoneKnown zone := zone == "UTC"
  hmac_hex _ _ := hexText_hex 64 _

theorem shownPage_small : byteLength shownPage.page.json ≤ 65536 := by
  rw [byteLength_eq]
  exact (page_size (by decide) (by decide) rfl ⟨rfl,rfl,by decide,by decide⟩ (by decide)).trans (by decide)

theorem shownSources_small : ∀ s ∈ shownSources, size numberText s.json ≤ 500 := by
  intro s member
  have each : ∀ s ∈ shownSources, messageIdValid s.messageId = true ∧ s.date.all dateValid = true ∧ s.messageRef = none ∧
      s.authorId = none ∧ s.replyToMessageId.all messageIdValid = true := by decide
  obtain ⟨id_,date,ref,author,reply⟩ := each s member
  exact source_size id_ date (by simp [ref]) (by simp [author]) reply

theorem shownPage_taken : snapshotPage shownIntent shownPage = .ok shownPage :=
  snapshotPage_ok (by decide) (by decide) (by decide) (by decide) (by decide) (by decide) (by decide) (by decide) rfl (by decide)
    (by decide) ⟨shownPage_small,taskPage_size shownPage_small (by decide) shownSources_small (by decide) (by decide)⟩

theorem zeros_hex : hexRef "" 48 zeros = true :=
  hexRef_iff.mpr ⟨length_replicate,fun c member => by rw [eq_of_mem_replicate member]; exact .inl rfl⟩

theorem shownIntent_valid : ValidIntent shownHost shownIntent :=
  ⟨hexRef_mark "htask_" zeros_hex,by decide,by decide,by decide,by decide,by decide,by decide,by decide,by decide,by decide,
    by decide,by simp [shownIntent],rfl⟩

theorem shown_admitted : admission shownHost shownRequest = .ok () := by
  have valid : ValidIntent shownHost shownRequest.intent := shownIntent_valid
  have formed : shownRequest.WellFormed :=
    ⟨by decide,by decide,hexText_hex 64 0,hexText_hex 64 0,by simp [shownRequest],by simp [shownRequest],rfl⟩
  have taken : snapshotPage shownRequest.intent shownRequest.storedPage.result = .ok shownPage := shownPage_taken
  rw [admission,if_neg (not_not.mpr valid)]
  simp only [taken]
  rw [if_neg (not_not.mpr formed),if_neg (not_not.mpr (by decide))]

/-! The result. -/

end Neurobro.Projection
