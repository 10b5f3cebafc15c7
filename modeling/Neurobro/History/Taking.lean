import Neurobro.History.Rows

/-! The messages a page takes: what each of them brings, up to where the reader stops. -/
namespace Neurobro.History

open Telegram List

section Projecting
variable {h : ReaderHost} {r : Reader} {users : List RawUser} {toDate : Int} {v : RawMessage}

/-- A message that has its row: it is dated, of the period and of a known author. -/
structure RowOf (h : ReaderHost) (r : Reader) (users : List RawUser) (toDate : Int) (v : RawMessage) (authorId : String)
    (m : Message) : Prop where
  kept : leftOut r toDate v = none
  sure : unsure r users v authorId = false
  author : authorId = senderId h r v
  row : ∃ forwarded,m = rowFor h r users v v.date forwarded ∧ ∀ f ∈ forwarded,f.Valid

theorem project_row (made : project h r users toDate v = .ok (.row authorId m)) : RowOf h r users toDate v authorId m:= by
  unfold project at made
  split at made
  · cases made
  · rename_i kept
    split at made
    · cases made
    · rename_i sure
      obtain ⟨forwarded,read,rest⟩ := bind_ok made
      cases rest
      refine ⟨kept,by simpa using sure,rfl,forwarded,rfl,?_⟩
      unfold forwardOf at read
      split at read
      · exact forwardProvenance_valid read
      · cases read
        exact fun f no => by cases no

theorem leftOut_dated (kept : leftOut r toDate v = none) :
    dated v = some v.date ∧ dateValid v.date = true ∧ v.date ≤ toDate ∧ textOk v.message = true := by
  unfold leftOut at kept
  split at kept
  · cases kept
  · rename_i date is_
    have same : v.date = date ∧ dateValid v.date = true := by
      unfold dated at is_
      split at is_
      · rename_i fine
        exact ⟨Option.some.inj is_,fine.2⟩
      · cases is_
    by_cases late : toDate < date
    · simp [late] at kept
    · have text : textOk v.message = true := by
        by_contra no
        simp only [late,if_false,Bool.eq_false_iff.mpr no] at kept
        split at kept
        · cases kept
        · split at kept <;> simp at kept
      exact ⟨by rw [is_,same.1],same.2,by omega,text⟩

theorem project_left {reason : Disposition} (made : project h r users toDate v = .ok (.left reason)) :
    reason ≠ .included ∧ (dated v = none → reason = .unavailable) := by
  unfold project at made
  split at made
  · rename_i reason' is_
    cases made
    unfold leftOut at is_
    split at is_
    · cases is_
      exact ⟨by simp,fun _ => rfl⟩
    · rename_i date there
      have never : dated v ≠ none := by simp [there]
      repeat' split at is_
      all_goals first
        | (cases is_; exact ⟨by simp,fun no => absurd no never⟩)
        | cases is_
  · split at made
    · cases made
      exact ⟨by simp,fun _ => rfl⟩
    · obtain ⟨_,_,rest⟩ := bind_ok made
      cases rest

theorem dated_some (is_ : dated v = some date) : v.date = date ∧ dateValid date = true := by
  unfold dated at is_
  split at is_
  · rename_i fine
    cases is_
    exact ⟨rfl,fine.2⟩
  · cases is_

end Projecting

/-! Taking one message after another. -/

/-- A message with what was made of it. -/
abbrev Taken := RawMessage × Projected

def Projected.message? : Projected → Option Message
  | .left _ => none
  | .row _ m => some m

section Taking
variable (h : ReaderHost) (r : Reader)

def Reading.takeAll (s : Reading) (xs : List Taken) : Reading := xs.foldl (fun s x => s.take h r x.1 x.2) s

/-- What the rows of these messages take. -/
def takenBytes : List Taken → Nat
  | [] => 0
  | x :: rest => sizeBytes x.2 + takenBytes rest

def takenSources (xs : List Taken) : List Source := xs.map fun x => sourceOf h r x.1 x.2

def takenRows (xs : List Taken) : List Message := xs.filterMap fun x => x.2.message?

/-- Why the reader stopped before these. -/
inductive Stops (users : List RawUser) (s : Reading) : List RawMessage → Status → Prop where
  | done : Stops users s [] .more
  | older (v : RawMessage) (rest : List RawMessage) (date : Int) (is_ : dated v = some date) (old : date < s.position.fromDate) :
      Stops users s (v :: rest) .lowerBoundReached
  | full (v : RawMessage) (rest : List RawMessage) (p : Projected) (young : ∀ date, dated v = some date → s.position.fromDate ≤ date)
      (made : project h r users s.position.toDate v = .ok p) (large : 60000 < s.usedBytes + sizeBytes p) :
      Stops users s (v :: rest) .more

variable {h r} {users : List RawUser} {s s' : Reading} {vs : List RawMessage} {status : Status}

@[simp] theorem takeAll_nil (s : Reading) : s.takeAll h r [] = s := rfl

@[simp] theorem takeAll_cons (s : Reading) (x : Taken) (xs : List Taken) :
    s.takeAll h r (x :: xs) = (s.take h r x.1 x.2).takeAll h r xs := rfl

theorem take_period (s : Reading) (v : RawMessage) (p : Projected) :
    (s.take h r v p).position.fromDate = s.position.fromDate ∧ (s.take h r v p).position.toDate = s.position.toDate := by
  unfold Reading.take
  cases dated v <;> exact ⟨rfl,rfl⟩

/-- What was taken, and why no more. -/
structure LoopTakes (h : ReaderHost) (r : Reader) (users : List RawUser) (s : Reading) (vs : List RawMessage) (s' : Reading)
    (status : Status) (xs : List Taken) (rest : List RawMessage) : Prop where
  split : vs = xs.map Prod.fst ++ rest
  result : s' = s.takeAll h r xs
  each : ∀ x ∈ xs, project h r users s.position.toDate x.1 = .ok x.2 ∧ ∀ date, dated x.1 = some date → s.position.fromDate ≤ date
  fits : s.usedBytes ≤ 60000 → s'.usedBytes ≤ 60000
  period : s'.position.fromDate = s.position.fromDate ∧ s'.position.toDate = s.position.toDate
  stops : Stops h r users s' rest status

theorem readLoop_takes (read : readLoop h r users vs s = .ok (s',status)) : ∃ xs rest, LoopTakes h r users s vs s' status xs rest := by
  induction vs generalizing s with
  | nil =>
    cases read
    exact ⟨[],[],rfl,rfl,fun x no => (by cases no),id,⟨rfl,rfl⟩,.done⟩
  | cons v vs ih =>
    unfold readLoop at read
    split at read
    · rename_i older
      cases read
      obtain ⟨date,is_,old⟩ := (Option.any_eq_true _ _).mp older
      exact ⟨[],v :: vs,rfl,rfl,fun x no => (by cases no),id,⟨rfl,rfl⟩,.older v vs date is_ (of_decide_eq_true old)⟩
    · rename_i young
      have young : ∀ date, dated v = some date → s.position.fromDate ≤ date := by
        intro date is_
        by_contra old
        apply young
        simp only [is_,Option.any_some,decide_eq_true_eq]
        omega
      obtain ⟨p,made,rest⟩ := bind_ok read
      split at rest
      · rename_i large
        cases rest
        exact ⟨[],v :: vs,rfl,rfl,fun x no => (by cases no),id,⟨rfl,rfl⟩,.full v vs p young made large⟩
      · rename_i fits
        obtain ⟨xs,rest',takes⟩ := ih rest
        obtain ⟨sameFrom,sameTo⟩ := take_period (h := h) (r := r) s v p
        refine ⟨(v,p) :: xs,rest',?_,takes.result,?_,fun _ => takes.fits ?_,?_,takes.stops⟩
        · rw [takes.split,map_cons,cons_append]
        · intro x member
          obtain rfl | later := mem_cons.mp member
          · exact ⟨made,young⟩
          · have there := takes.each x later
            rw [sameFrom,sameTo] at there
            exact there
        · simp only [Reading.take]
          omega
        · exact ⟨takes.period.1.trans sameFrom,takes.period.2.trans sameTo⟩

theorem takeAll_sources (s : Reading) (xs : List Taken) :
    (s.takeAll h r xs).sources = s.sources ++ takenSources h r xs := by
  induction xs generalizing s with
  | nil => simp [takenSources]
  | cons x xs ih =>
    rw [takeAll_cons,ih]
    simp [Reading.take,takenSources]

theorem takeAll_messages (s : Reading) (xs : List Taken) : (s.takeAll h r xs).messages = s.messages ++ takenRows xs := by
  induction xs generalizing s with
  | nil => simp [takenRows]
  | cons x xs ih =>
    obtain ⟨v,p⟩ := x
    rw [takeAll_cons,ih]
    cases p <;> simp [Reading.take,takenRows,Projected.message?]

theorem takeAll_usedBytes (s : Reading) (xs : List Taken) :
    (s.takeAll h r xs).usedBytes = s.usedBytes + takenBytes xs := by
  induction xs generalizing s with
  | nil => rfl
  | cons x xs ih =>
    rw [takeAll_cons,ih]
    simp only [Reading.take,takenBytes]
    omega

/-- The binding, the status and the counts of the pages do not change. -/
theorem takeAll_frame (s : Reading) (xs : List Taken) : ∃ offsetId lastDate oldestDate newestDate undated upper,
    (s.takeAll h r xs).position = { s.position with
      offsetId := offsetId
      lastDate := lastDate
      oldestDate := oldestDate
      newestDate := newestDate
      undated := undated
      upperBoundMessageId := upper } := by
  induction xs generalizing s with
  | nil => exact ⟨_,_,_,_,_,_,rfl⟩
  | cons x xs ih =>
    obtain ⟨a,b,c,d,e,f,is_⟩ := ih (s.take h r x.1 x.2)
    refine ⟨a,b,c,d,e,f,?_⟩
    rw [takeAll_cons,is_]
    unfold Reading.take
    cases dated x.1 <;> rfl

theorem takeAll_upper (s : Reading) (xs : List Taken) :
    (s.takeAll h r xs).position.upperBoundMessageId = s.position.upperBoundMessageId.or (xs.head?.map fun x => x.1.id) := by
  induction xs generalizing s with
  | nil => simp
  | cons x xs ih =>
    rw [takeAll_cons,ih]
    have upper : (s.take h r x.1 x.2).position.upperBoundMessageId = s.position.upperBoundMessageId.or (some x.1.id) := by
      unfold Reading.take
      cases dated x.1 <;> rfl
    rw [upper]
    cases s.position.upperBoundMessageId <;> simp

end Taking

/-! The order of a batch. -/

section Order
variable {h : ReaderHost} {r : Reader} {v : RawMessage} {rest : List RawMessage} {previousId previousDate : Int}

theorem orderly_cons (order : orderly h r (v :: rest) previousId previousDate = true) :
    messageIdValid v.id = true ∧ v.id < previousId ∧ (∀ date, dated v = some date → date ≤ previousDate) ∧
      orderly h r rest v.id ((dated v).getD previousDate) = true := by
  simp only [orderly,Bool.and_eq_true,decide_eq_true_eq] at order
  obtain ⟨⟨⟨⟨⟨_,placed⟩,below⟩,_⟩,dates⟩,later⟩ := order
  refine ⟨placed,below,fun date is_ => ?_,later⟩
  rw [is_] at dates
  exact of_decide_eq_true dates

/-- The ids of a batch go down. -/
theorem orderly_below (order : orderly h r vs previousId previousDate = true) :
    (vs.map RawMessage.id).Pairwise (· > ·) ∧ ∀ v ∈ vs, messageIdValid v.id = true ∧ v.id < previousId := by
  induction vs generalizing previousId previousDate with
  | nil => exact ⟨.nil,fun v no => by cases no⟩
  | cons v rest ih =>
    obtain ⟨placed,below,_,later⟩ := orderly_cons order
    obtain ⟨ids,each⟩ := ih later
    constructor
    · rw [map_cons,pairwise_cons]
      refine ⟨fun id member => ?_,ids⟩
      obtain ⟨u,there,rfl⟩ := mem_map.mp member
      exact (each u there).2
    · intro u member
      obtain rfl | there := mem_cons.mp member
      · exact ⟨placed,below⟩
      · have lower := (each u there).2
        exact ⟨(each u there).1,by omega⟩

end Order

/-! A page as a whole. -/

section Pages
variable (h : ReaderHost) (r : Reader) (before : Checkpoint) (batch : Batch)

/-- Where the reading of one page starts. -/
def openPage : Reading := { position := { before with
  pages := before.pages + 1
  inexact := before.inexact || batch.inexact } }

/-- The messages of a page, those of its batch that were not taken, and why not. -/
structure PageTakes (t : TaskPage) (xs : List Taken) (rest : List RawMessage) (status : Status) : Prop where
  few : batch.messages.length ≤ 100
  order : orderly h r batch.messages (if before.offsetId = 0 then 2147483648 else before.offsetId) before.lastDate = true
  split : batch.messages = xs.map Prod.fst ++ rest
  each : ∀ x ∈ xs, project h r batch.users before.toDate x.1 = .ok x.2 ∧ ∀ date, dated x.1 = some date → before.fromDate ≤ date
  fits : takenBytes xs ≤ 60000
  stops : batch.messages = [] ∧ status = .emptyPage ∨
    batch.messages ≠ [] ∧ Stops h r batch.users ((openPage before batch).takeAll h r xs) rest status
  made : finishPage before batch ((openPage before batch).takeAll h r xs) status = .ok t

variable {h r before batch}

theorem readBatch_takes (read : readBatch h r before batch = .ok t) :
    ∃ xs rest status, PageTakes h r before batch t xs rest status := by
  unfold readBatch at read
  obtain ⟨_,small,read⟩ := bind_ok read
  obtain ⟨_,order,read⟩ := bind_ok read
  have few := (require_ok.mp small).1
  have order := require_ok.mp order
  split at read
  · rename_i empty
    exact ⟨[],[],.emptyPage,few,order,empty,fun x no => (by cases no),Nat.zero_le _,.inl ⟨empty,rfl⟩,read⟩
  · rename_i full
    obtain ⟨⟨s,status⟩,loop,made⟩ := bind_ok read
    obtain ⟨xs,rest,takes⟩ := readLoop_takes loop
    obtain ⟨split_,result,each,fits,_,stops⟩ := takes
    subst result
    have used := fits (Nat.zero_le _)
    rw [takeAll_usedBytes] at used
    exact ⟨xs,rest,status,few,order,split_,each,by simpa using used,.inr ⟨full,stops⟩,made⟩

/-- A page that was made. -/
structure Finished (before : Checkpoint) (batch : Batch) (s : Reading) (status : Status) (t : TaskPage) : Prop where
  moved : ¬(status = .more ∧ s.position.offsetId = before.offsetId)
  small : byteLength t.page.json ≤ 65536
  valid : t.nextCheckpoint.Valid
  is_ : t = ⟨pageOf s status (terminal status && !batch.inexact),s.sources,before,{ s.position with status := status }⟩

theorem finishPage_ok {status : Status} (made : finishPage before batch s status = .ok t) :
    Finished before batch s status t := by
  unfold finishPage at made
  obtain ⟨_,moved,made⟩ := bind_ok made
  obtain ⟨_,small,made⟩ := bind_ok made
  obtain ⟨next,taken,made⟩ := bind_ok made
  unfold snapshotCheckpoint at taken
  obtain ⟨_,valid,same⟩ := bind_ok taken
  cases same
  cases made
  exact ⟨require_ok.mp moved,require_ok.mp small,require_ok.mp valid,rfl⟩

end Pages

end Neurobro.History
