import Neurobro.History.Acceptance

/-! A chat read page after page: the sources of the pages are the messages of the period, each of
them once and newest first. -/
namespace Neurobro.History

open Json Telegram List

/-! The chat and the messenger. -/

/-- A chat that does not change while it is read, newest message first. -/
structure Chat (h : ReaderHost) (r : Reader) where
  messages : List RawMessage
  descending : (messages.map RawMessage.id).Pairwise (· > ·)
  placed : ∀ v ∈ messages, messageIdValid v.id = true
  own : ∀ v ∈ messages, v.kind ≠ .other ∧ (v.peerId.isNone && decide (v.kind = .empty) || samePeer h v.peerId r.peerId) = true
  dates : messages.Pairwise fun u v => ∀ late early, dated u = some late → dated v = some early → early ≤ late
  forwards : ∀ v ∈ messages, ∃ forwarded, forwardOf r v = .ok forwarded

/-- What is asked for starts where the second part of the chat does. -/
def GetHistory.Cuts (ask : GetHistory) (newer rest : List RawMessage) : Prop :=
  if ask.offsetId = 0 then
    (∀ v ∈ newer, ∀ date, dated v = some date → ask.offsetDate ≤ date) ∧ ∀ v ∈ rest, ∀ date, dated v = some date → date < ask.offsetDate
  else (∀ v ∈ newer, ask.offsetId ≤ v.id) ∧ ∀ v ∈ rest, v.id < ask.offsetId

/-- A batch is the beginning of what is asked for, as long as the messenger likes but not empty
while there is something. -/
structure Answers (messages : List RawMessage) (ask : GetHistory) (batch : Batch) : Prop where
  small : batch.messages.length ≤ 100 ∧ batch.users.length ≤ 200 ∧ batch.chats ≤ 100
  cut : ∃ newer later, messages = newer ++ (batch.messages ++ later) ∧ ask.Cuts newer (batch.messages ++ later) ∧
    (batch.messages = [] → later = [])

section Traverse
variable (h : ReaderHost) (r : Reader)

/-- Each row alone fits a page. -/
def Fits (toDate : Int) (batch : Batch) : Prop :=
  ∀ v ∈ batch.messages, ∀ p, project h r batch.users toDate v = .ok p → sizeBytes p ≤ 60000

/-- The messenger answers every question of the reader from the chat, each time as it likes. -/
def Serves (chat : Chat h r) (toDate : Int) (invoke : Nat → GetHistory → Except String Batch) : Prop :=
  ∀ k c, ∃ batch, invoke k (askFor c) = .ok batch ∧ Answers chat.messages (askFor c) batch ∧ Fits h r toDate batch

variable (fromDate toDate : Int) (invoke : Nat → GetHistory → Except String Batch)

/-- Page after page, until one does not say more. -/
def traverse : Nat → Nat → Option Checkpoint → Except String (List TaskPage)
  | 0,_,_ => .error "fuel"
  | fuel + 1,k,checkpoint => do
    let t ← readTaskPage h r { fromDate := fromDate, toDate := toDate, checkpoint := checkpoint } (invoke k)
    if t.nextCheckpoint.status = .more then do
      let later ← traverse fuel (k + 1) (some t.nextCheckpoint)
      return t :: later
    else return [t]

end Traverse

/-! A page of a chat. -/

section Page
variable {h : ReaderHost} {r : Reader} {before : Checkpoint} {batch : Batch} {t : TaskPage} {xs : List Taken}
  {rest : List RawMessage} {status : Status}

theorem project_total (forward : ∃ forwarded, forwardOf r v = .ok forwarded) : ∃ p, project h r users toDate v = .ok p:= by
  obtain ⟨forwarded,read⟩ := forward
  unfold project
  split
  · exact ⟨_,rfl⟩
  · split
    · exact ⟨_,rfl⟩
    · rw [read]
      exact ⟨_,rfl⟩

theorem readLoop_total (forwards : ∀ v ∈ vs, ∃ forwarded, forwardOf r v = .ok forwarded)
    (s : Reading) : ∃ s' status, readLoop h r users vs s = .ok (s',status) := by
  induction vs generalizing s with
  | nil => exact ⟨s,.more,rfl⟩
  | cons v vs ih =>
    unfold readLoop
    split
    · exact ⟨_,_,rfl⟩
    · obtain ⟨p,made⟩ : ∃ p, project h r users s.position.toDate v = .ok p := project_total (forwards v mem_cons_self)
      rw [made]
      obtain ⟨s',status,later⟩ := ih (fun v member => forwards v (mem_cons_of_mem _ member)) (s.take h r v p)
      by_cases large : 60000 < s.usedBytes + sizeBytes p
      · exact ⟨s,.more,if_pos large⟩
      · exact ⟨s',status,(if_neg large).trans later⟩

theorem takeAll_offset (s : Reading) (some_ : xs ≠ []) : (s.takeAll h r xs).position.offsetId = (xs.getLast some_).1.id := by
  induction xs generalizing s with
  | nil => exact absurd rfl some_
  | cons x xs ih =>
    rw [takeAll_cons]
    by_cases last : xs = []
    · subst last
      simp only [takeAll_nil,getLast_singleton,Reading.take]
      cases dated x.1 <;> rfl
    · rw [ih _ last,getLast_cons last]

theorem takeAll_lastDate (s : Reading) (xs : List Taken) : (s.takeAll h r xs).position.lastDate = s.position.lastDate ∨
    ∃ x ∈ xs, dated x.1 = some (s.takeAll h r xs).position.lastDate := by
  induction xs generalizing s with
  | nil => exact .inl rfl
  | cons x xs ih =>
    rw [takeAll_cons]
    obtain same | ⟨y,member,is_⟩ := ih (s.take h r x.1 x.2)
    · rw [same]
      simp only [Reading.take]
      cases date : dated x.1 with
      | none => exact .inl rfl
      | some date' => exact .inr ⟨x,mem_cons_self,date⟩
    · exact .inr ⟨y,mem_cons_of_mem _ member,is_⟩

/-- A batch out of a chat is in order. -/
theorem orderly_chat {chat : Chat h r} (here : ∀ v ∈ vs, v ∈ chat.messages)
    (ids : (vs.map RawMessage.id).Pairwise (· > ·))
    (dates : vs.Pairwise fun u v => ∀ late early, dated u = some late → dated v = some early → early ≤ late) {id date : Int}
    (below : ∀ v ∈ vs, v.id < id) (early : ∀ v ∈ vs, ∀ date', dated v = some date' → date' ≤ date) :
    orderly h r vs id date = true := by
  induction vs generalizing id date with
  | nil => rfl
  | cons v vs ih =>
    rw [map_cons,pairwise_cons] at ids
    rw [pairwise_cons] at dates
    have member := here v mem_cons_self
    obtain ⟨known,peer⟩ := chat.own v member
    have under : ∀ u ∈ vs, u.id < v.id := fun u there => ids.1 u.id (mem_map_of_mem there)
    have older : ∀ u ∈ vs, ∀ date', dated u = some date' → date' ≤ (dated v).getD date := by
      intro u there date' is_
      cases first : dated v with
      | none => exact early u (mem_cons_of_mem _ there) date' is_
      | some late => exact dates.1 u there late date' first is_
    have later := ih (fun u there => here u (mem_cons_of_mem _ there)) ids.2 dates.2 under older
    have date_ : (dated v).all (fun date' => decide (date' ≤ date)) = true := by
      cases first : dated v with
      | none => rfl
      | some date' => exact decide_eq_true (early v mem_cons_self date' first)
    have lower := decide_eq_true (below v mem_cons_self)
    simp only [orderly,decide_eq_true known,chat.placed v member,lower,peer,date_,later,Bool.and_self]

end Page

/-! The checkpoint after a page. -/

section Midway
variable {h : ReaderHost} {r : Reader}

/-- Where the reading stands in the middle of a page, with at most so many messages undated. -/
structure Midway (c : Checkpoint) (most : Int) : Prop where
  last : dateValid c.lastDate = true ∧ c.fromDate ≤ c.lastDate ∧ c.lastDate ≤ c.toDate
  offset : c.offsetId = 0 ∨ messageIdValid c.offsetId = true
  oldest : c.oldestDate.all dateValid = true
  newest : c.newestDate.all dateValid = true
  undated : 0 ≤ c.undated ∧ c.undated ≤ most
  upper : c.upperBoundMessageId.all messageIdValid = true
  dated : c.Dated
  fresh : c.offsetId = 0 → c.upperBoundMessageId = none ∧ c.oldestDate = none ∧ c.undated = 0 ∧ c.lastDate = c.toDate
  begun : c.offsetId ≠ 0 → c.upperBoundMessageId.any (fun upper => decide (c.offsetId ≤ upper)) = true ∧
    ¬(c.oldestDate = none ∧ c.undated = 0)

theorem midway_open {before : Checkpoint} (valid : before.Valid) (batch : Batch) :
    Midway (openPage before batch).position before.undated := by
  obtain ⟨⟨_,_,_,_,_,last,from_,to_,offset,oldest,newest,undated,_,upper⟩,dated,⟨fresh,begun⟩,_⟩ := valid
  have counted := (natural_iff.mp undated).1
  refine ⟨⟨last,from_,to_⟩,offset,oldest,newest,⟨counted,le_refl _⟩,upper,dated,fun zero => ?_,fun some_ => ?_⟩
  · obtain ⟨upper,oldest,undated,last,_⟩ := fresh zero
    exact ⟨upper,oldest,undated,last⟩
  · exact ⟨(begun some_).2.1,(begun some_).2.2⟩

/-- The highest message is not below the one that comes next. -/
theorem midway_upper {most id : Int} (mid : Midway c most) (placed : messageIdValid id = true)
    (below : id < if c.offsetId = 0 then 2147483648 else c.offsetId) :
    (c.upperBoundMessageId.or (some id)).all messageIdValid = true ∧
      (c.upperBoundMessageId.or (some id)).any (fun upper => decide (id ≤ upper)) = true := by
  by_cases zero : c.offsetId = 0
  · rw [(mid.fresh zero).1]
    simp [placed]
  · obtain ⟨upper,is_,above⟩ := (Option.any_eq_true _ _).mp (mid.begun zero).1
    have valid := mid.upper
    rw [if_neg zero] at below
    rw [is_] at valid ⊢
    have high := of_decide_eq_true above
    simp only [Option.some_or,Option.any_some,decide_eq_true_eq]
    exact ⟨valid,by omega⟩

theorem take_midway {s : Reading} (mid : Midway s.position most) (p : Projected)
    (placed : messageIdValid v.id = true) (below : v.id < if s.position.offsetId = 0 then 2147483648 else s.position.offsetId)
    (early : ∀ date, dated v = some date → date ≤ s.position.lastDate)
    (young : ∀ date, dated v = some date → s.position.fromDate ≤ date) : Midway (s.take h r v p).position (most + 1) := by
  obtain ⟨upper,above⟩ := midway_upper mid placed below
  have positive := (messageIdValid_iff.mp placed).1
  obtain ⟨same,oldest,none_⟩ := mid.dated
  cases date : dated v with
  | none =>
    have is_ : (s.take h r v p).position = { s.position with
        offsetId := v.id
        upperBoundMessageId := s.position.upperBoundMessageId.or (some v.id)
        undated := s.position.undated + 1 } := by
      unfold Reading.take
      rw [date]
    rw [is_]
    have counted := mid.undated
    refine ⟨mid.last,.inr placed,mid.oldest,mid.newest,?_,upper,⟨same,oldest,none_⟩,fun zero => ?_,fun _ => ⟨above,?_⟩⟩
    · simp only
      omega
    · simp only at zero
      omega
    · simp only
      omega
  | some date' =>
    have is_ : (s.take h r v p).position = { s.position with
        offsetId := v.id
        upperBoundMessageId := s.position.upperBoundMessageId.or (some v.id)
        lastDate := date'
        oldestDate := smaller s.position.oldestDate date'
        newestDate := larger s.position.newestDate date' } := by
      unfold Reading.take
      rw [date]
    rw [is_]
    have valid := (dated_some date).2
    have late := early date' date
    have down := young date' date
    have counted := mid.undated
    obtain ⟨_,_,top⟩ := mid.last
    have ends : smaller s.position.oldestDate date' = some date' ∧ ∃ newest, larger s.position.newestDate date' = some newest ∧
        dateValid newest = true ∧ date' ≤ newest ∧ newest ≤ s.position.toDate := by
      cases first : s.position.oldestDate with
      | none =>
        have other : s.position.newestDate = none := by simpa [first] using same
        rw [other]
        exact ⟨rfl,date',rfl,valid,le_refl _,by omega⟩
      | some old =>
        rw [first] at oldest
        obtain ⟨newest,there,order⟩ : ∃ newest, s.position.newestDate = some newest ∧ old = s.position.lastDate ∧ old ≤ newest ∧
            newest ≤ s.position.toDate := by
          simp only [Option.all_some,Bool.and_eq_true,decide_eq_true_eq,Option.any_eq_true] at oldest
          obtain ⟨at_,newest,there,order⟩ := oldest
          exact ⟨newest,there,at_,order⟩
        have fine := mid.newest
        rw [there] at fine ⊢
        have least : min old date' = date' := by omega
        have most_ : max newest date' = newest := by omega
        refine ⟨?_,newest,?_,fine,by omega,order.2.2⟩
        · simp only [smaller,Option.elim_some,least]
        · simp only [larger,Option.elim_some,most_]
    obtain ⟨low,newest,high,fine,above',under⟩ := ends
    refine ⟨⟨valid,down,by simp only; omega⟩,.inr placed,?_,?_,⟨counted.1,by simp only; omega⟩,upper,⟨?_,?_,?_⟩,fun zero => ?_,
      fun _ => ⟨above,?_⟩⟩
    · rw [low]
      exact valid
    · rw [high]
      exact fine
    · rw [low,high]
      rfl
    · rw [low,high]
      simp [above',under]
    · rw [low]
      exact fun no => by cases no
    · simp only at zero
      omega
    · rw [low]
      exact fun no => by cases no.1

theorem takeAll_midway {s : Reading} (mid : Midway s.position most) {rest : List RawMessage}
    (order : orderly h r (xs.map Prod.fst ++ rest) (if s.position.offsetId = 0 then 2147483648 else s.position.offsetId)
      s.position.lastDate = true)
    (young : ∀ x ∈ xs, ∀ date, dated x.1 = some date → s.position.fromDate ≤ date) :
    Midway (s.takeAll h r xs).position (most + xs.length) := by
  induction xs generalizing s most with
  | nil => simpa using mid
  | cons x xs ih =>
    rw [map_cons,cons_append] at order
    obtain ⟨placed,below,early,later⟩ := orderly_cons order
    have head := take_midway (h := h) (r := r) mid x.2 placed below early (young x mem_cons_self)
    have positive := (messageIdValid_iff.mp placed).1
    have place : (s.take h r x.1 x.2).position.offsetId = x.1.id ∧
        (s.take h r x.1 x.2).position.lastDate = (dated x.1).getD s.position.lastDate := by
      unfold Reading.take
      cases dated x.1 <;> exact ⟨rfl,rfl⟩
    have rest_ := ih head (by rw [place.1,place.2,if_neg (by omega)]; exact later) fun y member => by
      rw [(take_period (h := h) (r := r) s x.1 x.2).1]
      exact young y (mem_cons_of_mem _ member)
    rw [takeAll_cons,length_cons]
    have same : most + 1 + (xs.length : Int) = most + ((xs.length + 1 : Nat) : Int) := by omega
    rw [← same]
    exact rest_

/-- A checkpoint in the middle of things is a checkpoint, once its status goes with it. -/
theorem midway_valid (mid : Midway c most) (account : userId c.accountId = true)
    (chat : groupId c.chatId = true) (fromDate : dateValid c.fromDate = true) (toDate : dateValid c.toDate = true)
    (some_ : 0 < c.pages) (limit : c.pages ≤ 2147483648) (few : most ≤ c.pages * 100)
    (status : c.offsetId = 0 → c.status ≠ .more) : c.Valid := by
  obtain ⟨⟨last,from_,to_⟩,offset,oldest,newest,undated,upper,dated,fresh,begun⟩ := mid
  have counted : natural c.undated = true ∧ natural c.pages = true := by
    rw [natural_iff,natural_iff]
    omega
  refine ⟨⟨account,chat,fromDate,toDate,by omega,last,from_,to_,offset,oldest,newest,counted.1,counted.2,upper⟩,dated,⟨?_,?_⟩,?_,?_⟩
  · intro zero
    obtain ⟨upper,oldest,undated,last⟩ := fresh zero
    exact ⟨upper,oldest,undated,last,fun no => status zero no.2⟩
  · exact fun placed => ⟨by omega,begun placed⟩
  · omega
  · exact fun none_ => by omega

end Midway

/-! A page of a chat. -/

section Standing
variable {h : ReaderHost} {r : Reader} {before : Checkpoint} {batch : Batch} {t : TaskPage} {xs : List Taken}
  {rest : List RawMessage} {status : Status} {chat : Chat h r} {q : TaskRequest}

/-- Nothing from here on was read yet. -/
abbrev Checkpoint.ceiling (c : Checkpoint) : Int := if c.offsetId = 0 then 2147483648 else c.offsetId

/-- Where the reading of a chat stands between two pages. -/
structure Standing (chat : Chat h r) (q : TaskRequest) (before : Checkpoint) : Prop where
  started : Started r q before
  dates : before.offsetId ≠ 0 → ∀ v ∈ chat.messages, v.id < before.offsetId → ∀ date, dated v = some date → date ≤ before.lastDate
  pages : before.pages + before.ceiling ≤ 2147483648

theorem answers_below (standing : Standing chat q before) {newer rest : List RawMessage} (split_ : chat.messages = newer ++ rest)
    (cut : (askFor before).Cuts newer rest) :
    ∀ v ∈ rest, v.id < before.ceiling ∧ ∀ date, dated v = some date → date ≤ before.lastDate := by
  intro v member
  have here : v ∈ chat.messages := by
    rw [split_]
    exact mem_append_right _ member
  obtain ⟨_,_,⟨fresh,_⟩,_⟩ := standing.started.valid
  have placed := messageIdValid_iff.mp (chat.placed v here)
  unfold GetHistory.Cuts at cut
  by_cases zero : before.offsetId = 0
  · have nothing : (askFor before).offsetId = 0 := zero
    rw [if_pos nothing] at cut
    simp only [Checkpoint.ceiling,if_pos zero]
    refine ⟨by omega,fun date is_ => ?_⟩
    have early := cut.2 v member date is_
    have last := (fresh zero).2.2.2.1
    simp only [askFor,if_pos zero] at early
    omega
  · have placed_ : (askFor before).offsetId ≠ 0 := zero
    rw [if_neg placed_] at cut
    simp only [Checkpoint.ceiling,if_neg zero]
    exact ⟨cut.2 v member,standing.dates zero v here (cut.2 v member)⟩

theorem answers_orderly (standing : Standing chat q before) (answers : Answers chat.messages (askFor before) batch) :
    orderly h r batch.messages before.ceiling before.lastDate = true := by
  obtain ⟨newer,later,split_,cut,_⟩ := answers.cut
  have below := answers_below standing split_ cut
  have ids := chat.descending
  have dates := chat.dates
  rw [split_,map_append,map_append,pairwise_append,pairwise_append] at ids
  rw [split_,pairwise_append,pairwise_append] at dates
  have here : ∀ v ∈ batch.messages, v ∈ chat.messages := by
    intro v member
    rw [split_]
    exact mem_append_right _ (mem_append_left _ member)
  exact orderly_chat here ids.2.1.1 dates.2.1.1 (fun v member => (below v (mem_append_left _ member)).1)
    fun v member => (below v (mem_append_left _ member)).2

theorem itemSizes_rows (xs : List Taken) :
    itemSizes numberText ((takenRows xs).map Message.json) ≤ takenBytes xs + xs.length := by
  induction xs with
  | nil => exact Nat.zero_le _
  | cons x xs ih =>
    obtain ⟨v,p⟩ := x
    cases p with
    | left reason =>
      simp only [takenRows,filterMap_cons,Projected.message?,takenBytes,sizeBytes,length_cons] at ih ⊢
      omega
    | row authorId m =>
      simp only [takenRows,filterMap_cons,Projected.message?,map_cons,itemSizes,takenBytes,sizeBytes,byteLength_eq,
        length_cons] at ih ⊢
      omega

/-- The page of what was taken can be made. -/
theorem finish_total (standing : Standing chat q before) (order : orderly h r batch.messages before.ceiling before.lastDate = true)
    (split_ : batch.messages = xs.map Prod.fst ++ rest) (few : batch.messages.length ≤ 100) (account : userId r.accountId = true)
    (peer : groupId r.peerId = true) (young : ∀ x ∈ xs, ∀ date, dated x.1 = some date → before.fromDate ≤ date)
    (fits : takenBytes xs ≤ 60000) (moves : status = .more → xs ≠ []) :
    ∃ t, finishPage before batch ((openPage before batch).takeAll h r xs) status = .ok t := by
  obtain ⟨⟨_,_,fromDate,toDate,_,_,_,_,place,_,_,_,pages,_⟩,_,_,undated,_⟩ := id standing.started.valid
  have taken : xs.length ≤ 100 := by
    rw [split_,length_append,length_map] at few
    omega
  have inside : ∀ x ∈ xs, messageIdValid x.1.id = true ∧ x.1.id < before.ceiling := fun x member =>
    (orderly_below order).2 x.1 (by rw [split_]; exact mem_append_left _ (mem_map_of_mem member))
  have limits : 0 ≤ before.pages ∧ before.pages + 1 ≤ 2147483648 := by
    have room := standing.pages
    have least := (natural_iff.mp pages).1
    unfold Checkpoint.ceiling at room
    obtain zero | placed := place
    · rw [if_pos zero] at room
      omega
    · have positive := messageIdValid_iff.mp placed
      rw [if_neg (by omega)] at room
      omega
  have some_ : status = .more → ∃ x ∈ xs, ((openPage before batch).takeAll h r xs).position.offsetId = x.1.id := fun more =>
    ⟨_,getLast_mem (moves more),takeAll_offset _ (moves more)⟩
  obtain ⟨a,b,c,d,e,f,position⟩ := takeAll_frame (h := h) (r := r) (openPage before batch) xs
  have start : (openPage before batch).position = { before with
      pages := before.pages + 1
      inexact := before.inexact || batch.inexact } := rfl
  have mid : Midway ((openPage before batch).takeAll h r xs).position (before.undated + xs.length) := by
    rw [split_] at order
    exact takeAll_midway (midway_open standing.started.valid batch) order young
  have valid : ({ ((openPage before batch).takeAll h r xs).position with status := status } : Checkpoint).Valid := by
    have same : Midway { ((openPage before batch).takeAll h r xs).position with status := status } (before.undated + xs.length) :=
      ⟨mid.last,mid.offset,mid.oldest,mid.newest,mid.undated,mid.upper,mid.dated,mid.fresh,mid.begun⟩
    refine midway_valid same ?_ ?_ ?_ ?_ ?_ ?_ ?_ fun zero more => ?_
    · rw [position,start]
      simp only [standing.started.account,account]
    · rw [position,start]
      simp only [standing.started.chat,peer]
    · rw [position]
      exact fromDate
    · rw [position]
      exact toDate
    · rw [position,start]
      simp only
      omega
    · rw [position,start]
      exact limits.2
    · rw [position,start]
      simp only
      omega
    · obtain ⟨x,member,is_⟩ := some_ more
      have positive := messageIdValid_iff.mp (inside x member).1
      simp only at zero
      omega
  have moved : ¬(status = .more ∧ ((openPage before batch).takeAll h r xs).position.offsetId = before.offsetId) := by
    rintro ⟨more,same⟩
    obtain ⟨x,member,is_⟩ := some_ more
    obtain ⟨placed,below⟩ := inside x member
    have positive := messageIdValid_iff.mp placed
    unfold Checkpoint.ceiling at below
    rw [if_neg (by omega)] at below
    omega
  have small : byteLength (pageOf ((openPage before batch).takeAll h r xs) status (terminal status && !batch.inexact)).json ≤ 65536 := by
    obtain ⟨⟨_,_,fromDate',toDate',_,_,_,_,_,oldest,newest,undated',pages',_⟩,_⟩ := valid
    have none_ : (openPage before batch).excluded.Within 0 := by simp [openPage,Excluded.Within]
    have excluded := within_valid (takeAll_within (h := h) (r := r) none_ xs) (by omega)
    have page := page_size (p := pageOf ((openPage before batch).takeAll h r xs) status (terminal status && !batch.inexact)) fromDate' toDate' rfl ⟨natural_of_dates oldest,natural_of_dates newest,undated',pages'⟩ excluded
    have rows : (pageOf ((openPage before batch).takeAll h r xs) status (terminal status && !batch.inexact)).messages =
        (takenRows xs).reverse := by
      simp only [pageOf,takeAll_messages]
      rfl
    have items := itemSizes_rows xs
    rw [rows,map_reverse,itemSizes_reverse] at page
    rw [byteLength_eq]
    omega
  have made : finishPage before batch ((openPage before batch).takeAll h r xs) status =
      .ok ⟨pageOf ((openPage before batch).takeAll h r xs) status (terminal status && !batch.inexact),
        ((openPage before batch).takeAll h r xs).sources,before,
        { ((openPage before batch).takeAll h r xs).position with status := status }⟩ := by
    refine bind_eq_ok.mpr ⟨_,require_ok.mpr moved,bind_eq_ok.mpr ⟨_,require_ok.mpr small,?_⟩⟩
    exact bind_eq_ok.mpr ⟨_,snapshotCheckpoint_ok valid,rfl⟩
  exact ⟨_,made⟩

/-- The reader returns a page of what the messenger answers. -/
theorem readBatch_total (standing : Standing chat q before) (answers : Answers chat.messages (askFor before) batch)
    (fits : Fits h r before.toDate batch) (account : userId r.accountId = true) (peer : groupId r.peerId = true) :
    ∃ t, readBatch h r before batch = .ok t := by
  have order := answers_orderly standing answers
  have here : ∀ v ∈ batch.messages, v ∈ chat.messages := by
    obtain ⟨newer,later,split_,_⟩ := answers.cut
    intro v member
    rw [split_]
    exact mem_append_right _ (mem_append_left _ member)
  unfold readBatch
  rw [require_ok.mpr answers.small,require_ok.mpr order]
  by_cases empty : batch.messages = []
  · have split_ : batch.messages = ([] : List Taken).map Prod.fst ++ [] := empty
    obtain ⟨t,made⟩ : ∃ t, finishPage before batch ((openPage before batch).takeAll h r []) .emptyPage = .ok t :=
      finish_total standing order split_ answers.small.1 account peer (fun x no => by cases no) (Nat.zero_le _)
        fun no => by cases no
    exact ⟨t,(if_pos empty).trans made⟩
  · obtain ⟨s,status,loop⟩ : ∃ s status, readLoop h r batch.users batch.messages (openPage before batch) = .ok (s,status) :=
      readLoop_total (fun v member => chat.forwards v (here v member)) _
    obtain ⟨xs,rest,split_,result,each,used,_,stops⟩ := readLoop_takes loop
    subst result
    have used := used (Nat.zero_le _)
    rw [takeAll_usedBytes] at used
    have moves : status = .more → xs ≠ [] := by
      rintro rfl none_
      subst none_
      cases stops with
      | done => exact empty (by simpa using split_)
      | full v rest p _ made large =>
        have first := fits v (by rw [split_]; simp) p made
        simp only [takeAll_nil,openPage] at large
        omega
    obtain ⟨t,made⟩ := finish_total standing order split_ answers.small.1 account peer (fun x member => (each x member).2)
      (by simpa [openPage] using used) moves
    refine ⟨t,(if_neg empty).trans ?_⟩
    have loop' : readLoop h r batch.users batch.messages { position := { before with
        pages := before.pages + 1
        inexact := before.inexact || batch.inexact } } = .ok ((openPage before batch).takeAll h r xs,status) := loop
    rw [loop']
    exact made

end Standing

/-! From one page to the next. -/

section Pages
variable {h : ReaderHost} {r : Reader} {before : Checkpoint} {batch : Batch} {t : TaskPage} {xs : List Taken}
  {left newer later : List RawMessage} {status : Status} {chat : Chat h r} {q : TaskRequest}

/-- What the sources say of the messages: their ids and dates. -/
def marks (sources : List Source) : List (Int × Option Int) := sources.map fun s => (s.messageId,s.date)

def rawMarks (vs : List RawMessage) : List (Int × Option Int) := vs.map fun v => (v.id,dated v)

theorem taken_marks (xs : List Taken) : marks (takenSources h r xs) = rawMarks (xs.map Prod.fst) := by
  simp only [marks,rawMarks,takenSources,map_map]
  refine map_congr_left fun x _ => ?_
  simp only [Function.comp_apply,source_id,source_date]

/-- There is one place where a chat is cut by an id. -/
theorem cut_unique {a b c d : List RawMessage} {id : Int} (same : a ++ b = c ++ d) (above : ∀ v ∈ a, id ≤ v.id)
    (below : ∀ v ∈ b, v.id < id) (above' : ∀ v ∈ c, id ≤ v.id) (below' : ∀ v ∈ d, v.id < id) : a = c ∧ b = d := by
  obtain ⟨mid,rfl,rfl⟩ | ⟨mid,rfl,rfl⟩ := append_eq_append_iff.mp same
  · cases mid with
    | nil => simp
    | cons v mid =>
      have high := above' v (by simp)
      have low := below v (by simp)
      omega
  · cases mid with
    | nil => simp
    | cons v mid =>
      have high := above v (by simp)
      have low := below' v (by simp)
      omega

/-- A page that says more, and where the reading stands after it. -/
theorem more_standing (standing : Standing chat q before) (split_ : chat.messages = newer ++ (batch.messages ++ later))
    (cut : (askFor before).Cuts newer (batch.messages ++ later)) (takes : PageTakes h r before batch t xs left status)
    (more : t.nextCheckpoint.status = .more) :
    Standing chat { q with checkpoint := some t.nextCheckpoint } t.nextCheckpoint ∧ t.nextCheckpoint.offsetId ≠ 0 ∧
      t.nextCheckpoint.offsetId < before.ceiling ∧ xs ≠ [] ∧ (∀ v ∈ newer ++ xs.map Prod.fst, t.nextCheckpoint.offsetId ≤ v.id) ∧
        ∀ v ∈ left ++ later, v.id < t.nextCheckpoint.offsetId := by
  obtain ⟨_,ending,account,chat_,fromDate,toDate,pages,_⟩ := takes_frame takes
  obtain ⟨moved,_,valid,is_⟩ := finishPage_ok takes.made
  have status_ : status = .more := ending.symm.trans more
  have some_ : xs ≠ [] := by
    rintro rfl
    exact moved ⟨status_,rfl⟩
  have offset : t.nextCheckpoint.offsetId = (xs.getLast some_).1.id := by
    rw [is_]
    exact takeAll_offset _ some_
  have lastDate := takeAll_lastDate (h := h) (r := r) (openPage before batch) xs
  have lastDate : t.nextCheckpoint.lastDate = before.lastDate ∨ ∃ x ∈ xs, dated x.1 = some t.nextCheckpoint.lastDate := by
    rw [is_]
    exact lastDate
  obtain ⟨front,last,is_last⟩ : ∃ front last, xs = front ++ [last] ∧ last = xs.getLast some_ :=
    ⟨xs.dropLast,_,(dropLast_append_getLast some_).symm,rfl⟩
  rw [← is_last.2] at offset
  have whole : chat.messages = (newer ++ front.map Prod.fst) ++ last.1 :: (left ++ later) := by
    rw [split_,takes.split,is_last.1]
    simp
  have ids := chat.descending
  rw [whole,map_append,map_cons,pairwise_append,pairwise_cons] at ids
  have above : ∀ v ∈ newer ++ xs.map Prod.fst, t.nextCheckpoint.offsetId ≤ v.id := by
    intro v member
    rw [is_last.1,map_append,← append_assoc] at member
    rw [offset]
    obtain early | same := mem_append.mp member
    · have high := ids.2.2 v.id (mem_map_of_mem early) last.1.id mem_cons_self
      omega
    · rw [map_singleton,mem_singleton] at same
      rw [same]
  have below : ∀ v ∈ left ++ later, v.id < t.nextCheckpoint.offsetId := by
    intro v member
    rw [offset]
    exact ids.2.1.1 v.id (mem_map_of_mem member)
  have here : last.1 ∈ batch.messages := by
    rw [takes.split,is_last.1]
    simp
  have under := (answers_below standing split_ cut last.1 (mem_append_left _ here)).1
  have placed := messageIdValid_iff.mp ((orderly_below takes.order).2 last.1 here).1
  have nonzero : t.nextCheckpoint.offsetId ≠ 0 := by
    rw [offset]
    omega
  refine ⟨⟨⟨valid,?_,?_,?_,?_,more⟩,fun _ v member low date is_date => ?_,?_⟩,nonzero,by rw [offset]; exact under,some_,above,below⟩
  · exact account.trans standing.started.account
  · exact chat_.trans standing.started.chat
  · exact fromDate.trans standing.started.fromDate
  · exact toDate.trans standing.started.toDate
  · have outside : v ∉ newer ++ xs.map Prod.fst := fun inside => by
      have high := above v inside
      omega
    have split' : chat.messages = (newer ++ xs.map Prod.fst) ++ (left ++ later) := by
      rw [split_,takes.split]
      simp
    have there : v ∈ left ++ later := by
      rw [split'] at member
      exact (mem_append.mp member).resolve_left outside
    have dates := chat.dates
    rw [split',pairwise_append] at dates
    obtain same | ⟨x,taken,is_date'⟩ := lastDate
    · rw [same]
      refine (answers_below standing split_ cut v ?_).2 date is_date
      rw [takes.split,append_assoc]
      exact mem_append_right _ there
    · exact dates.2.2 x.1 (mem_append_right _ (mem_map_of_mem taken)) v there _ date is_date' is_date
  · have room := standing.pages
    simp only [Checkpoint.ceiling,if_neg nonzero] at room ⊢
    simp only [Checkpoint.ceiling] at under
    omega

/-- A page that does not say more has seen the rest of the period. -/
theorem over_older (split_ : chat.messages = newer ++ (batch.messages ++ later)) (emptied : batch.messages = [] → later = [])
    (takes : PageTakes h r before batch t xs left status) (over_ : t.nextCheckpoint.status ≠ .more) :
    terminal t.nextCheckpoint.status = true ∧
      ∀ v ∈ left ++ later, ∀ date, dated v = some date → date < before.fromDate := by
  obtain ⟨_,ending,_⟩ := takes_frame takes
  rw [ending] at over_ ⊢
  obtain ⟨empty,rfl⟩ | ⟨_,stops⟩ := takes.stops
  · have none_ := takes.split
    rw [empty] at none_
    obtain ⟨_,none_⟩ := append_eq_nil_iff.mp none_.symm
    refine ⟨rfl,fun v member => ?_⟩
    rw [none_,emptied empty] at member
    cases member
  · cases stops with
    | done => exact absurd rfl over_
    | full => exact absurd rfl over_
    | older v rest date is_ old =>
      refine ⟨rfl,fun u member date' is_' => ?_⟩
      have same : ((openPage before batch).takeAll h r xs).position.fromDate = before.fromDate := by
        obtain ⟨a,b,c,d,e,f,position⟩ := takeAll_frame (h := h) (r := r) (openPage before batch) xs
        rw [position]
        rfl
      rw [same] at old
      obtain rfl | after := mem_cons.mp member
      · rw [is_] at is_'
        cases is_'
        exact old
      · have dates := chat.dates
        have whole : chat.messages = (newer ++ xs.map Prod.fst) ++ v :: (rest ++ later) := by
          rw [split_,takes.split]
          simp
        rw [whole,pairwise_append,pairwise_cons] at dates
        have down := dates.2.1.1 u after date date' is_ is_'
        omega

/-- The first message that is still to come, if it is of the period, is the first one of the page. -/
theorem page_head (fits : Fits h r before.toDate batch) (takes : PageTakes h r before batch t xs left status)
    (emptied : batch.messages = [] → later = []) {rest : List RawMessage}
    (first : batch.messages ++ later = v :: rest) (young : ∀ date, dated v = some date → before.fromDate ≤ date) :
    (takenSources h r xs).head?.map Source.messageId = some v.id := by
  have full : batch.messages ≠ [] := fun empty => by
    rw [empty,emptied empty] at first
    cases first
  cases xs with
  | cons x xs =>
    have same : x.1 = v := by
      rw [takes.split] at first
      exact (List.cons.inj first).1
    rw [← same]
    exact congrArg some (source_id x.1 x.2)
  | nil =>
    have head : left = batch.messages := by
      rw [takes.split]
      rfl
    obtain ⟨empty,_⟩ | ⟨_,stops⟩ := takes.stops
    · exact absurd empty full
    · rw [takeAll_nil] at stops
      cases stops with
      | done => exact absurd head.symm full
      | older u below date is_ old =>
        rw [← head] at first
        obtain ⟨rfl,_⟩ := List.cons.inj first
        have late := young date is_
        simp only [openPage] at old
        omega
      | full u below p _ made large =>
        have room := fits u (by rw [← head]; exact mem_cons_self) p made
        simp only [openPage] at large
        omega

end Pages

/-! The whole traversal. -/

section Exact
variable {h : ReaderHost} {r : Reader} {chat : Chat h r} {fromDate toDate : Int}
  {invoke : Nat → GetHistory → Except String Batch}

/-- The pages read from a checkpoint on, the first of them by this question. -/
structure ReadsOn (chat : Chat h r) (fromDate : Int) (invoke : Nat → GetHistory → Except String Batch) (k : Nat) (before : Checkpoint)
    (pages : List TaskPage) (newer taken old : List RawMessage) : Prop where
  split : chat.messages = newer ++ (taken ++ old)
  cut : (askFor before).Cuts newer (taken ++ old)
  sources : marks (pages.flatMap TaskPage.sources) = rawMarks taken
  young : ∀ v ∈ taken, ∀ date, dated v = some date → fromDate ≤ date
  older : ∀ v ∈ old, ∀ date, dated v = some date → date < fromDate
  first : ∀ t, pages.head? = some t → t.beforeCheckpoint = before ∧ ∀ v rest, taken ++ old = v :: rest →
    (∀ date, dated v = some date → fromDate ≤ date) → t.sources.head?.map Source.messageId = some v.id
  lowers : ∀ t ∈ pages, t.nextCheckpoint.status = .more →
    t.nextCheckpoint.offsetId ≠ 0 ∧ t.nextCheckpoint.offsetId < t.beforeCheckpoint.ceiling
  ending : ∃ t, pages.getLast? = some t ∧ terminal t.nextCheckpoint.status = true
  linked : ∀ j t t', pages[j]? = some t → pages[j + 1]? = some t' → t'.beforeCheckpoint = t.nextCheckpoint ∧
    ∀ batch v, invoke (k + j) (askFor t.beforeCheckpoint) = .ok batch → batch.messages[t.sources.length]? = some v →
      t'.sources.head?.map Source.messageId = some v.id

theorem readTaskPage_ok {ask : GetHistory → Except String Batch} (started : Started r q (q.start r))
    (read : readPage h r (q.start r) ask = .ok t) : readTaskPage h r q ask = .ok t := by
  obtain ⟨⟨_,_,from_,to_,order,_⟩,_⟩ := id started.valid
  have period : dateValid q.fromDate = true ∧ dateValid q.toDate = true ∧ q.fromDate ≤ q.toDate := by
    rw [← started.fromDate,← started.toDate]
    exact ⟨from_,to_,order⟩
  refine bind_eq_ok.mpr ⟨_,require_ok.mpr period,bind_eq_ok.mpr ⟨_,snapshotCheckpoint_ok started.valid,?_⟩⟩
  refine bind_eq_ok.mpr ⟨_,require_ok.mpr ⟨started.account,started.chat⟩,?_⟩
  exact bind_eq_ok.mpr ⟨_,require_ok.mpr ⟨started.fromDate,started.toDate,started.more⟩,read⟩

/-- What is left out of a page that says more is too much for it, and of the period. -/
theorem left_young {before : Checkpoint} {left : List RawMessage}
    (takes : PageTakes h r before batch t xs (v :: left) .more) : ∀ date, dated v = some date → before.fromDate ≤ date := by
  obtain ⟨empty,_⟩ | ⟨_,stops⟩ := takes.stops
  · rw [takes.split] at empty
    simp at empty
  · have same : ((openPage before batch).takeAll h r xs).position.fromDate = before.fromDate := by
      obtain ⟨a,b,c,d,e,f,position⟩ := takeAll_frame (h := h) (r := r) (openPage before batch) xs
      rw [position]
      rfl
    cases stops with
    | full v left p young => rwa [same] at young

/-- One page and those after it. -/
theorem readsOn_cons {k : Nat} {before : Checkpoint} {left newer later : List RawMessage}
 {newer' taken old : List RawMessage} (split_ : chat.messages = newer ++ (batch.messages ++ later))
    (cut : (askFor before).Cuts newer (batch.messages ++ later)) (emptied : batch.messages = [] → later = [])
    (answer : invoke k (askFor before) = .ok batch) (fits : Fits h r before.toDate batch)
    (takes : PageTakes h r before batch t xs left .more) (nonzero : t.nextCheckpoint.offsetId ≠ 0)
    (lower : t.nextCheckpoint.offsetId < before.ceiling) (above : ∀ v ∈ newer ++ xs.map Prod.fst, t.nextCheckpoint.offsetId ≤ v.id)
    (below : ∀ v ∈ left ++ later, v.id < t.nextCheckpoint.offsetId) (from_ : before.fromDate = fromDate)
    (on : ReadsOn chat fromDate invoke (k + 1) t.nextCheckpoint pages newer' taken old) :
    ReadsOn chat fromDate invoke k before (t :: pages) newer (xs.map Prod.fst ++ taken) old := by
  obtain ⟨same,_⟩ := takes_frame takes
  have sources := (takes_rows takes).2
  have cut' := on.cut
  have placed_ : (askFor t.nextCheckpoint).offsetId ≠ 0 := nonzero
  rw [GetHistory.Cuts,if_neg placed_] at cut'
  have split' : (newer ++ xs.map Prod.fst) ++ (left ++ later) = newer' ++ (taken ++ old) := by
    rw [← on.split,split_,takes.split]
    simp
  have rest := (cut_unique split' above below cut'.1 cut'.2).2
  have whole : batch.messages ++ later = xs.map Prod.fst ++ taken ++ old := by
    rw [takes.split,append_assoc,rest,append_assoc]
  refine ⟨by rw [split_,whole],by rw [← whole]; exact cut,?_,?_,on.older,?_,?_,?_,?_⟩
  · have head := taken_marks (h := h) (r := r) xs
    have tail := on.sources
    simp only [marks,rawMarks,flatMap_cons,map_append] at head tail ⊢
    rw [sources,head,tail]
  · intro v member
    obtain early | late := mem_append.mp member
    · obtain ⟨x,there,rfl⟩ := mem_map.mp early
      rw [← from_]
      exact (takes.each x there).2
    · exact on.young v late
  · rintro t' ⟨⟩
    refine ⟨same,fun v rest' first young => ?_⟩
    rw [sources]
    exact page_head fits takes emptied (whole.trans first) (by rw [from_]; exact young)
  · intro t' member
    obtain rfl | there := mem_cons.mp member
    · exact fun _ => ⟨nonzero,by rw [same]; exact lower⟩
    · exact on.lowers t' there
  · obtain ⟨last,is_,ended⟩ := on.ending
    refine ⟨last,?_,ended⟩
    rw [List.getLast?_cons,is_]
    rfl
  · intro j t₁ t₂ here next
    cases j with
    | zero =>
      obtain rfl : t = t₁ := Option.some.inj here
      have head : pages.head? = some t₂ := by
        rw [List.head?_eq_getElem?]
        exact next
      obtain ⟨linked,first⟩ := on.first t₂ head
      refine ⟨linked,fun batch' v asked out => ?_⟩
      rw [same,Nat.add_zero,answer] at asked
      cases asked
      have length : t.sources.length = (xs.map Prod.fst).length := by
        rw [sources,takenSources,length_map,length_map]
      rw [length,takes.split,List.getElem?_append_right (le_refl _),Nat.sub_self] at out
      cases left with
      | nil => cases out
      | cons u left =>
        have is_ : u = v := Option.some.inj out
        rw [← is_]
        refine first u (left ++ later) rest.symm ?_
        rw [← from_]
        exact left_young takes
    | succ j =>
      have step := on.linked j t₁ t₂ here next
      rw [Nat.add_right_comm] at step
      exact step

/-- From wherever the reading stands, the rest of the period is read in so many pages at most. -/
theorem traverse_on (account : userId r.accountId = true) (peer : groupId r.peerId = true) (serves : Serves h r chat toDate invoke)
    (fuel k : Nat) (checkpoint : Option Checkpoint)
    (standing : Standing chat ⟨fromDate,toDate,checkpoint⟩ (TaskRequest.start ⟨fromDate,toDate,checkpoint⟩ r))
    (enough : ∀ newer rest, chat.messages = newer ++ rest →
      (askFor (TaskRequest.start ⟨fromDate,toDate,checkpoint⟩ r)).Cuts newer rest → rest.length < fuel) :
    ∃ pages newer taken old, traverse h r fromDate toDate invoke fuel k checkpoint = .ok pages ∧
      ReadsOn chat fromDate invoke k (TaskRequest.start ⟨fromDate,toDate,checkpoint⟩ r) pages newer taken old := by
  induction fuel generalizing k checkpoint with
  | zero =>
    obtain ⟨batch,_,answers,_⟩ := serves k (TaskRequest.start ⟨fromDate,toDate,checkpoint⟩ r)
    obtain ⟨newer,later,split_,cut,_⟩ := answers.cut
    exact absurd (enough _ _ split_ cut) (Nat.not_lt_zero _)
  | succ fuel ih =>
    generalize begin_ : TaskRequest.start ⟨fromDate,toDate,checkpoint⟩ r = before at standing enough ⊢
    obtain ⟨batch,answer,answers,fits⟩ := serves k before
    have fits : Fits h r before.toDate batch := by
      rw [standing.started.toDate]
      exact fits
    obtain ⟨t,made⟩ := readBatch_total standing answers fits account peer
    obtain ⟨xs,left,status,takes⟩ := readBatch_takes made
    obtain ⟨newer,later,split_,cut,emptied⟩ := answers.cut
    have read : readTaskPage h r { fromDate := fromDate, toDate := toDate, checkpoint := checkpoint } (invoke k) = .ok t := by
      apply readTaskPage_ok
      · rw [begin_]
        exact standing.started
      · rw [begin_,readPage,answer]
        exact made
    have from_ : before.fromDate = fromDate := standing.started.fromDate
    by_cases more : t.nextCheckpoint.status = .more
    · have status_ : status = .more := (takes_frame takes).2.1.symm.trans more
      subst status_
      obtain ⟨standing',nonzero,lower,some_,above,below⟩ := more_standing standing split_ cut takes more
      have placed_ : (askFor t.nextCheckpoint).offsetId ≠ 0 := nonzero
      have fewer : ∀ newer' rest, chat.messages = newer' ++ rest → (askFor t.nextCheckpoint).Cuts newer' rest → rest.length < fuel := by
        intro newer' rest split' cut'
        rw [GetHistory.Cuts,if_neg placed_] at cut'
        have same : (newer ++ xs.map Prod.fst) ++ (left ++ later) = newer' ++ rest := by
          rw [← split',split_,takes.split]
          simp
        rw [← (cut_unique same above below cut'.1 cut'.2).2]
        have all := enough _ _ split_ cut
        have taken := length_pos_iff.mpr some_
        rw [takes.split,append_assoc,length_append,length_map] at all
        omega
      obtain ⟨pages,newer',taken,old,later_,on⟩ := ih (k + 1) (some t.nextCheckpoint) standing' fewer
      refine ⟨t :: pages,newer,xs.map Prod.fst ++ taken,old,?_,
        readsOn_cons split_ cut emptied answer fits takes nonzero lower above below from_ on⟩
      refine bind_eq_ok.mpr ⟨t,read,?_⟩
      rw [if_pos more]
      exact bind_eq_ok.mpr ⟨pages,later_,rfl⟩
    · obtain ⟨ended,older⟩ := over_older split_ emptied takes more
      obtain ⟨same,_⟩ := takes_frame takes
      have sources := (takes_rows takes).2
      rw [takes.split,append_assoc] at split_ cut
      refine ⟨[t],newer,xs.map Prod.fst,left ++ later,bind_eq_ok.mpr ⟨t,read,by rw [if_neg more]; rfl⟩,split_,cut,?_,?_,?_,?_,?_,
        ⟨t,rfl,ended⟩,?_⟩
      · rw [flatMap_singleton,sources]
        exact taken_marks xs
      · intro v member
        obtain ⟨x,there,rfl⟩ := mem_map.mp member
        rw [← from_]
        exact (takes.each x there).2
      · rw [← from_]
        exact older
      · rintro t' ⟨⟩
        refine ⟨same,fun v rest' first young => ?_⟩
        rw [sources]
        have first' : batch.messages ++ later = v :: rest' := by
          rw [takes.split,append_assoc]
          exact first
        exact page_head fits takes emptied first' (by rw [from_]; exact young)
      · intro t' member
        rw [mem_singleton.mp member]
        exact fun no => absurd no more
      · intro j t₁ t₂ _ next
        cases j <;> cases next

end Exact

/-- The sources of these pages are the messages of the period, a stretch of the chat. -/
structure ReadsPeriod {h : ReaderHost} {r : Reader} (chat : Chat h r) (fromDate toDate : Int) (sources : List Source) : Prop where
  descending : (sources.map Source.messageId).Pairwise (· > ·)
  every : ∀ v ∈ chat.messages, ∀ date, dated v = some date → fromDate ≤ date → date ≤ toDate →
    ∃ s ∈ sources, s.messageId = v.id ∧ s.date = some date
  only : ∀ s ∈ sources, ∃ v ∈ chat.messages, s.messageId = v.id ∧ s.date = dated v ∧
    ∀ date, dated v = some date → fromDate ≤ date ∧ date ≤ toDate
  stretch : ∃ newer taken old, chat.messages = newer ++ (taken ++ old) ∧ marks sources = rawMarks taken

section Period
variable {h : ReaderHost} {r : Reader} {chat : Chat h r} {fromDate toDate : Int}
  {invoke : Nat → GetHistory → Except String Batch}

theorem mem_marks {sources : List Source} {taken : List RawMessage} (same : marks sources = rawMarks taken) :
    (∀ s ∈ sources, ∃ v ∈ taken, s.messageId = v.id ∧ s.date = dated v) ∧ ∀ v ∈ taken, ∃ s ∈ sources, s.messageId = v.id ∧ s.date = dated v := by
  constructor
  · intro s member
    have there : (s.messageId,s.date) ∈ rawMarks taken := by
      rw [← same]
      exact mem_map_of_mem member
    obtain ⟨v,inside,is_⟩ := mem_map.mp there
    obtain ⟨id,date⟩ := Prod.mk.inj is_
    exact ⟨v,inside,id.symm,date.symm⟩
  · intro v member
    have there : (v.id,dated v) ∈ marks sources := by
      rw [same]
      exact mem_map_of_mem member
    obtain ⟨s,inside,is_⟩ := mem_map.mp there
    obtain ⟨id,date⟩ := Prod.mk.inj is_
    exact ⟨s,inside,id,date⟩

/-- What is read from the first checkpoint on is the period. -/
theorem readsOn_period {newer taken old : List RawMessage}
    (until_ : q.toDate = toDate) (on : ReadsOn chat fromDate invoke k (firstCheckpoint r q) pages newer taken old) :
    ReadsPeriod chat fromDate toDate (pages.flatMap TaskPage.sources) := by
  obtain ⟨each,all⟩ := mem_marks on.sources
  have zero : (askFor (firstCheckpoint r q)).offsetId = 0 := rfl
  have cut := on.cut
  rw [GetHistory.Cuts,if_pos zero] at cut
  have bound : (askFor (firstCheckpoint r q)).offsetDate = toDate + 1 := by
    rw [← until_]
    rfl
  rw [bound] at cut
  have ids := chat.descending
  have here := on.split
  have within_ : ∀ v ∈ taken, v ∈ chat.messages := fun v member => by
    rw [here]
    exact mem_append_right _ (mem_append_left _ member)
  rw [here,map_append,map_append,pairwise_append,pairwise_append] at ids
  refine ⟨?_,fun v member date is_ young early => ?_,fun s member => ?_,newer,taken,old,here,on.sources⟩
  · have same : (pages.flatMap TaskPage.sources).map Source.messageId = taken.map RawMessage.id := by
      have firsts := congrArg (List.map Prod.fst) on.sources
      simpa [marks,rawMarks,Function.comp_def] using firsts
    rw [same]
    exact ids.2.1.1
  · rw [here] at member
    obtain before | later := mem_append.mp member
    · have late := cut.1 v before date is_
      omega
    · obtain inside | after := mem_append.mp later
      · rw [← is_]
        exact all v inside
      · have old_ := on.older v after date is_
        omega
  · obtain ⟨v,inside,id,date⟩ := each s member
    refine ⟨v,within_ v inside,id,date,fun date' is_ => ⟨on.young v inside date' is_,?_⟩⟩
    have early := cut.2 v (mem_append_left _ inside) date' is_
    omega

theorem first_standing (account : userId r.accountId = true) (peer : groupId r.peerId = true)
    (from_ : dateValid q.fromDate = true) (to_ : dateValid q.toDate = true) (order : q.fromDate ≤ q.toDate) :
    Standing chat q (firstCheckpoint r q) := by
  refine ⟨⟨⟨⟨account,peer,from_,to_,order,to_,order,le_refl _,.inl rfl,rfl,rfl,rfl,rfl,rfl⟩,⟨rfl,rfl,fun _ => rfl⟩,⟨?_,?_⟩,?_,?_⟩,
    rfl,rfl,rfl,rfl,rfl⟩,fun no => absurd rfl no,le_refl _⟩
  · exact fun _ => ⟨rfl,rfl,rfl,rfl,fun no => absurd no.1 (by simp [firstCheckpoint])⟩
  · exact fun no => absurd rfl no
  · simp [firstCheckpoint]
  · exact fun _ => ⟨rfl,rfl,.inl rfl⟩

end Period

/-! One message, asked for twice. -/

def markedChat : Chat markedHost markedReader where
  messages := markedBatch.messages
  descending := by decide
  placed := by decide
  own := by decide
  dates := by simp [markedBatch]
  forwards v member := by
    rw [mem_singleton.mp member]
    exact ⟨none,rfl⟩

def serveMarked (_ : Nat) (ask : GetHistory) : Except String Batch :=
  .ok (if (if ask.offsetId = 0 then 1000 < ask.offsetDate else 5 < ask.offsetId) then markedBatch
    else { markedBatch with messages := [] })

theorem serveMarked_serves : Serves markedHost markedReader markedChat 2000 serveMarked := by
  intro k c
  have small : ∀ p, project markedHost markedReader markedBatch.users 2000 markedText = .ok p → sizeBytes p ≤ 60000 := by
    have all : (project markedHost markedReader markedBatch.users 2000 markedText).toOption.all (fun p => decide (sizeBytes p ≤ 60000)) =
        true := by
      decide +kernel
    intro p made
    rw [made] at all
    exact of_decide_eq_true all
  have fits : Fits markedHost markedReader 2000 markedBatch := by
    intro v member p made
    rw [mem_singleton.mp member] at made
    exact small p made
  by_cases reached : (if (askFor c).offsetId = 0 then 1000 < (askFor c).offsetDate else 5 < (askFor c).offsetId)
  · refine ⟨markedBatch,congrArg Except.ok (if_pos reached),⟨by decide,[],[],rfl,?_,fun _ => rfl⟩,fits⟩
    unfold GetHistory.Cuts
    by_cases zero : (askFor c).offsetId = 0
    · rw [if_pos zero] at reached ⊢
      refine ⟨fun v no => (by cases no),fun v member date is_ => ?_⟩
      rw [mem_singleton.mp member] at is_
      have same : date = 1000 := (Option.some.inj is_).symm
      omega
    · rw [if_neg zero] at reached ⊢
      refine ⟨fun v no => (by cases no),fun v member => ?_⟩
      rw [mem_singleton.mp member]
      exact reached
  · refine ⟨{ markedBatch with messages := [] },congrArg Except.ok (if_neg reached),⟨by decide,[markedText],[],rfl,?_,fun _ => rfl⟩,
      fun v no => by cases no⟩
    unfold GetHistory.Cuts
    by_cases zero : (askFor c).offsetId = 0
    · rw [if_pos zero] at reached ⊢
      refine ⟨fun v member date is_ => ?_,fun v no => by cases no⟩
      rw [mem_singleton.mp member] at is_
      have same : date = 1000 := (Option.some.inj is_).symm
      omega
    · rw [if_neg zero] at reached ⊢
      refine ⟨fun v member => ?_,fun v no => by cases no⟩
      rw [mem_singleton.mp member]
      exact not_lt.mp reached

end Neurobro.History
