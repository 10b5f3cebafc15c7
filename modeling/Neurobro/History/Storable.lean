import Neurobro.History.Taking

/-! What the reader returns is what the store takes, but for a name of nothing but spaces. -/
namespace Neurobro.History

open Telegram List

section Rows
variable {h : ReaderHost} {r : Reader} {users : List RawUser} {before : Checkpoint} {v : RawMessage} {authorId : String} {m : Message}

theorem replyTarget_valid {id : Int} (is_ : replyTarget h r v = some id) : messageIdValid id = true ∧ id < v.id := by
  unfold replyTarget at is_
  obtain ⟨reply,kept,rfl⟩ := Option.map_eq_some_iff.mp is_
  obtain ⟨_,fine⟩ := Option.filter_eq_some_iff.mp kept
  simp only [Bool.and_eq_true,decide_eq_true_eq] at fine
  exact ⟨fine.1.1.2,fine.1.2⟩

/-- A row is in order unless its name is hollow. -/
theorem row_valid (lawful : h.Lawful) (row : RowOf h r users before.toDate v authorId m) (young : before.fromDate ≤ v.date) :
    m.Valid before ↔ ¬HollowAuthor r (sender users authorId) authorId := by
  obtain ⟨kept,sure,author,forwarded,is_,fine⟩ := row
  obtain ⟨_,date,late,text⟩ := leftOut_dated kept
  rw [← displayName_valid,author,is_]
  constructor
  · exact fun valid => valid.2.2.1
  · intro named_
    refine ⟨messageRef_valid lawful _,authorRef_valid lawful _,named_,date,young,late,?_,?_,?_,?_,fine⟩
    · simp only [rowFor]
      cases edited : v.editDate.filter fun date => dateValid date with
      | none => rfl
      | some date => exact (Option.filter_eq_some_iff.mp edited).2
    · simp only [rowFor]
      cases target : replyTarget h r v with
      | none => rfl
      | some id => exact messageRef_valid lawful id
    · simp only [rowFor]
      cases target : replyTarget h r v <;> simp
    · obtain ⟨whole,there,fine⟩ := (Option.any_eq_true _ _).mp text
      simp only [rowFor,there,Option.getD_some]
      exact fine

theorem row_matches (lawful : h.Lawful) (same : before.accountId = r.accountId)
    (row : RowOf h r users before.toDate v authorId m) : (sourceOf h r v (.row authorId m)).MatchesRow before authorId m := by
  obtain ⟨kept,sure,author,forwarded,is_,_⟩ := row
  obtain ⟨dated_,_,_,_⟩ := leftOut_dated kept
  have known : signedPeer authorId = true := by
    simp only [unsure,Bool.or_eq_false_iff,Bool.not_eq_false'] at sure
    obtain user | group := (Bool.or_eq_true _ _).mp sure.1.1.1
    · simp [signedPeer,user]
    · simp [signedPeer,(Bool.and_eq_true_iff.mp group).2]
  have self : m.author = .self ↔ authorId = before.accountId := by
    rw [same,is_,author]
    simp only [rowFor,authorOf]
    by_cases own : senderId h r v = r.accountId
    · simp [own]
    · simp only [own,decide_false,iff_false]
      rw [if_neg Bool.false_ne_true]
      split
      · simp
      · split
        · simp
        · split <;> simp
  refine ⟨known,?_,self,?_,?_,?_⟩
  · rw [is_]
    exact dated_
  · rintro ⟨own,other⟩
    have mine : authorId = before.accountId := by
      rw [is_] at own
      rw [same,author]
      exact authorRef_own lawful own
    obtain no | no := other
    · exact no (self.mpr mine)
    · exact no mine
  · rw [is_]
    simp [rowFor,sourceOf]
  · simp only [sourceOf]
    cases target : replyTarget h r v with
    | none => rfl
    | some id =>
      obtain ⟨valid,below⟩ := replyTarget_valid target
      simp [valid,below]

end Rows

/-! The walk of the store over the sources of the reader. -/

section Walking
variable (h : ReaderHost) (r : Reader)

/-- What the walk comes to with one message more. -/
def Walk.take (w : Walk) (x : Taken) : Walk :=
  match x.2 with
  | .left reason => { w.pass (sourceOf h r x.1 x.2) with counts := w.counts.count reason }
  | .row authorId m => (w.pass (sourceOf h r x.1 x.2)).include (sourceOf h r x.1 x.2) authorId m

def Walk.takeAll (w : Walk) (xs : List Taken) : Walk := xs.foldl (fun w x => w.take h r x) w

/-- Reader and store are at the same place. -/
structure Agree (s : Reading) (w : Walk) : Prop where
  offset : s.position.offsetId = w.offset
  lastDate : s.position.lastDate = w.lastDate
  oldest : s.position.oldestDate = w.oldest
  newest : s.position.newestDate = w.newest
  undated : s.position.undated = w.undated
  counts : s.excluded = w.counts
  included : s.messages.map Message.ref = w.included

variable {h r}

theorem pass_offset (w : Walk) (s : Source) : (w.pass s).offset = s.messageId := by
  unfold Walk.pass
  cases s.date <;> rfl

theorem pass_lastDate (w : Walk) (s : Source) : (w.pass s).lastDate = s.date.getD w.lastDate := by
  unfold Walk.pass
  cases s.date <;> rfl

theorem pass_same (w : Walk) (s : Source) : (w.pass s).counts = w.counts ∧ (w.pass s).included = w.included ∧
    (w.pass s).authors = w.authors ∧ (w.pass s).refs = w.refs ∧ (w.pass s).replies = w.replies := by
  unfold Walk.pass
  cases s.date <;> exact ⟨rfl,rfl,rfl,rfl,rfl⟩

theorem source_date (v : RawMessage) (p : Projected) : (sourceOf h r v p).date = dated v := by
  cases p <;> rfl

theorem source_id (v : RawMessage) (p : Projected) : (sourceOf h r v p).messageId = v.id := by
  cases p <;> rfl

theorem take_agree (agree : Agree s w) (x : Taken) : Agree (s.take h r x.1 x.2) (w.take h r x) := by
  obtain ⟨offset,lastDate,oldest,newest,undated,counts,included⟩ := agree
  obtain ⟨v,p⟩ := x
  cases p with
  | left reason =>
    cases date : dated v <;>
      (constructor <;>
        simp [Reading.take,Walk.take,Walk.pass,sourceOf,date,smaller,larger,lastDate,oldest,newest,undated,counts,included])
  | row authorId m =>
    cases date : dated v <;>
      (constructor <;>
        simp [Reading.take,Walk.take,Walk.pass,Walk.include,sourceOf,date,smaller,larger,lastDate,oldest,newest,undated,counts,
          included])

theorem takeAll_agree (agree : Agree s w) (xs : List Taken) : Agree (s.takeAll h r xs) (w.takeAll h r xs):= by
  induction xs generalizing s w with
  | nil => exact agree
  | cons x xs ih => exact ih (take_agree agree x)

theorem take_position (w : Walk) (x : Taken) : (w.take h r x).offset = x.1.id ∧
    (w.take h r x).lastDate = (dated x.1).getD w.lastDate := by
  obtain ⟨v,p⟩ := x
  have offset := pass_offset w (sourceOf h r v p)
  have last := pass_lastDate w (sourceOf h r v p)
  rw [source_id] at offset
  rw [source_date] at last
  cases p <;> exact ⟨offset,last⟩

/-- Everything the walk knows of authors and references comes from a row. -/
structure Known (h : ReaderHost) (r : Reader) (authors : List String) (ids : List Int) (w : Walk) : Prop where
  authors : ∀ p ∈ w.authors, p.1 ∈ authors ∧ p.2 = authorRef h r p.1
  refs : ∀ p ∈ w.refs, p.1 ∈ ids ∧ p.2 = messageRef h p.1
  replies : ∀ p ∈ w.replies, p.1 ∈ ids ∧ p.2 = messageRef h p.1

variable {users : List RawUser} {before : Checkpoint} {authors : List String} {ids : List Int} {M : List Message}

/-- A message as the reader took it, with its names among those of the batch. -/
structure TakenIn (h : ReaderHost) (r : Reader) (users : List RawUser) (before : Checkpoint) (authors : List String)
    (ids : List Int) (x : Taken) : Prop where
  made : project h r users before.toDate x.1 = .ok x.2
  young : ∀ date, dated x.1 = some date → before.fromDate ≤ date
  author : senderId h r x.1 ∈ authors
  id : x.1.id ∈ ids
  reply : ∀ id, replyTarget h r x.1 = some id → id ∈ ids

theorem take_known (known : Known h r authors ids w) (taken : TakenIn h r users before authors ids x) :
    Known h r authors ids (w.take h r x) := by
  obtain ⟨v,p⟩ := x
  obtain ⟨_,_,sameAuthors,sameRefs,sameReplies⟩ := pass_same w (sourceOf h r v p)
  cases p with
  | left reason =>
    refine ⟨?_,?_,?_⟩ <;> simp only [Walk.take]
    · rw [sameAuthors]
      exact known.authors
    · rw [sameRefs]
      exact known.refs
    · rw [sameReplies]
      exact known.replies
  | row authorId m =>
    obtain ⟨_,_,author,forwarded,is_,_⟩ := project_row taken.made
    refine ⟨fun p member => ?_,fun p member => ?_,fun p member => ?_⟩ <;> simp only [Walk.take,Walk.include] at member
    · obtain rfl | old := mem_cons.mp member
      · refine ⟨by rw [author]; exact taken.author,?_⟩
        rw [is_,author]
        rfl
      · rw [sameAuthors] at old
        exact known.authors p old
    · obtain rfl | old := mem_cons.mp member
      · refine ⟨taken.id,?_⟩
        rw [is_]
        rfl
      · rw [sameRefs] at old
        exact known.refs p old
    · obtain old | now := mem_append.mp member
      · rw [sameReplies] at old
        exact known.replies p old
      · cases target : replyTarget h r v with
        | none => simp [sourceOf,target] at now
        | some id =>
          simp only [is_,sourceOf,rowFor,target,Option.map_some,Option.bind_some,Option.toList_some,mem_singleton] at now
          rw [now]
          exact ⟨taken.reply id target,rfl⟩

theorem takeAll_known (known : Known h r authors ids w)
    (taken : ∀ x ∈ xs, TakenIn h r users before authors ids x) : Known h r authors ids (w.takeAll h r xs) := by
  induction xs generalizing w with
  | nil => exact known
  | cons x xs ih =>
    exact ih (take_known known (taken x mem_cons_self)) fun x member => taken x (mem_cons_of_mem _ member)

theorem step_take (lawful : h.Lawful) (same : before.accountId = r.accountId)
    (apart : ∀ a ∈ authors, ∀ b ∈ authors, label h "a" a = label h "a" b → a = b) (known : Known h r authors ids w)
 (taken : TakenIn h r users before authors ids x)
    (placed : messageIdValid x.1.id = true) (below : x.1.id < (if w.offset = 0 then 2147483648 else w.offset))
    (dates : ∀ date, dated x.1 = some date → date ≤ w.lastDate)
    (found : ∀ authorId m, x.2 = .row authorId m → rowOf M (some m.ref) = some m) :
    Walk.step before M w (sourceOf h r x.1 x.2) = .ok (w.take h r x) := by
  obtain ⟨v,p⟩ := x
  have follows : (sourceOf h r v p).Follows before w := by
    refine ⟨by rw [source_id]; exact placed,by rw [source_id]; exact below,?_⟩
    rw [source_date]
    cases date : dated v with
    | none => rfl
    | some date' =>
      have early := taken.young date' date
      have late := dates date' date
      simp [(dated_some date).2,early,late]
  unfold Walk.step
  rw [require_ok.mpr follows]
  cases p with
  | left reason =>
    obtain ⟨out,undated⟩ := project_left taken.made
    have whole : (sourceOf h r v (.left reason)).date.isSome = true ∨ (sourceOf h r v (.left reason)).disposition = .unavailable := by
      cases date : dated v with
      | none => exact .inr (undated date)
      | some date' => exact .inl (by simp [sourceOf,date])
    have bare : (sourceOf h r v (.left reason)).bare = true := rfl
    rw [require_ok.mpr whole,require_ok.mpr bare,if_neg (by simpa [sourceOf] using out)]
    rfl
  | row authorId m =>
    have row := project_row taken.made
    obtain ⟨dated_,_,_,_⟩ := leftOut_dated row.kept
    have whole : (sourceOf h r v (.row authorId m)).date.isSome = true ∨
        (sourceOf h r v (.row authorId m)).disposition = .unavailable := .inl (by simp [sourceOf,dated_])
    have agree : w.NamesAgree authorId m.authorRef := by
      have named_ : m.authorRef = authorRef h r authorId := by
        obtain ⟨_,_,author,forwarded,is_,_⟩ := row
        rw [is_,author]
        rfl
      have here : authorId ∈ authors := by
        rw [row.author]
        exact taken.author
      refine ⟨fun p member same_ => ?_,fun p member same_ => ?_⟩
      · rw [(known.authors p member).2,same_,named_]
      · rw [(known.authors p member).2,named_] at same_
        exact authorRef_apart lawful (apart _ (known.authors p member).1 _ here) same_
    have matches_ := row_matches lawful same row
    have there : rowOf M (sourceOf h r v (.row authorId m)).messageRef = some m := found authorId m rfl
    have author : (sourceOf h r v (.row authorId m)).authorId = some authorId := rfl
    have disposition : (sourceOf h r v (.row authorId m)).disposition = .included := rfl
    rw [require_ok.mpr whole]
    simp only [disposition,there,author,require_ok.mpr matches_,require_ok.mpr agree]
    rfl

/-- The store walks over the sources as the reader took them. -/
theorem run_takeAll (lawful : h.Lawful) (same : before.accountId = r.accountId)
    (apart : ∀ a ∈ authors, ∀ b ∈ authors, label h "a" a = label h "a" b → a = b) {rest : List RawMessage}
 (known : Known h r authors ids w) (taken : ∀ x ∈ xs, TakenIn h r users before authors ids x)
    (order : orderly h r (xs.map Prod.fst ++ rest) (if w.offset = 0 then 2147483648 else w.offset) w.lastDate = true)
    (found : ∀ x ∈ xs, ∀ authorId m, x.2 = .row authorId m → rowOf M (some m.ref) = some m) :
    (takenSources h r xs).foldlM (Walk.step before M) w = .ok (w.takeAll h r xs) := by
  induction xs generalizing w with
  | nil => rfl
  | cons x xs ih =>
    rw [map_cons,cons_append] at order
    obtain ⟨placed,below,dates,later⟩ := orderly_cons order
    have head := taken x mem_cons_self
    have step := step_take (M := M) lawful same apart known head placed below dates (found x mem_cons_self)
    obtain ⟨offset,last⟩ := take_position (h := h) (r := r) w x
    have positive : x.1.id ≠ 0 := by
      have valid := messageIdValid_iff.mp placed
      omega
    have rest_ := ih (take_known known head) (fun x member => taken x (mem_cons_of_mem _ member))
      (by rw [offset,last,if_neg positive]; exact later) fun x member => found x (mem_cons_of_mem _ member)
    have unfolded : takenSources h r (x :: xs) = sourceOf h r x.1 x.2 :: takenSources h r xs := rfl
    rw [unfolded,foldlM_cons,step]
    exact rest_

theorem known_repliesAgree (known : Known h r authors ids w)
    (apart : ∀ a ∈ ids, ∀ b ∈ ids, messageRef h a = messageRef h b → a = b) : w.RepliesAgree := by
  intro reply member
  obtain ⟨here,named_⟩ := known.replies reply member
  constructor
  · intro p found
    have same : p.1 = reply.1 := by simpa using List.find?_some found
    rw [(known.refs p (mem_of_find?_eq_some found)).2,named_,same]
  · intro p found
    have same : p.2 = reply.2 := by simpa using List.find?_some found
    obtain ⟨there,is_⟩ := known.refs p (mem_of_find?_eq_some found)
    exact apart _ there _ here (by rw [← is_,same,named_])

end Walking

/-! What the store asks of a page. -/

section Snapshot
variable {i : Intent} {t t' : TaskPage}

theorem snapshotCheckpoint_ok (valid : c.Valid) : snapshotCheckpoint c = .ok c :=
  bind_eq_ok.mpr ⟨_,require_ok.mpr valid,rfl⟩

/-- A page is taken that meets all of it. -/
theorem snapshotPage_ok (before : t.beforeCheckpoint.Valid) (next : t.nextCheckpoint.Valid)
    (continues : t.beforeCheckpoint.Continues t.nextCheckpoint) (binds : t.beforeCheckpoint.Binds i)
    (reports : t.page.Reports t.beforeCheckpoint t.nextCheckpoint)
    (rows : t.page.messages.length ≤ 100 ∧ ∀ m ∈ t.page.messages, m.Valid t.beforeCheckpoint)
    (refs : (t.page.messages.map Message.ref).Nodup) (few : t.sources.length ≤ 100)
    (run : Walk.run t.beforeCheckpoint t.page.messages t.sources = .ok w) (agree : w.RepliesAgree) (adds : t.Adds w)
    (small : byteLength t.page.json ≤ 65536 ∧ byteLength t.json ≤ maximumPageBytes) : snapshotPage i t = .ok t := by
  unfold snapshotPage
  refine bind_eq_ok.mpr ⟨_,snapshotCheckpoint_ok before,bind_eq_ok.mpr ⟨_,snapshotCheckpoint_ok next,?_⟩⟩
  refine bind_eq_ok.mpr ⟨_,require_ok.mpr continues,bind_eq_ok.mpr ⟨_,require_ok.mpr binds,?_⟩⟩
  refine bind_eq_ok.mpr ⟨_,require_ok.mpr reports,bind_eq_ok.mpr ⟨_,require_ok.mpr rows,?_⟩⟩
  refine bind_eq_ok.mpr ⟨_,require_ok.mpr refs,bind_eq_ok.mpr ⟨_,require_ok.mpr few,?_⟩⟩
  refine bind_eq_ok.mpr ⟨w,run,bind_eq_ok.mpr ⟨_,require_ok.mpr agree,?_⟩⟩
  exact bind_eq_ok.mpr ⟨_,require_ok.mpr adds,bind_eq_ok.mpr ⟨_,require_ok.mpr small,rfl⟩⟩

/-- The rows of what is kept are in order. -/
theorem snapshotPage_rows (taken : snapshotPage i t = .ok t') : ∀ m ∈ t.page.messages, m.Valid t.beforeCheckpoint := by
  unfold snapshotPage snapshotCheckpoint at taken
  obtain ⟨before,made,taken⟩ := bind_ok taken
  obtain ⟨_,_,same⟩ := bind_ok made
  cases same
  obtain ⟨_,_,taken⟩ := bind_ok taken
  obtain ⟨_,_,taken⟩ := bind_ok taken
  obtain ⟨_,_,taken⟩ := bind_ok taken
  obtain ⟨_,_,taken⟩ := bind_ok taken
  obtain ⟨_,rows,_⟩ := bind_ok taken
  exact (require_ok.mp rows).2

/-- A row is found by its reference. -/
theorem rowOf_mem {M : List Message} (member : m ∈ M) (apart : (M.map Message.ref).Nodup) :
    rowOf M (some m.ref) = some m := by
  induction M with
  | nil => cases member
  | cons m' M ih =>
    rw [map_cons,nodup_cons] at apart
    obtain rfl | there := mem_cons.mp member
    · simp [rowOf]
    · have other : m'.ref ≠ m.ref := fun same => apart.1 (by rw [same]; exact mem_map_of_mem there)
      have later := ih there apart.2
      simp only [rowOf,Option.bind_some] at later ⊢
      rw [List.find?_cons_of_neg (by simpa using other),later]

end Snapshot

/-! The counts of what was left out. -/

def Excluded.Within (x : Excluded) (n : Int) : Prop :=
  (0 ≤ x.nonText ∧ x.nonText ≤ n) ∧ (0 ≤ x.invalidText ∧ x.invalidText ≤ n) ∧ (0 ≤ x.unavailable ∧ x.unavailable ≤ n) ∧
    0 ≤ x.outsidePeriod ∧ x.outsidePeriod ≤ n

theorem count_within {x : Excluded} (within_ : x.Within n) (reason : Disposition) : (x.count reason).Within (n + 1) := by
  cases reason <;> simp only [Excluded.Within,Excluded.count] at * <;> omega

theorem within_valid {x : Excluded} (within_ : x.Within n) (few : n ≤ 100) : x.Valid := by
  simp only [Excluded.Within] at within_
  simp only [Excluded.Valid,natural_iff]
  omega

theorem takeAll_within {s : Reading} (within_ : s.excluded.Within n) (xs : List Taken) :
    (s.takeAll h r xs).excluded.Within (n + xs.length) := by
  induction xs generalizing s n with
  | nil => simpa using within_
  | cons x xs ih =>
    have head : (s.take h r x.1 x.2).excluded.Within (n + 1) := by
      obtain ⟨v,p⟩ := x
      cases p with
      | left reason => exact count_within within_ reason
      | row authorId m =>
        simp only [Reading.take,Excluded.Within] at *
        omega
    have all := ih head
    rw [takeAll_cons,length_cons]
    have same : n + 1 + (xs.length : Int) = n + ((xs.length + 1 : Nat) : Int) := by omega
    rw [← same]
    exact all

end Neurobro.History
