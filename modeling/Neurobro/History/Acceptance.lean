import Neurobro.History.Storable

/-! The store takes the page that the reader returns, unless one of its rows would be shown
under a name of nothing but spaces. -/
namespace Neurobro.History

open Json Telegram List

section References
variable {h : ReaderHost} {r : Reader} {before : Checkpoint} {batch : Batch} {t : TaskPage} {xs : List Taken}
  {rest : List RawMessage} {status : Status}

/-- The messages that a message names: itself and the one it replies to. -/
def namedIds (v : RawMessage) : List Int := v.id :: (v.replyTo.map ReplyHeader.toMsgId).toList

/-- The references made for one batch are apart. -/
structure ReaderHost.Apart (h : ReaderHost) (r : Reader) (batch : Batch) : Prop where
  messages : ∀ a ∈ batch.messages.flatMap namedIds, ∀ b ∈ batch.messages.flatMap namedIds, messageRef h a = messageRef h b → a = b
  authors : ∀ a ∈ batch.messages.map (senderId h r), ∀ b ∈ batch.messages.map (senderId h r), label h "a" a = label h "a" b → a = b

theorem replyTarget_named {id : Int} (is_ : replyTarget h r v = some id) : id ∈ namedIds v := by
  unfold replyTarget at is_
  obtain ⟨reply,kept,rfl⟩ := Option.map_eq_some_iff.mp is_
  obtain ⟨there,_⟩ := Option.filter_eq_some_iff.mp kept
  simp [namedIds,there]

theorem taken_in (takes : PageTakes h r before batch t xs rest status) : ∀ x ∈ xs,
    TakenIn h r batch.users before (batch.messages.map (senderId h r)) (batch.messages.flatMap namedIds) x := by
  intro x member
  have here : x.1 ∈ batch.messages := by
    rw [takes.split]
    exact mem_append_left _ (mem_map_of_mem member)
  refine ⟨(takes.each x member).1,(takes.each x member).2,mem_map_of_mem here,?_,fun id is_ => ?_⟩
  · exact mem_flatMap.mpr ⟨x.1,here,mem_cons_self⟩
  · exact mem_flatMap.mpr ⟨x.1,here,replyTarget_named is_⟩

theorem takenRows_refs (made : ∀ x ∈ xs, project h r batch.users before.toDate x.1 = .ok x.2) :
    ((takenRows xs).map Message.ref).Sublist (xs.map fun x => messageRef h x.1.id) := by
  induction xs with
  | nil => exact .slnil
  | cons x xs ih =>
    have later := ih fun x member => made x (mem_cons_of_mem _ member)
    have head := made x mem_cons_self
    obtain ⟨v,p⟩ := x
    cases p with
    | left reason => exact .cons _ later
    | row authorId m =>
      obtain ⟨_,is_,_⟩ := (project_row head).row
      have named_ : m.ref = messageRef h v.id := by
        rw [is_]
        rfl
      simp only [takenRows,filterMap_cons,Projected.message?,map_cons,named_]
      exact .cons_cons _ later

/-- No two rows of a page have one reference. -/
theorem takenRows_apart (apart : h.Apart r batch) (takes : PageTakes h r before batch t xs rest status) :
    ((takenRows xs).map Message.ref).Nodup := by
  have inside := taken_in takes
  have ids := (orderly_below takes.order).1
  rw [takes.split,map_append,pairwise_append,map_map] at ids
  have distinct : (xs.map fun x => x.1.id).Nodup := ids.1.imp fun below same => by omega
  apply (takenRows_refs fun x member => (takes.each x member).1).nodup
  have mapped : (xs.map fun x => messageRef h x.1.id) = (xs.map fun x => x.1.id).map (messageRef h) := by simp
  rw [mapped]
  refine distinct.map_on fun a first b second same => ?_
  obtain ⟨x,there,rfl⟩ := mem_map.mp first
  obtain ⟨y,also_,rfl⟩ := mem_map.mp second
  exact apart.messages _ (inside x there).id _ (inside y also_).id same

theorem mem_takenRows : m ∈ takenRows xs ↔ ∃ v authorId, (v,Projected.row authorId m) ∈ xs := by
  unfold takenRows
  rw [mem_filterMap]
  constructor
  · rintro ⟨⟨v,p⟩,member,is_⟩
    cases p with
    | left reason => cases is_
    | row authorId m' =>
      cases is_
      exact ⟨v,authorId,member⟩
  · rintro ⟨v,authorId,member⟩
    exact ⟨_,member,rfl⟩

end References

/-! What was read, as a page. -/

section Assembly
variable {h : ReaderHost} {r : Reader} {before : Checkpoint} {batch : Batch} {t : TaskPage} {xs : List Taken}
  {rest : List RawMessage} {status : Status} {i : Intent}

theorem takes_status (takes : PageTakes h r before batch t xs rest status) :
    status ≠ .inaccessible ∧ (status = .emptyPage → xs = []) := by
  obtain ⟨empty,rfl⟩ | ⟨_,stops⟩ := takes.stops
  · have none_ := takes.split
    rw [empty] at none_
    obtain ⟨none_,_⟩ := append_eq_nil_iff.mp none_.symm
    exact ⟨by simp,fun _ => map_eq_nil_iff.mp none_⟩
  · cases stops <;> exact ⟨by simp,by simp⟩

/-- The new checkpoint is of the same traversal. -/
theorem takes_frame (takes : PageTakes h r before batch t xs rest status) :
    t.beforeCheckpoint = before ∧ t.nextCheckpoint.status = status ∧ t.nextCheckpoint.accountId = before.accountId ∧
      t.nextCheckpoint.chatId = before.chatId ∧ t.nextCheckpoint.fromDate = before.fromDate ∧
      t.nextCheckpoint.toDate = before.toDate ∧ t.nextCheckpoint.pages = before.pages + 1 ∧
      t.nextCheckpoint.inexact = (before.inexact || batch.inexact) := by
  obtain ⟨_,_,_,is_⟩ := finishPage_ok takes.made
  obtain ⟨a,b,c,d,e,f,position⟩ := takeAll_frame (h := h) (r := r) (openPage before batch) xs
  rw [is_,position]
  exact ⟨rfl,rfl,rfl,rfl,rfl,rfl,rfl,rfl⟩

theorem takes_reports (takes : PageTakes h r before batch t xs rest status) : t.page.Reports before t.nextCheckpoint := by
  obtain ⟨_,_,_,_,sameFrom,sameTo,_,inexact⟩ := takes_frame takes
  obtain ⟨_,_,_,is_⟩ := finishPage_ok takes.made
  have few : xs.length ≤ 100 := by
    have all := takes.few
    rw [takes.split,length_append,length_map] at all
    omega
  have start : (openPage before batch).excluded.Within 0 := by simp [openPage,Excluded.Within]
  have excluded := within_valid (takeAll_within (h := h) (r := r) start xs) (by omega)
  subst is_
  refine ⟨sameFrom,sameTo,rfl,rfl,rfl,rfl,rfl,rfl,rfl,?_,excluded⟩
  simp only [pageOf,coverageOf] at inexact ⊢
  rw [inexact]
  cases batch.inexact <;> simp

theorem takes_rows (takes : PageTakes h r before batch t xs rest status) :
    t.page.messages = (takenRows xs).reverse ∧ t.sources = takenSources h r xs := by
  obtain ⟨_,_,_,is_⟩ := finishPage_ok takes.made
  have messages := takeAll_messages (h := h) (r := r) (openPage before batch) xs
  have sources := takeAll_sources (h := h) (r := r) (openPage before batch) xs
  subst is_
  simp only [pageOf,messages,sources]
  exact ⟨by simp [openPage],by simp [openPage]⟩

theorem takes_adds (takes : PageTakes h r before batch t xs rest status) : t.Adds ((Walk.begin before).takeAll h r xs) := by
  obtain ⟨same,_,_,_,_,_,pages,_⟩ := takes_frame takes
  obtain ⟨rows,sources⟩ := takes_rows takes
  obtain ⟨moved,_,_,is_⟩ := finishPage_ok takes.made
  obtain ⟨placed,emptied⟩ := takes_status takes
  have begin_ : Agree (openPage before batch) (Walk.begin before) := ⟨rfl,rfl,rfl,rfl,rfl,rfl,rfl⟩
  obtain ⟨offset,lastDate,oldest,newest,undated,counts,included⟩ := takeAll_agree (h := h) (r := r) begin_ xs
  have upper := takeAll_upper (h := h) (r := r) (openPage before batch) xs
  have head : (takenSources h r xs).head?.map Source.messageId = xs.head?.map fun x => x.1.id := by
    cases xs with
    | nil => rfl
    | cons x xs => exact congrArg some (source_id x.1 x.2)
  have ending : t.nextCheckpoint.status = status := by
    rw [is_]
  refine ⟨?_,?_,?_,?_,?_,?_,?_,?_,?_,?_,?_,?_⟩
  · rw [← included,rows,map_reverse,takeAll_messages]
    simp [openPage]
  · rw [is_,← counts]
    rfl
  · rw [is_,← offset]
  · rw [is_,← lastDate]
  · rw [is_,← oldest]
  · rw [is_,← newest]
  · rw [is_,← undated]
  · rw [sources,head,same]
    rw [is_]
    exact upper
  · rw [same,pages,if_neg (by rw [ending]; exact placed)]
  · rintro ⟨more,none_⟩
    rw [ending] at more
    rw [sources] at none_
    have nothing : xs = [] := map_eq_nil_iff.mp none_
    subst nothing
    exact moved ⟨more,rfl⟩
  · rintro ⟨over_,some_⟩
    rw [ending] at over_
    rw [sources] at some_
    exact some_ (by rw [emptied (over_.resolve_right placed)]; rfl)
  · rintro ⟨gone,_⟩
    exact placed (ending.symm.trans gone)

theorem taken_source (lawful : h.Lawful) {x : Taken} (placed : messageIdValid x.1.id = true)
    (made : project h r users before.toDate x.1 = .ok x.2) : size numberText (sourceOf h r x.1 x.2).json ≤ 500 := by
  obtain ⟨v,p⟩ := x
  have date : (dated v).all dateValid = true := by
    cases is_ : dated v with
    | none => rfl
    | some date => exact (dated_some is_).2
  cases p with
  | left reason => exact source_size placed date (fun _ no => by cases no) (fun _ no => by cases no) rfl
  | row authorId m =>
    have row := project_row made
    refine source_size placed date ?_ ?_ ?_
    · intro ref is_
      obtain ⟨_,made_,_⟩ := row.row
      cases is_
      have ref := hexRef_size (messageRef_valid lawful v.id)
      rw [made_]
      exact Nat.le_of_eq ref
    · intro id is_
      cases is_
      have sure := row.sure
      simp only [unsure,Bool.or_eq_false_iff,Bool.not_eq_false'] at sure
      obtain user | group := (Bool.or_eq_true _ _).mp sure.1.1.1
      · have short := userId_size user
        omega
      · exact groupId_size (Bool.and_eq_true_iff.mp group).2
    · cases target : replyTarget h r v with
      | none => simp [sourceOf,target]
      | some id => simpa [sourceOf,target] using (replyTarget_valid target).1

/-- A task page is little more than its page. -/
theorem taskPage_size (small : byteLength t.page.json ≤ 65536) (few : t.sources.length ≤ 100)
    (sources : ∀ s ∈ t.sources, size numberText s.json ≤ 500) (before : t.beforeCheckpoint.Valid) (next : t.nextCheckpoint.Valid) :
    byteLength t.json ≤ maximumPageBytes := by
  have keys : keyRoom ["page","sources","beforeCheckpoint","nextCheckpoint"] ≤ 60 := by decide
  have each : ∀ item ∈ t.sources.map Source.json, size numberText item ≤ 500 := by
    intro item member
    obtain ⟨s,there,rfl⟩ := mem_map.mp member
    exact sources s there
  have items := itemSizes_le each
  rw [length_map] at items
  have n₁ := checkpoint_size before
  have n₂ := checkpoint_size next
  have n₃ : size numberText (.arr (t.sources.map Source.json)) ≤ 2 + itemSizes numberText (t.sources.map Source.json) :=
    size_arr _
  have limit : maximumPageBytes = 131072 := rfl
  rw [byteLength_eq] at small ⊢
  apply (size_obj _).trans
  simp only [map_cons,map_nil,fieldSizes]
  omega

/-- A page that was read is taken if its rows are in order. -/
theorem takes_taken (lawful : h.Lawful) (apart : h.Apart r batch) (valid : before.Valid) (more : before.status = .more)
    (own : before.accountId = r.accountId) (binds : before.Binds i) (takes : PageTakes h r before batch t xs rest status)
    (rows : ∀ m ∈ takenRows xs, m.Valid before) : snapshotPage i t = .ok t := by
  obtain ⟨same,_,account,chat,fromDate,toDate,_,inexact⟩ := takes_frame takes
  obtain ⟨messages,sources⟩ := takes_rows takes
  obtain ⟨_,small,next,_⟩ := finishPage_ok takes.made
  have inside := taken_in takes
  have refs := takenRows_apart apart takes
  have few : xs.length ≤ 100 := by
    have all := takes.few
    rw [takes.split,length_append,length_map] at all
    omega
  have short : (takenRows xs).length ≤ 100 := (length_filterMap_le _ _).trans few
  have nodup : (t.page.messages.map Message.ref).Nodup := by
    rw [messages,map_reverse,nodup_reverse]
    exact refs
  have known : Known h r (batch.messages.map (senderId h r)) (batch.messages.flatMap namedIds) (Walk.begin before) :=
    ⟨fun _ no => (by cases no),fun _ no => (by cases no),fun _ no => by cases no⟩
  have order := takes.order
  rw [takes.split] at order
  have run := run_takeAll (M := t.page.messages) (w := Walk.begin before) lawful own apart.authors known inside order
    fun x member authorId m is_ => rowOf_mem (by
      rw [messages,mem_reverse,mem_takenRows]
      exact ⟨x.1,authorId,by rw [← is_]; exact member⟩) nodup
  have sized : ∀ s ∈ t.sources, size numberText s.json ≤ 500 := by
    intro s member
    rw [sources] at member
    obtain ⟨x,there,rfl⟩ := mem_map.mp member
    have here : x.1 ∈ batch.messages := by
      rw [takes.split]
      exact mem_append_left _ (mem_map_of_mem there)
    exact taken_source lawful ((orderly_below takes.order).2 x.1 here).1 (inside x there).made
  have counted : t.sources.length ≤ 100 := by
    rw [sources,takenSources,length_map]
    exact few
  have valid' : t.beforeCheckpoint.Valid := by
    rw [same]
    exact valid
  refine snapshotPage_ok valid' next ?_ ?_ ?_ ⟨?_,?_⟩ nodup counted ?_ (known_repliesAgree (takeAll_known known inside) apart.messages)
    (takes_adds takes) ⟨small,taskPage_size small counted sized valid' next⟩
  · rw [same]
    refine ⟨more,account.symm,chat.symm,fromDate.symm,toDate.symm,?_⟩
    rintro ⟨once,never⟩
    rw [inexact,once] at never
    cases never
  · rw [same]
    exact binds
  · rw [same]
    exact takes_reports takes
  · rw [messages,length_reverse]
    exact short
  · intro m member
    rw [messages,mem_reverse] at member
    rw [same]
    exact rows m member
  · rw [same,sources]
    exact run

/-- A chat that cannot be read any more is no page, and is taken as it is. -/
theorem inaccessible_taken (valid : before.Valid) (more : before.status = .more) (binds : before.Binds i)
    (read : inaccessible before = .ok t) : snapshotPage i t = .ok t := by
  obtain ⟨next,taken,made⟩ := bind_ok read
  obtain ⟨_,valid_,same⟩ := bind_ok taken
  have valid_ := require_ok.mp valid_
  cases same
  cases made
  obtain ⟨⟨_,_,fromDate,toDate,_,_,_,_,_,oldest,newest,undated,pages,_⟩,_⟩ := id valid
  have excluded : (pageOf { position := before } .inaccessible false).excluded.Valid := by
    have none_ : Excluded.Within {} 0 := by simp [Excluded.Within]
    exact within_valid none_ (by omega)
  have small : byteLength (pageOf { position := before } .inaccessible false).json ≤ 65536 := by
    rw [byteLength_eq]
    have size_ := page_size (p := pageOf { position := before } .inaccessible false) fromDate toDate rfl
      ⟨natural_of_dates oldest,natural_of_dates newest,undated,pages⟩ excluded
    have none_ : (pageOf { position := before } .inaccessible false).messages = [] := rfl
    simp only [none_,map_nil,itemSizes] at size_
    omega
  refine snapshotPage_ok (w := Walk.begin before) valid valid_ ⟨more,rfl,rfl,rfl,rfl,?_⟩ binds ?_ ⟨?_,?_⟩ ?_ ?_ rfl
    ?_ ?_ ⟨small,taskPage_size small ?_ ?_ valid valid_⟩
  · rintro ⟨once,never⟩
    rw [once] at never
    cases never
  · exact ⟨rfl,rfl,rfl,rfl,rfl,rfl,rfl,rfl,rfl,rfl,excluded⟩
  · exact Nat.zero_le _
  · exact fun m no => by cases no
  · exact .nil
  · exact Nat.zero_le _
  · exact fun _ no => by cases no
  · refine ⟨rfl,rfl,rfl,rfl,rfl,rfl,rfl,?_,?_,?_,?_,?_⟩
    · simp
    · simp
    · simp
    · simp
    · simp
  · exact Nat.zero_le _
  · exact fun _ no => by cases no

end Assembly

/-! How far the reader gets. -/

section Reached
variable (h : ReaderHost) (r : Reader) (before : Checkpoint) (batch : Batch)

/-- What the row of a message takes, where it has one. -/
def rowBytes (v : RawMessage) : Nat := ((project h r batch.users before.toDate v).toOption.map sizeBytes).getD 0

def rowsBytes : List RawMessage → Nat
  | [] => 0
  | v :: rest => rowBytes h r before batch v + rowsBytes rest

/-- No message down to this one is older than the period, and their rows fit a page. -/
def ReachedIn (v : RawMessage) : Prop := ∃ early late, batch.messages = early ++ v :: late ∧
  (∀ u ∈ early ++ [v], ∀ date, dated u = some date → before.fromDate ≤ date) ∧ rowsBytes h r before batch (early ++ [v]) ≤ 60000

/-- No text of the page is by someone whose name is hollow. -/
def Nameable : Prop := ∀ v, ReachedIn h r before batch v → leftOut r before.toDate v = none →
  unsure r batch.users v (senderId h r v) = false → ¬HollowAuthor r (sender batch.users (senderId h r v)) (senderId h r v)

variable {h r before batch} {t : TaskPage} {xs : List Taken} {rest : List RawMessage} {status : Status}

@[simp] theorem rowsBytes_append (a b : List RawMessage) :
    rowsBytes h r before batch (a ++ b) = rowsBytes h r before batch a + rowsBytes h r before batch b := by
  induction a with
  | nil => simp [rowsBytes]
  | cons v a ih =>
    simp only [cons_append,rowsBytes,ih]
    omega

theorem rowBytes_made (made : project h r batch.users before.toDate v = .ok p) :
    rowBytes h r before batch v = sizeBytes p := by
  simp [rowBytes,made,Except.toOption]

theorem rowsBytes_taken (made : ∀ x ∈ xs, project h r batch.users before.toDate x.1 = .ok x.2) :
    rowsBytes h r before batch (xs.map Prod.fst) = takenBytes xs := by
  induction xs with
  | nil => rfl
  | cons x xs ih =>
    have later := ih fun x member => made x (mem_cons_of_mem _ member)
    simp only [map_cons,rowsBytes,takenBytes,later,rowBytes_made (made x mem_cons_self)]

/-- The reader does not stop before a message it gets to. -/
theorem stops_unreached (stops : Stops h r batch.users s rest status) (fromDate : s.position.fromDate = before.fromDate)
    (toDate : s.position.toDate = before.toDate) {mid late : List RawMessage} (is_ : rest = mid ++ v :: late)
    (young : ∀ u ∈ mid ++ [v], ∀ date, dated u = some date → before.fromDate ≤ date) :
    60000 < s.usedBytes + rowsBytes h r before batch (mid ++ [v]) := by
  have first : ∀ u below, rest = u :: below → u ∈ mid ++ [v] ∧ rowBytes h r before batch u ≤ rowsBytes h r before batch (mid ++ [v]) := by
    rintro u below rfl
    cases mid with
    | nil =>
      obtain ⟨rfl,_⟩ := List.cons.inj is_
      exact ⟨mem_singleton_self _,by simp [rowsBytes]⟩
    | cons w mid =>
      obtain ⟨rfl,_⟩ := List.cons.inj is_
      exact ⟨mem_cons_self,by simp [rowsBytes]⟩
  cases stops with
  | done => simp at is_
  | older u below date there old =>
    have late' := young u (first u below rfl).1 date there
    omega
  | full u below p _ made large =>
    rw [toDate] at made
    have room := (first u below rfl).2
    rw [rowBytes_made made] at room
    omega

theorem split_before {α : Type} {a b early late : List α} {v : α} (is_ : a ++ b = early ++ v :: late) :
    v ∈ a ∨ ∃ mid, early = a ++ mid ∧ b = mid ++ v :: late := by
  obtain ⟨mid,front,back⟩ | ⟨tail,front,back⟩ := append_eq_append_iff.mp is_
  · exact .inr ⟨mid,front,back⟩
  · cases tail with
    | nil => exact .inr ⟨[],by simpa using front.symm,back.symm⟩
    | cons u tail =>
      obtain ⟨rfl,_⟩ := List.cons.inj back
      exact .inl (by simp [front])

/-- The messages a page takes are those the reader gets to. -/
theorem reached_taken (takes : PageTakes h r before batch t xs rest status) {v : RawMessage} :
    ReachedIn h r before batch v ↔ v ∈ xs.map Prod.fst := by
  have made : ∀ x ∈ xs, project h r batch.users before.toDate x.1 = .ok x.2 := fun x member => (takes.each x member).1
  constructor
  · rintro ⟨early,late,is_,young,fits⟩
    rw [takes.split] at is_
    obtain taken | ⟨mid,rfl,rest_⟩ := split_before is_
    · exact taken
    · obtain ⟨empty,_⟩ | ⟨_,stops⟩ := takes.stops
      · rw [takes.split,rest_] at empty
        simp at empty
      · obtain ⟨a,b,c,d,e,f,position⟩ := takeAll_frame (h := h) (r := r) (openPage before batch) xs
        have large := stops_unreached stops (by rw [position]; rfl) (by rw [position]; rfl) rest_
          fun u member => young u (by rw [append_assoc]; exact mem_append_right _ member)
        have start : (openPage before batch).usedBytes = 0 := rfl
        rw [takeAll_usedBytes,start,← rowsBytes_taken made] at large
        rw [append_assoc,rowsBytes_append] at fits
        omega
  · intro member
    obtain ⟨x,there,rfl⟩ := mem_map.mp member
    obtain ⟨early,late,rfl⟩ := append_of_mem there
    refine ⟨early.map Prod.fst,late.map Prod.fst ++ rest,?_,?_,?_⟩
    · rw [takes.split]
      simp
    · intro u there date is_
      have inside : u ∈ (early ++ x :: late).map Prod.fst := by
        rw [map_append,map_cons,mem_append,mem_cons]
        exact (mem_append.mp there).imp_right fun last => .inl (mem_singleton.mp last)
      obtain ⟨y,here,rfl⟩ := mem_map.mp inside
      exact (takes.each y here).2 date is_
    · have all := rowsBytes_taken made
      have fits := takes.fits
      rw [← all,map_append,map_cons,← singleton_append,← append_assoc,rowsBytes_append] at fits
      omega

end Reached

/-! The reader and the store. -/

section Taken
variable {h : ReaderHost} {r : Reader} {i : Intent} {q : TaskRequest} {invoke : GetHistory → Except String Batch} {t : TaskPage}

/-- Where a request starts reading. -/
def TaskRequest.start (q : TaskRequest) (r : Reader) : Checkpoint := q.checkpoint.getD (firstCheckpoint r q)

/-- The checkpoint of a request that is read. -/
structure Started (r : Reader) (q : TaskRequest) (before : Checkpoint) : Prop where
  valid : before.Valid
  account : before.accountId = r.accountId
  chat : before.chatId = r.peerId
  fromDate : before.fromDate = q.fromDate
  toDate : before.toDate = q.toDate
  more : before.status = .more

theorem readTaskPage_started (read : readTaskPage h r q invoke = .ok t) :
    Started r q (q.start r) ∧ readPage h r (q.start r) invoke = .ok t := by
  unfold readTaskPage at read
  obtain ⟨_,_,read⟩ := bind_ok read
  obtain ⟨before,taken,read⟩ := bind_ok read
  obtain ⟨_,valid,same⟩ := bind_ok taken
  cases same
  obtain ⟨_,bound,read⟩ := bind_ok read
  obtain ⟨_,period,read⟩ := bind_ok read
  obtain ⟨account,chat⟩ := require_ok.mp bound
  obtain ⟨fromDate,toDate,more⟩ := require_ok.mp period
  exact ⟨⟨require_ok.mp valid,account,chat,fromDate,toDate,more⟩,read⟩

theorem rowOf_made
    (made : project h r users toDate v = .ok p) (kept : leftOut r toDate v = none)
    (sure : unsure r users v (senderId h r v) = false) : ∃ m, p = .row (senderId h r v) m := by
  unfold project at made
  rw [kept] at made
  simp only [sure] at made
  obtain ⟨forwarded,_,rest⟩ := bind_ok made
  cases rest
  exact ⟨_,rfl⟩

/-- The page of a batch is taken just when all its rows are named. -/
theorem readBatch_taken {before : Checkpoint} (lawful : h.Lawful) (apart : h.Apart r batch) (valid : before.Valid)
    (more : before.status = .more) (own : before.accountId = r.accountId) (binds : before.Binds i)
    (read : readBatch h r before batch = .ok t) : snapshotPage i t = .ok t ↔ Nameable h r before batch := by
  obtain ⟨xs,rest,status,takes⟩ := readBatch_takes read
  have same := (takes_frame takes).1
  have row : ∀ v authorId m, (v,Projected.row authorId m) ∈ xs → (m.Valid before ↔
      ¬HollowAuthor r (sender batch.users authorId) authorId) := fun v authorId m member =>
    row_valid lawful (project_row (takes.each _ member).1) ((takes.each _ member).2 _ (leftOut_dated
      (project_row (takes.each _ member).1).kept).1)
  constructor
  · intro taken v reached kept sure
    obtain ⟨x,member,rfl⟩ := mem_map.mp ((reached_taken takes).mp reached)
    obtain ⟨v,p⟩ := x
    have made : project h r batch.users before.toDate v = .ok p := (takes.each _ member).1
    obtain ⟨m,rfl⟩ := rowOf_made (v := v) made kept sure
    rw [← row v _ m member]
    have rows := snapshotPage_rows taken
    rw [(takes_rows takes).1,same] at rows
    exact rows m (mem_reverse.mpr (mem_takenRows.mpr ⟨v,_,member⟩))
  · intro nameable
    refine takes_taken lawful apart valid more own binds takes fun m member => ?_
    obtain ⟨v,authorId,there⟩ := mem_takenRows.mp member
    have made := project_row (takes.each _ there).1
    rw [row v authorId m there,made.author]
    refine nameable v ((reached_taken takes).mpr (mem_map_of_mem there)) made.kept ?_
    rw [← made.author]
    exact made.sure

theorem readTaskPage_taken (lawful : h.Lawful) (account : i.accountId = r.accountId) (chat : i.sourcePeerId = r.peerId)
    (fromDate : i.fromDate = q.fromDate) (toDate : i.toDate = q.toDate)
    (apart : ∀ batch, invoke (askFor (q.start r)) = .ok batch → h.Apart r batch) (read : readTaskPage h r q invoke = .ok t) :
    snapshotPage i t = .ok t ↔ ∀ batch, invoke (askFor (q.start r)) = .ok batch → Nameable h r (q.start r) batch := by
  obtain ⟨started,read⟩ := readTaskPage_started read
  have binds : (q.start r).Binds i := ⟨started.account.trans account.symm,started.chat.trans chat.symm,
    started.fromDate.trans fromDate.symm,started.toDate.trans toDate.symm⟩
  unfold readPage at read
  cases answer : invoke (askFor (q.start r)) with
  | ok batch =>
    rw [answer] at read
    rw [readBatch_taken lawful (apart batch answer) started.valid started.more started.account binds read]
    exact ⟨fun nameable batch' same => (by cases same; exact nameable),fun nameable => nameable batch rfl⟩
  | error code =>
    rw [answer] at read
    simp only at read
    split at read
    · have taken := inaccessible_taken started.valid started.more binds read
      exact ⟨fun _ batch no => (by cases no),fun _ => taken⟩
    · cases read

end Taken

/-! A user whose names are two replacement characters. -/

def markedHost : ReaderHost where
  digest text := String.ofList (List.replicate 64 (if text.toList.head? = some 'm' then '1' else '2'))
  getPeerId
    | .user id => id
    | .chat id => "-" ++ id
    | .channel id => "-100" ++ id

def markedReader : Reader := ⟨"7","-10042",true,false,by decide⟩

def markedIntent : Intent where
  taskId := "task"
  accountId := "7"
  chatId := "-10042"
  requesterId := "9"
  primaryMessageId := 3
  fromDate := 500
  toDate := 2000
  timezone := "UTC"
  objective := "read"
  source := none

def markedUser : RawUser where
  id := "8"
  firstName := some [0xFFFD]
  lastName := some [0xFFFD]

def markedText : RawMessage where
  kind := .message
  id := 5
  peerId := some (.channel "42")
  date := 1000
  fromId := some (.user "8")
  message := unitsOf "да"

def markedBatch : Batch := { messages := [markedText], users := [markedUser] }

def markedRequest : TaskRequest := { fromDate := 500, toDate := 2000 }

def readMarked : Except String TaskPage := readTaskPage markedHost markedReader markedRequest fun _ => .ok markedBatch

theorem markedHost_lawful : markedHost.Lawful := by
  intro text
  simp only [markedHost]
  split <;> exact (hexRef_ofList _ _ _).trans (by decide +kernel)

theorem markedBatch_apart : markedHost.Apart markedReader markedBatch := by
  have ids : markedBatch.messages.flatMap namedIds = [5] := rfl
  have authors : markedBatch.messages.map (senderId markedHost markedReader) = ["8"] := rfl
  constructor
  · rw [ids]
    intro a first b second _
    rw [mem_singleton.mp first,mem_singleton.mp second]
  · rw [authors]
    intro a first b second _
    rw [mem_singleton.mp first,mem_singleton.mp second]

theorem readMarked_page : ∃ t, readMarked = .ok t ∧ t.page.messages.map Message.displayName = [" "] := by
  have read : (readMarked.toOption.map fun t => t.page.messages.map Message.displayName) = some [" "] := by decide +kernel
  cases page : readMarked with
  | error e => rw [page] at read; cases read
  | ok t => rw [page] at read; exact ⟨t,rfl,Option.some.inj read⟩

/-- The reader returns a page that the store does not take. -/
theorem readTaskPage_refused : ¬∀ (h : ReaderHost) (r : Reader) (i : Intent) (q : TaskRequest)
    (invoke : GetHistory → Except String Batch) (t : TaskPage), h.Lawful → i.accountId = r.accountId →
      i.sourcePeerId = r.peerId → i.fromDate = q.fromDate → i.toDate = q.toDate →
      (∀ batch, invoke (askFor (q.start r)) = .ok batch → h.Apart r batch) → readTaskPage h r q invoke = .ok t →
      snapshotPage i t = .ok t := by
  intro always
  obtain ⟨t,read,named_⟩ := readMarked_page
  have apart : ∀ batch, (Except.ok markedBatch : Except String Batch) = .ok batch → markedHost.Apart markedReader batch := by
    rintro batch ⟨⟩
    exact markedBatch_apart
  have taken := always _ _ markedIntent _ _ t markedHost_lawful rfl rfl rfl rfl apart read
  have rows := snapshotPage_rows taken
  obtain ⟨m,only,display⟩ := map_eq_singleton_iff.mp named_
  have valid := (rows m (by rw [only]; exact mem_singleton_self m)).2.2.1
  rw [display] at valid
  revert valid
  decide

theorem readMarked_taken : ∃ t, readMarked = .ok t ∧
    (snapshotPage markedIntent t = .ok t ↔ ∀ batch, (Except.ok markedBatch : Except String Batch) = .ok batch →
      Nameable markedHost markedReader (markedRequest.start markedReader) batch) := by
  obtain ⟨t,read,_⟩ := readMarked_page
  have apart : ∀ batch, (Except.ok markedBatch : Except String Batch) = .ok batch → markedHost.Apart markedReader batch := by
    rintro batch ⟨⟩
    exact markedBatch_apart
  exact ⟨t,read,readTaskPage_taken markedHost_lawful rfl rfl rfl rfl apart read⟩

end Neurobro.History
