import Neurobro.Projection.Source

/-! The end that is chosen is the greatest one that fits: the sizes that are counted row by
row are those of the fragments, and they grow with the end. -/
namespace Neurobro.Projection

open Telegram History Json List

theorem jsonBytes_eq (value : Json) : jsonBytes value = size JsonText.decimal value := by
  unfold size jsonBytes
  rfl

/-! Sizes of the parts. -/

section Parts
variable {render : Rat → String}

@[simp] theorem size_null : size render .null = 4 := by
  unfold size
  rfl

@[simp] theorem size_true : size render (.bool true) = 4 := by
  unfold size
  rfl

@[simp] theorem size_false : size render (.bool false) = 5 := by
  unfold size
  rfl

theorem size_obj_cons (f : String × Json) (fields : List (String × Json)) :
    size render (.obj (f :: fields)) = memberSizes render (f :: fields) + 1 := by
  rw [size_obj_eq,memberSizes]
  omega

theorem size_str_ge (render : Rat → String) (s : String) : 2 ≤ size render (.str s) := by
  have mark : charBytes ['"'] = 1 := by decide
  rw [size,stringify,quote,utf8ByteSize_ofList,charBytes_append,charBytes_append,mark]
  omega

/-- A mark and plain characters. -/
theorem marked_size {mark code : String} (plain : ∀ c ∈ mark.toList, plainChar c = true) (coded : ∀ c ∈ code.toList, plainChar c = true) :
    size render (.str (mark ++ code)) = mark.toList.length + code.toList.length + 2 := by
  rw [size_plain]
  · rw [String.toList_append,length_append]
  · intro c member
    rw [String.toList_append,mem_append] at member
    exact member.elim (plain c) (coded c)

theorem size_nat (n : Nat) : size JsonText.decimal (int n) = (Nat.toDigits 10 n).length := by
  have text : JsonText.decimal ((n : Int) : Rat) = n.repr := by
    simp only [JsonText.decimal,Rat.num_intCast]
    rfl
  rw [size,int,stringify,numberJson,text,utf8ByteSize_toList,charBytes_plain (digits_plain n),Nat.toList_repr]

/-- A greater number has no fewer digits. -/
theorem digits_mono (le : n ≤ m) : (Nat.toDigits 10 n).length ≤ (Nat.toDigits 10 m).length := by
  apply (Nat.length_toDigits_le_iff (by omega) (length_pos_iff.mpr Nat.toDigits_ne_nil)).mpr
  exact Nat.lt_of_le_of_lt le ((Nat.length_toDigits_le_iff (by omega) (length_pos_iff.mpr Nat.toDigits_ne_nil)).mp (Nat.le_refl _))

theorem token_size {mac : String} (plain : ∀ c ∈ mac.toList, plainChar c = true) (long : mac.toList.length = 48) :
    size render (.str (writeToken "hpos_" [n] mac)) = (Nat.toDigits 10 n).length + 56 := by
  have mark : ∀ c ∈ "hpos_".toList, plainChar c = true := all_eq_true.mp (by decide)
  have bar : ∀ c ∈ "_".toList, plainChar c = true := all_eq_true.mp (by decide)
  have rest : ∀ c ∈ (n.repr ++ "_" ++ mac).toList, plainChar c = true := by
    intro c member
    simp only [String.toList_append,mem_append] at member
    rcases member with (digit | bar_) | code
    · exact digits_plain n c digit
    · exact bar c bar_
    · exact plain c code
  have lengths : "hpos_".toList.length = 5 ∧ "_".toList.length = 1 := by decide
  rw [writeToken,foldr_cons,foldr_nil,marked_size mark rest]
  simp only [String.toList_append,length_append,Nat.toList_repr,long,lengths]
  omega

end Parts

theorem zeros_toList : zeros.toList = List.replicate 48 '0' := String.toList_ofList

theorem zeros_plain : ∀ c ∈ zeros.toList, plainChar c = true := by
  intro c member
  rw [zeros_toList] at member
  rw [eq_of_mem_replicate member]
  rfl

theorem zeros_length : zeros.toList.length = 48 := by rw [zeros_toList,length_replicate]

/-! Rows. -/

/-- The rows as they are made: both names are a mark and a code, and no reply is there yet. -/
structure Fresh (row : SourceRow) : Prop where
  large : 160 ≤ jsonBytes row.json
  unmarked : row.mark [] = row

/-- The mark of a reply that is there is one byte shorter. -/
theorem flag_size (row : IncludedRow) (shown : Bool) : jsonBytes (SourceRow.included { row with replyContentAvailable := shown }).json +
    (if shown then 1 else 0) = jsonBytes (SourceRow.included { row with replyContentAvailable := false }).json := by
  cases shown with
  | false => rw [if_neg (by decide),Nat.add_zero]
  | true =>
    simp only [jsonBytes_eq,SourceRow.json,cons_append,size_obj_cons,memberSizes_append,memberSizes,size_false,size_true,if_true]
    omega

theorem mark_bytes {row : SourceRow} (fresh : row.mark [] = row) (refs : List String) :
    (jsonBytes (row.mark refs).json : Int) = jsonBytes row.json - if row.replyRef.any refs.contains then 1 else 0 := by
  cases row with
  | omitted => simp [SourceRow.mark,SourceRow.replyRef]
  | included row =>
    have off : { row with replyContentAvailable := false } = row := by
      simp only [SourceRow.mark,SourceRow.included.injEq] at fresh
      rw [← fresh]
      cases row.replySourceRef <;> rfl
    have size := flag_size row (row.replySourceRef.any refs.contains)
    rw [off] at size
    have reply : (SourceRow.included row).replyRef = row.replySourceRef := rfl
    rw [reply,SourceRow.mark]
    by_cases there : row.replySourceRef.any refs.contains = true
    · rw [if_pos there] at size ⊢
      omega
    · rw [if_neg there] at size ⊢
      omega

/-- What rows take when they are written, each with a comma, and replies to some rows are marked. -/
def shown (refs : List String) (rows : List SourceRow) : Nat :=
  itemSizes JsonText.decimal ((rows.map (SourceRow.mark refs)).map SourceRow.json)

def countReplies (ref : String) (rows : List SourceRow) : Nat := rows.countP fun row => decide (row.replyRef = some ref)

theorem shown_cons (refs : List String) (row : SourceRow) (rows : List SourceRow) :
    shown refs (row :: rows) = jsonBytes (row.mark refs).json + 1 + shown refs rows := by
  simp only [shown,map_cons,itemSizes,jsonBytes_eq]

theorem shown_concat (refs : List String) (rows : List SourceRow) (row : SourceRow) :
    shown refs (rows ++ [row]) = shown refs rows + (jsonBytes (row.mark refs).json + 1) := by
  simp only [shown,map_append,itemSizes_append,map_cons,map_nil,itemSizes,jsonBytes_eq,Nat.add_zero]

theorem mark_congr (same : ∀ ref, ref ∈ refs' ↔ ref ∈ refs) (row : SourceRow) : row.mark refs' = row.mark refs:= by
  have contains : refs'.contains = refs.contains := by
    funext ref
    rw [Bool.eq_iff_iff]
    simpa using same ref
  cases row <;> simp only [SourceRow.mark,contains]

theorem shown_congr (same : ∀ ref, ref ∈ refs' ↔ ref ∈ refs) (rows : List SourceRow) :
    shown refs' rows = shown refs rows := by
  simp only [shown,funext (mark_congr same)]

/-- With one more row there to be replied to, every reply to it shrinks by a byte. -/
theorem shown_arrive (new : ref ∉ refs)
    (more : ∀ other, other ∈ refs' ↔ other = ref ∨ other ∈ refs) (fresh : ∀ row ∈ rows, row.mark [] = row) :
    (shown refs' rows : Int) = shown refs rows - countReplies ref rows := by
  induction rows with
  | nil => simp [shown,countReplies,itemSizes]
  | cons row rows ih =>
    simp only [forall_mem_cons] at fresh
    have rest := ih fresh.2
    have before := mark_bytes fresh.1 refs
    have after := mark_bytes fresh.1 refs'
    have here : (if row.replyRef.any refs'.contains = true then 1 else 0 : Int) =
        (if row.replyRef.any refs.contains = true then 1 else 0) + if decide (row.replyRef = some ref) = true then 1 else 0 := by
      cases row.replyRef with
      | none => simp
      | some reply =>
        by_cases is_ : reply = ref
        · subst is_
          simp [more,new]
        · simp [more,is_]
    simp only [shown_cons,countReplies,countP_cons] at rest ⊢
    push_cast
    omega

/-! The rows that were counted. -/

/-- The tally is that of the rows. -/
structure Counts (rows : List SourceRow) (t : Tally) : Prop where
  available : ∀ ref, ref ∈ t.available ↔ ref ∈ includedRefs rows
  waiting : ∀ ref, ref ∉ t.available → t.waitingFor ref = -(countReplies ref rows : Int)
  bytes : t.rowsBytes = shown (includedRefs rows) rows - (if rows = [] then 0 else 1)

theorem counts_nil : Counts [] {} where
  available _ := by simp [includedRefs]
  waiting _ _ := by simp [Tally.waitingFor,Keyed.get,countReplies]
  bytes := by simp [shown,itemSizes]

theorem includedRefs_concat (rows : List SourceRow) (row : SourceRow) :
    includedRefs (rows ++ [row]) = includedRefs rows ++ row.includedRef.toList := by
  cases is_ : row.includedRef <;> simp [includedRefs,is_]

theorem waitingFor_arrive {t : Tally} {ref other : String} (apart : other ≠ ref) :
    (t.arrive ref).waitingFor other = t.waitingFor other := by
  unfold Tally.arrive
  split
  · rfl
  · simp only [Tally.waitingFor,Keyed.get_delete apart]

theorem available_arrive {t : Tally} {ref other : String} :
    other ∈ (t.arrive ref).available ↔ other = ref ∨ other ∈ t.available := by
  unfold Tally.arrive
  split
  case isTrue there =>
    constructor
    · exact .inr
    · rintro (rfl | old)
      · simpa using there
      · exact old
  case isFalse => simp

theorem waitingFor_await {t : Tally} {ref other : String} :
    (t.await ref delta).waitingFor other = t.waitingFor other + if other = ref then delta else 0 := by
  by_cases same : other = ref
  · subst same
    simp [Tally.await,Tally.waitingFor,Keyed.get]
  · have apart : ref ≠ other := fun is_ => same is_.symm
    have skipped : Keyed.get Prod.fst other ((ref,t.waitingFor ref + delta) :: Keyed.delete Prod.fst ref t.waiting) =
        Keyed.get Prod.fst other t.waiting := by
      rw [Keyed.get_cons_other apart,Keyed.get_delete same]
    rw [Tally.await,Tally.waitingFor,skipped,if_neg same,Int.add_zero,Tally.waitingFor]

/-- Once a row is there, what waited for it has shrunk. -/
theorem arrive_bytes {row : SourceRow} (counted : Counts rows t)
    (fresh : ∀ row ∈ rows, row.mark [] = row) (is_ : row.includedRef = some ref) :
    (t.arrive ref).rowsBytes = shown (includedRefs (rows ++ [row])) rows - (if rows = [] then 0 else 1) := by
  have refs (other : String) : other ∈ includedRefs (rows ++ [row]) ↔ other = ref ∨ other ∈ includedRefs rows := by
    simp [includedRefs_concat,is_,or_comm]
  unfold Tally.arrive
  by_cases there : t.available.contains ref = true
  · have known : ref ∈ includedRefs rows := (counted.available ref).mp (by simpa using there)
    have same (other : String) : other ∈ includedRefs (rows ++ [row]) ↔ other ∈ includedRefs rows := by
      rw [refs other]
      exact ⟨fun in_ => in_.elim (fun same => same ▸ known) fun old => old,.inr⟩
    rw [if_pos there,counted.bytes,shown_congr same]
  · have missing : ref ∉ t.available := by simpa using there
    have waits := counted.waiting ref missing
    have counted_ := counted.bytes
    have new : ref ∉ includedRefs rows := fun in_ => missing ((counted.available ref).mpr in_)
    have shrunk := shown_arrive new refs fresh
    rw [if_neg there]
    simp only [waits,counted_,shrunk]
    omega

theorem countReplies_concat (ref : String) (rows : List SourceRow) (row : SourceRow) :
    countReplies ref (rows ++ [row]) = countReplies ref rows + if row.replyRef = some ref then 1 else 0 := by
  by_cases here : row.replyRef = some ref <;> simp [countReplies,countP_append,countP_cons,here]

theorem countReplies_other {row : SourceRow} (apart : row.replyRef ≠ some ref) (rows : List SourceRow) :
    countReplies ref (rows ++ [row]) = countReplies ref rows := by
  rw [countReplies_concat,if_neg apart,Nat.add_zero]

theorem counts_step {rows : List SourceRow} {row : SourceRow} (counted : Counts rows t)
    (fresh : ∀ row ∈ rows, row.mark [] = row) (new : row.mark [] = row) :
    Counts (rows ++ [row]) (t.step (if rows = [] then 0 else 1) row) := by
  have marked := mark_bytes new (includedRefs (rows ++ [row]))
  have whole : (shown (includedRefs (rows ++ [row])) (rows ++ [row]) : Int) =
      shown (includedRefs (rows ++ [row])) rows + (jsonBytes (row.mark (includedRefs (rows ++ [row]))).json + 1) := by
    rw [shown_concat]
    push_cast
    rfl
  have longer : rows ++ [row] ≠ [] := by simp
  cases is_ : row.includedRef with
  | none =>
    have none_ : row.replyRef = none := by
      cases row with
      | omitted => rfl
      | included => cases is_
    simp only [Tally.step,is_]
    have same : includedRefs (rows ++ [row]) = includedRefs rows := by simp [includedRefs_concat,is_]
    refine ⟨fun ref => ?_,fun ref absent => ?_,?_⟩
    · rw [same]
      exact counted.available ref
    · rw [countReplies_other (by simp [none_])]
      exact counted.waiting ref absent
    · have before := counted.bytes
      rw [same] at marked whole ⊢
      simp only [none_,Option.any_none,Bool.false_eq_true,if_false] at marked
      simp only [Tally.add,rowSizes,whole,marked,before,if_neg longer]
      omega
  | some ref =>
    have arrived := arrive_bytes counted fresh is_
    have available (other : String) : other ∈ (t.arrive ref).available ↔ other ∈ includedRefs (rows ++ [row]) := by
      rw [available_arrive,counted.available other,includedRefs_concat,is_]
      simp [or_comm]
    have waiting (other : String) (absent : other ∉ (t.arrive ref).available) :
        (t.arrive ref).waitingFor other = -(countReplies other rows : Int) := by
      rw [available_arrive,not_or] at absent
      rw [waitingFor_arrive absent.1,counted.waiting other absent.2]
    cases reply_ : row.replyRef with
    | none =>
      simp only [Tally.step,is_,reply_]
      refine ⟨available,fun other absent => ?_,?_⟩
      · rw [countReplies_other (by simp [reply_])]
        exact waiting other absent
      · simp only [reply_,Option.any_none,Bool.false_eq_true,if_false] at marked
        simp only [Tally.add,rowSizes,whole,marked,arrived,if_neg longer]
        omega
    | some reply =>
      simp only [Tally.step,is_,reply_]
      by_cases there : (t.arrive ref).available.contains reply = true
      · have shown_ : (includedRefs (rows ++ [row])).contains reply = true := by
          simpa using (available reply).mp (by simpa using there)
        rw [if_pos there]
        refine ⟨available,fun other absent => ?_,?_⟩
        · have in_ : reply ∈ (t.arrive ref).available := by simpa using there
          have apart : reply ≠ other := fun same => absent (same ▸ in_)
          rw [countReplies_other (by simpa [reply_] using apart)]
          exact waiting other absent
        · simp only [reply_,Option.any_some,shown_,if_true] at marked
          simp only [Tally.add,rowSizes,reply_,Option.isNone_some,Bool.false_eq_true,if_false,whole,marked,arrived,if_neg longer]
          omega
      · have hidden : (includedRefs (rows ++ [row])).contains reply = false := by
          have absent : reply ∉ includedRefs (rows ++ [row]) := fun in_ => there (by simpa using (available reply).mpr in_)
          simpa using absent
        rw [if_neg there]
        refine ⟨available,fun other absent => ?_,?_⟩
        · have before := waiting other absent
          rw [waitingFor_await]
          have delta : (rowSizes row).available - (rowSizes row).unavailable = -1 := by
            simp only [rowSizes,reply_,Option.isNone_some,Bool.false_eq_true,if_false]
            omega
          have kept : ((t.arrive ref).add ((if rows = [] then 0 else 1) + (rowSizes row).unavailable)).waitingFor other =
            (t.arrive ref).waitingFor other := rfl
          rw [kept,before,delta]
          by_cases same : other = reply
          · rw [if_pos same,countReplies_concat,if_pos (by rw [reply_,same])]
            omega
          · have apart : row.replyRef ≠ some other := fun is_ => same (Option.some.inj (reply_.symm.trans is_)).symm
            rw [if_neg same,countReplies_other apart,Int.add_zero]
        · simp only [reply_,Option.any_some,hidden,Bool.false_eq_true,if_false] at marked
          simp only [Tally.await,Tally.add,rowSizes,whole,marked,arrived,if_neg longer]
          omega

/-! The sizes of fragments. -/

section
variable (h : Host) (r : Request)

/-- What of a fragment's size depends on its end. -/
def movable (total stop : Nat) (rows : List SourceRow) (materialRef : String) (nextPosition : Option String) (returned : Nat) : Nat :=
  size JsonText.decimal (.str materialRef) + size JsonText.decimal (.arr (rows.map SourceRow.json)) +
    size JsonText.decimal (int stop) + size JsonText.decimal (nullable .str nextPosition) +
    size JsonText.decimal (int returned) + size JsonText.decimal (.bool (decide (stop = total)))

/-- The rest is the same for every end. -/
theorem assemble_size (start total stop stop' : Nat) (rows rows' : List SourceRow) (ref ref' : String) (next next' : Option String)
    (returned returned' : Nat) : jsonBytes (assembleFragment r start total stop rows ref next returned).json +
      movable total stop' rows' ref' next' returned' =
    jsonBytes (assembleFragment r start total stop' rows' ref' next' returned').json + movable total stop rows ref next returned := by
  simp only [jsonBytes_eq,Fragment.json,assembleFragment,cons_append,size_obj_cons,memberSizes_append,memberSizes,movable]
  omega

theorem mac_plain_ (kind : String) (material : Json) : ∀ c ∈ (mac h r kind material).toList, plainChar c = true := mac_plain _ _ _

theorem name_size {mark : String} (kind : String) (material : Json) (plain : ∀ c ∈ mark.toList, plainChar c = true) :
    size JsonText.decimal (.str (mark ++ mac h r kind material)) = mark.toList.length + 50 := by
  rw [marked_size plain (mac_plain_ h r kind material),mac,mac_length]

theorem position_size (offset : Nat) : size JsonText.decimal (.str (position h r offset)) = (Nat.toDigits 10 offset).length + 56 :=
  token_size (mac_plain_ h r _ _) (mac_length _ _ _)

variable {h r}

/-- What is made of a source is large, whatever it says: it has two names. -/
theorem projectRow_fresh {row : SourceRow} (made : projectRow h r s = some row) : Fresh row := by
  have source : ∀ c ∈ "hsrc_".toList, plainChar c = true := all_eq_true.mp (by decide)
  have version : ∀ c ∈ "hver_".toList, plainChar c = true := all_eq_true.mp (by decide)
  have five : "hsrc_".toList.length = 5 ∧ "hver_".toList.length = 5 := by decide
  have keys : (quote "sourceRef").utf8ByteSize = 11 ∧ (quote "versionRef").utf8ByteSize = 12 ∧
      (quote "disposition").utf8ByteSize = 13 ∧ (quote "date").utf8ByteSize = 6 := by decide
  unfold projectRow at made
  by_cases in_ : s.disposition = .included
  · rw [if_pos in_] at made
    cases row_ : rowOf r.storedPage.result.page.messages s.messageRef with
    | none => simp [row_] at made
    | some m =>
      cases author : s.authorId with
      | none => simp [row_,author] at made
      | some authorId =>
        simp only [row_,author,Option.some.injEq] at made
        subst made
        have said := size_str_ge JsonText.decimal "included"
        refine ⟨?_,?_⟩
        · simp only [jsonBytes_eq,SourceRow.json,cons_append,size_obj_cons,memberSizes,sourceRef,name_size h r _ _ source,
            name_size h r _ _ version,five,keys]
          omega
        · simp only [SourceRow.mark]
          cases s.replyToMessageId <;> rfl
  · rw [if_neg in_,Option.some.injEq] at made
    subst made
    have said := size_str_ge JsonText.decimal s.disposition.text
    refine ⟨?_,rfl⟩
    simp only [jsonBytes_eq,SourceRow.json,size_obj_cons,memberSizes,sourceRef,name_size h r _ _ source,
      name_size h r _ _ version,five,keys]
    omega

theorem projected_rows {sources : List Source} (made : sources.mapM (projectRow h r) = some rows) :
    List.Forall₂ (fun s row => projectRow h r s = some row) sources rows := by
  induction sources generalizing rows with
  | nil =>
    obtain rfl : rows = [] := by simpa using made.symm
    exact .nil
  | cons s sources ih =>
    rw [mapM_cons] at made
    cases first : projectRow h r s with
    | none => simp [first] at made
    | some row =>
      cases later : sources.mapM (projectRow h r) with
      | none => simp [first,later] at made
      | some rest =>
        obtain rfl : rows = row :: rest := by simpa [first,later] using made.symm
        exact .cons first (ih later)

/-- The rows of a page as they are shown: few, and each of them large. -/
structure Rows (rows : List SourceRow) : Prop where
  few : rows.length ≤ 100
  fresh : ∀ row ∈ rows,Fresh row

variable {rows : List SourceRow} {start stop : Nat}

theorem slice_length (start : Nat) (within : stop ≤ rows.length) : (slice rows start stop).length = stop - start := by
  simp [slice,within]

theorem slice_fresh (start stop : Nat) (ok : Rows rows) : ∀ row ∈ slice rows start stop, row.mark [] = row := fun row member =>
  (ok.fresh row (mem_of_mem_take (mem_of_mem_drop member))).unmarked

theorem slice_next (at_ : start ≤ stop) (within : stop < rows.length) :
    slice rows start (stop + 1) = slice rows start stop ++ [rows.get ⟨stop,within⟩] := by
  have all : start ≤ (rows.take stop).length := by
    rw [length_take]
    omega
  rw [slice,slice,← take_append_getElem within,drop_append_of_le_length all]
  rfl

/-- The rows that are counted are the rows that are written. -/
theorem fragment_size (forward : start < stop) (within : stop ≤ rows.length) :
    (jsonBytes (fragment h r rows start stop).json : Int) = jsonBytes (envelope r start rows.length stop).json +
      (shown (includedRefs (slice rows start stop)) (slice rows start stop) - 1) := by
  have mark : ∀ c ∈ "hmat_".toList, plainChar c = true := all_eq_true.mp (by decide)
  have length := slice_length start within
  have sizes := assemble_size r start rows.length stop stop (markedRows (slice rows start stop)) []
    ("hmat_" ++ mac h r "fragment-material" (.obj [("pageMaterialRef",.str (pageMaterialRef h r)),("start",int start),
      ("end",int stop)])) ("hmat_" ++ zeros) (if stop = rows.length then none else some (position h r stop))
    (if stop = rows.length then none else some (writeToken "hpos_" [stop] zeros)) (slice rows start stop).length (stop - start)
  have next : size JsonText.decimal (nullable .str (if stop = rows.length then none else some (position h r stop))) =
      size JsonText.decimal (nullable .str (if stop = rows.length then none else some (writeToken "hpos_" [stop] zeros))) := by
    by_cases last : stop = rows.length
    · rw [if_pos last,if_pos last]
    · rw [if_neg last,if_neg last,nullable,nullable,position_size,token_size zeros_plain zeros_length]
  have some_ : 1 ≤ shown (includedRefs (slice rows start stop)) (slice rows start stop) := by
    cases is_ : slice rows start stop with
    | nil =>
      rw [is_,length_nil] at length
      omega
    | cons row rest =>
      rw [shown_cons]
      omega
  simp only [movable,next,length,name_size h r _ _ mark,marked_size mark zeros_plain,zeros_length,size_arr_eq,map_nil,
    itemSizes] at sizes
  simp only [fragment,envelope,length]
  simp only [shown,markedRows] at some_ sizes ⊢
  omega

theorem shown_le (refs refs' : List String) (fresh : ∀ row ∈ rows, row.mark [] = row) :
    shown refs rows ≤ shown refs' rows + rows.length := by
  induction rows with
  | nil => simp [shown,itemSizes]
  | cons row rows ih =>
    simp only [forall_mem_cons] at fresh
    have before := mark_bytes fresh.1 refs
    have after := mark_bytes fresh.1 refs'
    have rest := ih fresh.2
    simp only [shown_cons,length_cons]
    split at before <;> split at after <;> omega

/-- One row more takes more than everything else can shrink by. -/
theorem fragment_grows (ok : Rows rows) (forward : start < stop) (within : stop < rows.length) :
    jsonBytes (fragment h r rows start stop).json < jsonBytes (fragment h r rows start (stop + 1)).json := by
  have mark : ∀ c ∈ "hmat_".toList, plainChar c = true := all_eq_true.mp (by decide)
  have few := ok.few
  have next := slice_next (Nat.le_of_lt forward) within
  have length := slice_length start (Nat.le_of_lt within)
  have length' := slice_length start (show stop + 1 ≤ rows.length from within)
  have sizes := assemble_size r start rows.length stop (stop + 1) (fragment h r rows start stop).rows
    (fragment h r rows start (stop + 1)).rows (fragment h r rows start stop).materialRef (fragment h r rows start (stop + 1)).materialRef
    (fragment h r rows start stop).nextPosition (fragment h r rows start (stop + 1)).nextPosition
    (slice rows start stop).length (slice rows start (stop + 1)).length
  have row := ok.fresh _ (List.get_mem rows ⟨stop,within⟩)
  have whole := shown_concat (includedRefs (slice rows start (stop + 1))) (slice rows start stop) (rows.get ⟨stop,within⟩)
  have less := shown_le (includedRefs (slice rows start stop)) (includedRefs (slice rows start (stop + 1)))
    (slice_fresh start stop ok)
  have marked := mark_bytes row.unmarked (includedRefs (slice rows start (stop + 1)))
  have large := row.large
  have digits : (Nat.toDigits 10 stop).length ≤ 3 := (Nat.length_toDigits_le_iff (by omega) (by omega)).mpr
    (Nat.lt_of_lt_of_le (by omega : stop < 1000) (Nat.le_refl 1000))
  have here : size JsonText.decimal (nullable .str (fragment h r rows start stop).nextPosition) ≤ 59 := by
    rw [fragment,assembleFragment,if_neg (by omega),nullable,position_size]
    omega
  have there : 2 ≤ size JsonText.decimal (nullable .str (fragment h r rows start (stop + 1)).nextPosition) := by
    cases (fragment h r rows start (stop + 1)).nextPosition with
    | none => rw [nullable,size_null]; omega
    | some text => exact size_str_ge _ _
  have flag : 4 ≤ size JsonText.decimal (.bool (decide (stop + 1 = rows.length))) := by
    cases decide (stop + 1 = rows.length) <;> simp
  have flag' : size JsonText.decimal (.bool (decide (stop = rows.length))) ≤ 5 := size_bool _
  have counted := digits_mono (show stop ≤ stop + 1 by omega)
  have counted' := digits_mono (show stop - start ≤ stop + 1 - start by omega)
  rw [← next] at whole
  simp only [movable,length,length',size_nat,size_arr_eq] at sizes
  simp only [fragment,assembleFragment,markedRows,name_size h r _ _ mark,length,length'] at sizes here there ⊢
  simp only [shown] at whole less
  rw [length] at less
  split at marked <;> omega

end

end Neurobro.Projection
