import Mathlib.Data.List.Sort
import Neurobro.Data.Keyed
import Neurobro.Api.Text

/-! The export of the messages of a bounded range, and when it is all of them. A page of the
history is read with its service messages and then counted without them, so that a service
message looks like the end of the history. -/
namespace Neurobro.Ranges

open Telegram

structure Message where
  id : Int
  /-- In seconds. -/
  date : Int
  /-- A message that somebody wrote, and not an entry of the service. -/
  ordinary : Bool
  deriving DecidableEq

/-- The history of a chat, newest first. Ids are not given twice, some may be missing. -/
structure Chat where
  history : List Message
  newestFirst : history.Pairwise fun a b => b.id < a.id
  ids : ∀ m ∈ history, messageIdValid m.id = true

/-- In milliseconds, the end left out. -/
structure DateRange where
  from_ : Int
  to_ : Int

structure RangeCollectionLimits where
  historyPageSize : Nat
  maxPages : Nat
  maxMessages : Nat

inductive Failure where
  /-- Pagination did not advance. -/
  | stuck
  /-- The range exceeds the cap of pages or messages. -/
  | cap
  deriving DecidableEq

def Message.instant (m : Message) : Int := m.date * 1000

def DateRange.holds (range : DateRange) (m : Message) : Bool := decide (range.from_ ≤ m.instant ∧ m.instant < range.to_)

/-- What the messenger answers: the newest entries before an id, or of all for no id. -/
def getMessages (history : List Message) (offsetId : Int) (limit : Nat) : List Message :=
  (history.filter fun m => decide (offsetId = 0 ∨ m.id < offsetId)).take limit

def historyPage (history : List Message) (offsetId : Int) (limit : Nat) : List Message :=
  (getMessages history offsetId limit).filter Message.ordinary

/-- The least of some numbers, and nothing for none. -/
def least (xs : List Int) : Option Int := xs.foldl (fun so_far x => some (so_far.elim x (min · x))) none

/-- The messages of the range are kept under their ids. -/
def select (range : DateRange) (selected messages : List Message) : List Message :=
  messages.foldl (fun kept m => if range.holds m then Keyed.set Message.id m kept else kept) selected

def sorted (messages : List Message) : List Message := messages.insertionSort fun a b => a.id ≤ b.id

section
variable (fetchPage : Int → Nat → List Message) (range : DateRange) (limits : RangeCollectionLimits)

/-- One page after another, as many as are left. -/
def collectFrom : Nat → Int → Nat → List Message → Except Failure (List Message)
  | 0,_,_,_ => .error .cap
  | pages + 1,offsetId,fetched,selected =>
    if limits.maxMessages ≤ fetched then .error .cap
    else
      let limit := min limits.historyPageSize (limits.maxMessages - fetched)
      let messages := fetchPage offsetId limit
      if messages = [] then .ok (sorted selected)
      else if (least (messages.map Message.instant)).any (fun oldest => decide (oldest < range.from_)) = true ∨
          messages.length < limit then .ok (sorted (select range selected messages))
      else match least (messages.map Message.id) with
        | none => .error .stuck
        | some minimumId =>
          if safeInteger minimumId = false ∨ minimumId ≤ 0 ∨ minimumId = offsetId then .error .stuck
          else collectFrom pages minimumId (fetched + messages.length) (select range selected messages)

def collectBoundedRange : Except Failure (List Message) := collectFrom fetchPage range limits limits.maxPages 0 0 []

end

/-- All that somebody wrote in the range, oldest first. -/
def Chat.ordinaryIn (chat : Chat) (range : DateRange) : List Message :=
  (chat.history.filter fun m => m.ordinary && range.holds m).reverse

/-- A stretch of the history after which reading goes on: it has no gap of the service, it is as
long as was asked for and nothing in it is older than the range. -/
def Full (range : DateRange) (limit : Nat) (block : List Message) : Prop :=
  block ≠ [] ∧ block.length = limit ∧ ∀ m ∈ block, m.ordinary = true ∧ range.from_ ≤ m.instant

instance (range : DateRange) (limit : Nat) (block : List Message) : Decidable (Full range limit block) :=
  inferInstanceAs (Decidable (_ ∧ _))

/-- After the first stretch of the history that is not full, nobody wrote anything in the
range. -/
def NothingAfter (range : DateRange) (limits : RangeCollectionLimits) : Nat → Nat → List Message → Prop
  | 0,_,_ => True
  | pages + 1,fetched,history =>
    fetched < limits.maxMessages →
      if Full range (min limits.historyPageSize (limits.maxMessages - fetched))
          (history.take (min limits.historyPageSize (limits.maxMessages - fetched))) then
        NothingAfter range limits pages (fetched + min limits.historyPageSize (limits.maxMessages - fetched))
          (history.drop (min limits.historyPageSize (limits.maxMessages - fetched)))
      else ∀ m ∈ history.drop (min limits.historyPageSize (limits.maxMessages - fetched)), m.ordinary = true → range.holds m = false

/-! ## What a page comes to -/

theorem least_spec (some_ : xs ≠ []) : ∃ x, least xs = some x ∧ x ∈ xs ∧ ∀ y ∈ xs, x ≤ y := by
  have all (xs : List Int) (x : Int) : ∃ y, xs.foldl (fun so_far x => some (so_far.elim x (min · x))) (some x) = some y ∧
      (y = x ∨ y ∈ xs) ∧ y ≤ x ∧ ∀ z ∈ xs, y ≤ z := by
    induction xs generalizing x with
    | nil => exact ⟨x,rfl,.inl rfl,Int.le_refl x,by simp⟩
    | cons z xs ih =>
      obtain ⟨y,is_,in_,below,others⟩ := ih (min x z)
      refine ⟨y,is_,?_,by omega,?_⟩
      · rcases in_ with same | there
        · rcases Int.min_def x z ▸ same with is_
          split at is_
          · exact .inl is_
          · exact .inr (by simp [is_])
        · exact .inr (List.mem_cons_of_mem _ there)
      · rintro w (_ | ⟨_,there⟩)
        · omega
        · exact others w there
  obtain ⟨x,xs,rfl⟩ := List.exists_cons_of_ne_nil some_
  obtain ⟨y,is_,in_,below,others⟩ := all xs x
  refine ⟨y,is_,?_,?_⟩
  · rcases in_ with same | there
    · exact List.mem_cons.mpr (.inl same)
    · exact List.mem_cons_of_mem _ there
  · rintro z (_ | ⟨_,there⟩)
    · exact below
    · exact others z there

theorem select_append {selected messages : List Message}
    (distinct : ((selected ++ messages).map Message.id).Nodup) :
    select range selected messages = selected ++ messages.filter range.holds := by
  induction messages generalizing selected with
  | nil => simp [select]
  | cons m messages ih =>
    have new : ∀ kept ∈ selected, kept.id ≠ m.id := by
      intro kept there same
      rw [List.map_append,List.map_cons,List.nodup_append] at distinct
      exact distinct.2.2 kept.id (List.mem_map_of_mem there) m.id List.mem_cons_self same
    have step : select range selected (m :: messages) =
        select range (if range.holds m then Keyed.set Message.id m selected else selected) messages := rfl
    rw [step]
    by_cases in_ : range.holds m = true
    · have rest : (((selected ++ [m]) ++ messages).map Message.id).Nodup := by simpa using distinct
      rw [if_pos in_,Keyed.set_absent new,ih rest,List.filter_cons_of_pos in_,List.append_assoc,List.singleton_append]
    · have rest : ((selected ++ messages).map Message.id).Nodup :=
        distinct.sublist (((List.Sublist.refl selected).append (List.sublist_cons_self m messages)).map Message.id)
      rw [if_neg in_,ih rest,List.filter_cons_of_neg in_]

/-- Messages that stand newest first come out oldest first. -/
theorem sorted_reverse {messages : List Message} (newest : messages.Pairwise fun a b => b.id < a.id) :
    sorted messages = messages.reverse := by
  have ascending : messages.reverse.Pairwise fun a b => a.id ≤ b.id :=
    List.pairwise_reverse.mpr (newest.imp fun lt => Int.le_of_lt lt)
  have perm : (sorted messages).Perm messages.reverse :=
    (List.perm_insertionSort _ _).trans (List.reverse_perm messages).symm
  refine perm.eq_of_pairwise (fun a b inA inB ab ba => ?_) (List.pairwise_insertionSort _ _) ascending
  have distinct : (messages.map Message.id).Nodup :=
    List.pairwise_map.mpr (newest.imp fun lt same => absurd lt (by omega))
  exact List.inj_on_of_nodup_map distinct ((List.perm_insertionSort _ _).mem_iff.mp inA) (List.mem_reverse.mp inB)
    (Int.le_antisymm ab ba)

section
variable {chat : Chat} {range : DateRange} {limits : RangeCollectionLimits}

theorem Chat.distinct (chat : Chat) : (chat.history.map Message.id).Nodup :=
  List.pairwise_map.mpr (chat.newestFirst.imp fun lt same => absurd lt (by omega))

def wanted (range : DateRange) (m : Message) : Bool := m.ordinary && range.holds m

/-- The collection up to a place of the history. -/
structure Stands (chat : Chat) (range : DateRange) (read : Nat) (offsetId : Int) (selected : List Message) : Prop where
  rest : (chat.history.filter fun m => decide (offsetId = 0 ∨ m.id < offsetId)) = chat.history.drop read
  kept : selected = (chat.history.take read).filter (wanted range)

/-- What a page adds. -/
theorem select_page {read limit : Nat} {selected : List Message} (stands : Stands chat range read offsetId selected) :
    select range selected (historyPage chat.history offsetId limit) = (chat.history.take (read + limit)).filter (wanted range) := by
  have block : historyPage chat.history offsetId limit = ((chat.history.drop read).take limit).filter Message.ordinary := by
    rw [historyPage,getMessages,stands.rest]
  have parts : chat.history.take (read + limit) = chat.history.take read ++ (chat.history.drop read).take limit := List.take_add
  have sub : (selected ++ historyPage chat.history offsetId limit).Sublist chat.history := by
    rw [stands.kept,block]
    refine ((List.filter_sublist).append (List.filter_sublist)).trans ?_
    rw [← parts]
    exact List.take_sublist _ _
  rw [select_append ((sub.map Message.id).nodup chat.distinct),block,stands.kept,parts,List.filter_append,List.filter_filter]
  congr 1
  exact List.filter_congr fun m _ => Bool.and_comm _ _

/-- What is returned is all of the range exactly when nothing of it comes later. -/
theorem returned_all (read : Nat) : sorted ((chat.history.take read).filter (wanted range)) = chat.ordinaryIn range ↔
    ∀ m ∈ chat.history.drop read, m.ordinary = true → range.holds m = false := by
  have newest : ((chat.history.take read).filter (wanted range)).Pairwise fun a b => b.id < a.id :=
    chat.newestFirst.sublist (List.filter_sublist.trans (List.take_sublist _ _))
  have whole : chat.history.filter (wanted range) =
      (chat.history.take read).filter (wanted range) ++ (chat.history.drop read).filter (wanted range) := by
    rw [← List.filter_append,List.take_append_drop]
  have all : chat.ordinaryIn range = (chat.history.filter (wanted range)).reverse := rfl
  rw [sorted_reverse newest,all,List.reverse_inj,whole,List.self_eq_append_right,List.filter_eq_nil_iff]
  constructor
  · intro none_ m in_ ordinary
    simpa [wanted,ordinary] using none_ m in_
  · intro none_ m in_
    cases ordinary : m.ordinary with
    | false => simp [wanted,ordinary]
    | true => simp [wanted,ordinary,none_ m in_ ordinary]

/-- A block that leads on: the next offset is its last id. -/
theorem stands_next {read limit : Nat} {selected : List Message}
    (stands : Stands chat range read offsetId selected)
    (in_ : least_ ∈ ((chat.history.drop read).take limit).map Message.id)
    (lowest : ∀ m ∈ (chat.history.drop read).take limit, least_ ≤ m.id) :
    0 < least_ ∧ safeInteger least_ = true ∧ least_ ≠ offsetId ∧
      Stands chat range (read + limit) least_ (select range selected (historyPage chat.history offsetId limit)) := by
  obtain ⟨last,there,rfl⟩ := List.mem_map.mp in_
  have later : last ∈ chat.history.drop read := List.mem_of_mem_take there
  have valid := messageIdValid_iff.mp (chat.ids last (List.mem_of_mem_drop later))
  have below : offsetId = 0 ∨ last.id < offsetId := by
    rw [← stands.rest] at later
    exact of_decide_eq_true (List.mem_filter.mp later).2
  have parts : chat.history = chat.history.take (read + limit) ++ chat.history.drop (read + limit) :=
    (List.take_append_drop _ _).symm
  have order : ∀ a ∈ chat.history.take (read + limit), ∀ b ∈ chat.history.drop (read + limit), b.id < a.id :=
    (List.pairwise_append.mp (parts ▸ chat.newestFirst)).2.2
  have early : ∀ a ∈ chat.history.take read, last.id < a.id := by
    have split : chat.history = chat.history.take read ++ chat.history.drop read := (List.take_append_drop _ _).symm
    exact fun a inA => (List.pairwise_append.mp (split ▸ chat.newestFirst)).2.2 a inA last later
  have taken : chat.history.take (read + limit) = chat.history.take read ++ (chat.history.drop read).take limit :=
    List.take_add
  refine ⟨valid.1,decide_eq_true (by omega),by omega,?_,select_page stands⟩
  have none_ : (chat.history.take (read + limit)).filter (fun m => decide (last.id = 0 ∨ m.id < last.id)) = [] := by
    refine List.filter_eq_nil_iff.mpr fun a inA => ?_
    rw [taken] at inA
    rcases List.mem_append.mp inA with before | block
    · have := early a before
      simp
      omega
    · have := lowest a block
      simp
      omega
  have all : (chat.history.drop (read + limit)).filter (fun m => decide (last.id = 0 ∨ m.id < last.id)) =
      chat.history.drop (read + limit) := by
    refine List.filter_eq_self.mpr fun b inB => ?_
    have := order last (taken ▸ List.mem_append_right _ there) b inB
    simp [this]
  conv => lhs; rw [parts]
  rw [List.filter_append,none_,all,List.nil_append]

/-- What a page that ends the reading returns. -/
theorem last_page {read : Nat} (limit : Nat) {selected : List Message} (stands : Stands chat range read offsetId selected) :
    (Except.ok (ε := Failure) (sorted (select range selected (historyPage chat.history offsetId limit))) =
        .ok (chat.ordinaryIn range)) ↔
      ∀ m ∈ (chat.history.drop read).drop limit, m.ordinary = true → range.holds m = false := by
  rw [select_page stands,Except.ok.injEq,returned_all,List.drop_drop]

/-- A page that leads on is the whole stretch of the history. -/
theorem whole_page {block : List Message} {limit : Nat} (short : block.length ≤ limit)
    (long : limit ≤ (block.filter Message.ordinary).length) :
    block.filter Message.ordinary = block ∧ block.length = limit ∧ ∀ m ∈ block, m.ordinary = true := by
  have le := List.length_filter_le Message.ordinary block
  have same : block.filter Message.ordinary = block := List.filter_sublist.eq_of_length (by omega)
  exact ⟨same,by omega,fun m in_ => List.filter_eq_self.mp same m in_⟩

theorem oldest_iff {messages : List Message} (some_ : messages ≠ []) {start : Int} :
    (least (messages.map Message.instant)).any (fun oldest => decide (oldest < start)) = true ↔
      ∃ m ∈ messages, m.instant < start := by
  obtain ⟨oldest,is_,in_,below⟩ := least_spec (fun none_ => some_ (List.map_eq_nil_iff.mp none_))
  obtain ⟨m,there,rfl⟩ := List.mem_map.mp in_
  rw [is_,Option.any_some,decide_eq_true_iff]
  constructor
  · exact fun before => ⟨m,there,before⟩
  · rintro ⟨other,in_,before⟩
    have := below other.instant (List.mem_map_of_mem in_)
    omega

theorem collectFrom_complete {pages read fetched : Nat} {offsetId : Int} {selected : List Message}
    (stands : Stands chat range read offsetId selected) :
    ((∃ e, collectFrom (historyPage chat.history) range limits pages offsetId fetched selected = .error e) ∨
        collectFrom (historyPage chat.history) range limits pages offsetId fetched selected = .ok (chat.ordinaryIn range)) ↔
      NothingAfter range limits pages fetched (chat.history.drop read) := by
  induction pages generalizing read fetched offsetId selected with
  | zero => simp [collectFrom,NothingAfter]
  | succ pages ih =>
    rw [collectFrom,NothingAfter]
    by_cases over_ : limits.maxMessages ≤ fetched
    · simp [over_]
    · rw [if_neg over_]
      have more : fetched < limits.maxMessages := by omega
      simp only [more,forall_const]
      generalize min limits.historyPageSize (limits.maxMessages - fetched) = limit
      have page : historyPage chat.history offsetId limit = ((chat.history.drop read).take limit).filter Message.ordinary := by
        rw [historyPage,getMessages,stands.rest]
      by_cases none_ : historyPage chat.history offsetId limit = []
      · have broken : ¬Full range limit ((chat.history.drop read).take limit) := fun full =>
          full.1 ((List.filter_eq_self.mpr fun m in_ => (full.2.2 m in_).1).symm.trans (page.symm.trans none_))
        have last := last_page limit stands
        rw [none_] at last
        rw [if_neg broken,← last]
        simp [none_,select]
      · by_cases ends : (least ((historyPage chat.history offsetId limit).map Message.instant)).any
            (fun oldest => decide (oldest < range.from_)) = true ∨ (historyPage chat.history offsetId limit).length < limit
        · have broken : ¬Full range limit ((chat.history.drop read).take limit) := by
            rintro ⟨-,long,all⟩
            have same := List.filter_eq_self.mpr fun m in_ => (all m in_).1
            rcases ends with old | short
            · obtain ⟨m,in_,before⟩ := (oldest_iff none_).mp old
              rw [page,same] at in_
              exact absurd (all m in_).2 (by omega)
            · rw [page,same] at short
              omega
          rw [if_neg broken,← last_page limit stands]
          simp [none_,ends]
        · have long : limit ≤ (((chat.history.drop read).take limit).filter Message.ordinary).length := by
            rw [← page]
            omega
          obtain ⟨same,length,ordinary⟩ := whole_page (List.length_take_le _ _) long
          rw [same] at page
          have full : Full range limit ((chat.history.drop read).take limit) := by
            refine ⟨page ▸ none_,length,fun m in_ => ⟨ordinary m in_,?_⟩⟩
            by_contra old
            exact ends (.inl ((oldest_iff none_).mpr ⟨m,page ▸ in_,by omega⟩))
          have some_ : (historyPage chat.history offsetId limit).map Message.id ≠ [] :=
            fun empty => none_ (List.map_eq_nil_iff.mp empty)
          obtain ⟨minimumId,is_,in_,lowest⟩ := least_spec some_
          rw [page] at in_
          have next := stands_next stands in_ (fun m there => lowest m.id (List.mem_map_of_mem (page ▸ there)))
          have on : ¬(safeInteger minimumId = false ∨ minimumId ≤ 0 ∨ minimumId = offsetId) := by
            have := next.1
            simp [next.2.1,next.2.2.1,this]
          have size : (historyPage chat.history offsetId limit).length = limit := by rw [page,length]
          rw [if_pos full,if_neg none_,if_neg ends,is_]
          simp only [if_neg on]
          rw [size,List.drop_drop]
          exact ih next.2.2.2

end

/-- Two messages of one day, and then one of the service. -/
def joined : Chat where
  history := [⟨3,300,false⟩,⟨2,200,true⟩,⟨1,100,true⟩]
  newestFirst := by decide
  ids := by decide

end Neurobro.Ranges
