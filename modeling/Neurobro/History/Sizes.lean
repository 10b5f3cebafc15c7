import Neurobro.Data.JsonSize
import Neurobro.History.Reader

/-! How large the records of a history task can get when they are written. -/
namespace Neurobro.History

open Json Telegram List

theorem byteLength_eq (value : Json) : byteLength value = size numberText value := by
  unfold size byteLength
  rfl

theorem digit_size (small : n < 10) : (Char.ofNat (48 + n)).utf8Size = 1 := by
  have all : ∀ m < 10, (Char.ofNat (48 + m)).utf8Size = 1 := by decide
  exact all n small

/-- A number below a power of ten has so many digits. -/
theorem natChars_size (fuel : Nat) (done : List Char) (small : n < Nat.pow 10 (k + 1)) :
    charBytes (natChars fuel n done) ≤ charBytes done + (k + 1) := by
  induction fuel generalizing n k done with
  | zero => simp only [natChars]; omega
  | succ fuel ih =>
    unfold natChars
    by_cases last : n < 10
    · rw [if_pos last,charBytes,digit_size last]
      omega
    · rw [if_neg last]
      cases k with
      | zero => exact absurd small last
      | succ k =>
        have fewer : n / 10 < Nat.pow 10 (k + 1) := by
          rw [Nat.div_lt_iff_lt_mul (by omega)]
          exact small
        have rest := ih (Char.ofNat (48 + n % 10) :: done) fewer
        rw [charBytes,digit_size (Nat.mod_lt _ (by omega))] at rest
        omega

/-- Whole numbers that are exact in the source language take at most 17 characters. -/
theorem size_int (exact_ : natural n = true) : size numberText (int n) ≤ 16 := by
  have bounds := natural_iff.mp exact_
  have small : n.natAbs < Nat.pow 10 (15 + 1) := by
    have power : Nat.pow 10 (15 + 1) = 10000000000000000 := rfl
    omega
  have positive : ¬((n : Rat).num < 0) := by
    rw [Rat.num_intCast]
    omega
  have digits := natChars_size (n.natAbs + 1) [] small
  simp only [size,stringify,int,numberJson,numberText,utf8ByteSize_ofList]
  rw [if_neg positive,Rat.num_intCast]
  simp only [charBytes] at digits
  omega

theorem natural_of_date (valid : dateValid n = true) : natural n = true := by
  rw [natural_iff]
  have bounds := dateValid_iff.mp valid
  omega

theorem natural_of_id (valid : messageIdValid n = true) : natural n = true := by
  rw [natural_iff]
  have bounds := messageIdValid_iff.mp valid
  omega

theorem size_nullable {value : Option Int} (valid : value.all natural = true) : size numberText (nullable int value) ≤ 16 := by
  cases value with
  | none => simp only [nullable,size,stringify]; decide
  | some n => exact size_int valid

/-- A decimal number of at most twenty digits. -/
theorem decimal_size (valid : decimal cs = true) : charBytes cs ≤ 20 := by
  have ones : ∀ cs : List Char, cs.all Char.isDigit = true → charBytes cs = cs.length := by
    intro cs all
    induction cs with
    | nil => rfl
    | cons c rest ih =>
      rw [all_cons,Bool.and_eq_true] at all
      have one : c.utf8Size = 1 := by
        have digit := all.1
        simp only [Char.isDigit,Bool.and_eq_true,decide_eq_true_eq] at digit
        have small : c.val ≤ 0x7f := UInt32.le_trans digit.2 (by decide)
        exact if_pos small
      simp only [charBytes,one,ih all.2,length_cons]
      omega
  cases cs with
  | nil => cases valid
  | cons c rest =>
    simp only [decimal,Bool.and_eq_true,decide_eq_true_eq] at valid
    obtain ⟨⟨⟨first,_⟩,more⟩,short⟩ := valid
    rw [ones (c :: rest) (by rw [all_cons,first,more]; rfl),length_cons]
    omega

theorem userId_size {id : String} (valid : userId id = true) : id.utf8ByteSize ≤ 20 := by
  rw [utf8ByteSize_toList]
  exact decimal_size valid

theorem groupId_size {id : String} (valid : groupId id = true) : id.utf8ByteSize ≤ 21 := by
  rw [utf8ByteSize_toList]
  simp only [groupId,Bool.and_eq_true,beq_iff_eq] at valid
  cases is_ : id.toList with
  | nil => rw [is_] at valid; cases valid.1
  | cons c rest =>
    rw [is_] at valid
    have minus : c = '-' := Option.some.inj valid.1
    have one : ('-' : Char).utf8Size = 1 := rfl
    have digits := decimal_size valid.2
    simp only [tail_cons] at digits
    simp only [charBytes,minus,one]
    omega

theorem status_size (status : Status) : size numberText (.str status.text) ≤ 125 := by
  apply (size_str _).trans
  cases status <;> decide

theorem natural_of_dates {value : Option Int} (valid : value.all dateValid = true) : value.all natural = true := by
  cases value with
  | none => rfl
  | some n => exact natural_of_date valid

theorem natural_of_ids {value : Option Int} (valid : value.all messageIdValid = true) : value.all natural = true := by
  cases value with
  | none => rfl
  | some n => exact natural_of_id valid

theorem str_size_le (short : s.utf8ByteSize ≤ most) : size numberText (.str s) ≤ 6 * most + 2 :=
  (size_str s).trans (Nat.add_le_add_right (Nat.mul_le_mul_left 6 short) 2)

/-- A checkpoint is small. -/
theorem checkpoint_size {c : Checkpoint} (valid : c.Valid) : size numberText c.json ≤ 4000 := by
  obtain ⟨⟨account,chat,fromDate,toDate,_,last,_,_,offset,oldest,newest,undated,pages,upper⟩,_⟩ := valid
  have placed : natural c.offsetId = true := by
    rcases offset with zero | valid
    · rw [zero]
      decide
    · exact natural_of_id valid
  have keys : keyRoom ["schema","accountId","chatId","fromDate","toDate","offsetId","lastDate","oldestDate","newestDate",
      "undated","pages","inexact","upperBoundMessageId","status"] ≤ 1000 := by decide
  apply (size_obj_le keys _).trans (by decide : 2 + 1000 + 14 * 200 ≤ 4000)
  simp only [forall_mem_cons]
  refine ⟨?_,?_,?_,?_,?_,?_,?_,?_,?_,?_,?_,?_,?_,?_,?_⟩
  · exact str_size_le (by decide : "self-history-task-checkpoint-v1".utf8ByteSize ≤ 33)
  · exact (str_size_le (userId_size account)).trans (by decide)
  · exact (str_size_le (groupId_size chat)).trans (by decide)
  · exact (size_int (natural_of_date fromDate)).trans (by decide)
  · exact (size_int (natural_of_date toDate)).trans (by decide)
  · exact (size_int placed).trans (by decide)
  · exact (size_int (natural_of_date last)).trans (by decide)
  · exact (size_nullable (natural_of_dates oldest)).trans (by decide)
  · exact (size_nullable (natural_of_dates newest)).trans (by decide)
  · exact (size_int undated).trans (by decide)
  · exact (size_int pages).trans (by decide)
  · exact (size_bool _).trans (by decide)
  · exact (size_nullable (natural_of_ids upper)).trans (by decide)
  · exact (status_size _).trans (by decide)
  · simp

/-! The parts of a page. -/

theorem optional_room {α : Type} (key : String) (f : α → Json) (value : Option α) :
    keyRoom ((optional key f value).map Prod.fst) ≤ (quote key).utf8ByteSize + 2 := by
  cases value with
  | none => exact Nat.zero_le _
  | some a => simp [optional,keyRoom]

theorem optional_size {α : Type} {key : String} {f : α → Json} {value : Option α}
    (each : ∀ a, value = some a → size numberText (f a) ≤ most) : fieldSizes numberText (optional key f value) ≤ most := by
  cases value with
  | none => exact Nat.zero_le _
  | some a => simpa [optional,fieldSizes] using each a rfl

/-- A source with references of a bounded length. -/
theorem source_size {s : Source} (placed : messageIdValid s.messageId = true) (date : s.date.all dateValid = true)
    (ref : ∀ ref, s.messageRef = some ref → ref.utf8ByteSize ≤ 26) (author : ∀ id, s.authorId = some id → id.utf8ByteSize ≤ 21)
    (reply : s.replyToMessageId.all messageIdValid = true) : size numberText s.json ≤ 500 := by
  have n₁ := size_int (natural_of_id placed)
  have n₂ := size_nullable (natural_of_dates date)
  have n₃ : size numberText (.str s.disposition.text) ≤ 80 := (size_str _).trans (by cases s.disposition <;> decide)
  have k₁ := optional_room "messageRef" .str s.messageRef
  have k₂ := optional_room "authorId" .str s.authorId
  have k₃ := optional_room "replyToMessageId" int s.replyToMessageId
  have f₁ : fieldSizes numberText (optional "messageRef" .str s.messageRef) ≤ 158 :=
    optional_size fun value is_ => str_size_le (ref value is_)
  have f₂ : fieldSizes numberText (optional "authorId" .str s.authorId) ≤ 128 :=
    optional_size fun value is_ => str_size_le (author value is_)
  have f₃ : fieldSizes numberText (optional "replyToMessageId" int s.replyToMessageId) ≤ 16 := by
    apply optional_size
    intro value is_
    rw [is_] at reply
    exact size_int (natural_of_id reply)
  have keys : keyRoom ["messageId","date","disposition"] + ((quote "messageRef").utf8ByteSize + 2) +
      ((quote "authorId").utf8ByteSize + 2) + ((quote "replyToMessageId").utf8ByteSize + 2) ≤ 84 := by decide
  apply (size_obj _).trans
  simp only [map_append,keyRoom_append,fieldSizes_append,map_cons,map_nil,fieldSizes]
  omega

theorem size_strs {items : List String} (short : ∀ s ∈ items, s.utf8ByteSize ≤ most) :
    size numberText (.arr (items.map .str)) ≤ 2 + items.length * (6 * most + 3) := by
  have each : ∀ item ∈ items.map Json.str, size numberText item ≤ 6 * most + 2 := by
    intro item member
    obtain ⟨s,there,rfl⟩ := mem_map.mp member
    exact str_size_le (short s there)
  have all := itemSizes_le each
  rw [length_map] at all
  exact (size_arr _).trans (Nat.add_le_add_left all 2)

def Coverage.Natural (c : Coverage) : Prop :=
  c.oldestExaminedDate.all natural = true ∧ c.newestExaminedDate.all natural = true ∧ natural c.undatedEntries = true ∧
    natural c.pages = true

theorem coverage_size {c : Coverage} (exact_ : c.Natural) : size numberText c.json ≤ 1200 := by
  obtain ⟨oldest,newest,undated,pages⟩ := exact_
  have keys : keyRoom ["scope","oldestExaminedDate","newestExaminedDate","traversalComplete","undatedEntries","pages"] ≤ 148 := by
    decide
  apply (size_obj_le keys _).trans (by decide : 2 + 148 + 6 * 160 ≤ 1200)
  simp only [forall_mem_cons]
  refine ⟨?_,?_,?_,?_,?_,?_,?_⟩
  · apply (size_str _).trans
    decide
  · exact (size_nullable oldest).trans (by decide)
  · exact (size_nullable newest).trans (by decide)
  · exact (size_bool _).trans (by decide)
  · exact (size_int undated).trans (by decide)
  · exact (size_int pages).trans (by decide)
  · simp

theorem excluded_size {x : Excluded} (valid : x.Valid) : size numberText x.json ≤ 200 := by
  obtain ⟨⟨nonText,_⟩,⟨invalidText,_⟩,⟨unavailable,_⟩,outsidePeriod,_⟩ := valid
  have keys : keyRoom ["nonText","invalidText","unavailable","outsidePeriod"] ≤ 100 := by decide
  apply (size_obj_le keys _).trans (by decide : 2 + 100 + 4 * 20 ≤ 200)
  simp only [forall_mem_cons]
  refine ⟨?_,?_,?_,?_,?_⟩
  · exact (size_int nonText).trans (by decide)
  · exact (size_int invalidText).trans (by decide)
  · exact (size_int unavailable).trans (by decide)
  · exact (size_int outsidePeriod).trans (by decide)
  · simp

/-- A page takes little more than its rows. -/
theorem page_size {p : Page} (fromDate : dateValid p.fromDate = true) (toDate : dateValid p.toDate = true) (cursor : p.cursor = none)
    (coverage : p.coverage.Natural) (excluded : p.excluded.Valid) :
    size numberText p.json ≤ 4000 + itemSizes numberText (p.messages.map Message.json) := by
  have keys : keyRoom ["schema","fromDate","toDate","messages","cursor","hasMore","status","coverage","excluded","limitations"] ≤
      200 := by decide
  have n₁ : size numberText (.str "neurobro-self-history-v1") ≤ 150 := (size_str _).trans (by decide)
  have n₂ := size_int (natural_of_date fromDate)
  have n₃ := size_int (natural_of_date toDate)
  have n₄ : size numberText (.arr (p.messages.map Message.json)) ≤ 2 + itemSizes numberText (p.messages.map Message.json) :=
    size_arr _
  have n₅ : size numberText (nullable .str p.cursor) ≤ 4 := by
    rw [cursor]
    simp only [nullable,size,stringify]
    decide
  have n₆ : size numberText (.bool p.hasMore) ≤ 5 := size_bool _
  have n₇ := status_size p.status
  have n₈ := coverage_size coverage
  have n₉ := excluded_size excluded
  have n₁₀ : size numberText (.arr (limitations.map .str)) ≤ 1300 :=
    (size_strs (by decide : ∀ s ∈ limitations,s.utf8ByteSize ≤ 50)).trans (by decide)
  apply (size_obj _).trans
  simp only [map_cons,map_nil,fieldSizes]
  omega

end Neurobro.History
