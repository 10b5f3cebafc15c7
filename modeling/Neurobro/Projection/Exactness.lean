import Neurobro.History.Sizes
import Neurobro.Projection.Encoded
import Neurobro.Projection.Stored

/-! What is put under a code is written exactly: its numbers are whole and small, and no key
stands twice. -/
namespace Neurobro.Projection

open Telegram History Json List

theorem exact_int (is_ : natural n = true) : Exact (int n) := by
  have bounds := natural_iff.mp is_
  simp only [int,Exact,wholeNumber,JsonText.safe,Rat.den_intCast,Rat.num_intCast,decide_eq_true_eq]
  exact ⟨trivial,by omega,by omega⟩

theorem exact_nullable {value : Option Int} (is_ : value.all natural = true) : Exact (nullable int value) := by
  cases value with
  | none => trivial
  | some n => exact exact_int is_

theorem exact_nullable_str (value : Option String) : Exact (nullable .str value) := by cases value <;> trivial

theorem exact_obj (keys : List String) (once : keys.Nodup) {fields : List (String × Json)} (keyed : fields.map Prod.fst = keys)
    (each : ExactFields fields) : Exact (.obj fields) := ⟨by rw [keyed]; exact once,each⟩

theorem exact_strs (texts : List String) : Exact (.arr (texts.map .str)) := by
  rw [Exact,exactItems_all]
  intro item member
  obtain ⟨text,_,rfl⟩ := mem_map.mp member
  trivial

theorem checkpoint_exact {c : Checkpoint} (valid : c.Valid) : Exact c.json := by
  obtain ⟨⟨_,_,fromDate,toDate,_,last,_,_,offset,oldest,newest,undated,pages,upper⟩,_⟩ := valid
  have placed : natural c.offsetId = true := by
    rcases offset with zero | valid
    · rw [zero]
      decide
    · exact natural_of_id valid
  refine exact_obj ["schema","accountId","chatId","fromDate","toDate","offsetId","lastDate","oldestDate","newestDate",
    "undated","pages","inexact","upperBoundMessageId","status"] (by decide) rfl ?_
  simp only [ExactFields]
  exact ⟨trivial,trivial,trivial,exact_int (natural_of_date fromDate),exact_int (natural_of_date toDate),exact_int placed,
    exact_int (natural_of_date last),exact_nullable (natural_of_dates oldest),exact_nullable (natural_of_dates newest),
    exact_int undated,exact_int pages,trivial,exact_nullable (natural_of_ids upper),trivial,trivial⟩

theorem forwarded_exact {f : Forwarded} (valid : f.Valid) : Exact f.json := by
  refine exact_obj ["originalDate","sourceName","interpretation"] (by decide) rfl ?_
  simp only [ExactFields]
  exact ⟨exact_int (natural_of_date valid.1),exact_nullable_str _,trivial,trivial⟩

theorem message_exact {m : Message} {before : Checkpoint} (valid : m.Valid before) : Exact m.json := by
  obtain ⟨_,_,_,date,_,_,edited,_,_,_,forwarded⟩ := valid
  have base : ExactFields [("ref",.str m.ref),("authorRef",.str m.authorRef),("author",.str m.author.text),
      ("displayName",.str m.displayName),("date",int m.date),("editedAt",nullable int m.editedAt),
      ("replyRef",nullable .str m.replyRef),("replyUnavailable",.bool m.replyUnavailable),("text",.str m.text)] := by
    simp only [ExactFields]
    exact ⟨trivial,trivial,trivial,trivial,exact_int (natural_of_date date),exact_nullable (natural_of_dates edited),
      exact_nullable_str _,trivial,trivial,trivial⟩
  rw [exactFields_all] at base
  refine ⟨?_,(exactFields_all _).mpr fun f member => ?_⟩
  · cases m.forwarded with
    | none => exact (by decide : ["ref","authorRef","author","displayName","date","editedAt","replyRef","replyUnavailable",
        "text"].Nodup)
    | some f => exact (by decide : ["ref","authorRef","author","displayName","date","editedAt","replyRef","replyUnavailable",
        "text","forwarded"].Nodup)
  · rcases mem_append.mp member with front | back
    · exact base f front
    · cases is_ : m.forwarded with
      | none => simp [is_,History.optional] at back
      | some quoted =>
        obtain rfl : f = ("forwarded",quoted.json) := by simpa [is_,History.optional] using back
        exact forwarded_exact (forwarded quoted is_)

theorem source_exact {before : Checkpoint} {messages : List Message} (sound : SoundSource before messages s) :
    Exact s.json := by
  refine ⟨by rw [source_keys]; exact sourceKeys_once _ _ _,(exactFields_all _).mpr fun f member => ?_⟩
  simp only [mem_append,mem_cons,not_mem_nil,or_false] at member
  rcases member with ((((rfl | rfl | rfl) | ref) | author) | reply)
  · exact exact_int (natural_of_id sound.messageId)
  · exact exact_nullable (natural_of_dates sound.dated)
  · trivial
  · cases is_ : s.messageRef with
    | none => simp [is_,History.optional] at ref
    | some text =>
      obtain rfl : f = ("messageRef",.str text) := by simpa [is_,History.optional] using ref
      trivial
  · cases is_ : s.authorId with
    | none => simp [is_,History.optional] at author
    | some text =>
      obtain rfl : f = ("authorId",.str text) := by simpa [is_,History.optional] using author
      trivial
  · cases is_ : s.replyToMessageId with
    | none => simp [is_,History.optional] at reply
    | some id =>
      obtain rfl : f = ("replyToMessageId",int id) := by simpa [is_,History.optional] using reply
      have small := sound.reply
      rw [is_] at small
      exact exact_int (natural_of_id small)

theorem coverage_exact {c : Coverage} (natural_ : c.Natural) : Exact c.json := by
  obtain ⟨oldest,newest,undated,pages⟩ := natural_
  refine exact_obj ["scope","oldestExaminedDate","newestExaminedDate","traversalComplete","undatedEntries","pages"]
    (by decide) rfl ?_
  simp only [ExactFields]
  exact ⟨trivial,exact_nullable oldest,exact_nullable newest,trivial,exact_int undated,exact_int pages,trivial⟩

theorem excluded_exact {x : Excluded} (valid : x.Valid) : Exact x.json := by
  obtain ⟨⟨nonText,_⟩,⟨invalidText,_⟩,⟨unavailable,_⟩,outsidePeriod,_⟩ := valid
  refine exact_obj ["nonText","invalidText","unavailable","outsidePeriod"] (by decide) rfl ?_
  simp only [ExactFields]
  exact ⟨exact_int nonText,exact_int invalidText,exact_int unavailable,exact_int outsidePeriod,trivial⟩

theorem rows_exact {α : Type} {f : α → Json} {rows : List α} (each : ∀ row ∈ rows,Exact (f row)) : Exact (.arr (rows.map f)) := by
  rw [Exact,exactItems_all]
  intro item member
  obtain ⟨row,there,rfl⟩ := mem_map.mp member
  exact each row there

theorem page_exact {i : Intent} {t : TaskPage} (sound : SoundPage i t) : Exact t.page.json := by
  obtain ⟨fromDate,toDate,_,_,_,oldest,newest,undated,pages,_,excluded⟩ := sound.reports
  obtain ⟨_,_,from_,to_,_⟩ := sound.before.1
  obtain ⟨_,_,_,_,_,_,_,_,_,old,new,undated_,pages_,_⟩ := sound.next.1
  have coverage : t.page.coverage.Natural := by
    refine ⟨?_,?_,?_,?_⟩
    · rw [oldest]
      exact natural_of_dates old
    · rw [newest]
      exact natural_of_dates new
    · rw [undated]
      exact undated_
    · rw [pages]
      exact pages_
  refine exact_obj ["schema","fromDate","toDate","messages","cursor","hasMore","status","coverage","excluded","limitations"]
    (by decide) rfl ?_
  simp only [ExactFields]
  refine ⟨trivial,?_,?_,rows_exact fun m member => message_exact (sound.messages m member),exact_nullable_str _,trivial,trivial,
    coverage_exact coverage,excluded_exact excluded,exact_strs _,trivial⟩
  · rw [fromDate]
    exact exact_int (natural_of_date from_)
  · rw [toDate]
    exact exact_int (natural_of_date to_)

theorem taskPage_exact {i : Intent} {t : TaskPage} (sound : SoundPage i t) : Exact t.json := by
  refine exact_obj ["page","sources","beforeCheckpoint","nextCheckpoint"] (by decide) rfl ?_
  simp only [ExactFields]
  exact ⟨page_exact sound,rows_exact fun s member => source_exact (sound.sources s member),checkpoint_exact sound.before,
    checkpoint_exact sound.next,trivial⟩

theorem observedSource_exact (s : ObservedSource) : Exact s.canonical := by
  refine exact_obj ["kind","peerId","sourceRef","workspaceId"] (by decide) rfl ?_
  simp only [ExactFields]
  exact ⟨trivial,trivial,trivial,trivial,trivial⟩

def intentKeys (source : Bool) : List String :=
  ["accountId","chatId","fromDate","objective","primaryMessageId","requesterId","schema"] ++ (if source then ["source"] else []) ++
    ["taskId","timezone","toDate"]

theorem intent_exact (valid : ValidIntent h i) : Exact i.canonical := by
  obtain ⟨_,_,_,_,primary,fromDate,toDate,_⟩ := valid
  have keys : ∀ source, (intentKeys source).Nodup := by decide
  have front : ExactFields [("accountId",.str i.accountId),("chatId",.str i.chatId),("fromDate",int i.fromDate),
      ("objective",.str i.objective),("primaryMessageId",int i.primaryMessageId),("requesterId",.str i.requesterId),
      ("schema",.str "standing-history-task-v1")] := by
    simp only [ExactFields]
    exact ⟨trivial,trivial,exact_int (natural_of_date fromDate),trivial,exact_int (natural_of_id primary),trivial,trivial,trivial⟩
  have back : ExactFields [("taskId",.str i.taskId),("timezone",.str i.timezone),("toDate",int i.toDate)] := by
    simp only [ExactFields]
    exact ⟨trivial,trivial,exact_int (natural_of_date toDate),trivial⟩
  rw [exactFields_all] at front back
  refine ⟨?_,(exactFields_all _).mpr fun f member => ?_⟩
  · cases i.source with
    | none => exact keys false
    | some s => exact keys true
  · rcases mem_append.mp member with first | last
    · rcases mem_append.mp first with fixed | source
      · exact front f fixed
      · cases is_ : i.source with
        | none => simp [is_,History.optional] at source
        | some s =>
          obtain rfl : f = ("source",s.canonical) := by simpa [is_,History.optional] using source
          exact observedSource_exact s
    · exact back f last

end Neurobro.Projection
