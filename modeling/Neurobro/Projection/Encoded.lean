import Neurobro.Data.JsonAlike
import Neurobro.Projection.Source

/-! The records that are put under a code are known by what is written of them. -/
namespace Neurobro.Projection

open Telegram History Json List

@[simp] theorem alike_int {n m : Int} : Json.Alike utf16Order (int n) (int m) ↔ n = m := by simp [int]

@[simp] theorem alike_nullable_int {a b : Option Int} : Json.Alike utf16Order (nullable int a) (nullable int b) ↔ a = b := by
  cases a <;> cases b <;> simp [nullable]
  all_goals simp [Json.Alike,arrange,int]

@[simp] theorem alike_nullable_str : Json.Alike utf16Order (nullable .str a) (nullable .str b) ↔ a = b := by
  cases a <;> cases b <;> simp [nullable]
  all_goals simp [Json.Alike,arrange]

@[simp] theorem status_text_inj {a b : Status} : a.text = b.text ↔ a = b := by
  cases a <;> cases b <;> simp [Status.text]

@[simp] theorem author_text_inj {a b : Author} : a.text = b.text ↔ a = b := by
  cases a <;> cases b <;> simp [Author.text]

@[simp] theorem disposition_text_inj {a b : Disposition} : a.text = b.text ↔ a = b := by
  cases a <;> cases b <;> simp [Disposition.text]

theorem checkpoint_inj {a b : Checkpoint} (same : Json.Alike utf16Order a.json b.json) : a = b := by
  have fields := alike_obj ["schema","accountId","chatId","fromDate","toDate","offsetId","lastDate","oldestDate","newestDate",
    "undated","pages","inexact","upperBoundMessageId","status"] (by decide) rfl rfl same
  simp only [AlikeFields,alike_str,alike_int,alike_nullable_int,alike_bool,status_text_inj,and_true,true_and] at fields
  cases a
  cases b
  simp_all

theorem forwarded_inj {a b : Forwarded} (same : Json.Alike utf16Order a.json b.json) : a = b := by
  have fields := alike_obj ["originalDate","sourceName","interpretation"] (by decide) rfl rfl same
  simp only [AlikeFields,alike_str,alike_int,alike_nullable_str,and_true] at fields
  cases a
  cases b
  simp_all

theorem message_inj {a b : Message} (same : Json.Alike utf16Order a.json b.json) : a = b := by
  -- the key list tells whether the row was forwarded
  have keys := (alike_keys same).mem_iff (a := "forwarded")
  obtain ⟨ref,authorRef,author,displayName,date,editedAt,replyRef,replyUnavailable,text,forwarded⟩ := a
  obtain ⟨ref',authorRef',author',displayName',date',editedAt',replyRef',replyUnavailable',text',forwarded'⟩ := b
  cases forwarded <;> cases forwarded' <;> simp [History.optional] at keys
  case none.none =>
    have fields := alike_obj ["ref","authorRef","author","displayName","date","editedAt","replyRef","replyUnavailable","text"]
      (by decide) rfl rfl same
    simp only [History.optional,Option.map_none,Option.toList_none,append_nil,AlikeFields,alike_str,alike_int,
      alike_nullable_int,alike_nullable_str,alike_bool,author_text_inj,and_true] at fields
    simp_all
  case some.some f f' =>
    have fields := alike_obj ["ref","authorRef","author","displayName","date","editedAt","replyRef","replyUnavailable","text",
      "forwarded"] (by decide) rfl rfl same
    simp only [History.optional,Option.map_some,Option.toList_some,cons_append,nil_append,AlikeFields,alike_str,alike_int,
      alike_nullable_int,alike_nullable_str,alike_bool,author_text_inj,and_true] at fields
    have inner := forwarded_inj fields.2.2.2.2.2.2.2.2.2
    simp_all

theorem mem_optional {α : Type} {key name : String} {f : α → Json} {value : Option α} :
    key ∈ (History.optional name f value).map Prod.fst ↔ key = name ∧ value.isSome = true := by
  cases value <;> simp [History.optional]

theorem optional_length {α : Type} {name : String} {f : α → Json} {a b : Option α} (both : a.isSome = b.isSome) :
    (History.optional name f a).length = (History.optional name f b).length := by
  cases a <;> cases b <;> simp [History.optional] at both ⊢

/-- A property that may be left out is known from the object. -/
theorem optional_inj {α : Type} {name : String} {f : α → Json} (known : ∀ {a b}, Json.Alike utf16Order (f a) (f b) → a = b)
    {a b : Option α} (same : AlikeFields utf16Order (History.optional name f a) (History.optional name f b)) : a = b := by
  cases a with
  | none =>
    cases b with
    | none => rfl
    | some => cases same
  | some =>
    cases b with
    | none => cases same
    | some => rw [known same.1]

def sourceKeys (messageRef authorId replyToMessageId : Bool) : List String :=
  ["messageId","date","disposition"] ++ (if messageRef then ["messageRef"] else []) ++ (if authorId then ["authorId"] else []) ++
    if replyToMessageId then ["replyToMessageId"] else []

theorem source_keys (s : Source) : (([("messageId",int s.messageId),("date",nullable int s.date),
    ("disposition",.str s.disposition.text)] ++ History.optional "messageRef" .str s.messageRef ++
    History.optional "authorId" .str s.authorId ++ History.optional "replyToMessageId" int s.replyToMessageId :
      List (String × Json)).map Prod.fst) = sourceKeys s.messageRef.isSome s.authorId.isSome s.replyToMessageId.isSome := by
  cases s.messageRef <;> cases s.authorId <;> cases s.replyToMessageId <;> rfl

theorem sourceKeys_once : ∀ messageRef authorId replyToMessageId, (sourceKeys messageRef authorId replyToMessageId).Nodup := by
  decide

theorem source_inj {a b : Source} (same : Json.Alike utf16Order a.json b.json) : a = b := by
  have both (key : String) := (alike_keys same).mem_iff (a := key)
  simp only [map_append,mem_append,mem_optional] at both
  have refs : a.messageRef.isSome = b.messageRef.isSome := Bool.eq_iff_iff.mpr (by simpa using both "messageRef")
  have authors : a.authorId.isSome = b.authorId.isSome := Bool.eq_iff_iff.mpr (by simpa using both "authorId")
  have replies : a.replyToMessageId.isSome = b.replyToMessageId.isSome :=
    Bool.eq_iff_iff.mpr (by simpa using both "replyToMessageId")
  have fields := alike_obj (sourceKeys a.messageRef.isSome a.authorId.isSome a.replyToMessageId.isSome) (sourceKeys_once _ _ _)
    (source_keys a) (by rw [refs,authors,replies]; exact source_keys b) same
  obtain ⟨fields,reply⟩ := alikeFields_append (by simp [optional_length refs,optional_length authors]) fields
  obtain ⟨fields,author⟩ := alikeFields_append (by simp [optional_length refs]) fields
  obtain ⟨front,ref⟩ := alikeFields_append (by rfl) fields
  have ref_ := optional_inj alike_str.mp ref
  have author_ := optional_inj alike_str.mp author
  have reply_ := optional_inj alike_int.mp reply
  simp only [AlikeFields,alike_str,alike_int,alike_nullable_int,disposition_text_inj,and_true] at front
  cases a
  cases b
  simp_all

theorem coverage_inj {a b : Coverage} (same : Json.Alike utf16Order a.json b.json) : a = b := by
  have fields := alike_obj ["scope","oldestExaminedDate","newestExaminedDate","traversalComplete","undatedEntries","pages"]
    (by decide) rfl rfl same
  simp only [AlikeFields,alike_str,alike_int,alike_nullable_int,alike_bool,and_true] at fields
  cases a
  cases b
  simp_all

theorem excluded_inj {a b : Excluded} (same : Json.Alike utf16Order a.json b.json) : a = b := by
  have fields := alike_obj ["nonText","invalidText","unavailable","outsidePeriod"] (by decide) rfl rfl same
  simp only [AlikeFields,alike_int,and_true] at fields
  cases a
  cases b
  simp_all

theorem alike_rows {α : Type} {f : α → Json} (known : ∀ {a b}, Json.Alike utf16Order (f a) (f b) → a = b) {as bs : List α}
    (same : Json.Alike utf16Order (.arr (as.map f)) (.arr (bs.map f))) : as = bs :=
  alike_map (P := fun _ => True) (fun _ _ _ _ => known) (fun _ _ => trivial) (fun _ _ => trivial) same

theorem page_inj {a b : Page} (same : Json.Alike utf16Order a.json b.json) : a = b := by
  have fields := alike_obj ["schema","fromDate","toDate","messages","cursor","hasMore","status","coverage","excluded",
    "limitations"] (by decide) rfl rfl same
  simp only [AlikeFields,alike_str,alike_int,alike_nullable_str,alike_bool,status_text_inj,and_true] at fields
  obtain ⟨_,fromDate,toDate,messages,cursor,hasMore,status,coverage,excluded,_⟩ := fields
  have rows := alike_rows message_inj messages
  have cover := coverage_inj coverage
  have out := excluded_inj excluded
  cases a
  cases b
  simp_all

theorem taskPage_inj {a b : TaskPage} (same : Json.Alike utf16Order a.json b.json) : a = b := by
  have fields := alike_obj ["page","sources","beforeCheckpoint","nextCheckpoint"] (by decide) rfl rfl same
  simp only [AlikeFields,and_true] at fields
  obtain ⟨page,sources,before,next⟩ := fields
  have page_ := page_inj page
  have sources_ := alike_rows source_inj sources
  have before_ := checkpoint_inj before
  have next_ := checkpoint_inj next
  cases a
  cases b
  simp_all

theorem storedPage_inj {a b : StoredPage} (same : Json.Alike utf16Order a.json b.json) : a = b := by
  have fields := alike_obj ["index","hash","result"] (by decide) rfl rfl same
  simp only [AlikeFields,alike_str,alike_int,and_true] at fields
  have result := taskPage_inj fields.2.2
  cases a
  cases b
  simp_all

theorem observedSource_inj {a b : ObservedSource} (same : Json.Alike utf16Order a.canonical b.canonical) : a = b := by
  have fields := alike_obj ["kind","peerId","sourceRef","workspaceId"] (by decide) rfl rfl same
  simp only [AlikeFields,alike_str,and_true,true_and] at fields
  cases a
  cases b
  simp_all

theorem intent_inj {a b : Intent} (same : Json.Alike utf16Order a.canonical b.canonical) : a = b := by
  have keys := (alike_keys same).mem_iff (a := "source")
  obtain ⟨taskId,accountId,chatId,requesterId,primaryMessageId,fromDate,toDate,timezone,objective,source⟩ := a
  obtain ⟨taskId',accountId',chatId',requesterId',primaryMessageId',fromDate',toDate',timezone',objective',source'⟩ := b
  cases source <;> cases source' <;> simp [History.optional] at keys
  case none.none =>
    have fields := alike_obj ["accountId","chatId","fromDate","objective","primaryMessageId","requesterId","schema","taskId",
      "timezone","toDate"] (by decide) rfl rfl same
    simp only [History.optional,Option.map_none,Option.toList_none,append_nil,cons_append,nil_append,AlikeFields,
      alike_str,alike_int,and_true] at fields
    simp_all
  case some.some s s' =>
    have fields := alike_obj ["accountId","chatId","fromDate","objective","primaryMessageId","requesterId","schema","source",
      "taskId","timezone","toDate"] (by decide) rfl rfl same
    simp only [History.optional,Option.map_some,Option.toList_some,cons_append,nil_append,AlikeFields,alike_str,alike_int,
      and_true] at fields
    have inner := observedSource_inj fields.2.2.2.2.2.2.2.1
    simp_all

end Neurobro.Projection
