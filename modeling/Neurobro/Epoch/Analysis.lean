import Neurobro.Data.JsonOrder
import Neurobro.Data.JsonTokens
import Neurobro.Api.Text

/-! The input of a history analysis: a text that is accepted is one packet and nothing else, in
whatever order and spelling its members stand. -/
namespace Neurobro.Epoch.Analysis

open JsonText List

/-- An object that has these keys and no others. -/
def record (value : Json) (keys : List String) : Option Json :=
  match value with
  | .obj fields =>
    if fields.length = keys.length && keys.all fun k => (value.field? k).isSome then
      some (.obj (keys.filterMap fun k => (value.field? k).map fun v => (k,v)))
    else none
  | _ => none

def isText (value : Option Json) (max : Nat) : Bool :=
  match value with
  | some (.str s) => Telegram.textValid s max
  | _ => false

def isWord (value : Option Json) (word : String) : Bool := Json.strictEq value (some (.str word))

def analysisKeys (continuation source period : Bool) : List String :=
  ["schema","kind","objective","materialAvailable"] ++ (if continuation then ["continuation"] else []) ++
    (if source then ["sourceRef","sourceInterpretation"] else []) ++ (if period then ["periodChronicle"] else [])

def isPeriod (value : Option Json) : Bool :=
  match value.bind fun p => record p ["contextHash","neutralPeriodNotesAvailable","periodAdvisoryAvailable"] with
  | none => false
  | some p =>
    match p.field? "contextHash",p.field? "neutralPeriodNotesAvailable",p.field? "periodAdvisoryAvailable" with
    | some (.str hash),some (.bool notes),some (.bool advisory) => Telegram.hexRef "" 64 hash && (notes || advisory)
    | _,_,_ => false

def isFinal (kind : Option Json) : Bool := isWord kind "final-report" || isWord kind "final-report-review"

/-- The checks of a record with so many unquoted colons. -/
def isAnalysis (v : Json) (continuation source period : Bool) (unquoted : Nat) : Bool :=
  (!continuation || isText (v.field? "continuation") 1024) && (!period || isPeriod (v.field? "periodChronicle")) &&
  decide (unquoted = (analysisKeys continuation source period).length + (if period then 3 else 0)) &&
  isWord (v.field? "schema") "neurobro-history-analysis-input-v1" &&
  (!source || isWord (v.field? "sourceRef") "community" && isWord (v.field? "sourceInterpretation") "quoted-source-not-request") &&
  (isWord (v.field? "kind") "leaf" || isWord (v.field? "kind") "merge" || isFinal (v.field? "kind")) &&
  !(isFinal (v.field? "kind") && period) && isText (v.field? "objective") 4096 &&
  Json.strictEq (v.field? "materialAvailable") (some (.bool true))

def analysisRecord (parsed : Json) (unquoted : Nat) (continuation source period : Bool) : Bool :=
  match record parsed (analysisKeys continuation source period) with
  | none => false
  | some v => isAnalysis v continuation source period unquoted

/-- Whether the input is accepted; every refusal is the same protocol error. -/
def analysisInput (value : String) : Bool :=
  match parse value with
  | none => false
  | some parsed => analysisRecord parsed ((tokens value.toList).count [':']) (parsed.field? "continuation").isSome
      (parsed.field? "sourceRef").isSome (parsed.field? "periodChronicle").isSome

/-! ## What a packet is -/

inductive Kind where
  | leaf | merge | finalReport | finalReportReview
  deriving DecidableEq

def Kind.word : Kind → String
  | .leaf => "leaf"
  | .merge => "merge"
  | .finalReport => "final-report"
  | .finalReportReview => "final-report-review"

def Kind.final : Kind → Bool
  | .leaf | .merge => false
  | .finalReport | .finalReportReview => true

/-- The fixed marker of a period chronicle. -/
structure Period where
  contextHash : String
  neutralPeriodNotesAvailable : Bool
  periodAdvisoryAvailable : Bool
  hash : Telegram.hexRef "" 64 contextHash = true
  available : (neutralPeriodNotesAvailable || periodAdvisoryAvailable) = true

structure Packet where
  kind : Kind
  objective : String
  continuation : Option String
  /-- Whether a source of the community is quoted. -/
  source : Bool
  period : Option Period
  objectiveValid : Telegram.textValid objective 4096 = true
  continuationValid : ∀ c, continuation = some c → Telegram.textValid c 1024 = true
  plain : kind.final = true → period = none

def Period.members (p : Period) : List (String × Json) :=
  [("contextHash",.str p.contextHash),("neutralPeriodNotesAvailable",.bool p.neutralPeriodNotesAvailable),
    ("periodAdvisoryAvailable",.bool p.periodAdvisoryAvailable)]

/-- The members of a packet, where those of the period stand in some order. -/
def Packet.members (p : Packet) (period : List (String × Json)) : List (String × Json) :=
  [("schema",.str "neurobro-history-analysis-input-v1"),("kind",.str p.kind.word),("objective",.str p.objective),
      ("materialAvailable",.bool true)] ++ (p.continuation.map fun c => ("continuation",.str c)).toList ++
    (if p.source then [("sourceRef",.str "community"),("sourceInterpretation",.str "quoted-source-not-request")] else []) ++
    (p.period.map fun _ => ("periodChronicle",.obj period)).toList

/-- A tree is the packet, its members in any order. -/
def Packet.Writes (p : Packet) (tree : Json) : Prop :=
  ∃ members period, tree = .obj members ∧ (∀ q, p.period = some q → period.Perm q.members) ∧ members.Perm (p.members period)

/-! ## Records -/

theorem found_again (find : String → Option Json) (keys : List String) (k : String) :
    (Json.obj (keys.filterMap fun k => (find k).map fun v => (k,v))).field? k = if k ∈ keys then find k else none := by
  induction keys with
  | nil => rfl
  | cons key keys ih =>
    rw [Json.field?] at ih ⊢
    by_cases same : key = k
    · subst same
      cases is_ : find key with
      | none =>
        rw [filterMap_cons_none (by rw [is_]; rfl),ih,is_]
        split <;> simp
      | some v => simp [is_]
    · have other : k ≠ key := fun is_ => same is_.symm
      cases is_ : find key with
      | none =>
        rw [filterMap_cons_none (by rw [is_]; rfl),ih]
        simp [other]
      | some v =>
        rw [filterMap_cons_some (by rw [is_]; rfl),List.find?_cons_of_neg (by simpa using same),ih]
        simp [other]

/-- What a record that is accepted was. -/
theorem record_spec {value v : Json} {keys : List String} (once : keys.Nodup) (is_ : record value keys = some v) :
    ∃ fields, value = .obj fields ∧ (fields.map Prod.fst).Perm keys ∧ ∀ k ∈ keys, v.field? k = value.field? k := by
  cases value with
  | obj fields =>
    simp only [record] at is_
    split at is_
    · next whole =>
      cases is_
      rw [Bool.and_eq_true,decide_eq_true_iff,all_eq_true] at whole
      have sub : keys ⊆ fields.map Prod.fst := by
        intro k in_
        obtain ⟨v,found⟩ := Option.isSome_iff_exists.mp (whole.2 k in_)
        rw [Json.field?,Option.map_eq_some_iff] at found
        obtain ⟨f,found,-⟩ := found
        have named : f.1 = k := by simpa using List.find?_some found
        exact named ▸ mem_map_of_mem (mem_of_find?_eq_some found)
      have perm : keys.Perm (fields.map Prod.fst) :=
        (subperm_of_subset once sub).perm_of_length_le (by rw [length_map]; omega)
      exact ⟨fields,rfl,perm.symm,fun k in_ => by rw [found_again,if_pos in_]⟩
    · cases is_
  | _ => cases is_

theorem record_of {fields : List (String × Json)} {keys : List String} (once : keys.Nodup) (perm : (fields.map Prod.fst).Perm keys) :
    ∃ v, record (.obj fields) keys = some v ∧ ∀ k ∈ keys, v.field? k = (Json.obj fields).field? k := by
  have distinct : (fields.map Prod.fst).Nodup := perm.nodup_iff.mpr once
  have long : fields.length = keys.length := by simpa using perm.length_eq
  have all : (keys.all fun k => ((Json.obj fields).field? k).isSome) = true := by
    refine all_eq_true.mpr fun k in_ => ?_
    obtain ⟨f,there,rfl⟩ := mem_map.mp (perm.mem_iff.mpr in_)
    rw [(Json.field?_eq_some distinct).mpr there]
    rfl
  have whole : (decide (fields.length = keys.length) && keys.all fun k => ((Json.obj fields).field? k).isSome) = true := by
    simp [all,long]
  exact ⟨.obj (keys.filterMap fun k => ((Json.obj fields).field? k).map fun v => (k,v)),if_pos whole,
    fun k in_ => by rw [found_again,if_pos in_]⟩

/-- Members are known by their keys and by what is found under each. -/
theorem perm_of_found {fields members : List (String × Json)} (keys : (fields.map Prod.fst).Perm (members.map Prod.fst))
    (once : (members.map Prod.fst).Nodup) (found : ∀ m ∈ members, (Json.obj fields).field? m.1 = some m.2) :
    fields.Perm members := by
  have distinct : (fields.map Prod.fst).Nodup := keys.nodup_iff.mpr once
  refine (perm_ext_iff_of_nodup (List.Nodup.of_map _ distinct) (List.Nodup.of_map _ once)).mpr fun f => ⟨fun in_ => ?_,fun in_ => ?_⟩
  · obtain ⟨m,there,same⟩ := mem_map.mp (keys.mem_iff.mp (mem_map_of_mem in_))
    have is_ := found m there
    rw [same,(Json.field?_eq_some distinct).mpr in_] at is_
    rwa [Prod.ext same.symm (Option.some.inj is_)]
  · exact (Json.field?_eq_some distinct).mp (found f in_)

/-! ## The members of a packet -/

theorem analysisKeys_nodup (continuation source period : Bool) : (analysisKeys continuation source period).Nodup := by
  cases continuation <;> cases source <;> cases period <;> decide

theorem Packet.members_keys (p : Packet) (period : List (String × Json)) :
    (p.members period).map Prod.fst = analysisKeys p.continuation.isSome p.source p.period.isSome := by
  cases first : p.continuation <;> cases second : p.source <;> cases third : p.period <;>
    simp [Packet.members,analysisKeys,first,second,third]

theorem Packet.members_pairs (p : Packet) {period : List (String × Json)} (inner : ∀ q, p.period = some q → period.Perm q.members) :
    pairsMembers (p.members period) =
      (analysisKeys p.continuation.isSome p.source p.period.isSome).length + (if p.period.isSome then 3 else 0) := by
  cases third : p.period with
  | none =>
    cases first : p.continuation <;> cases second : p.source <;>
      simp [Packet.members,analysisKeys,first,second,third,pairsMembers,pairs]
  | some q =>
    have three : pairsMembers period = 3 := perm_pairs (inner q third)
    cases first : p.continuation <;> cases second : p.source <;>
      simp [Packet.members,analysisKeys,first,second,third,pairsMembers,pairs,three]

/-! ## What the checks come to -/

theorem isWord_iff {value : Option Json} {word : String} : isWord value word = true ↔ value = some (.str word) := by
  cases value with
  | none => simp [isWord,Json.strictEq]
  | some v => cases v <;> simp [isWord,Json.strictEq,Json.same]

theorem isTrue_iff {value : Option Json} : Json.strictEq value (some (.bool true)) = true ↔ value = some (.bool true) := by
  cases value with
  | none => simp [Json.strictEq]
  | some v => cases v <;> simp [Json.strictEq,Json.same]

theorem isText_iff {value : Option Json} {max : Nat} :
    isText value max = true ↔ ∃ s, value = some (.str s) ∧ Telegram.textValid s max = true := by
  cases value with
  | none => simp [isText]
  | some v => cases v <;> simp [isText]

theorem isFinal_word (kind : Kind) : isFinal (some (.str kind.word)) = kind.final := by
  cases kind <;> decide

theorem kind_iff {value : Option Json} : (isWord value "leaf" || isWord value "merge" || isFinal value) = true ↔
    ∃ kind : Kind, value = some (.str kind.word) := by
  simp only [isFinal,Bool.or_eq_true,isWord_iff]
  constructor
  · rintro ((is_ | is_) | is_ | is_)
    · exact ⟨.leaf,is_⟩
    · exact ⟨.merge,is_⟩
    · exact ⟨.finalReport,is_⟩
    · exact ⟨.finalReportReview,is_⟩
  · rintro ⟨kind,rfl⟩
    cases kind <;> simp [Kind.word]

theorem Period.members_keys (q : Period) :
    q.members.map Prod.fst = ["contextHash","neutralPeriodNotesAvailable","periodAdvisoryAvailable"] := rfl

theorem isPeriod_iff {value : Option Json} : isPeriod value = true ↔ ∃ inner, ∃ q : Period, value = some (.obj inner) ∧ inner.Perm q.members := by
  have once : ["contextHash","neutralPeriodNotesAvailable","periodAdvisoryAvailable"].Nodup := by decide
  constructor
  · intro is_
    cases value with
    | none => cases is_
    | some value =>
      rw [isPeriod,Option.bind_some] at is_
      cases whole : record value ["contextHash","neutralPeriodNotesAvailable","periodAdvisoryAvailable"] with
      | none => simp [whole] at is_
      | some p =>
        obtain ⟨inner,rfl,keys,found⟩ := record_spec once whole
        rw [whole] at is_
        simp only at is_
        split at is_
        · next hash notes advisory isHash isNotes isAdvisory =>
          rw [Bool.and_eq_true] at is_
          rw [found _ (by simp)] at isHash isNotes isAdvisory
          refine ⟨inner,⟨hash,notes,advisory,is_.1,is_.2⟩,rfl,perm_of_found keys once fun m in_ => ?_⟩
          simp only [Period.members,mem_cons,not_mem_nil,or_false] at in_
          rcases in_ with rfl | rfl | rfl
          · exact isHash
          · exact isNotes
          · exact isAdvisory
        · cases is_
  · rintro ⟨inner,q,rfl,perm⟩
    have keys : (inner.map Prod.fst).Perm ["contextHash","neutralPeriodNotesAvailable","periodAdvisoryAvailable"] := perm.map Prod.fst
    have distinct : (inner.map Prod.fst).Nodup := keys.nodup_iff.mpr once
    obtain ⟨p,whole,found⟩ := record_of once keys
    have read (m : String × Json) (in_ : m ∈ q.members) : p.field? m.1 = some m.2 := by
      rw [found m.1 (q.members_keys ▸ mem_map_of_mem in_)]
      exact (Json.field?_eq_some distinct).mpr (perm.mem_iff.mpr in_)
    have isHash := read ("contextHash",.str q.contextHash) (by simp [Period.members])
    have isNotes := read ("neutralPeriodNotesAvailable",.bool q.neutralPeriodNotesAvailable) (by simp [Period.members])
    have isAdvisory := read ("periodAdvisoryAvailable",.bool q.periodAdvisoryAvailable) (by simp [Period.members])
    simp only at isHash isNotes isAdvisory
    simp only [isPeriod,Option.bind_some,whole,isHash,isNotes,isAdvisory,q.hash,q.available,Bool.and_self]

/-- What an optional text comes to. -/
theorem continuation_iff {find : Option Json} {given : Bool} : (!given || isText find 1024) = true ↔
    ∃ c : Option String, c.isSome = given ∧ ∀ s, c = some s → find = some (.str s) ∧ Telegram.textValid s 1024 = true := by
  cases given with
  | false => simp
  | true =>
    rw [Bool.not_true,Bool.false_or,isText_iff]
    constructor
    · rintro ⟨s,is_,valid⟩
      exact ⟨some s,rfl,fun t same => Option.some.inj same ▸ ⟨is_,valid⟩⟩
    · rintro ⟨c,some_,all⟩
      obtain ⟨s,rfl⟩ := Option.isSome_iff_exists.mp some_
      exact ⟨s,all s rfl⟩

theorem period_iff {find : Option Json} {given : Bool} : (!given || isPeriod find) = true ↔
    ∃ inner, ∃ o : Option Period, o.isSome = given ∧ ∀ q, o = some q → find = some (.obj inner) ∧ inner.Perm q.members := by
  cases given with
  | false => simp
  | true =>
    rw [Bool.not_true,Bool.false_or,isPeriod_iff]
    constructor
    · rintro ⟨inner,q,is_,perm⟩
      exact ⟨inner,some q,rfl,fun r same => Option.some.inj same ▸ ⟨is_,perm⟩⟩
    · rintro ⟨inner,o,some_,all⟩
      obtain ⟨q,rfl⟩ := Option.isSome_iff_exists.mp some_
      exact ⟨inner,q,all q rfl⟩

/-- The record is accepted with as many colons as a packet has members. -/
theorem analysisRecord_iff {parsed : Json} {unquoted : Nat} :
    analysisRecord parsed unquoted continuation source period = true ↔
      unquoted = (analysisKeys continuation source period).length + (if period then 3 else 0) ∧
        ∃ p : Packet, p.Writes parsed ∧ p.continuation.isSome = continuation ∧ p.source = source ∧ p.period.isSome = period := by
  have once := analysisKeys_nodup continuation source period
  constructor
  · intro is_
    rw [analysisRecord] at is_
    cases whole : record parsed (analysisKeys continuation source period) with
    | none => simp [whole] at is_
    | some v =>
      obtain ⟨fields,rfl,keys,found⟩ := record_spec once whole
      rw [whole] at is_
      simp only [isAnalysis,Bool.and_eq_true,decide_eq_true_eq,isWord_iff,isTrue_iff] at is_
      obtain ⟨⟨⟨⟨⟨⟨⟨⟨more,marker⟩,count⟩,schema⟩,quoted⟩,kind⟩,plain⟩,objective⟩,available⟩ := is_
      obtain ⟨text,textGiven,texts⟩ := continuation_iff.mp more
      obtain ⟨inner,chronicle,chronicleGiven,chronicles⟩ := period_iff.mp marker
      obtain ⟨k,isKind⟩ := kind_iff.mp kind
      obtain ⟨o,isObjective,valid⟩ := isText_iff.mp objective
      rw [isKind,isFinal_word] at plain
      let p : Packet := {
        kind := k, objective := o, continuation := text, source := source, period := chronicle
        objectiveValid := valid
        continuationValid := fun c is_ => (texts c is_).2
        plain := fun final => by
          rw [← Option.not_isSome_iff_eq_none,chronicleGiven]
          simpa [final] using plain }
      have shape : (p.members inner).map Prod.fst = analysisKeys continuation source period := by
        rw [p.members_keys,← textGiven,← chronicleGiven]
      have read : ∀ m ∈ p.members inner, v.field? m.1 = some m.2 := by
        intro m in_
        simp only [Packet.members,mem_append,mem_cons,not_mem_nil,or_false,Option.mem_toList,
          Option.map_eq_some_iff] at in_
        rcases in_ with (((rfl | rfl | rfl | rfl) | ⟨c,is_,rfl⟩) | in_) | ⟨q,is_,rfl⟩
        · exact schema
        · exact isKind
        · exact isObjective
        · exact available
        · exact (texts c is_).1
        · cases given : source with
          | false => simp [p,given] at in_
          | true =>
            have both := quoted
            simp only [given,Bool.not_true,Bool.false_or,Bool.and_eq_true,isWord_iff] at both
            simp only [p,given,if_true,mem_cons,not_mem_nil,or_false] at in_
            rcases in_ with rfl | rfl
            · exact both.1
            · exact both.2
        · exact (chronicles q is_).1
      have members : fields.Perm (p.members inner) := by
        refine perm_of_found (shape ▸ keys) (shape ▸ once) fun m in_ => ?_
        rw [← found m.1 (shape ▸ mem_map_of_mem in_)]
        exact read m in_
      exact ⟨count,p,⟨fields,inner,rfl,fun q is_ => (chronicles q is_).2,members⟩,textGiven,rfl,chronicleGiven⟩
  · rintro ⟨count,p,⟨fields,inner,rfl,marker,members⟩,rfl,rfl,rfl⟩
    have keys : (fields.map Prod.fst).Perm (analysisKeys p.continuation.isSome p.source p.period.isSome) :=
      p.members_keys inner ▸ members.map Prod.fst
    have distinct : (fields.map Prod.fst).Nodup := keys.nodup_iff.mpr once
    obtain ⟨v,whole,found⟩ := record_of once keys
    have read : ∀ m ∈ p.members inner, v.field? m.1 = some m.2 := by
      intro m in_
      rw [found m.1 (p.members_keys inner ▸ mem_map_of_mem in_)]
      exact (Json.field?_eq_some distinct).mpr (members.mem_iff.mpr in_)
    have schema := read ("schema",.str "neurobro-history-analysis-input-v1") (by simp [Packet.members])
    have kind := read ("kind",.str p.kind.word) (by simp [Packet.members])
    have objective := read ("objective",.str p.objective) (by simp [Packet.members])
    have available := read ("materialAvailable",.bool true) (by simp [Packet.members])
    simp only at schema kind objective available
    rw [analysisRecord,whole]
    simp only [isAnalysis,Bool.and_eq_true,decide_eq_true_eq,isWord_iff,isTrue_iff,continuation_iff,period_iff]
    refine ⟨⟨⟨⟨⟨⟨⟨⟨⟨p.continuation,rfl,fun s is_ => ⟨?_,p.continuationValid s is_⟩⟩,⟨inner,p.period,rfl,fun q is_ => ⟨?_,marker q is_⟩⟩⟩,
      count⟩,schema⟩,?_⟩,kind_iff.mpr ⟨p.kind,kind⟩⟩,?_⟩,isText_iff.mpr ⟨p.objective,objective,p.objectiveValid⟩⟩,available⟩
    · exact read ("continuation",.str s) (by simp [Packet.members,is_])
    · exact read ("periodChronicle",.obj inner) (by simp [Packet.members,is_])
    · cases given : p.source with
      | false => rfl
      | true =>
        have ref := read ("sourceRef",.str "community") (by simp [Packet.members,given])
        have interpretation := read ("sourceInterpretation",.str "quoted-source-not-request") (by simp [Packet.members,given])
        simp only at ref interpretation
        simp [isWord_iff,ref,interpretation]
    · rw [kind,isFinal_word]
      cases final : p.kind.final with
      | false => rfl
      | true => simp [p.plain final]

/-! ## What is accepted -/

theorem isSome_field {fields : List (String × Json)} {key : String} :
    ((Json.obj fields).field? key).isSome = true ↔ key ∈ fields.map Prod.fst := by
  rw [Json.field?,Option.isSome_map,List.find?_isSome]
  simp

/-- What a packet says of its optional members. -/
theorem Packet.Writes.given {p : Packet} (writes : p.Writes tree) :
    (tree.field? "continuation").isSome = p.continuation.isSome ∧ (tree.field? "sourceRef").isSome = p.source ∧
      (tree.field? "periodChronicle").isSome = p.period.isSome := by
  obtain ⟨fields,inner,rfl,-,members⟩ := writes
  have keys (key : String) : key ∈ fields.map Prod.fst ↔ key ∈ analysisKeys p.continuation.isSome p.source p.period.isSome := by
    rw [(members.map Prod.fst).mem_iff,p.members_keys]
  refine ⟨Bool.eq_iff_iff.mpr (isSome_field.trans ((keys _).trans ?_)),Bool.eq_iff_iff.mpr (isSome_field.trans ((keys _).trans ?_)),
    Bool.eq_iff_iff.mpr (isSome_field.trans ((keys _).trans ?_))⟩ <;>
    cases p.continuation.isSome <;> cases p.source <;> cases p.period.isSome <;> decide

theorem Packet.Writes.pairs {p : Packet} (writes : p.Writes tree) : pairs tree =
    (analysisKeys p.continuation.isSome p.source p.period.isSome).length + (if p.period.isSome then 3 else 0) := by
  obtain ⟨fields,inner,rfl,marker,members⟩ := writes
  rw [JsonText.pairs,perm_pairs members,p.members_pairs marker]

/-- An input is accepted exactly when it is the text of a packet in which no key stands twice. -/
theorem analysisInput_iff (value : String) :
    analysisInput value = true ↔ ∃ tree, written value = some tree ∧ Once tree ∧ ∃ p : Packet, p.Writes tree := by
  rw [analysisInput,parse_written]
  constructor
  · intro accepted
    cases is_ : written value with
    | none => simp [is_] at accepted
    | some tree =>
      rw [is_] at accepted
      obtain ⟨count,p,writes,continuation,source,period⟩ := analysisRecord_iff.mp accepted
      have same : pairs (made tree) = pairs tree := by
        rw [writes.pairs,continuation,source,period,← count]
        exact written_colons is_
      have once : Once tree := (once_iff tree).mpr same
      exact ⟨tree,rfl,once,p,made_once tree once ▸ writes⟩
  · rintro ⟨tree,is_,once,p,writes⟩
    rw [is_,Option.map_some,made_once tree once]
    obtain ⟨continuation,source,period⟩ := writes.given
    refine analysisRecord_iff.mpr ⟨?_,p,writes,continuation.symm,source.symm,period.symm⟩
    rw [continuation,source,period,← writes.pairs]
    exact written_colons is_

end Neurobro.Epoch.Analysis
