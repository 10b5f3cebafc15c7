import Mathlib.Data.List.Pairwise
import Neurobro.Formatting.Entities

/-! What is kept of a message's markup: entities that fit the text, and of two that overlap one
within the other. The list is in one order, whatever order it came in, and the wire keeps it. -/
namespace Neurobro.Formatting

open Telegram List

namespace TextEntity

def Overlaps (a b : TextEntity) : Prop := a.offset < b.stop ∧ b.offset < a.stop

def Within (a b : TextEntity) : Prop := b.offset ≤ a.offset ∧ a.stop ≤ b.stop

def Literal (e : TextEntity) : Prop := e.type = .code ∨ e.type = .pre

/-- Code stands alone, and neither links nor quotes nor the same markup go twice. -/
structure Permitted (a b : TextEntity) : Prop where
  first : ¬a.Literal
  second : ¬b.Literal
  link : ¬(a.type = .textUrl ∧ b.type = .textUrl)
  quote : ¬(a.type = .blockquote ∧ b.type = .blockquote)
  once : ¬(a.offset = b.offset ∧ a.length = b.length ∧ a.type = b.type)

def Compatible (a b : TextEntity) : Prop := a.Overlaps b → (a.Within b ∨ b.Within a) ∧ a.Permitted b

variable {a b c : TextEntity}

theorem Permitted.symm (permitted : a.Permitted b) : b.Permitted a :=
  ⟨permitted.second,permitted.first,fun both => permitted.link both.symm,fun both => permitted.quote both.symm,
    fun ⟨offset,length,type⟩ => permitted.once ⟨offset.symm,length.symm,type.symm⟩⟩

theorem Compatible.symm (compatible : a.Compatible b) : b.Compatible a := by
  intro overlap
  obtain ⟨nested,permitted⟩ := compatible ⟨overlap.2,overlap.1⟩
  exact ⟨nested.symm,permitted.symm⟩

instance : Std.Symm Compatible := ⟨fun _ _ compatible => compatible.symm⟩

/-- Nothing there that starts after it ends. -/
theorem Compatible.apart (after : a.stop ≤ b.offset) : a.Compatible b := by
  intro overlap
  have := overlap.2
  omega

end TextEntity

open TextEntity

section Order
variable {a b c : TextEntity}

theorem ahead_offset (first : ahead a b) : a.offset ≤ b.offset := by
  obtain less | ⟨same,_⟩ := first
  · exact Int.le_of_lt less
  · exact Int.le_of_eq same

theorem ahead_total (a b : TextEntity) : ahead a b ∨ ahead b a := by
  unfold ahead
  omega

theorem ahead_trans (first : ahead a b) (second : ahead b c) : ahead a c := by
  unfold ahead at *
  omega

instance : Std.Total ahead := ⟨ahead_total⟩

instance : IsTrans TextEntity ahead := ⟨fun _ _ _ => ahead_trans⟩

theorem typeOrder_injective (same : typeOrder s = typeOrder t) : s = t := by
  cases s <;> cases t <;> first | rfl | cases same

/-- Two that are ahead of each other are the same markup of the same stretch. -/
theorem ahead_both (first : ahead a b) (second : ahead b a) : a.offset = b.offset ∧ a.length = b.length ∧ a.type = b.type := by
  have same : a.offset = b.offset ∧ a.length = b.length ∧ typeOrder a.type = typeOrder b.type := by
    unfold ahead at *
    omega
  exact ⟨same.1,same.2.1,typeOrder_injective same.2.2⟩

theorem clashes_iff (first : ahead a b) (overlap : b.offset < a.stop) (some_ : 0 < b.length) :
    clashes a b = false ↔ a.Compatible b := by
  have before : a.offset ≤ b.offset := ahead_offset first
  have meets : a.Overlaps b := by
    refine ⟨?_,overlap⟩
    unfold stop
    omega
  simp only [clashes,Bool.or_eq_false_iff,decide_eq_false_iff_not]
  constructor
  · rintro ⟨⟨⟨⟨⟨⟨⟨inside,code⟩,pre⟩,code'⟩,pre'⟩,link⟩,quote⟩,once⟩ _
    exact ⟨.inr ⟨before,by omega⟩,⟨by rintro (no | no) <;> contradiction,by rintro (no | no) <;> contradiction,
      link,quote,once⟩⟩
  · intro compatible
    obtain ⟨nested,permitted⟩ := compatible meets
    have inside : ¬a.stop < b.stop := by
      obtain within | within := nested
      · have := within.1
        have := within.2
        unfold ahead at first
        unfold stop at *
        omega
      · have := within.2
        omega
    exact ⟨⟨⟨⟨⟨⟨⟨inside,fun no => permitted.first (.inl no)⟩,fun no => permitted.first (.inr no)⟩,
      fun no => permitted.second (.inl no)⟩,fun no => permitted.second (.inr no)⟩,permitted.link⟩,permitted.quote⟩,permitted.once⟩

end Order

section Scan
variable {left : TextEntity} {entities : List TextEntity}

/-- The first that starts after this one ends is where all later ones do. -/
theorem clear_iff (ordered : (left :: entities).Pairwise ahead) (some_ : ∀ e ∈ entities, 0 < e.length) :
    clear left entities = true ↔ ∀ right ∈ entities, left.Compatible right := by
  induction entities with
  | nil => simp [clear]
  | cons right rest ih =>
    obtain ⟨first,later⟩ := pairwise_cons.mp ordered
    obtain ⟨after,tail⟩ := pairwise_cons.mp later
    have skipped : (left :: rest).Pairwise ahead :=
      pairwise_cons.mpr ⟨fun e member => first e (mem_cons_of_mem _ member),tail⟩
    have rest_ := ih skipped fun e member => some_ e (mem_cons_of_mem _ member)
    by_cases beyond : left.stop ≤ right.offset
    · simp only [clear,if_pos beyond,true_iff]
      intro e member
      obtain rfl | member := mem_cons.mp member
      · exact .apart beyond
      · exact .apart (beyond.trans (ahead_offset (after e member)))
    · have one := clashes_iff (first right mem_cons_self) (Int.not_le.mp beyond) (some_ right mem_cons_self)
      rw [clear,if_neg beyond,forall_mem_cons,← one,← rest_]
      cases clashes left right <;> simp

theorem scan_iff (ordered : entities.Pairwise ahead) (some_ : ∀ e ∈ entities, 0 < e.length) :
    scan entities = true ↔ entities.Pairwise Compatible := by
  induction entities with
  | nil => simp [scan]
  | cons left rest ih =>
    have later := fun e member => some_ e (mem_cons_of_mem left member)
    rw [scan,Bool.and_eq_true,pairwise_cons,clear_iff ordered later,ih ordered.tail later]

end Scan

section Normal
variable {h : Host} {text : Units} {entities result : List TextEntity}

theorem validEntity_some (valid : validEntity h text e = true) : 0 < e.length := by
  simp only [validEntity,validSpan,Bool.and_eq_true,decide_eq_true_eq] at valid
  exact valid.1.1.1.1.2

/-- What is kept is what came, in order. -/
theorem normalized_some (kept : normalized h text entities = some result) :
    validText text = true ∧ (∀ e ∈ entities, validEntity h text e = true) ∧ entities.Pairwise Compatible ∧
      result = entities.insertionSort ahead := by
  unfold normalized at kept
  by_cases refused : (!validText text || !entities.all (validEntity h text)) = true
  · rw [if_pos refused] at kept
    cases kept
  rw [if_neg refused] at kept
  simp only [Bool.or_eq_true,Bool.not_eq_true',not_or,Bool.not_eq_false,all_eq_true] at refused
  obtain ⟨fine,valid⟩ := refused
  by_cases scanned : scan (entities.insertionSort ahead) = true
  · rw [if_pos scanned] at kept
    refine ⟨fine,valid,?_,(Option.some.inj kept).symm⟩
    have sorted := (scan_iff (pairwise_insertionSort ahead entities) fun e member =>
      validEntity_some (valid e ((mem_insertionSort ahead).mp member))).mp scanned
    exact (List.Perm.pairwise_iff Compatible.symm (perm_insertionSort ahead entities)).mp sorted
  · rw [if_neg scanned] at kept
    cases kept

theorem normalized_of (fine : validText text = true) (valid : ∀ e ∈ entities, validEntity h text e = true)
    (compatible : entities.Pairwise Compatible) : normalized h text entities = some (entities.insertionSort ahead) := by
  have sorted := (List.Perm.pairwise_iff Compatible.symm (perm_insertionSort ahead entities)).mpr compatible
  have scanned := (scan_iff (pairwise_insertionSort ahead entities) fun e member =>
    validEntity_some (valid e ((mem_insertionSort ahead).mp member))).mpr sorted
  have all : entities.all (validEntity h text) = true := all_eq_true.mpr valid
  simp [normalized,fine,all,scanned]

/-- Two lists of the same entities are put in the same order. -/
theorem sorted_perm (perm : entities.Perm entities') (some_ : ∀ e ∈ entities, 0 < e.length)
    (compatible : entities.Pairwise Compatible) : entities.insertionSort ahead = entities'.insertionSort ahead := by
  apply List.Perm.eq_of_pairwise _ (pairwise_insertionSort ahead _) (pairwise_insertionSort ahead _)
    ((perm_insertionSort ahead _).trans (perm.trans (perm_insertionSort ahead _).symm))
  intro a b inFirst inSecond first second
  by_contra other
  have member := (mem_insertionSort ahead).mp inFirst
  have member' := perm.mem_iff.mpr ((mem_insertionSort ahead).mp inSecond)
  have both := compatible.forall member member' other
  obtain ⟨offset,length,type⟩ := ahead_both first second
  have overlap : a.Overlaps b := by
    have := some_ a member
    unfold Overlaps stop
    omega
  exact (both overlap).2.once ⟨offset,length,type⟩

theorem normalized_perm (perm : entities.Perm entities') : normalized h text entities = normalized h text entities':= by
  have one : ∀ {xs ys result}, xs.Perm ys → normalized h text xs = some result → normalized h text ys = some result := by
    intro xs ys result perm kept
    obtain ⟨fine,valid,compatible,rfl⟩ := normalized_some kept
    rw [sorted_perm perm (fun e member => validEntity_some (valid e member)) compatible]
    exact normalized_of fine (fun e member => valid e (perm.mem_iff.mpr member))
      ((List.Perm.pairwise_iff Compatible.symm perm).mp compatible)
  cases kept : normalized h text entities with
  | some result => exact (one perm kept).symm
  | none =>
    cases kept' : normalized h text entities' with
    | none => rfl
    | some result => rw [one perm.symm kept'] at kept; cases kept

theorem normalized_result (kept : normalized h text entities = some result) : result.Perm entities := by
  obtain ⟨_,_,_,rfl⟩ := normalized_some kept
  exact perm_insertionSort ahead entities

/-! ## The wire -/

theorem projected_wire (valid : validEntity h text e = true) : projected text (toTelegramEntity e) = some (some e):= by
  have span : validSpan text e.offset e.length = true := (Bool.and_eq_true_iff.mp valid).1
  obtain ⟨mark,offset,length⟩ := e
  cases mark <;> simp_all [toTelegramEntity,TlEntity.new,projected,tlArguments,argumentKeys,TlClass.mark]

theorem fromTelegramEntities_wire (fine : validText text = true) (valid : ∀ e ∈ result, validEntity h text e = true) :
    fromTelegramEntities h text (result.map toTelegramEntity) = normalized h text result := by
  have found : (result.map toTelegramEntity).mapM (projected text) = some (result.map some) := by
    clear fine
    induction result with
    | nil => rfl
    | cons e rest ih =>
      have later := ih fun e member => valid e (mem_cons_of_mem _ member)
      simp [projected_wire (valid e mem_cons_self),later]
  simp [fromTelegramEntities,fine,found,filterMap_map]

end Normal

/-- The normaliser takes a text of at most so many bytes with entities that fit it, of which any
two that overlap go together one within the other. Its result is in the one order, whatever
order they came in, is not changed again, and comes back from the wire as it was. -/
theorem normalized_canonical (h : Host) (text : Units) :
    (∀ entities, (normalized h text entities).isSome = true ↔
      validText text = true ∧ (∀ e ∈ entities, validEntity h text e = true) ∧ entities.Pairwise Compatible) ∧
    (∀ entities entities', entities.Perm entities' → normalized h text entities = normalized h text entities') ∧
    ∀ entities result, normalized h text entities = some result →
      result.Perm entities ∧ normalized h text result = some result ∧
        (toTelegramEntities h text result).bind (fromTelegramEntities h text) = some result := by
  refine ⟨fun entities => ⟨fun kept => ?_,fun ⟨fine,valid,compatible⟩ => ?_⟩,fun entities entities' perm => normalized_perm perm,
    fun entities result kept => ?_⟩
  · obtain ⟨result,kept⟩ := Option.isSome_iff_exists.mp kept
    obtain ⟨fine,valid,compatible,_⟩ := normalized_some kept
    exact ⟨fine,valid,compatible⟩
  · rw [normalized_of fine valid compatible]
    rfl
  · have perm := normalized_result kept
    have again : normalized h text result = some result := (normalized_perm perm).trans kept
    obtain ⟨fine,valid,_⟩ := normalized_some again
    refine ⟨perm,again,?_⟩
    rw [toTelegramEntities,again,Option.map_some,Option.bind_some,fromTelegramEntities_wire fine valid,again]

example : normalized ⟨fun _ => none⟩ [97,98,99] [⟨.italic,0,3⟩,⟨.bold,0,3⟩] = some [⟨.bold,0,3⟩,⟨.italic,0,3⟩] := by decide

/-- Within the bounds is not enough: a language has letters of its own. -/
theorem spaced_language_refused : ¬∀ (h : Host) (text : Units) (entities : List TextEntity),
    (normalized h text entities).isSome = true ↔
      (∀ e ∈ entities, validSpan text e.offset e.length = true) ∧ entities.Pairwise Compatible := by
  intro all
  have kept := (all ⟨fun _ => none⟩ [97] [⟨.pre [99,32,100],0,1⟩]).mpr ⟨by simp [validSpan,safeInteger,boundary],pairwise_singleton ..⟩
  revert kept
  decide

end Neurobro.Formatting
