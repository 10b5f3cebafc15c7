import Neurobro.Data.JsonOrder

/-! Values that are the same but for the order of their keys: the canonical text tells every
two others apart. -/
namespace Neurobro.Json

open List

variable {o : KeyOrder}

/-- The same value, whatever the order of the keys. -/
def Alike (o : KeyOrder) (a b : Json) : Prop := arrange o a = arrange o b

theorem alike_of_canonicalText (first : Exact a) (second : Exact b) (same : canonicalText o a = canonicalText o b) :
    Alike o a b := by
  have read := parse_canonicalText (o := o) first
  rw [same,parse_canonicalText second] at read
  exact (Option.some.inj read).symm

@[simp] theorem alike_str : Alike o (.str a) (.str b) ↔ a = b := by simp [Alike,arrange]

@[simp] theorem alike_num : Alike o (.num a) (.num b) ↔ a = b := by simp [Alike,arrange]

@[simp] theorem alike_bool : Alike o (.bool a) (.bool b) ↔ a = b := by simp [Alike,arrange]

@[simp] theorem alike_null : Alike o .null .null := rfl

@[simp] theorem alike_cons : Alike o (.arr (a :: as)) (.arr (b :: bs)) ↔ Alike o a b ∧ Alike o (.arr as) (.arr bs):= by
  simp [Alike,arrange,arrangeItems]

@[simp] theorem alike_cons_nil : ¬Alike o (.arr (a :: as)) (.arr []) := by
  simp [Alike,arrange,arrangeItems]

@[simp] theorem alike_nil_cons : ¬Alike o (.arr []) (.arr (b :: bs)) := by
  simp [Alike,arrange,arrangeItems]

/-- Lists whose entries are known by their encodings are known by theirs. -/
theorem alike_map {α : Type} {f : α → Json} {P : α → Prop} (known : ∀ a b, P a → P b → Alike o (f a) (f b) → a = b) :
    ∀ {as bs : List α}, (∀ a ∈ as,P a) → (∀ b ∈ bs,P b) → Alike o (.arr (as.map f)) (.arr (bs.map f)) → as = bs
  | [],[],_,_,_ => rfl
  | [],_ :: _,_,_,same => absurd same alike_nil_cons
  | _ :: _,[],_,_,same => absurd same alike_cons_nil
  | a :: as,b :: bs,left,right,same => by
    rw [map_cons,map_cons,alike_cons] at same
    rw [forall_mem_cons] at left right
    rw [known a b left.1 right.1 same.1,alike_map known left.2 right.2 same.2]

/-! Objects. -/

/-- Members with the same keys in the same order are the same if they are the same in some
order. -/
theorem eq_of_perm_keys {α : Type} {a b : List (String × α)} (perm : a.Perm b) (keys : a.map Prod.fst = b.map Prod.fst)
    (once : (a.map Prod.fst).Nodup) : a = b := by
  induction a generalizing b with
  | nil => exact (List.Perm.nil_eq perm)
  | cons x a ih =>
    cases b with
    | nil => simp at keys
    | cons y b =>
      simp only [map_cons,List.cons.injEq] at keys
      rw [map_cons,nodup_cons] at once
      obtain rfl : x = y := by
        rcases mem_cons.mp (perm.mem_iff.mp mem_cons_self) with same | there
        · exact same
        · exact absurd (keys.2 ▸ mem_map_of_mem there) once.1
      rw [ih (List.Perm.cons_inv perm) keys.2 once.2]

/-- Values under the same keys. -/
def AlikeFields (o : KeyOrder) : List (String × Json) → List (String × Json) → Prop
  | [],[] => True
  | f :: a,g :: b => Alike o f.2 g.2 ∧ AlikeFields o a b
  | _,_ => False

theorem alikeFields_of_eq (same : arrangeFields o a = arrangeFields o b) : AlikeFields o a b := by
  induction a generalizing b with
  | nil => cases b <;> simp [arrangeFields,AlikeFields] at same ⊢
  | cons f a ih =>
    cases b with
    | nil => simp [arrangeFields] at same
    | cons g b =>
      simp only [arrangeFields,List.cons.injEq,Prod.mk.injEq] at same
      exact ⟨same.1.2,ih same.2⟩

theorem alike_obj (keys : List String) (once : keys.Nodup) {a b : List (String × Json)} (left : a.map Prod.fst = keys)
    (right : b.map Prod.fst = keys) (same : Alike o (.obj a) (.obj b)) : AlikeFields o a b := by
  have fst (c : List (String × Json)) : (arrangeFields o c).map Prod.fst = c.map Prod.fst := by
    simp [arrangeFields_map,map_map,Function.comp_def]
  simp only [Alike,arrange,Json.obj.injEq] at same
  have perm : (arrangeFields o a).Perm (arrangeFields o b) := by
    have sorted := (perm_insertionSort (keyLe o) (arrangeFields o a)).symm
    rw [same] at sorted
    exact sorted.trans (perm_insertionSort (keyLe o) (arrangeFields o b))
  exact alikeFields_of_eq (eq_of_perm_keys perm (by rw [fst,fst,left,right]) (by rw [fst,left]; exact once))

theorem alikeFields_append (long : a.length = a'.length)
    (same : AlikeFields o (a ++ b) (a' ++ b')) : AlikeFields o a a' ∧ AlikeFields o b b' := by
  induction a generalizing a' with
  | nil =>
    obtain rfl := eq_nil_of_length_eq_zero long.symm
    exact ⟨trivial,same⟩
  | cons f a ih =>
    cases a' with
    | nil => cases long
    | cons g a' =>
      obtain ⟨here,rest⟩ := same
      have later := ih (Nat.succ.inj long) rest
      exact ⟨⟨here,later.1⟩,later.2⟩

/-- Objects that are alike have the same keys. -/
theorem alike_keys (same : Alike o (.obj a) (.obj b)) : (a.map Prod.fst).Perm (b.map Prod.fst):= by
  have first := keys_arrange (o := o) a
  rw [show arrange o (.obj a) = arrange o (.obj b) from same] at first
  exact first.symm.trans (keys_arrange b)

end Neurobro.Json
