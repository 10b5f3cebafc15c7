import Neurobro.Data.Json

/-! How many bytes a JSON text takes at most. -/
namespace Neurobro

open List

/-- The bytes of so many characters. -/
def charBytes : List Char → Nat
  | [] => 0
  | c :: rest => c.utf8Size + charBytes rest

@[simp] theorem charBytes_append (a b : List Char) : charBytes (a ++ b) = charBytes a + charBytes b := by
  induction a with
  | nil => simp [charBytes]
  | cons c rest ih =>
    simp only [cons_append,charBytes,ih]
    omega

theorem utf8ByteSize_ofList (cs : List Char) : (String.ofList cs).utf8ByteSize = charBytes cs := by
  induction cs with
  | nil => rfl
  | cons c rest ih =>
    have split : String.ofList (c :: rest) = String.singleton c ++ String.ofList rest := by
      rw [String.singleton_eq_ofList,← String.ofList_append,singleton_append]
    rw [split,String.utf8ByteSize_append,String.utf8ByteSize_singleton,ih]
    rfl

theorem utf8ByteSize_toList (s : String) : s.utf8ByteSize = charBytes s.toList := by
  rw [← utf8ByteSize_ofList,String.ofList_toList]

theorem charBytes_sublist (sub : a.Sublist b) : charBytes a ≤ charBytes b := by
  induction sub with
  | slnil => exact Nat.le_refl _
  | cons c sub ih =>
    simp only [charBytes]
    omega
  | cons_cons c sub ih =>
    simp only [charBytes]
    omega

theorem hexDigit_size (n : Nat) : (hexDigit n).utf8Size = 1 := by
  unfold hexDigit
  have small : ("0123456789abcdef".toList.all fun c => decide (c.utf8Size = 1)) = true := by decide
  rw [getD_eq_getElem?_getD]
  cases there : "0123456789abcdef".toList[n]? with
  | none => rfl
  | some c => exact of_decide_eq_true (all_eq_true.mp small c (mem_of_getElem? there))

/-- The marks that stand for other characters. -/
theorem mark_size : ∀ c ∈ ['\\','"','b','t','n','f','r','u','0'], c.utf8Size = 1 := by
  have all : (['\\','"','b','t','n','f','r','u','0'].all fun c => decide (c.utf8Size = 1)) = true := by decide
  exact fun c member => of_decide_eq_true (all_eq_true.mp all c member)

theorem quoteChar_size (c : Char) : charBytes (quoteChar c) ≤ 6 * c.utf8Size := by
  have positive := c.utf8Size_pos
  unfold quoteChar
  repeat' split
  all_goals simp only [charBytes,hexDigit_size]
  all_goals repeat rw [mark_size _ (by decide)]
  all_goals omega

theorem charBytes_quoted (cs : List Char) : charBytes (cs.flatMap quoteChar) ≤ 6 * charBytes cs := by
  induction cs with
  | nil => simp [charBytes]
  | cons c rest ih =>
    have head := quoteChar_size c
    simp only [flatMap_cons,charBytes_append,charBytes]
    omega

theorem quote_bytes (s : String) : (quote s).utf8ByteSize = charBytes (s.toList.flatMap quoteChar) + 2 := by
  have marks : charBytes ['"'] = 1 := rfl
  rw [quote,utf8ByteSize_ofList,charBytes_append,charBytes_append,marks]
  omega

theorem quote_size (s : String) : (quote s).utf8ByteSize ≤ 6 * s.utf8ByteSize + 2 := by
  have inner := charBytes_quoted s.toList
  rw [quote_bytes,utf8ByteSize_toList s]
  omega

namespace Json

section Size
variable (render : Rat → String)

def size (value : Json) : Nat := (stringify render value).utf8ByteSize

/-- What the keys take, with the marks around them. -/
def keyRoom : List String → Nat
  | [] => 0
  | key :: rest => (quote key).utf8ByteSize + 2 + keyRoom rest

def fieldSizes : List (String × Json) → Nat
  | [] => 0
  | f :: rest => size render f.2 + fieldSizes rest

def itemSizes : List Json → Nat
  | [] => 0
  | item :: rest => size render item + 1 + itemSizes rest

variable {render}

theorem itemSizes_nil : itemSizes render [] = 0 := by rw [itemSizes]

theorem itemSizes_cons (item : Json) (rest : List Json) :
    itemSizes render (item :: rest) = size render item + 1 + itemSizes render rest := by
  rw [itemSizes]

@[simp] theorem keyRoom_append (a b : List String) : keyRoom (a ++ b) = keyRoom a + keyRoom b := by
  induction a with
  | nil => simp [keyRoom]
  | cons key rest ih =>
    simp only [cons_append,keyRoom,ih]
    omega

@[simp] theorem fieldSizes_append (a b : List (String × Json)) :
    fieldSizes render (a ++ b) = fieldSizes render a + fieldSizes render b := by
  induction a with
  | nil => simp [fieldSizes]
  | cons f rest ih =>
    simp only [cons_append,fieldSizes,ih]
    omega

theorem size_text (s : String) : size render (.str s) = charBytes (s.toList.flatMap quoteChar) + 2 := by
  rw [size,stringify,quote_bytes]

theorem size_str (s : String) : size render (.str s) ≤ 6 * s.utf8ByteSize + 2 := by
  rw [size,stringify]
  exact quote_size s

theorem size_bool (b : Bool) : size render (.bool b) ≤ 5 := by
  cases b <;> simp only [size,stringify] <;> decide

/-- One more entry brings itself and a comma. -/
theorem joined_size (s : String) (rest : List String) :
    (joined "," (s :: rest)).utf8ByteSize ≤ s.utf8ByteSize + 1 + (joined "," rest).utf8ByteSize := by
  have comma : ",".utf8ByteSize = 1 := rfl
  cases rest with
  | nil =>
    simp only [joined]
    omega
  | cons s' rest =>
    simp only [joined,String.utf8ByteSize_append,comma]
    omega

theorem size_arr (items : List Json) : size render (.arr items) ≤ 2 + itemSizes render items := by
  have inner : (joined "," (stringifyItems render items)).utf8ByteSize ≤ itemSizes render items := by
    induction items with
    | nil => exact Nat.le_refl _
    | cons item rest ih =>
      have grown := joined_size (stringify render item) (stringifyItems render rest)
      simp only [stringifyItems,itemSizes,size]
      omega
  have left : "[".utf8ByteSize = 1 := rfl
  have right : "]".utf8ByteSize = 1 := rfl
  simp only [size,stringify,String.utf8ByteSize_append,left,right]
  omega

theorem size_obj (fields : List (String × Json)) :
    size render (.obj fields) ≤ 2 + keyRoom (fields.map Prod.fst) + fieldSizes render fields := by
  have inner : (joined "," (stringifyFields render fields)).utf8ByteSize ≤
      keyRoom (fields.map Prod.fst) + fieldSizes render fields := by
    induction fields with
    | nil => exact Nat.le_refl _
    | cons f rest ih =>
      obtain ⟨key,value⟩ := f
      have grown := joined_size (quote key ++ ":" ++ stringify render value) (stringifyFields render rest)
      have colon : ":".utf8ByteSize = 1 := rfl
      simp only [String.utf8ByteSize_append,colon] at grown
      simp only [stringifyFields,map_cons,keyRoom,fieldSizes,size]
      omega
  have left : "\x7b".utf8ByteSize = 1 := rfl
  have right : "\x7d".utf8ByteSize = 1 := rfl
  simp only [size,stringify,String.utf8ByteSize_append,left,right]
  omega

/-- Fields of a bounded size. -/
theorem fieldSizes_le {fields : List (String × Json)} (each : ∀ f ∈ fields, size render f.2 ≤ most) :
    fieldSizes render fields ≤ fields.length * most := by
  induction fields with
  | nil => exact Nat.zero_le _
  | cons f rest ih =>
    have head := each f mem_cons_self
    have tail := ih fun f member => each f (mem_cons_of_mem _ member)
    simp only [fieldSizes,length_cons]
    rw [Nat.succ_mul]
    omega

/-- An object whose keys and values are bounded. -/
theorem size_obj_le {fields : List (String × Json)} {keys most : Nat} (room : keyRoom (fields.map Prod.fst) ≤ keys)
    (each : ∀ f ∈ fields, size render f.2 ≤ most) : size render (.obj fields) ≤ 2 + keys + fields.length * most :=
  (size_obj fields).trans (Nat.add_le_add (Nat.add_le_add_left room 2) (fieldSizes_le each))

/-- Items of a bounded size. -/
theorem itemSizes_le (each : ∀ item ∈ items, size render item ≤ most) :
    itemSizes render items ≤ items.length * (most + 1) := by
  induction items with
  | nil => exact Nat.zero_le _
  | cons item rest ih =>
    have head := each item mem_cons_self
    have tail := ih fun item member => each item (mem_cons_of_mem _ member)
    simp only [itemSizes,length_cons]
    rw [Nat.succ_mul]
    omega

@[simp] theorem itemSizes_append (a b : List Json) : itemSizes render (a ++ b) = itemSizes render a + itemSizes render b := by
  induction a with
  | nil => simp [itemSizes]
  | cons item rest ih =>
    simp only [cons_append,itemSizes,ih]
    omega

theorem itemSizes_reverse (items : List Json) : itemSizes render items.reverse = itemSizes render items := by
  induction items with
  | nil => rfl
  | cons item rest ih =>
    simp only [reverse_cons,itemSizes_append,itemSizes,ih]
    omega

theorem joined_items (items : List Json) :
    (joined "," (stringifyItems render items)).utf8ByteSize = itemSizes render items - 1 := by
  have comma : ",".utf8ByteSize = 1 := rfl
  induction items with
  | nil => rfl
  | cons item rest ih =>
    cases rest with
    | nil =>
      simp only [stringifyItems,joined,itemSizes,size]
      omega
    | cons item' rest =>
      simp only [stringifyItems,joined,itemSizes,size,String.utf8ByteSize_append,comma] at ih ⊢
      omega

theorem itemSizes_perm (perm : items.Perm items') : itemSizes render items = itemSizes render items' := by
  induction perm with
  | nil => rfl
  | cons item _ ih => simp only [itemSizes,ih]
  | swap a b rest =>
    simp only [itemSizes]
    omega
  | trans _ _ ih ih' => exact ih.trans ih'

/-- The order of the items takes no room. -/
theorem size_arr_perm (perm : items.Perm items') : size render (.arr items) = size render (.arr items') := by
  simp only [size,stringify,String.utf8ByteSize_append,joined_items,itemSizes_perm perm]

theorem size_pair (render : Rat → String) (key key' : String) (first : size render a = size render a') (second : size render b = size render b') :
    size render (.obj [(key,a),(key',b)]) = size render (.obj [(key,a'),(key',b')]) := by
  simp only [size] at first second
  simp only [size,stringify,stringifyFields,joined,String.utf8ByteSize_append,first,second]

end Size

attribute [irreducible] size

end Json

end Neurobro
