import Neurobro.Data.JsonOrder
import Neurobro.Api.Text

/-! The marks that say where a reading goes on: counters and a code over them, which only the
holder of the key can write. -/
namespace Neurobro.Projection

open Telegram

def jsonBytes (value : Json) : Nat := (Json.stringify JsonText.decimal value).utf8ByteSize

def legacyMaterialBytes : Nat := 48 * 1024
def materialBytes : Nat := 1024 * 1024

/-- The keyed digest of the surroundings and the time zones they know. -/
structure Host where
  hmac : String → String → String
  timezoneKnown : String → Bool
  hmac_hex : ∀ key text, hexRef "" 64 (hmac key text) = true

/-- The code of a value: the first half of a digest of its canonical text, and more. -/
def Host.mac (h : Host) (key : String) (value : Json) : String :=
  String.ofList ((h.hmac key (Json.canonicalText utf16Order value)).toList.take 48)

def writeToken (mark : String) (counters : List Nat) (mac : String) : String :=
  mark ++ counters.foldr (fun n rest => n.repr ++ "_" ++ rest) mac

/-- A whole number without leading zeros, of so many digits at most. -/
def counter (most : Nat) (digits : List Char) : Bool :=
  digits == ['0'] || (!digits.isEmpty && digits.head? != some '0' && digits.all Char.isDigit && decide (digits.length ≤ most))

def readCounters : List Nat → List Char → Option (List Nat)
  | [],mac => if hexRef "" 48 (String.ofList mac) then some [] else none
  | most :: rest,text =>
    match text.dropWhile Char.isDigit with
    | '_' :: more =>
      if counter most (text.takeWhile Char.isDigit) then
        (readCounters rest more).map (Nat.ofDigitChars 10 (text.takeWhile Char.isDigit) 0 :: ·)
      else none
    | _ => none

/-- The counters of a mark of this form. -/
def readToken (mark : String) (widths : List Nat) (text : String) : Option (List Nat) :=
  if text.toList.take mark.length = mark.toList then readCounters widths (text.toList.drop mark.length) else none

theorem hexRef_iff : hexRef "" length (String.ofList cs) = true ↔
    cs.length = length ∧ ∀ c ∈ cs, c.isDigit = true ∨ ('a' ≤ c ∧ c ≤ 'f') := by
  simp [hexRef_ofList]

/-- A mark is read off before the digits. -/
theorem hexRef_mark (mark : String) (hex : hexRef "" length code = true) : hexRef mark length (mark ++ code) = true:= by
  rw [← String.ofList_toList (s := code),hexRef_iff] at hex
  have long : mark.length = mark.toList.length := String.length_toList.symm
  simp only [hexRef,String.toList_append,long,List.take_left,List.drop_left,hex.1,decide_true,Bool.true_and,List.all_eq_true,
    Bool.or_eq_true,decide_eq_true_eq]
  exact hex.2

/-- A number in so many hexadecimal digits. -/
def hexText (length n : Nat) : String :=
  String.ofList ((List.range length).reverse.map fun i => hexDigit (n / Nat.pow 16 i % 16))

theorem hexText_hex (length n : Nat) : hexRef "" length (hexText length n) = true := by
  have digits : ∀ k < 16, (hexDigit k).isDigit = true ∨ ('a' ≤ hexDigit k ∧ hexDigit k ≤ 'f') := by decide
  rw [hexText,hexRef_iff]
  refine ⟨by simp,fun c member => ?_⟩
  obtain ⟨i,_,rfl⟩ := List.mem_map.mp member
  exact digits _ (Nat.mod_lt _ (by omega))

theorem mac_hex (h : Host) (key : String) (value : Json) : hexRef "" 48 (h.mac key value) = true := by
  have whole := h.hmac_hex key (Json.canonicalText utf16Order value)
  rw [← String.ofList_toList (s := h.hmac _ _),hexRef_iff] at whole
  have long : (h.hmac key (Json.canonicalText utf16Order value)).toList.length = 64 := whole.1
  rw [Host.mac,hexRef_iff]
  exact ⟨by rw [List.length_take,long]; rfl,fun c member => whole.2 c (List.mem_of_mem_take member)⟩

theorem hex_plain (hex : c.isDigit = true ∨ ('a' ≤ c ∧ c ≤ 'f')) : Json.plainChar c = true := by
  have whole : c.toNat = c.val.toNat := rfl
  rcases hex with digit | ⟨low,high⟩
  · have bounds : (decide (c.val ≥ 48) && decide (c.val ≤ 57)) = true := digit
    simp only [Bool.and_eq_true,decide_eq_true_eq,ge_iff_le,UInt32.le_iff_toNat_le] at bounds
    simp at bounds
    simp only [Json.plainChar,Bool.and_eq_true,decide_eq_true_eq]
    refine ⟨⟨⟨by omega,by omega⟩,?_⟩,?_⟩ <;> rintro rfl <;> simp at bounds
  · simp only [Char.le_def,UInt32.le_iff_toNat_le] at low high
    simp at low high
    simp only [Json.plainChar,Bool.and_eq_true,decide_eq_true_eq]
    refine ⟨⟨⟨by omega,by omega⟩,?_⟩,?_⟩ <;> rintro rfl <;> simp at low

theorem mac_plain (h : Host) (key : String) (value : Json) : ∀ c ∈ (h.mac key value).toList, Json.plainChar c = true := by
  have hex := mac_hex h key value
  rw [← String.ofList_toList (s := h.mac key value),hexRef_iff] at hex
  exact fun c member => hex_plain (hex.2 c member)

theorem mac_length (h : Host) (key : String) (value : Json) : (h.mac key value).toList.length = 48 := by
  have hex := mac_hex h key value
  rw [← String.ofList_toList (s := h.mac key value),hexRef_iff] at hex
  exact hex.1

/-- A counter in its range is written as the form wants it. -/
theorem counter_digits (small : n < Nat.pow 10 most) (some_ : 0 < most) : counter most (Nat.toDigits 10 n) = true := by
  have digits : ∀ c ∈ Nat.toDigits 10 n, c.isDigit = true := fun c member =>
    Nat.isDigit_of_mem_toDigits (by omega) (by omega) member
  have short : (Nat.toDigits 10 n).length ≤ most := (Nat.length_toDigits_le_iff (by omega) some_).mpr small
  rcases Nat.eq_zero_or_pos n with rfl | positive
  · rfl
  · have head := JsonText.toDigits_head n positive
    have all : (Nat.toDigits 10 n).all Char.isDigit = true := List.all_eq_true.mpr digits
    simp only [counter,all,short,decide_true,Bool.and_true,Bool.or_eq_true,Bool.and_eq_true,bne_iff_ne]
    exact .inr ⟨by simp [Nat.toDigits_ne_nil],head⟩

/-- What is written is read. -/
theorem readCounters_write {mac : String} (hex : hexRef "" 48 mac = true) : ∀ {widths counters : List Nat},
    List.Forall₂ (fun width n => 0 < width ∧ n < Nat.pow 10 width) widths counters →
    readCounters widths (counters.foldr (fun n rest => n.repr ++ "_" ++ rest) mac).toList = some counters
  | _,_,.nil => by simp [readCounters,hex]
  | width :: widths,n :: counters,.cons fits rest => by
    have digits : ∀ c ∈ Nat.toDigits 10 n, c.isDigit = true := fun c member =>
      Nat.isDigit_of_mem_toDigits (by omega) (by omega) member
    have stop : Char.isDigit '_' = false := by decide
    have text : (List.foldr (fun n rest => n.repr ++ "_" ++ rest) mac (n :: counters)).toList =
        Nat.toDigits 10 n ++ '_' :: (counters.foldr (fun n rest => n.repr ++ "_" ++ rest) mac).toList := by
      simp [Nat.toList_repr]
    have taken : (Nat.toDigits 10 n ++ '_' :: (counters.foldr (fun n rest => n.repr ++ "_" ++ rest) mac).toList).takeWhile
        Char.isDigit = Nat.toDigits 10 n := by
      rw [List.takeWhile_append_of_pos digits,List.takeWhile_cons_of_neg (by simp [stop]),List.append_nil]
    have dropped : (Nat.toDigits 10 n ++ '_' :: (counters.foldr (fun n rest => n.repr ++ "_" ++ rest) mac).toList).dropWhile
        Char.isDigit = '_' :: (counters.foldr (fun n rest => n.repr ++ "_" ++ rest) mac).toList := by
      rw [List.dropWhile_append_of_pos digits,List.dropWhile_cons_of_neg (by simp [stop])]
    rw [text,readCounters]
    simp only [taken,dropped,counter_digits fits.2 fits.1,if_true,readCounters_write hex rest,Option.map_some,
      Nat.ofDigitChars_ten_toDigits]

theorem readToken_write {mark mac : String} (hex : hexRef "" 48 mac = true)
    (fits : List.Forall₂ (fun width n => 0 < width ∧ n < Nat.pow 10 width) widths counters) :
    readToken mark widths (writeToken mark counters mac) = some counters := by
  have length : mark.length = mark.toList.length := String.length_toList.symm
  simp only [readToken,writeToken,String.toList_append,length,List.take_left,List.drop_left,if_true]
  exact readCounters_write hex fits

/-- Marks with the same counters differ in their codes. -/
theorem writeToken_inj {mark : String} {mac mac' : String}
    (same : writeToken mark counters mac = writeToken mark counters mac') : mac = mac' := by
  rw [writeToken,writeToken,String.append_right_inj] at same
  induction counters with
  | nil => exact same
  | cons n counters ih =>
    rw [List.foldr_cons,List.foldr_cons,String.append_right_inj] at same
    exact ih same

end Neurobro.Projection
