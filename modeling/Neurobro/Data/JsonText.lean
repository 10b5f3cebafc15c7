import Neurobro.Data.Json
import Mathlib.Algebra.Order.Field.Rat
import Mathlib.Data.Nat.Log

/-! `JSON.parse` on a text of Unicode scalar values, and its round trip with the
compact text of a value. An escape that names half of a surrogate pair has no scalar
value, so the parse fails there. -/
namespace Neurobro.JsonText

open Json List

/-! ## Numbers as the nearest double -/

def twoPow (e : Int) : Rat :=
  if 0 ≤ e then (Nat.pow 2 e.toNat : Nat) else 1 / (Nat.pow 2 (-e).toNat : Nat)

/-- The exponent of the greatest power of two that is not above `n / d`. -/
def binade (n d : Nat) : Int :=
  if d ≤ n then (Nat.log2 (n / d) : Int) else -((Nat.log2 ((d - 1) / n) : Int) + 1)

/-- The nearest whole number, the even one of two. -/
def roundEven (q : Rat) : Int :=
  let rest := q - q.floor
  if rest < 1 / 2 then q.floor
  else if 1 / 2 < rest then q.floor + 1
  else if q.floor % 2 = 0 then q.floor else q.floor + 1

def signed (negative : Bool) (q : Rat) : JsNumber :=
  if q = 0 then (if negative then .negativeZero else .finite 0)
  else if twoPow 1024 ≤ q then .infinity negative
  else .finite (if negative then -q else q)

/-- The double nearest to a rational that is not negative, under a sign. -/
def nearest (negative : Bool) (q : Rat) : JsNumber :=
  if q = 0 then signed negative 0
  else
    let unit := twoPow (max (binade q.num.toNat q.den - 52) (-1074))
    signed negative (roundEven (q / unit) * unit)

/-! ## Reading -/

def blank (c : Char) : Bool := c = ' ' || c = '\t' || c = '\n' || c = '\r'

def skip (text : List Char) : List Char := text.dropWhile blank

def hexValue (c : Char) : Option Nat :=
  if '0' ≤ c ∧ c ≤ '9' then some (c.toNat - 48)
  else if 'a' ≤ c ∧ c ≤ 'f' then some (c.toNat - 87)
  else if 'A' ≤ c ∧ c ≤ 'F' then some (c.toNat - 55)
  else none

/-- Four hexadecimal digits: one UTF-16 unit. -/
def readUnit : List Char → Option (Nat × List Char)
  | a :: b :: c :: d :: rest => do
    let a ← hexValue a
    let b ← hexValue b
    let c ← hexValue c
    let d ← hexValue d
    some (4096 * a + 256 * b + 16 * c + d,rest)
  | _ => none

/-- The second half of a pair of surrogates. -/
def readLow (high : Nat) : List Char → Option (Char × List Char)
  | '\\' :: 'u' :: rest => do
    let (low,rest) ← readUnit rest
    if 0xDC00 ≤ low ∧ low ≤ 0xDFFF then
      some (Char.ofNat (0x10000 + (high - 0xD800) * 0x400 + (low - 0xDC00)),rest)
    else none
  | _ => none

def readEscape : List Char → Option (Char × List Char)
  | [] => none
  | c :: rest =>
    if c = '"' ∨ c = '\\' ∨ c = '/' then some (c,rest)
    else if c = 'b' then some (Char.ofNat 8,rest)
    else if c = 't' then some (Char.ofNat 9,rest)
    else if c = 'n' then some (Char.ofNat 10,rest)
    else if c = 'f' then some (Char.ofNat 12,rest)
    else if c = 'r' then some (Char.ofNat 13,rest)
    else if c = 'u' then do
      let (unit,rest) ← readUnit rest
      if 0xD800 ≤ unit ∧ unit ≤ 0xDBFF then readLow unit rest
      else if 0xDC00 ≤ unit ∧ unit ≤ 0xDFFF then none
      else some (Char.ofNat unit,rest)
    else none

/-- One character of a string. -/
def readChar : List Char → Option (Char × List Char)
  | [] => none
  | c :: rest => if c = '\\' then readEscape rest else if c.toNat < 32 then none else some (c,rest)

/-- The rest of a string after its opening quote. -/
def readChars : Nat → List Char → Option (List Char × List Char)
  | 0,_ => none
  | fuel + 1,text =>
    if text.head? = some '"' then some ([],text.tail)
    else do
      let (c,rest) ← readChar text
      let (cs,rest) ← readChars fuel rest
      some (c :: cs,rest)

/-- An optional part of a number: at least one digit after its mark. -/
def readDigits (text : List Char) : Option (List Char × List Char) :=
  let digits := text.takeWhile Char.isDigit
  if digits = [] then none else some (digits,text.dropWhile Char.isDigit)

def readFraction (text : List Char) : Option (List Char × List Char) :=
  if text.head? = some '.' then readDigits text.tail else some ([],text)

def readExponent (text : List Char) : Option (Int × List Char) :=
  if text.head? = some 'e' ∨ text.head? = some 'E' then do
    let minus := text.tail.head? = some '-'
    let (digits,rest) ← readDigits
      (if minus ∨ text.tail.head? = some '+' then text.tail.tail else text.tail)
    let size : Int := Nat.ofDigitChars 10 digits 0
    some (if minus then -size else size,rest)
  else some (0,text)

def tenPow (e : Int) : Rat :=
  if 0 ≤ e then (Nat.pow 10 e.toNat : Nat) else 1 / (Nat.pow 10 (-e).toNat : Nat)

def readNumber (text : List Char) : Option (JsNumber × List Char) := do
  let negative := text.head? = some '-'
  let (whole,rest) ← readDigits (if negative then text.tail else text)
  if whole.head? = some '0' ∧ whole.length ≠ 1 then none
  else do
    let (fraction,rest) ← readFraction rest
    let (exponent,rest) ← readExponent rest
    let significand : Rat := Nat.ofDigitChars 10 (whole ++ fraction) 0
    some (nearest negative (significand * tenPow (exponent - fraction.length)),rest)

/-- The word of a literal after its first letter. -/
def readWord (word : List Char) (value : Json) (text : List Char) : Option (Json × List Char) :=
  if word.isPrefixOf text then some (value,text.drop word.length) else none

/-- The members of an object as they are created one after another: a later value of
a key stands in the place of the first. -/
def create : List (String × Json) → List (String × Json) → List (String × Json)
  | made,[] => made
  | made,(key,value) :: rest =>
    create (if key ∈ made.map Prod.fst then made.map fun f => if f.1 = key then (key,value) else f
      else made ++ [(key,value)]) rest

/-- What may follow a member or an item: a comma, or the closing mark. -/
def closing (mark : Char) (text : List Char) : Option (Bool × List Char) :=
  match skip text with
  | [] => none
  | c :: rest => if c = mark then some (true,rest) else if c = ',' then some (false,rest) else none

/-- The key of a member and its colon. -/
def readKey (fuel : Nat) (text : List Char) : Option (String × List Char) :=
  match skip text with
  | [] => none
  | c :: rest =>
    if c = '"' then do
      let (cs,rest) ← readChars fuel rest
      if (skip rest).head? = some ':' then some (String.ofList cs,(skip rest).tail) else none
    else none

mutual
/-- At most two calls lie between one character that is read and the next. -/
def readValue : Nat → List Char → Option (Json × List Char)
  | 0,_ => none
  | fuel + 1,text =>
    match skip text with
    | [] => none
    | c :: rest =>
      if c = '"' then (readChars fuel rest).map fun r => (.str (String.ofList r.1),r.2)
      else if c = '[' then
        if (skip rest).head? = some ']' then some (.arr [],(skip rest).tail)
        else (readItems fuel rest).map fun r => (.arr r.1,r.2)
      else if c = '\x7b' then
        if (skip rest).head? = some '\x7d' then some (.obj [],(skip rest).tail)
        else (readMembers fuel rest).map fun r => (.obj (create [] r.1),r.2)
      else if c = 'n' then readWord ['u','l','l'] .null rest
      else if c = 't' then readWord ['r','u','e'] (.bool true) rest
      else if c = 'f' then readWord ['a','l','s','e'] (.bool false) rest
      else (readNumber (c :: rest)).map fun r => (.num r.1,r.2)

def readItems : Nat → List Char → Option (List Json × List Char)
  | 0,_ => none
  | fuel + 1,text => do
    let (item,rest) ← readValue fuel text
    let (last,rest) ← closing ']' rest
    if last then some ([item],rest)
    else do
      let (items,rest) ← readItems fuel rest
      some (item :: items,rest)

def readMembers : Nat → List Char → Option (List (String × Json) × List Char)
  | 0,_ => none
  | fuel + 1,text => do
    let (key,rest) ← readKey fuel text
    let (value,rest) ← readValue fuel rest
    let (last,rest) ← closing '\x7d' rest
    if last then some ([(key,value)],rest)
    else do
      let (members,rest) ← readMembers fuel rest
      some ((key,value) :: members,rest)
end

/-- `JSON.parse`. -/
def parse (text : String) : Option Json := do
  let (value,rest) ← readValue (2 * text.toList.length + 2) text.toList
  if skip rest = [] then some value else none

/-! ## The round trip

What is written compactly with safe integers is read back; only the sign of a zero is
lost. -/

/-- The text of a whole number. -/
def decimal (q : Rat) : String := q.num.repr

def safe : JsNumber → Bool
  | .finite q => decide (q.den = 1 ∧ -9007199254740991 ≤ q.num ∧ q.num ≤ 9007199254740991)
  | .negativeZero => true
  | _ => false

mutual
/-- Numbers are safe integers, and no object has a key twice. -/
def Plain : Json → Prop
  | .num n => safe n = true
  | .arr items => PlainItems items
  | .obj fields => (fields.map Prod.fst).Nodup ∧ PlainFields fields
  | _ => True

def PlainItems : List Json → Prop
  | [] => True
  | item :: rest => Plain item ∧ PlainItems rest

def PlainFields : List (String × Json) → Prop
  | [] => True
  | (_,value) :: rest => Plain value ∧ PlainFields rest
end

mutual
/-- The value with one zero. -/
def unsigned : Json → Json
  | .num .negativeZero => .num (.finite 0)
  | .arr items => .arr (unsignedItems items)
  | .obj fields => .obj (unsignedFields fields)
  | value => value

def unsignedItems : List Json → List Json
  | [] => []
  | item :: rest => unsigned item :: unsignedItems rest

def unsignedFields : List (String × Json) → List (String × Json)
  | [] => []
  | (key,value) :: rest => (key,unsigned value) :: unsignedFields rest
end

theorem hexValue_hexDigit : ∀ n < 16, hexValue (hexDigit n) = some n := by decide

theorem readEscape_unit (n : Nat) (low : n < 32) (rest : List Char) :
    readEscape ('u' :: '0' :: '0' :: hexDigit (n / 16) :: hexDigit (n % 16) :: rest) = some (Char.ofNat n,rest) := by
  have zero : hexValue '0' = some 0 := by decide
  have first := hexValue_hexDigit (n / 16) (by omega)
  have second := hexValue_hexDigit (n % 16) (by omega)
  have whole : 16 * (n / 16) + n % 16 = n := by omega
  have high : ¬(0xD800 ≤ n ∧ n ≤ 0xDBFF) := by omega
  have under : ¬(0xDC00 ≤ n ∧ n ≤ 0xDFFF) := by omega
  simp [readEscape,readUnit,zero,first,second,whole,high,under]

theorem char_eq (is_ : c.toNat = n) : Char.ofNat n = c := by
  rw [← is_,Char.ofNat_toNat]

theorem readChar_quoted (c : Char) (rest : List Char) : readChar (quoteChar c ++ rest) = some (c,rest) := by
  by_cases quote : c = '"'
  · subst quote
    simp [quoteChar,readChar,readEscape]
  by_cases slash : c = '\\'
  · subst slash
    simp [quoteChar,readChar,readEscape]
  by_cases eight : c.toNat = 8
  · simp [quoteChar,quote,slash,eight,readChar,readEscape]
    exact char_eq eight
  by_cases nine : c.toNat = 9
  · simp [quoteChar,quote,slash,nine,readChar,readEscape]
    exact char_eq nine
  by_cases ten : c.toNat = 10
  · simp [quoteChar,quote,slash,ten,readChar,readEscape]
    exact char_eq ten
  by_cases twelve : c.toNat = 12
  · simp [quoteChar,quote,slash,twelve,readChar,readEscape]
    exact char_eq twelve
  by_cases thirteen : c.toNat = 13
  · simp [quoteChar,quote,slash,thirteen,readChar,readEscape]
    exact char_eq thirteen
  by_cases control : c.toNat < 32
  · have unit := readEscape_unit c.toNat control rest
    simp only [quoteChar,quote,slash,eight,nine,ten,twelve,thirteen,control,if_true,if_false,cons_append,
      nil_append,readChar,unit,Char.ofNat_toNat]
  · simp [quoteChar,quote,slash,eight,nine,ten,twelve,thirteen,control,readChar]


theorem quoteChar_ne_nil (c : Char) : quoteChar c ≠ [] := by
  simp only [quoteChar]
  split <;> (try simp)
  repeat' split
  all_goals simp

theorem quoteChar_head (c : Char) (rest : List Char) : (quoteChar c ++ rest).head? ≠ some '"' := by
  by_cases quote : c = '"'
  · simp [quoteChar,quote]
  · simp only [quoteChar]
    repeat' split
    all_goals simp_all

theorem readChars_quoted (cs rest : List Char) (fuel : Nat) (enough : (cs.flatMap quoteChar).length < fuel) :
    readChars fuel (cs.flatMap quoteChar ++ '"' :: rest) = some (cs,rest) := by
  induction cs generalizing fuel with
  | nil =>
    cases fuel with
    | zero => contradiction
    | succ fuel => simp [readChars]
  | cons c cs ih =>
    have some_ := length_pos_iff.mpr (quoteChar_ne_nil c)
    simp only [flatMap_cons,length_append] at enough
    cases fuel with
    | zero => contradiction
    | succ fuel =>
      have tail := ih fuel (by omega)
      simp only [flatMap_cons,append_assoc,readChars]
      rw [if_neg (quoteChar_head c _),readChar_quoted]
      simp [tail]

/-! Numbers. -/

/-- What cannot go on a number. -/
def Stops (rest : List Char) : Prop := ∀ c, rest.head? = some c → c.isDigit = false ∧ c ≠ '.' ∧ c ≠ 'e' ∧ c ≠ 'E'

theorem readDigits_digits {digits rest : List Char} (all : ∀ c ∈ digits, c.isDigit = true) (some_ : digits ≠ [])
    (stops : Stops rest) : readDigits (digits ++ rest) = some (digits,rest) := by
  have front : (digits ++ rest).takeWhile Char.isDigit = digits := by
    rw [takeWhile_append_of_pos all]
    cases rest with
    | nil => simp
    | cons c rest => simp [(stops c rfl).1]
  have back : (digits ++ rest).dropWhile Char.isDigit = rest := by
    rw [dropWhile_append_of_pos all]
    cases rest with
    | nil => simp
    | cons c rest => simp [(stops c rfl).1]
  simp [readDigits,front,back,some_]

theorem toDigits_head (n : Nat) (some_ : 0 < n) : (Nat.toDigits 10 n).head? ≠ some '0' := by
  induction n using Nat.strongRecOn with
  | _ n ih =>
    by_cases small : n < 10
    · have digit : ∀ m < 10, 0 < m → Nat.digitChar m ≠ '0' := by decide
      simp [Nat.toDigits_of_lt_base small,digit n small some_]
    · rw [Nat.toDigits_of_base_le (by omega) (by omega),List.head?_append_of_ne_nil _ Nat.toDigits_ne_nil]
      exact ih (n / 10) (by omega) (by omega)

theorem roundEven_int (n : Int) : roundEven n = n := by
  simp [roundEven]

theorem binade_int (m : Nat) (some_ : 0 < m) (safe : m ≤ 9007199254740991) : binade m 1 ≤ 52 := by
  have log : Nat.log2 m < 53 := (Nat.log2_lt (by omega)).mpr (by omega)
  simp only [binade,Nat.div_one]
  split <;> omega

theorem nearest_safe (negative : Bool) (m : Nat) (safe : m ≤ 9007199254740991) :
    nearest negative m = if m = 0 then (if negative then .negativeZero else .finite 0)
      else .finite (if negative then -m else m) := by
  by_cases zero : m = 0
  · subst zero
    simp [nearest,signed]
  · have some_ : (m : Rat) ≠ 0 := by exact_mod_cast zero
    have low := binade_int m (by omega) safe
    have unit : ∃ k : Nat, twoPow (max (binade m 1 - 52) (-1074)) = 1 / (Nat.pow 2 k : Nat) := by
      refine ⟨(-(max (binade m 1 - 52) (-1074))).toNat,?_⟩
      by_cases top : max (binade m 1 - 52) (-1074) = 0
      · simp [twoPow,top]
      · have under : ¬0 ≤ max (binade m 1 - 52) (-1074) := by omega
        simp only [twoPow,under,if_false]
    obtain ⟨k,unit⟩ := unit
    have pos : ((Nat.pow 2 k : Nat) : Rat) ≠ 0 := by
      have : Nat.pow 2 k ≠ 0 := Nat.pos_iff_ne_zero.mp (Nat.pow_pos (by omega))
      exact_mod_cast this
    have whole : (m : Rat) / (1 / (Nat.pow 2 k : Nat)) = ((m * Nat.pow 2 k : Nat) : Int) := by
      push_cast
      rw [div_div_eq_mul_div,div_one]
    have top : ¬twoPow 1024 ≤ (m : Rat) := by
      have bits : (1024 : Int).toNat = 1024 := rfl
      have big : twoPow 1024 = ((Nat.pow 2 1024 : Nat) : Rat) := by
        rw [twoPow,if_pos (by omega),bits]
      rw [big]
      have : m < Nat.pow 2 1024 := by
        have : Nat.pow 2 53 ≤ Nat.pow 2 1024 := Nat.pow_le_pow_right (by omega) (by omega)
        have : Nat.pow 2 53 = 9007199254740992 := rfl
        omega
      exact_mod_cast Nat.not_le.mpr this
    simp only [nearest,some_,if_false,Rat.num_natCast,Int.toNat_natCast,Rat.den_natCast,unit,whole,roundEven_int]
    have back : (((m * Nat.pow 2 k : Nat) : Int) : Rat) * (1 / (Nat.pow 2 k : Nat)) = m := by
      push_cast
      rw [mul_one_div,mul_div_cancel_right₀ _ pos]
    rw [back]
    simp [signed,some_,top,zero]

theorem readNumber_digits (negative : Bool) (m : Nat) (safe : m ≤ 9007199254740991) (rest : List Char) (stops : Stops rest) :
    readNumber ((if negative then ['-'] else []) ++ (Nat.toDigits 10 m ++ rest)) = some (nearest negative m,rest) := by
  have digits : ∀ c ∈ Nat.toDigits 10 m, c.isDigit = true :=
    fun c in_ => Nat.isDigit_of_mem_toDigits (by omega) (by omega) in_
  have read := readDigits_digits digits Nat.toDigits_ne_nil stops
  have unsigned_ : (Nat.toDigits 10 m).head? ≠ some '-' := by
    intro minus
    have no := digits '-' (mem_of_mem_head? minus)
    simp at no
  have led : ¬((Nat.toDigits 10 m).head? = some '0' ∧ (Nat.toDigits 10 m).length ≠ 1) := by
    rintro ⟨zero,long⟩
    by_cases some_ : 0 < m
    · exact toDigits_head m some_ zero
    · have zero : m = 0 := by omega
      subst zero
      simp at long
  have fraction : readFraction rest = some ([],rest) := by
    simp only [readFraction]
    rw [if_neg]
    intro dot
    exact (stops _ dot).2.1 rfl
  have exponent : readExponent rest = some (0,rest) := by
    simp only [readExponent]
    rw [if_neg]
    rintro (e | e)
    · exact (stops _ e).2.2.1 rfl
    · exact (stops _ e).2.2.2 rfl
  have one : tenPow 0 = 1 := by simp [tenPow]
  cases negative <;> simp [readNumber,unsigned_,read,led,fraction,exponent,one,Nat.ofDigitChars_ten_toDigits]

theorem readNumber_decimal (q : Rat) (is_ : safe (.finite q) = true) (rest : List Char) (stops : Stops rest) :
    readNumber ((decimal q).toList ++ rest) = some (.finite q,rest) := by
  simp only [safe,decide_eq_true_eq] at is_
  obtain ⟨whole,low,high⟩ := is_
  have value : q = (q.num : Rat) := by
    conv_lhs => rw [← Rat.num_div_den q,whole]
    simp
  by_cases sign : 0 ≤ q.num
  · have read := readNumber_digits false q.num.toNat (by omega) rest stops
    have same : ((q.num.toNat : Nat) : Rat) = q := by
      rw [value]
      simp only [Rat.num_intCast]
      exact_mod_cast Int.toNat_of_nonneg sign
    simp only [decimal,Int.repr_eq_if,sign,if_true,Nat.toList_repr]
    simp only [Bool.false_eq_true,if_false,nil_append] at read
    rw [read,nearest_safe _ _ (by omega)]
    by_cases zero : q.num.toNat = 0
    · have : q = 0 := by rw [← same,zero]; simp
      simp [this]
    · simp [zero,same]
  · have read := readNumber_digits true (-q.num).toNat (by omega) rest stops
    have same : (((-q.num).toNat : Nat) : Rat) = -q := by
      rw [value]
      simp only [Rat.num_intCast]
      exact_mod_cast Int.toNat_of_nonneg (show 0 ≤ -q.num by omega)
    have some_ : (-q.num).toNat ≠ 0 := by omega
    simp only [decimal,Int.repr_eq_if,sign,if_false,String.toList_append,Nat.toList_repr]
    simp only [if_true] at read
    rw [show ("-" : String).toList = ['-'] from rfl,append_assoc,read,nearest_safe _ _ (by omega)]
    simp [some_,same]


/-! Values. -/

theorem skip_of (c : Char) (text : List Char) (mark : blank c = false) : skip (c :: text) = c :: text := by
  simp [skip,mark]

theorem closing_last (mark : Char) (rest : List Char) (dark : blank mark = false) :
    closing mark (mark :: rest) = some (true,rest) := by
  simp [closing,skip_of mark rest dark]

theorem closing_next (mark : Char) (rest : List Char) (other : mark ≠ ',') :
    closing mark (',' :: rest) = some (false,rest) := by
  have dark : blank ',' = false := rfl
  simp [closing,skip_of ',' rest dark,other.symm]

theorem quote_text (s : String) (rest : List Char) :
    (quote s).toList ++ rest = '"' :: (s.toList.flatMap quoteChar ++ '"' :: rest) := by
  simp [quote]

theorem quote_length (s : String) : (quote s).toList.length = (s.toList.flatMap quoteChar).length + 2 := by
  simp [quote]

theorem readKey_text (key : String) (fuel : Nat) (rest : List Char) (enough : (quote key).toList.length ≤ fuel) :
    readKey fuel ((quote key).toList ++ ':' :: rest) = some (key,rest) := by
  have chars := readChars_quoted key.toList (':' :: rest) fuel (by rw [quote_length] at enough; omega)
  have dark : blank '"' = false := rfl
  have colon : blank ':' = false := rfl
  simp [readKey,quote_text,skip_of '"' _ dark,chars,skip_of ':' rest colon]

/-- A number's text starts with a digit or a sign. -/
theorem decimal_head (q : Rat) : ∃ c rest, (decimal q).toList = c :: rest ∧ (c.isDigit = true ∨ c = '-') := by
  by_cases sign : 0 ≤ q.num
  · simp only [decimal,Int.repr_eq_if,sign,if_true,Nat.toList_repr]
    cases text : Nat.toDigits 10 q.num.toNat with
    | nil => exact absurd text Nat.toDigits_ne_nil
    | cons c rest =>
      have digit := Nat.isDigit_of_mem_toDigits (b := 10) (n := q.num.toNat) (c := c) (by omega) (by omega) (by simp [text])
      exact ⟨c,rest,rfl,Or.inl digit⟩
  · refine ⟨'-',(-q.num).toNat.repr.toList,?_,Or.inr rfl⟩
    simp only [decimal,Int.repr_eq_if,sign,if_false,String.toList_append]
    rfl

theorem readValue_number (q : Rat) (is_ : safe (.finite q) = true) (fuel : Nat) (rest : List Char) (stops : Stops rest) :
    readValue (fuel + 1) ((decimal q).toList ++ rest) = some (.num (.finite q),rest) := by
  have read := readNumber_decimal q is_ rest stops
  obtain ⟨c,more,text,head⟩ := decimal_head q
  rw [text,cons_append] at read
  have marks : blank c = false ∧ c ≠ '"' ∧ c ≠ '[' ∧ c ≠ '\x7b' ∧ c ≠ 'n' ∧ c ≠ 't' ∧ c ≠ 'f' := by
    refine ⟨?_,?_,?_,?_,?_,?_,?_⟩
    · by_contra no
      simp only [Bool.not_eq_false,blank,Bool.or_eq_true,decide_eq_true_eq] at no
      rcases no with ((no | no) | no) | no <;> subst no <;> simp at head
    all_goals
      intro no
      subst no
      simp at head
  obtain ⟨dark,notQuote,notOpen,notBrace,notN,notT,notF⟩ := marks
  rw [text,cons_append,readValue,skip_of c _ dark]
  simp [notQuote,notOpen,notBrace,notN,notT,notF,read]

theorem create_distinct (made members : List (String × Json)) (once : ((made ++ members).map Prod.fst).Nodup) :
    create made members = made ++ members := by
  induction members generalizing made with
  | nil => simp [create]
  | cons f rest ih =>
    obtain ⟨key,value⟩ := f
    have fresh : key ∉ made.map Prod.fst := by
      intro in_
      rw [map_append,map_cons] at once
      have apart := (nodup_append.mp once).2.2
      exact apart key in_ key (by simp) rfl
    rw [create,if_neg fresh,ih]
    · simp
    · simpa using once

theorem unsignedFields_keys (fields : List (String × Json)) :
    (unsignedFields fields).map Prod.fst = fields.map Prod.fst := by
  induction fields with
  | nil => rfl
  | cons f rest ih => simp [unsignedFields,ih]

theorem joined_cons (s t : String) (rest : List String) (more : List Char) :
    (joined "," (s :: t :: rest)).toList ++ more = s.toList ++ ',' :: ((joined "," (t :: rest)).toList ++ more) := by
  simp [joined]

theorem joined_cons_length (s t : String) (rest : List String) :
    (joined "," (s :: t :: rest)).toList.length = s.toList.length + 1 + (joined "," (t :: rest)).toList.length := by
  simp [joined]
  omega

theorem stops_of {c : Char} (rest : List Char) (mark : c = ',' ∨ c = ']' ∨ c = '\x7d') : Stops (c :: rest) := by
  rcases mark with mark | mark | mark <;> subst mark <;> intro c is_ <;> simp at is_ <;> subst is_ <;> decide

theorem value_text_ne_nil (value : Json) (plain : Plain value) : 0 < (stringify decimal value).toList.length := by
  cases value with
  | null => simp [stringify]
  | bool b => cases b <;> simp [stringify]
  | num n =>
    cases n with
    | finite q =>
      obtain ⟨c,rest,text,_⟩ := decimal_head q
      simp [stringify,numberJson,text]
    | negativeZero =>
      obtain ⟨c,rest,text,_⟩ := decimal_head 0
      simp [stringify,numberJson,text]
    | nan => simp [Plain,safe] at plain
    | infinity b => simp [Plain,safe] at plain
  | str s => simp [stringify,quote]
  | arr items => simp [stringify]
  | obj fields => simp [stringify]

/-- No value's text starts with a mark that closes an array. -/
theorem value_text_head (value : Json) (plain : Plain value) (rest : List Char) :
    (skip ((stringify decimal value).toList ++ rest)).head? ≠ some ']' := by
  cases value with
  | null => simp [stringify,skip,blank]
  | bool b => cases b <;> simp [stringify,skip,blank]
  | num n =>
    have number (q : Rat) : (skip ((decimal q).toList ++ rest)).head? ≠ some ']' := by
      obtain ⟨c,more,text,head⟩ := decimal_head q
      have dark : blank c = false := by
        by_contra no
        simp only [Bool.not_eq_false,blank,Bool.or_eq_true,decide_eq_true_eq] at no
        rcases no with ((no | no) | no) | no <;> subst no <;> simp at head
      rw [text,cons_append,skip_of c _ dark]
      intro no
      simp only [List.head?_cons,Option.some.injEq] at no
      subst no
      simp at head
    cases n with
    | finite q => simpa [stringify,numberJson] using number q
    | negativeZero => simpa [stringify,numberJson] using number 0
    | nan => simp [Plain,safe] at plain
    | infinity b => simp [Plain,safe] at plain
  | str s => simp [stringify,quote,skip,blank]
  | arr items => simp [stringify,skip,blank]
  | obj fields => simp [stringify,skip,blank]

def ReadsBack (value : Json) : Prop :=
  ∀ fuel rest, Plain value → Stops rest → 2 * (stringify decimal value).toList.length ≤ fuel →
    readValue fuel ((stringify decimal value).toList ++ rest) = some (unsigned value,rest)

def ItemsReadBack (items : List Json) : Prop :=
  ∀ fuel rest, PlainItems items → items ≠ [] → 2 * (joined "," (stringifyItems decimal items)).toList.length + 1 ≤ fuel →
    readItems fuel ((joined "," (stringifyItems decimal items)).toList ++ ']' :: rest) = some (unsignedItems items,rest)

def MembersReadBack (fields : List (String × Json)) : Prop :=
  ∀ fuel rest, PlainFields fields → fields ≠ [] →
    2 * (joined "," (stringifyFields decimal fields)).toList.length + 1 ≤ fuel →
    readMembers fuel ((joined "," (stringifyFields decimal fields)).toList ++ '\x7d' :: rest) =
      some (unsignedFields fields,rest)

theorem exists_less (enough : n ≤ fuel) (some_ : 0 < n) : ∃ less, fuel = less + 1 :=
  ⟨fuel - 1,by omega⟩

def leaf : Json → Bool
  | .arr _ | .obj _ => false
  | _ => true

theorem readsBack_leaf (value : Json) (is_ : leaf value = true) : ReadsBack value := by
  intro fuel rest plain stops enough
  have some_ := value_text_ne_nil value plain
  obtain ⟨fuel,rfl⟩ := exists_less enough (by omega)
  cases value with
  | null => simp [stringify,readValue,skip,blank,readWord,unsigned]
  | bool b => cases b <;> simp [stringify,readValue,skip,blank,readWord,unsigned]
  | num n =>
    cases n with
    | finite q => simpa [stringify,numberJson,unsigned] using readValue_number q plain fuel rest stops
    | negativeZero => simpa [stringify,numberJson,unsigned] using readValue_number 0 (by decide) fuel rest stops
    | nan => simp [Plain,safe] at plain
    | infinity b => simp [Plain,safe] at plain
  | str s =>
    rw [stringify] at enough ⊢
    have chars := readChars_quoted s.toList rest fuel (by rw [quote_length] at enough; omega)
    have dark : blank '"' = false := rfl
    rw [quote_text,readValue,skip_of '"' _ dark]
    simp [chars,unsigned]
  | arr items => simp [leaf] at is_
  | obj fields => simp [leaf] at is_

theorem readsBack_arr (items : List Json) (back : ItemsReadBack items) : ReadsBack (.arr items) := by
  intro fuel rest plain stops enough
  have some_ := value_text_ne_nil (.arr items) plain
  obtain ⟨fuel,rfl⟩ := exists_less enough (by omega)
  cases items with
  | nil => simp [stringify,stringifyItems,joined,readValue,skip,blank,unsigned,unsignedItems]
  | cons item items =>
    have length : (stringify decimal (.arr (item :: items))).toList.length =
        (joined "," (stringifyItems decimal (item :: items))).toList.length + 2 := by
      simp [stringify]
    have inner := back fuel rest plain (by simp) (by omega)
    have head : (skip ((joined "," (stringifyItems decimal (item :: items))).toList ++ ']' :: rest)).head? ≠ some ']' := by
      cases items with
      | nil => simpa [stringifyItems,joined] using value_text_head item plain.1 (']' :: rest)
      | cons second items =>
        rw [stringifyItems,stringifyItems,joined_cons]
        exact value_text_head item plain.1 _
    have text : (stringify decimal (.arr (item :: items))).toList ++ rest =
        '[' :: ((joined "," (stringifyItems decimal (item :: items))).toList ++ ']' :: rest) := by
      simp [stringify]
    have dark : blank '[' = false := rfl
    rw [text,readValue,skip_of '[' _ dark]
    simp [head,inner,unsigned]

theorem readsBack_obj (fields : List (String × Json)) (back : MembersReadBack fields) : ReadsBack (.obj fields) := by
  intro fuel rest plain stops enough
  have some_ := value_text_ne_nil (.obj fields) plain
  obtain ⟨fuel,rfl⟩ := exists_less enough (by omega)
  obtain ⟨once,plain⟩ := plain
  cases fields with
  | nil => simp [stringify,stringifyFields,joined,readValue,skip,blank,unsigned,unsignedFields]
  | cons f fields =>
    have length : (stringify decimal (.obj (f :: fields))).toList.length =
        (joined "," (stringifyFields decimal (f :: fields))).toList.length + 2 := by
      simp [stringify]
    have inner := back fuel rest plain (by simp) (by omega)
    have made : create [] (unsignedFields (f :: fields)) = unsignedFields (f :: fields) := by
      refine create_distinct [] _ ?_
      rw [nil_append,unsignedFields_keys]
      exact once
    have head : (skip ((joined "," (stringifyFields decimal (f :: fields))).toList ++ '\x7d' :: rest)).head? ≠
        some '\x7d' := by
      obtain ⟨key,value⟩ := f
      cases fields with
      | nil => simp [stringifyFields,joined,quote,skip,blank]
      | cons second fields =>
        rw [stringifyFields,stringifyFields,joined_cons]
        simp [quote,skip,blank]
    have text : (stringify decimal (.obj (f :: fields))).toList ++ rest =
        '\x7b' :: ((joined "," (stringifyFields decimal (f :: fields))).toList ++ '\x7d' :: rest) := by
      simp [stringify]
    have dark : blank '\x7b' = false := rfl
    rw [text,readValue,skip_of '\x7b' _ dark]
    simp [head,inner,made,unsigned]

theorem itemsReadBack_cons (item : Json) (items : List Json) (first : ReadsBack item) (others : ItemsReadBack items) :
    ItemsReadBack (item :: items) := by
  intro fuel rest plain _ enough
  obtain ⟨fuel,rfl⟩ := exists_less enough (by omega)
  cases items with
  | nil =>
    have read := first fuel (']' :: rest) plain.1 (stops_of rest (by simp)) (by simpa [stringifyItems,joined] using enough)
    simp [stringifyItems,joined,readItems,read,closing_last ']' rest rfl,unsignedItems]
  | cons second items =>
    have more := others fuel rest plain.2 (by simp)
    simp only [stringifyItems] at enough more ⊢
    rw [joined_cons_length] at enough
    have read := first fuel (',' :: ((joined "," (stringify decimal second :: stringifyItems decimal items)).toList ++
      ']' :: rest)) plain.1 (stops_of _ (by simp)) (by omega)
    have more := more (by omega)
    rw [joined_cons]
    simp [readItems,read,closing_next ']' _ (by decide),more,unsignedItems]

theorem membersReadBack_cons (key : String) (value : Json) (fields : List (String × Json)) (first : ReadsBack value)
    (others : MembersReadBack fields) : MembersReadBack ((key,value) :: fields) := by
  intro fuel rest plain _ enough
  obtain ⟨fuel,rfl⟩ := exists_less enough (by omega)
  have parts (more : List Char) : (quote key ++ ":" ++ stringify decimal value).toList ++ more =
      (quote key).toList ++ ':' :: ((stringify decimal value).toList ++ more) := by
    simp
  have length : (quote key ++ ":" ++ stringify decimal value).toList.length =
      (quote key).toList.length + 1 + (stringify decimal value).toList.length := by
    simp
    omega
  cases fields with
  | nil =>
    simp only [stringifyFields,joined] at enough ⊢
    have name := readKey_text key fuel ((stringify decimal value).toList ++ '\x7d' :: rest) (by omega)
    have read := first fuel ('\x7d' :: rest) plain.1 (stops_of rest (by simp)) (by omega)
    rw [parts]
    simp [readMembers,name,read,closing_last '\x7d' rest rfl,unsignedFields]
  | cons second fields =>
    have more := others fuel rest plain.2 (by simp)
    obtain ⟨key',value'⟩ := second
    simp only [stringifyFields] at enough more ⊢
    rw [joined_cons_length] at enough
    rw [joined_cons,parts]
    have name (after : List Char) := readKey_text key fuel after (by omega)
    have read (after : List Char) := first fuel (',' :: after) plain.1 (stops_of after (by simp)) (by omega)
    have more := more (by omega)
    simp [readMembers,name,read,closing_next '\x7d' _ (by decide),more,unsignedFields]

mutual
theorem readsBack : ∀ value, ReadsBack value
  | .null => readsBack_leaf .null rfl
  | .bool b => readsBack_leaf (.bool b) rfl
  | .num n => readsBack_leaf (.num n) rfl
  | .str s => readsBack_leaf (.str s) rfl
  | .arr items => readsBack_arr items (itemsReadBack items)
  | .obj fields => readsBack_obj fields (membersReadBack fields)

theorem itemsReadBack : ∀ items, ItemsReadBack items
  | [] => fun _ _ _ some_ => absurd rfl some_
  | item :: items => itemsReadBack_cons item items (readsBack item) (itemsReadBack items)

theorem membersReadBack : ∀ fields, MembersReadBack fields
  | [] => fun _ _ _ some_ => absurd rfl some_
  | (key,value) :: fields => membersReadBack_cons key value fields (readsBack value) (membersReadBack fields)
end

/-- What is written is read back, whatever whitespace follows. -/
theorem parse_text (value : Json) (after : String) (plain : Plain value) (dark : skip after.toList = [])
    (stops : Stops after.toList) : parse (stringify decimal value ++ after) = some (unsigned value) := by
  have read := readsBack value (2 * (stringify decimal value ++ after).toList.length + 2) after.toList plain stops
    (by simp only [String.toList_append,length_append]; omega)
  simp only [parse,String.toList_append] at read ⊢
  rw [read]
  simp [dark]

end Neurobro.JsonText
