import Neurobro.Data.Lines

/-! Base64 with padding: three bytes in four letters, and strict reading of it. -/
namespace Neurobro.Base64

def alphabet : List Char := "ABCDEFGHIJKLMNOPQRSTUVWXYZabcdefghijklmnopqrstuvwxyz0123456789+/".toList

def letter (n : Nat) : Char := alphabet.getD n 'A'

/-- The six bits of a letter. -/
def sextet (c : Char) : Option Nat :=
  if 'A' ≤ c ∧ c ≤ 'Z' then some (c.toNat - 65)
  else if 'a' ≤ c ∧ c ≤ 'z' then some (c.toNat - 71)
  else if '0' ≤ c ∧ c ≤ '9' then some (c.toNat + 4)
  else if c = '+' then some 62
  else if c = '/' then some 63
  else none

def letters : Bytes → List Char
  | [] => []
  | [a] => [letter (a.toNat / 4),letter (a.toNat % 4 * 16),'=','=']
  | [a,b] => [letter (a.toNat / 4),letter (a.toNat % 4 * 16 + b.toNat / 16),letter (b.toNat % 16 * 4),'=']
  | a :: b :: c :: rest =>
    letter (a.toNat / 4) :: letter (a.toNat % 4 * 16 + b.toNat / 16) ::
      letter (b.toNat % 16 * 4 + c.toNat / 64) :: letter (c.toNat % 64) :: letters rest

def encode (bytes : Bytes) : String := String.ofList (letters bytes)

/-- The bytes of groups of four letters; what the padding cuts off is dropped. -/
def read : List Char → Option Bytes
  | [] => some []
  | w :: x :: y :: z :: rest => do
    let w ← sextet w
    let x ← sextet x
    let a := UInt8.ofNat (w * 4 + x / 16)
    if y = '=' then
      if z = '=' ∧ rest = [] then some [a] else none
    else do
      let y ← sextet y
      let b := UInt8.ofNat (x % 16 * 16 + y / 4)
      if z = '=' then
        if rest = [] then some [a,b] else none
      else do
        let z ← sextet z
        let more ← read rest
        some (a :: b :: UInt8.ofNat (y % 4 * 64 + z) :: more)
  | _ => none

/-- Only the text that the bytes are written as is read. -/
def decode (text : String) : Option Bytes :=
  (read text.toList).filter fun bytes => encode bytes = text

theorem letters_length (bytes : Bytes) : (letters bytes).length = 4 * ((bytes.length + 2) / 3) := by
  induction bytes using letters.induct with
  | case1 => rfl
  | case2 | case3 => simp [letters]
  | case4 a b c rest ih =>
    simp only [letters,List.length_cons,ih]
    omega

/-- What may stand in such a text. -/
def mark (c : Char) : Bool := c = '=' || alphabet.contains c

theorem mark_letter (n : Nat) : mark (letter n) = true := by
  have here : letter n ∈ alphabet := by
    unfold letter
    rw [List.getD_eq_getElem?_getD]
    cases found : alphabet[n]? with
    | none => exact List.mem_of_getElem? (show alphabet[0]? = some 'A' from rfl)
    | some c => exact List.mem_of_getElem? found
  simp [mark,here]

theorem mark_letters (bytes : Bytes) : ∀ c ∈ letters bytes, mark c = true := by
  have pad : mark '=' = true := rfl
  induction bytes using letters.induct with
  | case1 => simp [letters]
  | case2 | case3 => simp [letters,mark_letter,pad]
  | case4 a b c rest ih =>
    simp only [letters,List.forall_mem_cons,mark_letter,true_and]
    exact ih

end Neurobro.Base64
