import Mathlib.Data.List.Basic

/-! Bytes of a text, and bytes in lines: where a chunk is cut by line feeds, and which lines a stream completes,
however it comes in. -/
namespace Neurobro

open List

abbrev Bytes := List UInt8

def utf8 (s : String) : Bytes := s.toByteArray.data.toList

def fromUtf8 (bytes : Bytes) : Option String := String.fromUTF8? ⟨bytes.toArray⟩

theorem fromUtf8_utf8 (s : String) : fromUtf8 (utf8 s) = some s := by
  have same : (⟨(utf8 s).toArray⟩ : ByteArray) = s.toByteArray := by simp [utf8]
  have valid : (s.toByteArray).IsValidUTF8 := s.isValidUTF8
  rw [fromUtf8,same]
  simp [String.fromUTF8?,valid,String.fromUTF8]

theorem utf8_of_fromUtf8 {bytes : Bytes} (read : fromUtf8 bytes = some s) : utf8 s = bytes := by
  simp only [fromUtf8,String.fromUTF8?] at read
  split at read
  · cases read
    simp [utf8]
    rfl
  · contradiction

theorem utf8_length (s : String) : (utf8 s).length = s.utf8ByteSize := by
  simp [utf8]

def newline : UInt8 := 10

/-- The parts of a chunk that a reader takes one after another: each ends with a line feed,
or with the chunk. -/
def segments : Bytes → List Bytes
  | [] => []
  | b :: rest =>
    if b = newline then [b] :: segments rest
    else
      match segments rest with
      | [] => [[b]]
      | segment :: more => (b :: segment) :: more

/-- The lines that a stream completes, without their line feeds, and what is left over. -/
def cut (pending : Bytes) : Bytes → List Bytes × Bytes
  | [] => ([],pending)
  | b :: rest =>
    if b = newline then (pending :: (cut [] rest).1,(cut [] rest).2) else cut (pending ++ [b]) rest

theorem segments_line (body rest : Bytes) (plain : newline ∉ body) :
    segments (body ++ newline :: rest) = (body ++ [newline]) :: segments rest := by
  induction body with
  | nil => simp [segments]
  | cons b body ih =>
    simp only [mem_cons,not_or] at plain
    simp [segments,Ne.symm plain.1,ih plain.2]

theorem segments_plain (b : UInt8) (body : Bytes) (plain : newline ∉ b :: body) : segments (b :: body) = [b :: body] := by
  induction body generalizing b with
  | nil =>
    simp only [mem_cons,not_or] at plain
    simp [segments,Ne.symm plain.1]
  | cons c body ih =>
    simp only [mem_cons,not_or] at plain
    have tail := ih c (by simp [plain.2])
    rw [segments,if_neg (Ne.symm plain.1),tail]

/-- A chunk is empty, or has no line feed, or starts with a line. -/
theorem chunk_cases (chunk : Bytes) : chunk = [] ∨ (∃ b body, chunk = b :: body ∧ newline ∉ b :: body) ∨
    ∃ body rest, chunk = body ++ newline :: rest ∧ newline ∉ body := by
  induction chunk with
  | nil => exact .inl rfl
  | cons b chunk ih =>
    by_cases is_ : b = newline
    · exact .inr (.inr ⟨[],chunk,by simp [is_],by simp⟩)
    · rcases ih with rfl | ⟨c,body,rfl,plain⟩ | ⟨body,rest,rfl,plain⟩
      · exact .inr (.inl ⟨b,[],rfl,by simpa using Ne.symm is_⟩)
      · exact .inr (.inl ⟨b,c :: body,rfl,by
          rw [mem_cons,not_or]
          exact ⟨Ne.symm is_,plain⟩⟩)
      · exact .inr (.inr ⟨b :: body,rest,rfl,by
          rw [mem_cons,not_or]
          exact ⟨Ne.symm is_,plain⟩⟩)

/-- Every chunk is its segments one after another: what holds of the empty chunk, of a last part and
of a line before a chunk, holds of all. -/
theorem chunk_induction {P : Bytes → Prop} (empty : P []) (last : ∀ b body, newline ∉ b :: body → P (b :: body))
    (line : ∀ body rest, newline ∉ body → P rest → P (body ++ newline :: rest)) (chunk : Bytes) : P chunk := by
  induction n : chunk.length using Nat.strongRecOn generalizing chunk with
  | _ n ih =>
    rcases chunk_cases chunk with rfl | ⟨b,body,rfl,plain⟩ | ⟨body,rest,rfl,plain⟩
    · exact empty
    · exact last b body plain
    · exact line body rest plain (ih rest.length (by rw [← n]; simp; omega) rest rfl)

theorem cut_plain (pending body : Bytes) (plain : newline ∉ body) : cut pending body = ([],pending ++ body) := by
  induction body generalizing pending with
  | nil => simp [cut]
  | cons b body ih =>
    simp only [mem_cons,not_or] at plain
    rw [cut,if_neg (Ne.symm plain.1),ih _ plain.2]
    simp

theorem cut_line (pending body rest : Bytes) (plain : newline ∉ body) :
    cut pending (body ++ newline :: rest) = ((pending ++ body) :: (cut [] rest).1,(cut [] rest).2) := by
  induction body generalizing pending with
  | nil => simp [cut]
  | cons b body ih =>
    simp only [mem_cons,not_or] at plain
    rw [cons_append,cut,if_neg (Ne.symm plain.1),ih _ plain.2]
    simp

theorem cut_append (pending first rest : Bytes) :
    cut pending (first ++ rest) =
      ((cut pending first).1 ++ (cut (cut pending first).2 rest).1,(cut (cut pending first).2 rest).2) := by
  induction first generalizing pending with
  | nil => simp [cut]
  | cons b first ih =>
    rw [cons_append,cut,cut]
    split
    · rw [ih]
      simp
    · exact ih _

end Neurobro
