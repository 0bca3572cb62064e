import Mathlib.Data.List.Basic
import Mathlib.Data.List.TakeWhile
import Mathlib.Tactic.Common

/-!
# C strings and heap blocks

A block is what `malloc` gives: cells that hold nothing until they are written.
An operation that would leave the block, or read a cell that holds nothing, is `none`.
-/

namespace ZdcPoc

/-- A C string, without the NUL that ends it. -/
structure CString where
  chars : List UInt8
  nul_free : 0 ∉ chars
deriving DecidableEq, Repr

def CString.size (s : CString) : Nat := s.chars.length + 1

def CString.bytes (s : CString) : List UInt8 := s.chars ++ [0]

@[simp] theorem CString.bytes_length (s : CString) : s.bytes.length = s.size := by
  simp [bytes, size]

@[ext] theorem CString.ext {s t : CString} (h : s.chars = t.chars) : s = t := by
  cases s; cases t; simp_all

def CString.empty : CString := ⟨[], List.not_mem_nil⟩

def CString.cons (b : UInt8) (h : b ≠ 0) (s : CString) : CString :=
  ⟨b :: s.chars, by simpa using ⟨h.symm, s.nul_free⟩⟩

theorem CString.lit_nul_free (cs : List Char) :
    0 ∉ (cs.map fun c => UInt8.ofNat c.toNat).takeWhile (· ≠ 0) :=
  fun h => by simpa using List.mem_takeWhile_imp h

/-- A string literal of ASCII characters. -/
def CString.lit (cs : List Char) : CString := ⟨_, CString.lit_nul_free cs⟩

abbrev Block := List (Option UInt8)

namespace Block

def ofBytes (bs : List UInt8) : Block := bs.map some

def malloc (n : Nat) : Block := List.replicate n none

def realloc (b : Block) (n : Nat) : Block := b.take n ++ List.replicate (n - b.length) none

def strcpy (b : Block) (s : CString) : Option Block :=
  if s.size ≤ b.length then some (ofBytes s.bytes ++ b.drop s.size) else none

def str : Block → Option CString
  | some b :: rest => if h : b = 0 then some .empty else (str rest).map (.cons b h)
  | _ => none

/-- The first `n` bytes of a block, as `memcpy` reads them. -/
def read : Block → Nat → Option (List UInt8)
  | _, 0 => some []
  | some b :: rest, n + 1 => (read rest n).map (b :: ·)
  | _, _ + 1 => none

/-! ## Blocks whose bytes are all written -/

@[simp] theorem ofBytes_length (bs : List UInt8) : (ofBytes bs).length = bs.length := by
  simp [ofBytes]

@[simp] theorem ofBytes_append (as bs : List UInt8) :
    ofBytes (as ++ bs) = ofBytes as ++ ofBytes bs := by simp [ofBytes]

theorem ofBytes_drop (bs : List UInt8) (n : Nat) : (ofBytes bs).drop n = ofBytes (bs.drop n) := by
  simp [ofBytes]

theorem written_of_mem {bs : List UInt8} {b : Option UInt8} (h : b ∈ ofBytes bs) : ∃ v, b = some v := by
  obtain ⟨v, -, rfl⟩ := List.mem_map.mp h
  exact ⟨v, rfl⟩

@[simp] theorem malloc_length (n : Nat) : (malloc n).length = n := List.length_replicate

theorem realloc_length (b : Block) (n : Nat) (h : b.length ≤ n) : (realloc b n).length = n := by
  simp only [realloc, List.length_append, List.length_take, List.length_replicate]
  omega

theorem str_bytes (s : CString) (b : Block) : str (ofBytes s.bytes ++ b) = some s := by
  obtain ⟨cs, hcs⟩ := s
  induction cs with
  | nil => simp [CString.bytes, ofBytes, str, CString.empty]
  | cons c cs ih =>
    have hc : c ≠ 0 := fun h => hcs (h ▸ List.mem_cons_self)
    have htail := ih fun h => hcs (List.mem_cons_of_mem _ h)
    simp only [CString.bytes, ofBytes, List.map_append, List.append_assoc, List.map_cons,
      List.cons_append] at htail ⊢
    rw [str, dif_neg hc, htail]
    rfl

theorem str_all (s : CString) : str (ofBytes s.bytes) = some s := by
  have := str_bytes s []
  rwa [List.append_nil] at this

theorem take_str {b : Block} {s : CString} (h : str b = some s) : b.take s.chars.length = ofBytes s.chars := by
  induction b generalizing s with
  | nil => cases h
  | cons v b ih =>
    cases v with
    | none => cases h
    | some v =>
      rw [str] at h
      split at h
      · cases h
        rfl
      · obtain ⟨t, ht, rfl⟩ := Option.map_eq_some_iff.mp h
        exact congrArg (some v :: ·) (ih ht)

theorem str_ofBytes {bs : List UInt8} {s : CString} (h : str (ofBytes bs) = some s) :
    ∃ tail, bs = s.bytes ++ tail := by
  induction bs generalizing s with
  | nil => cases h
  | cons b bs ih =>
    simp only [ofBytes, List.map_cons, str] at h
    split at h
    · rename_i hb
      cases h
      exact ⟨bs, by simp [CString.bytes, CString.empty, hb]⟩
    · obtain ⟨t, ht, rfl⟩ := Option.map_eq_some_iff.mp h
      obtain ⟨tail, rfl⟩ := ih ht
      exact ⟨tail, by simp [CString.bytes, CString.cons]⟩

theorem exists_str {bs : List UInt8} (h : 0 ∈ bs) : ∃ s, str (ofBytes bs) = some s := by
  induction bs with
  | nil => cases h
  | cons b bs ih =>
    by_cases hb : b = 0
    · exact ⟨.empty, by simp [ofBytes, str, hb]⟩
    · obtain ⟨s, hs⟩ := ih (by simpa [Ne.symm hb] using h)
      refine ⟨.cons b hb s, ?_⟩
      simp only [ofBytes, List.map_cons, str, dif_neg hb]
      exact Option.map_eq_some_iff.mpr ⟨s, hs, rfl⟩

theorem read_ofBytes (bs : List UInt8) (b : Block) : read (ofBytes bs ++ b) bs.length = some bs := by
  induction bs with
  | nil => cases b <;> rfl
  | cons c bs ih =>
    simp only [ofBytes, List.map_cons, List.cons_append, List.length_cons, read] at ih ⊢
    rw [ih, Option.map_some]

theorem read_all (bs : List UInt8) : read (ofBytes bs) bs.length = some bs := by
  have := read_ofBytes bs []
  rwa [List.append_nil] at this

theorem strcpy_exact (b : Block) (s : CString) (h : b.length = s.size) :
    strcpy b s = some (ofBytes s.bytes) := by
  rw [strcpy, if_pos (Nat.le_of_eq h.symm), List.drop_of_length_le (Nat.le_of_eq h), List.append_nil]

/-- Growing a block to the string when it is too small, then copying. -/
theorem grow_strcpy (b : Block) (s : CString) :
    strcpy (if s.size > b.length then realloc b s.size else b) s =
      some (ofBytes s.bytes ++ b.drop s.size) := by
  split
  · rename_i h
    rw [strcpy_exact _ _ (realloc_length _ _ (by omega)), List.drop_of_length_le (by omega),
      List.append_nil]
  · rename_i h
    rw [strcpy, if_pos (by omega)]

end Block

end ZdcPoc
