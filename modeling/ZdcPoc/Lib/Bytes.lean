import Mathlib.Data.Nat.Log
import Mathlib.Tactic.Common
import Mathlib.Tactic.Ring

/-!
# Bytes in memory: little-endian numbers, partial copies, minimal widths
-/

namespace ZdcPoc.Bytes

/-! ## Little-endian numbers -/

def leBytes : Nat → Nat → List UInt8
  | 0, _ => []
  | n + 1, v => UInt8.ofNat v :: leBytes n (v / 256)

def leVal (bs : List UInt8) : Nat := bs.foldr (fun b acc => b.toNat + 256 * acc) 0

@[simp] theorem leVal_nil : leVal [] = 0 := rfl

@[simp] theorem leVal_cons (b : UInt8) (bs : List UInt8) :
    leVal (b :: bs) = b.toNat + 256 * leVal bs := rfl

@[simp] theorem leBytes_length (n v : Nat) : (leBytes n v).length = n := by
  induction n generalizing v with
  | zero => rfl
  | succ n ih => simp [leBytes, ih]

theorem leVal_leBytes (n v : Nat) : leVal (leBytes n v) = v % 256 ^ n := by
  induction n generalizing v with
  | zero => simp [leBytes, Nat.mod_one]
  | succ n ih =>
    rw [leBytes, leVal_cons, ih, Nat.pow_succ', Nat.mod_mul, UInt8.toNat_ofNat']

theorem leVal_append (as bs : List UInt8) :
    leVal (as ++ bs) = leVal as + 256 ^ as.length * leVal bs := by
  induction as with
  | nil => simp
  | cons a as ih => simp only [List.cons_append, leVal_cons, ih, List.length_cons, pow_succ]; ring

theorem leVal_lt (bs : List UInt8) : leVal bs < 256 ^ bs.length := by
  induction bs with
  | nil => simp
  | cons b bs ih =>
    have hb := b.toNat_lt
    rw [leVal_cons, List.length_cons, pow_succ]
    omega

theorem leBytes_leVal (bs : List UInt8) : leBytes bs.length (leVal bs) = bs := by
  induction bs with
  | nil => rfl
  | cons b bs ih =>
    have hb := b.toNat_lt
    rw [List.length_cons, leVal_cons, leBytes, Nat.add_mul_div_left _ _ (by omega),
      Nat.div_eq_of_lt hb, Nat.zero_add, ih]
    congr 1
    rw [← UInt8.toNat_inj, UInt8.toNat_ofNat', Nat.add_mul_mod_self_left, Nat.mod_eq_of_lt hb]

theorem leBytes_take (n k v : Nat) (h : k ≤ n) : (leBytes n v).take k = leBytes k v := by
  induction k generalizing n v with
  | zero => rfl
  | succ k ih =>
    obtain ⟨m, rfl⟩ : ∃ m, n = m + 1 := ⟨n - 1, by omega⟩
    rw [leBytes, List.take_succ_cons, ih m _ (by omega), leBytes]

/-! ## Memory -/

abbrev Mem := Nat → UInt8

def Mem.read (m : Mem) : Nat → Nat → List UInt8
  | _, 0 => []
  | off, n + 1 => m off :: m.read (off + 1) n

/-- `memcpy` of the bytes `bs` to `off`. -/
def Mem.write (m : Mem) (off : Nat) (bs : List UInt8) : Mem :=
  fun i => if i < off then m i else bs.getD (i - off) (m i)

def Mem.num (m : Mem) (off n : Nat) : Nat := leVal (m.read off n)

def Mem.setNum (m : Mem) (off n v : Nat) : Mem := m.write off (leBytes n v)

@[simp] theorem read_length (m : Mem) (off n : Nat) : (m.read off n).length = n := by
  induction n generalizing off with
  | zero => rfl
  | succ n ih => simp [Mem.read, ih]

theorem read_congr {m m' : Mem} {off n : Nat} (h : ∀ i, off ≤ i → i < off + n → m i = m' i) :
    m.read off n = m'.read off n := by
  induction n generalizing off with
  | zero => rfl
  | succ n ih =>
    rw [Mem.read, Mem.read, h off (le_refl _) (by omega), ih fun i h1 h2 => h i (by omega) (by omega)]

theorem read_add (m : Mem) (off a b : Nat) :
    m.read off (a + b) = m.read off a ++ m.read (off + a) b := by
  induction a generalizing off with
  | zero => simp [Mem.read]
  | succ a ih =>
    rw [show a + 1 + b = (a + b) + 1 by omega, Mem.read, Mem.read, ih, List.cons_append,
      show off + 1 + a = off + (a + 1) by omega]

theorem write_before (m : Mem) (off : Nat) (bs : List UInt8) (i : Nat) (h : i < off) :
    m.write off bs i = m i := if_pos h

theorem write_after (m : Mem) (off : Nat) (bs : List UInt8) (i : Nat) (h : off + bs.length ≤ i) :
    m.write off bs i = m i := by
  rw [Mem.write, if_neg (by omega), List.getD_eq_getElem?_getD, List.getElem?_eq_none (by omega)]
  rfl

theorem num_write_disjoint (m : Mem) (off : Nat) (bs : List UInt8) (off' n : Nat)
    (h : off' + n ≤ off ∨ off + bs.length ≤ off') : (m.write off bs).num off' n = m.num off' n := by
  rw [Mem.num, Mem.num, read_congr]
  intro i h1 h2
  rcases h with h | h
  · exact write_before m off bs i (by omega)
  · exact write_after m off bs i (by omega)

theorem read_write_self (m : Mem) (off : Nat) (bs : List UInt8) :
    (m.write off bs).read off bs.length = bs := by
  induction bs generalizing m off with
  | nil => rfl
  | cons b bs ih =>
    have hb : m.write off (b :: bs) off = b := by simp [Mem.write]
    have htail : (m.write off (b :: bs)).read (off + 1) bs.length =
        (m.write (off + 1) bs).read (off + 1) bs.length := by
      apply read_congr
      intro i h1 h2
      rw [Mem.write, Mem.write, if_neg (by omega), if_neg (by omega),
        show i - off = (i - (off + 1)) + 1 by omega, List.getD_cons_succ]
    rw [List.length_cons, Mem.read, hb, htail, ih m (off + 1)]

/-- A copy into the low bytes of a number keeps the bytes above them. -/
theorem num_write (m : Mem) (off n : Nat) (bs : List UInt8) (h : bs.length ≤ n) :
    (m.write off bs).num off n = leVal bs + 256 ^ bs.length * (m.num off n / 256 ^ bs.length) := by
  obtain ⟨k, rfl⟩ : ∃ k, n = bs.length + k := ⟨n - bs.length, by omega⟩
  have hhigh : (m.write off bs).num (off + bs.length) k = m.num (off + bs.length) k :=
    num_write_disjoint m off bs _ _ (Or.inr (le_refl _))
  have hold : m.num off (bs.length + k) / 256 ^ bs.length = m.num (off + bs.length) k := by
    rw [Mem.num, read_add, leVal_append, read_length, Nat.add_mul_div_left _ _ (Nat.pow_pos (by omega))]
    have := leVal_lt (m.read off bs.length)
    rw [read_length] at this
    rw [Nat.div_eq_of_lt this, Nat.zero_add, Mem.num]
  rw [hold, Mem.num, read_add, leVal_append, read_write_self, ← hhigh, Mem.num]

theorem num_setNum (m : Mem) (off n v : Nat) : (m.setNum off n v).num off n = v % 256 ^ n := by
  rw [Mem.setNum, num_write m off n _ (by simp), leBytes_length, leVal_leBytes]
  have : m.num off n < 256 ^ n := by simpa [Mem.num] using leVal_lt (m.read off n)
  rw [Nat.div_eq_of_lt this, Nat.mul_zero, Nat.add_zero]

theorem num_setNum_disjoint (m : Mem) (off n v off' n' : Nat)
    (h : off' + n' ≤ off ∨ off + n ≤ off') : (m.setNum off n v).num off' n' = m.num off' n' :=
  num_write_disjoint m off _ off' n' (by simpa using h)

theorem read_of_num {m : Mem} {off n v : Nat} (h : m.num off n = v) : m.read off n = leBytes n v := by
  have hbytes := leBytes_leVal (m.read off n)
  rw [read_length] at hbytes
  rw [← hbytes, ← h, Mem.num]

theorem read_setNum (m : Mem) (off n v : Nat) : (m.setNum off n v).read off n = leBytes n v := by
  have h := read_write_self m off (leBytes n v)
  rwa [leBytes_length] at h

/-- The high byte of a two-byte number after a copy into its low bytes, when it was `high` before. -/
def highByte (high : Nat) : List UInt8 → Nat
  | [_, hi] => hi.toNat
  | _ => high

theorem num_write_high (m : Mem) (off : Nat) (bs : List UInt8) (h : bs.length ≤ 2) :
    (m.write off bs).num off 2 / 256 = highByte (m.num off 2 / 256) bs := by
  rw [num_write m off 2 bs h]
  match bs, h with
  | [], _ => simp [highByte]
  | [b], _ =>
    have hb := b.toNat_lt
    simp only [highByte, leVal_cons, leVal_nil, List.length_cons, List.length_nil]
    omega
  | [b, hi], _ =>
    have hb := b.toNat_lt
    have hold := leVal_lt (m.read off 2)
    rw [read_length, ← Mem.num] at hold
    simp only [highByte, leVal_cons, leVal_nil, List.length_cons, List.length_nil]
    omega

/-! ## Minimal widths -/

/-- The number of bytes of the minimal little-endian form of `v`, at least one. -/
def minWidth (v : Nat) : Nat := Nat.log 256 v + 1

theorem lt_pow_minWidth (v : Nat) : v < 256 ^ minWidth v := Nat.lt_pow_succ_log_self (by omega) v

theorem minWidth_le {v n : Nat} (hn : n ≠ 0) (h : v < 256 ^ n) : minWidth v ≤ n :=
  Nat.log_lt_of_lt_pow' hn h

theorem minWidth_of_lt {v : Nat} (h : v < 256) : minWidth v = 1 := by
  rw [minWidth, Nat.log_of_lt h]

theorem minWidth_of_ge {v : Nat} (h : 256 ≤ v) (h' : v < 65536) : minWidth v = 2 := by
  have h2 : minWidth v ≤ 2 := minWidth_le (by omega) (by omega)
  have h1 : 1 ≤ Nat.log 256 v := Nat.log_pos (by omega) h
  rw [minWidth] at h2 ⊢
  omega

def Mem.setMin (m : Mem) (off v : Nat) : Mem := m.write off (leBytes (minWidth v) v)

/-- A number stored in its minimal width reads back as itself exactly when the field held nothing
above that width. -/
theorem num_setMin (m : Mem) (off n v : Nat) (h : minWidth v ≤ n) :
    (m.setMin off v).num off n = v ↔ m.num off n < 256 ^ minWidth v := by
  have hv := lt_pow_minWidth v
  have hpos : 0 < 256 ^ minWidth v := Nat.pow_pos (by omega)
  rw [Mem.setMin, num_write m off n _ (by simpa using h), leBytes_length, leVal_leBytes,
    Nat.mod_eq_of_lt hv]
  constructor
  · intro he
    have hz : 256 ^ minWidth v * (m.num off n / 256 ^ minWidth v) = 0 := by omega
    rcases Nat.mul_eq_zero.mp hz with h0 | h0
    · omega
    · exact (Nat.div_eq_zero_iff_lt hpos).mp h0
  · intro hlt
    rw [Nat.div_eq_of_lt hlt, Nat.mul_zero, Nat.add_zero]

theorem num_lt (m : Mem) (off n : Nat) : m.num off n < 256 ^ n := by
  have h := leVal_lt (m.read off n)
  rwa [read_length] at h

theorem num_setMin_one (m : Mem) (off v : Nat) (h : v < 256) : (m.setMin off v).num off 1 = v := by
  rw [num_setMin m off 1 v (le_of_eq (minWidth_of_lt h)), minWidth_of_lt h]
  exact num_lt m off 1

theorem num_setMin_two (m : Mem) (off v : Nat) (h : v < 65536) :
    (m.setMin off v).num off 2 = v ↔ 256 ≤ v ∨ m.num off 2 / 256 = 0 := by
  have hm : m.num off 2 < 256 ^ 2 := num_lt m off 2
  rw [num_setMin m off 2 v (minWidth_le (by omega) h)]
  by_cases h1 : v < 256
  · rw [minWidth_of_lt h1]
    omega
  · rw [minWidth_of_ge (by omega) h]
    omega

end ZdcPoc.Bytes
