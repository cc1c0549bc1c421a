/-
  TrinoGateway.Lib.Wire — integers on the wire: two's complement, most significant byte
  first, in a fixed number of bytes (`put_i16`, `put_i32`, `put_i64`).

  `readSigned_putInt`: what fits is read back.
-/

import Mathlib

namespace TrinoGateway.Lib

/-- `k` in `n` bytes, modulo 256 to the `n`. -/
def putInt : ℕ → ℤ → List UInt8
  | 0, _ => []
  | n + 1, k => putInt n (k / 256) ++ [UInt8.ofNat (k % 256).toNat]

def readBytes (bs : List UInt8) : ℕ := bs.foldl (fun a b => a * 256 + b.toNat) 0

/-- Bytes read as a two's complement number, the most significant first. -/
def readSigned (bs : List UInt8) : ℤ :=
  if 2 * readBytes bs < 256 ^ bs.length then readBytes bs else readBytes bs - 256 ^ bs.length

@[simp] theorem putInt_length (n : ℕ) (k : ℤ) : (putInt n k).length = n := by
  induction n generalizing k with
  | zero => rfl
  | succ n ih => simp [putInt, ih]

/-- The last digit of base `b` split off a remainder. -/
theorem emod_mul_base (k : ℤ) {b m : ℤ} (hb : 0 < b) (hm : 0 < m) : k % (b * m) = k / b % m * b + k % b := by
  have h1 := Int.emod_add_mul_ediv k b
  have h2 := Int.emod_add_mul_ediv (k / b) m
  have hs := Int.emod_lt_of_pos (k / b) hm
  have hs0 := Int.emod_nonneg (k / b) hm.ne'
  have hr := Int.emod_lt_of_pos k hb
  have hr0 := Int.emod_nonneg k hb.ne'
  refine ((Int.ediv_emod_unique (a := k) (q := k / b / m) (mul_pos hb hm)).mpr ⟨?_, by positivity, ?_⟩).2
  · calc k / b % m * b + k % b + b * m * (k / b / m) = k % b + b * (k / b % m + m * (k / b / m)) := by ring
      _ = k := by rw [h2, h1]
  · nlinarith

theorem readBytes_putInt (n : ℕ) (k : ℤ) : (readBytes (putInt n k) : ℤ) = k % 256 ^ n := by
  induction n generalizing k with
  | zero => simp [putInt, readBytes]
  | succ n ih =>
    have hb : ((UInt8.ofNat (k % 256).toNat).toNat : ℤ) = k % 256 := by
      have h1 : 0 ≤ k % 256 := Int.emod_nonneg k (by decide)
      have h2 : k % 256 < 256 := Int.emod_lt_of_pos k (by decide)
      rw [UInt8.toNat_ofNat']
      omega
    have hs : readBytes (putInt (n + 1) k) = readBytes (putInt n (k / 256)) * 256 + (UInt8.ofNat (k % 256).toNat).toNat := by
      simp [putInt, readBytes, List.foldl_append]
    rw [hs]
    push_cast
    rw [ih, hb, pow_succ, mul_comm (256 ^ n : ℤ) 256, emod_mul_base k (by decide) (by positivity)]

theorem readSigned_putInt {n : ℕ} {k : ℤ} (hlo : -256 ^ n ≤ 2 * k) (hhi : 2 * k < 256 ^ n) :
    readSigned (putInt n k) = k := by
  have hr := readBytes_putInt n k
  have hpos : (0 : ℤ) < 256 ^ n := by positivity
  have hm : ((256 ^ n : ℕ) : ℤ) = 256 ^ n := by push_cast; rfl
  unfold readSigned
  rw [putInt_length]
  rcases le_or_gt 0 k with hk | hk
  · have e : k % 256 ^ n = k := Int.emod_eq_of_lt hk (by omega)
    rw [if_pos (by omega), hr, e]
  · have e : k % 256 ^ n = k + 256 ^ n := by
      rw [← Int.add_emod_right]
      exact Int.emod_eq_of_lt (by omega) (by omega)
    rw [if_neg (by omega), hr, e]
    ring

end TrinoGateway.Lib
