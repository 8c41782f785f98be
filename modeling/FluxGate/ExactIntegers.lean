import FluxGate.Json
import Mathlib.Data.Nat.Log

/-!
# Integers below `2^53` through `float64`

Every integer of magnitude below `2^53` is a float64 as it is, and no other integer rounds to
it, so `json.Marshal` prints it back as the same integer: a Go `int` that small survives its
round through `any`. At `2^53 + 1` it no longer does.
-/

namespace FluxGate

theorem log2_go_eq (fuel n : Nat) (h : n ≤ fuel) : log2.go fuel n = Nat.log 2 n := by
  induction fuel generalizing n with
  | zero =>
    obtain rfl : n = 0 := by omega
    simp [log2.go]
  | succ f ih =>
    unfold log2.go
    split
    · next h2 => exact (Nat.log_of_lt h2).symm
    · next h2 =>
      rw [ih (n / 2) (by omega), Nat.log_of_one_lt_of_le Nat.one_lt_two (show 2 ≤ n by omega)]

theorem log2_eq (n : Nat) : log2 n = Nat.log 2 n := log2_go_eq n n le_rfl

theorem scaleExp_one {n : Nat} (h0 : 0 < n) : scaleExp n 1 = (Nat.log 2 n : Int) - 52 := by
  have hpow : 2 ^ Nat.log 2 n ≤ n := Nat.pow_log_le_self 2 (by omega)
  simp [scaleExp, log2_eq, hpow]
  omega

theorem roundScaled_one (a : Nat) {e : Int} (he : e ≤ 0) : roundScaled a 1 e = a * 2 ^ (-e).toNat := by
  by_cases h : 0 ≤ e
  · obtain rfl : e = 0 := by omega
    simp [roundScaled, Nat.mod_one]
  · simp [roundScaled, h, Nat.mod_one]

theorem roundRat_small {n : Nat} (h0 : 0 < n) (h : n < 2 ^ 53) :
    roundRat n 1 = some (n * 2 ^ (52 - Nat.log 2 n), (Nat.log 2 n : Int) - 52) := by
  have hL : Nat.log 2 n < 53 := Nat.log_lt_of_lt_pow (by omega) h
  have hlt : n < 2 ^ (Nat.log 2 n + 1) := Nat.lt_pow_succ_log_self Nat.one_lt_two n
  have hexp : (-((Nat.log 2 n : Int) - 52)).toNat = 52 - Nat.log 2 n := by omega
  have hm : n * 2 ^ (52 - Nat.log 2 n) < 2 ^ 53 := by
    calc n * 2 ^ (52 - Nat.log 2 n) < 2 ^ (Nat.log 2 n + 1) * 2 ^ (52 - Nat.log 2 n) :=
          Nat.mul_lt_mul_of_pos_right hlt (Nat.pos_pow_of_pos _ Nat.two_pos)
      _ = 2 ^ 53 := by rw [← Nat.pow_add]; congr 1; omega
  have he : (Nat.log 2 n : Int) - 52 ≤ 0 := by omega
  rw [roundRat, if_neg (by omega)]
  simp only [scaleExp_one h0, roundScaled_one n he, hexp, hm.ne, if_false]
  rw [if_neg (by omega)]

theorem roundRat_exp_pos {y : Nat} (h : 2 ^ 53 ≤ y) {m : Nat} {e : Int}
    (hr : roundRat y 1 = some (m, e)) : 0 < e := by
  have hL : 53 ≤ Nat.log 2 y := Nat.le_log_of_pow_le Nat.one_lt_two h
  rw [roundRat, if_neg (by omega)] at hr
  simp only [scaleExp_one (show 0 < y by omega)] at hr
  split at hr <;> split at hr <;> simp_all only [Option.some.injEq, Prod.mk.injEq, reduceCtorEq] <;> omega

theorem roundRat_of_lt {n : Nat} (hn : n < 2 ^ 53) : ∃ m e, roundRat n 1 = some (m, e) ∧ e ≤ 0 := by
  rcases Nat.eq_zero_or_pos n with rfl | h0
  · exact ⟨0, 0, rfl, le_rfl⟩
  · exact ⟨_, _, roundRat_small h0 hn, by have := Nat.log_lt_of_lt_pow h0.ne' hn; omega⟩

theorem natAbs?_of_roundRat {n : Nat} (hn : n < 2 ^ 53) {f : Float64}
    (hf : roundRat n 1 = some (f.mant, f.exp)) : f.natAbs? = some n := by
  obtain ⟨neg, mant, exp⟩ := f
  rcases Nat.eq_zero_or_pos n with rfl | hn0
  · rw [show roundRat 0 1 = some (0, 0) from rfl] at hf
    simp only [Option.some.injEq, Prod.mk.injEq] at hf
    obtain ⟨rfl, rfl⟩ := hf
    rfl
  · have hL : Nat.log 2 n < 53 := Nat.log_lt_of_lt_pow (by omega) hn
    rw [roundRat_small hn0 hn] at hf
    simp only [Option.some.injEq, Prod.mk.injEq] at hf
    obtain ⟨rfl, rfl⟩ := hf
    by_cases h52 : Nat.log 2 n = 52
    · simp [Float64.natAbs?, h52]
    · have hexp : (-((Nat.log 2 n : Int) - 52)).toNat = 52 - Nat.log 2 n := by omega
      simp only [Float64.natAbs?, show ¬ (0 : Int) ≤ (Nat.log 2 n : Int) - 52 by omega, if_false, hexp,
        Nat.mul_mod_left, if_true]
      rw [Nat.mul_div_cancel _ (Nat.pos_pow_of_pos _ (by decide))]

theorem eq_of_roundRat_eq {n y : Nat} (hn : n < 2 ^ 53) (h : roundRat y 1 = roundRat n 1) : y = n := by
  obtain ⟨m, e, hr, he⟩ := roundRat_of_lt hn
  by_cases hy : y < 2 ^ 53
  · exact Option.some.inj ((natAbs?_of_roundRat hy (f := ⟨false, m, e⟩) (h.trans hr)).symm.trans
      (natAbs?_of_roundRat hn (f := ⟨false, m, e⟩) hr))
  · have := roundRat_exp_pos (by omega) (h.trans hr)
    omega

theorem shortestInt_go {n : Nat} (hn : n < 2 ^ 53) {f : Float64}
    (hf : roundRat n 1 = some (f.mant, f.exp)) (k : Nat) : shortestInt.go f n k = n := by
  have hback : ∀ y, decide (roundRat y 1 = some (f.mant, f.exp)) = decide (y = n) := fun y => by
    rw [← hf]
    exact decide_eq_decide.mpr ⟨eq_of_roundRat_eq hn, fun h => h ▸ rfl⟩
  induction k with
  | zero => rfl
  | succ k ih =>
    have hp : 0 < 10 ^ k := Nat.pos_pow_of_pos _ (by decide)
    have hlo : n / 10 ^ k * 10 ^ k ≤ n := Nat.div_mul_le_self n _
    have hhi : n < n / 10 ^ k * 10 ^ k + 10 ^ k := Nat.lt_div_mul_add hp
    simp only [shortestInt.go, hback]
    by_cases h : n / 10 ^ k * 10 ^ k = n
    · simp [h, show n + 10 ^ k ≠ n by omega]
    · simp [h, show n / 10 ^ k * 10 ^ k + 10 ^ k ≠ n by omega, ih]

theorem intThroughAny_encodeInt {x : GoInt} (h : x.toInt.natAbs < 2 ^ 53) :
    intThroughAny (encodeInt x) = .ok x := by
  obtain ⟨mant, exp, hr, -⟩ := roundRat_of_lt h
  have hV := natAbs?_of_roundRat h (f := ⟨decide (x.toInt < 0), mant, exp⟩) hr
  have hm : (⟨decide (x.toInt < 0), mant, exp⟩ : Float64).marshal = encodeInt x := by
    rw [Float64.marshal, hV]
    simp only [show x.toInt.natAbs < 10 ^ 21 by omega, if_true, shortestInt,
      shortestInt_go h (f := ⟨decide (x.toInt < 0), mant, exp⟩) hr]
    rfl
  have hf : Float64.ofLit (encodeInt x) = some ⟨decide (x.toInt < 0), mant, exp⟩ := by
    simp [Float64.ofLit, encodeInt, hr]
  rw [intThroughAny, hf]
  simp only [hm]
  exact decodeInt_encodeInt x

end FluxGate
