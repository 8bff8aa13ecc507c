import VermayAgent.Library.Decimal
import Mathlib.Data.Int.Log
import Mathlib.Data.Rat.Floor
import Mathlib.Algebra.Order.Field.Power
import Mathlib.Tactic.Positivity

/-! Double precision numbers as the rationals that they stand for.
A decimal numeral is rounded to the nearest of them, ties to even; a double is written with as few
decimal digits as name it. -/
namespace VermayAgent.Library

section Rounding

/-- The nearest integer, the even one of two that are equally near. -/
def roundHalfEven (q : ℚ) : ℤ :=
  if q-⌊q⌋ < 1/2 then ⌊q⌋
  else if 1/2 < q-⌊q⌋ then ⌊q⌋+1
  else if ⌊q⌋%2 = 0 then ⌊q⌋
  else ⌊q⌋+1

@[simp] theorem roundHalfEven_intCast (n : ℤ) : roundHalfEven n = n := by
  simp [roundHalfEven]

theorem roundHalfEven_nonneg {q : ℚ} (hq : 0 ≤ q) : 0 ≤ roundHalfEven q := by
  have hfloor := Int.floor_nonneg.mpr hq
  unfold roundHalfEven
  split_ifs <;> omega

theorem roundHalfEven_le {q : ℚ} {n : ℤ} (hq : q < n) : roundHalfEven q ≤ n := by
  have hfloor := Int.floor_lt.mpr hq
  unfold roundHalfEven
  split_ifs <;> omega

/-- The exponent of the last binary place: 53 places are kept, and none below that of 2^-1074. -/
def lastPlace (q : ℚ) : ℤ := max (Int.log 2 q-52) (-1074)

def roundMagnitude (q : ℚ) : ℚ := roundHalfEven (q/2^lastPlace q)*2^lastPlace q

theorem roundMagnitude_of_places_lt {k : ℕ} {e : ℤ} (hk : k < 2^53) (he : -1074 ≤ e) :
    roundMagnitude (k*2^e) = k*2^e := by
  rcases Nat.eq_zero_or_pos k with rfl | hpos
  · simp [roundMagnitude,roundHalfEven]
  have hvalue : (0 : ℚ) < k*2^e := by positivity
  have hlast : lastPlace (k*2^e) ≤ e := by
    have hlt : (k*2^e : ℚ) < ((2 : ℕ) : ℚ)^(53+e) := by
      rw [Nat.cast_ofNat,zpow_add₀ two_ne_zero]
      have hk' : (k : ℚ) < 2^(53 : ℤ) := by exact_mod_cast hk
      exact mul_lt_mul_of_pos_right hk' (by positivity)
    have hlog := (Int.lt_zpow_iff_log_lt one_lt_two hvalue).mp hlt
    unfold lastPlace
    omega
  have hinteger : (k*2^e : ℚ)/2^lastPlace (k*2^e) =
      ((k*2^(e-lastPlace (k*2^e)).toNat : ℕ) : ℤ) := by
    have hpow : (2 : ℚ)^e = 2^lastPlace (k*2^e)*2^(e-lastPlace (k*2^e)).toNat := by
      rw [← zpow_natCast,← zpow_add₀ two_ne_zero,Int.toNat_of_nonneg (by omega)]
      congr 1
      omega
    rw [div_eq_iff (by positivity)]
    push_cast
    conv_lhs => rw [hpow]
    ring
  rw [roundMagnitude,hinteger,roundHalfEven_intCast,← hinteger,div_mul_cancel₀]
  positivity

/-- A number of at most 53 binary places is kept. -/
theorem roundMagnitude_of_places {k : ℕ} {e : ℤ} (hk : k ≤ 2^53) (he : -1074 ≤ e) :
    roundMagnitude (k*2^e) = k*2^e := by
  rcases Nat.lt_or_eq_of_le hk with hlt | rfl
  · exact roundMagnitude_of_places_lt hlt he
  · have hshift : ((2^53 : ℕ) : ℚ)*2^e = ((2^52 : ℕ) : ℚ)*2^(e+1) := by
      rw [zpow_add₀ two_ne_zero]
      push_cast
      ring
    rw [hshift]
    exact roundMagnitude_of_places_lt (by norm_num) (by omega)

theorem roundMagnitude_nonneg {q : ℚ} (hq : 0 ≤ q) : 0 ≤ roundMagnitude q := by
  have hround := roundHalfEven_nonneg (div_nonneg hq (zpow_nonneg zero_le_two (lastPlace q)))
  exact mul_nonneg (by exact_mod_cast hround) (by positivity)

/-- What rounding gives has at most 53 binary places. -/
theorem roundMagnitude_places {q : ℚ} (hq : 0 ≤ q) :
    ∃ (k : ℕ) (e : ℤ), k ≤ 2^53 ∧ -1074 ≤ e ∧ roundMagnitude q = k*2^e := by
  have hnonneg := roundHalfEven_nonneg (div_nonneg hq (zpow_nonneg zero_le_two (lastPlace q)))
  have hbound : q/2^lastPlace q < ((2^53 : ℤ) : ℚ) := by
    rw [div_lt_iff₀ (by positivity)]
    have hlog : Int.log 2 q+1 ≤ 53+lastPlace q := by
      unfold lastPlace
      omega
    calc q < ((2 : ℕ) : ℚ)^(Int.log 2 q+1) := Int.lt_zpow_succ_log_self one_lt_two q
      _ ≤ ((2 : ℕ) : ℚ)^(53+lastPlace q) := zpow_le_zpow_right₀ (by norm_num) hlog
      _ = ((2^53 : ℤ) : ℚ)*2^lastPlace q := by
        rw [zpow_add₀ (by norm_num)]
        norm_num
  refine ⟨(roundHalfEven (q/2^lastPlace q)).toNat,lastPlace q,?_,le_max_right _ _,?_⟩
  · have hle := roundHalfEven_le hbound
    omega
  · have hcast : (((roundHalfEven (q/2^lastPlace q)).toNat : ℤ) : ℚ) =
        (roundHalfEven (q/2^lastPlace q) : ℚ) := by
      rw [Int.toNat_of_nonneg hnonneg]
    rw [roundMagnitude,← hcast]
    push_cast
    rfl

theorem roundMagnitude_idem {q : ℚ} (hq : 0 ≤ q) :
    roundMagnitude (roundMagnitude q) = roundMagnitude q := by
  obtain ⟨k,e,hk,he,hround⟩ := roundMagnitude_places hq
  rw [hround]
  exact roundMagnitude_of_places hk he

end Rounding

/-- The absolute value of a finite double. -/
structure Magnitude where
  val : ℚ
  nonneg : 0 ≤ val
  rounded : roundMagnitude val = val
  lt : val < 2^1024
deriving DecidableEq

inductive Float64 where
  | finite (negative : Bool) (m : Magnitude)
  | infinite (negative : Bool)
  | nan
deriving DecidableEq

namespace Float64

/-- The double nearest to a rational with a sign. -/
def round (negative : Bool) (q : ℚ) (hq : 0 ≤ q) : Float64 :=
  if h : roundMagnitude q < 2^1024 then
    .finite negative ⟨roundMagnitude q,roundMagnitude_nonneg hq,roundMagnitude_idem hq,h⟩
  else .infinite negative

theorem round_of_rounds {negative : Bool} {m : Magnitude} {q : ℚ} (hq : 0 ≤ q)
    (h : roundMagnitude q = m.val) : round negative q hq = .finite negative m := by
  have hlt : roundMagnitude q < 2^1024 := h ▸ m.lt
  rw [round,dif_pos hlt]
  congr 1
  cases m
  simp only [Magnitude.mk.injEq]
  exact h

end Float64

section Shortest

/-- The two integers around a number, the nearer one first. -/
def candidates (x : ℚ) : List ℕ :=
  let n := ⌊x⌋₊
  if x-n < 1/2 ∨ (x-n = 1/2 ∧ n%2 = 0) then [n,n+1] else [n+1,n]

/-- The first decimal that rounds to `q`, the places taken in turn from `p` on. -/
def shortestFrom (q : ℚ) : ℕ → ℤ → ℕ × ℤ
  | 0, _ => (⌊q*10^1074⌋₊,-1074)
  | fuel+1, p =>
    match (candidates (q/10^p)).find? fun d : ℕ => roundMagnitude (d*10^p) = q with
    | some d => (d,p)
    | none => shortestFrom q fuel (p-1)

/-- The shortest decimal that rounds to `q`; its last place is no lower than that of 2^-1074. -/
def shortest (q : ℚ) : ℕ × ℤ := shortestFrom q (Int.log 10 q+1075).toNat (Int.log 10 q+1)

theorem pow_mul_zpow_neg (n : ℕ) : (10 : ℚ)^n*10^(-n : ℤ) = 1 := by
  rw [zpow_neg,zpow_natCast]
  exact mul_inv_cancel₀ (by positivity)

/-- A number of binary places has as many decimal ones. -/
theorem floor_mul_pow_ten (k : ℕ) {e : ℤ} {n : ℕ} (he : -n ≤ e) :
    ((⌊(k*2^e : ℚ)*10^n⌋₊ : ℕ) : ℚ)*10^(-n : ℤ) = k*2^e := by
  have hpow : (2 : ℚ)^e*2^n = 2^(e+n).toNat := by
    rw [← zpow_natCast (2 : ℚ) (e+n).toNat,Int.toNat_of_nonneg (by omega),
      zpow_add₀ two_ne_zero,zpow_natCast]
  have hnat : (k*2^e : ℚ)*10^n = ((k*2^(e+n).toNat*5^n : ℕ) : ℚ) := by
    have hten : (10 : ℚ)^n = 2^n*5^n := by
      rw [← mul_pow]
      norm_num
    rw [hten]
    push_cast
    rw [← hpow]
    ring
  rw [hnat,Nat.floor_natCast,← hnat,mul_assoc,pow_mul_zpow_neg,mul_one]

theorem Magnitude.exact (m : Magnitude) :
    ((⌊m.val*10^1074⌋₊ : ℕ) : ℚ)*10^(-1074 : ℤ) = m.val := by
  obtain ⟨k,e,_,he,hval⟩ := roundMagnitude_places m.nonneg
  rw [m.rounded] at hval
  rw [hval]
  exact floor_mul_pow_ten k he

theorem shortestFrom_rounds (m : Magnitude) (fuel : ℕ) (p : ℤ) :
    roundMagnitude ((shortestFrom m.val fuel p).1*10^(shortestFrom m.val fuel p).2) = m.val := by
  induction fuel generalizing p with
  | zero =>
    rw [shortestFrom,m.exact]
    exact m.rounded
  | succ fuel ih =>
    rw [shortestFrom]
    cases h : (candidates (m.val/10^p)).find? fun d : ℕ => roundMagnitude (d*10^p) = m.val with
    | some d =>
      have hd := List.find?_some h
      exact of_decide_eq_true hd
    | none => exact ih (p-1)

/-- The decimal that a double is written as is read as that double. -/
theorem shortest_rounds (m : Magnitude) :
    roundMagnitude ((shortest m.val).1*10^(shortest m.val).2) = m.val :=
  shortestFrom_rounds m _ _

theorem shortest_pos {m : Magnitude} (hm : m.val ≠ 0) : 0 < (shortest m.val).1 := by
  rcases Nat.eq_zero_or_pos (shortest m.val).1 with h | h
  · have hrounds := shortest_rounds m
    rw [h] at hrounds
    refine (hm (hrounds.symm.trans ?_)).elim
    simp [roundMagnitude,roundHalfEven]
  · exact h

end Shortest

section Written

/-- At least two digits of an exponent. -/
def exponentDigits (n : ℕ) : List Digit := if n < 10 then 0::decimalDigits n else decimalDigits n

def exponentOf (e : ℤ) : ExponentSign × List Digit :=
  (if e < 0 then .minus else .plus,exponentDigits e.natAbs)

/-- The digits of a decimal with the point after the first `point` of them, as `repr` lays them
out. -/
def layoutDigits (negative : Bool) (digits : List Digit) (point : ℤ) : NumberToken :=
  if -4 < point ∧ point ≤ 16 then
    if point ≤ 0 then ⟨negative,[0],List.replicate (-point).toNat 0++digits,none⟩
    else if point < digits.length then
      ⟨negative,digits.take point.toNat,digits.drop point.toNat,none⟩
    else ⟨negative,digits++List.replicate (point-digits.length).toNat 0,[0],none⟩
  else
    ⟨negative,digits.take 1,digits.drop 1,some (exponentOf (point-1))⟩

/-- `float.__repr__` of a finite number. -/
def Magnitude.token (negative : Bool) (m : Magnitude) : NumberToken :=
  if m.val = 0 then ⟨negative,[0],[0],none⟩
  else
    let decimal := shortest m.val
    let digits := decimalDigits decimal.1
    layoutDigits negative digits (digits.length+decimal.2)

theorem ofDigits_exponentDigits (n : ℕ) : ofDigits (exponentDigits n) = n := by
  unfold exponentDigits
  split
  · rw [ofDigits_cons,ofDigits_decimalDigits]
    simp
  · exact ofDigits_decimalDigits n

theorem exponentValue_exponentOf (e : ℤ) : NumberToken.exponentValue (some (exponentOf e)) = e := by
  unfold exponentOf
  split
  · simp only [NumberToken.exponentValue,ofDigits_exponentDigits]
    omega
  · simp only [NumberToken.exponentValue,ofDigits_exponentDigits]
    omega

/-- Wherever the point stands, the decimal is the same. -/
theorem layoutDigits_magnitude (negative : Bool) {digits : List Digit} (hne : digits ≠ [])
    (p : ℤ) :
    (layoutDigits negative digits (digits.length+p)).magnitude = ofDigits digits*10^p := by
  unfold layoutDigits
  split_ifs with hrange hsmall hinside
  · have hexponent : -((List.replicate (-(digits.length+p)).toNat 0++digits).length : ℤ) = p := by
      simp only [List.length_append,List.length_replicate]
      omega
    simp only [NumberToken.magnitude,NumberToken.exponentValue,List.singleton_append,zero_sub,
      hexponent]
    rw [ofDigits_cons,ofDigits_append,ofDigits_zeros]
    simp
  · have hexponent : -((digits.drop (digits.length+p).toNat).length : ℤ) = p := by
      simp only [List.length_drop]
      omega
    simp only [NumberToken.magnitude,NumberToken.exponentValue,zero_sub,hexponent,
      List.take_append_drop]
  · have hzeros : digits++List.replicate (digits.length+p-digits.length).toNat 0++[(0 : Digit)] =
        digits++List.replicate (p.toNat+1) 0 := by
      rw [List.append_assoc,List.replicate_succ']
      congr 4
      omega
    have hp : 0 ≤ p := by omega
    simp only [NumberToken.magnitude,NumberToken.exponentValue,hzeros,ofDigits_append,
      ofDigits_zeros,List.length_replicate,List.length_singleton,zero_sub,Nat.cast_one]
    have hpow : (10 : ℚ)^p = 10^p.toNat := by
      rw [← zpow_natCast,Int.toNat_of_nonneg hp]
    rw [hpow,add_zero]
    push_cast
    rw [zpow_neg_one,pow_succ]
    field_simp
  · have hlength := List.length_pos_iff.mpr hne
    have hexponent : digits.length+p-1-((digits.drop 1).length : ℤ) = p := by
      rw [List.length_drop]
      omega
    simp only [NumberToken.magnitude,exponentValue_exponentOf,hexponent,List.take_append_drop]

theorem exponentDigits_ne_nil (n : ℕ) : exponentDigits n ≠ [] := by
  unfold exponentDigits
  split
  · simp
  · exact decimalDigits_ne_nil n

theorem layoutDigits_wellFormed (negative : Bool) {d : Digit} (hd : d ≠ 0) (digits : List Digit)
    (point : ℤ) : (layoutDigits negative (d::digits) point).WellFormed := by
  unfold layoutDigits
  split_ifs with hrange hsmall hinside
  · exact ⟨⟨0,[],rfl,fun _ => rfl⟩,nofun⟩
  · obtain ⟨n,hn⟩ := Nat.exists_eq_succ_of_ne_zero (by omega : point.toNat ≠ 0)
    refine ⟨⟨d,digits.take n,?_,fun h => (hd h).elim⟩,nofun⟩
    rw [hn,List.take_succ_cons]
  · exact ⟨⟨d,_,rfl,fun h => (hd h).elim⟩,nofun⟩
  · refine ⟨⟨d,[],rfl,fun _ => rfl⟩,fun sign more h => ?_⟩
    cases h
    exact exponentDigits_ne_nil _

theorem layoutDigits_negative (negative : Bool) (digits : List Digit) (point : ℤ) :
    (layoutDigits negative digits point).negative = negative := by
  unfold layoutDigits
  split_ifs <;> rfl

theorem layoutDigits_float (negative : Bool) {digits : List Digit} (hne : digits ≠ [])
    (point : ℤ) : (layoutDigits negative digits point).fraction ≠ [] ∨
      (layoutDigits negative digits point).exponent ≠ none := by
  unfold layoutDigits
  split_ifs with hrange hsmall hinside
  · exact .inl (by simp [hne])
  · refine .inl fun h => ?_
    have hlength := congrArg List.length h
    simp only [List.length_drop,List.length_nil] at hlength
    omega
  · exact .inl (by simp)
  · exact .inr (by simp)

namespace Magnitude

theorem token_wellFormed (negative : Bool) (m : Magnitude) : (m.token negative).WellFormed := by
  unfold token
  split_ifs with hm
  · exact ⟨⟨0,[],rfl,fun _ => rfl⟩,nofun⟩
  · obtain ⟨d,digits,hdigits,hd⟩ := decimalDigits_head (shortest_pos hm)
    dsimp only
    rw [hdigits]
    exact layoutDigits_wellFormed negative hd digits _

theorem token_negative (negative : Bool) (m : Magnitude) :
    (m.token negative).negative = negative := by
  unfold token
  split_ifs
  · rfl
  · exact layoutDigits_negative negative _ _

/-- A double is written with a fraction or an exponent. -/
theorem token_float (negative : Bool) (m : Magnitude) :
    (m.token negative).fraction ≠ [] ∨ (m.token negative).exponent ≠ none := by
  unfold token
  split_ifs
  · exact .inl (by simp)
  · exact layoutDigits_float negative (decimalDigits_ne_nil _) _

/-- What is written rounds to the double. -/
theorem token_rounds (negative : Bool) (m : Magnitude) :
    roundMagnitude (m.token negative).magnitude = m.val := by
  unfold token
  split_ifs with hm
  · simp [NumberToken.magnitude,ofDigits,addDigit,roundMagnitude,roundHalfEven,hm]
  · rw [layoutDigits_magnitude negative (decimalDigits_ne_nil _),ofDigits_decimalDigits]
    exact shortest_rounds m

end Magnitude

end Written
end VermayAgent.Library
