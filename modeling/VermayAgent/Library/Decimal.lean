import VermayAgent.Library.JsonText
import Mathlib.Data.Rat.Defs
import Mathlib.Tactic.FieldSimp
import Mathlib.Tactic.Ring

/-! Decimal numerals and what the number tokens of a text stand for. -/
namespace VermayAgent.Library

section Digits

def addDigit (n : Nat) (d : Digit) : Nat := n*10+d.val

def ofDigits (digits : List Digit) : Nat := digits.foldl addDigit 0

/-- The digits of `n` before those already there; the fuel bounds their number. -/
def digitsBefore : Nat → Nat → List Digit → List Digit
  | 0, _, digits => digits
  | fuel+1, n, digits =>
    if n < 10 then Fin.ofNat 10 n::digits
    else digitsBefore fuel (n/10) (Fin.ofNat 10 n::digits)

def decimalDigits (n : Nat) : List Digit := digitsBefore (n+1) n []

theorem foldl_addDigit (n : Nat) (digits : List Digit) :
    digits.foldl addDigit n = n*10^digits.length+ofDigits digits := by
  induction digits generalizing n with
  | nil => simp [ofDigits]
  | cons d digits ih =>
    have hd : ofDigits (d::digits) = addDigit 0 d*10^digits.length+ofDigits digits :=
      ih (addDigit 0 d)
    rw [List.foldl_cons,ih,hd,List.length_cons,pow_succ]
    simp only [addDigit]
    ring

theorem ofDigits_append (a b : List Digit) :
    ofDigits (a++b) = ofDigits a*10^b.length+ofDigits b := by
  rw [ofDigits,List.foldl_append,foldl_addDigit]
  rfl

theorem ofDigits_cons (d : Digit) (digits : List Digit) :
    ofDigits (d::digits) = d.val*10^digits.length+ofDigits digits := by
  have h := ofDigits_append [d] digits
  rw [List.singleton_append] at h
  rw [h]
  simp [ofDigits,addDigit]

@[simp] theorem ofDigits_zeros (n : Nat) : ofDigits (List.replicate n 0) = 0 := by
  induction n with
  | zero => rfl
  | succ n ih => rw [List.replicate_succ,ofDigits_cons,ih]; simp

/-- The digits that are written before others stand for the number. -/
theorem ofDigits_digitsBefore {fuel n : Nat} (h : n < fuel) (digits : List Digit) :
    ofDigits (digitsBefore fuel n digits) = n*10^digits.length+ofDigits digits := by
  induction fuel generalizing n digits with
  | zero => omega
  | succ fuel ih =>
    rw [digitsBefore]
    split
    · rename_i hn
      rw [ofDigits_cons]
      congr 2
      simpa [Fin.ofNat] using Nat.mod_eq_of_lt hn
    · rw [ih (by omega),ofDigits_cons,List.length_cons,pow_succ]
      have hdiv := Nat.div_add_mod n 10
      have hval : (Fin.ofNat 10 n).val = n%10 := rfl
      rw [hval]
      calc n/10*(10^digits.length*10)+(n%10*10^digits.length+ofDigits digits)
          = (10*(n/10)+n%10)*10^digits.length+ofDigits digits := by ring
        _ = n*10^digits.length+ofDigits digits := by rw [hdiv]

@[simp] theorem ofDigits_decimalDigits (n : Nat) : ofDigits (decimalDigits n) = n := by
  rw [decimalDigits,ofDigits_digitsBefore (Nat.lt_succ_self n)]
  simp [ofDigits]

/-- A numeral has no leading zero, except that of zero itself. -/
theorem digitsBefore_head {fuel n : Nat} (h : n < fuel) (hn : 0 < n) (digits : List Digit) :
    ∃ d more, digitsBefore fuel n digits = d::more ∧ d ≠ 0 := by
  induction fuel generalizing n digits with
  | zero => omega
  | succ fuel ih =>
    rw [digitsBefore]
    split
    · rename_i hlt
      refine ⟨_,_,rfl,fun hd => ?_⟩
      have hval := congrArg Fin.val hd
      simp only [Fin.ofNat,Fin.coe_ofNat_eq_mod] at hval
      omega
    · exact ih (by omega) (by omega) _

theorem decimalDigits_head {n : Nat} (hn : 0 < n) :
    ∃ d more, decimalDigits n = d::more ∧ d ≠ 0 :=
  digitsBefore_head (Nat.lt_succ_self n) hn []

theorem decimalDigits_ne_nil (n : Nat) : decimalDigits n ≠ [] := by
  rcases Nat.eq_zero_or_pos n with rfl | hn
  · decide
  · obtain ⟨d,more,h,_⟩ := decimalDigits_head hn
    rw [h]
    simp

end Digits

namespace NumberToken

/-- The exponent as it is written. -/
def exponentValue : Option (ExponentSign × List Digit) → ℤ
  | none => 0
  | some (.minus,digits) => -ofDigits digits
  | some (_,digits) => ofDigits digits

/-- The number that the token stands for, its sign left out. -/
def magnitude (t : NumberToken) : ℚ :=
  ofDigits (t.integer++t.fraction)*10^(exponentValue t.exponent-t.fraction.length)

/-- The token of an integer. -/
def ofInt (n : ℤ) : NumberToken := ⟨decide (n < 0),decimalDigits n.natAbs,[],none⟩

/-- The integer that a token without fraction and exponent stands for. -/
def toInt (t : NumberToken) : ℤ :=
  if t.negative then -ofDigits t.integer else ofDigits t.integer

theorem ofInt_wellFormed (n : ℤ) :
    ∃ d digits, (ofInt n).integer = d::digits ∧ (d = 0 → digits = []) := by
  rcases Nat.eq_zero_or_pos n.natAbs with h | h
  · exact ⟨0,[],by rw [ofInt,h]; rfl,fun _ => rfl⟩
  · obtain ⟨d,digits,heq,hd⟩ := decimalDigits_head h
    exact ⟨d,digits,heq,fun h0 => (hd h0).elim⟩

@[simp] theorem toInt_ofInt (n : ℤ) : (ofInt n).toInt = n := by
  unfold toInt ofInt
  rw [ofDigits_decimalDigits]
  by_cases hn : n < 0
  · rw [if_pos (decide_eq_true hn)]
    omega
  · rw [if_neg (by simpa using hn)]
    omega

@[simp] theorem magnitude_ofInt (n : ℤ) : (ofInt n).magnitude = n.natAbs := by
  simp [magnitude,ofInt,exponentValue]

end NumberToken
end VermayAgent.Library
